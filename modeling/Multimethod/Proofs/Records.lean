/-
  Multimethod.Proofs.Records — the journal tells when a converter is replaced.

  Each registration of a converter is recorded, under the numbers of its two types. So where
  the journal has no new record for two numbers, the table still has the converter for them
  that it had (`World.Leads.converter_kept`), whatever else was done and whatever scripts
  ran on the way. The argument goes through every operation: a relation between worlds
  that all basic steps and registrations respect is respected by every run
  (`Run.closed_along`), and to respect the records is such a relation (`World.Spares`).
-/
import Multimethod.Proofs.Program
import Multimethod.Proofs.Steps

namespace Multimethod

/-! ## Relations between the worlds of a run -/

namespace Run

variable {α : Type} {R : World → World → Prop}

/-- The relation holds between the worlds before and after the operation, as far as it does for
    the scripts that are called. -/
def Along (R : World → World → Prop) (r : Run α) : Prop :=
  ∀ c : Caller, (∀ s w o v, c s w = some (o, v) → R w v) → ∀ w x v, r c w = some (x, v) → R w v

/-- What the basic steps and the registrations respect, operations respect. -/
theorem closed_along (hrefl : ∀ w, R w w) (htrans : ∀ {w v u}, R w v → R v u → R w u)
    (hsteps : Step.Closed fun _ s => ∀ w, R w (s w).2) (hconverter : ∀ c w, R w (Step.addConverter c w).2)
    (hmaker : ∀ id make w, R w (Step.setMaker id make w).2) (hfactory : ∀ id make w, R w (Step.addFactory id make w).2) :
    Closed (fun _ s => ∀ w, R w (s w).2) fun _ r => Along R r where
  steps := hsteps
  addConverter := hconverter
  setMaker := hmaker
  addFactory := hfactory
  step {_ s} hs c _ w x v h := by
    have hv : v = (s w).2 := congrArg Prod.snd (Option.some.inj h).symm
    exact hv ▸ hs w
  call s c hc w o v h := hc s w o v h
  pure a c _ w x v h := by cases h; exact hrefl w
  bind hr hf c hc w y u h := by
    obtain ⟨⟨x, v⟩, hx, hy⟩ := Option.bind_eq_some_iff.mp h
    exact htrans (hr c hc w x v hx) (hf x c hc v y u hy)

/-- So scripts respect it, however deep they nest. -/
theorem along_run (hR : Closed (fun _ s => ∀ w, R w (s w).2) fun _ r => Along R r) (depth : Nat) {s : Script} {w v : World}
    {o : Option Value} (h : Script.run depth s w = some (o, v)) : R w v := by
  induction depth generalizing s w o v with
  | zero => cases h
  | succ depth ih => exact hR.follow s (Script.run depth) (fun _ _ _ _ h => ih h) w o v h

namespace Closed

variable {Q : (α : Type) → Step α → Prop} {P : (α : Type) → Run α → Prop}

/-- Every operation of a program has a closed property. -/
theorem run (hP : Closed Q P) (o : Op) : P (List Fact) o.run := by
  have step : ∀ {α : Type} {s : Step α} {f : α → List Fact}, Q α s → P (List Fact) (do return f (← s)) := fun hs =>
    hP.bind (hP.step hs) fun _ => hP.pure _
  cases o with
  | act a => exact hP.bind (hP.perform a) fun _ => hP.pure _
  | createNamed name => exact hP.bind (hP.createNamed name) fun _ => hP.pure _
  | describeType t => exact step (hP.steps.descriptorOf t)
  | addConverter c => exact step (hP.addConverter c)
  | setMaker id make => exact step (hP.setMaker id make)
  | addFactory id make => exact step (hP.addFactory id make)
  | addFactoryFor t make =>
    exact step (hP.steps.bind (hP.steps.typeId t) fun id =>
      hP.steps.bind (hP.addFactory id make) fun _ => hP.steps.pure id)
  | registerClass c =>
    exact step (hP.steps.bind (hP.steps.typeId _) fun id => hP.steps.bind
      (hP.steps.bind (hP.setMaker id _) fun _ => hP.steps.pure ()) fun _ =>
        hP.steps.bind (hP.addFactory id _) fun _ => hP.steps.pure id)
  | listTypes wanted => exact hP.bind (hP.listTypes wanted) fun _ => hP.pure _
  | newCounter => exact step hP.steps.newCounter
  | note e => exact step (hP.steps.note e)
  | call f args => exact hP.bind (hP.callFunction f args) fun _ => hP.pure _
  | exactly d types => exact step (hP.steps.exactly d types)
  | exactlyArgs d args => exact step (hP.steps.exactlyArgs d args)
  | convertible d types => exact hP.bind (hP.convertible d types) fun _ => hP.pure _
  | convertibleArgs d args => exact hP.bind (hP.convertibleArgs d args) fun _ => hP.pure _
  | callOneExact d args =>
    exact hP.bind (hP.bind (hP.step (hP.steps.exactlyArgs d args)) fun _ => hP.callLast _ args) fun _ => hP.pure _
  | callOneConvertible d args =>
    exact hP.bind (hP.bind (hP.convertibleArgs d args) fun _ => hP.callLast _ args) fun _ => hP.pure _
  | callAllExact d args =>
    exact hP.bind (hP.bind (hP.step (hP.steps.exactlyArgs d args)) fun _ => hP.callAll _ args) fun _ => hP.pure _
  | callAllConvertible d args =>
    exact hP.bind (hP.bind (hP.convertibleArgs d args) fun _ => hP.callAll _ args) fun _ => hP.pure _

end Closed

end Run

/-- A relation that every operation respects holds between the worlds of a program. -/
theorem World.Leads.along {R : World → World → Prop} (hrefl : ∀ w, R w w) (htrans : ∀ {w v u}, R w v → R v u → R w u)
    (hR : Run.Closed (fun _ s => ∀ w, R w (s w).2) fun _ r => Run.Along R r) {w v : World} (h : w.Leads v) : R w v := by
  induction h with
  | refl => exact hrefl w
  | step _ o depth hr ih =>
    exact htrans ih (hR.run o (Script.run depth) (fun _ _ _ _ h => Run.along_run hR depth h) _ _ _ hr)

/-! ## Records of registrations -/

namespace World

variable {i j : TypeId} {w v u : World}

/-- How often the journal records a converter between two numbers. -/
def timesRegistered (i j : TypeId) (w : World) : Nat := w.journal.count (.converterRegistered i j)

/-- No record is lost, and without a new one the converter between the numbers is the old one. -/
structure Spares (i j : TypeId) (w v : World) : Prop where
  le : w.timesRegistered i j ≤ v.timesRegistered i j
  kept : v.timesRegistered i j = w.timesRegistered i j →
    v.types.converters.find? (i, j) = w.types.converters.find? (i, j)

namespace Spares

theorem refl (w : World) : Spares i j w w := ⟨Nat.le_refl _, fun _ => rfl⟩

theorem trans (h : Spares i j w v) (k : Spares i j v u) : Spares i j w u := by
  have hle := h.le
  have kle := k.le
  refine ⟨Nat.le_trans hle kle, fun heq => ?_⟩
  have hv : v.timesRegistered i j = w.timesRegistered i j := by omega
  exact (k.kept (heq.trans hv.symm)).trans (h.kept hv)

/-- What at most adds records and leaves the converters alone. -/
theorem of_suffix (hj : w.journal <:+ v.journal) (hc : v.types.converters = w.types.converters) : Spares i j w v :=
  ⟨hj.sublist.count_le _, fun _ => by rw [hc]⟩

/-- What records one thing and leaves the converters alone. -/
theorem recorded {e : Event} (hj : v.journal = e :: w.journal) (hc : v.types.converters = w.types.converters) :
    Spares i j w v := of_suffix (hj ▸ List.suffix_cons e w.journal) hc

theorem foldl_note (l : List ClassNode) (f : ClassNode → Event) (w : World) :
    Spares i j w (l.foldl (fun w m => w.note (f m)) w) := by
  induction l generalizing w with
  | nil => exact .refl w
  | cons m l ih => exact (recorded rfl rfl : Spares i j w (w.note (f m))).trans (ih _)

theorem node (c : ClassDecl) (w : World) : Spares i j w (Step.node c w).2 := by
  have h : Spares i j w (w.withClasses (ClassCache.node c w.registries.classes).2.2) :=
    of_suffix (List.suffix_refl _) rfl
  exact h.trans (foldl_note _ _ _)

theorem nodeOf (t : Ty) (w : World) : Spares i j w (Step.nodeOf t w).2 := by
  unfold Step.nodeOf
  cases t.cls? with
  | none => exact .refl w
  | some c => exact node c w

theorem idOf (t : Ty) (w : World) : Spares i j w (Step.idOf t w).2 := by
  cases h : w.types.byType.find? t with
  | some id => rw [Step.idOf_of_bound h]; exact .refl w
  | none =>
    simp only [Step.idOf, Step.bind_apply, Step.get_apply, h, Step.set_apply, Step.note_apply, Step.pure_apply]
    exact (nodeOf t w).trans (recorded rfl rfl)

theorem pure_ite {α : Type} {p : Prop} [Decidable p] (x y : α) (w : World) :
    Spares i j w ((if p then pure x else pure y : Step α) w).2 := by
  split <;> exact .refl w

theorem addAlias (t : Ty) (name : String) (w : World) : Spares i j w (Step.addAlias t name w).2 := by
  unfold Step.addAlias
  split
  · exact .refl w
  · refine (idOf t w).trans ?_
    simp only [Step.bind_apply, Step.get_apply]
    generalize (Step.idOf t w).1 = original
    generalize (Step.idOf t w).2 = u
    cases u.types.byName.find? name with
    | some existing => exact pure_ite _ _ u
    | none =>
      cases u.types.entries.find? original with
      | none => exact .refl u
      | some e => exact recorded rfl rfl

theorem closed_step : Step.Closed fun _ s => ∀ w, Spares i j w (s w).2 where
  pure _ := .refl
  bind hs hf w := (hs w).trans (hf _ _)
  get := .refl
  note _ _ := recorded rfl rfl
  node := node
  idOf := idOf
  addAlias := addAlias
  newCounter _ := of_suffix (List.suffix_refl _) rfl
  tick _ _ := of_suffix (List.suffix_refl _) rfl
  allocate _ _ := of_suffix (List.suffix_refl _) rfl

/-- A registration between these very numbers is recorded; one between others is none of theirs. -/
theorem addConverter (c : Converter) (w : World) : Spares i j w (Step.addConverter c w).2 := by
  let u := (Step.typeId c.target (Step.typeId c.source w).2).2
  let key := ((Step.typeId c.source w).1, (Step.typeId c.target (Step.typeId c.source w).2).1)
  have hnumbers : Spares i j w u := (closed_step.typeId c.source w).trans (closed_step.typeId c.target _)
  refine hnumbers.trans ?_
  have hjournal : (Step.addConverter c w).2.journal = .converterRegistered key.1 key.2 :: u.journal := rfl
  have hconverters : (Step.addConverter c w).2.types.converters = u.types.converters.insert key c := rfl
  by_cases hkey : key = (i, j)
  · have htimes : (Step.addConverter c w).2.timesRegistered i j = u.timesRegistered i j + 1 := by
      rw [timesRegistered, hjournal, hkey]; exact List.count_cons_self
    exact ⟨by omega, fun h => by omega⟩
  · refine ⟨?_, fun _ => by rw [hconverters, Table.find?_insert, if_neg hkey]⟩
    rw [timesRegistered, timesRegistered, hjournal]
    exact List.count_le_count_cons

theorem setMaker (id : TypeId) (make : Script) (w : World) : Spares i j w (Step.setMaker id make w).2 := by
  cases h : (w.types.entries.find? id).bind Entry.node with
  | none => rw [Step.setMaker_of_none h]; exact .refl w
  | some n =>
    rw [Step.setMaker_of_some h]
    exact recorded rfl rfl

theorem closed_run : Run.Closed (fun _ s => ∀ w, Spares i j w (s w).2) fun _ r => Run.Along (Spares i j) r :=
  Run.closed_along refl trans closed_step addConverter setMaker fun _ _ _ => recorded rfl rfl

end Spares

/-- Where no converter between two numbers was registered, the table has the one it had. -/
theorem Leads.converter_kept (h : w.Leads v) (hv : v.timesRegistered i j = w.timesRegistered i j) :
    v.types.converters.find? (i, j) = w.types.converters.find? (i, j) :=
  (h.along Spares.refl Spares.trans Spares.closed_run).kept hv

end World

end Multimethod
