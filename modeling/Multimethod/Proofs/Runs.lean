/-
  Multimethod.Proofs.Runs — what every run of a program keeps.

  Whatever the promises of a program are (`Discipline`), the behaviour that its registries
  keep has made them (`Discipline.Ok`), and they stay `Good`: sound, with such behaviour
  only. `Ensures` says that an operation, if it ends, leaves good registries behind and
  that its result is as told; there is one lemma for each function that may call scripts.
  Where a selection or a match says yes, each test on the way was `Asked` and said yes.
  A script that keeps the promises is followed by induction on the script, a call by
  induction on how deep calls may nest, a program by induction on its operations
  (`Session.Leads.keeps`).
-/
import Multimethod.Proofs.Fitting

namespace Multimethod

open Registries (Grows Course Quiet Stores)

namespace Discipline

variable {D : Discipline} {r s : Registries}

/-- The value fits, as far as the program is honest. -/
def Fits (D : Discipline) (r : Registries) (v : Value) : Prop := D.honest → v.Fits r

/-- The fact is true of the registries. -/
def Holds (D : Discipline) (r : Registries) : Fact → Prop
  | .value v => D.Fits r v
  | .number t id => r.types.Numbers t id

/-- Behaviour that may be registered: it keeps the promises, given true facts. -/
def Ok (D : Discipline) (r : Registries) : Registration → Prop
  | .converter c => ∃ held, (∀ f ∈ held, D.Holds r f) ∧ ∀ x, (c.run x).Obeys D (.value (.plain x) :: held)
  | .maker make => ∃ held, (∀ f ∈ held, D.Holds r f) ∧ make.Obeys D held
  | .factory id make => (D.typed → ∃ t, t ≠ .any ∧ r.types.Numbers t id ∧ make.Returns t) ∧
      ∃ held, (∀ f ∈ held, D.Holds r f) ∧ make.Obeys D held

/-- Sound registries that keep only such behaviour. -/
structure Good (D : Discipline) (r : Registries) : Prop where
  sound : r.Sound
  stores : Stores D.Ok r

theorem Fits.mono (h : Grows r s) {v : Value} (hv : D.Fits r v) : D.Fits s v := fun hd => (hv hd).mono h

theorem Holds.mono (h : Grows r s) {f : Fact} (hf : D.Holds r f) : D.Holds s f := by
  cases f with
  | value v => exact Fits.mono h hf
  | number t id => exact h.numbers hf

theorem Holds.mono_all (h : Grows r s) {held : List Fact} (hh : ∀ f ∈ held, D.Holds r f) :
    ∀ f ∈ held, D.Holds s f := fun f hf => (hh f hf).mono h

theorem Ok.mono (h : Grows r s) {x : Registration} (hx : D.Ok r x) : D.Ok s x := by
  cases x with
  | converter c => obtain ⟨held, hh, hc⟩ := hx; exact ⟨held, Holds.mono_all h hh, hc⟩
  | maker make => obtain ⟨held, hh, hm⟩ := hx; exact ⟨held, Holds.mono_all h hh, hm⟩
  | factory id make =>
    obtain ⟨ht, held, hh, hm⟩ := hx
    refine ⟨fun hd => ?_, held, Holds.mono_all h hh, hm⟩
    obtain ⟨t, hne, hn, hr⟩ := ht hd
    exact ⟨t, hne, h.numbers hn, hr⟩

theorem Good.course (h : D.Good r) (hc : Course D.Ok r s) : D.Good s :=
  ⟨Course.sound h.sound hc, Course.stores (fun hg hx => Ok.mono hg hx) h.sound h.stores hc⟩

/-- What is made of true facts is as true as they are. -/
theorem fits_from {held : List Fact} (hh : ∀ f ∈ held, D.Holds r f) {v : Value}
    (hv : D.honest → v.From held) : D.Fits r v :=
  fun hd => (hv hd).fits fun u hu => hh (.value u) hu hd

/-! ## The start -/

/-- The registries of a fresh world keep the builtin converters, which make a content of what
    is in the given one. -/
theorem good_fresh (D : Discipline) : D.Good World.fresh.registries := by
  refine ⟨Registries.sound_fresh, fun hc => ?_, fun he hm => ?_, fun hf => ?_⟩
  · obtain ⟨cs, hfresh, hconv⟩ := Registries.fresh_types
    rw [hfresh] at hc
    obtain ⟨a, b, rfl, -⟩ := hconv hc
    refine ⟨[], (fun f hf => by cases hf), ?_⟩
    intro x
    simp only [TypeTable.builtinConverter]
    split
    · rename_i d hd
      exact fun _ => .content fun y hy => .inside (.held (List.mem_cons_self ..)) (Content.mem_boxes_convert hd hy)
    · trivial
  · obtain ⟨cs, hfresh, -⟩ := Registries.fresh_types
    rw [hfresh] at he
    obtain ⟨p, -, -, rfl⟩ := Registries.builtin_entry he
    cases hm
  · cases hf

end Discipline

/-- What a converter answers for a content: the end of its script, if that is of its target type. -/
def Converter.answer (k : Converter) (x : Content) : Run (Option Value) := do
  match ← Run.call (k.run x) with
  | some v => return if v.ty = k.target then some v else none
  | none => return none

/-- Puts an answer into a box. -/
def Step.boxAnswer : Option Value → Step (Option Box)
  | some v => do return some (← Step.box v)
  | none => return none

namespace Run

/-! ## The logic of runs -/

variable {α β : Type} {D : Discipline} {c : Caller} {w : World}

/-- The operation, if it ends, goes a course that `D` allows, and `Q` holds in the end. -/
def Ensures (D : Discipline) (c : Caller) (w : World) (r : Run α) (Q : Registries → α → Prop) : Prop :=
  ∀ x v, r c w = some (x, v) → Course D.Ok w.registries v.registries ∧ Q v.registries x

/-- Scripts that keep the promises may be called. -/
def Keeps (D : Discipline) (c : Caller) : Prop :=
  ∀ {w s held}, D.Good w.registries → (∀ f ∈ held, D.Holds w.registries f) → s.Obeys D held →
    Ensures D c w (call s) fun r o => ∀ v ∈ o, D.Fits r v

theorem bind_eq_some {r : Run α} {f : α → Run β} {p : β × World} :
    (r >>= f) c w = some p ↔ ∃ x v, r c w = some (x, v) ∧ f x c v = some p := by
  constructor
  · intro h
    obtain ⟨⟨x, v⟩, hr, hf⟩ := Option.bind_eq_some_iff.mp h
    exact ⟨x, v, hr, hf⟩
  · rintro ⟨x, v, hr, hf⟩
    exact Option.bind_eq_some_iff.mpr ⟨(x, v), hr, hf⟩

namespace Ensures

variable {Q R : Registries → α → Prop}

theorem pure {x : α} (hq : Q w.registries x) : Ensures D c w (pure x) Q := by
  intro y v h
  cases h; exact ⟨.refl, hq⟩

theorem mono {r : Run α} (h : Ensures D c w r Q) (hq : ∀ {s x}, Q s x → R s x) : Ensures D c w r R :=
  fun x v hr => (h x v hr).imp_right hq

/-- A step that goes an allowed course. -/
theorem course {s : Step α} (hs : Course D.Ok w.registries (s w).2.registries) (hq : Q (s w).2.registries (s w).1) :
    Ensures D c w (ofStep s) Q := by
  intro y v h
  have he : s w = (y, v) := Option.some.inj h
  rw [he] at hs hq
  exact ⟨hs, hq⟩

theorem step {s : Step α} (hw : D.Good w.registries) (hs : Step.IsQuiet s)
    (hq : Q (s w).2.registries (s w).1) : Ensures D c w (ofStep s) Q :=
  course (hs w hw.sound).course hq

theorem bind {r : Run β} {P : Registries → β → Prop} {f : β → Run α} (hw : D.Good w.registries)
    (hr : Ensures D c w r P)
    (hf : ∀ {v x}, D.Good v.registries → Grows w.registries v.registries → P v.registries x →
      Ensures D c v (f x) Q) : Ensures D c w (r >>= f) Q := by
  intro y u h
  obtain ⟨x, v, hx, hy⟩ := bind_eq_some.mp h
  obtain ⟨hcourse, hp⟩ := hr x v hx
  obtain ⟨hcourse', hq⟩ := hf (hw.course hcourse) (Course.grows hw.sound hcourse) hp y u hy
  exact ⟨hcourse.trans hcourse', hq⟩

/-- After a quiet step the operation goes on from where the step led. -/
theorem after {s : Step β} {f : β → Run α} (hw : D.Good w.registries) (hs : Step.IsQuiet s)
    (hf : D.Good (s w).2.registries → Grows w.registries (s w).2.registries →
      Ensures D c (s w).2 (f (s w).1) Q) : Ensures D c w (ofStep s >>= f) Q := by
  intro y u h
  have hq := hs w hw.sound
  obtain ⟨hcourse, hq'⟩ := hf (hw.course hq.course) (Course.grows hw.sound hq) y u h
  exact ⟨hq.course.trans hcourse, hq'⟩

end Ensures

/-! ## Conversion and creation -/

theorem applyConverter_eq {k : Converter} {b : Box} {x : Content} (h : b.downcast k.source = some x) :
    applyConverter k b = k.answer x >>= fun o => ofStep (Step.boxAnswer o) := by
  unfold applyConverter Converter.answer
  rw [h]
  funext c w
  show (call (k.run x) c w).bind _ = ((call (k.run x) c w).bind _).bind _
  rw [Option.bind_assoc]
  congr 1
  funext p
  obtain ⟨o, u⟩ := p
  cases o with
  | none => rfl
  | some y =>
    by_cases hy : y.ty = k.target
    · simp only [hy, if_true]; rfl
    · simp only [hy, if_false]; rfl

section

variable (hc : Keeps D c) (hw : D.Good w.registries)
include hc hw

theorem ensures_callBoxed {s : Script} {held : List Fact} (hh : ∀ f ∈ held, D.Holds w.registries f)
    (hs : s.Obeys D held) : Ensures D c w (callBoxed s) fun r b => D.Fits r (.any b) := by
  refine .bind hw (hc hw hh hs) ?_
  intro v o hv _ ho
  cases o with
  | none => exact .pure fun _ => .null
  | some x => exact .step hv (Step.isQuiet_box x) fun hd => Step.fits_box hv.sound (ho x rfl hd)

/-- An answer is of the target type, and fits when the converter keeps the promises. -/
theorem ensures_answer {k : Converter} {x : Content} (hk : D.Ok w.registries (.converter k))
    (hx : D.Fits w.registries (.plain x)) :
    Ensures D c w (k.answer x) fun r o => ∀ y ∈ o, y.ty = k.target ∧ D.Fits r y := by
  obtain ⟨held, hh, hrun⟩ := hk
  have hfits : ∀ f ∈ Fact.value (.plain x) :: held, D.Holds w.registries f := by
    intro f hf
    rcases List.mem_cons.mp hf with rfl | hf
    · exact hx
    · exact hh f hf
  refine .bind hw (hc hw hfits (hrun x)) ?_
  intro v o _ _ ho
  cases o with
  | none => exact .pure fun _ h => by cases h
  | some y =>
    dsimp only
    split
    · exact .pure fun z hz => by cases hz; exact ⟨‹_›, ho y rfl⟩
    · exact .pure fun _ h => by cases h

theorem ensures_applyConverter {k : Converter} {b : Box} (hk : D.Ok w.registries (.converter k))
    (hb : D.Fits w.registries (.any b)) :
    Ensures D c w (applyConverter k b) fun r o => ∀ b ∈ o, D.Fits r (.any b) := by
  cases hx : b.downcast k.source with
  | none =>
    rw [applyConverter, hx]
    exact .pure fun _ h => by cases h
  | some x =>
    rw [applyConverter_eq hx]
    refine .bind hw (ensures_answer hc hw hk fun hd => ((hb hd).downcast hx).2) ?_
    intro v o hv _ ho
    cases o with
    | none => exact .pure fun _ h => by cases h
    | some y =>
      refine .step hv ((Step.isQuiet_box y).bind fun _ => Step.isQuiet_pure _) fun b' hb' hd => ?_
      cases hb'
      exact Step.fits_box hv.sound ((ho y rfl).2 hd)

theorem ensures_tableConvert {b : Box} {wanted : TypeId} (hb : D.Fits w.registries (.any b)) :
    Ensures D c w (tableConvert b wanted) fun r o => ∀ b ∈ o, D.Fits r (.any b) := by
  refine .after hw (Step.isQuiet_describe b) ?_
  intro hv hg
  have hb' := hb.mono hg
  have some_b : ∀ x ∈ some b, D.Fits (Step.describe b w).2.registries (.any x) := fun x hx => by
    cases hx; exact hb'
  split
  · exact .pure some_b
  · refine .after hv Step.isQuiet_get ?_
    intro _ _
    dsimp only
    split
    · exact .pure some_b
    · split
      · exact .pure fun _ h => by cases h
      · rename_i k hk
        exact ensures_applyConverter hc hv (hv.stores.converter hk) hb'

theorem ensures_convert {b : Box} {wanted : TypeId} (hb : D.Fits w.registries (.any b)) :
    Ensures D c w (convert b wanted) fun r b => D.Fits r (.any b) := by
  have table : Ensures D c w (do return (← tableConvert b wanted).getD .null) fun r b => D.Fits r (.any b) := by
    refine .bind hw (ensures_tableConvert hc hw hb) fun {v o} _ _ ho => .pure ?_
    intro hd
    cases o with
    | none => exact .null
    | some x => exact ho x rfl hd
  cases b with
  | null => exact table
  | plain id x => exact table
  | object id target =>
    refine .after hw (Step.isQuiet_canConvert _ wanted) ?_
    intro _ _
    split
    · rename_i hcan
      exact .pure fun hd => Step.fits_canConvert hw.sound (hb hd) hcan
    · exact .pure fun _ => .null

theorem ensures_readContent {b : Box} {t : Ty} (hb : D.Fits w.registries (.any b)) :
    Ensures D c w (readContent b t) fun r o => ∀ v ∈ o, D.Fits r v := by
  unfold readContent
  cases hx : b.downcast t with
  | some x =>
    refine .pure ?_
    intro v hv hd
    cases hv
    exact ((hb hd).downcast hx).2
  | none =>
    cases b with
    | null => exact .pure fun _ h => by cases h
    | object id target => exact .pure fun _ h => by cases h
    | plain id x =>
      refine .after hw (Step.isQuiet_typeId t) ?_
      intro hv hg
      refine .bind hv (ensures_tableConvert hc hv (hb.mono hg)) fun {u o} _ _ ho => .pure ?_
      intro y hy hd
      obtain ⟨z, hz, rfl⟩ := Option.map_eq_some_iff.mp hy
      obtain ⟨b', hb', hz⟩ := Option.bind_eq_some_iff.mp hz
      exact ((ho b' hb' hd).downcast hz).2

theorem ensures_read {b : Box} {t : Ty} (hb : D.Fits w.registries (.any b)) :
    Ensures D c w (read b t) fun r o => ∀ v ∈ o, D.Fits r v := by
  cases t with
  | void => exact .pure fun v hv _ => by cases hv; trivial
  | any => exact .pure fun v hv => by cases hv; exact hb
  | pointer k =>
    unfold read
    cases b.object? with
    | none => exact .pure fun _ h => by cases h
    | some o =>
      refine .after hw (Step.isQuiet_pointTo o k) fun _ _ => .pure ?_
      intro v hv _
      obtain ⟨h, hh, rfl⟩ := Option.map_eq_some_iff.mp hv
      exact Step.fits_pointTo hw.sound hh
  | _ => exact ensures_readContent hc hw hb

theorem ensures_defaultValue (id : TypeId) : Ensures D c w (defaultValue id) fun r b => D.Fits r (.any b) := by
  refine .after hw Step.isQuiet_get ?_
  intro _ _
  split
  · rename_i make hm
    obtain ⟨e, he, hmake⟩ := Option.bind_eq_some_iff.mp hm
    obtain ⟨held, hh, hs⟩ := hw.stores.maker he hmake
    exact ensures_callBoxed hc hw hh hs
  · exact .step hw (Step.isQuiet_nullValue id) fun _ => Step.fits_nullValue hw.sound id

theorem ensures_create (id : TypeId) : Ensures D c w (create id) fun r b => D.Fits r (.any b) := by
  refine .after hw Step.isQuiet_get ?_
  intro _ _
  split
  · rename_i make hm
    obtain ⟨-, held, hh, hs⟩ := hw.stores.factory hm
    exact ensures_callBoxed hc hw hh hs
  · exact ensures_defaultValue hc hw id

theorem ensures_createNamed (name : String) :
    Ensures D c w (createNamed name) fun r b => D.Fits r (.any b) := by
  refine .after hw Step.isQuiet_get ?_
  intro _ _
  split
  · exact ensures_create hc hw _
  · exact .pure fun _ => .null

end

/-! ## Matching -/

theorem ensures_select {test : α → Run Bool}
    (ht : ∀ {w x}, D.Good w.registries → Ensures D c w (test x) fun _ _ => True)
    (hw : D.Good w.registries) (l : List α) : Ensures D c w (select test l) fun _ found => ∀ x ∈ found, x ∈ l := by
  induction l generalizing w with
  | nil => exact .pure fun x hx => hx
  | cons x l ih =>
    refine .bind hw (ht hw) fun hv _ _ => .bind hv (ih hv) fun _ _ hl => .pure ?_
    intro y hy
    split at hy
    · exact (List.mem_cons.mp hy).elim (fun h => h ▸ List.mem_cons_self ..) fun h => List.mem_cons_of_mem _ (hl y h)
    · exact List.mem_cons_of_mem _ (hl y hy)

/-- On the way from `w` to `v` the operation `r` was done and gave `x`. -/
def Asked (D : Discipline) (c : Caller) (w v : World) (r : Run α) (x : α) : Prop :=
  ∃ u u', Course D.Ok w.registries u.registries ∧ r c u = some (x, u') ∧ Course D.Ok u'.registries v.registries

theorem Asked.mono {w' v v' : World} {r : Run α} {x : α} (h : Asked D c w v r x)
    (hw : Course D.Ok w'.registries w.registries) (hv : Course D.Ok v.registries v'.registries) :
    Asked D c w' v' r x := by
  obtain ⟨u, u', hu, hr, hu'⟩ := h
  exact ⟨u, u', hw.trans hu, hr, hu'.trans hv⟩

/-- What is selected has been asked with the answer yes, what is left out with the answer no. -/
theorem asked_select {test : α → Run Bool}
    (ht : ∀ {w x}, D.Good w.registries → Ensures D c w (test x) fun _ _ => True) (hw : D.Good w.registries)
    {l found : List α} {v : World} (h : select test l c w = some (found, v)) :
    (∀ x ∈ found, Asked D c w v (test x) true) ∧ ∀ x ∈ l, x ∈ found ∨ Asked D c w v (test x) false := by
  induction l generalizing w found with
  | nil =>
    cases h
    exact ⟨fun x hx => (by cases hx), fun x hx => (by cases hx)⟩
  | cons x l ih =>
    obtain ⟨passed, u, hx, h⟩ := bind_eq_some.mp h
    obtain ⟨others, v', hrest, h⟩ := bind_eq_some.mp h
    cases h
    obtain ⟨hcourse, -⟩ := ht hw _ _ hx
    have hu := hw.course hcourse
    obtain ⟨hcourse', -⟩ := ensures_select ht hu l _ _ hrest
    obtain ⟨hin, hout⟩ := ih hu hrest
    have asked : Asked D c w v (test x) passed := ⟨w, u, .refl, hx, hcourse'⟩
    refine ⟨fun y hy => ?_, fun y hy => ?_⟩
    · cases passed with
      | false => exact (hin y hy).mono hcourse .refl
      | true =>
        rcases List.mem_cons.mp hy with rfl | hy
        · exact asked
        · exact (hin y hy).mono hcourse .refl
    · rcases List.mem_cons.mp hy with rfl | hy
      · cases passed with
        | false => exact .inr asked
        | true => exact .inl (List.mem_cons_self ..)
      · refine (hout y hy).imp (fun hmem => ?_) fun hno => hno.mono hcourse .refl
        cases passed with
        | false => exact hmem
        | true => exact List.mem_cons_of_mem _ hmem

section

variable (hc : Keeps D c)
include hc

theorem ensures_isConvertible (hw : D.Good w.registries) (a b : Descriptor) :
    Ensures D c w (isConvertible a b) fun _ _ => True := by
  unfold isConvertible
  split
  · exact .pure trivial
  · split
    · exact .pure trivial
    · split
      · split <;> exact .pure trivial
      · refine .bind hw (ensures_create hc hw a.id) ?_
        intro v probe hv _ _
        split
        · exact .pure trivial
        · exact .step hv (Step.isQuiet_canConvert probe b.id) trivial

theorem ensures_allConvertible (hw : D.Good w.registries) (args params : List Descriptor) :
    Ensures D c w (allConvertible args params) fun _ _ => True := by
  induction args generalizing params w with
  | nil => exact .pure trivial
  | cons a args ih =>
    cases params with
    | nil => exact .pure trivial
    | cons p params =>
      refine .bind hw (ensures_isConvertible hc hw a p) ?_
      intro v x hv _ _
      split
      · exact ih hv params
      · exact .pure trivial

/-- Where all argument types convert, each was asked. -/
theorem asked_allConvertible (hw : D.Good w.registries) {args params : List Descriptor} {v : World}
    (h : allConvertible args params c w = some (true, v)) :
    ∀ x ∈ args.zip params, Asked D c w v (isConvertible x.1 x.2) true := by
  induction args generalizing params w with
  | nil => exact fun x hx => by cases hx
  | cons a args ih =>
    cases params with
    | nil => exact fun x hx => by cases hx
    | cons p params =>
      obtain ⟨ok, u, hok, h⟩ := bind_eq_some.mp h
      cases ok with
      | false => cases h
      | true =>
        obtain ⟨hcourse, -⟩ := ensures_isConvertible hc hw a p _ _ hok
        have hu := hw.course hcourse
        obtain ⟨hcourse', -⟩ := ensures_allConvertible hc hu args params _ _ h
        intro x hx
        rcases List.mem_cons.mp hx with rfl | hx
        · exact ⟨w, u, .refl, hok, hcourse'⟩
        · exact (ih hu h x hx).mono hcourse .refl

theorem ensures_listTypes (hw : D.Good w.registries) (wanted : Option Descriptor) :
    Ensures D c w (listTypes wanted) fun _ _ => True := by
  refine .after hw Step.isQuiet_get ?_
  intro _ _
  cases wanted with
  | none => exact .pure trivial
  | some d =>
    refine (ensures_select (fun {v id} hv => ?_) hw _).mono fun _ => trivial
    exact .after hv Step.isQuiet_get fun hv _ => ensures_isConvertible hc hv _ d

end

/-! ## Scripts -/

section

variable (hc : Keeps D c)
include hc

/-- What is held of the reply of an action is true after it. -/
theorem ensures_perform (hw : D.Good w.registries) (a : Action)
    (hv : D.honest → ∀ v ∈ a.values, v.Fits w.registries) :
    Ensures D c w (perform a) fun r x => ∀ f ∈ a.learn x, D.Holds r f := by
  have nothing : ∀ {r : Registries}, ∀ f ∈ ([] : List Fact), D.Holds r f := fun f hf => by cases hf
  have one : ∀ {r : Registries} {v : Value}, D.Fits r v → ∀ f ∈ [Fact.value v], D.Holds r f := fun hb f hf => by
    cases List.mem_singleton.mp hf; exact hb
  have some_of {β : Type} (g : β → Value) {r : Registries} {o : Option β} (ho : ∀ x ∈ o, D.Fits r (g x)) :
      ∀ f ∈ o.toList.map fun x => Fact.value (g x), D.Holds r f := fun f hf => by
    obtain ⟨x, hx, rfl⟩ := List.mem_map.mp hf
    exact ho x (Option.mem_toList.mp hx)
  have arg {v : Value} (h : v ∈ a.values) : D.Fits w.registries v := fun hd => hv hd v h
  cases a with
  | ask q => exact .step hw (Step.isQuiet_ask q) nothing
  | idOf t => exact .step hw (Step.isQuiet_idOf t) nothing
  | typeId t =>
    refine .step hw (Step.isQuiet_typeId t) ?_
    intro f hf
    cases List.mem_singleton.mp hf; exact Step.typeId_spec t w
  | addAlias t name => exact .step hw (Step.isQuiet_addAlias t name) nothing
  | node k => exact .step hw (Step.isQuiet_node k) nothing
  | highestId n => exact .step hw (Step.isQuiet_highestId n) nothing
  | allocate i =>
    refine .step hw (Step.isQuiet_allocate i) (one fun _ o ho => ?_)
    cases ho; exact ⟨ClassDecl.self_mem_chain _, .inl rfl⟩
  | cast h k => exact .step hw (Step.isQuiet_cast h k) (one fun _ => Step.fits_cast hw.sound h k)
  | pointTo o k =>
    exact .step hw (Step.isQuiet_pointTo o k) (some_of .pointer fun h hh _ => Step.fits_pointTo hw.sound hh)
  | classOf h => exact .step hw (Step.isQuiet_classOf h) nothing
  | view h => exact .step hw (Step.isQuiet_view h) nothing
  | box v =>
    exact .step hw (Step.isQuiet_box v)
      (one fun hd => Step.fits_box hw.sound (arg (List.mem_singleton.mpr rfl) hd))
  | describe b => exact .step hw (Step.isQuiet_describe b) nothing
  | canConvert b wanted => exact .step hw (Step.isQuiet_canConvert b wanted) nothing
  | tableConvert b wanted =>
    exact (ensures_tableConvert hc hw (arg (List.mem_singleton.mpr rfl))).mono (some_of .any)
  | convert b wanted => exact (ensures_convert hc hw (arg (List.mem_singleton.mpr rfl))).mono one
  | read b t => exact (ensures_read hc hw (arg (List.mem_singleton.mpr rfl))).mono (some_of id)
  | defaultValue id => exact (ensures_defaultValue hc hw id).mono one
  | nullValue id => exact .step hw (Step.isQuiet_nullValue id) (one fun _ => Step.fits_nullValue hw.sound id)
  | create id => exact (ensures_create hc hw id).mono one
  | isConvertible a b => exact (ensures_isConvertible hc hw a b).mono fun _ => nothing
  | tick n => exact .step hw (Step.isQuiet_tick n) nothing

/-- A script that keeps the promises registers only what may be, and ends with a value that
    fits. -/
theorem ensures_follow (hw : D.Good w.registries) {s : Script} {held : List Fact}
    (hh : ∀ f ∈ held, D.Holds w.registries f) (hs : s.Obeys D held) :
    Ensures D c w (follow s) fun r o => ∀ v ∈ o, D.Fits r v := by
  induction s generalizing w held with
  | done v =>
    refine .pure ?_
    intro u hu
    cases hu; exact D.fits_from hh hs
  | decline => exact .pure fun _ h => by cases h
  | act a next ih =>
    have hv : D.honest → ∀ v ∈ a.values, v.Fits w.registries := fun hd v hv =>
      D.fits_from hh (fun hd => hs.1 hd v hv) hd
    refine .bind hw (ensures_perform hc hw a hv) ?_
    intro u x hu hg hx
    refine ih x hu (fun f hf => ?_) (hs.2 x)
    rcases List.mem_append.mp hf with hf | hf
    · exact hx f hf
    · exact (hh f hf).mono hg
  | addConverter source target run next _ ih =>
    have hcourse : Course D.Ok w.registries (Step.addConverter ⟨source, target, run⟩ w).2.registries :=
      Step.course_addConverter hw.sound fun hg => ⟨held, Discipline.Holds.mono_all hg hh, hs.1⟩
    refine .bind (P := fun _ _ => True) hw (.course hcourse trivial) ?_
    intro u _ hu hg _
    exact ih hu (Discipline.Holds.mono_all hg hh) hs.2
  | setMaker id make next _ ih =>
    have hcourse : Course D.Ok w.registries (Step.setMaker id make w).2.registries :=
      Step.course_setMaker ⟨held, hh, hs.1⟩
    refine .bind (P := fun _ _ => True) hw (.course hcourse trivial) ?_
    intro u b hu hg _
    exact ih b hu (Discipline.Holds.mono_all hg hh) (hs.2 b)
  | addFactory id make next _ ih =>
    have hcourse : Course D.Ok w.registries (Step.addFactory id make w).2.registries := by
      refine Step.course_addFactory ⟨fun hd => ?_, held, hh, hs.2.1⟩
      obtain ⟨t, hne, hn, hr⟩ := hs.1 hd
      exact ⟨t, hne, hh (.number t id) hn, hr⟩
    refine .bind (P := fun _ _ => True) hw (.course hcourse trivial) ?_
    intro u _ hu hg _
    exact ih hu (Discipline.Holds.mono_all hg hh) hs.2.2

end

/-- However deep calls may nest, a called script keeps the promises that it made. -/
theorem keeps_run (D : Discipline) (depth : Nat) : Keeps D (Script.run depth) := by
  induction depth with
  | zero =>
    intro w s held _ _ _ x v h
    cases h
  | succ depth ih => exact fun hw hh hs => ensures_follow ih hw hh hs

/-! ## Functions and dispatchers -/

section

variable {n : Nat}

theorem isQuiet_refuse (types : List Descriptor) : Step.IsQuiet (Dispatcher.refuse (n := n) types) :=
  Step.closed_isQuiet.refuse types

theorem isQuiet_report (types : List Descriptor) (found : List (Function n)) :
    Step.IsQuiet (Dispatcher.report types found) := Step.closed_isQuiet.report types found

theorem isQuiet_exactly (d : Dispatcher n) (types : List Descriptor) : Step.IsQuiet (d.exactly types) :=
  Step.closed_isQuiet.exactly d types

theorem isQuiet_exactlyArgs (d : Dispatcher n) (args : List Box) : Step.IsQuiet (d.exactlyArgs args) :=
  Step.closed_isQuiet.exactlyArgs d args

theorem report_fst (types : List Descriptor) (found : List (Function n)) (w : World) :
    (Dispatcher.report types found w).1 = found := by
  unfold Dispatcher.report
  split <;> rfl

theorem registries_report (types : List Descriptor) (found : List (Function n)) (w : World) :
    (Dispatcher.report types found w).2.registries = w.registries := by
  unfold Dispatcher.report
  split <;> rfl

theorem exactly_fst (d : Dispatcher n) (types : List Descriptor) (w : World) :
    (d.exactly types w).1 =
      d.functions.filter fun f => decide (types.length ≤ n) && Descriptor.allExactly types f.params := by
  unfold Dispatcher.exactly
  split
  · have h : ¬ types.length ≤ n := by omega
    exact (List.filter_eq_nil_iff.mpr fun f _ => by simp [h]).symm
  · have h : types.length ≤ n := by omega
    simp only [report_fst, h, decide_true, Bool.true_and]

/-- With no more argument types than parameters, what the tests select is reported and given. -/
theorem convertible_of_select {d : Dispatcher n} {types : List Descriptor} {found : List (Function n)} {v : World}
    (hn : types.length ≤ n)
    (h : select (fun f => allConvertible types f.params) d.functions c w = some (found, v)) :
    d.convertible types c w = some (found, (Dispatcher.report types found v).2) := by
  unfold Dispatcher.convertible
  rw [if_neg (Nat.not_lt.mpr hn)]
  refine bind_eq_some.mpr ⟨found, v, h, ?_⟩
  exact congrArg some (Prod.ext (report_fst types found v) rfl)

theorem exactlyArgs_fst (d : Dispatcher n) (args : List Box) (w : World) :
    (d.exactlyArgs args w).1 = d.functions.filter fun f =>
      decide ((Step.typesOf args w).1.length ≤ n) && Descriptor.allExactly (Step.typesOf args w).1 f.params :=
  exactly_fst d _ (Step.typesOf args w).2

theorem ensures_exactlyArgs (hw : D.Good w.registries) (d : Dispatcher n) (args : List Box) :
    Ensures D c w (ofStep (d.exactlyArgs args)) fun _ found => ∀ f ∈ found, f ∈ d.functions := by
  refine .step hw (isQuiet_exactlyArgs d args) ?_
  intro f hf
  rw [exactlyArgs_fst] at hf
  exact (List.mem_filter.mp hf).1

end

section

variable (hc : Keeps D c) {n : Nat}
include hc

theorem ensures_call (hw : D.Good w.registries) {held : List Fact} (hh : ∀ f ∈ held, D.Holds w.registries f)
    {f : Function n} (hf : f.Obeys D held) {args : List Box} (ha : ∀ b ∈ args, D.Fits w.registries (.any b)) :
    Ensures D c w (f.call args) fun r b => D.Fits r (.any b) := by
  unfold Function.call
  cases hbody : f.body with
  | none => exact .pure fun _ => .null
  | some body =>
    refine .bind hw (ensures_follow hc hw (fun x hx => ?_) (hf body hbody (Function.resize .null n args)))
      fun {v o} hv _ ho => ?_
    · rcases List.mem_append.mp hx with hx | hx
      · obtain ⟨b, hb, rfl⟩ := List.mem_map.mp hx
        rcases Function.mem_resize hb with hb | rfl
        · exact ha b hb
        · exact fun _ => .null
      · exact hh x hx
    · cases o with
      | none => exact .pure fun _ => .null
      | some x => exact .step hv (Step.isQuiet_box x) fun hd => Step.fits_box hv.sound (ho x rfl hd)

theorem ensures_callLast (hw : D.Good w.registries) {held : List Fact} (hh : ∀ f ∈ held, D.Holds w.registries f)
    {found : List (Function n)} (hf : ∀ f ∈ found, f.Obeys D held) {args : List Box}
    (ha : ∀ b ∈ args, D.Fits w.registries (.any b)) :
    Ensures D c w (Dispatcher.callLast found args) fun r b => D.Fits r (.any b) := by
  unfold Dispatcher.callLast
  cases hl : found.getLast? with
  | none => exact .pure fun _ => .null
  | some f => exact ensures_call hc hw hh (hf f (List.mem_of_getLast? hl)) ha

theorem ensures_callAll (hw : D.Good w.registries) {held : List Fact} (hh : ∀ f ∈ held, D.Holds w.registries f)
    {found : List (Function n)} (hf : ∀ f ∈ found, f.Obeys D held) {args : List Box}
    (ha : ∀ b ∈ args, D.Fits w.registries (.any b)) :
    Ensures D c w (found.mapM fun f => f.call args) fun r bs => ∀ b ∈ bs, D.Fits r (.any b) := by
  induction found generalizing w with
  | nil => exact .pure fun b hb => by cases hb
  | cons f found ih =>
    rw [List.mapM_cons]
    refine .bind hw (ensures_call hc hw hh (hf f (List.mem_cons_self ..)) ha) ?_
    intro v b hv hg hb
    refine .bind hv (ih hv (Discipline.Holds.mono_all hg hh) (fun f hf' => hf f (List.mem_cons_of_mem _ hf'))
      fun b hb => (ha b hb).mono hg) fun {u bs} _ hg' hbs => .pure fun b' hb' => ?_
    rcases List.mem_cons.mp hb' with rfl | hb'
    · exact hb.mono hg'
    · exact hbs b' hb'

theorem ensures_convertible (hw : D.Good w.registries) (d : Dispatcher n) (types : List Descriptor) :
    Ensures D c w (d.convertible types) fun _ found => ∀ f ∈ found, f ∈ d.functions := by
  unfold Dispatcher.convertible
  split
  · exact .step hw (isQuiet_refuse types) fun f hf => by cases hf
  · refine .bind hw (ensures_select (fun hv => ensures_allConvertible hc hv types _) hw _) ?_
    intro v found hv _ hf
    exact .step hv (isQuiet_report types found) fun f hf' => hf f (report_fst types found v ▸ hf')

/-- Functions are selected for argument types that convert. -/
theorem asked_convertible (hw : D.Good w.registries) {d : Dispatcher n} {types : List Descriptor}
    {found : List (Function n)} {v : World} (h : d.convertible types c w = some (found, v)) {f : Function n}
    (hf : f ∈ found) : ∀ x ∈ types.zip f.params, Asked D c w v (isConvertible x.1 x.2) true := by
  unfold Dispatcher.convertible at h
  split at h
  · cases h
    cases hf
  · obtain ⟨found', u, hselect, h⟩ := bind_eq_some.mp h
    have hreport : Dispatcher.report types found' u = (found, v) := Option.some.inj h
    have hfound : found' = found := by rw [← report_fst types found' u, hreport]
    have hregs : v.registries = u.registries := by rw [← registries_report types found' u, hreport]
    subst hfound
    obtain ⟨hasked, -⟩ := asked_select (fun hv => ensures_allConvertible hc hv types _) hw hselect
    obtain ⟨x, y, hx, hall, hy⟩ := hasked f hf
    rw [← hregs] at hy
    exact fun z hz => (asked_allConvertible hc (hw.course hx) hall z hz).mono hx hy

theorem ensures_convertibleArgs (hw : D.Good w.registries) (d : Dispatcher n) (args : List Box) :
    Ensures D c w (d.convertibleArgs args) fun _ found => ∀ f ∈ found, f ∈ d.functions :=
  .after hw (Step.isQuiet_typesOf args) fun hv _ => ensures_convertible hc hv d _

end

/-! ## Operations -/

section

variable {held : List Fact}

/-- An operation on boxes that ends with boxes, of which the program holds what fits. -/
theorem Ensures.holds {r : Run α} {Q : Registries → α → Prop} {g : α → List Fact} (hw : D.Good w.registries)
    (hr : Ensures D c w r Q) (hq : ∀ {s x}, Q s x → ∀ f ∈ g x, D.Holds s f) :
    Ensures D c w (do return g (← r)) fun s l => ∀ f ∈ l, D.Holds s f :=
  .bind hw hr fun _ _ hx => .pure (hq hx)

/-- What an operation that keeps the promises gives is true after it. -/
theorem ensures_run (hc : Keeps D c) (hw : D.Good w.registries) (hh : ∀ f ∈ held, D.Holds w.registries f) {o : Op}
    (ho : o.Obeys D held) : Ensures D c w o.run fun r l => ∀ f ∈ l, D.Holds r f := by
  have nothing : ∀ {r : Registries}, ∀ f ∈ ([] : List Fact), D.Holds r f := fun f hf => by cases hf
  have one {r : Registries} (x : Fact) (hx : D.Holds r x) : ∀ f ∈ [x], D.Holds r f := fun f hf => by
    cases List.mem_singleton.mp hf; exact hx
  have all : ∀ {r : Registries} {bs : List Box}, (∀ b ∈ bs, D.Fits r (.any b)) →
      ∀ f ∈ bs.map (.value ∘ .any), D.Holds r f := fun hb f hf => by
    obtain ⟨b, hb', rfl⟩ := List.mem_map.mp hf
    exact hb b hb'
  have args : ∀ {l : List Box}, (D.honest → ∀ b ∈ l, Value.From held (.any b)) →
      ∀ b ∈ l, D.Fits w.registries (.any b) := fun h b hb => D.fits_from hh fun hd => h hd b hb
  cases o with
  | act a =>
    exact (ensures_perform hc hw a fun hd v hv => D.fits_from hh (fun hd => ho hd v hv) hd).holds hw id
  | createNamed name => exact (ensures_createNamed hc hw name).holds hw (one (.value (.any _)))
  | describeType t => exact .after hw (Step.isQuiet_descriptorOf t) fun _ _ => .pure nothing
  | addConverter k =>
    have hk : Course D.Ok w.registries (Step.addConverter k w).2.registries :=
      Step.course_addConverter hw.sound fun hg => ⟨held, Discipline.Holds.mono_all hg hh, ho⟩
    exact .bind (P := fun _ _ => True) hw (.course hk trivial) fun _ _ _ => .pure nothing
  | setMaker id make =>
    have hk : Course D.Ok w.registries (Step.setMaker id make w).2.registries :=
      Step.course_setMaker ⟨held, hh, ho⟩
    exact .bind (P := fun _ _ => True) hw (.course hk trivial) fun _ _ _ => .pure nothing
  | addFactory id make =>
    have hk : Course D.Ok w.registries (Step.addFactory id make w).2.registries := by
      refine Step.course_addFactory ⟨fun hd => ?_, held, hh, ho.2⟩
      obtain ⟨t, hne, hn, hr⟩ := ho.1 hd
      exact ⟨t, hne, hh (.number t id) hn, hr⟩
    exact .bind (P := fun _ _ => True) hw (.course hk trivial) fun _ _ _ => .pure nothing
  | addFactoryFor t make =>
    have hk : Course D.Ok w.registries (Step.addFactoryFor t make w).2.registries := by
      refine Step.course_addFactoryFor hw.sound fun hg hn => ⟨?_, held, Discipline.Holds.mono_all hg hh, ho.2⟩
      intro hd
      exact ⟨t, (ho.1 hd).1, hn, (ho.1 hd).2⟩
    exact (Ensures.course (Q := fun r id => r.types.Numbers t id) hk (Step.typeId_spec t w)).holds hw
      (one (.number t _))
  | registerClass k =>
    have hmake : (Script.newObject (Instance.initial k)).Returns (.pointer k) := by
      have := Script.returns_newObject (Instance.initial k)
      rwa [Instance.initial, Instance.cls_ofNumbers] at this
    have hk : Course D.Ok w.registries (Step.registerClass k w).2.registries := Step.course_registerClass hw.sound
      (fun _ => ⟨[], nothing, Script.obeys_newObject D _ _⟩)
      fun _ hn => ⟨fun _ => ⟨.pointer k, by simp, hn, hmake⟩, [], nothing, Script.obeys_newObject D _ _⟩
    exact (Ensures.course (Q := fun r id => r.types.Numbers (.pointer k) id) hk (Step.registerClass_spec k w)).holds hw
      (one (.number (.pointer k) _))
  | listTypes wanted => exact .bind hw (ensures_listTypes hc hw wanted) fun _ _ _ => .pure nothing
  | newCounter => exact .after hw Step.isQuiet_newCounter fun _ _ => .pure nothing
  | note e => exact .after hw (Step.isQuiet_note e) fun _ _ => .pure nothing
  | call f l => exact (ensures_call hc hw hh ho.2 (args ho.1)).holds hw (one (.value (.any _)))
  | exactly d types => exact .after hw (isQuiet_exactly d types) fun _ _ => .pure nothing
  | exactlyArgs d l => exact .after hw (isQuiet_exactlyArgs d l) fun _ _ => .pure nothing
  | convertible d types => exact .bind hw (ensures_convertible hc hw d types) fun _ _ _ => .pure nothing
  | convertibleArgs d l => exact .bind hw (ensures_convertibleArgs hc hw d l) fun _ _ _ => .pure nothing
  | callOneExact d l =>
    refine Ensures.holds hw (.bind hw (ensures_exactlyArgs hw d l) fun hv hg hf => ?_) (one (.value (.any _)))
    exact ensures_callLast hc hv (Discipline.Holds.mono_all hg hh) (fun f h => ho.2 f (hf f h))
      fun b hb => (args ho.1 b hb).mono hg
  | callOneConvertible d l =>
    refine Ensures.holds hw (.bind hw (ensures_convertibleArgs hc hw d l) fun hv hg hf => ?_) (one (.value (.any _)))
    exact ensures_callLast hc hv (Discipline.Holds.mono_all hg hh) (fun f h => ho.2 f (hf f h))
      fun b hb => (args ho.1 b hb).mono hg
  | callAllExact d l =>
    refine Ensures.holds hw (.bind hw (ensures_exactlyArgs hw d l) fun hv hg hf => ?_) all
    exact ensures_callAll hc hv (Discipline.Holds.mono_all hg hh) (fun f h => ho.2 f (hf f h))
      fun b hb => (args ho.1 b hb).mono hg
  | callAllConvertible d l =>
    refine Ensures.holds hw (.bind hw (ensures_convertibleArgs hc hw d l) fun hv hg hf => ?_) all
    exact ensures_callAll hc hv (Discipline.Holds.mono_all hg hh) (fun f h => ho.2 f (hf f h))
      fun b hb => (args ho.1 b hb).mono hg

end

end Run

/-! ## Programs -/

/-- From good registries and true facts, a program that keeps its promises gets to such
    registries and facts again. -/
theorem Session.Leads.keeps {D : Discipline} {s t : Session} (h : s.Leads D t) (hw : D.Good s.world.registries)
    (hh : ∀ f ∈ s.held, D.Holds s.world.registries f) :
    Course D.Ok s.world.registries t.world.registries ∧ ∀ f ∈ t.held, D.Holds t.world.registries f := by
  induction h with
  | refl => exact ⟨.refl, hh⟩
  | @step t _ o ho depth _ v hr ih =>
    obtain ⟨hcourse, hheld⟩ := ih
    have hgood := hw.course hcourse
    obtain ⟨hcourse', hgained⟩ := Run.ensures_run (Run.keeps_run D depth) hgood hheld ho _ _ hr
    refine ⟨hcourse.trans hcourse', ?_⟩
    intro f hf
    rcases List.mem_append.mp hf with hf | hf
    · exact hgained f hf
    · exact (hheld f hf).mono (Course.grows hgood.sound hcourse')

theorem Session.Leads.good {D : Discipline} {s : Session} (h : Session.start.Leads D s) :
    D.Good s.world.registries ∧ ∀ f ∈ s.held, D.Holds s.world.registries f := by
  obtain ⟨hcourse, hh⟩ := h.keeps (D.good_fresh) fun f hf => by cases hf
  exact ⟨D.good_fresh.course hcourse, hh⟩

/-- In every world that a program can get to the registries are sound. -/
theorem World.Reached.sound {w : World} (h : w.Reached) : w.registries.Sound := by
  obtain ⟨held, hs⟩ := World.Leads.session h []
  exact hs.good.1.sound

/-- Operations change the registries by courses. -/
theorem World.Leads.course {w v : World} (hw : w.Reached) (h : w.Leads v) :
    Course (fun _ _ => True) w.registries v.registries := by
  obtain ⟨held, hs⟩ := World.Leads.session hw []
  obtain ⟨held', hs'⟩ := h.session held
  exact Course.mono (fun _ _ _ => trivial) (hs'.keeps hs.good.1 hs.good.2).1

/-- No operation makes the registries forget. -/
theorem World.Leads.grows {w v : World} (hw : w.Reached) (h : w.Leads v) : Grows w.registries v.registries :=
  Course.grows hw.sound (h.course hw)

/-- A number keeps the type and the node that it has in the fresh world. -/
theorem World.Reached.builtin {w : World} (hw : w.Reached) {id : TypeId} {p : Ty × Option ClassNode}
    (h : (World.fresh.registries.types.entries.find? id).map (fun e => (e.ty, e.node)) = some p) {e : Entry}
    (he : w.types.entries.find? id = some e) : (e.ty, e.node) = p := by
  have kept : ∀ r, Grows r w.registries →
      (r.types.entries.find? id).map (fun e => (e.ty, e.node)) = some p → (e.ty, e.node) = p := fun r hg h => by
    obtain ⟨f, hf, rfl⟩ := Option.map_eq_some_iff.mp h
    obtain ⟨g, hg, hty, -, hnode⟩ := hg.entry hf
    cases hg.symm.trans he
    rw [hty, hnode]
  exact kept World.fresh.registries (Leads.grows .refl hw) h

end Multimethod
