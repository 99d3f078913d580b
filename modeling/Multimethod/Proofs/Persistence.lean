/-
  Multimethod.Proofs.Persistence — a function that was selected is not lost.

  In a typed program a factory makes values of the type it is registered for, so what a
  test makes is like any value of the type (`create_typed`), and the test answers by
  `Registries.Accepts` (`isConvertible_typed`). What is accepted stays so, whatever else is
  registered; so arguments that selected a function by conversion select it from then on,
  and those that select it exactly select the same ones before and after. Matching itself
  ends where factories do (`exists_convertibleArgs`).
-/
import Multimethod.Proofs.Arguments
import Multimethod.Proofs.Depth

namespace Multimethod

open Registries (Grows Course)

/-- However much is matched from here on, every factory ends when it is called. -/
def World.FactoriesEnd (w : World) : Prop :=
  ∀ v, w.Tests v → ∀ id make, v.registries.factories.find? id = some make →
    ∃ depth p, Script.run depth make v = some p

theorem World.FactoriesEnd.tests {w v : World} (h : w.FactoriesEnd) (hv : w.Tests v) : v.FactoriesEnd :=
  fun u hu => h u (hv.trans hu)

/-- Where there is no factory, matching does not register one. -/
theorem World.FactoriesEnd.of_none {w : World} (hw : w.Reached)
    (hn : ∀ id, w.registries.factories.find? id = none) : w.FactoriesEnd := by
  intro v hv
  suffices h : ∀ id, v.registries.factories.find? id = none by
    intro id make hmake
    rw [h id] at hmake; cases hmake
  induction hv with
  | refl => exact hn
  | describe h b ih =>
    rw [(Step.isQuiet_describe b _ (hw.leads h.leads).sound).factories]
    exact ih
  | test h ha depth hr ih =>
    obtain ⟨ans, hrun⟩ := Run.exists_isConvertible_default (hw.leads h.leads).sound ha _ fun _ => ih _
    cases (hrun _).symm.trans hr
    exact ih

namespace Run

variable {D : Discipline} {c : Caller} {w v : World} {a b : Descriptor} {ans : Bool} {depth : Nat}

/-! ## What a typed factory makes -/

/-- A script all of whose ends are of a type ends with a value of it. -/
theorem follow_returns {s : Script} {t : Ty} (hs : s.Returns t) {o : Option Value}
    (h : follow s c w = some (o, v)) : ∃ x, o = some x ∧ x.ty = t := by
  induction s generalizing w with
  | done x => cases h; exact ⟨x, rfl, hs⟩
  | decline => exact hs.elim
  | act a next ih =>
    obtain ⟨x, u, -, h⟩ := bind_eq_some.mp h
    exact ih x (hs x) h
  | addConverter _ _ _ next _ ih =>
    obtain ⟨_, u, -, h⟩ := bind_eq_some.mp h
    exact ih hs h
  | setMaker _ _ next _ ih =>
    obtain ⟨x, u, -, h⟩ := bind_eq_some.mp h
    exact ih x (hs x) h
  | addFactory _ _ next _ ih =>
    obtain ⟨_, u, -, h⟩ := bind_eq_some.mp h
    exact ih hs h

theorem run_returns {s : Script} {t : Ty} (hs : s.Returns t) {o : Option Value}
    (h : Script.run depth s w = some (o, v)) : ∃ x, o = some x ∧ x.ty = t := by
  cases depth with
  | zero => cases h
  | succ depth => exact follow_returns hs h

/-- What is made of a type without class, by default or by a factory that makes values of the
    type, is like any value of the type. -/
theorem create_returns (hw : D.Good w.registries) (ha : w.registries.Describes a) (hn : a.node = none)
    (hmake : ∀ make, w.registries.factories.find? a.id = some make →
      ∃ e, w.types.entries.find? a.id = some e ∧ e.ty ≠ .any ∧ make.Returns e.ty)
    {probe : Box} (h : create a.id (Script.run depth) w = some (probe, v)) :
    v.registries.Sound ∧ v.registries.Probes a probe := by
  have hcourse := (ensures_create (keeps_run D depth) hw a.id _ _ h).1
  have hv := (hw.course hcourse).sound
  have hgrow := Course.grows hw.sound hcourse
  refine ⟨hv, ?_⟩
  cases hf : w.registries.factories.find? a.id with
  | none =>
    obtain ⟨probe', hcreate, hprobe⟩ := create_default hw.sound ha hn hf
    cases (hcreate _).symm.trans h
    exact hprobe
  | some make =>
    obtain ⟨e, he, hne, hreturns⟩ := hmake make hf
    have hnode : e.node = none := by
      rcases ha.known with rfl | ⟨f, hf, hfn⟩
      · exact absurd rfl (hw.sound.ne_wild he)
      · cases he.symm.trans hf; exact hfn.symm.trans hn
    have hcls := (hw.sound.node he).cls_none hnode
    obtain ⟨f, hf', hty, -⟩ := hgrow.entry he
    rw [create_of_factory hf] at h
    obtain ⟨o, u, hcall, hbox⟩ := bind_eq_some.mp h
    obtain ⟨x, rfl, hx⟩ := run_returns hreturns hcall
    have hboxed : Step.box x u = (probe, v) := Option.some.inj hbox
    unfold Registries.Probes
    rw [hf']
    dsimp only
    rw [hty, ← hx]
    cases x with
    | unit => cases hboxed; exact .inl ⟨.inl rfl, rfl⟩
    | any b => exact absurd hx.symm hne
    | pointer p => rw [← hx] at hcls; cases hcls
    | plain d =>
      have hspec := Step.typeId_spec d.ty u
      cases hboxed
      rcases hspec with ⟨hany, -⟩ | ⟨-, hid⟩
      · exact absurd hany d.ty_ne_any
      · exact .inr ⟨_, d, rfl, rfl, hid⟩

/-- In a typed program all factories are such. -/
theorem create_typed (ht : D.typed) (hw : D.Good w.registries) (ha : w.registries.Describes a) (hn : a.node = none)
    {probe : Box} (h : create a.id (Script.run depth) w = some (probe, v)) :
    v.registries.Sound ∧ v.registries.Probes a probe := by
  refine create_returns hw ha hn (fun make hf => ?_) h
  obtain ⟨t, hne, ⟨rfl, -⟩ | ⟨-, hb⟩, hreturns⟩ := (hw.stores.factory hf).1 ht
  · exact absurd rfl hne
  obtain ⟨e, he, rfl⟩ := hw.sound.entry_of_byType hb
  exact ⟨e, he, hne, hreturns⟩

/-- In a typed program the test answers by what is accepted in the end. -/
theorem isConvertible_typed (ht : D.typed) (hw : D.Good w.registries) (ha : w.registries.Describes a)
    (hb : w.registries.Describes b) (h : isConvertible a b (Script.run depth) w = some (ans, v)) :
    Course D.Ok w.registries v.registries ∧ (ans = true ↔ v.registries.Accepts a b) :=
  ⟨(ensures_isConvertible (keeps_run D depth) hw a b _ _ h).1,
    isConvertible_spec hw.sound ha hb (fun hn _ _ hcreate => create_typed ht hw ha hn hcreate) h⟩

/-! ## Selections -/

variable {types params : List Descriptor}

/-- What a typed program finds convertible is accepted in the end, and what was accepted to
    begin with is found convertible. -/
theorem allConvertible_typed (ht : D.typed) (hw : D.Good w.registries) (ha : ∀ a ∈ types, w.registries.Describes a)
    (hp : ∀ p ∈ params, w.registries.Describes p)
    (h : allConvertible types params (Script.run depth) w = some (ans, v)) :
    (ans = true → v.registries.AcceptsAll types params) ∧ (w.registries.AcceptsAll types params → ans = true) := by
  induction types generalizing params w with
  | nil =>
    cases h
    exact ⟨fun _ x hx => (by cases hx), fun _ => rfl⟩
  | cons a types ih =>
    cases params with
    | nil =>
      cases h
      exact ⟨fun _ x hx => (by cases hx), fun _ => rfl⟩
    | cons p params =>
      obtain ⟨ok, u, hok, h⟩ := bind_eq_some.mp h
      obtain ⟨hcourse, hacc⟩ := isConvertible_typed ht hw (ha a (List.mem_cons_self ..))
        (hp p (List.mem_cons_self ..)) hok
      have hu := hw.course hcourse
      have hgrow := Course.grows hw.sound hcourse
      have ha' : ∀ a ∈ types, u.registries.Describes a := fun a h => (ha a (List.mem_cons_of_mem _ h)).mono hgrow
      have hp' : ∀ p ∈ params, u.registries.Describes p := fun p h => (hp p (List.mem_cons_of_mem _ h)).mono hgrow
      unfold Registries.AcceptsAll
      rw [List.zip_cons_cons]
      cases ok with
      | false =>
        cases h
        refine ⟨fun hf => (by cases hf), ?_⟩
        intro hall
        exact hacc.mpr ((hall (a, p) (List.mem_cons_self ..)).mono hgrow)
      | true =>
        obtain ⟨hsound, hcomplete⟩ := ih hu ha' hp' h
        have hgrow' := Course.grows hu.sound (ensures_allConvertible (keeps_run D depth) hu types params _ _ h).1
        refine ⟨fun ht' x hx => ?_, fun hall => hcomplete fun x hx => ?_⟩
        · rcases List.mem_cons.mp hx with rfl | hx
          · exact (hacc.mp rfl).mono hgrow'
          · exact hsound ht' x hx
        · exact (hall x (List.mem_cons_of_mem _ hx)).mono hgrow

section

open Classical

theorem filter_sublist_filter {α : Type} {p q : α → Prop} {l : List α} (h : ∀ x ∈ l, p x → q x) :
    (l.filter fun x => p x).Sublist (l.filter fun x => q x) := by
  have hp : (l.filter fun x => p x) = (l.filter fun x => q x).filter fun x => p x := by
    rw [List.filter_filter]
    refine List.filter_congr ?_
    intro x hx
    by_cases hpx : p x
    · simp [hpx, h x hx hpx]
    · simp [hpx]
  rw [hp]
  exact List.filter_sublist

variable {n : Nat} {found : List (Function n)}

/-- A selection holds only functions that are accepted in the end, and all that were accepted
    to begin with. -/
theorem select_typed (ht : D.typed) (hw : D.Good w.registries) (ha : ∀ a ∈ types, w.registries.Describes a)
    {fs : List (Function n)} (hp : ∀ f ∈ fs, ∀ p ∈ f.params, w.registries.Describes p)
    (h : select (fun f => allConvertible types f.params) fs (Script.run depth) w = some (found, v)) :
    found.Sublist (fs.filter fun f => v.registries.AcceptsAll types f.params) ∧
      (fs.filter fun f => w.registries.AcceptsAll types f.params).Sublist found := by
  induction fs generalizing w found with
  | nil => cases h; exact ⟨.slnil, .slnil⟩
  | cons f fs ih =>
    obtain ⟨ok, u, hok, h⟩ := bind_eq_some.mp h
    obtain ⟨others, u', hothers, h⟩ := bind_eq_some.mp h
    obtain rfl : u' = v := congrArg Prod.snd (Option.some.inj h)
    obtain ⟨hsound, hcomplete⟩ := allConvertible_typed ht hw ha (hp f (List.mem_cons_self ..)) hok
    have hcourse := (ensures_allConvertible (keeps_run D depth) hw types f.params _ _ hok).1
    have hu := hw.course hcourse
    have hgrow := Course.grows hw.sound hcourse
    have hp' : ∀ g ∈ fs, ∀ p ∈ g.params, u.registries.Describes p := fun g hg p h =>
      (hp g (List.mem_cons_of_mem _ hg) p h).mono hgrow
    obtain ⟨hsub, hsup⟩ := ih hu (fun a h => (ha a h).mono hgrow) hp' hothers
    have hlater := Course.grows hu.sound
      (ensures_select (fun hv => ensures_allConvertible (keeps_run D depth) hv types _) hu fs _ _ hothers).1
    have htail : (fs.filter fun f => w.registries.AcceptsAll types f.params).Sublist others :=
      (filter_sublist_filter fun g _ hg => hg.mono hgrow).trans hsup
    cases ok with
    | true =>
      cases h
      constructor
      · rw [List.filter_cons_of_pos (by simpa using (hsound rfl).mono hlater)]
        exact hsub.cons_cons f
      · rw [List.filter_cons]
        split
        · exact htail.cons_cons f
        · exact htail.cons f
    | false =>
      cases h
      constructor
      · exact hsub.trans ((List.sublist_cons_self f fs).filter _)
      · have hno : ¬ w.registries.AcceptsAll types f.params := fun hacc => by cases hcomplete hacc
        rw [List.filter_cons_of_neg (by simpa using hno)]
        exact htail

/-- Arguments select only functions that are accepted in the end, and all that are accepted
    when they have been described; none when there are too many. -/
theorem convertibleArgs_typed (ht : D.typed) (hw : D.Good w.registries) (hr : w.Reached) {d : Dispatcher n}
    {args : List Box} (hb : ∀ b ∈ args, b.Fits w.registries)
    (hp : ∀ f ∈ d.functions, ∀ p ∈ f.params, w.registries.Describes p)
    (h : d.convertibleArgs args (Script.run depth) w = some (found, v)) :
    (n < args.length ∧ found = []) ∨ args.length ≤ n ∧ Grows (Step.typesOf args w).2.registries v.registries ∧
      found.Sublist (d.functions.filter fun f => v.registries.AcceptsAll (Step.typesOf args w).1 f.params) ∧
      (d.functions.filter fun f =>
        (Step.typesOf args w).2.registries.AcceptsAll (Step.typesOf args w).1 f.params).Sublist found := by
  obtain ⟨types, u, htypes, h⟩ := bind_eq_some.mp h
  have he : Step.typesOf args w = (types, u) := Option.some.inj htypes
  obtain ⟨htest, hall⟩ := Step.presents_typesOf hr hb
  have hquiet := Step.isQuiet_typesOf args w hw.sound
  rw [he] at htest hall hquiet ⊢
  dsimp only at htest hall hquiet ⊢
  have hu := hw.course hquiet.course
  have hgrow := Course.grows hw.sound hquiet
  have hlength := hall.length_eq
  have ha := hall.describes (hr.leads htest.leads)
  unfold Dispatcher.convertible at h
  split at h
  · rename_i hlt
    cases h
    exact .inl ⟨hlength ▸ hlt, rfl⟩
  · rename_i hle
    obtain ⟨found', u', hselect, h⟩ := bind_eq_some.mp h
    have hreport : Dispatcher.report types found' u' = (found, v) := Option.some.inj h
    have hfound : found' = found := by rw [← report_fst types found' u', hreport]
    have hregs : v.registries = u'.registries := by
      rw [← registries_report types found' u', hreport]
    rw [hfound] at hselect
    rw [hregs]
    have hcourse := (ensures_select (fun hv => ensures_allConvertible (keeps_run D depth) hv types _) hu _ _ _
      hselect).1
    have hp' : ∀ f ∈ d.functions, ∀ p ∈ f.params, u.registries.Describes p := fun f hf p h =>
      (hp f hf p h).mono hgrow
    exact .inr ⟨by omega, Course.grows hu.sound hcourse, select_typed ht hu ha hp' hselect⟩

end

/-! ## Matching ends -/

/-- If each test ends, and ends where the others do, so does a selection. -/
theorem exists_select {α : Type} {test : α → Run Bool} (hm : ∀ x, Monotone (test x)) {P : World → Prop} {l : List α}
    (hl : ∀ x ∈ l, ∀ u, P u → ∃ depth ans v, test x (Script.run depth) u = some (ans, v) ∧ P v) (hw : P w) :
    ∃ depth found v, select test l (Script.run depth) w = some (found, v) := by
  induction l generalizing w with
  | nil => exact ⟨0, [], w, rfl⟩
  | cons x l ih =>
    obtain ⟨depth, ans, u, hx, hu⟩ := hl x (List.mem_cons_self ..) w hw
    obtain ⟨depth', others, v, hothers⟩ := ih (fun y hy => hl y (List.mem_cons_of_mem _ hy)) hu
    -- the deeper of the two limits does for both
    refine ⟨max depth depth', _, v, bind_eq_some.mpr ⟨ans, u, ?_, bind_eq_some.mpr ⟨others, v, ?_, rfl⟩⟩⟩
    · exact atDepth_le (hm x) (Nat.le_max_left ..) hx
    · exact atDepth_le (monotone_select hm l) (Nat.le_max_right ..) hothers

/-- A test ends if the factory of the source type does, should there be one. -/
theorem ends_isConvertible (hw : w.registries.Sound) (ha : w.registries.Describes a) (b : Descriptor)
    (hf : a.node = none → ∀ make, w.registries.factories.find? a.id = some make →
      ∃ depth p, Script.run depth make w = some p) :
    ∃ depth p, isConvertible a b (Script.run depth) w = some p := by
  cases hn : a.node with
  | some n =>
    obtain ⟨ans, hrun, -⟩ := isConvertible_class a b hn
    exact ⟨0, _, hrun _ w⟩
  | none =>
    have hcreate : ∃ depth p, create a.id (Script.run depth) w = some p := by
      cases hmake : w.registries.factories.find? a.id with
      | none =>
        obtain ⟨probe, hcreate, -⟩ := create_default hw ha hn hmake
        exact ⟨0, _, hcreate _⟩
      | some make =>
        obtain ⟨depth, ⟨o, u⟩, hrun⟩ := hf hn make hmake
        refine ⟨depth, ?_⟩
        rw [create_of_factory hmake]
        cases o with
        | none => exact ⟨(.null, u), bind_eq_some.mpr ⟨none, u, hrun, rfl⟩⟩
        | some x => exact ⟨Step.box x u, bind_eq_some.mpr ⟨some x, u, hrun, rfl⟩⟩
    obtain ⟨depth, ⟨probe, u⟩, hcreate⟩ := hcreate
    refine ⟨depth, ?_⟩
    rw [isConvertible_plain a b hn, hcreate, Option.bind_some]
    dsimp only
    split
    · exact ⟨_, rfl⟩
    · split
      · exact ⟨_, rfl⟩
      · split <;> exact ⟨_, rfl⟩

section

variable (hw : w.Reached) (hf : w.FactoriesEnd)
include hw hf

theorem exists_isConvertible (ha : w.registries.Describes a) (b : Descriptor) :
    ∃ depth ans v, isConvertible a b (Script.run depth) w = some (ans, v) ∧ w.Tests v := by
  obtain ⟨depth, ⟨ans, v⟩, h⟩ := ends_isConvertible hw.sound ha b fun _ make => hf w .refl a.id make
  exact ⟨depth, ans, v, h, .test .refl ha depth h⟩

theorem exists_allConvertible {types : List Descriptor} (ha : ∀ a ∈ types, w.registries.Describes a)
    (params : List Descriptor) :
    ∃ depth ans v, allConvertible types params (Script.run depth) w = some (ans, v) ∧ w.Tests v := by
  induction types generalizing params w with
  | nil => exact ⟨0, true, w, rfl, .refl⟩
  | cons a types ih =>
    cases params with
    | nil => exact ⟨0, true, w, rfl, .refl⟩
    | cons p params =>
      obtain ⟨depth, ok, u, hok, hu⟩ := exists_isConvertible hw hf (ha a (List.mem_cons_self ..)) p
      cases ok with
      | false => exact ⟨depth, false, u, bind_eq_some.mpr ⟨false, u, hok, rfl⟩, hu⟩
      | true =>
        have ha' : ∀ a ∈ types, u.registries.Describes a := fun a h =>
          (ha a (List.mem_cons_of_mem _ h)).mono (World.Leads.grows hw hu.leads)
        obtain ⟨depth', ans, v, hrest, hv⟩ := ih (hw.leads hu.leads) (hf.tests hu) ha' params
        refine ⟨max depth depth', ans, v, bind_eq_some.mpr ⟨true, u, ?_, ?_⟩, hu.trans hv⟩
        · exact atDepth_le (monotone_isConvertible a p) (Nat.le_max_left ..) hok
        · exact atDepth_le (monotone_allConvertible types params) (Nat.le_max_right ..) hrest

/-- Where factories end, so does the selection for arguments. -/
theorem exists_convertibleArgs {n : Nat} (d : Dispatcher n) {args : List Box}
    (hb : ∀ b ∈ args, b.Fits w.registries) : ∃ depth p, d.convertibleArgs args (Script.run depth) w = some p := by
  obtain ⟨htest, hall⟩ := Step.presents_typesOf hw hb
  have hu := hw.leads htest.leads
  generalize htypes : Step.typesOf args w = p at htest hall hu
  obtain ⟨types, u⟩ := p
  -- the factories end and the types are described wherever a test ends
  have hl : ∀ f ∈ d.functions, ∀ u : World,
      (u.Reached ∧ u.FactoriesEnd ∧ ∀ a ∈ types, u.registries.Describes a) →
      ∃ depth ans v, allConvertible types f.params (Script.run depth) u = some (ans, v) ∧
        (v.Reached ∧ v.FactoriesEnd ∧ ∀ a ∈ types, v.registries.Describes a) := by
    rintro f - u ⟨hu, hends, ha⟩
    obtain ⟨depth, ans, v, hans, hv⟩ := exists_allConvertible hu hends ha f.params
    exact ⟨depth, ans, v, hans, hu.leads hv.leads, hends.tests hv,
      fun a h => (ha a h).mono (World.Leads.grows hu hv.leads)⟩
  obtain ⟨depth, found, v, hselect⟩ := exists_select (fun f : Function n => monotone_allConvertible types f.params) hl
    ⟨hu, hf.tests htest, hall.describes hu⟩
  suffices h : ∃ p, d.convertible types (Script.run depth) u = some p by
    obtain ⟨p, h⟩ := h
    exact ⟨depth, p, bind_eq_some.mpr ⟨types, u, congrArg some htypes, h⟩⟩
  unfold Dispatcher.convertible
  split
  · exact ⟨_, rfl⟩
  · exact ⟨_, bind_eq_some.mpr ⟨found, v, hselect, rfl⟩⟩

end

end Run

/-! ## Two selections for the same arguments -/

section

variable {n : Nat} {d : Dispatcher n} {args : List Box} {w v : World}
variable (hw : w.Reached) (hb : ∀ b ∈ args, b.Fits w.registries)
variable (hp : ∀ f ∈ d.functions, ∀ p ∈ f.params, w.registries.Describes p)
include hw hb hp

/-- What selects a function exactly now does so later, and nothing else does. -/
theorem Dispatcher.exactlyArgs_eq (hv : w.Leads v) :
    ∃ chosen : Function n → Bool, (d.exactlyArgs args w).1 = d.functions.filter chosen ∧
      (d.exactlyArgs args v).1 = d.functions.filter chosen := by
  have hgrow := World.Leads.grows hw hv
  obtain ⟨htest, hall⟩ := Step.presents_typesOf hw hb
  obtain ⟨htest', hall'⟩ := Step.presents_typesOf (hw.leads hv) fun b h => (hb b h).mono hgrow
  have hu := hw.leads htest.leads
  have hu' := (hw.leads hv).leads htest'.leads
  have hg := World.Leads.grows hw htest.leads
  have hg' := World.Leads.grows hw (hv.trans htest'.leads)
  refine ⟨_, Run.exactlyArgs_fst d args w, (Run.exactlyArgs_fst d args v).trans ?_⟩
  refine List.filter_congr ?_
  intro f hf
  have hsame := Registries.PresentsAll.allExactly_eq hw.sound hb hg hg' hu.sound hu'.sound hall hall' (hp f hf)
  rw [← hall.length_eq, ← hall'.length_eq, hsame]

/-- What selects a function by conversion does so again after whatever follows. -/
theorem Dispatcher.convertibleArgs_sublist {D : Discipline} (ht : D.typed) {u u' : World} {depth depth' : Nat}
    {found found' : List (Function n)} (hgood : D.Good w.registries)
    (h : (d.convertibleArgs args).atDepth depth w = some (found, u)) (huv : u.Leads v) (hgood' : D.Good v.registries)
    (h' : (d.convertibleArgs args).atDepth depth' v = some (found', u')) : found.Sublist found' := by
  have hwu : w.Leads u := .step .refl (.convertibleArgs d args) depth (Run.bind_eq_some.mpr ⟨found, u, h, rfl⟩)
  have hu := hw.leads hwu
  have hv := hu.leads huv
  have hgrow := World.Leads.grows hw (hwu.trans huv)
  have hb' : ∀ b ∈ args, b.Fits v.registries := fun b h => (hb b h).mono hgrow
  have hp' : ∀ f ∈ d.functions, ∀ p ∈ f.params, v.registries.Describes p := fun f hf p h => (hp f hf p h).mono hgrow
  rcases Run.convertibleArgs_typed ht hgood hw hb hp h with ⟨-, rfl⟩ | ⟨hlength, hlater, hfound, -⟩
  · exact List.nil_sublist _
  rcases Run.convertibleArgs_typed ht hgood' hv hb' hp' h' with ⟨hlong, -⟩ | ⟨-, -, -, hfound'⟩
  · omega
  obtain ⟨-, hall⟩ := Step.presents_typesOf hw hb
  obtain ⟨htest', hall'⟩ := Step.presents_typesOf hv hb'
  have hall := hall.imp fun _ _ ha => Registries.Presents.mono hlater ha
  -- found, so accepted when the first selection ends, so accepted as described later, so found again
  refine (hfound.trans (Run.filter_sublist_filter fun f hf hacc => ?_)).trans hfound'
  exact Registries.PresentsAll.accepts_mono hw.sound hb (World.Leads.grows hw hwu)
    (World.Leads.grows hw ((hwu.trans huv).trans htest'.leads)) hu.sound (hv.leads htest'.leads).sound hall hall'
    (hp f hf) (World.Leads.grows hu (huv.trans htest'.leads)) hacc

end

/-- In a run of an honest and typed program, the arguments it has select exactly the same
    functions at any later point as now. By conversion they select, whenever factories end,
    and after a selection, whatever is registered then, they select at least what they did. -/
theorem Dispatcher.selections_persist {D : Discipline} (hh : D.honest) (ht : D.typed) {s : Session}
    (hs : Session.start.Leads D s) {n : Nat} (d : Dispatcher n)
    (hd : ∀ f ∈ d.functions, ∀ p ∈ f.params, p.Taken s.world)
    {args : List Box} (ha : ∀ b ∈ args, Value.From s.held (.any b)) {t : Session} (hst : s.Leads D t) :
    (∃ chosen : Function n → Bool, (d.exactlyArgs args s.world).1 = d.functions.filter chosen ∧
      (d.exactlyArgs args t.world).1 = d.functions.filter chosen) ∧
    (t.world.FactoriesEnd → ∃ depth found v, (d.convertibleArgs args).atDepth depth t.world = some (found, v)) ∧
    ∀ depth found w, (d.convertibleArgs args).atDepth depth s.world = some (found, w) →
      Session.Leads D ⟨w, s.held⟩ t → ∀ depth' found' v,
        (d.convertibleArgs args).atDepth depth' t.world = some (found', v) → found.Sublist found' := by
  have hw : s.world.Reached := hs.world
  obtain ⟨hgood, hheld⟩ := hs.good
  obtain ⟨hcourse, -⟩ := hst.keeps hgood hheld
  have hb : ∀ b ∈ args, b.Fits s.world.registries := fun b h => D.fits_from hheld (fun _ => ha b h) hh
  have hp : ∀ f ∈ d.functions, ∀ p ∈ f.params, s.world.registries.Describes p := by
    intro f hf p h
    exact (hd f hf p h).describes.2
  refine ⟨d.exactlyArgs_eq hw hb hp hst.world, fun hf => ?_, fun depth found w h hwt depth' found' v h' => ?_⟩
  · obtain ⟨depth, ⟨found, v⟩, h⟩ := Run.exists_convertibleArgs (hw.leads hst.world) hf d
      fun b h => (hb b h).mono (World.Leads.grows hw hst.world)
    exact ⟨depth, found, v, h⟩
  · exact d.convertibleArgs_sublist hw hb hp ht hgood h hwt.world (hgood.course hcourse) h'

/-- A function for dogs is selected for a dog, exactly and by conversion, also after the type of
    dogs has got a second number and the dog is described by that. -/
theorem Dispatcher.selections_persist_renamed :
    let dog := Instance.initial (.root ⟨"Dog", 0, 4⟩)
    let b : Box := .object ⟨TypeId.firstUser⟩ (some ⟨0, dog⟩)
    ∃ (s t : Session) (d : Dispatcher 1), s.Leads ⟨True, True⟩ t ∧
      (Step.describe b s.world).1.id = ⟨TypeId.firstUser⟩ ∧ (Step.describe b t.world).1.id = ⟨TypeId.firstUser + 1⟩ ∧
      (d.exactlyArgs [b] s.world).1.length = 1 ∧ (d.exactlyArgs [b] t.world).1 = (d.exactlyArgs [b] s.world).1 ∧
      ∃ depth found v, (d.convertibleArgs [b]).atDepth depth t.world = some (found, v) ∧ 1 ≤ found.length := by
  intro dog b
  let made : Value := .pointer ⟨dog.cls, some ⟨0, dog⟩⟩
  let s : Session := ⟨(Step.box made World.fresh).2, [.value (.any (Step.box made World.fresh).1)]⟩
  let d : Dispatcher 1 := ⟨[⟨none, [s.world.types.descriptor ⟨TypeId.firstUser⟩], Descriptor.wild⟩]⟩
  have hs : Session.start.Leads ⟨True, True⟩ s := Session.Leads.refl.act (.box made)
    (fun _ v hv => by cases List.mem_singleton.mp hv; exact .object ⟨0, dog⟩) rfl
  have hid : (Step.typeId (.pointer dog.cls) World.fresh).1 = ⟨TypeId.firstUser⟩ := by
    rw [World.fresh_eq]; decide
  have hb : (Step.box made World.fresh).1 = b := by simp only [made, Step.box_pointer, hid]; rfl
  have ha : ∀ b' ∈ [b], Value.From s.held (.any b') := fun b' h => by
    rw [List.mem_singleton.mp h, ← hb]; exact .held (List.mem_cons_self ..)
  have hnumber : s.world.types.entries.contains ⟨TypeId.firstUser⟩ = true := by
    simp only [s, World.fresh_eq]; decide
  have hd : ∀ f ∈ d.functions, ∀ p ∈ f.params, p.Taken s.world := fun f hf p hp => by
    rw [List.mem_singleton.mp hf] at hp
    rw [List.mem_singleton.mp hp]
    exact .number hs.world hnumber
  let renamed (w : World) : World := (Step.addAlias (.pointer dog.cls) "Hound" w).2
  have hmatch : ((d.convertibleArgs [b]).atDepth 0 s.world).map (fun p => (p.1.length,
      (Step.describe b (renamed p.2)).1.id, (renamed p.2).registries.factories.pairs.isEmpty)) =
      some (1, ⟨TypeId.firstUser + 1⟩, true) := by
    simp only [d, s, World.fresh_eq]
    decide
  obtain ⟨⟨found, w⟩, h, hw⟩ := Option.map_eq_some_iff.mp hmatch
  obtain ⟨hlength, hid', hempty⟩ : found.length = 1 ∧ (Step.describe b (renamed w)).1.id = ⟨TypeId.firstUser + 1⟩ ∧
      (renamed w).registries.factories.pairs.isEmpty = true := by simpa using hw
  let t : Session := ⟨renamed w, s.held⟩
  have hsw : s.Leads ⟨True, True⟩ ⟨w, s.held⟩ :=
    Session.Leads.refl.step (.convertibleArgs d [b]) trivial 0 (Run.bind_eq_some.mpr ⟨found, w, h, rfl⟩)
  have hst : s.Leads ⟨True, True⟩ t := hsw.act (.addAlias (.pointer dog.cls) "Hound") (fun _ v hv => by cases hv) rfl
  have hwt : Session.Leads ⟨True, True⟩ ⟨w, s.held⟩ t :=
    Session.Leads.refl.act (.addAlias (.pointer dog.cls) "Hound") (fun _ v hv => by cases hv) rfl
  have hnone : ∀ id, t.world.registries.factories.find? id = none := fun id => by
    simp [t, Table.find?, List.isEmpty_iff.mp hempty]
  obtain ⟨⟨chosen, hnow, hlater⟩, hends, hmore⟩ := Dispatcher.selections_persist trivial trivial hs d hd ha hst
  obtain ⟨depth, found', v, h'⟩ := hends (.of_none (hs.world.trans hst.world) hnone)
  have hsub := hmore 0 found w h hwt depth found' v h'
  have hbefore : (Step.describe b s.world).1.id = ⟨TypeId.firstUser⟩ ∧ (d.exactlyArgs [b] s.world).1.length = 1 := by
    simp only [d, s, World.fresh_eq]
    decide
  exact ⟨s, t, d, hst, hbefore.1, hid', hbefore.2, hlater.trans hnow.symm, depth, found', v, h',
    Nat.le_trans (Nat.le_of_eq hlength.symm) hsub.length_le⟩

end Multimethod
