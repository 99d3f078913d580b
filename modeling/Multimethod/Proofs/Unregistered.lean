/-
  Multimethod.Proofs.Unregistered — what a number that is not registered converts to.

  Such a number has no default value, so the test finds nothing to ask and says no, unless
  the other side takes any value. But factories are kept by number and not by registered
  number: one that was given for the number is asked all the same, and what it makes may
  convert (`isConvertible_unregistered_made`). From a registered number the test says yes
  to an unregistered one other than the wildcard only if making the value registers it, for
  a box converts only to known numbers (`Step.known_canConvert`). The box with nothing in
  it is described by the wildcard, which is never registered; so for such an argument only
  parameters that take any value are selected, as long as the wildcard has no factory.
-/
import Multimethod.Proofs.Arguments
import Multimethod.Proofs.Representation

namespace Multimethod

open Registries (Grows Course)

namespace Step

/-- A box that fits converts to known numbers only. -/
theorem known_canConvert {w : World} (hw : w.registries.Sound) {b : Box} (hb : b.Fits w.registries) {u : TypeId}
    (h : (canConvert b u w).1 = true) : (canConvert b u w).2.types.Known u := by
  have registered : ∀ {t : TypeTable} {e : Entry}, t.entries.find? u = some e → t.Known u := fun he =>
    .inr ((Table.contains_iff _ _).mpr ⟨_, he⟩)
  cases b with
  | null => cases h
  | plain id x =>
    cases hb with
    | plain hid _ =>
      rcases (hw.converts_iff hid u).mp h with ⟨f, hf, -⟩ | hc
      · exact registered hf
      · exact (hw.numbered.converterKeys id u hc).2
  | object id target =>
    obtain ⟨hworld, hcan⟩ := canConvert_object id u target w
    have hsound := Course.sound hw (isQuiet_describe (.object id target) w hw)
    rw [hworld]
    rcases hcan.mp h with hid | ⟨_, m, _, hm, _⟩
    · cases target with
      | none =>
        cases hb with
        | object he _ _ =>
          have hidu : id = u := (TypeTable.descriptor_id _ _).symm.trans hid
          exact registered (hidu ▸ he)
      | some o =>
        obtain ⟨_, e, _, he, _⟩ := describe_live hw id o
        exact registered (hid ▸ he)
    · obtain ⟨e, _, he, _⟩ := entry_of_node hsound hm
      exact registered he

end Step

namespace Run

variable {D : Discipline} {c : Caller} {w v : World} {a p : Descriptor} {u i : TypeId}

theorem isConvertible_isWild (hp : p.isWild = true) (a : Descriptor) (c : Caller) (w : World) :
    isConvertible a p c w = some (true, w) := by
  unfold isConvertible
  rw [hp, Bool.or_true, if_pos rfl]; rfl

/-! ## From a number that is not registered -/

section

variable (hu : w.types.entries.find? u = none)
include hu

/-- Without a factory nothing is made of it, and it converts to no other type than any. -/
theorem isConvertible_nothing (hf : w.registries.factories.find? u = none) (hid : u ≠ p.id) (hp : p.isWild = false)
    (c : Caller) : isConvertible (w.types.descriptor u) p c w = some (false, w) := by
  have hcreate : create u c w = some (.null, w) := by
    rw [create_of_none hf (by rw [hu]; rfl), Step.nullValue_of_none hu]
  rw [isConvertible_plain _ _ (TypeTable.node_descriptor hu), TypeTable.descriptor_id, hcreate]
  simp only [hid, hp, Bool.false_eq_true, or_self, if_false, Option.bind_some]
  split <;> rfl

/-- Where it converts to another type than any, what its factory made does. -/
theorem made_of_isConvertible (hid : u ≠ p.id) (hp : p.isWild = false)
    (h : isConvertible (w.types.descriptor u) p c w = some (true, v)) :
    ∃ make probe x, w.registries.factories.find? u = some make ∧ callBoxed make c w = some (probe, x) ∧
      Step.canConvert probe p.id x = (true, v) := by
  cases hf : w.registries.factories.find? u with
  | none => cases (isConvertible_nothing hu hf hid hp c).symm.trans h
  | some make =>
    rw [isConvertible_plain _ _ (TypeTable.node_descriptor hu), TypeTable.descriptor_id, create_of_factory hf] at h
    simp only [hid, hp, Bool.false_eq_true, or_self, if_false] at h
    split at h
    · cases h
    · obtain ⟨⟨probe, x⟩, hmade, h⟩ := Option.bind_eq_some_iff.mp h
      dsimp only at h
      split at h
      · cases h
      · exact ⟨make, probe, x, rfl, hmade, Option.some.inj h⟩

end

/-! ## To a number that is not registered -/

/-- What converts to a number, other than itself, leaves it known. -/
theorem known_of_isConvertible (hD : D.honest) {depth : Nat} (hw : D.Good w.registries)
    (hu : w.types.entries.find? u = none) (hid : a.id ≠ u)
    (h : isConvertible a (w.types.descriptor u) (Script.run depth) w = some (true, v)) : v.types.Known u := by
  have hwild : (w.types.descriptor u).isWild = true → v.types.Known u := fun hp => by
    rw [Descriptor.isWild, TypeTable.descriptor_id] at hp
    exact .inl (beq_iff_eq.mp hp)
  have hnone := TypeTable.node_descriptor hu
  cases hn : a.node with
  | some n =>
    obtain ⟨ans, hrun, hans⟩ := isConvertible_class a (w.types.descriptor u) hn
    cases (hrun _ _).symm.trans h
    rcases hans.mp rfl with hsame | hp | ⟨-, m, hm, -⟩
    · rw [Descriptor.same, hn, hnone, TypeTable.descriptor_id] at hsame
      exact absurd (by simpa [Descriptor.sameNode] using hsame) hid
    · exact hwild hp
    · rw [hnone] at hm; cases hm
  | none =>
    rw [isConvertible_plain a _ hn, TypeTable.descriptor_id] at h
    split at h
    · rename_i hor
      rcases hor with heq | hp
      · exact absurd heq hid
      · cases h; exact hwild hp
    · split at h
      · cases h
      · obtain ⟨⟨probe, x⟩, hcreate, h⟩ := Option.bind_eq_some_iff.mp h
        obtain ⟨hcourse, hfits⟩ := ensures_create (keeps_run D depth) hw a.id _ _ hcreate
        dsimp only at h
        split at h
        · cases h
        · have hcan : Step.canConvert probe u x = (true, v) := Option.some.inj h
          have hknown := Step.known_canConvert (hw.course hcourse).sound (hfits hD) (u := u) (by rw [hcan])
          rwa [hcan] at hknown

/-- Where making a value asks no factory, only the wildcard is converted to. -/
theorem isConvertible_to_unregistered (hD : D.honest) (hw : w.Reached) (hgood : D.Good w.registries)
    (hu : w.types.entries.find? u = none) (ha : w.registries.Describes a) (hid : a.id ≠ u)
    (hf : a.node = none → w.registries.factories.find? a.id = none) (c : Caller) :
    isConvertible a (w.types.descriptor u) c w = some (u.isWild, w) := by
  obtain ⟨ans, hrun⟩ := exists_isConvertible_default hw.sound ha (w.types.descriptor u) hf
  have hwild : (w.types.descriptor u).isWild = u.isWild := congrArg TypeId.isWild (TypeTable.descriptor_id _ _)
  have hans : ans = u.isWild := by
    cases hisWild : u.isWild with
    | true => cases (hrun c).symm.trans (isConvertible_isWild (hwild.trans hisWild) a c w); rfl
    | false =>
      refine Bool.eq_false_iff.mpr fun htrue => ?_
      subst htrue
      rcases known_of_isConvertible hD hgood hu hid (hrun (Script.run 0)) with rfl | hcontains
      · cases hisWild
      · obtain ⟨e, he⟩ := (Table.contains_iff _ _).mp hcontains
        cases hu.symm.trans he
  rw [hrun, hans]

/-! ## Boxes with nothing in them -/

/-- The wildcard, without a factory, converts to nothing but any type. -/
theorem isWild_of_isConvertible (hw : w.registries.Sound) (hf : w.registries.factories.find? TypeId.wild = none)
    (h : isConvertible Descriptor.wild p c w = some (true, v)) : p.isWild = true := by
  by_contra hp
  have hid : TypeId.wild ≠ p.id := fun hid => hp (beq_iff_eq.mpr hid.symm)
  have hfalse := isConvertible_nothing hw.find?_wild hf hid (Bool.eq_false_iff.mpr hp) c
  cases hfalse.symm.trans h

end Run

/-- Exactly the wildcard is any type. -/
theorem Descriptor.isWild_of_isExactly {p : Descriptor} (h : Descriptor.wild.isExactly p = true) : p.isWild = true := by
  unfold isExactly at h
  split at h
  · cases h
  · exact beq_iff_eq.mpr (beq_iff_eq.mp h).symm

/-- The box with nothing in it is described by the wildcard, at its place among the arguments. -/
theorem Step.wild_mem_typesOf {args : List Box} {params : List Descriptor} {x : Box × Descriptor}
    (hx : x ∈ args.zip params) (hnull : x.1.isNull = true) (w : World) :
    (Descriptor.wild, x.2) ∈ (Step.typesOf args w).1.zip params := by
  induction args generalizing params w with
  | nil => cases hx
  | cons b args ih =>
    cases params with
    | nil => cases hx
    | cons p params =>
      rw [Step.typesOf_cons, List.zip_cons_cons]
      rcases List.mem_cons.mp hx with rfl | hx
      · cases b with
        | null => exact List.mem_cons_self ..
        | plain _ _ => cases hnull
        | object _ _ => cases hnull
      · exact List.mem_cons_of_mem _ (ih hx _)

namespace Dispatcher

variable {n : Nat} {d : Dispatcher n} {args : List Box} {w : World} {f : Function n}

/-- For a box with nothing in it only parameters that take any value are exactly right. -/
theorem isWild_of_exactlyArgs (hf : f ∈ (d.exactlyArgs args w).1) {x : Box × Descriptor} (hx : x ∈ args.zip f.params)
    (hnull : x.1.isNull = true) : x.2.isWild = true := by
  rw [Run.exactlyArgs_fst] at hf
  have hall := ((Bool.and_eq_true _ _).mp (List.mem_filter.mp hf).2).2
  exact Descriptor.isWild_of_isExactly (List.all_eq_true.mp hall _ (Step.wild_mem_typesOf hx hnull w))

/-- By conversion too, if the wildcard has no factory when the selection has ended. -/
theorem isWild_of_convertibleArgs (hw : w.Reached) {depth : Nat} {found : List (Function n)} {v : World}
    (h : (d.convertibleArgs args).atDepth depth w = some (found, v))
    (hnone : v.registries.factories.find? TypeId.wild = none) (hf : f ∈ found) {x : Box × Descriptor}
    (hx : x ∈ args.zip f.params) (hnull : x.1.isNull = true) : x.2.isWild = true := by
  obtain ⟨types, u, htypes, h⟩ := Run.bind_eq_some.mp h
  have he : Step.typesOf args w = (types, u) := Option.some.inj htypes
  have hmem := Step.wild_mem_typesOf hx hnull w
  have hquiet := Step.isQuiet_typesOf args w hw.sound
  rw [he] at hmem hquiet
  obtain ⟨held, hs⟩ := World.Leads.session hw []
  have hgood : Discipline.Good .free u.registries := hs.good.1.course hquiet.course
  obtain ⟨y, y', hy, htest, hy'⟩ := Run.asked_convertible (Run.keeps_run .free depth) hgood h hf _ hmem
  have hyw := Course.sound hgood.sound hy
  obtain ⟨hcourse, -⟩ := Run.ensures_isConvertible (Run.keeps_run .free depth) (hgood.course hy) _ _ _ _ htest
  exact Run.isWild_of_isConvertible hyw (Course.no_factory (hcourse.trans hy') hnone) htest

end Dispatcher

/-- In a run of an honest program, a number `u` that is not registered converts to a registered
    one only if a factory for `u` makes a box that does. A registered number converts to `u` only
    if this is the wildcard, or making the value registers it; where no factory is asked the test
    ends with just that answer. For a box with nothing in it no parameter is selected but those
    that take any value, exactly always, by conversion if the wildcard has no factory. -/
theorem Session.Leads.isConvertible_unregistered {D : Discipline} (hD : D.honest) {s : Session}
    (hs : Session.start.Leads D s) {u i : TypeId} (hu : s.world.types.entries.contains u = false)
    (hi : s.world.types.entries.contains i = true) :
    let a := s.world.types.descriptor u
    let b := s.world.types.descriptor i
    ((s.world.registries.factories.find? u = none →
        ∀ depth, (Run.isConvertible a b).atDepth depth s.world = some (false, s.world)) ∧
      ∀ depth v, (Run.isConvertible a b).atDepth depth s.world = some (true, v) →
        ∃ make probe x, s.world.registries.factories.find? u = some make ∧
          Run.callBoxed make (Script.run depth) s.world = some (probe, x) ∧ Step.canConvert probe i x = (true, v)) ∧
    (((b.isClass = true ∨ s.world.registries.factories.find? i = none) →
        ∀ depth, (Run.isConvertible b a).atDepth depth s.world = some (u.isWild, s.world)) ∧
      ∀ depth v, (Run.isConvertible b a).atDepth depth s.world = some (true, v) →
        u = TypeId.wild ∨ v.types.entries.contains u = true) ∧
    ∀ (n : Nat) (d : Dispatcher n) (args : List Box),
      (∀ f ∈ (d.exactlyArgs args s.world).1, ∀ x ∈ args.zip f.params, x.1.isNull = true → x.2.isWild = true) ∧
      ∀ depth found v, (d.convertibleArgs args).atDepth depth s.world = some (found, v) →
        v.registries.factories.find? TypeId.wild = none →
        ∀ f ∈ found, ∀ x ∈ args.zip f.params, x.1.isNull = true → x.2.isWild = true := by
  intro a b
  have hw : s.world.Reached := hs.world
  obtain ⟨hgood, -⟩ := hs.good
  have hnone : s.world.types.entries.find? u = none := by
    refine Option.eq_none_iff_forall_ne_some.mpr fun e he => ?_
    rw [(Table.contains_iff _ _).mpr ⟨e, he⟩] at hu; cases hu
  obtain ⟨e, he⟩ := (Table.contains_iff _ _).mp hi
  have hbid : b.id = i := TypeTable.descriptor_id _ _
  have hid : u ≠ b.id := by
    intro h
    rw [h, hbid, he] at hnone; cases hnone
  have hwild : b.isWild = false := by
    refine Bool.eq_false_iff.mpr fun h => hw.sound.ne_wild he ?_
    exact hbid.symm.trans (beq_iff_eq.mp h)
  have hdescribes := hw.describes hi
  refine ⟨⟨fun hf depth => Run.isConvertible_nothing hnone hf hid hwild _, fun depth v h => ?_⟩,
    ⟨fun hor depth => ?_, fun depth v h => Run.known_of_isConvertible hD hgood hnone hid.symm h⟩,
    fun n d args => ⟨fun f hf x hx => Dispatcher.isWild_of_exactlyArgs hf hx,
      fun depth found v h hf f hfound x hx => Dispatcher.isWild_of_convertibleArgs hw h hf hfound hx⟩⟩
  · obtain ⟨make, probe, x, hf, hmade, hcan⟩ := Run.made_of_isConvertible hnone hid hwild h
    exact ⟨make, probe, x, hf, hmade, hbid ▸ hcan⟩
  · refine Run.isConvertible_to_unregistered hD hw hgood hnone hdescribes hid.symm (fun hn => ?_) _
    rcases hor with hclass | hf
    · rw [Descriptor.isClass] at hclass
      rw [hn] at hclass; cases hclass
    · exact hbid.symm ▸ hf

/-- Without factories a free number converts to no integer and no integer to it, and the box with
    nothing in it selects, of a function for integers and one for any value, the second. -/
theorem Session.Leads.isConvertible_unregistered_fresh :
    let w := World.fresh
    let functions : List (Function 1) :=
      [⟨none, [w.types.descriptor ⟨3⟩], Descriptor.wild⟩, ⟨none, [Descriptor.wild], Descriptor.wild⟩]
    (∀ depth, (Run.isConvertible (w.types.descriptor ⟨5000⟩) (w.types.descriptor ⟨3⟩)).atDepth depth w =
      some (false, w)) ∧
    (∀ depth, (Run.isConvertible (w.types.descriptor ⟨3⟩) (w.types.descriptor ⟨5000⟩)).atDepth depth w =
      some (false, w)) ∧
    ∃ found v, ((Dispatcher.mk functions).convertibleArgs [.null]).atDepth 0 w = some (found, v) ∧ found.length = 1 ∧
      ∀ f ∈ found, ∀ x ∈ [Box.null].zip f.params, x.2.isWild = true := by
  intro w functions
  have hnone : ∀ id, w.registries.factories.find? id = none := fun _ => rfl
  obtain ⟨⟨hfrom, -⟩, ⟨hto, -⟩, hnull⟩ := Session.Leads.isConvertible_unregistered (D := ⟨True, True⟩) trivial
    (s := .start) .refl (u := ⟨5000⟩) (i := ⟨3⟩)
    (by rw [Session.start, World.fresh_eq]; decide) (by rw [Session.start, World.fresh_eq]; decide)
  have hselect : (((Dispatcher.mk functions).convertibleArgs [.null]).atDepth 0 w).map (fun p =>
      (p.1.length, (p.2.registries.factories.find? TypeId.wild).isNone)) = some (1, true) := by
    simp only [functions, w, World.fresh_eq]
    decide
  obtain ⟨⟨found, v⟩, h, hfound⟩ := Option.map_eq_some_iff.mp hselect
  obtain ⟨hlength, hnever⟩ := Prod.mk.inj hfound
  refine ⟨hfrom (hnone _), hto (.inr (hnone _)), found, v, h, hlength, fun f hf x hx => ?_⟩
  refine (hnull 1 ⟨functions⟩ [.null]).2 0 found v h (Option.isNone_iff_eq_none.mp hnever) f hf x hx ?_
  rw [List.mem_singleton.mp (List.of_mem_zip hx).1]; rfl

/-- A factory makes an integer for a free number, which converts to doubles then; one that is given
    for any value makes the box with nothing in it select a function for integers; and one for
    integers that gives the type of naturals a second number converts to that number. -/
theorem World.isConvertible_unregistered_made :
    let five : Script := .done (.plain (.int .int32 5))
    let w := (Step.addFactory ⟨5000⟩ five fresh).2
    let v := (Step.addFactoryFor .any five fresh).2
    let u := (Step.addFactory ⟨3⟩ (.act (.addAlias (.int .uint32) "U") fun _ => .done (.plain (.int .uint32 7))) fresh).2
    let test (x : World) (a b : TypeId) : Option Bool :=
      ((Run.isConvertible (x.types.descriptor a) (x.types.descriptor b)).atDepth 1 x).map Prod.fst
    let d : Dispatcher 1 := ⟨[⟨none, [v.types.descriptor ⟨3⟩], Descriptor.wild⟩]⟩
    (w.Reached ∧ v.Reached ∧ u.Reached) ∧
    (w.types.entries.contains ⟨5000⟩ = false ∧ w.types.entries.contains ⟨8⟩ = true ∧
      test w ⟨5000⟩ ⟨8⟩ = some true) ∧
    (v.types.entries.contains TypeId.wild = false ∧ v.types.entries.contains ⟨3⟩ = true ∧
      test v TypeId.wild ⟨3⟩ = some true ∧
      ((d.convertibleArgs [.null]).atDepth 1 v).map (fun p => p.1.length) = some 1) ∧
    u.types.entries.contains ⟨3⟩ = true ∧ u.types.entries.contains ⟨1024⟩ = false ∧
      test u ⟨3⟩ ⟨1024⟩ = some true := by
  intro five w v u test d
  refine ⟨⟨.addFactory fresh _ _, .addFactoryFor fresh _ _, .addFactory fresh _ _⟩, ?_⟩
  simp only [test, d, u, v, w, World.fresh_eq]
  decide

end Multimethod
