/-
  Multimethod.Proofs.Results — what a conversion gives.

  A conversion that gives a box gives one whose static type (`Box.HasTy`) the wanted number
  stands for: the box itself, the box of a converter's answer, or the object under the
  wanted number (`Run.hasTy_convert`). With the number in the box fitting what it holds,
  this makes it a value of the wanted type (`Box.IsOf`): a content of just that type, or a
  pointer described by a class that inherits the wanted one (`HasTy.isOf`). The test of the
  box says yes to every such number, before the conversion and ever after; for pointers the
  test is all that decides (`Session.Leads.convert_promises`).
-/
import Multimethod.Proofs.Aliases

namespace Multimethod

open Registries (Grows Course)

/-- The type of a box by what it holds: that of the content, or the pointer type of its number. -/
def Box.HasTy (r : Registries) (t : Ty) : Box → Prop
  | .null => False
  | .plain _ c => c.ty = t
  | .object id _ => r.types.StandsFor id t

/-- The box holds a value of the type of a number: a content of the type that the number is
    registered for, or a pointer whose class, as the box is described, inherits the number's. -/
inductive Box.IsOf (w : World) (wanted : TypeId) : Box → Prop
  | plain {id : TypeId} {c : Content} (h : w.types.StandsFor wanted c.ty) : IsOf w wanted (.plain id c)
  | object {id : TypeId} {target : Option Object} {n m : ClassNode}
      (hn : (Step.describe (.object id target) w).1.node = some n)
      (hm : (w.types.descriptor wanted).node = some m) (h : n.inherits m = true) : IsOf w wanted (.object id target)

namespace Box.HasTy

variable {r s : Registries} {b : Box} {t : Ty}

theorem mono (h : Grows r s) (hb : b.HasTy r t) : b.HasTy s t := by
  cases b with
  | null => exact hb
  | plain id c => exact hb
  | object id target => exact h.standsFor hb

/-- A fitting box of the type that the wanted number is registered for holds a value of that type. -/
theorem isOf {w : World} (hw : w.registries.Sound) (hfits : b.Fits w.registries) (hb : b.HasTy w.registries t)
    {wanted : TypeId} (hwanted : w.types.StandsFor wanted t) : b.IsOf w wanted := by
  cases hfits with
  | null => exact hb.elim
  | plain _ _ => cases hb; exact .plain hwanted
  | @object id e k target he hk hlive =>
    obtain ⟨e', he', rfl⟩ := Option.map_eq_some_iff.mp hb
    cases he.symm.trans he'
    obtain ⟨f, hf, hfe⟩ := Option.map_eq_some_iff.mp hwanted
    obtain ⟨m, hkm, hm⟩ := hw.node_of_points ⟨f, hf, hfe.trans hk⟩
    cases target with
    | none =>
      obtain ⟨m', hkm', hn⟩ := hw.node_of_points ⟨e, he, hk⟩
      cases hkm.symm.trans hkm'
      exact .object hn hm m.inherits_refl
    | some o =>
      have hquiet := Step.isQuiet_describe (.object id (some o)) w hw
      obtain ⟨n, e', hn, -, -, hdescribed⟩ := Step.describe_live hw id o
      have hnode : (Step.describe (.object id (some o)) w).1.node = some n := by rw [hdescribed]
      have hiff := (Course.sound hw hquiet).classes.inherits_iff hn ((Course.grows hw hquiet).node hkm)
      exact .object hnode hm (hiff.mpr (hlive o rfl).1)

end Box.HasTy

/-- Except for boxes and the unit value, a value's box is of the value's type. -/
theorem Step.hasTy_box {w : World} (hw : w.registries.Sound) {y : Value} (hany : y.ty ≠ .any) (hvoid : y.ty ≠ .void) :
    (box y w).1.HasTy (box y w).2.registries y.ty := by
  cases y with
  | unit => exact absurd rfl hvoid
  | any b => exact absurd rfl hany
  | plain c => exact (rfl : c.ty = c.ty)
  | pointer h =>
    have hsound := Course.sound hw (isQuiet_typeId (.pointer h.cls) w hw)
    exact hsound.standsFor_of_numbers (typeId_spec (.pointer h.cls) w) hany

namespace Step

variable {w v : World} {id wanted : TypeId} {target : Option Object}

/-- A pointer that converted still does, in whatever world comes after the test. -/
theorem canConvert_object_later (hw : w.registries.Sound) (hb : Box.Fits w.registries (.object id target))
    (hcan : (canConvert (.object id target) wanted w).1 = true) (hv : v.registries.Sound)
    (hg : Grows (canConvert (.object id target) wanted w).2.registries v.registries) :
    (canConvert (.object id target) wanted v).1 = true := by
  cases target with
  | some o =>
    -- the test leaves the wanted number registered for a class on the object's chain
    cases fits_canConvert hw hb hcan with
    | object he hk hlive => exact (canConvert_live hv id (TypeTable.Points.mono hg ⟨_, he, hk⟩)).mpr (hlive o rfl).1
  | none =>
    obtain ⟨hworld, hcases⟩ := canConvert_object id wanted none w
    rw [hworld] at hg
    refine (canConvert_object id wanted none v).2.mpr ((hcases.mp hcan).imp (fun h => ?_) ?_)
    · exact (TypeTable.descriptor_id _ _).trans ((TypeTable.descriptor_id _ _).symm.trans h)
    · rintro ⟨n, m, hn, hm, hin⟩
      have kept : ∀ {i k}, (w.types.descriptor i).node = some k → (v.types.descriptor i).node = some k := by
        intro i k hk
        obtain ⟨e, -, he, -⟩ := entry_of_node hw hk
        rw [hg.descriptor he]; exact hk
      exact ⟨n, m, kept hn, kept hm, hin⟩

end Step

namespace Run

variable {D : Discipline} {c : Caller} {w v : World} {wanted : TypeId}

/-- A conversion of a content by the table gives a box only where the table supports it, and then
    a box of the wanted number's type. -/
theorem hasTy_tableConvert (hc : Keeps D c) (hw : D.Good w.registries) {id : TypeId} {x : Content}
    (hb : Box.Fits w.registries (.plain id x)) {b : Box}
    (h : tableConvert (.plain id x) wanted c w = some (some b, v)) (hnull : b.isNull = false) :
    w.types.converts id wanted = true ∧ (wanted ≠ TypeId.wild → ∃ t, v.types.StandsFor wanted t ∧ b.HasTy v.registries t) := by
  have hown := hw.sound.standsFor_of_numbers hb.numbers x.ty_ne_any
  by_cases hother : id = wanted ∨ w.types.sameType id wanted = true
  · have hdescribe : Step.describe (.plain id x) w = (w.types.descriptor id, w) := rfl
    rw [tableConvert_eq hdescribe, TypeTable.descriptor_id, if_pos hother] at h
    cases h
    have hwanted : w.types.StandsFor wanted x.ty := by
      rcases hother with rfl | hsame
      · exact hown
      · obtain ⟨e, he, hty⟩ := Option.map_eq_some_iff.mp hown
        obtain ⟨e', f, he', hf, hef⟩ := TypeTable.sameType_iff.mp hsame
        cases he.symm.trans he'
        exact Option.map_eq_some_iff.mpr ⟨f, hf, hef.symm.trans hty⟩
    refine ⟨?_, fun _ => ⟨x.ty, hwanted, rfl⟩⟩
    simp only [TypeTable.converts, Bool.or_eq_true, beq_iff_eq]
    exact .inl hother
  · rw [tableConvert_content hw.sound hb hother] at h
    cases hk : w.types.converters.find? (id, wanted) with
    | none =>
      rw [hk] at h
      cases h
    | some k =>
      rw [hk] at h
      obtain ⟨⟨o, u⟩, hans, hbox⟩ := Option.bind_eq_some_iff.mp h
      obtain ⟨hcourse, ho⟩ := ensures_answer hc hw (hw.stores.converter hk) (fun _ => hb.content) _ _ hans
      have hu := hw.course hcourse
      have htarget : w.types.Numbers k.target wanted := (hw.sound.converter hk).2
      refine ⟨?_, fun hwild => ?_⟩
      · simp only [TypeTable.converts, Bool.or_eq_true]
        exact .inr ((Table.contains_iff _ _).mpr ⟨k, hk⟩)
      cases o with
      | none => cases hbox
      | some y =>
        cases hbox
        obtain ⟨hty, -⟩ := ho y rfl
        have hany : y.ty ≠ .any := fun h => hwild (TypeTable.Numbers.eq (hty ▸ htarget) (.inl ⟨h, rfl⟩))
        have hgrow := (Course.grows hw.sound hcourse).trans (Course.grows hu.sound (Step.isQuiet_box y u hu.sound))
        have hv := Course.sound hu.sound (Step.isQuiet_box y u hu.sound)
        refine ⟨y.ty, hv.standsFor_of_numbers (hgrow.numbers (hty ▸ htarget)) hany, Step.hasTy_box hu.sound hany ?_⟩
        -- the unit value would have made the box with nothing in it
        intro hvoid
        cases y with
        | unit => cases hnull
        | any _ => cases hvoid
        | plain z => cases z <;> cases hvoid
        | pointer _ => cases hvoid

/-- A conversion to a registered number that gives a box gives one of the number's type. -/
theorem hasTy_convert (hc : Keeps D c) (hw : D.Good w.registries) {b b' : Box}
    (hb : b.Fits w.registries) (h : convert b wanted c w = some (b', v)) (hnull : b'.isNull = false) :
    (Step.canConvert b wanted w).1 = true ∧
      (wanted ≠ TypeId.wild → ∃ t, v.types.StandsFor wanted t ∧ b'.HasTy v.registries t) := by
  cases b with
  | null =>
    cases (convert_null wanted c w).symm.trans h
    cases hnull
  | plain id x =>
    rw [convert_content] at h
    obtain ⟨⟨o, u⟩, htable, ho⟩ := Option.bind_eq_some_iff.mp h
    cases o with
    | none =>
      cases ho
      cases hnull
    | some y => cases ho; exact hasTy_tableConvert hc hw hb htable hnull
  | object id target =>
    rw [convert_object] at h
    cases hcan : (Step.canConvert (.object id target) wanted w).1 with
    | false =>
      rw [hcan] at h
      cases h
      cases hnull
    | true =>
      rw [hcan] at h
      cases h
      refine ⟨rfl, fun _ => ?_⟩
      cases Step.fits_canConvert hw.sound hb hcan with
      | object he _ _ => exact ⟨_, Option.map_eq_some_iff.mpr ⟨_, he, rfl⟩, Option.map_eq_some_iff.mpr ⟨_, he, rfl⟩⟩

end Run

theorem World.Leads.convert {w v : World} {b b' : Box} {wanted : TypeId} {depth : Nat}
    (h : (Run.convert b wanted).atDepth depth w = some (b', v)) : w.Leads v :=
  .step .refl (.act (.convert b wanted)) depth (Run.bind_eq_some.mpr ⟨_, _, h, rfl⟩)

/-- A box that an honest program has is converted, at any depth, to any number. If that gives a
    box that is not null, the box tested for the number says yes, before the conversion and in
    every world after it; and if the number is registered by then, the result is a value of
    its type. A pointer is converted wherever its test says yes, and to a pointer to the same
    object. -/
theorem Session.Leads.convert_promises {D : Discipline} (hD : D.honest) {s : Session} (hs : Session.start.Leads D s)
    {b : Box} (hb : Value.From s.held (.any b)) (wanted : TypeId) :
    (∀ depth b' v, (Run.convert b wanted).atDepth depth s.world = some (b', v) → b'.isNull = false →
      (Step.canConvert b wanted s.world).1 = true ∧
      ∀ u, v.Leads u → (Step.canConvert b wanted u).1 = true ∧
        (u.types.entries.contains wanted = true → b'.IsOf u wanted)) ∧
    ∀ id target, b = .object id target → ∀ depth, ∃ v, (Run.convert b wanted).atDepth depth s.world =
      some (if (Step.canConvert b wanted s.world).1 = true then .object wanted target else .null, v) := by
  obtain ⟨hw, hheld⟩ := hs.good
  have hfits : b.Fits s.world.registries := D.fits_from hheld (fun _ => hb) hD
  refine ⟨fun depth b' v h hnull => ?_, fun id target hobject depth => ?_⟩
  · have hc : Run.Keeps D (Script.run depth) := Run.keeps_run D depth
    obtain ⟨hcan, hty⟩ := Run.hasTy_convert hc hw hfits h hnull
    obtain ⟨hcourse, hfits'⟩ := Run.ensures_convert hc hw (fun _ => hfits) _ _ h
    have hreached : v.Reached := hs.world.trans (.convert h)
    refine ⟨hcan, fun u hu => ?_⟩
    have hgrow := hu.grows hreached
    have husound := (hreached.leads hu).sound
    refine ⟨?_, fun hregistered => ?_⟩
    · cases b with
      | null => cases hcan
      | plain id x => exact ((Course.grows hw.sound hcourse).trans hgrow).converts hcan
      | object id target =>
        have hv : v = (Step.canConvert (.object id target) wanted s.world).2 := by
          have hconvert := Run.convert_object id wanted target (Script.run depth) s.world
          exact (congrArg Prod.snd (Option.some.inj (hconvert.symm.trans h))).symm
        exact Step.canConvert_object_later hw.sound hfits hcan husound (hv ▸ hgrow)
    · obtain ⟨e, he⟩ := (Table.contains_iff _ _).mp hregistered
      obtain ⟨t, hwanted, ht⟩ := hty (husound.ne_wild he)
      exact (ht.mono hgrow).isOf husound ((hfits' hD).mono hgrow) (hgrow.standsFor hwanted)
  · subst hobject
    exact ⟨_, Run.convert_object id wanted target (Script.run depth) s.world⟩

/-- A dog in a box is converted to the number of its parent class's pointers, and that is the same
    dog, in a box of that type. -/
theorem Session.Leads.convert_promises_dog :
    let animal : ClassDecl := .root ⟨"Animal", 0, 4⟩
    let dog := Instance.initial (.derived ⟨"Dog", 0, 1⟩ animal)
    let b := (Step.box (.pointer ⟨dog.cls, some ⟨0, dog⟩⟩) World.fresh).1
    let u := (Step.box (.pointer ⟨dog.cls, some ⟨0, dog⟩⟩) World.fresh).2
    let wanted := (Step.idOf (.pointer animal) u).1
    let s : Session := ⟨(Step.idOf (.pointer animal) u).2, [.value (.any b)]⟩
    ∃ v, (Run.convert b wanted).atDepth 0 s.world = some (.object wanted (some ⟨0, dog⟩), v) ∧
      (Step.canConvert b wanted v).1 = true ∧ (Box.object wanted (some ⟨0, dog⟩)).IsOf v wanted := by
  intro animal dog b u wanted s
  have hs : Session.start.Leads ⟨True, False⟩ s :=
    (Session.Leads.refl.box fun _ => .object ⟨0, dog⟩).idOf (.pointer animal)
  have hb : Value.From s.held (.any b) := .held (List.mem_cons_self ..)
  have hobject : b = .object (Step.typeId (.pointer dog.cls) World.fresh).1 (some ⟨0, dog⟩) :=
    congrArg Prod.fst (Step.box_pointer ⟨dog.cls, some ⟨0, dog⟩⟩ World.fresh)
  have hcan : (Step.canConvert b wanted s.world).1 = true := by
    simp only [s, wanted, u, b, World.fresh_eq]
    decide
  obtain ⟨hpromises, hpointer⟩ := Session.Leads.convert_promises trivial hs hb wanted
  obtain ⟨v, h⟩ := hpointer _ _ hobject 0
  rw [if_pos hcan] at h
  obtain ⟨-, hlater⟩ := hpromises 0 _ v h rfl
  obtain ⟨hstill, hisOf⟩ := hlater v .refl
  have hregistered : s.world.registries.types.entries.contains wanted = true := by
    simp only [s, wanted, u, World.fresh_eq]
    decide
  have hreached : s.world.Reached := hs.world
  have hgrow := (World.Leads.convert h).grows hreached
  exact ⟨v, h, hstill, hisOf (hgrow.contains hregistered)⟩

end Multimethod
