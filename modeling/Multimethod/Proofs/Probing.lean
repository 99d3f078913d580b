/-
  Multimethod.Proofs.Probing — the test of a type is the test of its values.

  The test of a type makes a default value and looks at that; the test of a box looks at
  what the box holds. Both say what is accepted (`Registries.Accepts`) for the description
  of the box: a content by its number, which is the number that a default content has, an
  object by the node of its class, whatever number its class got last, a pointer to nothing
  by its static class (`Reached.canConvert_iff_accepts`). So where no factory makes other
  values of the type, the two agree (`Session.Leads.isConvertible_eq_canConvert`).
-/
import Multimethod.Proofs.Acceptance
import Multimethod.Proofs.Identity

namespace Multimethod

open Registries (Grows Course)

namespace Step

variable {w v : World} {b : Box} {wanted : TypeId}

/-- The test of a box depends on its description, and does no more than describe it. -/
theorem canConvert_snd (b : Box) (wanted : TypeId) (w : World) : (canConvert b wanted w).2 = (describe b w).2 := by
  cases b with
  | null => rfl
  | plain _ _ => rfl
  | object id target => exact (canConvert_object id wanted target w).1

/-- After the box was described, its test is the same as before. -/
theorem canConvert_describe (hw : w.registries.Sound) (b : Box) (wanted : TypeId) :
    canConvert b wanted (describe b w).2 = canConvert b wanted w := by
  cases b with
  | null => rfl
  | plain _ _ => rfl
  | object id target => simp only [canConvert, bind_apply, describe_describe hw]

end Step

namespace World

section

variable {v : World} (hv : v.Reached) {wanted : TypeId} (hwanted : v.types.entries.contains wanted = true)
variable (hmap : wanted ≠ TypeId.map)
include hv hwanted hmap

/-- A content converts to what its number is accepted for. -/
theorem Reached.converts_iff_accepts {id : TypeId} {x : Content} (hb : Box.Fits v.registries (.plain id x)) :
    v.types.converts id wanted = true ↔ v.registries.Accepts (v.types.descriptor id) (v.types.descriptor wanted) := by
  cases hb with
  | plain hid _ =>
    obtain ⟨e, he, hty⟩ := hv.sound.entry_of_byType hid
    obtain ⟨f, hf⟩ := (Table.contains_iff _ _).mp hwanted
    have hnode : e.node = none := hv.sound.node_of_plain he (hty ▸ x.cls?_ty)
    have hvoid : x.ty ≠ .void := by cases x <;> simp [Content.ty]
    have hne : (⟨wanted, f.name, f.node⟩ : Descriptor) ≠ Descriptor.wild := fun h =>
      hv.sound.ne_wild hf (congrArg Descriptor.id h)
    rw [hv.sound.converts_iff hid, hv.sound.descriptor he, hv.sound.descriptor hf]
    unfold Registries.Accepts
    simp only [hne, hnode, reduceCtorEq, false_and, exists_false, false_or, true_and]
    constructor
    · intro hconv
      refine .inr ⟨e, he, hty ▸ hvoid, hty ▸ x.ty_ne_any, hmap, hconv.imp ?_ ?_⟩
      · rintro ⟨g, hg, hgty⟩
        exact ⟨g, hg, hgty.trans hty.symm⟩
      · exact fun hc => ⟨id, hty ▸ hid, hc⟩
    · rintro (rfl | ⟨e', he', -, -, -, hconv⟩)
      · exact .inl ⟨e, he, hty⟩
      · cases he.symm.trans he'
        refine hconv.imp ?_ ?_
        · rintro ⟨g, hg, hgty⟩
          exact ⟨g, hg, hgty.trans hty⟩
        · rintro ⟨i, hi, hc⟩
          rw [hty, hid] at hi
          cases hi; exact hc

/-- A box with a pointer converts to what its description is accepted for. -/
theorem Reached.canConvert_object_iff {id : TypeId} {target : Option Object} {own : Descriptor}
    (hb : Box.Fits v.registries (.object id target)) (hown : v.registries.Presents (.object id target) own)
    (hd : Step.describe (.object id target) v = (own, v)) :
    (Step.canConvert (.object id target) wanted v).1 = true ↔
      v.registries.Accepts own (v.types.descriptor wanted) := by
  obtain ⟨-, n, hn, -⟩ := hown.of_object (.refl _) hv.sound hb
  have htarget := hv.describes hwanted
  have hid := TypeTable.descriptor_id v.types wanted
  obtain ⟨-, hcan⟩ := Step.canConvert_object id wanted target v
  rw [hd] at hcan
  rw [hcan, (hown.describes hv).accepts_iff hv.sound htarget hn]
  dsimp only
  constructor
  · rintro (heq | ⟨n', m, hn', hm, hin⟩)
    · exact .inl (by simp [Descriptor.same, heq, hid])
    · cases hn.symm.trans hn'
      exact .inr (.inr ⟨hid.symm ▸ hmap, m, hm, hin⟩)
  · rintro (hsame | hwild | ⟨-, m, hm, hin⟩)
    · rcases (Bool.or_eq_true _ _).mp hsame with heq | hsame
      · exact .inl ((beq_iff_eq.mp heq).trans hid)
      · rw [hn] at hsame
        cases hm : (v.types.descriptor wanted).node with
        | none => rw [hm] at hsame; cases hsame
        | some m =>
          rw [hm] at hsame
          exact .inr ⟨n, m, hn, rfl, List.any_eq_true.mpr ⟨n, n.self_mem_ancestors, hsame⟩⟩
    · obtain ⟨f, hf⟩ := (Table.contains_iff _ _).mp hwanted
      refine absurd ?_ (hv.sound.ne_wild hf)
      rw [← hid, htarget.isWild hv.sound hwild]; rfl
    · exact .inr ⟨n, m, hn, hm, hin⟩

/-- A box that was described converts to what its description is accepted for. -/
theorem Reached.canConvert_iff_accepts {b : Box} {own : Descriptor} (hb : b.Fits v.registries)
    (hown : v.registries.Presents b own) (hd : Step.describe b v = (own, v)) :
    (Step.canConvert b wanted v).1 = true ↔ v.registries.Accepts own (v.types.descriptor wanted) := by
  cases b with
  | null =>
    cases hd
    obtain ⟨f, hf⟩ := (Table.contains_iff _ _).mp hwanted
    have hno := hv.sound.not_accepts_wild (j := wanted) (Option.map_eq_some_iff.mpr ⟨f, hf, rfl⟩)
    exact ⟨fun h => (by cases h), fun h => absurd h hno⟩
  | plain id x =>
    cases hd
    exact hv.converts_iff_accepts hwanted hmap hb
  | object id target => exact hv.canConvert_object_iff hwanted hmap hb hown hd

end

end World

/-- In a run of an honest program, for any box it has and any registered number but that of maps:
    where no factory is registered for the number in the description of the box, the test of
    that description ends at any depth with the answer that the box itself gives, before and
    after it is described, and that all boxes of the same description give. -/
theorem Session.Leads.isConvertible_eq_canConvert {D : Discipline} (hD : D.honest) {s : Session}
    (hs : Session.start.Leads D s) {b : Box} (hb : Value.From s.held (.any b)) {own : Descriptor} {v : World}
    (hd : Step.describe b s.world = (own, v)) {wanted : TypeId} (hwanted : v.types.entries.contains wanted = true)
    (hmap : wanted ≠ TypeId.map) (hf : v.registries.factories.find? own.id = none) :
    (∀ depth, (Run.isConvertible own (v.types.descriptor wanted)).atDepth depth v =
      some (Step.canConvert b wanted v)) ∧
    Step.canConvert b wanted v = Step.canConvert b wanted s.world ∧
    ∀ t : Session, Session.start.Leads D t → t.world = v → ∀ b', Value.From t.held (.any b') →
      Step.describe b' v = (own, v) → Step.canConvert b' wanted v = Step.canConvert b wanted v := by
  have hw : s.world.Reached := hs.world
  have hlater : Session.start.Leads D ⟨v, s.held⟩ := by
    have hlead := hs.act (.describe b) (fun _ x hx => by cases List.mem_singleton.mp hx; exact hb) rfl
    rwa [hd] at hlead
  have hagain : Step.describe b v = (own, v) := by
    have hagain := Step.describe_describe hw.sound b
    rwa [hd] at hagain
  have hv : v.Reached := hlater.world
  have fits : ∀ t : Session, Session.start.Leads D t → t.world = v → ∀ x, Value.From t.held (.any x) →
      x.Fits v.registries := by
    rintro t ht rfl x hx
    exact D.fits_from ht.good.2 (fun _ => hx) hD
  have presents : ∀ {x}, x.Fits v.registries → Step.describe x v = (own, v) → v.registries.Presents x own := by
    intro x hx hxd
    have hpresent := Step.presents_describe hv hx
    rwa [hxd] at hpresent
  have hfits := fits ⟨v, s.held⟩ hlater rfl b hb
  obtain ⟨ans, hrun, hans⟩ := Run.isConvertible_default hv.sound ((presents hfits hagain).describes hv)
    (hv.describes hwanted) fun _ => hf
  have hcan : ∀ {x}, x.Fits v.registries → Step.describe x v = (own, v) → Step.canConvert x wanted v = (ans, v) := by
    intro x hx hxd
    have haccepts := hv.canConvert_iff_accepts hwanted hmap hx (presents hx hxd) hxd
    have hworld : (Step.canConvert x wanted v).2 = v := by rw [Step.canConvert_snd, hxd]
    exact Prod.ext (Bool.eq_iff_iff.mpr (haccepts.trans hans.symm)) hworld
  refine ⟨fun depth => ?_, ?_, fun t ht htv b' hb' hd' => ?_⟩
  · rw [hcan hfits hagain]; exact hrun _
  · have hsame := Step.canConvert_describe hw.sound b wanted
    rwa [hd] at hsame
  · rw [hcan (fits t ht htv b' hb') hd', hcan hfits hagain]

/-- A dog in a box is described by the second number of dogs; the test of this and the box agree
    that a dog is an animal and no text. -/
theorem Session.Leads.isConvertible_eq_canConvert_renamed :
    let animal : ClassDecl := .root ⟨"Animal", 0, 4⟩
    let dog := Instance.initial (.derived ⟨"Dog", 0, 40⟩ animal)
    let made : Value := .pointer ⟨dog.cls, some ⟨0, dog⟩⟩
    let boxed := Step.box made World.fresh
    let w := (Step.idOf (.pointer animal) (Step.addAlias (.pointer dog.cls) "Hound" boxed.2).2).2
    let s : Session := ⟨w, [.value (.any boxed.1)]⟩
    Session.start.Leads ⟨True, True⟩ s ∧
      ∃ own, Step.describe boxed.1 w = (own, w) ∧ own.id = ⟨1025⟩ ∧
        (∀ depth, (Run.isConvertible own (w.types.descriptor ⟨1026⟩)).atDepth depth w = some (true, w)) ∧
        ∀ depth, (Run.isConvertible own (w.types.descriptor ⟨9⟩)).atDepth depth w = some (false, w) := by
  intro animal dog made boxed w s
  have hbox : Session.start.Leads ⟨True, True⟩ ⟨boxed.2, [.value (.any boxed.1)]⟩ :=
    Session.Leads.refl.box fun _ => .object ⟨0, dog⟩
  have hs : Session.start.Leads ⟨True, True⟩ s :=
    (hbox.addAlias (.pointer dog.cls) "Hound").idOf (.pointer animal)
  obtain ⟨i, hi⟩ : ∃ i, boxed.1 = .object i (some ⟨0, dog⟩) :=
    ⟨_, congrArg Prod.fst (Step.box_pointer ⟨dog.cls, some ⟨0, dog⟩⟩ World.fresh)⟩
  have hb : Value.From s.held (.any boxed.1) := .held (List.mem_cons_self ..)
  have hw : w.Reached := ((World.Leads.box World.fresh made).trans (.addAlias _ (.pointer dog.cls) "Hound")).trans
    (.idOf _ (.pointer animal))
  have hquiet : (Step.describe boxed.1 w).2 = w := by
    have hcached : (w.registries.classes.find? dog.cls).isSome = true ∧
        (w.types.byType.find? (.pointer dog.cls)).isSome = true := by
      simp only [w, boxed, World.fresh_eq]
      decide
    obtain ⟨n, hn⟩ := Option.isSome_iff_exists.mp hcached.1
    obtain ⟨id, hid⟩ := Option.isSome_iff_exists.mp hcached.2
    rw [hi]
    exact Step.describe_of_known hw.sound i (Step.node_of_cached hn) (Step.idOf_of_bound hid)
  have hid : (Step.describe boxed.1 w).1.id = ⟨1025⟩ := by simp only [w, boxed, World.fresh_eq]; decide
  have hnone : w.registries.factories.find? ⟨1025⟩ = none :=
    Option.isNone_iff_eq_none.mp (by simp only [w, boxed, World.fresh_eq]; decide)
  have hnumbers : w.types.entries.contains ⟨1026⟩ = true ∧ w.types.entries.contains ⟨9⟩ = true := by
    simp only [w, boxed, World.fresh_eq]
    decide
  have hanswers : (Step.canConvert boxed.1 ⟨1026⟩ w).1 = true ∧ (Step.canConvert boxed.1 ⟨9⟩ w).1 = false := by
    simp only [w, boxed, World.fresh_eq]
    decide
  have hworld : ∀ wanted, (Step.canConvert boxed.1 wanted w).2 = w := fun wanted =>
    (Step.canConvert_snd boxed.1 wanted w).trans hquiet
  -- nothing is computed from here on
  clear_value w boxed
  generalize hd : Step.describe boxed.1 w = p at hquiet hid
  obtain ⟨own, v⟩ := p
  have hv : v = w := hquiet
  rw [hv] at hd
  have hown : own.id = ⟨1025⟩ := hid
  obtain ⟨hanimal, -⟩ := Session.Leads.isConvertible_eq_canConvert trivial hs hb hd hnumbers.1 (by decide)
    (hown ▸ hnone)
  obtain ⟨htext, -⟩ := Session.Leads.isConvertible_eq_canConvert trivial hs hb hd hnumbers.2 (by decide)
    (hown ▸ hnone)
  refine ⟨hs, own, by rw [hv], hown, fun depth => ?_, fun depth => ?_⟩
  · exact (hanimal depth).trans (congrArg some (Prod.ext hanswers.1 (hworld _)))
  · exact (htext depth).trans (congrArg some (Prod.ext hanswers.2 (hworld _)))

end Multimethod
