/-
  Multimethod.Proofs.NullValues — null creation makes no object and is not overridden.

  What null creation gives for a number is read off the type in the number's entry and the
  first number of that type. Factories are kept beside the entries, and an opt-in changes
  the maker in an entry, which null creation does not look at. Nor does any change touch the
  type of an entry or the first number of a type (`Registries.Grows`), so a registered
  number gives the same box for the rest of the run (`World.Reached.nullValue_kept`).
-/
import Multimethod.Proofs.Registering

namespace Multimethod

namespace World

/-- What the box is that null creation gives for a number. It shares no object; for a number of
    a class's pointer type it is a pointer to nothing under the least number of that type; for
    one of a plain type it is the box of the type's default value; and for a number that is not
    registered, or whose values hold nothing, it is the box with nothing in it. -/
structure NullMade (w : World) (id : TypeId) (b : Box) : Prop where
  no_object : b.ownsObject = false
  pointer : ∀ k, w.types.StandsFor id (.pointer k) →
    b.isNull = false ∧ ∃ i, w.types.First (fun e => e.ty = .pointer k) i ∧ b = .object i none
  plain : ∀ t, w.types.StandsFor id t → t.Plain →
    Step.box t.default w = (b, w) ∧
      ∃ i c, w.types.First (fun e => e.ty = t) i ∧ t.default = .plain c ∧ b = .plain i c
  nothing : w.types.entries.contains id = false ∨ w.types.StandsFor id .void ∨ w.types.StandsFor id .any →
    b = .null

section

variable {w : World} {id : TypeId} {b : Box} {t : Ty}

/-- For a number that stands for a type, what the box is depends on the type. -/
theorem NullMade.of_standsFor (hid : w.types.StandsFor id t) (hobject : b.ownsObject = false)
    (hpointer : ∀ k, t = .pointer k → ∃ i, w.types.First (fun e => e.ty = t) i ∧ b = .object i none)
    (hplain : t.Plain → Step.box t.default w = (b, w) ∧
      ∃ i c, w.types.First (fun e => e.ty = t) i ∧ t.default = .plain c ∧ b = .plain i c)
    (hnothing : t = .void ∨ t = .any → b = .null) : w.NullMade id b := by
  have same : ∀ {s}, w.types.StandsFor id s → t = s := fun hs => Option.some.inj (hid.symm.trans hs)
  refine ⟨hobject, fun k hk => ?_, fun s hs => ?_, ?_⟩
  · obtain rfl := same hk
    obtain ⟨i, hfirst, rfl⟩ := hpointer k rfl
    exact ⟨rfl, i, hfirst, rfl⟩
  · obtain rfl := same hs
    exact hplain
  · rintro (h | h | h)
    · obtain ⟨e, he, -⟩ := Option.map_eq_some_iff.mp hid
      rw [(Table.contains_iff _ _).mpr ⟨e, he⟩] at h
      cases h
    · exact hnothing (.inl (same h))
    · exact hnothing (.inr (same h))

/-- A number that is not registered gives nothing. -/
theorem nullMade_of_none (h : w.types.entries.find? id = none) :
    Step.nullValue id w = (.null, w) ∧ w.NullMade id .null := by
  have hno : ∀ {t}, ¬ w.types.StandsFor id t := fun hid => by
    obtain ⟨e, he, -⟩ := Option.map_eq_some_iff.mp hid
    cases h.symm.trans he
  exact ⟨Step.nullValue_of_none h, rfl, fun _ hk => absurd hk hno, fun _ ht => absurd ht hno, fun _ => rfl⟩

variable (hw : w.Reached)
include hw

/-- A registered number gives the default value of its type, under the first number of that. -/
theorem Reached.nullMade_standsFor (hid : w.types.StandsFor id t) :
    ∃ b, Step.nullValue id w = (b, w) ∧ w.NullMade id b := by
  obtain ⟨e, he, rfl⟩ := Option.map_eq_some_iff.mp hid
  obtain ⟨i, hi⟩ := hw.sound.bound he
  have hfirst := hw.sound.first hi
  rw [Step.nullValue_of_some he]
  generalize e.ty = t at hid hi hfirst
  cases hcls : t.cls? with
  | some k =>
    obtain rfl := Ty.eq_pointer hcls
    have hbox : Step.box (Ty.pointer k).default w = (.object i none, w) := Step.box_handle (.inr ⟨by simp, hi⟩)
    refine ⟨.object i none, hbox, .of_standsFor hid rfl (fun _ _ => ⟨i, hfirst, rfl⟩) ?_ ?_⟩
    · intro h
      cases h.1
    · rintro (h | h) <;> cases h
  | none =>
    have hno : ∀ k, t ≠ .pointer k := fun k hk => by
      subst hk
      cases hcls
    rcases Ty.default_cases hcls with ⟨hvoid, hdefault⟩ | ⟨hany, hdefault⟩ | ⟨c, rfl, hdefault⟩
    · rw [hdefault]
      refine ⟨.null, rfl, .of_standsFor hid rfl (fun k hk => absurd hk (hno k)) ?_ fun _ => rfl⟩
      exact fun h => absurd hvoid h.2.1
    · rw [hdefault]
      refine ⟨.null, rfl, .of_standsFor hid rfl (fun k hk => absurd hk (hno k)) ?_ fun _ => rfl⟩
      exact fun h => absurd hany h.2.2
    · have hbox : Step.box c.ty.default w = (.plain i c, w) := by
        rw [hdefault]
        exact Step.box_plain hi
      refine ⟨.plain i c, hbox, .of_standsFor hid rfl (fun k hk => absurd hk (hno k)) (fun _ => ?_) fun h => ?_⟩
      · exact ⟨hbox, i, c, hfirst, hdefault, rfl⟩
      · cases c <;> simp [Content.ty] at h

/-- Every number gives the box that it should, and nothing changes. -/
theorem Reached.exists_nullMade (id : TypeId) : ∃ b, Step.nullValue id w = (b, w) ∧ w.NullMade id b := by
  cases he : w.types.entries.find? id with
  | none => exact ⟨.null, nullMade_of_none he⟩
  | some e => exact hw.nullMade_standsFor (Option.map_eq_some_iff.mpr ⟨e, he, rfl⟩)

/-- What a registered number gives, it gives in all later worlds. -/
theorem Reached.nullValue_later (hid : w.types.StandsFor id t) {v : World} (hv : w.Leads v)
    (h : Step.nullValue id w = (b, w)) : Step.nullValue id v = (b, v) := by
  obtain ⟨e, he, rfl⟩ := Option.map_eq_some_iff.mp hid
  obtain ⟨i, hi⟩ := hw.sound.bound he
  have hgrow := World.Leads.grows hw hv
  obtain ⟨f, hf, hty, -⟩ := hgrow.entry he
  obtain ⟨b', hbox⟩ := Step.box_default e.ty i
  rw [Step.nullValue_of_some he, hbox hi] at h
  obtain rfl : b' = b := congrArg Prod.fst h
  rw [Step.nullValue_of_some hf, hty]
  exact hbox (hgrow.byType hi)

end

end World

end Multimethod
