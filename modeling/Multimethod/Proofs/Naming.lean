/-
  Multimethod.Proofs.Naming — what a name stands for.

  Three things bind names: the builtin types, the first use of a type, and aliases. A type
  that is used first when its name is taken goes without the name; an alias whose name is
  taken is refused. Either way the older binding stays, so
  - a name stands for the least number whose description has it, and keeps standing for it
    (`Reached.named_first`);
  - an alias is decided by the name alone: a name that is bound, to the type or to another
    one, decides it and nothing changes; a free one gets the next number, with the type's own
    entry under the new name (`addAlias_of_bound`, `addAlias_of_free`). After that the name
    is bound, and the same request is answered the same forever (`Reached.addAlias_decided`).
-/
import Multimethod.Proofs.Aliases

namespace Multimethod

open Registries (Grows)

/-! ## The first number of a name -/

/-- The number is registered, and its description has the name. -/
def TypeTable.Bears (t : TypeTable) (id : TypeId) (name : String) : Prop :=
  (t.descriptor? id).map Descriptor.name = some name

theorem TypeTable.bears_iff {t : TypeTable} {id : TypeId} {name : String} :
    t.Bears id name ↔ ∃ e, t.entries.find? id = some e ∧ e.name = name := by
  simp [Bears, descriptor?]

theorem TypeTable.first_named_iff {t : TypeTable} {id : TypeId} {name : String} :
    t.First (fun e => e.name = name) id ↔ t.Bears id name ∧ ∀ j, t.Bears j name → id.val ≤ j.val := by
  unfold First
  rw [bears_iff]
  refine and_congr_right fun _ => forall_congr' fun j => ?_
  rw [bears_iff]
  exact ⟨fun h ⟨e, he, hname⟩ => h e he hname, fun h e he hname => h ⟨e, he, hname⟩⟩

/-- A name stands for the first number that bears it. -/
theorem Registries.Sound.named_iff {r : Registries} (hr : r.Sound) {id : TypeId} {name : String} :
    r.types.byName.find? name = some id ↔
      r.types.Bears id name ∧ ∀ j, r.types.Bears j name → id.val ≤ j.val := by
  rw [← TypeTable.first_named_iff]
  constructor
  · exact hr.firstNamed
  · intro h
    obtain ⟨e, he, rfl⟩ := h.1
    obtain ⟨i, hi⟩ := hr.named he
    rw [hi, (hr.firstNamed hi).unique h]

theorem Registries.Sound.unnamed_iff {r : Registries} (hr : r.Sound) {name : String} :
    r.types.byName.find? name = none ↔ ∀ j, ¬ r.types.Bears j name := by
  constructor
  · intro hnone j hj
    obtain ⟨e, he, rfl⟩ := TypeTable.bears_iff.mp hj
    obtain ⟨i, hi⟩ := hr.named he
    rw [hnone] at hi; cases hi
  · intro h
    cases hfind : r.types.byName.find? name with
    | none => rfl
    | some id => exact absurd (hr.named_iff.mp hfind).1 (h id)

/-- The class of a name is that of the number it stands for. -/
theorem Registries.Sound.classNamed?_of_bound {r : Registries} (hr : r.Sound) {id : TypeId} {name : String}
    (h : r.types.byName.find? name = some id) : r.types.classNamed? name = (r.types.descriptor id).node := by
  obtain ⟨⟨e, he, -⟩, -⟩ := hr.firstNamed h
  simp [TypeTable.classNamed?, h, he, hr.descriptor he]

/-- A name that is bound stands for a number of some type. -/
theorem Registries.Sound.standsFor_of_named {r : Registries} (hr : r.Sound) {id : TypeId} {name : String}
    (h : r.types.byName.find? name = some id) : ∃ s, r.types.StandsFor id s := by
  obtain ⟨⟨e, he, -⟩, -⟩ := hr.firstNamed h
  exact ⟨e.ty, Option.map_eq_some_iff.mpr ⟨e, he, rfl⟩⟩

namespace Run

variable {name : String} {c : Caller} {w : World}

theorem createNamed_of_bound {id : TypeId} (h : w.types.byName.find? name = some id) :
    createNamed name c w = create id c w := by
  unfold createNamed
  rw [bind_apply]
  show (some (w, w)).bind _ = _
  rw [Option.bind_some, h]

theorem createNamed_of_free (h : w.types.byName.find? name = none) : createNamed name c w = some (.null, w) := by
  unfold createNamed
  rw [bind_apply]
  show (some (w, w)).bind _ = _
  rw [Option.bind_some, h]; rfl

end Run

/-- In any world, a name stands for the least number that bears it, and for none just when no
    number does. Once it stands for a number it does so in every later world, whatever else
    takes the name, and its class and the values made by name are those of that number. A name
    that stands for nothing has no class and makes nothing. -/
theorem World.Reached.named_first {w : World} (hw : w.Reached) (name : String) :
    (∀ id, Query.answer w.registries (.idNamed name) = some id ↔
      w.types.Bears id name ∧ ∀ j, w.types.Bears j name → id.val ≤ j.val) ∧
    (Query.answer w.registries (.idNamed name) = none ↔ ∀ j, ¬ w.types.Bears j name) ∧
    (∀ id, Query.answer w.registries (.idNamed name) = some id → ∀ v, w.Leads v →
      Query.answer v.registries (.idNamed name) = some id ∧
      v.types.classNamed? name = (v.types.descriptor id).node ∧
      ∀ depth, (Run.createNamed name).atDepth depth v = (Run.create id).atDepth depth v) ∧
    (Query.answer w.registries (.idNamed name) = none →
      w.types.classNamed? name = none ∧ ∀ depth, (Run.createNamed name).atDepth depth w = some (.null, w)) := by
  refine ⟨fun id => hw.sound.named_iff, hw.sound.unnamed_iff, fun id hid v hwv => ?_, fun hnone => ?_⟩
  · have hv := hw.leads hwv
    have hid' : v.types.byName.find? name = some id := (World.Leads.grows hw hwv).byName hid
    exact ⟨hid', hv.sound.classNamed?_of_bound hid', fun depth => Run.createNamed_of_bound hid'⟩
  · have hfree : w.types.byName.find? name = none := hnone
    exact ⟨by simp [TypeTable.classNamed?, hfree], fun depth => Run.createNamed_of_free hfree⟩

/-- Texts get a number under the name of the pointers to rocks, before these have one. The pointers
    bear the name too when they are used, but it goes on standing for the texts. -/
theorem World.Reached.named_first_taken :
    let w := (Step.addAlias .text "ObjectPtr<Rock>" World.fresh).2
    let v := (Step.idOf (.pointer (.root ⟨"Rock", 0, 5⟩)) w).2
    v.types.Bears ⟨1024⟩ "ObjectPtr<Rock>" ∧ v.types.Bears ⟨1025⟩ "ObjectPtr<Rock>" ∧
      Query.answer v.registries (.idNamed "ObjectPtr<Rock>") = some (⟨1024⟩ : TypeId) ∧
      v.types.classNamed? "ObjectPtr<Rock>" = none ∧
      (Run.createNamed "ObjectPtr<Rock>").atDepth 0 v = (Run.create ⟨1024⟩).atDepth 0 v := by
  intro w v
  have hw : w.Reached := .addAlias World.fresh .text "ObjectPtr<Rock>"
  have hwv : w.Leads v := .idOf w _
  have hid : w.types.byName.find? "ObjectPtr<Rock>" = some ⟨1024⟩ := by simp only [w, World.fresh_eq]; decide
  have hnode : (v.types.descriptor ⟨1024⟩).node = none := by simp only [v, w, World.fresh_eq]; decide
  have hbear : v.types.Bears ⟨1024⟩ "ObjectPtr<Rock>" ∧ v.types.Bears ⟨1025⟩ "ObjectPtr<Rock>" := by
    simp only [v, w, World.fresh_eq, TypeTable.Bears]
    decide
  obtain ⟨htexts, hrocks⟩ := hbear
  clear_value w v
  obtain ⟨-, -, hkeeps, -⟩ := World.Reached.named_first hw "ObjectPtr<Rock>"
  obtain ⟨hid', hclass, hmake⟩ := hkeeps ⟨1024⟩ hid v hwv
  exact ⟨htexts, hrocks, hid', hclass.trans hnode, hmake 0⟩

/-! ## Aliases -/

/-- The table with an entry under the next number too, by a name that gets bound to it; for an
    entry with a node the number is the highest of the class. -/
def TypeTable.withSynonym (t : TypeTable) (e : Entry) (name : String) : TypeTable :=
  { t with
    entries := t.entries.insert ⟨t.next⟩ { e with name := name }
    byName := t.byName.insert name ⟨t.next⟩
    byClass := match e.node with
      | some n => t.byClass.insert n.serial ⟨t.next⟩
      | none => t.byClass
    next := t.next + 1 }

/-- That is what comes of giving the entry a number under a free name. -/
theorem Registries.Sound.allocate_synonym {r : Registries} (hr : r.Sound) (e : Entry) {name : String}
    (h : r.types.byName.find? name = none) :
    r.types.allocate { e with name := name } = (⟨r.types.next⟩, r.types.withSynonym e name) := by
  have hname : r.types.byName.insertNew name ⟨r.types.next⟩ = r.types.byName.insert name ⟨r.types.next⟩ := by
    simp [Table.insertNew, Table.contains, h]
  unfold TypeTable.allocate TypeTable.withSynonym
  dsimp only
  rw [hname]
  cases e.node with
  | none => rfl
  | some n =>
    cases hs : r.types.byClass.find? n.serial with
    | none => simp only [hs]
    | some highest =>
      obtain ⟨⟨f, hf, -⟩, -⟩ := hr.last hs
      simp only [hs, hr.lt_next hf, if_true]

namespace Step

variable {w : World} {t : Ty} {name : String}

theorem addAlias_empty (t : Ty) (w : World) : addAlias t "" w = (.error .emptyName, w) := rfl

/-- The type gets its number first, and with it the name if the type is registered under that. A
    name that is bound then gives the number it is bound to, if that is one of the type, and
    nothing changes any more. -/
theorem addAlias_of_bound (hne : name ≠ "") {id : TypeId} {s : Ty}
    (hid : (idOf t w).2.types.byName.find? name = some id) (hs : (idOf t w).2.types.StandsFor id s) :
    addAlias t name w = (if s = t then .ok id else .error (.nameConflict name id), (idOf t w).2) := by
  have hempty : name.isEmpty = false := by simpa [String.isEmpty_iff] using hne
  unfold TypeTable.StandsFor at hs
  simp only [addAlias, hempty, Bool.false_eq_true, if_false, bind_apply, get_apply, hid, hs, Option.some.injEq]
  split <;> rfl

/-- A free name is bound to the next number, which gets the type's own entry. -/
theorem addAlias_of_free (hw : w.registries.Sound) (hne : name ≠ "")
    (hfree : (idOf t w).2.types.byName.find? name = none) :
    ∃ e, (idOf t w).2.types.entries.find? (idOf t w).1 = some e ∧ e.ty = t ∧
      addAlias t name w = (.ok ⟨(idOf t w).2.types.next⟩,
        ((idOf t w).2.withTypes ((idOf t w).2.types.withSynonym e name)).note
          (.aliasRegistered name ⟨(idOf t w).2.types.next⟩ (idOf t w).1)) := by
  have hempty : name.isEmpty = false := by simpa [String.isEmpty_iff] using hne
  have hsound := Registries.Course.sound hw (isQuiet_idOf t w hw)
  obtain ⟨e, he, hty⟩ := hsound.entry_of_byType (idOf_spec t w)
  refine ⟨e, he, hty, ?_⟩
  simp only [addAlias, hempty, Bool.false_eq_true, if_false, bind_apply, get_apply, hfree, he,
    hsound.allocate_synonym e hfree, set_apply, note_apply, pure_apply]

/-- After an alias the type has its number and the name is bound, to a number of some type, and
    that type tells what the answer was. -/
theorem addAlias_binds (hw : w.registries.Sound) (t : Ty) (hne : name ≠ "") :
    (addAlias t name w).2.types.byType.find? t = some (idOf t w).1 ∧
      ∃ id s, (addAlias t name w).2.types.byName.find? name = some id ∧
        (addAlias t name w).2.types.StandsFor id s ∧
        (addAlias t name w).1 = if s = t then .ok id else .error (.nameConflict name id) := by
  have hsound := Registries.Course.sound hw (isQuiet_idOf t w hw)
  have htype := idOf_spec t w
  cases hfind : (idOf t w).2.types.byName.find? name with
  | some id =>
    obtain ⟨s, hs⟩ := hsound.standsFor_of_named hfind
    rw [addAlias_of_bound hne hfind hs]
    exact ⟨htype, id, s, hfind, hs, rfl⟩
  | none =>
    obtain ⟨e, he, hty, halias⟩ := addAlias_of_free hw hne hfind
    rw [halias]
    refine ⟨htype, ⟨(idOf t w).2.types.next⟩, t, ?_, ?_, by rw [if_pos rfl]⟩
    · simp [World.types, TypeTable.withSynonym]
    · simp [World.types, TypeTable.StandsFor, TypeTable.withSynonym, hty]

end Step

/-- An alias under the empty name is refused and changes nothing. Under another name the type
    gets its number first; let `s` be the world after that.
    - Where `s` binds the name to a number of the type, that is the answer; where it binds it to
      a number of another type, the alias is refused; either way the world is `s`.
    - Where the name is free, the answer is the next number, which gets the type's own entry
      under the new name, and the name is bound to it.
    - In every later world the same request is answered alike and changes nothing, and where it
      was answered by a number, requests for other types are refused with that number. -/
theorem World.Reached.addAlias_decided {w : World} (hw : w.Reached) (t : Ty) (name : String) :
    Step.addAlias t "" w = (.error .emptyName, w) ∧
    (name ≠ "" →
      let s := (Step.idOf t w).2
      (∀ id, s.types.byName.find? name = some id →
        (s.types.StandsFor id t → Step.addAlias t name w = (.ok id, s)) ∧
        (¬ s.types.StandsFor id t → Step.addAlias t name w = (.error (.nameConflict name id), s))) ∧
      (s.types.byName.find? name = none →
        s.types.entries.find? ⟨s.types.next⟩ = none ∧
        ∃ e, s.types.entries.find? (Step.idOf t w).1 = some e ∧
          Step.addAlias t name w = (.ok ⟨s.types.next⟩, (s.withTypes (s.types.withSynonym e name)).note
            (.aliasRegistered name ⟨s.types.next⟩ (Step.idOf t w).1))) ∧
      ∀ v, (Step.addAlias t name w).2.Leads v →
        Step.addAlias t name v = ((Step.addAlias t name w).1, v) ∧
        ∀ id, (Step.addAlias t name w).1 = .ok id → ∀ u, u ≠ t →
          Step.addAlias u name v = (.error (.nameConflict name id), (Step.idOf u v).2)) := by
  refine ⟨Step.addAlias_empty t w, fun hne => ?_⟩
  intro s
  have hs : s.registries.Sound := (hw.leads (.idOf w t)).sound
  refine ⟨fun id hid => ?_, fun hfree => ?_, fun v hv => ?_⟩
  · obtain ⟨u, hu⟩ := hs.standsFor_of_named hid
    rw [Step.addAlias_of_bound hne hid hu]
    constructor
    · intro h
      have hty : u = t := Option.some.inj (hu.symm.trans h)
      rw [if_pos hty]
    · intro h
      have hty : u ≠ t := fun hty => h (hty ▸ hu)
      rw [if_neg hty]
  · obtain ⟨e, he, -, halias⟩ := Step.addAlias_of_free hw.sound hne hfree
    exact ⟨TypeTable.find?_next hs.lt_next, e, he, halias⟩
  · -- what the name and the type are bound to is kept in the later world, and decides there
    obtain ⟨htype, id, u, hid, hu, hanswer⟩ := Step.addAlias_binds hw.sound t hne
    have hlater := World.Leads.grows (hw.leads (.addAlias w t name)) hv
    have again (t' : Ty) : Step.addAlias t' name v =
        (if u = t' then .ok id else .error (.nameConflict name id), (Step.idOf t' v).2) := by
      have hgrow := hlater.trans (World.Leads.grows ((hw.leads (.addAlias w t name)).leads hv) (.idOf v t'))
      exact Step.addAlias_of_bound hne (hgrow.byName hid) (hgrow.standsFor hu)
    refine ⟨?_, fun id' hok u' hu' => ?_⟩
    · rw [again t, hanswer, Step.idOf_of_bound (hlater.byType htype)]
    · rw [hanswer] at hok
      split at hok
      · rename_i hut
        cases hok
        have hne' : u ≠ u' := fun h => hu' (h.symm.trans hut)
        rw [again u', if_neg hne']
      · cases hok

/-- A class gets a second number under a new name. In a later world the same request gives that
    number again; for texts the name is refused; and the name of the first number gives that. -/
theorem World.Reached.addAlias_decided_hound :
    let dog : Ty := .pointer (.root ⟨"Dog", 0, 4⟩)
    let w := (Step.addAlias dog "Hound" World.fresh).2
    let v := (Step.addAlias .text "Name" w).2
    (Step.addAlias dog "Hound" World.fresh).1 = .ok ⟨1025⟩ ∧
      Step.addAlias dog "Hound" v = (.ok ⟨1025⟩, v) ∧
      Step.addAlias .text "Hound" v = (.error (.nameConflict "Hound" ⟨1025⟩), (Step.idOf .text v).2) ∧
      Step.addAlias dog "ObjectPtr<Dog>" World.fresh = (.ok ⟨1024⟩, (Step.idOf dog World.fresh).2) := by
  intro dog w v
  have hok : (Step.addAlias dog "Hound" World.fresh).1 = .ok ⟨1025⟩ := by rw [World.fresh_eq]; decide
  have hwv : w.Leads v := .addAlias w .text "Name"
  obtain ⟨-, hdecided⟩ := World.Reached.addAlias_decided .refl dog "Hound"
  obtain ⟨-, -, hlater⟩ := hdecided (by decide)
  obtain ⟨hagain, hothers⟩ := hlater v hwv
  obtain ⟨-, hdecided'⟩ := World.Reached.addAlias_decided .refl dog "ObjectPtr<Dog>"
  obtain ⟨hbound, -, -⟩ := hdecided' (by decide)
  refine ⟨hok, hagain.trans (by rw [hok]), hothers _ hok .text (by decide), (hbound ⟨1024⟩ ?_).1 ?_⟩
  · rw [World.fresh_eq]; decide
  · rw [TypeTable.StandsFor, World.fresh_eq]; decide

end Multimethod
