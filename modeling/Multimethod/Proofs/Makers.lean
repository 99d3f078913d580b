/-
  Multimethod.Proofs.Makers — live default values belong to a class, not to a number.

  An entry keeps a maker of its own, yet all numbers of a class have the same one at all
  times (`Registries.Shares`): a further number copies the entry of the first, and opting
  in sets the maker in every entry with the node of the class, which are just the entries
  of its pointer type (`Sound.sameNode_iff`). So whether a class has a maker depends only
  on its having opted in (`World.Reached.hasMaker_iff`), and an opt-in touches nothing but
  that (`World.OptedIn`).
-/
import Multimethod.Proofs.Acceptance

namespace Multimethod

open Registries (Grows Course)

namespace Registries

variable {ok : Registries → Registration → Prop} {r s : Registries} {k d : ClassDecl} {m : Option Script}
variable {make : Script} {n : ClassNode}

/-- All numbers of the class have the maker `m`; without numbers it has none. -/
structure Shares (r : Registries) (k : ClassDecl) (m : Option Script) : Prop where
  entry : ∀ {id e}, r.types.entries.find? id = some e → e.ty = .pointer k → e.maker = m
  unbound : r.types.byType.find? (.pointer k) = none → m = none

/-- The class opts in: the maker is set for the node in one of its entries. -/
inductive OptIn (k : ClassDecl) (make : Script) (r : Registries) : Registries → Prop
  | intro {id : TypeId} {e : Entry} {n : ClassNode} (he : r.types.entries.find? id = some e) (hk : e.ty = .pointer k)
      (hn : e.node = some n) : OptIn k make r { r with types := r.types.setMaker n make }

/-- The class opts in on a way from `r` to `s`. -/
def OptsIn (k : ClassDecl) (r s : Registries) : Prop :=
  ∃ u v make, Course (fun _ _ => True) r u ∧ OptIn k make u v ∧ Course (fun _ _ => True) v s

/-! ## One change -/

/-- The entries with the node of a class are those of its pointer type. -/
theorem Sound.sameNode_iff (hr : r.Sound) (hn : r.classes.find? d = some n) {id : TypeId} {e : Entry}
    (he : r.types.entries.find? id = some e) :
    Descriptor.sameNode e.node (some n) = true ↔ e.ty = .pointer d := by
  constructor
  · intro hsame
    cases hen : e.node with
    | none => rw [hen] at hsame; cases hsame
    | some m =>
      rw [hen] at hsame
      obtain ⟨k, hk, hkm⟩ := hr.pointer_of_node he hen
      rw [hk, hr.classes.eq_of_same hkm hn hsame]
  · intro hd
    obtain ⟨m, hm, hen⟩ := hr.node_of_pointer he hd
    cases hm.symm.trans hn
    rw [hen]; exact n.same_refl

/-- What opting a class in makes of the entries. -/
theorem Sound.entries_setMaker (hr : r.Sound) (hn : r.classes.find? d = some n) (make : Script) (id : TypeId) :
    (r.types.setMaker n make).entries.find? id = (r.types.entries.find? id).map fun e =>
      if e.ty = .pointer d then { e with maker := some make } else e := by
  rw [TypeTable.setMaker, Table.find?_mapValues]
  cases he : r.types.entries.find? id with
  | none => rfl
  | some e => simp only [Option.map_some, hr.sameNode_iff hn he]

/-- Opting the class `d` in changes what the numbers of `d` share, and nothing else. -/
theorem Shares.setMaker (hm : r.Shares k m) (hr : r.Sound) (hn : r.classes.find? d = some n) {i : TypeId}
    (hd : r.types.byType.find? (.pointer d) = some i) (make : Script) :
    Shares { r with types := r.types.setMaker n make } k (if k = d then some make else m) := by
  constructor
  · intro id f hf hk
    obtain ⟨e, he, rfl⟩ := Option.map_eq_some_iff.mp ((hr.entries_setMaker hn make id).symm.trans hf)
    by_cases hed : e.ty = .pointer d
    · rw [if_pos hed] at hk ⊢
      cases hk.symm.trans hed
      rw [if_pos rfl]
    · rw [if_neg hed] at hk ⊢
      have hne : k ≠ d := fun h => hed (h ▸ hk)
      rw [if_neg hne]
      exact hm.entry he hk
  · intro hunbound
    have hne : k ≠ d := by
      intro h
      subst h
      cases hd.symm.trans hunbound
    rw [if_neg hne]
    exact hm.unbound hunbound

/-- A new entry has the maker of its class: the first one has none, a further one copies. -/
theorem Shares.enter (hm : r.Shares k m) {e : Entry} (he : r.MayEnter e) :
    Shares { r with types := r.types.enter e } k m := by
  constructor
  · intro id f hf hk
    rcases TypeTable.eq_or_find?_of_enter hf with rfl | hf
    · rcases he.origin with ⟨hnew, hmaker⟩ | ⟨i, g, hi, hg, -, hcopy⟩
      · rw [hmaker, hm.unbound (hk ▸ hnew)]
      · have hgk : g.ty = .pointer k := (congrArg Entry.ty hcopy).symm.trans hk
        have hgm := hm.entry hg hgk
        exact (congrArg Entry.maker hcopy).trans hgm
    · exact hm.entry hf hk
  · intro hunbound
    refine hm.unbound ?_
    rw [TypeTable.byType_enter, Table.find?_insertNew] at hunbound
    split at hunbound
    · cases hunbound
    · exact hunbound

theorem OptIn.shares (h : OptIn d make r s) (hr : r.Sound) (hm : r.Shares k m) :
    s.Shares k (if k = d then some make else m) := by
  cases h with
  | intro he hd hn =>
    obtain ⟨n', hdn, hn'⟩ := hr.node_of_pointer he hd
    cases hn.symm.trans hn'
    obtain ⟨i, hi⟩ := hr.bound he
    exact hm.setMaker hr hdn (hd ▸ hi) make

theorem OptIn.change (h : OptIn k make r s) : Change (fun _ _ => True) r s := by
  cases h with
  | intro he _ hn => exact .maker he hn trivial

/-- A change keeps what the numbers of a class share, unless the class opts in. -/
theorem Shares.change (hm : r.Shares k m) (hr : r.Sound) (h : Change ok r s) :
    s.Shares k m ∨ ∃ make, ok r (.maker make) ∧ OptIn k make r s ∧ s.Shares k (some make) := by
  cases h with
  | node c => exact .inl ⟨hm.entry, hm.unbound⟩
  | enter he => exact .inl (hm.enter he)
  | converter _ _ _ => exact .inl ⟨hm.entry, hm.unbound⟩
  | @maker id e n make he hn hok =>
    obtain ⟨d, hd, -⟩ := hr.pointer_of_node he hn
    have hopt : OptIn d make r { r with types := r.types.setMaker n make } := .intro he hd hn
    have hshares := hopt.shares hr hm
    by_cases hkd : k = d
    · subst hkd
      rw [if_pos rfl] at hshares
      exact .inr ⟨make, hok, hopt, hshares⟩
    · rw [if_neg hkd] at hshares
      exact .inl hshares
  | factory _ => exact .inl ⟨hm.entry, hm.unbound⟩

/-! ## Courses -/

/-- The numbers of a class share a maker at any time: the one from before, or one that is there
    because the class opted in. -/
theorem Shares.course (hm : r.Shares k m) (hr : r.Sound) (h : Course ok r s) :
    ∃ m', s.Shares k m' ∧ (m' = m ∨ m'.isSome = true ∧ OptsIn k r s) := by
  induction h with
  | refl => exact ⟨m, hm, .inl rfl⟩
  | @tail u v hu hchange ih =>
    obtain ⟨m', hm', horigin⟩ := ih
    have hcourse : Course (fun _ _ => True) r u := Course.mono (fun _ _ _ => trivial) hu
    rcases hm'.change (Course.sound hr hu) hchange with hkept | ⟨make, -, hopt, hshares⟩
    · refine ⟨m', hkept, horigin.imp_right (And.imp_right ?_)⟩
      rintro ⟨a, b, make, ha, hopt, hb⟩
      exact ⟨a, b, make, ha, hopt, hb.tail (hchange.mono fun _ _ _ => trivial)⟩
    · exact ⟨some make, hshares, .inr ⟨rfl, u, v, make, hcourse, hopt, .refl⟩⟩

/-- Where no maker is registered, they share the one from before. -/
theorem Shares.kept (hm : r.Shares k m) (hr : r.Sound) (hok : ∀ u make, ¬ ok u (.maker make)) (h : Course ok r s) :
    s.Shares k m := by
  induction h with
  | refl => exact hm
  | @tail u v hu hchange ih =>
    rcases ih.change (Course.sound hr hu) hchange with hkept | ⟨make, hmaker, -⟩
    · exact hkept
    · exact absurd hmaker (hok u make)

theorem shares_fresh (k : ClassDecl) : Shares World.fresh.registries k none := by
  obtain ⟨cs, hfresh, -⟩ := fresh_types
  rw [hfresh]
  refine ⟨fun he _ => ?_, fun _ => rfl⟩
  obtain ⟨p, -, -, rfl⟩ := builtin_entry he
  rfl

end Registries

namespace World

open Registries (Shares OptsIn)

/-- The world `v` is `w` after the class `k` opted in with a maker. -/
structure OptedIn (w : World) (k : ClassDecl) (make : Script) (v : World) : Prop where
  made : ∀ id, w.types.StandsFor id (.pointer k) → v.types.hasMaker id = true ∧
    ∀ c, Run.defaultValue id c v = Run.callBoxed make c v
  kept : ∀ id, ¬ w.types.StandsFor id (.pointer k) → v.types.entries.find? id = w.types.entries.find? id ∧
    ((∃ other, ∀ c, Run.defaultValue id c w = Run.callBoxed other c w ∧
        Run.defaultValue id c v = Run.callBoxed other c v) ∨
      ∃ b, ∀ c, Run.defaultValue id c w = some (b, w) ∧ Run.defaultValue id c v = some (b, v))
  keys : v.types.entries.keys = w.types.entries.keys
  entry : ∀ id, (v.types.entries.find? id).map (fun e => (e.ty, e.name, e.node)) =
    (w.types.entries.find? id).map fun e => (e.ty, e.name, e.node)
  rest : v = (w.withTypes { w.types with entries := v.types.entries }).note (.classOptedIn k.name)

section

variable {w : World} (hw : w.Reached)
include hw

theorem Reached.shares (k : ClassDecl) : ∃ m, w.registries.Shares k m ∧
    (m = none ∨ m.isSome = true ∧ OptsIn k fresh.registries w.registries) :=
  (Registries.shares_fresh k).course Registries.sound_fresh (Leads.course .refl hw)

/-- The number of a class has a maker just when the class opted in. -/
theorem Reached.hasMaker_iff {id : TypeId} {k : ClassDecl} (hid : w.types.StandsFor id (.pointer k)) :
    w.types.hasMaker id = true ↔ OptsIn k fresh.registries w.registries := by
  obtain ⟨e, he, hk⟩ := Option.map_eq_some_iff.mp hid
  obtain ⟨m, hm, horigin⟩ := hw.shares k
  have hmaker : w.types.hasMaker id = m.isSome := by
    rw [TypeTable.hasMaker, he, Option.bind_some, hm.entry he hk]
  rw [hmaker]
  constructor
  · intro hsome
    rcases horigin with rfl | ⟨-, hopts⟩
    · cases hsome
    · exact hopts
  · rintro ⟨u, v, make, hu, hopt, hv⟩
    have hsound := Course.sound Registries.sound_fresh hu
    obtain ⟨a, ha, -⟩ := (Registries.shares_fresh k).course Registries.sound_fresh hu
    -- after the opt-in there is a maker, and it can only be exchanged for another one
    have hmade := hopt.shares hsound ha
    rw [if_pos rfl] at hmade
    obtain ⟨b, hb, horigin⟩ := hmade.course (hopt.change.sound hsound) hv
    have hbm : b = m := (hb.entry he hk).symm.trans (hm.entry he hk)
    rcases horigin with hsome | ⟨hsome, -⟩
    · rw [← hbm, hsome]; rfl
    · rw [← hbm]; exact hsome

/-- Without a maker, a number makes one box in all worlds that know it alike, and making it
    changes nothing. -/
theorem Reached.defaultValue_eq {v : World} {id : TypeId} (hm : (w.types.entries.find? id).bind Entry.maker = none)
    (hentry : v.types.entries.find? id = w.types.entries.find? id) (hbound : v.types.byType = w.types.byType) :
    ∃ b, ∀ c, Run.defaultValue id c w = some (b, w) ∧ Run.defaultValue id c v = some (b, v) := by
  have hm' : (v.types.entries.find? id).bind Entry.maker = none := by rw [hentry]; exact hm
  cases he : w.types.entries.find? id with
  | none =>
    refine ⟨.null, fun c => ?_⟩
    rw [Run.defaultValue_of_none hm, Run.defaultValue_of_none hm', Step.nullValue_of_none he,
      Step.nullValue_of_none (hentry.trans he)]
    exact ⟨rfl, rfl⟩
  | some e =>
    obtain ⟨i, hi⟩ := hw.sound.bound he
    obtain ⟨b, hb⟩ := Step.box_default e.ty i
    refine ⟨b, fun c => ?_⟩
    rw [Run.defaultValue_of_none hm, Run.defaultValue_of_none hm', Step.nullValue_of_some he,
      Step.nullValue_of_some (hentry.trans he), hb hi, hb (by rw [hbound]; exact hi)]
    exact ⟨rfl, rfl⟩

/-- A class opts in by any of its numbers. -/
theorem Reached.optedIn {id : TypeId} {k : ClassDecl} (hid : w.types.StandsFor id (.pointer k)) (make : Script) :
    (Step.setMaker id make w).1 = true ∧ w.OptedIn k make (Step.setMaker id make w).2 := by
  obtain ⟨e, he, hk⟩ := Option.map_eq_some_iff.mp hid
  obtain ⟨n, hkn, hn⟩ := hw.sound.node_of_pointer he hk
  have hentries := hw.sound.entries_setMaker hkn make
  rw [Step.setMaker_of_some (by rw [he]; exact hn)]
  refine ⟨rfl, ?_, ?_, Table.keys_mapValues _ _, ?_, ?_⟩
  · intro j hj
    obtain ⟨f, hf, hfk⟩ := Option.map_eq_some_iff.mp hj
    have hmade : (w.types.setMaker n make).entries.find? j = some { f with maker := some make } := by
      rw [hentries, hf, Option.map_some, if_pos hfk]
    refine ⟨?_, fun c => Run.defaultValue_of_maker ?_⟩
    · show (((w.types.setMaker n make).entries.find? j).bind Entry.maker).isSome = true
      rw [hmade]; rfl
    · show ((w.types.setMaker n make).entries.find? j).bind Entry.maker = some make
      rw [hmade]; rfl
  · intro j hj
    have hsame : (w.types.setMaker n make).entries.find? j = w.types.entries.find? j := by
      rw [hentries]
      cases hf : w.types.entries.find? j with
      | none => rfl
      | some f =>
        have hne : f.ty ≠ .pointer k := fun hfk => hj (Option.map_eq_some_iff.mpr ⟨f, hf, hfk⟩)
        rw [Option.map_some, if_neg hne]
    refine ⟨hsame, ?_⟩
    cases hm : (w.types.entries.find? j).bind Entry.maker with
    | none => exact .inr (hw.defaultValue_eq hm hsame rfl)
    | some other =>
      refine .inl ⟨other, fun c => ⟨Run.defaultValue_of_maker hm, Run.defaultValue_of_maker ?_⟩⟩
      exact (congrArg (Option.bind · Entry.maker) hsame).trans hm
  · intro j
    show ((w.types.setMaker n make).entries.find? j).map _ = _
    rw [hentries, Option.map_map]
    congr 1
    funext f
    rw [Function.comp_apply]
    split <;> rfl
  · rw [ClassNode.name, hw.sound.classes.decl hkn]; rfl

/-- In every world that a program can get to, numbers with one node have one maker, and numbers
    without a node have none. For every number and maker, a class opts in just when the number
    is one of a class's pointer type; that is the class of this type then, and nothing
    happens otherwise. -/
theorem Reached.makers :
    (∀ i j e f, w.types.entries.find? i = some e → w.types.entries.find? j = some f →
      Descriptor.sameNode e.node f.node = true → e.maker = f.maker) ∧
    (∀ i e, w.types.entries.find? i = some e → e.node = none → e.maker = none) ∧
    ∀ id make,
      ((Step.setMaker id make w).1 = true ↔ ∃ k, w.types.StandsFor id (.pointer k)) ∧
      (∀ k, w.types.StandsFor id (.pointer k) → w.OptedIn k make (Step.setMaker id make w).2) ∧
      ((Step.setMaker id make w).1 = false → (Step.setMaker id make w).2 = w) := by
  refine ⟨fun i j e f he hf hsame => ?_, fun i e he hn => hw.sound.maker he hn, fun id make => ?_⟩
  · cases hfn : f.node with
    | none => cases hen : e.node <;> rw [hen, hfn] at hsame <;> cases hsame
    | some n =>
      obtain ⟨k, hk, hkn⟩ := hw.sound.pointer_of_node hf hfn
      obtain ⟨m, hm, -⟩ := hw.shares k
      rw [hfn] at hsame
      rw [hm.entry he ((hw.sound.sameNode_iff hkn he).mp hsame), hm.entry hf hk]
  · by_cases hid : ∃ k, w.types.StandsFor id (.pointer k)
    · obtain ⟨k, hk⟩ := hid
      have htrue := (hw.optedIn hk make).1
      refine ⟨⟨fun _ => ⟨k, hk⟩, fun _ => htrue⟩, fun l hl => (hw.optedIn hl make).2, fun hfalse => ?_⟩
      rw [htrue] at hfalse; cases hfalse
    · have hnone : (w.types.entries.find? id).bind Entry.node = none := by
        refine Option.eq_none_iff_forall_ne_some.mpr fun n hn => hid ?_
        obtain ⟨e, he, hen⟩ := Option.bind_eq_some_iff.mp hn
        obtain ⟨k, hk, -⟩ := hw.sound.pointer_of_node he hen
        exact ⟨k, Option.map_eq_some_iff.mpr ⟨e, he, hk⟩⟩
      rw [Step.setMaker_of_none hnone]
      exact ⟨⟨fun h => (by cases h), fun h => absurd h hid⟩, fun k hk => absurd ⟨k, hk⟩ hid, fun _ => rfl⟩

end

/-- Dogs have two numbers when they opt in by the second one, and get a third one after that: all
    three have the maker, and the number of animals has none. -/
theorem Reached.makers_renamed :
    let animal : ClassDecl := .root ⟨"Animal", 0, 4⟩
    let dog : ClassDecl := .derived ⟨"Dog", 0, 40⟩ animal
    let make : Script := .newObject (Instance.initial dog)
    let w := (Step.addAlias (.pointer dog) "Hound" (Step.idOf (.pointer animal) fresh).2).2
    let v := (Step.setMaker ⟨1026⟩ make w).2
    let u := (Step.addAlias (.pointer dog) "Puppy" v).2
    w.Reached ∧ (Step.setMaker ⟨1026⟩ make w).1 = true ∧
      (∀ id, id = ⟨1025⟩ ∨ id = ⟨1026⟩ → ∀ c, Run.defaultValue id c v = Run.callBoxed make c v) ∧
      (∃ b, ∀ c, Run.defaultValue ⟨1024⟩ c w = some (b, w) ∧ Run.defaultValue ⟨1024⟩ c v = some (b, v)) ∧
      ∃ e f, u.types.entries.find? ⟨1027⟩ = some e ∧ u.types.entries.find? ⟨1025⟩ = some f ∧ e.maker = f.maker ∧
        f.maker.isSome = true := by
  intro animal dog make w v u
  have hw : w.Reached := (Leads.idOf fresh (.pointer animal)).trans (.addAlias _ (.pointer dog) "Hound")
  have hu : u.Reached :=
    (hw.leads (.setMaker w ⟨1026⟩ make)).leads (.addAlias v (.pointer dog) "Puppy")
  obtain ⟨-, -, hopt⟩ := Reached.makers hw
  obtain ⟨hiff, hopted, -⟩ := hopt ⟨1026⟩ make
  have hdogs : w.types.StandsFor ⟨1025⟩ (.pointer dog) ∧ w.types.StandsFor ⟨1026⟩ (.pointer dog) ∧
      ¬ w.types.StandsFor ⟨1024⟩ (.pointer dog) := by
    simp only [w, fresh_eq, TypeTable.StandsFor]
    decide
  obtain ⟨hfirst, hsecond, hother⟩ := hdogs
  have hdog := hopted dog hsecond
  refine ⟨hw, hiff.mpr ⟨dog, hsecond⟩, ?_, ?_, ?_⟩
  · rintro id (rfl | rfl)
    · exact (hdog.made _ hfirst).2
    · exact (hdog.made _ hsecond).2
  · have hnone : (w.types.entries.find? ⟨1024⟩).bind Entry.maker = none :=
      Option.isNone_iff_eq_none.mp (by simp only [w, fresh_eq]; decide)
    exact hw.defaultValue_eq hnone (hdog.kept _ hother).1 (Step.byType_setMaker ⟨1026⟩ make w)
  · have hnodes : ((u.types.entries.find? ⟨1027⟩).bind Entry.node).isSome = true ∧
        (u.types.entries.find? ⟨1027⟩).bind Entry.node = (u.types.entries.find? ⟨1025⟩).bind Entry.node ∧
        u.types.hasMaker ⟨1025⟩ = true := by
      simp only [u, v, w, fresh_eq]
      decide
    obtain ⟨hsome, hsame, hmaker⟩ := hnodes
    obtain ⟨n, hn⟩ := Option.isSome_iff_exists.mp hsome
    obtain ⟨e, he, hen⟩ := Option.bind_eq_some_iff.mp hn
    obtain ⟨f, hf, hfn⟩ := Option.bind_eq_some_iff.mp (hsame.symm.trans hn)
    refine ⟨e, f, he, hf, (Reached.makers hu).1 _ _ e f he hf ?_, ?_⟩
    · rw [hen, hfn]; exact n.same_refl
    · rw [TypeTable.hasMaker, hf] at hmaker; exact hmaker

end World

end Multimethod
