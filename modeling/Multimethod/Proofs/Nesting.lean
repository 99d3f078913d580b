/-
  Multimethod.Proofs.Nesting — exact selections lie within those by conversion, and more
  argument types select no more.

  Where neither factories nor live defaults are registered, what a test makes is never an
  object, so the test settles for every description, even one that fits no registered type
  (`World.Reached.settles`). A selection is then a filter by the verdicts. Types that are
  exactly alike are of one type, which is the first thing that the test asks; and further
  types are tested on top of the ones before them, while the bound on their number gets
  harder to meet.
-/
import Multimethod.Proofs.Aliases
import Multimethod.Proofs.NullValues
import Multimethod.Proofs.Probing
import Multimethod.Proofs.Queries

namespace Multimethod

open Registries (Grows Course)

/-- What is exactly alike is of one type. -/
theorem Descriptor.same_of_isExactly {a b : Descriptor} (h : a.isExactly b = true) : a.same b = true := by
  unfold isExactly at h
  rw [same, Bool.or_eq_true]
  split at h
  · exact .inr h
  · exact .inl h

/-- No factory and no maker is registered. -/
structure World.Bare (w : World) : Prop where
  factory : ∀ id, w.registries.factories.find? id = none
  maker : ∀ id, w.types.hasMaker id = false

namespace World

variable {w v : World} {a b : Descriptor}

/-- Quiet changes register neither. -/
theorem Bare.quiet (h : w.Bare) (hw : w.registries.Sound) (hv : Registries.Quiet w.registries v.registries) :
    v.Bare := by
  let ok (_ : Registries) (x : Registration) : Prop := ∀ make, x ≠ .maker make
  have hstores : Registries.Stores ok w.registries := by
    refine ⟨fun _ _ hx => (by cases hx), fun {id e make} he hm => ?_, fun _ _ hx => (by cases hx)⟩
    have hnone := h.maker id
    rw [TypeTable.hasMaker, he, Option.bind_some, hm] at hnone
    cases hnone
  have hkept : Registries.Stores ok v.registries := Course.stores (fun _ hok => hok) hw hstores hv.course
  refine ⟨fun id => by rw [Registries.Quiet.factories hv]; exact h.factory id, fun id => ?_⟩
  cases hm : (v.types.entries.find? id).bind Entry.maker with
  | none => rw [TypeTable.hasMaker, hm]; rfl
  | some make =>
    obtain ⟨e, he, hmake⟩ := Option.bind_eq_some_iff.mp hm
    exact absurd rfl (hkept.maker he hmake make)

/-- What is made of any number there is no object, and making it changes nothing. -/
theorem Reached.create_bare (hw : w.Reached) (h : w.Bare) (id : TypeId) :
    ∃ b, b.ownsObject = false ∧ ∀ c, Run.create id c w = some (b, w) := by
  have hmaker : (w.types.entries.find? id).bind Entry.maker = none :=
    Option.not_isSome_iff_eq_none.mp (Bool.eq_false_iff.mp (h.maker id))
  obtain ⟨b, hnull, hmade⟩ := hw.exists_nullMade id
  exact ⟨b, hmade.no_object, fun c => by rw [Run.create_of_none (h.factory id) hmaker, hnull]⟩

/-- The test from any description settles there. -/
theorem Reached.settles (hw : w.Reached) (h : w.Bare) (a : Descriptor) : w.Settles a := by
  intro b
  cases hn : a.node with
  | some n =>
    obtain ⟨ans, hrun, -⟩ := Run.isConvertible_class a b hn
    exact ⟨ans, fun c => hrun c w⟩
  | none =>
    obtain ⟨probe, hprobe, hcreate⟩ := hw.create_bare h a.id
    simp only [Run.isConvertible_plain a b hn, hcreate, Option.bind_some]
    have hobject : probe.object? = none := Option.not_isSome_iff_eq_none.mp (Bool.eq_false_iff.mp hprobe)
    have hworld : (Step.canConvert probe b.id w).2 = w := by
      rw [Step.canConvert_snd, Step.describe_snd_of_none hobject]
    split
    · exact ⟨true, fun _ => rfl⟩
    · split
      · exact ⟨false, fun _ => rfl⟩
      · split
        · exact ⟨false, fun _ => rfl⟩
        · exact ⟨_, fun _ => congrArg some (Prod.ext rfl hworld)⟩

/-- What is exactly alike is found convertible. -/
theorem verdict_of_isExactly (h : a.isExactly b = true) : w.verdict a b = true := by
  have hrun : Run.isConvertible a b (Script.run 0) w = some (true, w) := by
    unfold Run.isConvertible
    rw [Descriptor.same_of_isExactly h, Bool.true_or, if_pos rfl]
    rfl
  rw [verdict, Run.outcome, Run.atDepth, hrun]
  rfl

end World

/-! ## One world -/

/-- Further types pair with parameters after the ones before them. -/
theorem zip_prefix_zip_append {α β : Type} (ts us : List α) (ps : List β) : ts.zip ps <+: (ts ++ us).zip ps := by
  induction ts generalizing ps with
  | nil => exact List.nil_prefix
  | cons t ts ih =>
    cases ps with
    | nil => exact List.nil_prefix
    | cons p ps => exact List.prefix_cons_inj (t, p) |>.mpr (ih ps)

/-- A test place by place, with a bound on the number of places, selects less for more types. -/
theorem filter_append_sublist {n : Nat} (fs : List (Function n)) (test : Descriptor × Descriptor → Bool)
    (ts us : List Descriptor) :
    (fs.filter fun f => decide ((ts ++ us).length ≤ n) && ((ts ++ us).zip f.params).all test).Sublist
      (fs.filter fun f => decide (ts.length ≤ n) && (ts.zip f.params).all test) := by
  refine List.monotone_filter_right fs fun f h => ?_
  obtain ⟨hlength, hall⟩ := (Bool.and_eq_true _ _).mp h
  have hlength : (ts ++ us).length ≤ n := of_decide_eq_true hlength
  rw [List.length_append] at hlength
  refine (Bool.and_eq_true _ _).mpr ⟨decide_eq_true (by omega), List.all_eq_true.mpr fun x hx => ?_⟩
  exact List.all_eq_true.mp hall x ((zip_prefix_zip_append ts us f.params).subset hx)

namespace World

variable {n : Nat} (w : World) (d : Dispatcher n) (ts us : List Descriptor)

theorem exactly_sublist_selected : (d.exactly ts w).1.Sublist (w.selected d ts) := by
  rw [Run.exactly_fst]
  refine List.monotone_filter_right d.functions fun f h => ?_
  obtain ⟨hlength, hall⟩ := (Bool.and_eq_true _ _).mp h
  refine (Bool.and_eq_true _ _).mpr ⟨hlength, List.all_eq_true.mpr fun x hx => ?_⟩
  exact verdict_of_isExactly (List.all_eq_true.mp hall x hx)

theorem selected_append_sublist : (w.selected d (ts ++ us)).Sublist (w.selected d ts) :=
  filter_append_sublist d.functions _ ts us

theorem exactly_append_sublist (v : World) : (d.exactly (ts ++ us) v).1.Sublist (d.exactly ts w).1 := by
  rw [Run.exactly_fst, Run.exactly_fst]
  exact filter_append_sublist d.functions _ ts us

theorem selected_sublist : (w.selected d ts).Sublist d.functions := List.filter_sublist

end World

/-! ## More boxes -/

namespace Step

theorem typesOf_append (args more : List Box) (w : World) :
    typesOf (args ++ more) w =
      ((typesOf args w).1 ++ (typesOf more (typesOf args w).2).1, (typesOf more (typesOf args w).2).2) := by
  induction args generalizing w with
  | nil => rfl
  | cons b args ih => simp only [List.cons_append, typesOf_cons, ih]

end Step

namespace World

variable {w v : World}

/-- From `w` to `v` only pointer types were registered, no converter and no factory. -/
structure AddsPointers (w v : World) : Prop where
  leads : w.Leads v
  factories : v.registries.factories = w.registries.factories
  converters : v.types.converters = w.types.converters
  entry : ∀ {id e}, v.types.entries.find? id = some e → e.ty.cls? = none → w.types.entries.find? id = some e

/-- An entry of another type was there before. -/
theorem entry_of_foldl_enterPointer {ks : List ClassDecl} {id : TypeId} {e : Entry}
    (he : (ks.foldl enterPointer w).types.entries.find? id = some e) (hcls : e.ty.cls? = none) :
    w.types.entries.find? id = some e := by
  induction ks generalizing w with
  | nil => exact he
  | cons k ks ih =>
    rcases TypeTable.eq_or_find?_of_enter (ih he) with rfl | h
    · cases hcls
    · exact h

/-- Describing boxes that fit adds pointer types. -/
theorem Reached.addsPointers (hw : w.Reached) {args : List Box} (hb : ∀ b ∈ args, b.Fits w.registries) :
    w.AddsPointers (Step.typesOf args w).2 := by
  have hquiet := Step.isQuiet_typesOf args w hw.sound
  refine ⟨(Step.presents_typesOf hw hb).1.leads, hquiet.factories, hquiet.converters, fun he hcls => ?_⟩
  rw [Step.typesOf_snd hw.sound fun b h o ho => (hb b h).knows ho] at he
  exact entry_of_foldl_enterPointer he hcls

namespace AddsPointers

variable (h : w.AddsPointers v) (hw : w.Reached)
include h hw

/-- What a number of a type without class converts to does not change. -/
theorem converts {i : TypeId} {t : Ty} (hi : w.types.StandsFor i t) (hcls : t.cls? = none) (j : TypeId) :
    v.types.converts i j = w.types.converts i j := by
  have hgrow := h.leads.grows hw
  have hsame : v.types.sameType i j = w.types.sameType i j := by
    refine Bool.eq_iff_iff.mpr ⟨fun hv => ?_, hgrow.sameType⟩
    obtain ⟨e, f, he, hf, hef⟩ := TypeTable.sameType_iff.mp hv
    have hety : e.ty = t := by
      have hstands := hgrow.standsFor hi
      exact Option.some.inj ((congrArg (Option.map Entry.ty) he).symm.trans hstands)
    have he' := h.entry he (hety ▸ hcls)
    exact TypeTable.sameType_iff.mpr ⟨e, f, he', h.entry hf (hef ▸ hety ▸ hcls), hef⟩
  simp only [TypeTable.converts, hsame, h.converters]

section

variable (hf : ∀ id, w.registries.factories.find? id = none) {a : Descriptor} (ha : w.registries.Describes a)
include hf ha

/-- Of a type without class the same is made in both worlds: nothing, or a content. -/
theorem probe (hn : a.node = none) :
    ∃ probe, (∀ c, Run.create a.id c w = some (probe, w)) ∧ (∀ c, Run.create a.id c v = some (probe, v)) ∧
      (probe = .null ∨ ∃ i x, probe = .plain i x ∧ w.types.StandsFor i x.ty) := by
  have hv := hw.leads h.leads
  have hgrow := h.leads.grows hw
  have hf' : v.registries.factories.find? a.id = none := by rw [h.factories]; exact hf _
  obtain ⟨probe, hcreate, hprobe⟩ := Run.create_default hw.sound ha hn (hf _)
  refine ⟨probe, hcreate, ?_⟩
  unfold Registries.Probes at hprobe
  rcases ha.known with rfl | ⟨e, he, hnode⟩
  · obtain ⟨probe', hcreate', hprobe'⟩ := Run.create_default hv.sound (ha.mono hgrow) hn hf'
    unfold Registries.Probes at hprobe'
    rw [show w.types.entries.find? Descriptor.wild.id = none from hw.sound.find?_wild] at hprobe
    rw [show v.types.entries.find? Descriptor.wild.id = none from hv.sound.find?_wild] at hprobe'
    subst hprobe hprobe'
    exact ⟨hcreate', .inl rfl⟩
  · obtain ⟨f, hfind, -, -, hfnode⟩ := hgrow.entry he
    have hmaker := hw.sound.maker he (hnode.symm.trans hn)
    have hmaker' := hv.sound.maker hfind (hfnode.trans (hnode.symm.trans hn))
    have hmade : Step.nullValue a.id w = (probe, w) :=
      Option.some.inj ((Run.create_of_none (hf _) (by rw [he]; exact hmaker)).symm.trans (hcreate fun _ _ => none))
    have hlater := hw.nullValue_later (Option.map_eq_some_iff.mpr ⟨e, he, rfl⟩) h.leads hmade
    refine ⟨fun c => ?_, ?_⟩
    · rw [Run.create_of_none hf' (by rw [hfind]; exact hmaker'), hlater]
    · rw [he] at hprobe
      rcases hprobe with ⟨-, rfl⟩ | ⟨i, x, rfl, hx, hi⟩
      · exact .inl rfl
      · exact .inr ⟨i, x, rfl, hw.sound.standsFor_of_numbers (.inr ⟨x.ty_ne_any, hx ▸ hi⟩) x.ty_ne_any⟩

/-- Nor does the verdict on a description, where no factory is registered. -/
theorem verdict (b : Descriptor) : v.verdict a b = w.verdict a b := by
  suffices heq : ∃ ans, (∀ c, Run.isConvertible a b c w = some (ans, w)) ∧
      ∀ c, Run.isConvertible a b c v = some (ans, v) by
    obtain ⟨ans, hrun, hrun'⟩ := heq
    simp only [World.verdict, Run.outcome, Run.atDepth, hrun, hrun', Option.map_some]
  cases hn : a.node with
  | some n =>
    obtain ⟨ans, hrun, -⟩ := Run.isConvertible_class a b hn
    exact ⟨ans, fun c => hrun c w, fun c => hrun c v⟩
  | none =>
    obtain ⟨probe, hmade, hmade', hprobe⟩ := h.probe hw hf ha hn
    simp only [Run.isConvertible_plain a b hn, hmade, hmade', Option.bind_some]
    split
    · exact ⟨true, fun _ => rfl, fun _ => rfl⟩
    · split
      · exact ⟨false, fun _ => rfl, fun _ => rfl⟩
      · rcases hprobe with rfl | ⟨i, x, rfl, hi⟩
        · exact ⟨false, fun _ => rfl, fun _ => rfl⟩
        · refine ⟨w.types.converts i b.id, fun _ => rfl, fun _ => ?_⟩
          rw [← h.converts hw hi x.cls?_ty]
          rfl

end

/-- So descriptions select the same. -/
theorem selected_eq (hf : ∀ id, w.registries.factories.find? id = none) {types : List Descriptor}
    (ha : ∀ a ∈ types, w.registries.Describes a) {n : Nat} (d : Dispatcher n) :
    v.selected d types = w.selected d types := by
  refine List.filter_congr fun f _ => ?_
  have hall : ((types.zip f.params).all fun x => v.verdict x.1 x.2) =
      (types.zip f.params).all fun x => w.verdict x.1 x.2 := by
    refine Bool.eq_iff_iff.mpr ?_
    rw [List.all_eq_true, List.all_eq_true]
    refine forall₂_congr fun x hx => ?_
    rw [h.verdict hw hf (ha x.1 (List.of_mem_zip hx).1)]
  rw [hall]

end AddsPointers

theorem Leads.typesOf (w : World) (args : List Box) : w.Leads (Step.typesOf args w).2 := by
  induction args generalizing w with
  | nil => exact .refl
  | cons b args ih =>
    rw [Step.typesOf_cons]
    exact (Leads.describe w b).trans (ih _)

theorem bare_fresh : fresh.Bare := by
  refine ⟨fun _ => rfl, fun id => Bool.eq_false_iff.mpr fun h => ?_⟩
  obtain ⟨cs, hfresh, -⟩ := Registries.fresh_types
  obtain ⟨make, hmake⟩ := Option.isSome_iff_exists.mp h
  obtain ⟨e, he, hm⟩ := Option.bind_eq_some_iff.mp hmake
  rw [World.types, hfresh] at he
  obtain ⟨p, -, -, rfl⟩ := Registries.builtin_entry he
  cases hm

end World

end Multimethod
