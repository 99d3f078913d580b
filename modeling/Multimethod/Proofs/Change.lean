/-
  Multimethod.Proofs.Change — the changes that registries go through.

  Whatever a program does, its registries change only in the five ways of `Change`: a class
  gets its node, a number is given out, a converter, a maker or a factory is registered. A
  `Course` is any number of changes; `ok` says which behaviour may be registered in it.
  Along a course the registries stay sound (`Course.sound`) and forget nothing
  (`Course.grows`), and all behaviour they keep has been `ok` (`Course.stores`).
-/
import Mathlib.Logic.Relation
import Multimethod.Proofs.Numbering

namespace Multimethod

/-- Behaviour that is handed to the registries. -/
inductive Registration where
  | converter (c : Converter)
  | maker (make : Script)
  | factory (id : TypeId) (make : Script)

namespace Registries

variable {ok ok' : Registries → Registration → Prop} {r s u : Registries}

/-- One change of the registries. -/
inductive Change (ok : Registries → Registration → Prop) : Registries → Registries → Prop
  | node (r : Registries) (c : ClassDecl) : Change ok r { r with classes := (ClassCache.node c r.classes).2.2 }
  | enter {r : Registries} {e : Entry} (h : r.MayEnter e) : Change ok r { r with types := r.types.enter e }
  | converter {r : Registries} {c : Converter} {i j : TypeId} (hi : r.types.Numbers c.source i)
      (hj : r.types.Numbers c.target j) (h : ok r (.converter c)) :
      Change ok r { r with types := { r.types with converters := r.types.converters.insert (i, j) c } }
  | maker {r : Registries} {id : TypeId} {e : Entry} {n : ClassNode} {make : Script}
      (he : r.types.entries.find? id = some e) (hn : e.node = some n) (h : ok r (.maker make)) :
      Change ok r { r with types := r.types.setMaker n make }
  | factory {r : Registries} {id : TypeId} {make : Script} (h : ok r (.factory id make)) :
      Change ok r { r with factories := r.factories.insert id make }

/-- Any number of changes. -/
abbrev Course (ok : Registries → Registration → Prop) : Registries → Registries → Prop :=
  Relation.ReflTransGen (Change ok)

/-- Changes that register no behaviour. -/
abbrev Quiet : Registries → Registries → Prop := Course fun _ _ => False

/-- `s` knows whatever `r` knows. -/
structure Grows (r s : Registries) : Prop where
  entry : ∀ {id e}, r.types.entries.find? id = some e →
    ∃ f, s.types.entries.find? id = some f ∧ f.ty = e.ty ∧ f.name = e.name ∧ f.node = e.node
  byType : ∀ {ty id}, r.types.byType.find? ty = some id → s.types.byType.find? ty = some id
  byName : ∀ {name id}, r.types.byName.find? name = some id → s.types.byName.find? name = some id
  node : ∀ {c n}, r.classes.find? c = some n → s.classes.find? c = some n
  converter : ∀ {k}, r.types.converters.contains k = true → s.types.converters.contains k = true

/-- All behaviour that the registries keep is `ok`. -/
structure Stores (ok : Registries → Registration → Prop) (r : Registries) : Prop where
  converter : ∀ {k c}, r.types.converters.find? k = some c → ok r (.converter c)
  maker : ∀ {id e make}, r.types.entries.find? id = some e → e.maker = some make → ok r (.maker make)
  factory : ∀ {id make}, r.factories.find? id = some make → ok r (.factory id make)

/-! ## Nothing is forgotten -/

theorem Grows.refl (r : Registries) : Grows r r :=
  ⟨fun h => ⟨_, h, rfl, rfl, rfl⟩, id, id, id, id⟩

theorem Grows.trans (h : Grows r s) (k : Grows s u) : Grows r u := by
  refine ⟨fun he => ?_, k.byType ∘ h.byType, k.byName ∘ h.byName, k.node ∘ h.node, k.converter ∘ h.converter⟩
  obtain ⟨f, hf, hty, hname, hnode⟩ := h.entry he
  obtain ⟨g, hg, hty', hname', hnode'⟩ := k.entry hf
  exact ⟨g, hg, hty'.trans hty, hname'.trans hname, hnode'.trans hnode⟩

theorem Change.grows (hr : r.Sound) (h : Change ok r s) : Grows r s := by
  cases h with
  | node c => exact ⟨fun h => ⟨_, h, rfl, rfl, rfl⟩, id, id, ClassCache.find?_node_of_some, id⟩
  | @enter e ha =>
    refine ⟨fun hf => ⟨_, TypeTable.find?_entries_enter_of_some hr.lt_next hf, rfl, rfl, rfl⟩,
      fun {ty id} hb => ?_, fun {name id} hb => ?_, id, id⟩
    · by_cases hty : e.ty = ty
      · subst hty; simp [hb]
      · simp [hty, hb]
    · by_cases hname : e.name = name
      · subst hname; simp [hb]
      · simp [hname, hb]
  | @converter c i j hi hj _ =>
    refine ⟨fun h => ⟨_, h, rfl, rfl, rfl⟩, id, id, id, ?_⟩
    intro k hk
    simp only [Table.contains, Table.find?_insert]
    split
    · rfl
    · exact hk
  | @maker _ _ n make he hn _ => exact ⟨find?_setMaker_of_some n make, id, id, id, id⟩
  | factory _ => exact ⟨fun h => ⟨_, h, rfl, rfl, rfl⟩, id, id, id, id⟩

theorem Grows.numbers (h : Grows r s) {ty : Ty} {id : TypeId} (hn : r.types.Numbers ty id) : s.types.Numbers ty id :=
  hn.imp_right fun ⟨hne, hb⟩ => ⟨hne, h.byType hb⟩

/-- A registered number keeps its description. -/
theorem Grows.descriptor (h : Grows r s) {id : TypeId} {e : Entry} (he : r.types.entries.find? id = some e) :
    s.types.descriptor id = r.types.descriptor id := by
  obtain ⟨f, hf, -, hname, hnode⟩ := h.entry he
  simp [TypeTable.descriptor, TypeTable.descriptor?, he, hf, hname, hnode]

theorem Grows.sameType (h : Grows r s) {a b : TypeId} (hab : r.types.sameType a b = true) :
    s.types.sameType a b = true := by
  obtain ⟨e, f, he, hf, hef⟩ := TypeTable.sameType_iff.mp hab
  obtain ⟨e', he', hty, -⟩ := h.entry he
  obtain ⟨f', hf', hty', -⟩ := h.entry hf
  exact TypeTable.sameType_iff.mpr ⟨e', f', he', hf', hty.trans (hef.trans hty'.symm)⟩

/-- A conversion that is supported stays so. -/
theorem Grows.converts (h : Grows r s) {a b : TypeId} (hab : r.types.converts a b = true) :
    s.types.converts a b = true := by
  simp only [TypeTable.converts, Bool.or_eq_true] at hab ⊢
  exact hab.imp (Or.imp_right h.sameType) h.converter

/-! ## The invariant -/

theorem Change.sound (hr : r.Sound) (h : Change ok r s) : s.Sound := by
  cases h with
  | node c => exact hr.withNode c
  | enter ha => exact hr.enter ha
  | @converter c i j hi hj _ =>
    refine hr.withConverters ?_
    intro i' j' c' hc
    rw [Table.find?_insert] at hc
    split at hc
    · rename_i hk; cases hk; cases hc; exact ⟨hi, hj⟩
    · exact hr.converter hc
  | maker _ _ _ => exact hr.setMaker _ _
  | factory _ => exact hr.withFactory _

theorem Course.sound (hr : r.Sound) (h : Course ok r s) : s.Sound := by
  induction h with
  | refl => exact hr
  | tail _ hc ih => exact hc.sound ih

theorem Course.grows (hr : r.Sound) (h : Course ok r s) : Grows r s := by
  induction h with
  | refl => exact .refl r
  | tail hs hc ih => exact ih.trans (hc.grows (Course.sound hr hs))

theorem Change.mono (hok : ∀ r x, ok r x → ok' r x) (h : Change ok r s) : Change ok' r s := by
  cases h with
  | node c => exact .node r c
  | enter ha => exact .enter ha
  | converter hi hj h => exact .converter hi hj (hok _ _ h)
  | maker he hn h => exact .maker he hn (hok _ _ h)
  | factory h => exact .factory (hok _ _ h)

theorem Course.mono (hok : ∀ r x, ok r x → ok' r x) (h : Course ok r s) : Course ok' r s :=
  Relation.ReflTransGen.mono (fun _ _ => Change.mono hok) _ _ h

theorem Quiet.course (h : Quiet r s) : Course ok r s := Course.mono (fun _ _ hf => hf.elim) h

theorem Course.factories (hok : ∀ u id make, ¬ ok u (.factory id make)) (h : Course ok r s) :
    s.factories = r.factories := by
  induction h with
  | refl => rfl
  | @tail u _ _ hc ih =>
    cases hc with
    | @factory id make hf => exact absurd hf (hok u id make)
    | _ => exact ih

/-- A number without a factory never had one. -/
theorem Course.no_factory (h : Course ok r s) {id : TypeId} (hs : s.factories.find? id = none) :
    r.factories.find? id = none := by
  induction h with
  | refl => exact hs
  | @tail u _ _ hc ih =>
    cases hc with
    | @factory j make _ =>
      refine ih ?_
      rw [Table.find?_insert] at hs
      split at hs
      · cases hs
      · exact hs
    | _ => exact ih hs

theorem Quiet.factories (h : Quiet r s) : s.factories = r.factories := Course.factories (fun _ _ _ => id) h

theorem Quiet.converters (h : Quiet r s) : s.types.converters = r.types.converters := by
  induction h with
  | refl => rfl
  | tail _ hc ih =>
    cases hc with
    | converter _ _ hf => exact hf.elim
    | _ => exact ih

/-! ## Stored behaviour -/

theorem Change.stores (hok : ∀ {r s x}, Grows r s → ok r x → ok s x) (hr : r.Sound) (hst : Stores ok r)
    (h : Change ok r s) : Stores ok s := by
  have hg := h.grows hr
  cases h with
  | node c =>
    exact ⟨fun hc => hok hg (hst.converter hc), fun he hm => hok hg (hst.maker he hm),
      fun hf => hok hg (hst.factory hf)⟩
  | @enter e ha =>
    refine ⟨fun hc => hok hg (hst.converter hc), fun {id f make} hf hm => ?_, fun hf => hok hg (hst.factory hf)⟩
    simp only [TypeTable.entries_enter, Table.find?_insert] at hf
    split at hf
    · cases hf
      rcases ha.origin with ⟨-, hn⟩ | ⟨i, f, -, hf, -, he⟩
      · rw [hn] at hm; cases hm
      · have hmf : f.maker = some make := by rw [he] at hm; exact hm
        exact hok hg (hst.maker hf hmf)
    · exact hok hg (hst.maker hf hm)
  | @converter c i j hi hj hc =>
    refine ⟨fun {k d} hd => ?_, fun he hm => hok hg (hst.maker he hm), fun hf => hok hg (hst.factory hf)⟩
    simp only [Table.find?_insert] at hd
    split at hd
    · cases hd; exact hok hg hc
    · exact hok hg (hst.converter hd)
  | @maker _ _ n make _ _ hm =>
    refine ⟨fun hc => hok hg (hst.converter hc), fun {j f make'} hf hmf => ?_, fun hf => hok hg (hst.factory hf)⟩
    obtain ⟨e, he, -, -, -, hsame | ⟨hset, -⟩⟩ := find?_setMaker hf
    · exact hok hg (hst.maker he (hsame ▸ hmf))
    · rw [hset] at hmf; cases hmf; exact hok hg hm
  | @factory id make hf =>
    refine ⟨fun hc => hok hg (hst.converter hc), fun he hm => hok hg (hst.maker he hm), ?_⟩
    intro j make' hj
    simp only [Table.find?_insert] at hj
    split at hj
    · rename_i hid; cases hj; subst hid; exact hok hg hf
    · exact hok hg (hst.factory hj)

theorem Course.stores (hok : ∀ {r s x}, Grows r s → ok r x → ok s x) (hr : r.Sound) (hst : Stores ok r)
    (h : Course ok r s) : Stores ok s := by
  induction h with
  | refl => exact hst
  | tail hs hc ih => exact hc.stores hok (Course.sound hr hs) ih

end Registries

end Multimethod
