/-
  Multimethod.Proofs.Instances — a class that is registered makes objects under all its numbers.

  Registering a class sets the maker for all numbers of it and a factory for the first one.
  Whatever types, aliases, converters and other classes are registered afterwards, both
  stay (`Registers.opted`), so each number of the class makes a new object as declared
  (`Opted.create`). The object passes for every class of the chain, and the number is listed
  under each of them (`Opted.listed`), for between classes the test never asks a factory. A
  class that did not opt in makes pointers to nothing, whatever its neighbours do
  (`World.Reached.create_nowhere`).
-/
import Multimethod.Proofs.Aliases
import Multimethod.Proofs.Identity
import Multimethod.Proofs.Makers

namespace Multimethod

open Registries (Grows Course)

namespace World

/-- `v` comes after `w` by registrations of types, aliases, converters and classes other than `c`. -/
inductive Registers (c : ClassDecl) (w : World) : World → Prop
  | refl : Registers c w w
  | type {u : World} (h : Registers c w u) (t : Ty) : Registers c w (Step.idOf t u).2
  | synonym {u : World} (h : Registers c w u) (t : Ty) (name : String) : Registers c w (Step.addAlias t name u).2
  | converter {u : World} (h : Registers c w u) (k : Converter) : Registers c w (Step.addConverter k u).2
  | cls {u : World} (h : Registers c w u) {d : ClassDecl} (hd : d ≠ c) : Registers c w (Step.registerClass d u).2

/-- Under the number `id` the class `c` makes live objects: new ones as declared, which convert to
    the pointer types of all classes on the chain and are read as pointers of these; and the
    number is listed for each of these types. -/
structure Instantiates (v : World) (c : ClassDecl) (id : TypeId) : Prop where
  made : ∃ i o u, (∀ depth, (Run.create id).atDepth (depth + 1) v = some (.object i (some o), u)) ∧
    o.cls = c ∧ o.body = Instance.initial c ∧
    ∀ k ∈ c.chain,
      (∀ x, (Step.describe (.object i (some o)) u).2.Leads x → ∀ depth,
        (Run.isConvertible (Step.describe (.object i (some o)) u).1 (Step.descriptorOf (.pointer k) x).1).atDepth depth
          (Step.descriptorOf (.pointer k) x).2 = some (true, (Step.descriptorOf (.pointer k) x).2)) ∧
      ∀ x, u.Leads x → ∀ depth, ((Run.readOr (.object i (some o)) (.pointer k)).atDepth depth x).map Prod.fst =
        some (.pointer ⟨k, some o⟩)
  listed : ∀ k ∈ c.chain, ∀ x, v.Leads x →
    (∀ depth found y, (Run.listTypes (some (Step.descriptorOf (.pointer k) x).1)).atDepth depth
      (Step.descriptorOf (.pointer k) x).2 = some (found, y) → id ∈ found) ∧
    ((Step.descriptorOf (.pointer k) x).2.FactoriesEnd → ∃ depth found y,
      (Run.listTypes (some (Step.descriptorOf (.pointer k) x).1)).atDepth depth
        (Step.descriptorOf (.pointer k) x).2 = some (found, y))

/-- The class, whose first number is `i`, makes new objects as declared. -/
structure Opted (v : World) (c : ClassDecl) (i : TypeId) : Prop where
  reached : v.Reached
  number : v.types.byType.find? (.pointer c) = some i
  shares : v.registries.Shares c (some (.newObject (Instance.initial c)))
  factory : v.registries.factories.find? i = some (.newObject (Instance.initial c))

/-! ## Registrations -/

section

variable {w : World}

/-- What registering a class leaves to the numbers of classes. -/
theorem Reached.shares_registerClass (hw : w.Reached) (d : ClassDecl) {k : ClassDecl} {m : Option Script}
    (hm : w.registries.Shares k m) :
    (Step.registerClass d w).2.registries.Shares k
      (if k = d then some (.newObject (Instance.initial d)) else m) := by
  have hquiet := Step.isQuiet_typeId (.pointer d) w hw.sound
  have hsound := Course.sound hw.sound hquiet
  obtain ⟨n, hn, hregs⟩ := Step.registries_registerClass hw.sound d
  have hshares := (hm.kept hw.sound (fun _ _ => id) hquiet).setMaker hsound hn (Step.idOf_spec (.pointer d) w)
    (.newObject (Instance.initial d))
  rw [hregs]
  exact ⟨hshares.entry, hshares.unbound⟩

/-- Only the class's number gets a factory. -/
theorem Reached.factories_registerClass (hw : w.Reached) (d : ClassDecl) (j : TypeId) :
    (Step.registerClass d w).2.registries.factories.find? j =
      if (Step.registerClass d w).1 = j then some (.newObject (Instance.initial d))
      else w.registries.factories.find? j := by
  obtain ⟨n, -, hregs⟩ := Step.registries_registerClass hw.sound d
  rw [hregs, Table.find?_insert, (Step.isQuiet_typeId (.pointer d) w hw.sound).factories]; rfl

theorem byType_registerClass (c : ClassDecl) (w : World) :
    (Step.registerClass c w).2.types.byType.find? (.pointer c) = some (Step.registerClass c w).1 := by
  rcases Step.registerClass_spec c w with ⟨hany, -⟩ | ⟨-, hb⟩
  · cases hany
  · exact hb

theorem Reached.opted_registerClass (hw : w.Reached) (c : ClassDecl) :
    (Step.registerClass c w).2.Opted c (Step.registerClass c w).1 := by
  obtain ⟨m, hm, -⟩ := hw.shares c
  have hshares := hw.shares_registerClass c hm
  rw [if_pos rfl] at hshares
  refine ⟨hw.leads (.registerClass w c), byType_registerClass c w, hshares, ?_⟩
  rw [hw.factories_registerClass, if_pos rfl]

/-- Where neither a maker nor a factory is registered, a class that opted in stays as it is. -/
theorem Opted.course {v : World} {c : ClassDecl} {i : TypeId} {ok : Registries → Registration → Prop}
    (h : w.Opted c i) (hv : w.Leads v) (hmaker : ∀ r make, ¬ ok r (.maker make))
    (hfactory : ∀ r id make, ¬ ok r (.factory id make)) (hc : Course ok w.registries v.registries) : v.Opted c i where
  reached := h.reached.leads hv
  number := (Leads.grows h.reached hv).byType h.number
  shares := h.shares.kept h.reached.sound hmaker hc
  factory := by rw [Course.factories hfactory hc]; exact h.factory

/-- So it does where another class is registered. -/
theorem Opted.registerClass {c d : ClassDecl} {i : TypeId} (h : w.Opted c i) (hd : d ≠ c) :
    (Step.registerClass d w).2.Opted c i := by
  have hlead := Leads.registerClass w d
  have hv := h.reached.leads hlead
  have hnumber := (Leads.grows h.reached hlead).byType h.number
  have hshares := h.reached.shares_registerClass d h.shares
  rw [if_neg hd.symm] at hshares
  refine ⟨hv, hnumber, hshares, ?_⟩
  have hne : (Step.registerClass d w).1 ≠ i := fun he => by
    have hty := hv.sound.ty_unique (byType_registerClass d w) (he ▸ hnumber)
    exact hd (Ty.pointer.inj hty)
  rw [h.reached.factories_registerClass, if_neg hne]
  exact h.factory

theorem Registers.opted {v : World} {c : ClassDecl} {i : TypeId} (hv : w.Registers c v) (h : w.Opted c i) :
    v.Opted c i := by
  induction hv with
  | refl => exact h
  | @type u _ t ih =>
    exact ih.course (.idOf u t) (fun _ _ => id) (fun _ _ _ => id) (Step.isQuiet_idOf t u ih.reached.sound)
  | @synonym u _ t name ih =>
    exact ih.course (.addAlias u t name) (fun _ _ => id) (fun _ _ _ => id)
      (Step.isQuiet_addAlias t name u ih.reached.sound)
  | @converter u _ k ih =>
    have hc : Course (fun _ x => x = .converter k) u.registries (Step.addConverter k u).2.registries :=
      Step.course_addConverter ih.reached.sound fun _ => rfl
    exact ih.course (.addConverter u k) (fun _ _ => (by simp)) (fun _ _ _ => (by simp)) hc
  | cls _ hd ih => exact ih.registerClass hd

end

/-! ## Creation -/

section

variable {v : World} {c k : ClassDecl} {i id : TypeId}

/-- A new object is made, boxed under the number of its class, and nothing else happens. -/
theorem callBoxed_newObject (h : v.types.byType.find? (.pointer c) = some i) (depth : Nat) :
    Run.callBoxed (.newObject (Instance.initial c)) (Script.run (depth + 1)) v =
      some (.object i (some ⟨v.objects, Instance.initial c⟩), { v with objects := v.objects + 1 }) := by
  have hcls : (Instance.initial c).cls = c := Instance.cls_ofNumbers c []
  have hnumber : ({ v with objects := v.objects + 1 } : World).types.Numbers (.pointer c) i := .inr ⟨by simp, h⟩
  have hbox := Step.box_handle (h := ⟨c, some ⟨v.objects, Instance.initial c⟩⟩) hnumber
  show some (Step.box (.pointer ⟨(Instance.initial c).cls, some ⟨v.objects, Instance.initial c⟩⟩)
    { v with objects := v.objects + 1 }) = _
  rw [hcls, hbox]

/-- A number of a class that opted in makes a new object, by its factory or by default. -/
theorem Opted.create (h : v.Opted c i) (hid : v.types.StandsFor id (.pointer c))
    (hf : v.registries.factories.find? id = none ∨ id = i) (depth : Nat) :
    (Run.create id).atDepth (depth + 1) v =
      some (.object i (some ⟨v.objects, Instance.initial c⟩), { v with objects := v.objects + 1 }) := by
  have hcreate : Run.create id (Script.run (depth + 1)) v =
      Run.callBoxed (.newObject (Instance.initial c)) (Script.run (depth + 1)) v := by
    rcases hf with hf | rfl
    · obtain ⟨e, he, hk⟩ := Option.map_eq_some_iff.mp hid
      rw [Run.create_of_no_factory hf, Run.defaultValue_of_maker]
      rw [he]; exact h.shares.entry he hk
    · exact Run.create_of_factory h.factory
  exact hcreate.trans (callBoxed_newObject h.number depth)

/-- A number of a class that did not opt in, without a factory, makes a pointer to nothing. -/
theorem Reached.create_nowhere (hv : v.Reached) (hk : ¬ Registries.OptsIn k fresh.registries v.registries)
    (hid : v.types.StandsFor id (.pointer k)) (hf : v.registries.factories.find? id = none) :
    ∃ i, v.types.StandsFor i (.pointer k) ∧ ∀ depth, (Run.create id).atDepth depth v = some (.object i none, v) := by
  have hnone : (v.types.entries.find? id).bind Entry.maker = none := by
    refine Option.eq_none_iff_forall_ne_some.mpr fun make hmake => hk ((hv.hasMaker_iff hid).mp ?_)
    rw [TypeTable.hasMaker, hmake]; rfl
  obtain ⟨e, he, hty⟩ := Option.map_eq_some_iff.mp hid
  obtain ⟨i, hi⟩ := hv.sound.bound he
  rw [hty] at hi
  have hnumber : v.types.Numbers (.pointer k) i := .inr ⟨by simp, hi⟩
  refine ⟨i, hv.sound.standsFor_of_numbers hnumber (by simp), fun depth => ?_⟩
  refine (Run.create_of_none hf hnone).trans ?_
  rw [Step.nullValue_of_some he, hty]
  exact congrArg some (Step.box_handle (h := Handle.null k) hnumber)

end

/-! ## Passing for the classes of the chain -/

section

variable {v : World} {c k : ClassDecl} {i id : TypeId}

/-- The description of a class's pointer type has the node of the class. -/
theorem Reached.node_ofType (hv : v.Reached) {p : Descriptor} (hp : v.registries.OfType (.pointer k) p) :
    p.id ≠ TypeId.map ∧ ∃ m, v.registries.classes.find? k = some m ∧ p.node = some m := by
  obtain ⟨j, e, -, he, hty, rfl⟩ := hp.entry hv.sound (by simp)
  obtain ⟨m, hm, hem⟩ := hv.sound.node_of_pointer he hty
  refine ⟨?_, m, hm, hem⟩
  rintro rfl
  rw [hv.map_node he] at hem; cases hem

/-- What has the node of a class converts to the pointer types of the classes on its chain, in any
    world. -/
theorem Reached.isConvertible_chain (hv : v.Reached) {a p : Descriptor} {n : ClassNode}
    (hn : v.registries.classes.find? c = some n) (ha : a.node = some n)
    (hp : v.registries.OfType (.pointer k) p) (hk : k ∈ c.chain) (caller : Caller) (x : World) :
    Run.isConvertible a p caller x = some (true, x) := by
  obtain ⟨hmap, m, hm, hpm⟩ := hv.node_ofType hp
  obtain ⟨ans, hrun, hans⟩ := Run.isConvertible_class a p ha
  have htrue : ans = true := hans.mpr (.inr (.inr ⟨hmap, m, hpm, (hv.sound.classes.inherits_iff hn hm).mpr hk⟩))
  rw [hrun, htrue]

/-- The description of an object converts, at any later time, to the classes on the chain of the
    object's own class. -/
theorem Reached.isConvertible_live (hv : v.Reached) (i : TypeId) (o : Object) (hk : k ∈ o.cls.chain) {u : World}
    (hu : (Step.describe (.object i (some o)) v).2.Leads u) {p : Descriptor} (hp : u.registries.OfType (.pointer k) p)
    (caller : Caller) (x : World) :
    Run.isConvertible (Step.describe (.object i (some o)) v).1 p caller x = some (true, x) := by
  have hown := hv.leads (.describe v (.object i (some o)))
  obtain ⟨n, e, hn, -, -, hd⟩ := Step.describe_live hv.sound i o
  exact (hown.leads hu).isConvertible_chain ((Leads.grows hown hu).node hn) (congrArg Descriptor.node hd) hp hk caller x

/-- A number of a class is none of the builtin types'. -/
theorem Reached.isUser_pointer (hv : v.Reached) (hid : v.types.StandsFor id (.pointer k)) : id.isUser = true := by
  obtain ⟨e, he, hty⟩ := Option.map_eq_some_iff.mp hid
  rcases hv.sound.registered_iff.mp ⟨e, he⟩ with hlow | hhigh
  · obtain ⟨f, hf⟩ := Registries.sound_fresh.registered_iff.mpr (.inl hlow)
    obtain ⟨g, hg, hgty, -⟩ := (Leads.grows .refl hv).entry hf
    obtain ⟨cs, hfresh, -⟩ := Registries.fresh_types
    rw [hfresh] at hf
    obtain ⟨p, hp, -, rfl⟩ := Registries.builtin_entry hf
    have hnone : ∀ p ∈ TypeTable.numberedBuiltins, p.2.cls? = none := by decide
    cases he.symm.trans hg
    have hcls := hnone p hp
    have hpty : p.2 = .pointer k := hgty.symm.trans hty
    rw [hpty] at hcls; cases hcls
  · exact decide_eq_true hhigh.1

/-- Which numbers are listed is asked of each with the description it has. -/
theorem Reached.mem_listTypes (hv : v.Reached) {p : Descriptor} (hid : v.types.entries.contains id = true)
    (huser : id.isUser = true) (hyes : ∀ caller x, Run.isConvertible (v.types.descriptor id) p caller x = some (true, x))
    {depth : Nat} {found : List TypeId} {y : World}
    (h : (Run.listTypes (some p)).atDepth depth v = some (found, y)) : id ∈ found := by
  obtain ⟨_, hsession⟩ := Leads.session hv []
  obtain ⟨_, _, hget, hselect⟩ := Run.bind_eq_some.mp h
  cases hget
  have hin : id ∈ v.types.userTypes := List.mem_filter.mpr ⟨(Table.mem_keys_iff _ _).mpr hid, huser⟩
  obtain ⟨-, hasked⟩ := Run.asked_select
    (fun hw => .after hw Step.isQuiet_get fun hw _ => Run.ensures_isConvertible (Run.keeps_run .free depth) hw _ p)
    hsession.good.1 hselect
  rcases hasked id hin with hfound | ⟨u, u', hu, htest, -⟩
  · exact hfound
  · obtain ⟨e, he⟩ := (Table.contains_iff _ _).mp hid
    obtain ⟨_, _, hget, htest⟩ := Run.bind_eq_some.mp htest
    cases hget
    rw [(Course.grows hv.sound hu).descriptor he] at htest
    cases (hyes _ _).symm.trans htest

/-- A number of a class is listed under the classes on the chain. -/
theorem Reached.mem_listTypes_chain (hv : v.Reached) (hid : v.types.StandsFor id (.pointer c)) (hk : k ∈ c.chain)
    {p : Descriptor} (hp : v.registries.OfType (.pointer k) p) {depth : Nat} {found : List TypeId} {y : World}
    (h : (Run.listTypes (some p)).atDepth depth v = some (found, y)) : id ∈ found := by
  obtain ⟨e, he, hty⟩ := Option.map_eq_some_iff.mp hid
  obtain ⟨n, hn, hen⟩ := hv.sound.node_of_pointer he hty
  have hnode : (v.types.descriptor id).node = some n := by rw [hv.sound.descriptor he]; exact hen
  exact hv.mem_listTypes ((Table.contains_iff _ _).mpr ⟨e, he⟩) (hv.isUser_pointer hid)
    (hv.isConvertible_chain hn hnode hp hk) h

/-- Where factories end, so does a listing. -/
theorem Reached.exists_listTypes (hv : v.Reached) (hf : v.FactoriesEnd) (p : Descriptor) :
    ∃ depth found y, (Run.listTypes (some p)).atDepth depth v = some (found, y) := by
  have hl : ∀ id ∈ v.types.userTypes, ∀ u : World,
      (u.Reached ∧ u.FactoriesEnd ∧ Grows v.registries u.registries) →
      ∃ depth ans x, (Run.ofStep get >>= fun w : World => Run.isConvertible (w.types.descriptor id) p)
          (Script.run depth) u = some (ans, x) ∧ (x.Reached ∧ x.FactoriesEnd ∧ Grows v.registries x.registries) := by
    rintro id hid u ⟨hu, hends, hgrow⟩
    have hcontains := (Table.mem_keys_iff _ _).mp (List.mem_filter.mp hid).1
    obtain ⟨depth, ans, x, hans, hx⟩ :=
      Run.exists_isConvertible hu hends (hu.describes (hgrow.contains hcontains)) p
    exact ⟨depth, ans, x, Run.bind_eq_some.mpr ⟨u, u, rfl, hans⟩, hu.leads hx.leads, hends.tests hx,
      hgrow.trans (Leads.grows hu hx.leads)⟩
  obtain ⟨depth, found, y, hselect⟩ := Run.exists_select
    (fun id => (Run.monotone_step _).bind fun w : World => Run.monotone_isConvertible (w.types.descriptor id) p) hl
    ⟨hv, hf, .refl _⟩
  exact ⟨depth, found, y, Run.bind_eq_some.mpr ⟨v, v, rfl, hselect⟩⟩

theorem Opted.instantiates (h : v.Opted c i) (hid : v.types.StandsFor id (.pointer c))
    (hf : v.registries.factories.find? id = none ∨ id = i) : v.Instantiates c id := by
  let o : Object := ⟨v.objects, Instance.initial c⟩
  have hcls : o.cls = c := Instance.cls_ofNumbers c []
  constructor
  · have hu : v.Leads { v with objects := v.objects + 1 } := .step .refl (.act (.create id)) 1
      (Run.bind_eq_some.mpr ⟨_, _, h.create hid hf 0, rfl⟩)
    have hur := h.reached.leads hu
    refine ⟨i, o, _, h.create hid hf, hcls, rfl, fun k hk => ⟨fun x hx depth => ?_, fun x hx depth => ?_⟩⟩
    · exact hur.isConvertible_live i o (hcls ▸ hk) (hx.trans (.descriptorOf x (.pointer k)))
        (Step.ofType_descriptorOf (.pointer k) x) _ _
    · have hread := Run.readOr_live (hur.leads hx).sound i o k (Script.run depth)
      rw [hcls, if_pos hk] at hread
      exact hread
  · intro k hk x hx
    have hxp : v.Leads (Step.descriptorOf (.pointer k) x).2 := hx.trans (.descriptorOf x (.pointer k))
    have hy := h.reached.leads hxp
    refine ⟨fun depth found y hlist => ?_, fun hends => hy.exists_listTypes hends _⟩
    exact hy.mem_listTypes_chain ((Leads.grows h.reached hxp).standsFor hid) hk
      (Step.ofType_descriptorOf (.pointer k) x) hlist

end

/-- After a class was registered, and types, aliases, converters and other classes were registered
    in any order, each number of the class makes live objects of it and is listed under each
    class of its chain, but for further numbers that got a factory; and each number without a
    factory, of a class that never opted in, makes a pointer to nothing. -/
theorem Reached.instances {w v : World} (hw : w.Reached) {c : ClassDecl}
    (hv : (Step.registerClass c w).2.Registers c v) :
    (∀ id, v.types.StandsFor id (.pointer c) →
      (v.registries.factories.find? id = none ∨ id = (Step.registerClass c w).1) → v.Instantiates c id) ∧
    ∀ k, ¬ Registries.OptsIn k fresh.registries v.registries → ∀ id, v.types.StandsFor id (.pointer k) →
      v.registries.factories.find? id = none →
      ∃ i, v.types.StandsFor i (.pointer k) ∧ ∀ depth, (Run.create id).atDepth depth v = some (.object i none, v) := by
  have hopted := hv.opted (hw.opted_registerClass c)
  exact ⟨fun id hid hf => hopted.instantiates hid hf, fun k hk id hid hf => hopted.reached.create_nowhere hk hid hf⟩

/-- Dogs get a second number before they are registered and a third one after that, and cats are
    registered too. All three numbers make live dogs, the third is listed under animals, and
    the number of animals makes a pointer to nothing. -/
theorem Reached.instances_renamed :
    let animal : ClassDecl := .root ⟨"Animal", 0, 4⟩
    let dog : ClassDecl := .derived ⟨"Dog", 0, 40⟩ animal
    let cat : ClassDecl := .derived ⟨"Cat", 0, 9⟩ animal
    let w := (Step.addAlias (.pointer dog) "Hound" fresh).2
    let u := (Step.addAlias (.pointer dog) "Puppy" (Step.registerClass dog w).2).2
    let v := (Step.registerClass cat (Step.idOf (.pointer animal) u).2).2
    w.Reached ∧ (Step.registerClass dog w).2.Registers dog v ∧
      (∀ id, id = ⟨1024⟩ ∨ id = ⟨1025⟩ ∨ id = ⟨1026⟩ → v.Instantiates dog id) ∧
      (∃ depth found y, (Run.listTypes (some (Step.descriptorOf (.pointer animal) v).1)).atDepth depth
        (Step.descriptorOf (.pointer animal) v).2 = some (found, y) ∧ ⟨1026⟩ ∈ found) ∧
      ∃ i, ∀ depth, (Run.create ⟨1027⟩).atDepth depth v = some (.object i none, v) := by
  intro animal dog cat w u v
  have hw : w.Reached := .addAlias fresh (.pointer dog) "Hound"
  have hv : (Step.registerClass dog w).2.Registers dog v :=
    ((Registers.refl.synonym (.pointer dog) "Puppy").type (.pointer animal)).cls (by decide)
  obtain ⟨hlive, hnowhere⟩ := Reached.instances hw hv
  have hdog : ∀ id, id = ⟨1024⟩ ∨ id = ⟨1025⟩ ∨ id = ⟨1026⟩ → v.Instantiates dog id := by
    have hnumbers : ∀ n ∈ [1024, 1025, 1026], (v.types.entries.find? ⟨n⟩).map Entry.ty = some (.pointer dog) ∧
        ((v.registries.factories.find? ⟨n⟩).isNone = true ∨ (Step.registerClass dog w).1 = ⟨n⟩) := by
      simp only [v, u, w, fresh_eq]
      decide
    have live : ∀ n ∈ [1024, 1025, 1026], v.Instantiates dog ⟨n⟩ := fun n hn =>
      hlive ⟨n⟩ (hnumbers n hn).1 ((hnumbers n hn).2.imp Option.isNone_iff_eq_none.mp Eq.symm)
    rintro id (rfl | rfl | rfl)
    · exact live 1024 (by simp)
    · exact live 1025 (by simp)
    · exact live 1026 (by simp)
  have hanimal : v.types.StandsFor ⟨1027⟩ (.pointer animal) := by
    simp only [v, u, w, fresh_eq, TypeTable.StandsFor]
    decide
  have hv' : v.Reached := (hv.opted (hw.opted_registerClass dog)).reached
  have hnever : ¬ Registries.OptsIn animal fresh.registries v.registries := by
    rw [← hv'.hasMaker_iff hanimal]
    simp only [v, u, w, fresh_eq]
    decide
  have hends : ((Run.listTypes (some (Step.descriptorOf (.pointer animal) v).1)).atDepth 1
      (Step.descriptorOf (.pointer animal) v).2).isSome = true := by
    simp only [v, u, w, fresh_eq]
    decide
  obtain ⟨⟨found, y⟩, hlist⟩ := Option.isSome_iff_exists.mp hends
  obtain ⟨hmem, -⟩ := (hdog ⟨1026⟩ (by simp)).listed animal (by decide) v .refl
  obtain ⟨i, -, hcreate⟩ := hnowhere animal hnever ⟨1027⟩ hanimal (Option.isNone_iff_eq_none.mp
    (by simp only [v, u, w, fresh_eq]; decide))
  exact ⟨hw, hv, hdog, ⟨1, found, y, hlist, hmem 1 found y hlist⟩, i, hcreate⟩

end World

end Multimethod
