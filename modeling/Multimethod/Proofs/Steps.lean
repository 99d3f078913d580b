/-
  Multimethod.Proofs.Steps — what each step does to the registries and what it answers.

  Steps that are no registration are quiet: they make nodes and give out numbers, but no
  behaviour is registered (`IsQuiet`). A step that asks for the number of a type leaves
  the type with that number (`idOf_spec`, `typeId_spec`), and a box with a live object is
  described by a registered number of the node of the object's class (`describe_live`).
-/
import Multimethod.Proofs.Change
import Multimethod.Proofs.Traversal

namespace Multimethod

theorem Content.ty_ne_any (c : Content) : c.ty ≠ .any := by cases c <;> simp [Content.ty]

namespace Step

open Registries (Quiet Course)

variable {α β : Type} {w : World}

theorem bind_apply (s : Step α) (f : α → Step β) (w : World) : (s >>= f) w = f (s w).1 (s w).2 := rfl

theorem pure_apply (a : α) (w : World) : (pure a : Step α) w = (a, w) := rfl

theorem get_apply (w : World) : (get : Step World) w = (w, w) := rfl

theorem set_apply (v w : World) : (set v : Step PUnit) w = (.unit, v) := rfl

theorem note_apply (e : Event) (w : World) : note e w = (.unit, w.note e) := rfl

/-! ## Nodes -/

theorem registries_foldl_note (l : List ClassNode) (f : ClassNode → Event) (w : World) :
    (l.foldl (fun w m => w.note (f m)) w).registries = w.registries := by
  induction l generalizing w with
  | nil => rfl
  | cons m l ih => rw [List.foldl_cons, ih]; rfl

theorem registries_node (c : ClassDecl) (w : World) :
    (node c w).2.registries = { w.registries with classes := (ClassCache.node c w.registries.classes).2.2 } :=
  registries_foldl_note _ _ _

theorem find?_node (c : ClassDecl) (w : World) : (node c w).2.registries.classes.find? c = some (node c w).1 := by
  rw [registries_node]; exact ClassCache.find?_node_self c _

theorem node_of_cached {c : ClassDecl} {n : ClassNode} (h : w.registries.classes.find? c = some n) :
    node c w = (n, w) := by
  simp only [node, ClassCache.node_of_cached h, List.foldl_nil]; rfl

/-! ## Quiet steps -/

/-- From sound registries the step makes only changes that register no behaviour. -/
def IsQuiet (s : Step α) : Prop := ∀ w : World, w.registries.Sound → Quiet w.registries (s w).2.registries

theorem isQuiet_pure (a : α) : IsQuiet (pure a) := fun _ _ => .refl

theorem isQuiet_get : IsQuiet get := fun _ _ => .refl

theorem IsQuiet.bind {s : Step α} {f : α → Step β} (hs : IsQuiet s) (hf : ∀ a, IsQuiet (f a)) : IsQuiet (s >>= f) :=
  fun w hw => (hs w hw).trans (hf _ _ (Course.sound hw (hs w hw)))

theorem isQuiet_ite {p : Prop} [Decidable p] {s s' : Step α} (hs : IsQuiet s) (hs' : IsQuiet s') :
    IsQuiet (if p then s else s') := by
  split
  · exact hs
  · exact hs'

theorem isQuiet_note (e : Event) : IsQuiet (note e) := fun _ _ => .refl

theorem isQuiet_node (c : ClassDecl) : IsQuiet (node c) := fun w _ => by
  rw [registries_node]; exact .single (.node _ c)

theorem isQuiet_nodeOf (t : Ty) : IsQuiet (nodeOf t) := by
  unfold nodeOf
  split
  · exact (isQuiet_node _).bind fun _ => isQuiet_pure _
  · exact isQuiet_pure _

/-! ## Numbers -/

/-- Making the node of a type's class changes only the cache, which then has the node. -/
theorem nodeOf_spec (t : Ty) (w : World) :
    (nodeOf t w).2.registries.types = w.registries.types ∧
      (nodeOf t w).2.registries.NodeFits ⟨t, t.name, (nodeOf t w).1, none⟩ := by
  unfold nodeOf Registries.NodeFits
  cases h : t.cls? with
  | none => exact ⟨rfl, by simp [pure_apply]⟩
  | some c =>
    simp only [bind_apply, pure_apply]
    exact ⟨by rw [registries_node], _, find?_node c w, rfl⟩

theorem idOf_of_bound {t : Ty} {id : TypeId} (h : w.types.byType.find? t = some id) : idOf t w = (id, w) := by
  simp only [idOf, bind_apply, get_apply, h, pure_apply]

/-- A type without a number gets the next one, for an entry with the node of its class. -/
theorem idOf_of_new {t : Ty} (h : w.types.byType.find? t = none) :
    (idOf t w).1 = ⟨w.types.next⟩ ∧
      (idOf t w).2.registries = { (nodeOf t w).2.registries with
        types := (nodeOf t w).2.registries.types.enter ⟨t, t.name, (nodeOf t w).1, none⟩ } := by
  obtain ⟨htypes, -⟩ := nodeOf_spec t w
  have henter := TypeTable.bindType_allocate (t := w.types) (e := ⟨t, t.name, (nodeOf t w).1, none⟩) h
  simp only [idOf, bind_apply, get_apply, h, set_apply, note_apply, pure_apply, World.registries_note,
    World.registries_withTypes, htypes]
  exact ⟨rfl, by rw [← henter]; rfl⟩

theorem isQuiet_idOf (t : Ty) : IsQuiet (idOf t) := by
  intro w hw
  cases h : w.types.byType.find? t with
  | some id => rw [idOf_of_bound h]
  | none =>
    obtain ⟨htypes, hfit⟩ := nodeOf_spec t w
    have hnew := (idOf_of_new h).2
    refine (isQuiet_nodeOf t w hw).tail ?_
    rw [hnew]
    exact .enter ⟨hfit, .inl ⟨by rw [htypes]; exact h, rfl⟩⟩

theorem idOf_spec (t : Ty) (w : World) : (idOf t w).2.types.byType.find? t = some (idOf t w).1 := by
  cases h : w.types.byType.find? t with
  | some id => rw [idOf_of_bound h]; exact h
  | none =>
    obtain ⟨hid, hreg⟩ := idOf_of_new h
    have htypes := (nodeOf_spec t w).1
    rw [hid, World.types, hreg]
    simp [World.types, htypes, h]

theorem typeId_eq_idOf {t : Ty} (h : t ≠ .any) : typeId t = idOf t := by
  cases t <;> first | rfl | exact absurd rfl h

theorem typeId_spec (t : Ty) (w : World) : (typeId t w).2.types.Numbers t (typeId t w).1 := by
  by_cases h : t = .any
  · subst h; exact .inl ⟨rfl, rfl⟩
  · rw [typeId_eq_idOf h]; exact .inr ⟨h, idOf_spec t w⟩

theorem typeId_of_numbers {t : Ty} {id : TypeId} (h : w.types.Numbers t id) : typeId t w = (id, w) := by
  rcases h with ⟨rfl, rfl⟩ | ⟨hne, hb⟩
  · rfl
  · rw [typeId_eq_idOf hne]; exact idOf_of_bound hb

/-- A type with a number is described from the tables. -/
theorem descriptorOf_of_numbers {t : Ty} {id : TypeId} (h : w.types.Numbers t id) :
    descriptorOf t w = (w.types.descriptor id, w) := by
  simp only [descriptorOf, bind_apply, typeId_of_numbers h, get_apply, pure_apply]

theorem isQuiet_addAlias (t : Ty) (name : String) : IsQuiet (addAlias t name) := by
  intro w hw
  unfold addAlias
  by_cases he : name.isEmpty = true
  · simp only [he, if_true]; exact .refl
  · simp only [he, Bool.false_eq_true, if_false, bind_apply, get_apply]
    have hq := isQuiet_idOf t w hw
    refine hq.trans ?_
    have hsound := Course.sound hw hq
    have hb := idOf_spec t w
    generalize (idOf t w).1 = original at hb ⊢
    generalize (idOf t w).2 = v at hb hsound ⊢
    cases hn : v.types.byName.find? name with
    | some existing => exact isQuiet_ite (isQuiet_pure _) (isQuiet_pure _) v hsound
    | none =>
      obtain ⟨e, hf, rfl⟩ := hsound.entry_of_byType hb
      simp only [hf, bind_apply, set_apply, note_apply, pure_apply, World.registries_note, World.registries_withTypes]
      rw [TypeTable.allocate_of_bound (t := v.types) (e := { e with name := name }) hb]
      have hfit := hsound.node hf
      exact .single (.enter ⟨hfit, .inr ⟨original, e, hb, hf, hn, rfl⟩⟩)

theorem isQuiet_tick (c : Nat) : IsQuiet (tick c) := fun _ _ => .refl

theorem isQuiet_newCounter : IsQuiet newCounter := fun _ _ => .refl

theorem isQuiet_allocate (i : Instance) : IsQuiet (allocate i) := fun _ _ => .refl

/-- No step but a registration registers behaviour. -/
theorem closed_isQuiet : Closed fun _ s => IsQuiet s where
  pure := isQuiet_pure
  bind := IsQuiet.bind
  get := isQuiet_get
  note := isQuiet_note
  node := isQuiet_node
  idOf := isQuiet_idOf
  addAlias := isQuiet_addAlias
  newCounter := isQuiet_newCounter
  tick := isQuiet_tick
  allocate := isQuiet_allocate

theorem isQuiet_typeId (t : Ty) : IsQuiet (typeId t) := Closed.typeId closed_isQuiet t

theorem isQuiet_descriptorOf (t : Ty) : IsQuiet (descriptorOf t) := Closed.descriptorOf closed_isQuiet t

theorem isQuiet_highestId (n : ClassNode) : IsQuiet (highestId n) := Closed.highestId closed_isQuiet n

theorem isQuiet_ask (q : Query) : IsQuiet (ask q) := Closed.ask closed_isQuiet q

theorem isQuiet_pointTo (o : Object) (c : ClassDecl) : IsQuiet (pointTo o c) := Closed.pointTo closed_isQuiet o c

theorem isQuiet_cast (h : Handle) (c : ClassDecl) : IsQuiet (cast h c) := Closed.cast closed_isQuiet h c

theorem isQuiet_classOf (h : Handle) : IsQuiet (classOf h) := Closed.classOf closed_isQuiet h

theorem isQuiet_view (h : Handle) : IsQuiet (view h) := Closed.view closed_isQuiet h

theorem isQuiet_box (v : Value) : IsQuiet (box v) := Closed.box closed_isQuiet v

theorem isQuiet_describe (b : Box) : IsQuiet (describe b) := Closed.describe closed_isQuiet b

theorem isQuiet_mapM {f : α → Step β} (hf : ∀ a, IsQuiet (f a)) (l : List α) : IsQuiet (l.mapM f) :=
  Closed.mapM closed_isQuiet hf l

theorem isQuiet_typesOf (bs : List Box) : IsQuiet (typesOf bs) := Closed.typesOf closed_isQuiet bs

theorem isQuiet_canConvert (b : Box) (wanted : TypeId) : IsQuiet (canConvert b wanted) :=
  Closed.canConvert closed_isQuiet b wanted

theorem isQuiet_nullValue (id : TypeId) : IsQuiet (nullValue id) := Closed.nullValue closed_isQuiet id

/-! ## Boxes -/

/-- A content whose type has a number is boxed under that number. -/
theorem box_content {c : Content} {i : TypeId} (h : w.types.Numbers c.ty i) : box (.plain c) w = (.plain i c, w) := by
  simp only [box, bind_apply, typeId_of_numbers h, pure_apply]

theorem box_plain {c : Content} {i : TypeId} (hi : w.types.byType.find? c.ty = some i) :
    box (.plain c) w = (.plain i c, w) :=
  box_content (.inr ⟨c.ty_ne_any, hi⟩)

theorem box_pointer (h : Handle) (w : World) :
    box (.pointer h) w = (.object (typeId (.pointer h.cls) w).1 h.target, (typeId (.pointer h.cls) w).2) := rfl

/-- And so is a pointer. -/
theorem box_handle {h : Handle} {i : TypeId} (hi : w.types.Numbers (.pointer h.cls) i) :
    box (.pointer h) w = (.object i h.target, w) := by
  rw [box_pointer, typeId_of_numbers hi]

/-- The default value of a type with a number is always the same box. -/
theorem box_default (t : Ty) (i : TypeId) :
    ∃ b, ∀ {w : World}, w.types.byType.find? t = some i → box t.default w = (b, w) := by
  cases t with
  | void => exact ⟨.null, fun _ => rfl⟩
  | any => exact ⟨.null, fun _ => rfl⟩
  | pointer c =>
    refine ⟨.object i none, fun {w} h => ?_⟩
    have hn : w.types.Numbers (.pointer c) i := .inr ⟨by simp, h⟩
    exact box_handle hn
  | _ => exact ⟨_, fun h => box_plain h⟩

theorem nullValue_of_none {id : TypeId} (h : w.types.entries.find? id = none) : nullValue id w = (.null, w) := by
  simp only [nullValue, bind_apply, get_apply, h, pure_apply]

theorem nullValue_of_some {id : TypeId} {e : Entry} (h : w.types.entries.find? id = some e) :
    nullValue id w = box e.ty.default w := by
  simp only [nullValue, bind_apply, get_apply, h]

/-! ## Descriptions -/

/-- The highest number of a cached node is the greatest one of an entry with that node. -/
theorem highestId_spec (hw : w.registries.Sound) {c : ClassDecl} {n : ClassNode}
    (hn : w.registries.classes.find? c = some n) :
    (highestId n w).2.types.Last (fun e => e.node = some n) (highestId n w).1 := by
  have hid : highestId n w = (((idOf (.pointer n.decl) w).2.types.byClass.find? n.serial).getD
      (idOf (.pointer n.decl) w).1, (idOf (.pointer n.decl) w).2) := rfl
  rw [hid, hw.classes.decl hn]
  have hsound := Course.sound hw (isQuiet_idOf (.pointer c) w hw)
  have hn' := (Course.grows hw (isQuiet_idOf (.pointer c) w hw)).node hn
  have hb := idOf_spec (.pointer c) w
  generalize (idOf (.pointer c) w).2 = v at hsound hn' hb
  obtain ⟨e, he, hty⟩ := hsound.entry_of_byType hb
  have hnode : e.node = some n := by
    obtain ⟨m, hm, hem⟩ := hsound.node_of_pointer he hty
    cases hn'.symm.trans hm; exact hem
  obtain ⟨i, hi⟩ := hsound.ranked he hnode
  obtain ⟨⟨f, hf, hs⟩, hlast⟩ := hsound.last hi
  obtain ⟨m, hm, hmn⟩ := Option.map_eq_some_iff.mp hs
  obtain ⟨d, -, hd⟩ := hsound.pointer_of_node hf hm
  have hdc := hsound.classes.serial_inj hd hn' hmn
  rw [hdc, hn'] at hd
  simp only [hi, Option.getD_some]
  exact ⟨⟨f, hf, hm.trans hd.symm⟩, fun j g hg hgn => hlast j g hg (congrArg (Option.map ClassNode.serial) hgn)⟩

/-- A live object is described by its class's node and a registered number of that node. -/
theorem describe_live (hw : w.registries.Sound) (id : TypeId) (o : Object) :
    ∃ n e, (describe (.object id (some o)) w).2.registries.classes.find? o.cls = some n ∧
      (describe (.object id (some o)) w).2.types.entries.find? (describe (.object id (some o)) w).1.id = some e ∧
      e.node = some n ∧
      (describe (.object id (some o)) w).1 = ⟨(describe (.object id (some o)) w).1.id, e.name, some n⟩ := by
  have hsound := Course.sound hw (isQuiet_node o.cls w hw)
  have hn := find?_node o.cls w
  obtain ⟨⟨e, he, hnode⟩, -⟩ := highestId_spec hsound hn
  have hgrow := Course.grows hsound (isQuiet_highestId (node o.cls w).1 _ hsound)
  have hsound' := Course.sound hsound (isQuiet_highestId (node o.cls w).1 _ hsound)
  refine ⟨_, e, hgrow.node hn, he, hnode, ?_⟩
  have hdesc : (highestId (node o.cls w).1 (node o.cls w).2).2.types.descriptor
      (highestId (node o.cls w).1 (node o.cls w).2).1 = ⟨_, e.name, e.node⟩ := hsound'.descriptor he
  simp only [describe, bind_apply, get_apply, pure_apply, hdesc]

/-- A box is described as the number that its description bears. -/
theorem describe_eq_descriptor (hw : w.registries.Sound) (b : Box) :
    (describe b w).1 = (describe b w).2.types.descriptor (describe b w).1.id := by
  have hsound := Course.sound hw (isQuiet_describe b w hw)
  cases b with
  | null => rfl
  | plain id c => exact (TypeTable.descriptor_id _ _).symm ▸ rfl
  | object id target =>
    cases target with
    | none => exact (TypeTable.descriptor_id _ _).symm ▸ rfl
    | some o =>
      obtain ⟨n, e, -, he, hnode, hd⟩ := describe_live hw id o
      rw [hsound.descriptor he, hnode]; exact hd

/-! ## Registrations -/

section Registrations

variable {ok : Registries → Registration → Prop}

theorem course_addConverter {c : Converter} (hw : w.registries.Sound)
    (hok : ∀ {r}, Registries.Grows w.registries r → ok r (.converter c)) :
    Course ok w.registries (addConverter c w).2.registries := by
  have hs := isQuiet_typeId c.source w hw
  have hsound := Course.sound hw hs
  have ht := isQuiet_typeId c.target (typeId c.source w).2 hsound
  have hnum := (Course.grows hsound ht).numbers (typeId_spec c.source w)
  have hgrow := (Course.grows hw hs).trans (Course.grows hsound ht)
  refine (hs.course.trans ht.course).tail ?_
  exact .converter hnum (typeId_spec c.target _) (hok hgrow)

theorem setMaker_of_some {id : TypeId} {n : ClassNode} (h : (w.types.entries.find? id).bind Entry.node = some n)
    (make : Script) :
    setMaker id make w = (true, (w.withTypes (w.types.setMaker n make)).note (.classOptedIn n.name)) := by
  simp only [setMaker, bind_apply, get_apply, h, set_apply, note_apply, pure_apply]

theorem setMaker_of_none {id : TypeId} (h : (w.types.entries.find? id).bind Entry.node = none) (make : Script) :
    setMaker id make w = (false, w) := by
  simp only [setMaker, bind_apply, get_apply, h, pure_apply]

theorem course_setMaker {id : TypeId} {make : Script} (hok : ok w.registries (.maker make)) :
    Course ok w.registries (setMaker id make w).2.registries := by
  cases hn : (w.types.entries.find? id).bind Entry.node with
  | none => rw [setMaker_of_none hn]
  | some n =>
    rw [setMaker_of_some hn]
    obtain ⟨e, he, hen⟩ := Option.bind_eq_some_iff.mp hn
    exact .single (.maker he hen hok)

theorem byType_setMaker (id : TypeId) (make : Script) (w : World) :
    (setMaker id make w).2.types.byType = w.types.byType := by
  cases hn : (w.types.entries.find? id).bind Entry.node with
  | none => rw [setMaker_of_none hn]
  | some n => rw [setMaker_of_some hn]; rfl

theorem course_addFactory {id : TypeId} {make : Script} (hok : ok w.registries (.factory id make)) :
    Course ok w.registries (addFactory id make w).2.registries := .single (.factory hok)

theorem course_addFactoryFor {t : Ty} {make : Script} (hw : w.registries.Sound)
    (hok : ∀ {r id}, Registries.Grows w.registries r → r.types.Numbers t id → ok r (.factory id make)) :
    Course ok w.registries (addFactoryFor t make w).2.registries := by
  have ht := isQuiet_typeId t w hw
  exact ht.course.trans (course_addFactory (hok (Course.grows hw ht) (typeId_spec t w)))

theorem course_registerClass {c : ClassDecl} (hw : w.registries.Sound)
    (hmaker : ∀ {r}, Registries.Grows w.registries r → ok r (.maker (.newObject (Instance.initial c))))
    (hfactory : ∀ {r id}, Registries.Grows w.registries r → r.types.Numbers (.pointer c) id →
      ok r (.factory id (.newObject (Instance.initial c)))) :
    Course ok w.registries (registerClass c w).2.registries := by
  have ht := isQuiet_typeId (.pointer c) w hw
  have hsound := Course.sound hw ht
  have hgrow := Course.grows hw ht
  have hm : Course ok (typeId (.pointer c) w).2.registries
      (setMaker (typeId (.pointer c) w).1 _ (typeId (.pointer c) w).2).2.registries := course_setMaker (hmaker hgrow)
  have hgrow' := Course.grows hsound hm
  have hnum := hgrow'.numbers (typeId_spec (.pointer c) w)
  exact (ht.course.trans hm).trans (course_addFactory (hfactory (hgrow.trans hgrow') hnum))

/-- A class is registered by setting its maker and the factory for its number to make new objects. -/
theorem registries_registerClass (hw : w.registries.Sound) (c : ClassDecl) :
    ∃ n, (typeId (.pointer c) w).2.registries.classes.find? c = some n ∧
      (registerClass c w).2.registries = { (typeId (.pointer c) w).2.registries with
        types := (typeId (.pointer c) w).2.types.setMaker n (.newObject (Instance.initial c))
        factories := (typeId (.pointer c) w).2.registries.factories.insert (typeId (.pointer c) w).1
          (.newObject (Instance.initial c)) } := by
  have hsound := Course.sound hw (isQuiet_typeId (.pointer c) w hw)
  have hb := idOf_spec (.pointer c) w
  obtain ⟨e, he, hty⟩ := hsound.entry_of_byType hb
  obtain ⟨n, hn, hen⟩ := hsound.node_of_pointer he hty
  have hnode : ((typeId (.pointer c) w).2.types.entries.find? (typeId (.pointer c) w).1).bind Entry.node = some n :=
    Option.bind_eq_some_iff.mpr ⟨e, he, hen⟩
  refine ⟨n, hn, ?_⟩
  show (addFactory (typeId (.pointer c) w).1 (.newObject (Instance.initial c))
    (setMaker (typeId (.pointer c) w).1 (.newObject (Instance.initial c)) (typeId (.pointer c) w).2).2).2.registries = _
  rw [setMaker_of_some hnode]; rfl

theorem registerClass_spec (c : ClassDecl) (w : World) :
    (registerClass c w).2.types.Numbers (.pointer c) (registerClass c w).1 := by
  have hb : (registerClass c w).2.types.byType = (typeId (.pointer c) w).2.types.byType := byType_setMaker _ _ _
  have hn := typeId_spec (.pointer c) w
  unfold TypeTable.Numbers at hn ⊢
  rw [hb]; exact hn

end Registrations

end Step

end Multimethod
