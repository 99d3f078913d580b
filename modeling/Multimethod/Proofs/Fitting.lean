/-
  Multimethod.Proofs.Fitting — the number in a box fits what the box holds.

  A box that holds a content carries the number of the content's type, at every depth of
  it; a box with a pointer carries a registered number of a class pointer type, and its
  object is of a class derived from that class (`Box.Fits`). The object's own class has its
  node then: a pointer gets another static class only by a cast, which makes the nodes of
  both classes. Boxing, casting and converting give only such boxes, and what is
  `Value.From` fitting values fits.
-/
import Multimethod.Proofs.Program
import Multimethod.Proofs.Steps

namespace Multimethod

open Registries (Grows Course)

variable {r s : Registries}

/-- The class has a node. -/
def Registries.Knows (r : Registries) (c : ClassDecl) : Prop := ∃ n, r.classes.find? c = some n

theorem Registries.Knows.mono (h : Grows r s) {c : ClassDecl} (hc : r.Knows c) : s.Knows c :=
  hc.imp fun _ => h.node

/-- The number in the box, and in the boxes inside it, fits what the box holds; the class of an
    object in a box has a node. -/
inductive Box.Fits (r : Registries) : Box → Prop
  | null : Fits r .null
  | plain {id : TypeId} {c : Content} (hid : r.types.byType.find? c.ty = some id)
      (hin : ∀ b ∈ c.boxes, Fits r b) : Fits r (.plain id c)
  | object {id : TypeId} {e : Entry} {k : ClassDecl} {target : Option Object}
      (he : r.types.entries.find? id = some e) (hk : e.ty = .pointer k)
      (hlive : ∀ o, target = some o → k ∈ o.cls.chain ∧ r.Knows o.cls) : Fits r (.object id target)

/-- The boxes inside the value fit; the object of a pointer is of the pointer's class, or of one
    derived from it that has a node. -/
def Value.Fits (r : Registries) : Value → Prop
  | .unit => True
  | .any b => b.Fits r
  | .plain c => ∀ b ∈ c.boxes, b.Fits r
  | .pointer h => ∀ o, h.target = some o → h.cls ∈ o.cls.chain ∧ (o.cls = h.cls ∨ r.Knows o.cls)

theorem Content.ty_ne_pointer (c : Content) (k : ClassDecl) : c.ty ≠ .pointer k := by cases c <;> simp [Content.ty]

theorem Content.cls?_ty (c : Content) : c.ty.cls? = none := by cases c <;> rfl

/-- A builtin conversion makes no boxes. -/
theorem Content.mem_boxes_convert {c d : Content} {t : Ty} (h : c.convert t = some d) {b : Box}
    (hb : b ∈ d.boxes) : b ∈ c.boxes := by
  unfold Content.convert at h
  split at h
  case h_15 | h_16 => cases h; exact hb
  case h_12 | h_13 | h_14 =>
    obtain ⟨x, -, rfl⟩ := Option.map_eq_some_iff.mp h
    cases hb
  all_goals cases h <;> cases hb

namespace Box.Fits

theorem mono (h : Grows r s) {b : Box} (hb : b.Fits r) : b.Fits s := by
  induction hb with
  | null => exact .null
  | plain hid _ ih => exact .plain (h.byType hid) ih
  | object he hk hlive =>
    obtain ⟨f, hf, hty, -⟩ := h.entry he
    exact .object hf (hty.trans hk) fun o ho => (hlive o ho).imp_right (.mono h)

theorem content {id : TypeId} {c : Content} (h : Box.Fits r (.plain id c)) : Value.Fits r (.plain c) := by
  cases h with
  | plain _ hin => exact hin

/-- The number in the box is that of the content's type. -/
theorem numbers {id : TypeId} {c : Content} (h : Box.Fits r (.plain id c)) : r.types.Numbers c.ty id := by
  cases h with
  | plain hid _ => exact .inr ⟨c.ty_ne_any, hid⟩

theorem downcast {b : Box} {t : Ty} {c : Content} (h : b.Fits r) (hc : b.downcast t = some c) :
    c.ty = t ∧ Value.Fits r (.plain c) := by
  cases b with
  | null => cases hc
  | object _ _ => cases hc
  | plain id d =>
    simp only [Box.downcast] at hc
    split at hc
    · cases hc; exact ⟨‹_›, h.content⟩
    · cases hc

theorem release {b : Box} (h : b.Fits r) : b.release.Fits r := by
  cases h with
  | null => exact .null
  | plain hid hin => exact .plain hid hin
  | object he hk _ => exact .object he hk fun _ ho => by cases ho

end Box.Fits

namespace Value

theorem Fits.mono (h : Grows r s) {v : Value} (hv : v.Fits r) : v.Fits s := by
  cases v with
  | unit => trivial
  | any b => exact Box.Fits.mono h hv
  | plain c => exact fun b hb => (hv b hb).mono h
  | pointer p => exact fun o ho => (hv o ho).imp_right (Or.imp_right (.mono h))

theorem fits_default (r : Registries) (t : Ty) : t.default.Fits r := by
  cases t <;> first
    | trivial
    | exact Box.Fits.null
    | exact fun b hb => by cases hb

/-- What is made of fitting values without any operation fits. -/
theorem From.fits {held : List Fact} (hh : ∀ v, .value v ∈ held → v.Fits r) {v : Value} (h : v.From held) :
    v.Fits r := by
  induction h with
  | held h => exact hh _ h
  | unit => trivial
  | null => exact .null
  | nowhere c =>
    intro o ho
    cases ho
  | object o =>
    intro p hp
    cases hp; exact ⟨o.cls.self_mem_chain, .inl rfl⟩
  | content _ ih => exact ih
  | inside _ hb ih => exact ih _ hb
  | opened _ ih => exact Box.Fits.content ih
  | released _ ih => exact Box.Fits.release ih

end Value

namespace Step

variable {w : World}

/-! ## Pointers -/

theorem pointTo_spec (hw : w.registries.Sound) {o : Object} {c : ClassDecl} {h : Handle}
    (hp : (pointTo o c w).1 = some h) : h = ⟨c, some o⟩ ∧ c ∈ o.cls.chain := by
  have hsound := Course.sound hw (isQuiet_node o.cls w hw)
  have hquiet := isQuiet_node c (node o.cls w).2 hsound
  have hn := (Course.grows hsound hquiet).node (find?_node o.cls w)
  have hm := find?_node c (node o.cls w).2
  have hiff := (Course.sound hsound hquiet).classes.inherits_iff hn hm
  simp only [pointTo, bind_apply, pure_apply] at hp
  split at hp
  · rename_i hin
    cases hp; exact ⟨rfl, hiff.mp hin⟩
  · cases hp

theorem fits_pointTo (hw : w.registries.Sound) {o : Object} {c : ClassDecl} {h : Handle}
    (hp : (pointTo o c w).1 = some h) : (Value.pointer h).Fits (pointTo o c w).2.registries := by
  obtain ⟨rfl, hc⟩ := pointTo_spec hw hp
  have hsound := Course.sound hw (isQuiet_node o.cls w hw)
  have hgrow := Course.grows hsound (isQuiet_node c (node o.cls w).2 hsound)
  intro p hp
  cases hp; exact ⟨hc, .inr ⟨_, hgrow.node (find?_node o.cls w)⟩⟩

theorem fits_cast (hw : w.registries.Sound) (h : Handle) (c : ClassDecl) :
    (Value.pointer (cast h c w).1).Fits (cast h c w).2.registries := by
  obtain ⟨k, target⟩ := h
  cases target with
  | none =>
    intro o ho
    cases ho
  | some o =>
    simp only [cast, bind_apply, pure_apply]
    cases hp : (pointTo o c w).1 with
    | none =>
      intro o ho
      cases ho
    | some p => exact fits_pointTo hw hp

/-! ## Boxes -/

theorem fits_box (hw : w.registries.Sound) {v : Value} (hv : v.Fits w.registries) :
    (box v w).1.Fits (box v w).2.registries := by
  cases v with
  | unit => exact .null
  | any b => exact hv
  | plain c =>
    have hgrow := Course.grows hw (isQuiet_typeId c.ty w hw)
    rcases typeId_spec c.ty w with ⟨hany, -⟩ | ⟨-, hid⟩
    · exact absurd hany c.ty_ne_any
    · exact .plain hid fun b hb => (hv b hb).mono hgrow
  | pointer h =>
    have hsound := Course.sound hw (isQuiet_typeId (.pointer h.cls) w hw)
    rcases typeId_spec (.pointer h.cls) w with ⟨hany, -⟩ | ⟨-, hid⟩
    · cases hany
    · obtain ⟨e, he, hty⟩ := hsound.entry_of_byType hid
      obtain ⟨n, hn, -⟩ := hsound.node_of_pointer he hty
      have hgrow := Course.grows hw (isQuiet_typeId (.pointer h.cls) w hw)
      refine .object he hty fun o ho => (hv o ho).imp_right fun hown => hown.elim ?_ (.mono hgrow)
      exact fun h => ⟨n, h ▸ hn⟩

theorem fits_nullValue (hw : w.registries.Sound) (id : TypeId) :
    (nullValue id w).1.Fits (nullValue id w).2.registries := by
  simp only [nullValue, bind_apply, get_apply]
  cases h : w.types.entries.find? id with
  | none => exact .null
  | some e => exact fits_box hw (Value.fits_default _ e.ty)

/-- A number with a node is one of the pointer type of the node's class. -/
theorem entry_of_node (hw : w.registries.Sound) {id : TypeId} {n : ClassNode}
    (h : (w.types.descriptor id).node = some n) :
    ∃ e k, w.types.entries.find? id = some e ∧ e.ty = .pointer k ∧ w.registries.classes.find? k = some n := by
  cases he : w.types.entries.find? id with
  | none =>
    rw [TypeTable.node_descriptor he] at h; cases h
  | some e =>
    rw [hw.descriptor he] at h
    obtain ⟨k, hk, hkn⟩ := hw.pointer_of_node he h
    exact ⟨e, k, rfl, hk, hkn⟩

/-- A box with a pointer converts to its own number, and along the nodes. -/
theorem canConvert_object (id wanted : TypeId) (target : Option Object) (w : World) :
    (canConvert (.object id target) wanted w).2 = (describe (.object id target) w).2 ∧
      ((canConvert (.object id target) wanted w).1 = true ↔ (describe (.object id target) w).1.id = wanted ∨
        ∃ n m, (describe (.object id target) w).1.node = some n ∧
          ((describe (.object id target) w).2.types.descriptor wanted).node = some m ∧ n.inherits m = true) := by
  simp only [canConvert, bind_apply]
  split
  · exact ⟨rfl, fun _ => .inl ‹_›, fun _ => rfl⟩
  · rename_i hne
    simp only [bind_apply, get_apply, hne, false_or]
    cases (describe (.object id target) w).1.node with
    | none => exact ⟨rfl, fun h => (by cases h), fun ⟨_, _, hn, _⟩ => by cases hn⟩
    | some n =>
      cases ((describe (.object id target) w).2.types.descriptor wanted).node with
      | none => exact ⟨rfl, fun h => (by cases h), fun ⟨_, _, _, hm, _⟩ => by cases hm⟩
      | some m => exact ⟨rfl, fun h => ⟨n, m, rfl, rfl, h⟩, fun ⟨_, _, hn, hm, h⟩ => by cases hn; cases hm; exact h⟩

/-- A pointer is converted to a number of a class that its object's class inherits; the test
    leaves the object's class with a node. -/
theorem canConvert_points (hw : w.registries.Sound) {id wanted : TypeId} {target : Option Object}
    (hid : ∃ e k, w.types.entries.find? id = some e ∧ e.ty = .pointer k)
    (hc : (canConvert (.object id target) wanted w).1 = true) :
    ∃ e k, (canConvert (.object id target) wanted w).2.types.entries.find? wanted = some e ∧ e.ty = .pointer k ∧
      ∀ o, target = some o → k ∈ o.cls.chain ∧ (canConvert (.object id target) wanted w).2.registries.Knows o.cls := by
  obtain ⟨hworld, hcases⟩ := canConvert_object id wanted target w
  have hsound := Course.sound hw (isQuiet_describe (.object id target) w hw)
  rw [hworld]
  cases target with
  | none =>
    rcases hcases.mp hc with heq | ⟨n, m, -, hm, -⟩
    · obtain ⟨e, k, he, hk⟩ := hid
      have : id = wanted := (TypeTable.descriptor_id _ _).symm.trans heq
      exact ⟨e, k, this ▸ he, hk, fun o ho => by cases ho⟩
    · obtain ⟨e, k, he, hk, -⟩ := entry_of_node hsound hm
      exact ⟨e, k, he, hk, fun o ho => by cases ho⟩
  | some o =>
    obtain ⟨n, e, hn, he, hnode, hd⟩ := describe_live hw id o
    have hown : (describe (.object id (some o)) w).1.node = some n := by rw [hd]
    rcases hcases.mp hc with heq | ⟨n', m, hn', hm, hin⟩
    · have hwanted : ((describe (.object id (some o)) w).2.types.descriptor wanted).node = some n := by
        rw [← heq, hsound.descriptor he, hnode]
      obtain ⟨e', k, he', hk, hkn⟩ := entry_of_node hsound hwanted
      have hko : k = o.cls := hsound.classes.eq_of_same hkn hn n.same_refl
      exact ⟨e', k, he', hk, fun p hp => by cases hp; exact ⟨hko ▸ o.cls.self_mem_chain, n, hn⟩⟩
    · cases hown.symm.trans hn'
      obtain ⟨e', k, he', hk, hkm⟩ := entry_of_node hsound hm
      have hchain := (hsound.classes.inherits_iff hn hkm).mp hin
      exact ⟨e', k, he', hk, fun p hp => by cases hp; exact ⟨hchain, n, hn⟩⟩

/-- A pointer that converts may carry the number it was converted to. -/
theorem fits_canConvert (hw : w.registries.Sound) {id wanted : TypeId} {target : Option Object}
    (hb : Box.Fits w.registries (.object id target)) (hc : (canConvert (.object id target) wanted w).1 = true) :
    Box.Fits (canConvert (.object id target) wanted w).2.registries (.object wanted target) := by
  cases hb with
  | object he hk _ =>
    obtain ⟨e, k, he', hk', hlive⟩ := canConvert_points hw ⟨_, _, he, hk⟩ hc
    exact .object he' hk' hlive

end Step

end Multimethod
