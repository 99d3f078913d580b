/-
  Multimethod.Proofs.Reading — what is read from a box, and what a box is converted to.

  A content is read as its own type without asking the table. A pointer is read from a
  live object, as one of its class's chain and of no other class (`pointTo_fst`); a box
  without an object gives the default pointer. From the box with nothing in it every type
  reads its default. `Reads` collects the readings that change nothing. A box of the wanted
  type is converted to itself, another content by the table's converter for the pair of
  numbers (`tableConvert_eq`), a pointer along the nodes (`convert_object`).
-/
import Multimethod.Proofs.Fitting

namespace Multimethod

open Registries (Grows Course)

/-- The number is one of the pointer type of a class. -/
def TypeTable.Points (t : TypeTable) (id : TypeId) (d : ClassDecl) : Prop :=
  ∃ e, t.entries.find? id = some e ∧ e.ty = .pointer d

theorem TypeTable.Points.mono {r s : Registries} (h : Grows r s) {id : TypeId} {d : ClassDecl}
    (hid : r.types.Points id d) : s.types.Points id d := by
  obtain ⟨e, he, hty⟩ := hid
  obtain ⟨f, hf, hfty, -⟩ := h.entry he
  exact ⟨f, hf, hfty.trans hty⟩

/-- A number of a class's pointer type has the cached node of the class. -/
theorem Registries.Sound.node_of_points {r : Registries} (hr : r.Sound) {id : TypeId} {d : ClassDecl}
    (hid : r.types.Points id d) : ∃ n, r.classes.find? d = some n ∧ (r.types.descriptor id).node = some n := by
  obtain ⟨e, he, hty⟩ := hid
  rw [hr.descriptor he]
  exact hr.node_of_pointer he hty

namespace Step

variable {w : World} {o : Object} {k : ClassDecl}

/-- An object is pointed to as a class exactly when its own class inherits that. -/
theorem pointTo_fst (hw : w.registries.Sound) (o : Object) (k : ClassDecl) :
    (pointTo o k w).1 = if k ∈ o.cls.chain then some ⟨k, some o⟩ else none := by
  have hsound := Course.sound hw (isQuiet_node o.cls w hw)
  have hquiet := isQuiet_node k (node o.cls w).2 hsound
  have hn := (Course.grows hsound hquiet).node (find?_node o.cls w)
  have hiff := (Course.sound hsound hquiet).classes.inherits_iff hn (find?_node k (node o.cls w).2)
  simp only [pointTo, bind_apply, pure_apply, hiff]

/-- Where both classes have their nodes, pointing to an object changes nothing. -/
theorem pointTo_snd {n m : ClassNode} (hn : w.registries.classes.find? o.cls = some n)
    (hm : w.registries.classes.find? k = some m) : (pointTo o k w).2 = w := by
  simp only [pointTo, bind_apply, pure_apply, node_of_cached hn, node_of_cached hm]

/-- A live object converts to the pointer types of the classes that its own class inherits. -/
theorem canConvert_live (hw : w.registries.Sound) (id : TypeId) {wanted : TypeId} {d : ClassDecl}
    (hd : w.types.Points wanted d) : (canConvert (.object id (some o)) wanted w).1 = true ↔ d ∈ o.cls.chain := by
  have hquiet := isQuiet_describe (.object id (some o)) w hw
  have hsound := Course.sound hw hquiet
  obtain ⟨n, e, hn, he, hen, hdescribed⟩ := describe_live hw id o
  obtain ⟨m, hm, hwanted⟩ := hsound.node_of_points (hd.mono (Course.grows hw hquiet))
  have hnode : (describe (.object id (some o)) w).1.node = some n := by rw [hdescribed]
  have hchain := hsound.classes.inherits_iff hn hm
  simp only [canConvert, bind_apply]
  split
  · rename_i hid
    have hnm : n = m := by
      rw [← hid, hsound.descriptor he] at hwanted
      exact Option.some.inj (hen.symm.trans hwanted)
    exact ⟨fun _ => hchain.mp (hnm ▸ n.inherits_refl), fun _ => rfl⟩
  · simp only [bind_apply, get_apply, hnode, hwanted, pure_apply]
    exact hchain

end Step

namespace Run

variable {α β : Type} {c : Caller} {w : World}

theorem bind_apply (r : Run α) (f : α → Run β) (c : Caller) (w : World) :
    (r >>= f) c w = (r c w).bind fun p => f p.1 c p.2 := rfl

theorem pure_apply (x : α) (c : Caller) (w : World) : (pure x : Run α) c w = some (x, w) := rfl

/-! ## Reading by the kind of type -/

theorem read_content (id : TypeId) (x : Content) (c : Caller) (w : World) :
    read (.plain id x) x.ty c w = some (some (.plain x), w) := by
  have hx : (Box.plain id x).downcast x.ty = some x := if_pos rfl
  have hread : readContent (.plain id x) x.ty c w = some (some (.plain x), w) := by
    rw [readContent, hx]; rfl
  cases x <;> exact hread

theorem read_pointer_of_object {b : Box} {o : Object} (h : b.object? = some o) (k : ClassDecl) (c : Caller)
    (w : World) :
    read b (.pointer k) c w = some ((Step.pointTo o k w).1.map .pointer, (Step.pointTo o k w).2) := by
  unfold read
  rw [h]; rfl

theorem read_pointer_of_none {b : Box} (h : b.object? = none) (k : ClassDecl) (c : Caller) (w : World) :
    read b (.pointer k) c w = some (none, w) := by
  unfold read
  rw [h]; rfl

/-! ## Readings that change nothing -/

/-- `v` is what a reader of type `t` gets from the box, read or by default, and getting it
    changes nothing. -/
def Reads (w : World) (b : Box) (t : Ty) (v : Value) : Prop :=
  ∀ c, ∃ o, read b t c w = some (o, w) ∧ o.getD t.default = v

theorem reads_null (w : World) (t : Ty) : Reads w .null t t.default := fun c => by
  cases t with
  | void => exact ⟨some .unit, rfl, rfl⟩
  | any => exact ⟨some (.any .null), rfl, rfl⟩
  | pointer k => exact ⟨none, rfl, rfl⟩
  | _ => exact ⟨none, rfl, rfl⟩

theorem reads_content (w : World) (id : TypeId) (x : Content) : Reads w (.plain id x) x.ty (.plain x) :=
  fun c => ⟨_, read_content id x c w, rfl⟩

theorem reads_nowhere (w : World) {b : Box} (h : b.object? = none) (k : ClassDecl) :
    Reads w b (.pointer k) (.pointer (Handle.null k)) :=
  fun c => ⟨none, read_pointer_of_none h k c w, rfl⟩

/-- A live object is read as a pointer of its own class, and that is a pointer to it. -/
theorem reads_live (hw : w.registries.Sound) {b : Box} {o : Object} (h : b.object? = some o) {n : ClassNode}
    (hn : w.registries.classes.find? o.cls = some n) :
    Reads w b (.pointer o.cls) (.pointer ⟨o.cls, some o⟩) := fun c => by
  refine ⟨some (.pointer ⟨o.cls, some o⟩), ?_, rfl⟩
  rw [read_pointer_of_object h, Step.pointTo_fst hw, Step.pointTo_snd hn hn, if_pos o.cls.self_mem_chain]; rfl

/-! ## Converting by the kind of box -/

theorem applyConverter_of_none {k : Converter} {b : Box} (h : b.downcast k.source = none) (c : Caller) (w : World) :
    applyConverter k b c w = some (none, w) := by
  rw [applyConverter, h]; rfl

theorem tableConvert_eq {b : Box} {own : Descriptor} {v : World} (h : Step.describe b w = (own, v)) (wanted : TypeId)
    (c : Caller) :
    tableConvert b wanted c w =
      if own.id = wanted ∨ v.types.sameType own.id wanted = true then some (some b, v)
      else match v.types.converters.find? (own.id, wanted) with
        | none => some (none, v)
        | some k => applyConverter k b c v := by
  unfold tableConvert
  rw [bind_apply]
  show (some (Step.describe b w)).bind _ = _
  rw [h, Option.bind_some]
  by_cases hid : own.id = wanted
  · simp only [hid, if_true, true_or]; rfl
  · simp only [hid, if_false, false_or]
    show (if v.types.sameType own.id wanted = true then pure (some b) else _ : Run _) c v = _
    by_cases hsame : v.types.sameType own.id wanted = true
    · rw [if_pos hsame, if_pos hsame]; rfl
    · rw [if_neg hsame, if_neg hsame]
      cases v.types.converters.find? (own.id, wanted) <;> rfl

/-- The box with nothing in it converts to itself or not at all. -/
theorem convert_null (wanted : TypeId) (c : Caller) (w : World) : convert .null wanted c w = some (.null, w) := by
  have hdescribe : Step.describe .null w = (Descriptor.wild, w) := rfl
  have htable : ∃ o : Option Box, tableConvert .null wanted c w = some (o, w) ∧ o.getD .null = .null := by
    rw [tableConvert_eq hdescribe]
    split
    · exact ⟨_, rfl, rfl⟩
    · split
      · exact ⟨_, rfl, rfl⟩
      · exact ⟨_, applyConverter_of_none rfl c w, rfl⟩
  obtain ⟨o, ho, hnull⟩ := htable
  show (tableConvert .null wanted c w).bind (fun p => some (p.1.getD .null, p.2)) = _
  rw [ho, Option.bind_some, hnull]

theorem convert_object (id wanted : TypeId) (target : Option Object) (c : Caller) (w : World) :
    convert (.object id target) wanted c w =
      some (if (Step.canConvert (.object id target) wanted w).1 then .object wanted target else .null,
        (Step.canConvert (.object id target) wanted w).2) := by
  show (if (Step.canConvert (.object id target) wanted w).1 = true then pure (.object wanted target)
    else pure .null : Run Box) c (Step.canConvert (.object id target) wanted w).2 = _
  split <;> rfl

end Run

end Multimethod
