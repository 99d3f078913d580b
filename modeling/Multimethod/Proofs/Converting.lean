/-
  Multimethod.Proofs.Converting — what the table of converters does to a box.

  A converter is run on a content of its source type, and its answer counts when it is of
  its target type (`Converter.answer`). A content converts to another type by the answer
  alone (`tableConvert_content`), a pointer by no converter. From this follow two exact
  statements about boxes that a program holds:
  - reading a box as a type gives what reading it after a conversion to the type gives,
    except that a content is never read as a pointer, while the table may convert it to one
    (`readOr_readConverted`);
  - a supported conversion fails where the converter is run on the content and declines, and
    also where the box has a pointer and the pair of types has a converter: contents are
    never pointers, so this converter is not run (`tableConvert_none_iff`).
  The closed instances after them show that both exceptions occur.
-/
import Multimethod.Proofs.Convertibility
import Multimethod.Proofs.Reading

namespace Multimethod

open Registries (Grows Course)

/-- Converts a box to a type and reads it then, or takes the default value. -/
def Run.readConverted (b : Box) (t : Ty) : Run Value := do
  let id ← Step.typeId t
  let converted ← convert b id
  readOr converted t

/-- The object that a value points to. -/
def Value.object? : Value → Option Object
  | pointer h => h.target
  | _ => none

/-- The object of a pointer is of a class derived from the pointer's. -/
def Value.Conforms : Value → Prop
  | pointer h => ∀ o, h.target = some o → h.cls ∈ o.cls.chain
  | _ => True

theorem Value.Fits.conforms {r : Registries} {y : Value} (h : y.Fits r) : y.Conforms := by
  cases y with
  | pointer _ => exact fun o ho => (h o ho).1
  | _ => trivial

/-- The value, unless it points to nothing. -/
def Value.present : Value → Option Value
  | pointer ⟨_, none⟩ => none
  | v => some v

/-- A pointer to nothing is the default value of its type. -/
theorem Value.getD_present (y : Value) : y.present.getD y.ty.default = y := by
  cases y with
  | pointer h =>
    obtain ⟨k, target⟩ := h
    cases target <;> rfl
  | _ => rfl

namespace Registries.Sound

variable {r : Registries} (hr : r.Sound) {a b : Ty} {id : TypeId}
include hr

/-- The entry under the number of a type is of that type. -/
theorem ty_of_numbers (hn : r.types.Numbers a id) {e : Entry} (he : r.types.entries.find? id = some e) : e.ty = a := by
  rcases hn with ⟨-, rfl⟩ | ⟨-, hb⟩
  · exact absurd rfl (hr.ne_wild he)
  · obtain ⟨f, hf, hty⟩ := hr.entry_of_byType hb
    cases he.symm.trans hf; exact hty

/-- No two types have one number. -/
theorem numbers_unique (ha : r.types.Numbers a id) (hb : r.types.Numbers b id) : a = b := by
  rcases ha with ⟨rfl, rfl⟩ | ⟨-, ha⟩
  · rcases hb with ⟨rfl, -⟩ | ⟨-, hb⟩
    · rfl
    · obtain ⟨e, he, -⟩ := hr.entry_of_byType hb
      exact absurd rfl (hr.ne_wild he)
  · obtain ⟨e, he, rfl⟩ := hr.entry_of_byType ha
    exact hr.ty_of_numbers hb he

end Registries.Sound

/-- A value of a content's type is a content. -/
theorem Value.eq_plain {y : Value} {z : Content} (h : y.ty = z.ty) : ∃ z', y = .plain z' := by
  cases y with
  | unit => cases z <;> cases h
  | any b => exact absurd h.symm z.ty_ne_any
  | plain z' => exact ⟨z', rfl⟩
  | pointer p => exact absurd h.symm (z.ty_ne_pointer p.cls)

namespace Run

variable {D : Discipline} {c : Caller} {w v : World} {b : Box} {t : Ty} {id j : TypeId} {x : Content}

/-! ## Converting a content -/

/-- A content that is not of the type of the wanted number converts by the answer of the
    converter for its own number and the wanted one. -/
theorem tableConvert_numbered (hv : v.registries.Sound) (hid : v.types.Numbers x.ty id)
    (hother : ¬ (id = j ∨ v.types.sameType id j = true)) (c : Caller) :
    tableConvert (.plain id x) j c v =
      match v.types.converters.find? (id, j) with
      | none => some (none, v)
      | some k => (k.answer x c v).bind fun p => some (Step.boxAnswer p.1 p.2) := by
  have hdescribe : Step.describe (.plain id x) v = (v.types.descriptor id, v) := rfl
  rw [tableConvert_eq hdescribe, TypeTable.descriptor_id, if_neg hother]
  cases hk : v.types.converters.find? (id, j) with
  | none => rfl
  | some k =>
    have hsource : k.source = x.ty := hv.numbers_unique (hv.converter hk).1 hid
    have hx : (Box.plain id x).downcast k.source = some x := if_pos hsource.symm
    dsimp only
    rw [applyConverter_eq hx]; rfl

theorem tableConvert_content (hv : v.registries.Sound) (hb : Box.Fits v.registries (.plain id x))
    (hother : ¬ (id = j ∨ v.types.sameType id j = true)) (c : Caller) :
    tableConvert (.plain id x) j c v =
      match v.types.converters.find? (id, j) with
      | none => some (none, v)
      | some k => (k.answer x c v).bind fun p => some (Step.boxAnswer p.1 p.2) :=
  tableConvert_numbered hv hb.numbers hother c

theorem convert_content (id j : TypeId) (x : Content) (c : Caller) (w : World) :
    convert (.plain id x) j c w = (tableConvert (.plain id x) j c w).bind fun p => some (p.1.getD .null, p.2) := rfl

/-- The numbers of two types are neither equal nor of one type. -/
theorem other_of_numbers {s : Ty} (hv : v.registries.Sound) (hid : v.types.Numbers s id) (hj : v.types.Numbers t j)
    (hne : s ≠ t) : ¬ (id = j ∨ v.types.sameType id j = true) := by
  rintro (rfl | hsame)
  · exact hne (hv.numbers_unique hid hj)
  · obtain ⟨e, f, he, hf, hef⟩ := TypeTable.sameType_iff.mp hsame
    exact hne ((hv.ty_of_numbers hid he).symm.trans (hef.trans (hv.ty_of_numbers hj hf)))

theorem other_of_ne (hv : v.registries.Sound) (hb : Box.Fits v.registries (.plain id x))
    (hj : v.types.Numbers t j) (hne : x.ty ≠ t) : ¬ (id = j ∨ v.types.sameType id j = true) :=
  other_of_numbers hv hb.numbers hj hne

/-- Only where there is no answer there is no box. -/
theorem boxAnswer_none_iff {r : Option (Option Value × World)} :
    (r.bind fun p => some (Step.boxAnswer p.1 p.2)) = some (none, w) ↔ r = some (none, w) := by
  cases r with
  | none => exact ⟨fun h => (by cases h), fun h => (by cases h)⟩
  | some p =>
    obtain ⟨o, u⟩ := p
    cases o with
    | none => exact ⟨fun h => (by cases h; rfl), fun h => (by cases h; rfl)⟩
    | some y => exact ⟨fun h => (by cases h), fun h => (by cases h)⟩

/-! ## Reading, with and without a conversion -/

theorem readConverted_eq (b : Box) (t : Ty) (c : Caller) (w : World) :
    readConverted b t c w = (convert b (Step.typeId t w).1 c (Step.typeId t w).2).bind fun p => readOr p.1 t c p.2 :=
  rfl

theorem readOr_eq (b : Box) (t : Ty) (c : Caller) (w : World) :
    readOr b t c w = (read b t c w).bind fun p => some (p.1.getD t.default, p.2) := rfl

theorem Reads.readOr {y : Value} (h : Reads w b t y) (c : Caller) : Run.readOr b t c w = some (y, w) := by
  obtain ⟨o, hread, rfl⟩ := h c
  rw [readOr_eq, hread]; rfl

/-- Contents and pointers of a box without a content of the type are not read. -/
theorem read_object (id : TypeId) (target : Option Object) (z : Content) (c : Caller) (w : World) :
    read (.object id target) z.ty c w = some (none, w) := by
  cases z <;> rfl

/-- A content of another type is read as the table converts it. -/
theorem read_other (z : Content) (hne : x.ty ≠ z.ty) (c : Caller) (w : World) :
    read (.plain id x) z.ty c w =
      (tableConvert (.plain id x) (Step.typeId z.ty w).1 c (Step.typeId z.ty w).2).bind fun p =>
        some ((p.1.bind (·.downcast z.ty)).map .plain, p.2) := by
  have hx : (Box.plain id x).downcast z.ty = none := if_neg hne
  have hread : readContent (.plain id x) z.ty c w =
      (tableConvert (.plain id x) (Step.typeId z.ty w).1 c (Step.typeId z.ty w).2).bind fun p =>
        some ((p.1.bind (·.downcast z.ty)).map .plain, p.2) := by
    rw [readContent, hx]; rfl
  cases z <;> exact hread

/-- A live object is read as a pointer of a class that its own class inherits. -/
theorem read_live (hw : w.registries.Sound) (id : TypeId) (o : Object) (k : ClassDecl) (c : Caller) :
    (read (.object id (some o)) (.pointer k) c w).map Prod.fst =
      some (if k ∈ o.cls.chain then some (.pointer ⟨k, some o⟩) else none) := by
  have hread := read_pointer_of_object (b := .object id (some o)) rfl k c w
  rw [hread, Step.pointTo_fst hw]
  split <;> rfl

/-- What is read by default follows from what is read. -/
theorem readOr_fst {o : Option Value} (h : (read b t c w).map Prod.fst = some o) :
    (readOr b t c w).map Prod.fst = some (o.getD t.default) := by
  obtain ⟨⟨o, v⟩, hread, rfl⟩ := Option.map_eq_some_iff.mp h
  rw [readOr_eq, hread]; rfl

theorem readOr_live (hw : w.registries.Sound) (id : TypeId) (o : Object) (k : ClassDecl) (c : Caller) :
    (readOr (.object id (some o)) (.pointer k) c w).map Prod.fst =
      some (.pointer (if k ∈ o.cls.chain then ⟨k, some o⟩ else Handle.null k)) := by
  rw [readOr_fst (read_live hw id o k c)]
  split <;> rfl

/-- In whatever world the box of a value is read, the value is found, unless it points to
    nothing. -/
theorem read_box (w : World) (hv : v.registries.Sound) {y : Value} (hy : y.Conforms) (c : Caller) :
    (read (Step.box y w).1 y.ty c v).map Prod.fst = some y.present := by
  cases y with
  | unit => rfl
  | any b => rfl
  | plain z => exact congrArg (Option.map Prod.fst) (read_content _ z c v)
  | pointer h =>
    obtain ⟨k, target⟩ := h
    cases target with
    | none => rfl
    | some o =>
      have hread := read_live hv (Step.typeId (.pointer k) w).1 o k c
      rw [if_pos (hy o rfl)] at hread
      exact hread

/-- So it is read as that value. -/
theorem readOr_box (w : World) (hv : v.registries.Sound) {y : Value} (hy : y.Conforms) (c : Caller) :
    (readOr (Step.box y w).1 y.ty c v).map Prod.fst = some y := by
  rw [readOr_fst (read_box w hv hy c), y.getD_present]

/-- What the converter from a content's number to a type answers, or the default value. -/
def answerOr (t : Ty) (id : TypeId) (x : Content) (c : Caller) (w : World) : Option Value :=
  match (Step.typeId t w).2.types.converters.find? (id, (Step.typeId t w).1) with
  | none => some t.default
  | some k => (k.answer x c (Step.typeId t w).2).map fun p => p.1.getD t.default

/-- Both ways of reading end alike, with the same value. -/
def Agree (c : Caller) (w : World) (b : Box) (t : Ty) : Prop :=
  (readOr b t c w).map Prod.fst = (readConverted b t c w).map Prod.fst

theorem agree_null (c : Caller) (w : World) (t : Ty) : Agree c w .null t := by
  unfold Agree
  rw [readConverted_eq, convert_null, Option.bind_some, (reads_null _ t).readOr c, (reads_null _ t).readOr c]; rfl

section

variable (hw : w.registries.Sound)
include hw

/-- A pointer is not converted to the type of a content. -/
theorem canConvert_content {target : Option Object} (hb : Box.Fits w.registries (.object id target)) {z : Content}
    (hj : w.types.Numbers z.ty j) : (Step.canConvert (.object id target) j w).1 = false := by
  refine Bool.eq_false_iff.mpr fun hcan => ?_
  have hquiet := Step.isQuiet_canConvert (.object id target) j w hw
  have hfits := Step.fits_canConvert hw hb hcan
  cases hfits with
  | object he hk _ =>
    have hty := (Course.sound hw hquiet).ty_of_numbers ((Course.grows hw hquiet).numbers hj) he
    exact z.ty_ne_pointer _ (hty.symm.trans hk)

theorem agree_object {target : Option Object} (hb : Box.Fits w.registries (.object id target)) (z : Content)
    (c : Caller) : Agree c w (.object id target) z.ty := by
  have hquiet := Step.isQuiet_typeId z.ty w hw
  have hcan := canConvert_content (Course.sound hw hquiet) (hb.mono (Course.grows hw hquiet)) (Step.typeId_spec z.ty w)
  unfold Agree
  rw [readConverted_eq, convert_object, hcan, if_neg Bool.false_ne_true, Option.bind_some,
    (reads_null _ z.ty).readOr c, readOr_eq, read_object]; rfl

theorem agree_pointer (id : TypeId) (target : Option Object) (k : ClassDecl) (c : Caller) :
    Agree c w (.object id target) (.pointer k) := by
  have hv := Course.sound hw (Step.isQuiet_typeId (.pointer k) w hw)
  have hj := Step.typeId_spec (.pointer k) w
  have nowhere {b : Box} (hb : b.object? = none) (u : World) : readOr b (.pointer k) c u =
      some (.pointer (Handle.null k), u) := (reads_nowhere u hb k).readOr c
  unfold Agree
  rw [readConverted_eq, convert_object, Option.bind_some]
  -- of the number and the world after asking for it, only `hj` and `hv` count
  generalize (Step.typeId (.pointer k) w).1 = j at hj ⊢
  generalize (Step.typeId (.pointer k) w).2 = v at hv hj ⊢
  cases target with
  | none =>
    rw [nowhere rfl w]
    split
    · rw [nowhere rfl]; rfl
    · rw [nowhere rfl]; rfl
  | some o =>
    -- an object converts to just the classes it is read as, those of its own class's chain
    have hpoints : v.types.Points j k := by
      rcases hj with ⟨hany, -⟩ | ⟨-, hb⟩
      · cases hany
      · exact hv.entry_of_byType hb
    have hcan := Step.canConvert_live (o := o) hv id hpoints
    have hu := Course.sound hv (Step.isQuiet_canConvert (.object id (some o)) j v hv)
    rw [readOr_live hw]
    by_cases hchain : k ∈ o.cls.chain
    · rw [if_pos (hcan.mpr hchain), readOr_live hu]
    · rw [if_neg (hchain ∘ hcan.mp), nowhere rfl, if_neg hchain]; rfl

end

section

variable (hc : Keeps D c) (hw : D.Good w.registries)
include hc hw

/-- The answer of a converter that the registries keep. -/
theorem answer_spec (hb : Box.Fits w.registries (.plain id x)) {k : Converter}
    (hk : w.types.converters.find? (id, j) = some k) (hj : w.types.Numbers t j) {o : Option Value} {u : World}
    (h : k.answer x c w = some (o, u)) : D.Good u.registries ∧ ∀ y ∈ o, y.ty = t ∧ D.Fits u.registries y := by
  obtain ⟨hcourse, ho⟩ := ensures_answer hc hw (hw.stores.converter hk) (fun _ => hb.content) _ _ h
  refine ⟨hw.course hcourse, fun y hy => ⟨(ho y hy).1.trans ?_, (ho y hy).2⟩⟩
  exact hw.sound.numbers_unique (hw.sound.converter hk).2 hj

/-- Converting a content to another type does not end, or gives the box of an answer of that type;
    `answerOr` says which. -/
theorem tableConvert_other (hb : Box.Fits w.registries (.plain id x)) (hne : x.ty ≠ t) :
    (tableConvert (.plain id x) (Step.typeId t w).1 c (Step.typeId t w).2 = none ∧ answerOr t id x c w = none) ∨
    ∃ o u, tableConvert (.plain id x) (Step.typeId t w).1 c (Step.typeId t w).2 = some (Step.boxAnswer o u) ∧
      answerOr t id x c w = some (o.getD t.default) ∧ D.Good u.registries ∧
      ∀ y ∈ o, y.ty = t ∧ D.Fits u.registries y := by
  have hquiet := Step.isQuiet_typeId t w hw.sound
  have hv := hw.course hquiet.course
  have hbv := hb.mono (Course.grows hw.sound hquiet)
  have hj := Step.typeId_spec t w
  unfold answerOr
  generalize (Step.typeId t w).1 = j at hj ⊢
  generalize (Step.typeId t w).2 = v at hv hbv hj ⊢
  rw [tableConvert_content hv.sound hbv (other_of_ne hv.sound hbv hj hne)]
  cases hk : v.types.converters.find? (id, j) with
  | none => exact .inr ⟨none, v, rfl, rfl, hv, fun _ h => by cases h⟩
  | some k =>
    dsimp only
    cases hans : k.answer x c v with
    | none => exact .inl ⟨rfl, rfl⟩
    | some p => exact .inr ⟨p.1, p.2, rfl, rfl, answer_spec hc hv hbv hk hj hans⟩

/-- A content of another type is read as what a converter answers, if there is one. -/
theorem readOr_other (hb : Box.Fits w.registries (.plain id x)) {z : Content} (hne : x.ty ≠ z.ty) :
    (readOr (.plain id x) z.ty c w).map Prod.fst = answerOr z.ty id x c w := by
  rw [readOr_eq, read_other z hne]
  obtain ⟨h, hanswer⟩ | ⟨o, u, h, hanswer, -, ho⟩ := tableConvert_other hc hw hb hne
  · rw [h, hanswer]; rfl
  rw [h, hanswer]
  cases o with
  | none => rfl
  | some y =>
    obtain ⟨z', rfl⟩ := Value.eq_plain (ho y rfl).1
    have hdown : (Box.plain (Step.typeId z'.ty u).1 z').downcast z.ty = some z' := if_pos (ho _ rfl).1
    show some (((Box.plain (Step.typeId z'.ty u).1 z').downcast z.ty).map Value.plain |>.getD z.ty.default) = _
    rw [hdown]; rfl

/-- Converted to another type, a content is read as what a converter answers, if there is one. -/
theorem readConverted_other (hD : D.honest) (hb : Box.Fits w.registries (.plain id x)) (hne : x.ty ≠ t) :
    (readConverted (.plain id x) t c w).map Prod.fst = answerOr t id x c w := by
  rw [readConverted_eq, convert_content]
  obtain ⟨h, hanswer⟩ | ⟨o, u, h, hanswer, hu, ho⟩ := tableConvert_other hc hw hb hne
  · rw [h, hanswer]; rfl
  rw [h, hanswer]
  cases o with
  | none =>
    show (readOr .null t c u).map Prod.fst = some t.default
    rw [(reads_null u t).readOr c]; rfl
  | some y =>
    obtain ⟨rfl, hy⟩ := ho y rfl
    exact readOr_box u (Course.sound hu.sound (Step.isQuiet_box y u hu.sound)) (hy hD).conforms c

theorem agree_content (hD : D.honest) (hb : Box.Fits w.registries (.plain id x)) (z : Content) :
    Agree c w (.plain id x) z.ty := by
  by_cases hne : x.ty = z.ty
  · unfold Agree
    have hid : Step.typeId x.ty w = (id, w) := Step.typeId_of_numbers hb.numbers
    have hdescribe : Step.describe (.plain id x) w = (w.types.descriptor id, w) := rfl
    have htable : tableConvert (.plain id x) id c w = some (some (.plain id x), w) := by
      rw [tableConvert_eq hdescribe, TypeTable.descriptor_id, if_pos (.inl rfl)]
    have hread := (reads_content w id x).readOr c
    rw [← hne, readConverted_eq, hid, convert_content, htable]
    exact congrArg (Option.map Prod.fst) (hread.trans hread.symm)
  · exact (readOr_other hc hw hb hne).trans (readConverted_other hc hw hD hb hne).symm

end

end Run

/-- At any depth, reading a box that an honest program has ends alike whether the box is
    converted first or not, and with the same value; unless the box has a content, the type is
    a pointer type and there is a converter between the two. The box is then read as pointing
    to nothing, and after the conversion as what the converter answers. -/
theorem Session.Leads.readOr_readConverted {D : Discipline} (hD : D.honest) {s : Session} (hs : Session.start.Leads D s)
    {b : Box} (hb : Value.From s.held (.any b)) {t : Ty} (hvoid : t ≠ .void) (hany : t ≠ .any) (depth : Nat) :
    ((Run.readOr b t).atDepth depth s.world).map Prod.fst =
      ((Run.readConverted b t).atDepth depth s.world).map Prod.fst ∨
    ∃ id x k cv, b = .plain id x ∧ t = .pointer k ∧
      (Step.typeId t s.world).2.types.converters.find? (id, (Step.typeId t s.world).1) = some cv ∧
      ((Run.readOr b t).atDepth depth s.world).map Prod.fst = some (.pointer (Handle.null k)) ∧
      ((Run.readConverted b t).atDepth depth s.world).map Prod.fst =
        ((cv.answer x).atDepth depth (Step.typeId t s.world).2).map fun p => p.1.getD (.pointer (Handle.null k)) := by
  obtain ⟨hw, hheld⟩ := hs.good
  have hfits : b.Fits s.world.registries := D.fits_from hheld (fun _ => hb) hD
  have hc : Run.Keeps D (Script.run depth) := Run.keeps_run D depth
  cases hcls : t.cls? with
  | none =>
    rcases Ty.default_cases hcls with ⟨h, -⟩ | ⟨h, -⟩ | ⟨z, rfl, -⟩
    · exact absurd h hvoid
    · exact absurd h hany
    · cases b with
      | null => exact .inl (Run.agree_null _ _ _)
      | plain id x => exact .inl (Run.agree_content hc hw hD hfits z)
      | object id target => exact .inl (Run.agree_object hw.sound hfits z _)
  | some k =>
    have htk := Ty.eq_pointer hcls
    subst htk
    cases b with
    | null => exact .inl (Run.agree_null _ _ _)
    | object id target => exact .inl (Run.agree_pointer hw.sound id target k _)
    | plain id x =>
      have hread : ((Run.readOr (.plain id x) (.pointer k)).atDepth depth s.world).map Prod.fst =
          some (.pointer (Handle.null k)) := rfl
      have hconverted := Run.readConverted_other hc hw hD hfits (x.ty_ne_pointer k)
      unfold Run.answerOr at hconverted
      cases hk : (Step.typeId (.pointer k) s.world).2.types.converters.find?
        (id, (Step.typeId (.pointer k) s.world).1) with
      | none =>
        rw [hk] at hconverted
        exact .inl (hread.trans hconverted.symm)
      | some cv =>
        rw [hk] at hconverted
        exact .inr ⟨id, x, k, cv, rfl, rfl, hk, hread, hconverted⟩

/-- A text that is read as a number, converted first or not. -/
theorem Session.Leads.readOr_readConverted_text :
    let b := (Step.box (.plain (.text "41")) World.fresh).1
    let s : Session := ⟨(Step.box (.plain (.text "41")) World.fresh).2, [.value (.any b)]⟩
    ((Run.readOr b (.int .int32)).atDepth 1 s.world).map Prod.fst =
      ((Run.readConverted b (.int .int32)).atDepth 1 s.world).map Prod.fst := by
  intro b s
  have hs : Session.start.Leads ⟨True, False⟩ s := Session.Leads.refl.box fun _ => .content fun b hb => by cases hb
  have hb : Value.From s.held (.any b) := .held (List.mem_cons_self ..)
  rcases Session.Leads.readOr_readConverted trivial hs hb (t := .int .int32) (by decide) (by decide) 1 with
    h | ⟨_, _, _, _, -, ht, -⟩
  · exact h
  · cases ht

/-- The two ways differ: with a converter that makes a dog of any text, a text is read as
    pointing to no dog, but is converted to a box with one. -/
theorem Session.Leads.readOr_ne_readConverted :
    let dog := Instance.initial (.root ⟨"Dog", 0, 4⟩)
    let b := (Step.box (.plain (.text "x")) World.fresh).1
    let s : Session := ⟨(Step.addConverter ⟨.text, .pointer dog.cls, fun _ => .newObject dog⟩
      (Step.box (.plain (.text "x")) World.fresh).2).2, [.value (.any b)]⟩
    Session.start.Leads ⟨True, False⟩ s ∧ Value.From s.held (.any b) ∧
      ((Run.readOr b (.pointer dog.cls)).atDepth 1 s.world).map (fun p => p.1.object?) = some none ∧
      ((Run.readConverted b (.pointer dog.cls)).atDepth 1 s.world).map (fun p => p.1.object?) = some (some ⟨0, dog⟩) := by
  intro dog b s
  have hbox : Session.start.Leads ⟨True, False⟩ ⟨(Step.box (.plain (.text "x")) World.fresh).2, [.value (.any b)]⟩ :=
    Session.Leads.refl.box fun _ => .content fun b hb => by cases hb
  have hs := hbox.addConverter ⟨.text, .pointer dog.cls, fun _ => .newObject dog⟩ fun _ =>
    Script.obeys_newObject _ dog _
  refine ⟨hs, .held (List.mem_cons_self ..), ?_⟩
  simp only [s, b, World.fresh_eq]
  decide

/-! ## Conversions that fail -/

/-- At any depth, a supported conversion of a box that an honest program has fails exactly where
    the box is not of the wanted type and either has a content for which the converter of the
    two types was run and declined, or has a pointer, for which no converter is run. So it
    gives a box for every content for which the converter has an answer. -/
theorem Session.Leads.tableConvert_none_iff {D : Discipline} (hD : D.honest) {s : Session} (hs : Session.start.Leads D s)
    {b : Box} (hb : Value.From s.held (.any b)) (hne : b ≠ .null) {wanted : TypeId} {own : Descriptor} {v : World}
    (hown : Step.describe b s.world = (own, v)) (hcan : v.types.converts own.id wanted = true) (depth : Nat) :
    (∀ u, (Run.tableConvert b wanted).atDepth depth s.world = some (none, u) ↔
      ∃ k, v.types.converters.find? (own.id, wanted) = some k ∧ ¬ (own.id = wanted ∨ v.types.sameType own.id wanted = true) ∧
        ((∃ x, b = .plain own.id x ∧ (k.answer x).atDepth depth v = some (none, u)) ∨
          ∃ id target, b = .object id target ∧ u = v)) ∧
    ∀ x k, b = .plain own.id x → v.types.converters.find? (own.id, wanted) = some k →
      ∀ y u, (k.answer x).atDepth depth v = some (some y, u) →
        ∃ b' u', (Run.tableConvert b wanted).atDepth depth s.world = some (some b', u') := by
  obtain ⟨hw, hheld⟩ := hs.good
  have hfits : b.Fits s.world.registries := D.fits_from hheld (fun _ => hb) hD
  have htable := Run.tableConvert_eq hown wanted (Script.run depth)
  -- a box of the wanted type is given back before any converter is looked up
  by_cases hsame : own.id = wanted ∨ v.types.sameType own.id wanted = true
  · rw [if_pos hsame] at htable
    refine ⟨fun u => ⟨fun h => ?_, fun ⟨_, _, hother, _⟩ => absurd hsame hother⟩, fun _ _ _ _ _ _ _ => ⟨b, v, htable⟩⟩
    cases htable.symm.trans h
  obtain ⟨k, hk⟩ : ∃ k, v.types.converters.find? (own.id, wanted) = some k := by
    refine (Table.contains_iff _ _).mp ?_
    simp only [TypeTable.converts, Bool.or_eq_true, beq_iff_eq] at hcan
    exact hcan.resolve_left hsame
  rw [if_neg hsame, hk] at htable
  cases b with
  | null => exact absurd rfl hne
  | object id target =>
    have hnone : (Run.tableConvert (.object id target) wanted).atDepth depth s.world = some (none, v) :=
      htable.trans (Run.applyConverter_of_none rfl _ v)
    refine ⟨fun u => ⟨fun h => ⟨k, hk, hsame, .inr ⟨id, target, rfl, ?_⟩⟩, ?_⟩, fun _ _ h => (by cases h)⟩
    · cases hnone.symm.trans h; rfl
    · rintro ⟨_, _, _, ⟨_, hplain, _⟩ | ⟨_, _, _, rfl⟩⟩
      · cases hplain
      · exact hnone
  | plain id x =>
    cases hown
    simp only [TypeTable.descriptor_id] at hsame hk htable ⊢
    have htable := Run.tableConvert_content hw.sound hfits hsame (Script.run depth)
    rw [hk] at htable
    have hnone : ∀ u, (Run.tableConvert (.plain id x) wanted).atDepth depth s.world = some (none, u) ↔
        (k.answer x).atDepth depth s.world = some (none, u) := fun u => by
      unfold Run.atDepth
      rw [htable]
      exact Run.boxAnswer_none_iff
    refine ⟨fun u => (hnone u).trans ⟨fun h => ⟨k, hk, hsame, .inl ⟨x, rfl, h⟩⟩, ?_⟩, fun x' k' hx hk' y u h => ?_⟩
    · rintro ⟨k', hk', -, ⟨x', hx, h⟩ | ⟨_, _, hobject, -⟩⟩
      · cases hx
        cases hk.symm.trans hk'; exact h
      · cases hobject
    · cases hx
      cases hk.symm.trans hk'
      refine ⟨(Step.box y u).1, (Step.box y u).2, htable.trans ?_⟩
      dsimp only
      rw [show k.answer x (Script.run depth) s.world = some (some y, u) from h]; rfl

/-- A text that is no number is converted to none, for the converter declines. -/
theorem Session.Leads.tableConvert_none_text :
    let b := (Step.box (.plain (.text "x")) World.fresh).1
    let s : Session := ⟨(Step.box (.plain (.text "x")) World.fresh).2, [.value (.any b)]⟩
    ∃ k x u, b = .plain (Step.describe b s.world).1.id x ∧
      (Step.describe b s.world).2.types.converters.find? ((Step.describe b s.world).1.id, ⟨3⟩) = some k ∧
      (k.answer x).atDepth 1 (Step.describe b s.world).2 = some (none, u) := by
  intro b s
  have hs : Session.start.Leads ⟨True, False⟩ s := Session.Leads.refl.box fun _ => .content fun b hb => by cases hb
  have hb : Value.From s.held (.any b) := .held (List.mem_cons_self ..)
  have hnull : b.isNull = false := by simp only [b, World.fresh_eq]; decide
  have hne : b ≠ .null := fun h => by rw [h] at hnull; cases hnull
  have hcan : (Step.describe b s.world).2.types.converts (Step.describe b s.world).1.id ⟨3⟩ = true := by
    simp only [s, b, World.fresh_eq]; decide
  have hfails : ((Run.tableConvert b ⟨3⟩).atDepth 1 s.world).map (fun p => p.1.isNone) = some true := by
    simp only [s, b, World.fresh_eq]; decide
  obtain ⟨⟨o, u⟩, htable, hnone⟩ := Option.map_eq_some_iff.mp hfails
  obtain rfl : o = none := Option.isNone_iff_eq_none.mp hnone
  have hown : Step.describe b s.world = ((Step.describe b s.world).1, (Step.describe b s.world).2) :=
    (Prod.eta _).symm
  obtain ⟨hiff, -⟩ := Session.Leads.tableConvert_none_iff trivial hs hb hne hown hcan 1
  obtain ⟨k, hk, -, ⟨x, hx, hanswer⟩ | ⟨_, _, hobject, -⟩⟩ := (hiff u).mp htable
  · exact ⟨k, x, u, hx, hk, hanswer⟩
  · have hcontent : (b.downcast .text).isSome = true := by simp only [b, World.fresh_eq]; decide
    rw [hobject] at hcontent; cases hcontent

/-- A converter of dogs to texts is registered, and the conversion of a dog to a text is
    supported; it fails, though the converter never declines. -/
theorem Session.Leads.tableConvert_pointer_fails :
    let dog := Instance.initial (.root ⟨"Dog", 0, 4⟩)
    let k : Converter := ⟨.pointer dog.cls, .text, fun _ => .done (.plain (.text "dog"))⟩
    let b := (Step.box (.pointer ⟨dog.cls, some ⟨0, dog⟩⟩) World.fresh).1
    let s : Session := ⟨(Step.addConverter k (Step.box (.pointer ⟨dog.cls, some ⟨0, dog⟩⟩) World.fresh).2).2,
      [.value (.any b)]⟩
    Session.start.Leads ⟨True, False⟩ s ∧ Value.From s.held (.any b) ∧ b.isNull = false ∧
      s.world.types.entries.contains ⟨9⟩ = true ∧ (Step.descriptorOf .text s.world).1.id = ⟨9⟩ ∧
      (Step.describe b s.world).2.types.converts (Step.describe b s.world).1.id ⟨9⟩ = true ∧
      ((Run.tableConvert b ⟨9⟩).atDepth 1 s.world).map (fun p => p.1.isNone) = some true := by
  intro dog k b s
  have hbox : Session.start.Leads ⟨True, False⟩
      ⟨(Step.box (.pointer ⟨dog.cls, some ⟨0, dog⟩⟩) World.fresh).2, [.value (.any b)]⟩ :=
    Session.Leads.refl.box fun _ => .object ⟨0, dog⟩
  have hs := hbox.addConverter k fun _ _ => .content fun b hb => by cases hb
  refine ⟨hs, .held (List.mem_cons_self ..), ?_⟩
  simp only [s, b, World.fresh_eq]
  decide

end Multimethod
