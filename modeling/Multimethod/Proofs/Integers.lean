/-
  Multimethod.Proofs.Integers — builtin conversions of integers, to other kinds and to texts.

  Where a builtin converter has not been replaced (`World.Unreplaced`), it serves its pair of
  types, so a box of a content is read as, and converted to, what `Content.convert` makes
  of the content (`readAs_unreplaced`, `convert_unreplaced`); that no other converter was
  registered for the pair can be told from the journal (`World.Reached.unreplaced`). For two
  kinds of integers that is wrapping, also where both are one kind and the table is not
  asked (`convert_int`). Hence the two laws about integers, in every such world: a number
  that is written as a text is read from it exactly where it is in range
  (`World.Reached.readAs_written`), and a conversion by way of a kind that is wide enough
  is the conversion without it (`World.Reached.convertVia_wide`).
-/
import Multimethod.Proofs.Numerals
import Multimethod.Proofs.Registering

namespace Multimethod

namespace Run

/-- Puts a content into a box and reads the box as a type. -/
def readAs (x : Content) (t : Ty) : Run (Option Value) := do read (← Step.box (.plain x)) t

/-- Puts a content into a box and reads the box as a type, or takes the default value. -/
def readAsOr (x : Content) (t : Ty) : Run Value := do readOr (← Step.box (.plain x)) t

/-- Puts a content into a box, and converts the box to a type and then to another one. -/
def convertVia (x : Content) (s t : Ty) : Run Box := do
  let converted ← convert (← Step.box (.plain x)) (← Step.typeId s)
  convert converted (← Step.typeId t)

theorem readAsOr_of_readAs {x : Content} {t : Ty} {depth : Nat} {w v : World} {o : Option Value}
    (h : (readAs x t).atDepth depth w = some (o, v)) :
    (readAsOr x t).atDepth depth w = some (o.getD t.default, v) := by
  have hread : read (Step.box (.plain x) w).1 t (Script.run depth) (Step.box (.plain x) w).2 = some (o, v) := h
  show readOr (Step.box (.plain x) w).1 t (Script.run depth) (Step.box (.plain x) w).2 = _
  rw [readOr_eq, hread]; rfl

/-- Where the types have numbers and the first conversion ends, the second one is left. -/
theorem convertVia_of_numbers {x : Content} {s t : Ty} {w : World} {i j n : TypeId} (hi : w.types.Numbers x.ty i)
    (hj : w.types.Numbers s j) (hn : w.types.Numbers t n) {depth : Nat} {b : Box}
    (h : (convert (.plain i x) j).atDepth depth w = some (b, w)) :
    (convertVia x s t).atDepth depth w = (convert b n).atDepth depth w := by
  unfold atDepth at h ⊢
  have hvia : convertVia x s t (Script.run depth) w =
      (convert (Step.box (.plain x) w).1 (Step.typeId s (Step.box (.plain x) w).2).1 (Script.run depth)
        (Step.typeId s (Step.box (.plain x) w).2).2).bind fun p =>
          convert p.1 (Step.typeId t p.2).1 (Script.run depth) (Step.typeId t p.2).2 := rfl
  rw [hvia, Step.box_content hi, Step.typeId_of_numbers hj, h, Option.bind_some, Step.typeId_of_numbers hn]

end Run

theorem Ty.plain_int (k : IntKind) : (Ty.int k).Plain := ⟨rfl, by simp, by simp⟩

theorem Ty.plain_text : Ty.text.Plain := ⟨rfl, by simp, by simp⟩

/-! ## Builtin converters -/

/-- The builtin converter between two types is in the table, if there is need for one. -/
def World.Unreplaced (w : World) (s t : Ty) : Prop :=
  s = t ∨ ∃ i j, w.types.Numbers s i ∧ w.types.Numbers t j ∧
    w.types.converters.find? (i, j) = some (TypeTable.builtinConverter s t)

/-- Converting to a type gives a content of that type. -/
theorem Content.ty_convert {x y : Content} {t : Ty} (h : x.convert t = some y) : y.ty = t := by
  cases x <;> cases t <;> first
    | (cases h; done)
    | (cases h; rfl)
    | (obtain ⟨z, -, rfl⟩ := Option.map_eq_some_iff.mp h; rfl)

/-- A builtin converter answers what the content converts to. -/
theorem Run.answer_builtin (s t : Ty) (x : Content) (depth : Nat) (w : World) :
    ((TypeTable.builtinConverter s t).answer x).atDepth (depth + 1) w = some ((x.convert t).map .plain, w) := by
  unfold atDepth Converter.answer TypeTable.builtinConverter
  rw [bind_apply]
  dsimp only
  cases hx : x.convert t with
  | none => rfl
  | some y =>
    have hty : (Value.plain y).ty = t := Content.ty_convert hx
    show some (if (Value.plain y).ty = t then some (Value.plain y) else none, w) = _
    rw [if_pos hty]; rfl

namespace World

variable {w : World} {s t : Ty} {i j : TypeId}

/-- A builtin type has the number everywhere that it has at the start. -/
theorem Reached.numbers_builtin (hw : w.Reached) (hi : Registries.builtinTypes.byType.find? t = some i) :
    w.types.Numbers t i := by
  have hnone : Registries.builtinTypes.byType.find? .any = none := by decide
  have hany : t ≠ .any := fun h => by rw [h, hnone] at hi; cases hi
  have hbound : fresh.registries.types.Numbers t i := .inr ⟨hany, by rw [fresh_eq]; exact hi⟩
  have hgrow : Registries.Grows fresh.registries w.registries := Leads.grows .refl hw
  exact hgrow.numbers hbound

theorem Reached.exists_numbers_int (hw : w.Reached) (k : IntKind) : ∃ i, w.types.Numbers (.int k) i := by
  have hbound : ∀ k, (Registries.builtinTypes.byType.find? (.int k)).isSome = true := by
    intro k; cases k <;> decide
  obtain ⟨i, hi⟩ := Option.isSome_iff_exists.mp (hbound k)
  exact ⟨i, hw.numbers_builtin hi⟩

/-- While the journal records no converter for a supported pair, the pair has its builtin one. -/
theorem Reached.unreplaced (hw : w.Reached) (h : (s, t) ∈ Conversion.pairs)
    (hnone : w.timesRegistered (Step.typeId s w).1 (Step.typeId t w).1 = 0) : w.Unreplaced s t := by
  obtain ⟨hs, ht⟩ := Registries.find?_builtinNumber _ h
  have hi := hw.numbers_builtin hs
  have hj := hw.numbers_builtin ht
  rw [Step.typeId_of_numbers hi, Step.typeId_of_numbers hj] at hnone
  have hstart : ∀ i j, fresh.timesRegistered i j = 0 := fun _ _ => rfl
  have hkept := Leads.converter_kept hw (hnone.trans (hstart _ _).symm)
  have hlisted : fresh.types.converters.find? (Registries.builtinNumber s, Registries.builtinNumber t) =
      some (TypeTable.builtinConverter s t) := by
    rw [fresh_eq]
    exact Table.find?_of_mem Registries.nodup_listConverters (Registries.mem_listConverters h)
  exact .inr ⟨_, _, hi, hj, hkept.trans hlisted⟩

/-- A world in which numbers of 32 bits with signs are no longer written as texts. -/
def unwritten : World := (Step.addConverter ⟨.int .int32, .text, fun _ => .decline⟩ fresh).2

theorem reached_unwritten : unwritten.Reached := .addConverter fresh _

/-- All other builtin converters are left. -/
theorem unreplaced_unwritten (h : (s, t) ∈ Conversion.pairs) (hne : (s, t) ≠ (.int .int32, .text)) :
    unwritten.Unreplaced s t := by
  have hall : ∀ p ∈ Conversion.pairs, p ≠ (.int .int32, .text) →
      unwritten.timesRegistered (Step.typeId p.1 unwritten).1 (Step.typeId p.2 unwritten).1 = 0 := by
    rw [unwritten, fresh_eq]; decide
  exact reached_unwritten.unreplaced h (hall (s, t) h hne)

/-! ## Boxes of contents -/

/-- A builtin converter that has not been replaced serves its types. -/
theorem Reached.serves_builtin (hw : w.Reached) (hs : s.Plain) (ht : t.Plain) (hne : s ≠ t) (h : w.Unreplaced s t) :
    ∃ i j, w.types.Numbers s i ∧ w.types.Numbers t j ∧ (TypeTable.builtinConverter s t).Serves i j w := by
  rcases h with rfl | ⟨i, j, hi, hj, hfind⟩
  · exact absurd rfl hne
  · exact ⟨i, j, hi, hj, Converter.serves hw hs ht hne hi hj hfind⟩

section

variable (hw : w.Reached) {x : Content} (hs : x.ty.Plain) (ht : t.Plain) (hne : x.ty ≠ t) (h : w.Unreplaced x.ty t)
include hw hs ht hne h

theorem Reached.readAs_unreplaced (depth : Nat) :
    (Run.readAs x t).atDepth (depth + 1) w = some ((x.convert t).map .plain, w) := by
  obtain ⟨i, j, -, -, hserves⟩ := hw.serves_builtin hs ht hne h
  exact (hserves.read x rfl (depth + 1)).trans (Run.answer_builtin x.ty t x depth w)

theorem Reached.convert_unreplaced (hi : w.types.Numbers x.ty i) (hj : w.types.Numbers t j) {y : Content}
    (hy : x.convert t = some y) (depth : Nat) :
    (Run.convert (.plain i x) j).atDepth (depth + 1) w = some (.plain j y, w) := by
  obtain ⟨i', j', hi', hj', hserves⟩ := hw.serves_builtin hs ht hne h
  obtain rfl := hi'.eq hi
  obtain rfl := hj'.eq hj
  have hbox : Step.box (.plain y) w = (.plain j' y, w) := Step.box_content (Content.ty_convert hy ▸ hj)
  have hconvert := hserves.convert x rfl (depth + 1)
  rw [Step.box_content hi, Run.answer_builtin, hy] at hconvert
  rw [hconvert]
  simp only [Option.map_some, Step.boxAnswer, Step.bind_apply, hbox, Step.pure_apply, Option.getD_some]

end

/-! ## Integers to integers -/

section

variable (hw : w.Reached) {k l : IntKind} (h : w.Unreplaced (.int k) (.int l)) (v : BitVec k.width) (depth : Nat)
include hw h

/-- An integer is read as the value of the other kind that it is wrapped to. -/
theorem Reached.readAs_int :
    (Run.readAs (.int k v) (.int l)).atDepth (depth + 1) w = some (some (.plain (.int l (l.wrap (k.toInt v)))), w) := by
  by_cases hkl : k = l
  · subst hkl
    obtain ⟨i, hi⟩ := hw.exists_numbers_int k
    have hbox : Step.box (.plain (.int k v)) w = (.plain i (.int k v), w) := Step.box_content hi
    show Run.read (Step.box (.plain (.int k v)) w).1 (.int k) _ (Step.box (.plain (.int k v)) w).2 = _
    rw [hbox, k.wrap_toInt]
    exact Run.read_content i (.int k v) _ w
  · have hne : Ty.int k ≠ .int l := fun h => hkl (Ty.int.inj h)
    exact hw.readAs_unreplaced (x := .int k v) (Ty.plain_int k) (Ty.plain_int l) hne h depth

/-- A box of it is converted to the box of that value; the table keeps a box of the kind itself. -/
theorem Reached.convert_int (hi : w.types.Numbers (.int k) i) (hj : w.types.Numbers (.int l) j) :
    (Run.convert (.plain i (.int k v)) j).atDepth (depth + 1) w =
      some (.plain j (.int l (l.wrap (k.toInt v))), w) := by
  by_cases hkl : k = l
  · subst hkl
    obtain rfl := hi.eq hj
    have hdescribe : Step.describe (.plain i (.int k v)) w = (w.types.descriptor i, w) := rfl
    have hown : (w.types.descriptor i).id = i ∨ w.types.sameType (w.types.descriptor i).id i = true :=
      .inl (TypeTable.descriptor_id ..)
    unfold Run.atDepth
    rw [Run.convert_content, Run.tableConvert_eq hdescribe, if_pos hown, k.wrap_toInt]; rfl
  · have hne : Ty.int k ≠ .int l := fun h => hkl (Ty.int.inj h)
    exact hw.convert_unreplaced (x := .int k v) (Ty.plain_int k) (Ty.plain_int l) hne h hi hj rfl depth

end

/-- Whatever was done before, where the builtin converters between three kinds of integers have not
    been replaced and the last kind is no wider than the one in the middle: an integer is read
    as the last kind, and always as the one value that is congruent to it modulo the kind's
    power of two, which is the integer itself if the last kind is its own; and a box of the
    integer that is converted to the middle kind and then to the last is the box of that very
    value. -/
theorem Reached.convertVia_wide (hw : w.Reached) {k l m : IntKind} (hkl : w.Unreplaced (.int k) (.int l))
    (hlm : w.Unreplaced (.int l) (.int m)) (hkm : w.Unreplaced (.int k) (.int m)) (hwide : m.width ≤ l.width)
    (v : BitVec k.width) :
    ∃ z : BitVec m.width, (∀ y, y = z ↔ m.toInt y ≡ k.toInt v [ZMOD 2 ^ m.width]) ∧
      (m = k → Content.int m z = .int k v) ∧
      ∃ b, Step.box (.plain (.int m z)) w = (b, w) ∧ ∀ depth,
        (Run.readAs (.int k v) (.int m)).atDepth (depth + 1) w = some (some (.plain (.int m z)), w) ∧
        (Run.convertVia (.int k v) (.int l) (.int m)).atDepth (depth + 1) w = some (b, w) ∧
        (Run.read b (.int m)).atDepth (depth + 1) w = some (some (.plain (.int m z)), w) := by
  obtain ⟨i, hi⟩ := hw.exists_numbers_int k
  obtain ⟨j, hj⟩ := hw.exists_numbers_int l
  obtain ⟨n, hn⟩ := hw.exists_numbers_int m
  refine ⟨m.wrap (k.toInt v), fun y => m.eq_wrap_iff, ?_, .plain n (.int m (m.wrap (k.toInt v))),
    Step.box_content hn, fun depth => ⟨hw.readAs_int hkm v depth, ?_, Run.read_content n (.int m _) _ w⟩⟩
  · rintro rfl
    rw [m.wrap_toInt]
  · have hfirst := hw.convert_int hkl v depth hi hj
    have hsecond := hw.convert_int hlm (l.wrap (k.toInt v)) depth hj hn
    rw [IntKind.wrap_toInt_wrap hwide] at hsecond
    exact (Run.convertVia_of_numbers hi hj hn hfirst).trans hsecond

/-- Minus one comes back from a detour through numbers without signs, as 32 bits and as 64. -/
theorem Reached.convertVia_wide_negative :
    let minus : Content := .int .int32 (-1)
    ∀ depth,
      (Run.convertVia minus (.int .uint64) (.int .int32)).atDepth (depth + 1) unwritten =
        some (.plain ⟨3⟩ minus, unwritten) ∧
      (Run.convertVia minus (.int .uint64) (.int .int64)).atDepth (depth + 1) unwritten =
        some (.plain ⟨5⟩ (.int .int64 (-1)), unwritten) := by
  intro minus depth
  have hints : ∀ k l, unwritten.Unreplaced (.int k) (.int l) := fun k l =>
    unreplaced_unwritten (by cases k <;> cases l <;> decide) (by simp)
  have h32 : unwritten.types.Numbers (.int .int32) ⟨3⟩ := reached_unwritten.numbers_builtin (by decide)
  have h64 : unwritten.types.Numbers (.int .int64) ⟨5⟩ := reached_unwritten.numbers_builtin (by decide)
  obtain ⟨z, -, hback, b, hb, hz⟩ := Reached.convertVia_wide reached_unwritten (hints .int32 .uint64)
    (hints .uint64 .int32) (hints .int32 .int32) (by decide) (-1)
  obtain ⟨y, hy, -, c, hc, hy'⟩ := Reached.convertVia_wide reached_unwritten (hints .int32 .uint64)
    (hints .uint64 .int64) (hints .int32 .int64) (by decide) (-1)
  obtain rfl : -1 = y := (hy (-1)).mpr (by decide)
  rw [hback rfl, Step.box_content h32] at hb
  rw [Step.box_content h64] at hc
  cases hb
  cases hc
  exact ⟨(hz depth).2.1, (hy' depth).2.1⟩

/-! ## Integers and texts -/

/-- Whatever was done before, where the builtin converters between two kinds of integers and texts have
    not been replaced: an integer is read as its decimal text. From the text, also with white
    space around it, the other kind reads its value for that number; if the number is out of
    the kind's range there is nothing to read, and the default is zero. -/
theorem Reached.readAs_written (hw : w.Reached) {u : World} (hu : u.Reached) {k l : IntKind}
    (hk : w.Unreplaced (.int k) .text) (hl : u.Unreplaced .text (.int l)) (v : BitVec k.width) :
    let written := Decimal.writeInt (k.toInt v)
    (∀ depth, (Run.readAsOr (.int k v) .text).atDepth (depth + 1) w = some (.plain (.text written), w)) ∧
    ∃ o : Option (BitVec l.width), (∀ x, o = some x ↔ l.toInt x = k.toInt v) ∧
      (o = none ↔ k.toInt v < l.lowest ∨ l.highest < k.toInt v) ∧
      ∀ before after : String, (∀ c ∈ before.toList, Text.isBlank c = true) →
        (∀ c ∈ after.toList, Text.isBlank c = true) → ∀ depth,
        (Run.readAs (.text (before ++ written ++ after)) (.int l)).atDepth (depth + 1) u =
          some (o.map fun x => .plain (.int l x), u) ∧
        (Run.readAsOr (.text (before ++ written ++ after)) (.int l)).atDepth (depth + 1) u =
          some (.plain (.int l (o.getD 0)), u) := by
  intro written
  refine ⟨fun depth => ?_, l.read (Decimal.intChars (k.toInt v)), fun x => l.read_intChars_iff,
    l.read_intChars_none_iff, fun before after hb ha depth => ?_⟩
  · have hread := hw.readAs_unreplaced (x := .int k v) (Ty.plain_int k) Ty.plain_text (by simp [Content.ty]) hk depth
    exact Run.readAsOr_of_readAs hread
  · have hread := hu.readAs_unreplaced (x := .text (before ++ written ++ after)) Ty.plain_text (Ty.plain_int l)
      (by simp [Content.ty]) hl depth
    have htrim : Text.trim (before ++ written ++ after).toList = Decimal.intChars (k.toInt v) := by
      rw [String.toList_append, String.toList_append, show written.toList = _ from String.toList_ofList]
      exact Text.trim_intChars hb ha _
    have hconvert : ((Content.text (before ++ written ++ after)).convert (.int l)).map Value.plain =
        (l.read (Decimal.intChars (k.toInt v))).map fun x => .plain (.int l x) := by
      simp only [Content.convert, htrim, Option.map_map]; rfl
    rw [hconvert] at hread
    refine ⟨hread, (Run.readAsOr_of_readAs hread).trans ?_⟩
    cases l.read (Decimal.intChars (k.toInt v)) <;> rfl

/-- The least number of 64 bits is not lost on the way through a text, but neither 32 bits nor a
    kind without signs have it. -/
theorem Reached.readAs_written_least :
    let least : BitVec 64 := .intMin 64
    let text := "\t" ++ "-9223372036854775808" ++ " \n"
    ∀ depth,
      (Run.readAsOr (.int .int64 least) .text).atDepth (depth + 1) unwritten =
        some (.plain (.text "-9223372036854775808"), unwritten) ∧
      (Run.readAs (.text text) (.int .int64)).atDepth (depth + 1) unwritten =
        some (some (.plain (.int .int64 least)), unwritten) ∧
      (Run.readAs (.text text) (.int .int32)).atDepth (depth + 1) unwritten = some (none, unwritten) ∧
      (Run.readAsOr (.text text) (.int .uint64)).atDepth (depth + 1) unwritten =
        some (.plain (.int .uint64 0), unwritten) := by
  intro least text depth
  have hread : ∀ l, unwritten.Unreplaced .text (.int l) := fun l =>
    unreplaced_unwritten (by cases l <;> decide) (by simp)
  have hwrite : unwritten.Unreplaced (.int .int64) .text := unreplaced_unwritten (by decide) (by simp)
  have hleast : Decimal.writeInt (IntKind.int64.toInt least) = "-9223372036854775808" := by
    have htoInt : IntKind.int64.toInt least = -9223372036854775808 := by simp only [least]; decide
    have hdigits : Decimal.digits 9223372036854775808 =
        [9, 2, 2, 3, 3, 7, 2, 0, 3, 6, 8, 5, 4, 7, 7, 5, 8, 0, 8] := by simp [Decimal.digits]
    rw [htoInt]
    show String.ofList ('-' :: (Decimal.digits 9223372036854775808).map Decimal.digitChar) = _
    rw [hdigits]; rfl
  have hbefore : ∀ c ∈ "\t".toList, Text.isBlank c = true := List.all_eq_true.mp (by decide)
  have hafter : ∀ c ∈ " \n".toList, Text.isBlank c = true := List.all_eq_true.mp (by decide)
  have hlaw : ∀ l : IntKind, _ := fun l =>
    Reached.readAs_written reached_unwritten reached_unwritten hwrite (hread l) least
  rw [hleast] at hlaw
  obtain ⟨hwritten, o, hvalue, -, h64⟩ := hlaw .int64
  obtain ⟨-, o', -, hbelow, h32⟩ := hlaw .int32
  obtain ⟨-, o'', -, hnegative, hunsigned⟩ := hlaw .uint64
  obtain rfl : o = some least := (hvalue least).mpr rfl
  obtain rfl : o' = none := hbelow.mpr (.inl (by decide))
  obtain rfl : o'' = none := hnegative.mpr (.inl (by decide))
  exact ⟨hwritten depth, (h64 "\t" " \n" hbefore hafter depth).1, (h32 "\t" " \n" hbefore hafter depth).1,
    (hunsigned "\t" " \n" hbefore hafter depth).2⟩

end World

end Multimethod
