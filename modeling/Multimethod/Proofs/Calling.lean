/-
  Multimethod.Proofs.Calling — calls with any number of arguments.

  A function hands its behaviour exactly `n` boxes: further ones are cut off, missing ones
  are boxes with nothing in them (`Function.resize_eq`). Each box is then read as its
  parameter's type, and from a box with nothing in it every type reads its default value
  without asking the table, whatever converters there are, also for the unit value or for
  boxes (`Run.reads_null`). So a call is the reading of the boxes that there are, in their
  order, and a run of the callable on what was read and on default values for the rest
  (`Run.follow_resized`, `Function.call_arguments`).
-/
import Multimethod.Proofs.Converting
import Multimethod.Proofs.Delivery

namespace Multimethod

/-- The values that a callable with parameters of the given types gets for some boxes: each box is
    read as the type at its place, the first one first; boxes beyond the types are left
    alone, and a type without a box has its default value. -/
def Run.arguments (ts : List Ty) (args : List Box) : Run (List Value) := do
  let given ← (ts.zip args).mapM fun p => readOr p.2 p.1
  return given ++ (ts.drop args.length).map Ty.default

/-! ## Exactly as many boxes -/

namespace Function

variable {α : Type}

theorem resize_eq (filler : α) (n : Nat) (l : List α) :
    resize filler n l = l.take n ++ List.replicate (n - l.length) filler := by
  induction n generalizing l with
  | zero => simp [resize]
  | succ n ih =>
    cases l with
    | nil => simp [resize, ih, List.replicate_succ]
    | cons x l => simp [resize, ih]

theorem resize_of_length {filler : α} {n : Nat} {l : List α} (h : l.length = n) : resize filler n l = l := by
  rw [resize_eq, h, Nat.sub_self, List.replicate_zero, List.append_nil, List.take_of_length_le (Nat.le_of_eq h)]

theorem length_resize (filler : α) (n : Nat) (l : List α) : (resize filler n l).length = n := by
  rw [resize_eq, List.length_append, List.length_take, List.length_replicate]
  omega

/-- A call takes a list of boxes for the same list, padded with boxes that hold nothing or cut off. -/
theorem call_resize {n : Nat} (f : Function n) (args : List Box) : f.call (resize .null n args) = f.call args := by
  unfold call
  rw [resize_of_length (length_resize .null n args)]

end Function

/-! ## Reading them -/

theorem Box.ty_of_downcast {b : Box} {t : Ty} {x : Content} (h : b.downcast t = some x) : x.ty = t := by
  cases b with
  | null => cases h
  | object _ _ => cases h
  | plain id z =>
    obtain ⟨hz, hx⟩ := Option.ite_none_right_eq_some.mp h
    cases hx; exact hz

namespace Run

variable {c : Caller} {w v : World} {t : Ty} {b : Box}

theorem arguments_nil (args : List Box) : arguments [] args = pure [] := by
  simp [arguments]

theorem arguments_missing (t : Ty) (ts : List Ty) :
    arguments (t :: ts) [] = do return t.default :: (← arguments ts []) := by
  simp [arguments]

theorem arguments_given (t : Ty) (ts : List Ty) (b : Box) (args : List Box) :
    arguments (t :: ts) (b :: args) = do
      let y ← readOr b t
      return y :: (← arguments ts args) := by
  simp [arguments]

/-- A content of another type is read as the table converts it, where that has the type. -/
theorem ty_of_readContent {y : Value} (h : readContent b t c w = some (some y, v)) : y.ty = t := by
  unfold readContent at h
  cases hx : b.downcast t with
  | some x =>
    rw [hx] at h
    cases h
    exact Box.ty_of_downcast hx
  | none =>
    rw [hx] at h
    cases b with
    | null => cases h
    | object _ _ => cases h
    | plain id z =>
      obtain ⟨wanted, u, -, h⟩ := bind_eq_some.mp h
      obtain ⟨o, u', -, h⟩ := bind_eq_some.mp h
      obtain ⟨x, hx, rfl⟩ := Option.map_eq_some_iff.mp (congrArg Prod.fst (Option.some.inj h))
      obtain ⟨b', -, hdown⟩ := Option.bind_eq_some_iff.mp hx
      exact Box.ty_of_downcast hdown

/-- What is read as a type is a value of it. -/
theorem ty_of_read {y : Value} (h : read b t c w = some (some y, v)) : y.ty = t := by
  cases t with
  | void => cases h; rfl
  | any => cases h; rfl
  | pointer k =>
    cases hb : b.object? with
    | none => cases (read_pointer_of_none hb k c w).symm.trans h
    | some o =>
      rw [read_pointer_of_object hb] at h
      obtain ⟨p, hp, rfl⟩ := Option.map_eq_some_iff.mp (congrArg Prod.fst (Option.some.inj h))
      simp only [Step.pointTo, Step.bind_apply, Step.pure_apply] at hp
      split at hp
      · cases hp; rfl
      · cases hp
  | _ => exact ty_of_readContent h

theorem ty_of_readOr {y : Value} (h : readOr b t c w = some (y, v)) : y.ty = t := by
  obtain ⟨o, u, hread, ho⟩ := bind_eq_some.mp h
  cases o with
  | none => cases ho; exact Ty.ty_default t
  | some z => cases ho; exact ty_of_read hread

/-- The values are as many as the types, each of the type at its place. -/
theorem ty_of_arguments {ts : List Ty} {args : List Box} {vs : List Value}
    (h : arguments ts args c w = some (vs, v)) : vs.map Value.ty = ts := by
  induction ts generalizing args w vs with
  | nil =>
    rw [arguments_nil] at h
    cases h; rfl
  | cons t ts ih =>
    cases args with
    | nil =>
      rw [arguments_missing] at h
      obtain ⟨rest, u, hrest, h⟩ := bind_eq_some.mp h
      cases h
      rw [List.map_cons, Ty.ty_default, ih hrest]
    | cons b args =>
      rw [arguments_given] at h
      obtain ⟨y, u, hy, h⟩ := bind_eq_some.mp h
      obtain ⟨rest, u', hrest, h⟩ := bind_eq_some.mp h
      cases h
      rw [List.map_cons, ty_of_readOr hy, ih hrest]

/-- Where a script reads a resized list of boxes, it goes on with the values for the list itself. -/
theorem follow_resized (ts : List Ty) (args : List Box) (k : List Value → Script) :
    follow (Signature.readAll ts (Function.resize .null ts.length args) k) c w =
      (arguments ts args c w).bind fun p => follow (k p.1) c p.2 := by
  induction ts generalizing args k w with
  | nil => rw [arguments_nil]; rfl
  | cons t ts ih =>
    have hstep : ∀ (b : Box) (bs : List Box), follow (Signature.readAll (t :: ts) (b :: bs) k) c w =
        (readOr b t c w).bind fun p => follow (Signature.readAll ts bs fun vs => k (p.1 :: vs)) c p.2 := fun b bs => by
      rw [readOr_eq, Option.bind_assoc]; rfl
    cases args with
    | nil =>
      -- the box with nothing in it is read as the default value and nothing happens
      have hnull := (reads_null w t).readOr c
      rw [arguments_missing, bind_apply, Option.bind_assoc]
      refine (hstep .null _).trans ?_
      rw [hnull, Option.bind_some, ih]; rfl
    | cons b args =>
      rw [arguments_given, bind_apply, Option.bind_assoc]
      refine (hstep b _).trans ?_
      congr 1
      funext p
      rw [ih, bind_apply, Option.bind_assoc]; rfl

end Run

/-! ## Calls -/

/-- However many boxes the function of a callable is called with, in whatever world and at any depth:
    - the call reads the boxes by the parameter types, in order, and runs the callable on what
      was read, and on the default values where there is no box; it does nothing else;
    - it is the call for the same boxes, padded with boxes that hold nothing, or cut off;
    - the callable gets one value of each parameter's type;
    - what the callable ends with comes in a box, but a box is given back itself, and for the unit
      value the result is the box with nothing in it. -/
theorem Function.call_arguments {n : Nat} (k : Callable n) (w : World) (args : List Box) :
    let f := (ofCallable k w).1
    f.call args = (do k.call (← Run.arguments k.signature.params args)) ∧
    f.call args = f.call (args.take n ++ List.replicate (n - args.length) .null) ∧
    (∀ depth u vs v, (Run.arguments k.signature.params args).atDepth depth u = some (vs, v) →
      vs.map Value.ty = k.signature.params) ∧
    ∀ depth u vs y v, (Run.follow (k.body vs)).atDepth depth u = some (some y, v) →
      (k.call vs).atDepth depth u = some (Step.box y v) ∧
      (y.ty = .any → y = .any (Step.box y v).1 ∧ (Step.box y v).2 = v) ∧
      (y.ty = .void → Step.box y v = (.null, v)) := by
  intro f
  refine ⟨?_, ?_, fun depth u vs v h => Run.ty_of_arguments h, fun depth u vs y v h => ⟨?_, ?_, ?_⟩⟩
  · funext c u
    have hreads := Run.follow_resized (c := c) (w := u) k.signature.params args k.body
    rw [k.signature.arity] at hreads
    exact (congrArg (Option.bind · _) hreads).trans (Option.bind_assoc ..)
  · rw [← resize_eq, call_resize]
  · exact Run.bind_eq_some.mpr ⟨_, _, h, rfl⟩
  · intro hy
    cases y with
    | any b => exact ⟨rfl, rfl⟩
    | plain x => exact absurd hy x.ty_ne_any
    | _ => cases hy
  · intro hy
    cases y with
    | unit => rfl
    | plain x => cases x <;> cases hy
    | _ => cases hy

/-- Though there are converters to texts from the unit value and from boxes, a function that is called
    with a number alone gets that and default values: the empty text, the pointer to no dog
    and the box with nothing in it. Of more boxes than four it takes the first four, and gives
    back the last of them as it is. -/
theorem Function.call_arguments_missing :
    let dog : ClassDecl := .root ⟨"Dog", 0, 4⟩
    let k : Callable 4 := ⟨⟨[.int .int32, .text, .pointer dog, .any], .any, rfl⟩,
      fun vs => (vs[3]?).elim .decline .done⟩
    let answering (source : Ty) : Converter := ⟨source, .text, fun _ => .done (.plain (.text "?"))⟩
    let u := (Step.addConverter (answering .any) (Step.addConverter (answering .void) World.fresh).2).2
    let f := (ofCallable k u).1
    let seven : Content := .int .int32 7
    let last : Box := .plain ⟨9⟩ (.text "Rex")
    (∀ depth, (f.call [.plain ⟨3⟩ seven]).atDepth depth u =
      (k.call [.plain seven, .plain (.text ""), .pointer (Handle.null dog), .any .null]).atDepth depth u) ∧
    [Value.plain seven, .plain (.text ""), .pointer (Handle.null dog), .any .null].map Value.ty = k.signature.params ∧
    (f.call [.plain ⟨3⟩ seven, .null, .null, last, .null]).atDepth 0 u = some (last, u) := by
  intro dog k answering u f seven last
  clear_value u
  obtain ⟨halone, -, htypes, -⟩ := Function.call_arguments k u [.plain ⟨3⟩ seven]
  obtain ⟨hfour, -, -, hresult⟩ := Function.call_arguments k u [.plain ⟨3⟩ seven, .null, .null, last, .null]
  have hdefaults : ∀ c, Run.arguments k.signature.params [.plain ⟨3⟩ seven] c u =
      some ([.plain seven, .plain (.text ""), .pointer (Handle.null dog), .any .null], u) := fun c => rfl
  refine ⟨fun depth => ?_, htypes 0 u _ u (hdefaults _), ?_⟩
  · show (f.call [.plain ⟨3⟩ seven]) _ u = _
    rw [halone, Run.bind_apply, hdefaults]; rfl
  · have hread : ∀ c, Run.arguments k.signature.params [.plain ⟨3⟩ seven, .null, .null, last, .null] c u =
        some ([.plain seven, .plain (.text ""), .pointer (Handle.null dog), .any last], u) := fun c => rfl
    have hlast := (hresult 0 u [.plain seven, .plain (.text ""), .pointer (Handle.null dog), .any last]
      (.any last) u rfl).1
    show (f.call [.plain ⟨3⟩ seven, .null, .null, last, .null]) _ u = _
    rw [hfour, Run.bind_apply, hread]
    exact hlast

end Multimethod
