/-
  Multimethod.Proofs.Shadowing — what a dispatcher holds after any commands, and what it calls.

  Every command comes down to edits of three kinds: a function is appended, those of the
  same types are removed, or all are. `Edit.survivors` reads a trace of edits backwards: a
  function that was appended is left unless a later edit takes it away.
  - One command does its edits (`Command.functions_run`), so after a trace of commands the
    functions of a dispatcher are the survivors (`Traced.functions_eq`).
  - What a removal counts is what is missing afterwards (`Command.size_run`), and removing a
    list of functions does not depend on its order (`removeAll_perm`).
  - A call for arguments selects among the survivors, asked in the order in which they were
    appended (`Chosen`), and calls all that are selected or only the last (`CallsFound`).
  `Traced.behaviour` puts this together.
-/
import Multimethod.Proofs.Arguments

namespace Multimethod

/-! ## Edits -/

/-- A change of the functions of a dispatcher. -/
inductive Edit (n : Nat) where
  | append (f : Function n)
  | remove (f : Function n)
  | clear

namespace Edit

variable {n : Nat}

/-- Whether the edit takes away a function that was there before. -/
def takes : Edit n → Function n → Bool
  | append _, _ => false
  | remove g, f => f.sameTypes g
  | clear, _ => true

/-- The functions that were appended and that no later edit takes away, in order. -/
def survivors : List (Edit n) → List (Function n)
  | [] => []
  | append f :: later => if later.any fun e => e.takes f then survivors later else f :: survivors later
  | _ :: later => survivors later

/-- The functions after an edit. -/
def apply (fs : List (Function n)) (e : Edit n) : List (Function n) :=
  match e with
  | append f => fs ++ [f]
  | e => fs.filter fun f => !e.takes f

/-- One more edit takes functions from the survivors, or is one more survivor. -/
theorem survivors_concat (es : List (Edit n)) (e : Edit n) : survivors (es ++ [e]) = apply (survivors es) e := by
  induction es with
  | nil => cases e <;> rfl
  | cons x es ih =>
    cases x with
    | append f =>
      simp only [List.cons_append, survivors, List.any_append, List.any_cons, List.any_nil, Bool.or_false]
      by_cases hlater : (es.any fun e => e.takes f) = true
      · simp only [hlater, Bool.true_or, if_true, ih]
      · by_cases hlast : e.takes f = true
        · simp only [hlater, hlast, Bool.or_true, if_true, Bool.false_eq_true, if_false, ih]
          cases e with
          | append g => cases hlast
          | _ => simp [apply, hlast]
        · simp only [hlater, hlast, Bool.or_false, Bool.false_eq_true, if_false, ih]
          cases e with
          | append g => rfl
          | _ => simp [apply, hlast]
    | _ => exact ih

theorem survivors_append (es later : List (Edit n)) : survivors (es ++ later) = later.foldl apply (survivors es) := by
  induction later generalizing es with
  | nil => rw [List.append_nil]; rfl
  | cons e later ih =>
    rw [← List.singleton_append, ← List.append_assoc, ih, survivors_concat]; rfl

end Edit

namespace Dispatcher

variable {n : Nat}

/-! ## Commands -/

/-- What a program may do to the functions of a dispatcher. -/
inductive Command (n : Nat) where
  | append (f : Function n)
  | appendCallable (k : Callable n)
  | appendAs (s : Signature n) (k : Callable n)
  | extend (fs : List (Function n))
  | remove (f : Function n)
  | removeAs (s : Signature n)
  | removeAll (fs : List (Function n))
  | clear

namespace Command

/-- Does the command. A removal tells how many functions it removed. -/
def run (d : Dispatcher n) : Command n → Step (Dispatcher n × Option Nat)
  | append f => do return (← d.append f, none)
  | appendCallable k => do return (← d.appendCallable k, none)
  | appendAs s k => do return (← d.appendAs s k, none)
  | extend fs => do return (← d.extend fs, none)
  | remove f => do
    let (d, removed) ← d.remove f
    return (d, some removed)
  | removeAs s => do
    let (d, removed) ← d.removeAs s
    return (d, some removed)
  | removeAll fs => do
    let (d, removed) ← d.removeAll fs
    return (d, some removed)
  | clear => return (d.clear, none)

/-- The edits that a command stands for; what a callable or a signature is as a function depends
    on the world. -/
def edits : Command n → World → List (Edit n)
  | append f, _ => [.append f]
  | appendCallable k, w => [.append (Function.ofCallable k w).1]
  | appendAs s k, w => [.append (Function.withSignature s k w).1]
  | extend fs, _ => fs.map .append
  | remove f, _ => [.remove f]
  | removeAs s, w => [.remove (Function.ofSignature s w).1]
  | removeAll fs, _ => fs.map .remove
  | clear, _ => [.clear]

end Command

theorem functions_extend (d : Dispatcher n) (fs : List (Function n)) (w : World) :
    (d.extend fs w).1.functions = d.functions ++ fs := by
  induction fs generalizing d w with
  | nil => exact (List.append_nil _).symm
  | cons f fs ih =>
    have h : (d.extend (f :: fs) w).1.functions = (d.push f).functions ++ fs := ih (d.push f) _
    rw [h, push, List.append_assoc]; rfl

/-- A removal gives the rest and the number of functions that are missing in it. -/
theorem remove_fst (d : Dispatcher n) (f : Function n) (w : World) :
    (d.remove f w).1 = (d.without f, d.size - (d.without f).size) := by
  unfold remove
  by_cases h : 0 < d.size - (d.without f).size
  · simp only [h, if_true]; rfl
  · simp only [h, if_false]; rfl

theorem size_without_le (d : Dispatcher n) (f : Function n) : (d.without f).size ≤ d.size :=
  List.length_filter_le _ _

/-- Removing a list of functions leaves those that are of the types of none of them, and counts
    the others. -/
theorem removeAll_fst (d : Dispatcher n) (fs : List (Function n)) (w : World) :
    (d.removeAll fs w).1.1.functions = (d.functions.filter fun g => fs.all fun f => !g.sameTypes f) ∧
      (d.removeAll fs w).1.1.size + (d.removeAll fs w).1.2 = d.size := by
  induction fs generalizing d w with
  | nil => exact ⟨by simp [removeAll, Step.pure_apply], rfl⟩
  | cons f fs ih =>
    obtain ⟨hrest, hcount⟩ := ih (d.remove f w).1.1 (d.remove f w).2
    have hrun : (d.removeAll (f :: fs) w).1 =
        (((d.remove f w).1.1.removeAll fs (d.remove f w).2).1.1,
          (d.remove f w).1.2 + ((d.remove f w).1.1.removeAll fs (d.remove f w).2).1.2) := rfl
    have hle := size_without_le d f
    rw [hrun]
    rw [remove_fst] at hrest hcount ⊢
    refine ⟨?_, ?_⟩
    · rw [hrest, without, List.filter_filter]
      refine List.filter_congr fun g _ => ?_
      rw [List.all_cons, Bool.and_comm]
    · dsimp only at hcount ⊢
      omega

/-- The order of a list of functions does not matter for removing them. -/
theorem removeAll_perm (d : Dispatcher n) {fs fs' : List (Function n)} (h : fs.Perm fs') (w w' : World) :
    (d.removeAll fs w).1 = (d.removeAll fs' w').1 := by
  obtain ⟨hrest, hcount⟩ := d.removeAll_fst fs w
  obtain ⟨hrest', hcount'⟩ := d.removeAll_fst fs' w'
  have hall (g : Function n) : (fs.all fun f => !g.sameTypes f) = fs'.all fun f => !g.sameTypes f := by
    rw [Bool.eq_iff_iff, List.all_eq_true, List.all_eq_true]
    exact forall_congr' fun f => imp_congr_left h.mem_iff
  have hfunctions : (d.removeAll fs w).1.1 = (d.removeAll fs' w').1.1 :=
    congrArg Dispatcher.mk (by rw [hrest, hrest']; exact List.filter_congr fun g _ => hall g)
  refine Prod.ext hfunctions ?_
  rw [hfunctions] at hcount
  omega

namespace Command

/-- A command does its edits. -/
theorem functions_run (k : Command n) (d : Dispatcher n) (w : World) :
    (k.run d w).1.1.functions = (k.edits w).foldl Edit.apply d.functions := by
  cases k with
  | append f => rfl
  | appendCallable k => rfl
  | appendAs s k => rfl
  | extend fs =>
    have happly (l : List (Function n)) : (fs.map Edit.append).foldl Edit.apply l = l ++ fs := by
      induction fs generalizing l with
      | nil => exact (List.append_nil l).symm
      | cons f fs ih => rw [List.map_cons, List.foldl_cons, ih]; simp [Edit.apply]
    exact (d.functions_extend fs w).trans (happly _).symm
  | remove f =>
    show (d.remove f w).1.1.functions = _
    rw [remove_fst]; rfl
  | removeAs s =>
    show (d.remove (Function.ofSignature s w).1 (Function.ofSignature s w).2).1.1.functions = _
    rw [remove_fst]; rfl
  | removeAll fs =>
    have happly (l : List (Function n)) : (fs.map Edit.remove).foldl Edit.apply l =
        l.filter fun g => fs.all fun f => !g.sameTypes f := by
      induction fs generalizing l with
      | nil => simp
      | cons f fs ih =>
        rw [List.map_cons, List.foldl_cons, ih]
        simp only [Edit.apply, Edit.takes, List.filter_filter, List.all_cons]
        exact List.filter_congr fun g _ => Bool.and_comm ..
    exact (d.removeAll_fst fs w).1.trans (happly _).symm
  | clear => simp [run, edits, Edit.apply, Edit.takes, Step.pure_apply, Dispatcher.clear, empty]

/-- What a command tells that it removed is what is missing afterwards. -/
theorem size_run (k : Command n) (d : Dispatcher n) (w : World) {removed : Nat}
    (h : (k.run d w).1.2 = some removed) : (k.run d w).1.1.size + removed = d.size := by
  have remove (f : Function n) (w : World) : (d.remove f w).1.1.size + (d.remove f w).1.2 = d.size := by
    have hle := size_without_le d f
    rw [remove_fst]
    dsimp only
    omega
  cases k with
  | remove f => cases h; exact remove f w
  | removeAs s => cases h; exact remove _ _
  | removeAll fs => cases h; exact (d.removeAll_fst fs w).2
  | _ => cases h

end Command

/-- The dispatcher came of an empty one by commands, each given in any world; the list holds
    their edits. -/
inductive Traced : Dispatcher n → List (Edit n) → Prop
  | start : Traced .empty []
  | step {d : Dispatcher n} {es : List (Edit n)} (h : Traced d es) (k : Command n) (w : World) :
      Traced (k.run d w).1.1 (es ++ k.edits w)

/-- The functions of a dispatcher are those that survived its trace. -/
theorem Traced.functions_eq {d : Dispatcher n} {es : List (Edit n)} (h : d.Traced es) :
    d.functions = Edit.survivors es := by
  induction h with
  | start => rfl
  | step _ k w ih => rw [k.functions_run, ih, Edit.survivors_append]

/-! ## Calls -/

/-- Of functions that are asked in order whether the argument types convert to their parameter
    types, those that do. Asking may run factories, so each is asked in the world that the one
    before leaves. -/
inductive Chosen (c : Caller) (types : List Descriptor) : World → List (Function n) → List (Function n) → World → Prop
  | nil (w : World) : Chosen c types w [] [] w
  | accepts {f : Function n} {fs found : List (Function n)} {w u v : World}
      (h : Run.allConvertible types f.params c w = some (true, u)) (hrest : Chosen c types u fs found v) :
      Chosen c types w (f :: fs) (f :: found) v
  | refuses {f : Function n} {fs found : List (Function n)} {w u v : World}
      (h : Run.allConvertible types f.params c w = some (false, u)) (hrest : Chosen c types u fs found v) :
      Chosen c types w (f :: fs) found v

theorem select_eq_some_iff {c : Caller} {types : List Descriptor} {fs found : List (Function n)} {w v : World} :
    Run.select (fun f => Run.allConvertible types f.params) fs c w = some (found, v) ↔
      Chosen c types w fs found v := by
  constructor
  · intro h
    induction fs generalizing w found with
    | nil => cases h; exact .nil _
    | cons f fs ih =>
      obtain ⟨passed, u, hf, h⟩ := Run.bind_eq_some.mp h
      obtain ⟨others, u', hrest, h⟩ := Run.bind_eq_some.mp h
      cases passed with
      | true => cases h; exact .accepts hf (ih hrest)
      | false => cases h; exact .refuses hf (ih hrest)
  · intro h
    induction h with
    | nil w => rfl
    | accepts h _ ih => exact Run.bind_eq_some.mpr ⟨_, _, h, Run.bind_eq_some.mpr ⟨_, _, ih, rfl⟩⟩
    | refuses h _ ih => exact Run.bind_eq_some.mpr ⟨_, _, h, Run.bind_eq_some.mpr ⟨_, _, ih, rfl⟩⟩

/-- The results of an "all" and a "one" call when the functions `found` have been selected in the
    world `u`: all are called in order, or only the last; without any, nothing is the result. -/
structure CallsFound (c : Caller) (types : List Descriptor) (args : List Box) (found : List (Function n)) (u : World)
    (all : Option (List Box × World)) (one : Option (Box × World)) : Prop where
  all_eq : all = (found.mapM fun f => f.call args : Run (List Box)) c (report types found u).2
  one_eq : ∀ f, found.getLast? = some f → one = f.call args c (report types found u).2
  one_null : found = [] → one = some (.null, (report types found u).2)

theorem CallsFound.of_found (c : Caller) (types : List Descriptor) (args : List Box) (found : List (Function n))
    (u : World) : CallsFound c types args found u
      ((found.mapM fun f => f.call args : Run (List Box)) c (report types found u).2)
      (callLast found args c (report types found u).2) where
  all_eq := rfl
  one_eq f hf := by rw [callLast, hf]
  one_null hnone := by subst hnone; rfl

section

variable (d : Dispatcher n) (args : List Box) (c : Caller) (w : World)

theorem length_typesOf : (Step.typesOf args w).1.length = args.length := by
  induction args generalizing w with
  | nil => rfl
  | cons b args ih => rw [Step.typesOf_cons, List.length_cons, ih, List.length_cons]

/-- With no more arguments than parameters, exact calls are for the functions whose parameter
    types the argument types exactly are. -/
theorem callsFound_exact (hn : args.length ≤ n) :
    CallsFound c (Step.typesOf args w).1 args
      (d.functions.filter fun f => Descriptor.allExactly (Step.typesOf args w).1 f.params) (Step.typesOf args w).2
      (d.callAllExact args c w) (d.callOneExact args c w) := by
  have hselect : d.exactlyArgs args w = report (Step.typesOf args w).1
      (d.functions.filter fun f => Descriptor.allExactly (Step.typesOf args w).1 f.params) (Step.typesOf args w).2 := by
    show d.exactly (Step.typesOf args w).1 (Step.typesOf args w).2 = _
    have hle : ¬ n < (Step.typesOf args w).1.length := by rw [length_typesOf]; omega
    rw [exactly, if_neg hle]
  have hfound := CallsFound.of_found c (Step.typesOf args w).1 args
    (d.functions.filter fun f => Descriptor.allExactly (Step.typesOf args w).1 f.params) (Step.typesOf args w).2
  have hall : d.callAllExact args c w =
      ((d.exactlyArgs args w).1.mapM fun f => f.call args : Run (List Box)) c (d.exactlyArgs args w).2 := rfl
  have hone : d.callOneExact args c w = callLast (d.exactlyArgs args w).1 args c (d.exactlyArgs args w).2 := rfl
  rw [hall, hone, hselect, Run.report_fst]
  exact hfound

/-- Calls by conversion are for the functions that are chosen by asking, and end only if that does. -/
theorem callsFound_convertible (hn : args.length ≤ n) :
    (∀ found v, Chosen c (Step.typesOf args w).1 (Step.typesOf args w).2 d.functions found v →
      CallsFound c (Step.typesOf args w).1 args found v (d.callAllConvertible args c w)
        (d.callOneConvertible args c w)) ∧
    ((¬ ∃ found v, Chosen c (Step.typesOf args w).1 (Step.typesOf args w).2 d.functions found v) →
      d.callAllConvertible args c w = none ∧ d.callOneConvertible args c w = none) := by
  have hle : (Step.typesOf args w).1.length ≤ n := by rw [length_typesOf]; exact hn
  have hall : d.callAllConvertible args c w =
      (d.convertible (Step.typesOf args w).1 c (Step.typesOf args w).2).bind fun p =>
        (p.1.mapM fun f => f.call args : Run (List Box)) c p.2 := rfl
  have hone : d.callOneConvertible args c w =
      (d.convertible (Step.typesOf args w).1 c (Step.typesOf args w).2).bind fun p => callLast p.1 args c p.2 := rfl
  rw [hall, hone]
  constructor
  · intro found v hchosen
    rw [Run.convertible_of_select hle (select_eq_some_iff.mpr hchosen)]
    exact CallsFound.of_found c _ args found v
  · intro hno
    have hnone : d.convertible (Step.typesOf args w).1 c (Step.typesOf args w).2 = none := by
      refine Option.eq_none_iff_forall_ne_some.mpr fun p hp => hno ?_
      rw [convertible, if_neg (Nat.not_lt.mpr hle)] at hp
      obtain ⟨found, v, hselect, -⟩ := Run.bind_eq_some.mp hp
      exact ⟨found, v, select_eq_some_iff.mp hselect⟩
    rw [hnone]
    exact ⟨rfl, rfl⟩

/-- With more arguments than parameters nothing is called. -/
theorem calls_refused (hn : n < args.length) :
    ∃ v, v.registries = (Step.typesOf args w).2.registries ∧ d.callAllExact args c w = some ([], v) ∧
      d.callOneExact args c w = some (.null, v) ∧ d.callAllConvertible args c w = some ([], v) ∧
      d.callOneConvertible args c w = some (.null, v) := by
  have hlt : n < (Step.typesOf args w).1.length := by rw [length_typesOf]; exact hn
  have hexact : d.exactlyArgs args w = refuse (Step.typesOf args w).1 (Step.typesOf args w).2 := by
    show d.exactly (Step.typesOf args w).1 (Step.typesOf args w).2 = _
    rw [exactly, if_pos hlt]
  have hconvertible : d.convertibleArgs args c w =
      some (refuse (Step.typesOf args w).1 (Step.typesOf args w).2) := by
    show d.convertible (Step.typesOf args w).1 c (Step.typesOf args w).2 = _
    rw [convertible, if_pos hlt]; rfl
  refine ⟨(refuse (n := n) (Step.typesOf args w).1 (Step.typesOf args w).2).2, rfl, ?_, ?_, ?_, ?_⟩
  · show ((d.exactlyArgs args w).1.mapM fun f => f.call args : Run (List Box)) c (d.exactlyArgs args w).2 = _
    rw [hexact]; rfl
  · show callLast (d.exactlyArgs args w).1 args c (d.exactlyArgs args w).2 = _
    rw [hexact]; rfl
  · show (d.convertibleArgs args c w).bind _ = _
    rw [hconvertible]; rfl
  · show (d.convertibleArgs args c w).bind _ = _
    rw [hconvertible]; rfl

end

/-- After any commands on an empty dispatcher: its functions are the survivors of the trace;
    a further removal counts what it removes; the order of the functions to remove does not
    matter; and for any arguments, in any world and at any depth, no more arguments than
    parameters lead to calls of the survivors that accept them, exactly or as they are asked in
    order, of all in the order in which they were appended or of the last one only, and more
    arguments lead to no call. -/
theorem Traced.behaviour {d : Dispatcher n} {es : List (Edit n)} (h : d.Traced es) :
    d.functions = Edit.survivors es ∧
    (∀ k w removed, (Command.run d k w).1.2 = some removed → (Command.run d k w).1.1.size + removed = d.size) ∧
    (∀ fs fs' : List (Function n), fs.Perm fs' → ∀ w w', (d.removeAll fs w).1 = (d.removeAll fs' w').1) ∧
    ∀ args w depth,
      (args.length ≤ n →
        CallsFound (Script.run depth) (Step.typesOf args w).1 args
          ((Edit.survivors es).filter fun f => Descriptor.allExactly (Step.typesOf args w).1 f.params)
          (Step.typesOf args w).2 ((d.callAllExact args).atDepth depth w) ((d.callOneExact args).atDepth depth w) ∧
        (∀ found v,
          Chosen (Script.run depth) (Step.typesOf args w).1 (Step.typesOf args w).2 (Edit.survivors es) found v →
            CallsFound (Script.run depth) (Step.typesOf args w).1 args found v
              ((d.callAllConvertible args).atDepth depth w) ((d.callOneConvertible args).atDepth depth w)) ∧
        ((¬ ∃ found v,
            Chosen (Script.run depth) (Step.typesOf args w).1 (Step.typesOf args w).2 (Edit.survivors es) found v) →
          (d.callAllConvertible args).atDepth depth w = none ∧
            (d.callOneConvertible args).atDepth depth w = none)) ∧
      (n < args.length →
        ∃ v, v.registries = (Step.typesOf args w).2.registries ∧
          (d.callAllExact args).atDepth depth w = some ([], v) ∧
          (d.callOneExact args).atDepth depth w = some (.null, v) ∧
          (d.callAllConvertible args).atDepth depth w = some ([], v) ∧
          (d.callOneConvertible args).atDepth depth w = some (.null, v)) := by
  have hfunctions := h.functions_eq
  refine ⟨hfunctions, fun k w _ => k.size_run d w, fun _ _ => d.removeAll_perm, fun args w depth => ⟨fun hn => ?_,
    d.calls_refused args (Script.run depth) w⟩⟩
  rw [← hfunctions]
  exact ⟨d.callsFound_exact args (Script.run depth) w hn, d.callsFound_convertible args (Script.run depth) w hn⟩

/-- Of three functions the one for texts is removed; of the two that are left, both for integers,
    a call with an integer is one of the later. -/
theorem Traced.behaviour_shadowed :
    let named (s : String) (p : Descriptor) : Function 1 := ⟨some fun _ => .done (.plain (.text s)), [p], .wild⟩
    let integer : Descriptor := ⟨⟨3⟩, "i32", none⟩
    let text : Descriptor := ⟨⟨9⟩, "String", none⟩
    let d := (Command.run .empty (.extend [named "a" integer, named "b" text, named "c" integer]) .fresh).1.1
    let rest := (Command.run d (.remove (named "d" text)) .fresh).1
    let args : List Box := [.plain ⟨3⟩ (.int .int32 5)]
    rest.1.functions = [named "a" integer, named "c" integer] ∧ rest.1.size + 1 = d.size ∧
      (rest.1.callOneExact args).atDepth 0 .fresh = ((named "c" integer).call args).atDepth 0 .fresh := by
  intro named integer text d rest args
  have hd := Traced.start.step (.extend [named "a" integer, named "b" text, named "c" integer]) .fresh
  obtain ⟨-, hcount, -, -⟩ := hd.behaviour
  obtain ⟨hfunctions, -, -, hcalls⟩ := (hd.step (.remove (named "d" text)) .fresh).behaviour
  obtain ⟨hexact, -, -⟩ := (hcalls args .fresh 0).1 (Nat.le_refl 1)
  have hleft : rest.1.functions = [named "a" integer, named "c" integer] := hfunctions
  rw [← hfunctions] at hexact
  have hfit : Descriptor.allExactly (Step.typesOf args .fresh).1 [integer] = true := by
    rw [World.fresh_eq]; decide
  have hfound : (rest.1.functions.filter fun f => Descriptor.allExactly (Step.typesOf args .fresh).1 f.params) =
      [named "a" integer, named "c" integer] := by
    rw [hleft]
    simp [named, hfit]
  exact ⟨hleft, hcount _ _ 1 rfl, (hexact.one_eq (named "c" integer) (by rw [hfound]; rfl)).trans (by rw [hfound]; rfl)⟩

end Dispatcher

end Multimethod
