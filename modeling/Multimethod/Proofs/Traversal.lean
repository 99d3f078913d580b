/-
  Multimethod.Proofs.Traversal — what holds of every operation because it holds of the basic ones.

  Everything that a program does is put together from a few basic steps, from calls of
  scripts, and from doing one thing after another. A property is closed when the basic
  steps have it and what is put together of parts that have it has it again (`Step.Closed`,
  `Run.Closed`). The lemmas carry a closed property over, function by function, to all steps
  that register no behaviour, to every run and to every script. So a property of operations
  is proved by showing that it is closed, and a further function needs one lemma here.
-/
import Multimethod.Dispatcher

namespace Multimethod

variable {α β : Type}

namespace Step

/-- The basic steps that register no behaviour have the property, and it is kept by sequencing. -/
structure Closed (Q : (α : Type) → Step α → Prop) : Prop where
  pure : ∀ {α : Type} (a : α), Q α (pure a)
  bind : ∀ {α β : Type} {s : Step α} {f : α → Step β}, Q α s → (∀ a, Q β (f a)) → Q β (s >>= f)
  get : Q World get
  note : ∀ e, Q Unit (Step.note e)
  node : ∀ c, Q ClassNode (Step.node c)
  idOf : ∀ t, Q TypeId (Step.idOf t)
  addAlias : ∀ t name, Q (Except AliasError TypeId) (Step.addAlias t name)
  newCounter : Q Nat Step.newCounter
  tick : ∀ c, Q Nat (Step.tick c)
  allocate : ∀ i, Q Object (Step.allocate i)

namespace Closed

variable {Q : (α : Type) → Step α → Prop} (hQ : Closed Q)
include hQ

theorem ask (q : Query) : Q q.Reply (Step.ask q) := hQ.bind hQ.get fun _ => hQ.pure _

theorem typeId (t : Ty) : Q TypeId (Step.typeId t) := by
  unfold Step.typeId
  split
  · exact hQ.pure _
  · exact hQ.idOf _

theorem descriptorOf (t : Ty) : Q Descriptor (Step.descriptorOf t) :=
  hQ.bind (hQ.typeId t) fun _ => hQ.bind hQ.get fun _ => hQ.pure _

theorem highestId (n : ClassNode) : Q TypeId (Step.highestId n) :=
  hQ.bind (hQ.typeId _) fun _ => hQ.bind hQ.get fun _ => hQ.pure _

/-! ### Pointers and boxes -/

theorem pointTo (o : Object) (c : ClassDecl) : Q (Option Handle) (Step.pointTo o c) :=
  hQ.bind (hQ.node _) fun _ => hQ.bind (hQ.node _) fun _ => hQ.pure _

theorem cast (h : Handle) (c : ClassDecl) : Q Handle (Step.cast h c) := by
  unfold Step.cast
  split
  · exact hQ.pure _
  · exact hQ.bind (hQ.pointTo _ _) fun _ => hQ.pure _

theorem classOf (h : Handle) : Q ClassNode (Step.classOf h) := by
  unfold Step.classOf
  split <;> exact hQ.node _

theorem viewAs (n : ClassNode) (i : Instance) : Q (Option Instance) (Step.viewAs n i) := by
  induction i with
  | root l own => exact hQ.bind (hQ.node _) fun _ => hQ.pure _
  | derived l own p ih =>
    refine hQ.bind (hQ.node _) fun _ => ?_
    split
    · exact hQ.pure _
    · exact ih

theorem view (h : Handle) : Q (Option Instance) (Step.view h) := by
  unfold Step.view
  split
  · exact hQ.pure _
  · exact hQ.bind (hQ.node _) fun _ => hQ.bind (hQ.viewAs _ _) fun _ => hQ.pure _

theorem box (v : Value) : Q Box (Step.box v) := by
  cases v with
  | unit => exact hQ.pure _
  | any b => exact hQ.pure _
  | plain c => exact hQ.bind (hQ.typeId _) fun _ => hQ.pure _
  | pointer h => exact hQ.bind (hQ.typeId _) fun _ => hQ.pure _

theorem describe (b : Box) : Q Descriptor (Step.describe b) := by
  unfold Step.describe
  split
  · exact hQ.pure _
  · exact hQ.bind hQ.get fun _ => hQ.pure _
  · exact hQ.bind hQ.get fun _ => hQ.pure _
  · exact hQ.bind (hQ.node _) fun _ => hQ.bind (hQ.highestId _) fun _ => hQ.bind hQ.get fun _ => hQ.pure _

theorem mapM {f : α → Step β} (hf : ∀ a, Q β (f a)) (l : List α) : Q (List β) (l.mapM f) := by
  induction l with
  | nil => exact hQ.pure _
  | cons a l ih =>
    rw [List.mapM_cons]
    exact hQ.bind (hf a) fun _ => hQ.bind ih fun _ => hQ.pure _

theorem typesOf (bs : List Box) : Q (List Descriptor) (Step.typesOf bs) := hQ.mapM hQ.describe bs

theorem canConvert (b : Box) (wanted : TypeId) : Q Bool (Step.canConvert b wanted) := by
  unfold Step.canConvert
  split
  · exact hQ.pure _
  · exact hQ.bind hQ.get fun _ => hQ.pure _
  · refine hQ.bind (hQ.describe _) fun own => ?_
    split
    · exact hQ.pure _
    · refine hQ.bind hQ.get fun w => ?_
      split <;> exact hQ.pure _

theorem nullValue (id : TypeId) : Q Box (Step.nullValue id) := by
  refine hQ.bind hQ.get ?_
  intro w
  split
  · exact hQ.box _
  · exact hQ.pure _

/-! ### Exact selection -/

variable {n : Nat}

theorem refuse (types : List Descriptor) : Q (List (Function n)) (Dispatcher.refuse types) :=
  hQ.bind (hQ.note _) fun _ => hQ.pure _

theorem report (types : List Descriptor) (found : List (Function n)) :
    Q (List (Function n)) (Dispatcher.report types found) := by
  unfold Dispatcher.report
  split
  · exact hQ.bind (hQ.note _) fun _ => hQ.pure _
  · exact hQ.pure _

theorem exactly (d : Dispatcher n) (types : List Descriptor) : Q (List (Function n)) (d.exactly types) := by
  unfold Dispatcher.exactly
  split
  · exact hQ.refuse _
  · exact hQ.report _ _

theorem exactlyArgs (d : Dispatcher n) (args : List Box) : Q (List (Function n)) (d.exactlyArgs args) :=
  hQ.bind (hQ.typesOf args) fun _ => hQ.exactly d _

end Closed

end Step

namespace Run

/-- Steps with a closed property and calls have the property, and it is kept by sequencing. The
    steps that register behaviour are among those that have it. -/
structure Closed (Q : (α : Type) → Step α → Prop) (P : (α : Type) → Run α → Prop) : Prop where
  steps : Step.Closed Q
  addConverter : ∀ c, Q Unit (Step.addConverter c)
  setMaker : ∀ id make, Q Bool (Step.setMaker id make)
  addFactory : ∀ id make, Q Unit (Step.addFactory id make)
  step : ∀ {α : Type} {s : Step α}, Q α s → P α (ofStep s)
  call : ∀ s, P (Option Value) (Run.call s)
  pure : ∀ {α : Type} (a : α), P α (pure a)
  bind : ∀ {α β : Type} {r : Run α} {f : α → Run β}, P α r → (∀ a, P β (f a)) → P β (r >>= f)

namespace Closed

variable {Q : (α : Type) → Step α → Prop} {P : (α : Type) → Run α → Prop} (hP : Closed Q P)
include hP

/-! ### Conversion and creation -/

theorem callBoxed (s : Script) : P Box (Run.callBoxed s) := by
  refine hP.bind (hP.call s) ?_
  intro o
  cases o with
  | none => exact hP.pure _
  | some v => exact hP.step (hP.steps.box v)

theorem applyConverter (k : Converter) (b : Box) : P (Option Box) (Run.applyConverter k b) := by
  unfold Run.applyConverter
  cases b.downcast k.source with
  | none => exact hP.pure _
  | some x =>
    refine hP.bind (hP.call _) ?_
    intro o
    cases o with
    | none => exact hP.pure _
    | some v =>
      dsimp only
      split
      · exact hP.bind (hP.step (hP.steps.box v)) fun _ => hP.pure _
      · exact hP.pure _

theorem tableConvert (b : Box) (wanted : TypeId) : P (Option Box) (Run.tableConvert b wanted) := by
  refine hP.bind (hP.step (hP.steps.describe b)) ?_
  intro own
  split
  · exact hP.pure _
  · refine hP.bind (hP.step hP.steps.get) ?_
    intro w
    dsimp only
    split
    · exact hP.pure _
    · split
      · exact hP.pure _
      · exact hP.applyConverter _ _

theorem convert (b : Box) (wanted : TypeId) : P Box (Run.convert b wanted) := by
  cases b with
  | object id target =>
    refine hP.bind (hP.step (hP.steps.canConvert _ wanted)) ?_
    intro ok
    split <;> exact hP.pure _
  | _ => exact hP.bind (hP.tableConvert _ wanted) fun _ => hP.pure _

theorem readContent (b : Box) (t : Ty) : P (Option Value) (Run.readContent b t) := by
  unfold Run.readContent
  cases b.downcast t with
  | some c => exact hP.pure _
  | none =>
    cases b with
    | plain id c =>
      exact hP.bind (hP.step (hP.steps.typeId t)) fun wanted => hP.bind (hP.tableConvert _ wanted) fun _ => hP.pure _
    | _ => exact hP.pure _

theorem read (b : Box) (t : Ty) : P (Option Value) (Run.read b t) := by
  cases t with
  | void => exact hP.pure _
  | any => exact hP.pure _
  | pointer k =>
    unfold Run.read
    cases b.object? with
    | none => exact hP.pure _
    | some o => exact hP.bind (hP.step (hP.steps.pointTo o k)) fun _ => hP.pure _
  | _ => exact hP.readContent b _

theorem defaultValue (id : TypeId) : P Box (Run.defaultValue id) := by
  refine hP.bind (hP.step hP.steps.get) ?_
  intro w
  split
  · exact hP.callBoxed _
  · exact hP.step (hP.steps.nullValue id)

theorem create (id : TypeId) : P Box (Run.create id) := by
  refine hP.bind (hP.step hP.steps.get) ?_
  intro w
  split
  · exact hP.callBoxed _
  · exact hP.defaultValue id

theorem createNamed (name : String) : P Box (Run.createNamed name) := by
  refine hP.bind (hP.step hP.steps.get) ?_
  intro w
  split
  · exact hP.create _
  · exact hP.pure _

/-! ### Matching -/

theorem isConvertible (a b : Descriptor) : P Bool (Run.isConvertible a b) := by
  unfold Run.isConvertible
  split
  · exact hP.pure _
  · split
    · exact hP.pure _
    · split
      · split <;> exact hP.pure _
      · refine hP.bind (hP.create a.id) ?_
        intro probe
        split
        · exact hP.pure _
        · exact hP.step (hP.steps.canConvert probe b.id)

theorem allConvertible (args params : List Descriptor) : P Bool (Run.allConvertible args params) := by
  induction args generalizing params with
  | nil => exact hP.pure _
  | cons a args ih =>
    cases params with
    | nil => exact hP.pure _
    | cons p params =>
      refine hP.bind (hP.isConvertible a p) ?_
      intro ok
      split
      · exact ih params
      · exact hP.pure _

theorem select {test : α → Run Bool} (ht : ∀ x, P Bool (test x)) (l : List α) : P (List α) (Run.select test l) := by
  induction l with
  | nil => exact hP.pure _
  | cons x l ih => exact hP.bind (ht x) fun _ => hP.bind ih fun _ => hP.pure _

theorem listTypes (wanted : Option Descriptor) : P (List TypeId) (Run.listTypes wanted) := by
  refine hP.bind (hP.step hP.steps.get) ?_
  intro w
  cases wanted with
  | none => exact hP.pure _
  | some d => exact hP.select (fun _ => hP.bind (hP.step hP.steps.get) fun _ => hP.isConvertible _ d) _

/-! ### Scripts -/

theorem perform (a : Action) : P a.Reply (Run.perform a) := by
  cases a with
  | ask q => exact hP.step (hP.steps.ask q)
  | idOf t => exact hP.step (hP.steps.idOf t)
  | typeId t => exact hP.step (hP.steps.typeId t)
  | addAlias t name => exact hP.step (hP.steps.addAlias t name)
  | node c => exact hP.step (hP.steps.node c)
  | highestId n => exact hP.step (hP.steps.highestId n)
  | allocate i => exact hP.step (hP.steps.allocate i)
  | cast h c => exact hP.step (hP.steps.cast h c)
  | pointTo o c => exact hP.step (hP.steps.pointTo o c)
  | classOf h => exact hP.step (hP.steps.classOf h)
  | view h => exact hP.step (hP.steps.view h)
  | box v => exact hP.step (hP.steps.box v)
  | describe b => exact hP.step (hP.steps.describe b)
  | canConvert b wanted => exact hP.step (hP.steps.canConvert b wanted)
  | tableConvert b wanted => exact hP.tableConvert b wanted
  | convert b wanted => exact hP.convert b wanted
  | read b t => exact hP.read b t
  | defaultValue id => exact hP.defaultValue id
  | nullValue id => exact hP.step (hP.steps.nullValue id)
  | create id => exact hP.create id
  | isConvertible a b => exact hP.isConvertible a b
  | tick c => exact hP.step (hP.steps.tick c)

theorem follow (s : Script) : P (Option Value) (Run.follow s) := by
  induction s with
  | done v => exact hP.pure _
  | decline => exact hP.pure _
  | act a next ih => exact hP.bind (hP.perform a) ih
  | addConverter _ _ _ next _ ih => exact hP.bind (hP.step (hP.addConverter _)) fun _ => ih
  | setMaker _ _ next _ ih => exact hP.bind (hP.step (hP.setMaker _ _)) ih
  | addFactory _ _ next _ ih => exact hP.bind (hP.step (hP.addFactory _ _)) fun _ => ih

/-! ### Functions and dispatchers -/

variable {n : Nat}

theorem callFunction (f : Function n) (args : List Box) : P Box (f.call args) := by
  unfold Function.call
  cases f.body with
  | none => exact hP.pure _
  | some body =>
    refine hP.bind (hP.follow _) ?_
    intro o
    cases o with
    | none => exact hP.pure _
    | some v => exact hP.step (hP.steps.box v)

theorem callLast (found : List (Function n)) (args : List Box) : P Box (Dispatcher.callLast found args) := by
  unfold Dispatcher.callLast
  cases found.getLast? with
  | none => exact hP.pure _
  | some f => exact hP.callFunction f args

theorem callAll (found : List (Function n)) (args : List Box) : P (List Box) (found.mapM fun f => f.call args) := by
  induction found with
  | nil => exact hP.pure _
  | cons f found ih =>
    rw [List.mapM_cons]
    exact hP.bind (hP.callFunction f args) fun _ => hP.bind ih fun _ => hP.pure _

theorem convertible (d : Dispatcher n) (types : List Descriptor) : P (List (Function n)) (d.convertible types) := by
  unfold Dispatcher.convertible
  split
  · exact hP.step (hP.steps.refuse types)
  · exact hP.bind (hP.select (fun _ => hP.allConvertible types _) _) fun _ => hP.step (hP.steps.report types _)

theorem convertibleArgs (d : Dispatcher n) (args : List Box) : P (List (Function n)) (d.convertibleArgs args) :=
  hP.bind (hP.step (hP.steps.typesOf args)) fun _ => hP.convertible d _

end Closed

end Run

end Multimethod
