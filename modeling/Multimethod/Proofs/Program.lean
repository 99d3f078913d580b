/-
  Multimethod.Proofs.Program — what programs do, what they hold, and what they promise.

  A program does one operation (`Op`) after the other. The behaviour that it registers may
  do operations itself; those calls nest, so an operation ends only within some depth. What
  a program holds are `Fact`s: values that an operation gave it, and numbers it was told for
  types. A `Discipline` says which promises its scripts keep:
  - honest: boxes and pointers come from operations, never from thin air. Whatever a script
    hands on is `Value.From` what it holds: taken apart, put together again, released.
  - typed: a factory is registered only for the number of a type other than `any`, and
    makes values of that type.
  `Session.Leads` relates the sessions of one program, `World.Leads` the worlds of any.
-/
import Multimethod.Dispatcher
import Multimethod.Proofs.Numbering

namespace Multimethod

/-! ## What is held -/

/-- The boxes right inside a content. -/
def Content.boxes : Content → List Box
  | .list items => items
  | .map pairs | .hash pairs => pairs.map Prod.snd
  | _ => []

/-- Something that a program holds: a value, or the number it was told for a type. -/
inductive Fact where
  | value (v : Value)
  | number (t : Ty) (id : TypeId)

/-- Values that need no operation to be made of what is held. An object alone is always at
    hand as a pointer of its own class. -/
inductive Value.From (held : List Fact) : Value → Prop
  | held {v : Value} (h : .value v ∈ held) : From held v
  | unit : From held .unit
  | null : From held (.any .null)
  | nowhere (c : ClassDecl) : From held (.pointer (Handle.null c))
  | object (o : Object) : From held (.pointer ⟨o.cls, some o⟩)
  | content {c : Content} (h : ∀ b ∈ c.boxes, From held (.any b)) : From held (.plain c)
  | inside {c : Content} {b : Box} (h : From held (.plain c)) (hb : b ∈ c.boxes) : From held (.any b)
  | opened {id : TypeId} {c : Content} (h : From held (.any (.plain id c))) : From held (.plain c)
  | released {b : Box} (h : From held (.any b)) : From held (.any b.release)

namespace Action

/-- The values that an action is handed. -/
def values : Action → List Value
  | .box v => [v]
  | .cast h _ | .classOf h | .view h => [.pointer h]
  | .describe b | .canConvert b _ | .tableConvert b _ | .convert b _ | .read b _ => [.any b]
  | _ => []

/-- What is held of the reply of an action. -/
def learn : (a : Action) → a.Reply → List Fact
  | .typeId t, id => [.number t id]
  | .allocate i, o => [.value (.pointer ⟨i.cls, some o⟩)]
  | .cast _ _, h => [.value (.pointer h)]
  | .pointTo _ _, o => o.toList.map fun h => .value (.pointer h)
  | .box _, b | .convert _ _, b | .defaultValue _, b | .nullValue _, b | .create _, b => [.value (.any b)]
  | .tableConvert _ _, o => o.toList.map fun b => .value (.any b)
  | .read _ _, o => o.toList.map .value
  | _, _ => []

end Action

/-! ## What scripts promise -/

/-- The promises of a program about its scripts. -/
structure Discipline where
  honest : Prop
  typed : Prop

/-- No promise. -/
def Discipline.free : Discipline := ⟨False, False⟩

namespace Script

/-- Every end of the script is a value of type `t`. -/
def Returns (t : Ty) : Script → Prop
  | done v => v.ty = t
  | decline => False
  | act _ next => ∀ x, (next x).Returns t
  | addConverter _ _ _ next => next.Returns t
  | setMaker _ _ next => ∀ b, (next b).Returns t
  | addFactory _ _ next => next.Returns t

/-- `make` makes values of the type whose number `id` is known to be. -/
def FactoryFor (held : List Fact) (id : TypeId) (make : Script) : Prop :=
  ∃ t, t ≠ .any ∧ .number t id ∈ held ∧ make.Returns t

/-- The script and all behaviour it registers keep the promises, given what it holds. -/
def Obeys (D : Discipline) : Script → List Fact → Prop
  | done v, held => D.honest → v.From held
  | decline, _ => True
  | act a next, held => (D.honest → ∀ v ∈ a.values, v.From held) ∧ ∀ x, (next x).Obeys D (a.learn x ++ held)
  | addConverter _ _ run next, held => (∀ c, (run c).Obeys D (.value (.plain c) :: held)) ∧ next.Obeys D held
  | setMaker _ make next, held => make.Obeys D held ∧ ∀ b, (next b).Obeys D held
  | addFactory id make next, held =>
    (D.typed → FactoryFor held id make) ∧ make.Obeys D held ∧ next.Obeys D held

theorem obeys_free (s : Script) (held : List Fact) : s.Obeys .free held := by
  induction s generalizing held with
  | done v => exact fun h => h.elim
  | decline => trivial
  | act a next ih => exact ⟨fun h => h.elim, fun x => ih x _⟩
  | addConverter _ _ run next ih ih' => exact ⟨fun c => ih c _, ih' _⟩
  | setMaker _ make next ih ih' => exact ⟨ih _, fun b => ih' b _⟩
  | addFactory _ make next ih ih' => exact ⟨fun h => h.elim, ih _, ih' _⟩

theorem returns_newObject (i : Instance) : (newObject i).Returns (.pointer i.cls) := fun _ => rfl

/-- A new object is made of nothing that is held. -/
theorem obeys_newObject (D : Discipline) (i : Instance) (held : List Fact) : (newObject i).Obeys D held :=
  ⟨fun _ _ h => by simp [Action.values] at h, fun _ _ => .held (List.mem_cons_self ..)⟩

end Script

/-- Whatever boxes the function is called with, what it does keeps the promises. -/
def Function.Obeys (D : Discipline) {n : Nat} (f : Function n) (held : List Fact) : Prop :=
  ∀ body, f.body = some body → ∀ args : List Box, (body args).Obeys D (args.map (.value ∘ .any) ++ held)

theorem Function.obeys_free {n : Nat} (f : Function n) (held : List Fact) : f.Obeys .free held :=
  fun _ _ _ => Script.obeys_free _ _

/-! ## Operations -/

/-- One operation of a program. -/
inductive Op where
  | act (a : Action)
  | createNamed (name : String)
  | describeType (t : Ty)
  | addConverter (c : Converter)
  | setMaker (id : TypeId) (make : Script)
  | addFactory (id : TypeId) (make : Script)
  | addFactoryFor (t : Ty) (make : Script)
  | registerClass (c : ClassDecl)
  | listTypes (wanted : Option Descriptor)
  | newCounter
  | note (e : Event)
  | call {n : Nat} (f : Function n) (args : List Box)
  | exactly {n : Nat} (d : Dispatcher n) (types : List Descriptor)
  | exactlyArgs {n : Nat} (d : Dispatcher n) (args : List Box)
  | convertible {n : Nat} (d : Dispatcher n) (types : List Descriptor)
  | convertibleArgs {n : Nat} (d : Dispatcher n) (args : List Box)
  | callOneExact {n : Nat} (d : Dispatcher n) (args : List Box)
  | callOneConvertible {n : Nat} (d : Dispatcher n) (args : List Box)
  | callAllExact {n : Nat} (d : Dispatcher n) (args : List Box)
  | callAllConvertible {n : Nat} (d : Dispatcher n) (args : List Box)

namespace Op

/-- Does the operation and tells what the program holds of its result. -/
def run : Op → Run (List Fact)
  | act a => do return a.learn (← Run.perform a)
  | createNamed name => do return [.value (.any (← Run.createNamed name))]
  | describeType t => do let _ ← Step.descriptorOf t; return []
  | addConverter c => do Step.addConverter c; return []
  | setMaker id make => do let _ ← Step.setMaker id make; return []
  | addFactory id make => do Step.addFactory id make; return []
  | addFactoryFor t make => do return [.number t (← Step.addFactoryFor t make)]
  | registerClass c => do return [.number (.pointer c) (← Step.registerClass c)]
  | listTypes wanted => do let _ ← Run.listTypes wanted; return []
  | newCounter => do let _ ← Step.newCounter; return []
  | note e => do Step.note e; return []
  | call f args => do return [.value (.any (← f.call args))]
  | exactly d types => do let _ ← d.exactly types; return []
  | exactlyArgs d args => do let _ ← d.exactlyArgs args; return []
  | convertible d types => do let _ ← d.convertible types; return []
  | convertibleArgs d args => do let _ ← d.convertibleArgs args; return []
  | callOneExact d args => do return [.value (.any (← d.callOneExact args))]
  | callOneConvertible d args => do return [.value (.any (← d.callOneConvertible args))]
  | callAllExact d args => do return (← d.callAllExact args).map (.value ∘ .any)
  | callAllConvertible d args => do return (← d.callAllConvertible args).map (.value ∘ .any)

/-- What the operation is handed, and the behaviour it registers or runs, keep the promises. -/
def Obeys (D : Discipline) (held : List Fact) : Op → Prop
  | act a => D.honest → ∀ v ∈ a.values, v.From held
  | addConverter c => ∀ x, (c.run x).Obeys D (.value (.plain x) :: held)
  | setMaker _ make => make.Obeys D held
  | addFactory id make => (D.typed → make.FactoryFor held id) ∧ make.Obeys D held
  | addFactoryFor t make => (D.typed → t ≠ .any ∧ make.Returns t) ∧ make.Obeys D held
  | call f args => (D.honest → ∀ b ∈ args, Value.From held (.any b)) ∧ f.Obeys D held
  | callOneExact d args | callOneConvertible d args | callAllExact d args | callAllConvertible d args =>
    (D.honest → ∀ b ∈ args, Value.From held (.any b)) ∧ ∀ f ∈ d.functions, f.Obeys D held
  | _ => True

theorem obeys_free (o : Op) (held : List Fact) : o.Obeys .free held := by
  cases o with
  | act a => exact fun h => h.elim
  | addConverter c => exact fun _ => Script.obeys_free _ _
  | setMaker _ make => exact Script.obeys_free _ _
  | addFactory _ make => exact ⟨fun h => h.elim, Script.obeys_free _ _⟩
  | addFactoryFor _ make => exact ⟨fun h => h.elim, Script.obeys_free _ _⟩
  | call f _ => exact ⟨fun h => h.elim, f.obeys_free _⟩
  | callOneExact _ _ => exact ⟨fun h => h.elim, fun f _ => f.obeys_free _⟩
  | callOneConvertible _ _ => exact ⟨fun h => h.elim, fun f _ => f.obeys_free _⟩
  | callAllExact _ _ => exact ⟨fun h => h.elim, fun f _ => f.obeys_free _⟩
  | callAllConvertible _ _ => exact ⟨fun h => h.elim, fun f _ => f.obeys_free _⟩
  | _ => trivial

end Op

/-! ## Runs of a program -/

/-- A point of a program's run: the world, and what the program holds. -/
structure Session where
  world : World
  held : List Fact

/-- The start of every run. -/
def Session.start : Session := ⟨.fresh, []⟩

/-- `t` comes after `s` by operations that keep the promises. An operation that a script does
    is one of these too, so the worlds inside a script's run are among those reached. -/
inductive Session.Leads (D : Discipline) (s : Session) : Session → Prop
  | refl : Leads D s s
  | step {t : Session} (h : Leads D s t) (o : Op) (ho : o.Obeys D t.held) (depth : Nat) {gained : List Fact}
      {w : World} (hr : o.run.atDepth depth t.world = some (gained, w)) : Leads D s ⟨w, gained ++ t.held⟩

/-- `v` comes after `w` by operations of any kind. -/
inductive World.Leads (w : World) : World → Prop
  | refl : Leads w w
  | step {u : World} (h : Leads w u) (o : Op) (depth : Nat) {gained : List Fact} {v : World}
      (hr : o.run.atDepth depth u = some (gained, v)) : Leads w v

/-- The world is one that a program can get to. -/
def World.Reached (w : World) : Prop := World.fresh.Leads w

theorem Session.Leads.world {D : Discipline} {s t : Session} (h : s.Leads D t) : s.world.Leads t.world := by
  induction h with
  | refl => exact .refl
  | step _ o _ depth hr ih => exact ih.step o depth hr

/-- An action that runs no script leads on, with what is learnt of its reply. -/
theorem Session.Leads.act {D : Discipline} {s : Session} {w : World} {held : List Fact} (h : s.Leads D ⟨w, held⟩)
    (a : Action) (ha : D.honest → ∀ v ∈ a.values, v.From held) {step : Step a.Reply}
    (hstep : Run.perform a = Run.ofStep step) :
    s.Leads D ⟨(step w).2, a.learn (step w).1 ++ held⟩ := by
  refine h.step (.act a) ha 0 ?_
  show ((Run.perform a >>= fun x => pure (a.learn x)) : Run _) _ w = _
  rw [hstep]; rfl

/-- A program may put into a box what it has, and then has the box. -/
theorem Session.Leads.box {D : Discipline} {s : Session} {w : World} {held : List Fact} (h : s.Leads D ⟨w, held⟩)
    {v : Value} (hv : D.honest → v.From held) :
    s.Leads D ⟨(Step.box v w).2, .value (.any (Step.box v w).1) :: held⟩ :=
  h.act (.box v) (fun hd u hu => by cases List.mem_singleton.mp hu; exact hv hd) rfl

/-- A program may cast a pointer that it has, and then has the new one. -/
theorem Session.Leads.cast {D : Discipline} {s : Session} {w : World} {held : List Fact} (h : s.Leads D ⟨w, held⟩)
    {p : Handle} (hp : D.honest → Value.From held (.pointer p)) (c : ClassDecl) :
    s.Leads D ⟨(Step.cast p c w).2, .value (.pointer (Step.cast p c w).1) :: held⟩ :=
  h.act (.cast p c) (fun hd u hu => by cases List.mem_singleton.mp hu; exact hp hd) rfl

theorem Session.Leads.idOf {D : Discipline} {s : Session} {w : World} {held : List Fact} (h : s.Leads D ⟨w, held⟩)
    (t : Ty) : s.Leads D ⟨(Step.idOf t w).2, held⟩ :=
  h.act (.idOf t) (fun _ v hv => by cases hv) rfl

theorem Session.Leads.addAlias {D : Discipline} {s : Session} {w : World} {held : List Fact}
    (h : s.Leads D ⟨w, held⟩) (t : Ty) (name : String) : s.Leads D ⟨(Step.addAlias t name w).2, held⟩ :=
  h.act (.addAlias t name) (fun _ v hv => by cases hv) rfl

theorem Session.Leads.addConverter {D : Discipline} {s : Session} {w : World} {held : List Fact}
    (h : s.Leads D ⟨w, held⟩) (c : Converter) (hc : ∀ x, (c.run x).Obeys D (.value (.plain x) :: held)) :
    s.Leads D ⟨(Step.addConverter c w).2, held⟩ :=
  h.step (.addConverter c) hc 0 rfl

theorem Session.Leads.trans {D : Discipline} {s t u : Session} (h : s.Leads D t) (k : t.Leads D u) : s.Leads D u := by
  induction k with
  | refl => exact h
  | step _ o ho depth hr ih => exact ih.step o ho depth hr

theorem World.Leads.trans {w v u : World} (h : w.Leads v) (k : v.Leads u) : w.Leads u := by
  induction k with
  | refl => exact h
  | step _ o depth hr ih => exact ih.step o depth hr

theorem World.Reached.leads {w v : World} (hw : w.Reached) (h : w.Leads v) : v.Reached := World.Leads.trans hw h

theorem World.Leads.session {w v : World} (h : w.Leads v) (held : List Fact) :
    ∃ held', Session.Leads .free ⟨w, held⟩ ⟨v, held'⟩ := by
  induction h with
  | refl => exact ⟨held, .refl⟩
  | step _ o depth hr ih =>
    obtain ⟨held', h⟩ := ih
    exact ⟨_, h.step o (o.obeys_free held') depth hr⟩

namespace World

theorem Leads.idOf (w : World) (t : Ty) : w.Leads (Step.idOf t w).2 :=
  .step .refl (.act (.idOf t)) 0 rfl

theorem Leads.addAlias (w : World) (t : Ty) (name : String) : w.Leads (Step.addAlias t name w).2 :=
  .step .refl (.act (.addAlias t name)) 0 rfl

theorem Leads.describe (w : World) (b : Box) : w.Leads (Step.describe b w).2 :=
  .step .refl (.act (.describe b)) 0 rfl

theorem Leads.box (w : World) (x : Value) : w.Leads (Step.box x w).2 :=
  .step .refl (.act (.box x)) 0 rfl

theorem Leads.addConverter (w : World) (c : Converter) : w.Leads (Step.addConverter c w).2 :=
  .step .refl (.addConverter c) 0 rfl

theorem Leads.setMaker (w : World) (id : TypeId) (make : Script) : w.Leads (Step.setMaker id make w).2 :=
  .step .refl (.setMaker id make) 0 rfl

theorem Leads.registerClass (w : World) (c : ClassDecl) : w.Leads (Step.registerClass c w).2 :=
  .step .refl (.registerClass c) 0 rfl

theorem Leads.addFactory (w : World) (id : TypeId) (make : Script) : w.Leads (Step.addFactory id make w).2 :=
  .step .refl (.addFactory id make) 0 rfl

theorem Leads.addFactoryFor (w : World) (t : Ty) (make : Script) : w.Leads (Step.addFactoryFor t make w).2 :=
  .step .refl (.addFactoryFor t make) 0 rfl

theorem Leads.descriptorOf (w : World) (t : Ty) : w.Leads (Step.descriptorOf t w).2 :=
  .step .refl (.describeType t) 0 rfl

/-- The fresh world with a second number for the type of texts. -/
def renamed : World := (Step.addAlias .text "Name" fresh).2

theorem renamed_eq : renamed = (Step.addAlias .text "Name" start).2 := by rw [renamed, fresh_eq]

theorem reached_renamed : renamed.Reached := Leads.addAlias fresh .text "Name"

theorem factories_renamed (id : TypeId) : renamed.registries.factories.find? id = none :=
  Table.find?_of_isEmpty (by rw [renamed_eq]; decide) id

end World

end Multimethod
