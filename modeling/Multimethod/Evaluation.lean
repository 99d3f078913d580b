/-
  Multimethod.Evaluation — running scripts.
-/
import Multimethod.Run

/-!
`perform` does one action, `follow` a whole script, both in a `Run` that is told how stored scripts are
called. `Script.run depth` ties the knot: a script that is called while another runs is run with one level
less, and has no result when no level is left. `Run.atDepth` runs any operation with a given number of
levels.
-/

namespace Multimethod

namespace Run

/-- Does one action. -/
def perform : (a : Action) → Run a.Reply
  | .ask q => ofStep (Step.ask q)
  | .idOf t => ofStep (Step.idOf t)
  | .typeId t => ofStep (Step.typeId t)
  | .addAlias t name => ofStep (Step.addAlias t name)
  | .node c => ofStep (Step.node c)
  | .highestId n => ofStep (Step.highestId n)
  | .allocate i => ofStep (Step.allocate i)
  | .cast h c => ofStep (Step.cast h c)
  | .pointTo o c => ofStep (Step.pointTo o c)
  | .classOf h => ofStep (Step.classOf h)
  | .view h => ofStep (Step.view h)
  | .box v => ofStep (Step.box v)
  | .describe b => ofStep (Step.describe b)
  | .canConvert b wanted => ofStep (Step.canConvert b wanted)
  | .tableConvert b wanted => tableConvert b wanted
  | .convert b wanted => convert b wanted
  | .read b t => read b t
  | .defaultValue id => defaultValue id
  | .nullValue id => ofStep (Step.nullValue id)
  | .create id => create id
  | .isConvertible a b => isConvertible a b
  | .tick c => ofStep (Step.tick c)

/-- Does what a script says, up to its end. -/
def follow : Script → Run (Option Value)
  | .done v => return some v
  | .decline => return none
  | .act a next => do follow (next (← perform a))
  | .addConverter source target run next => do
    ofStep (Step.addConverter ⟨source, target, run⟩)
    follow next
  | .setMaker id make next => do follow (next (← ofStep (Step.setMaker id make)))
  | .addFactory id make next => do
    ofStep (Step.addFactory id make)
    follow next

end Run

/-- Runs a script; calls may nest `depth` deep. -/
def Script.run : Nat → Caller
  | 0, _ => fun _ => none
  | depth + 1, s => Run.follow s (Script.run depth)

/-- The result of an operation and the world after it, when calls may nest `depth` deep. -/
def Run.atDepth {α : Type} (depth : Nat) (r : Run α) (w : World) : Option (α × World) :=
  r (Script.run depth) w

end Multimethod
