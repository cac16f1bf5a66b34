import EventFormula.Context
import EventFormula.Fragment
import EventFormula.Trace.Reader

/-! To lower an expression is to read it and build its fragment. Arguments are lowered in the same
context, one level deeper; beyond the limit of the context they are refused. The recursion is on the
number of levels that are left. -/

namespace EventFormula

/-- How a fragment made before is looked up. -/
abbrev Recall := Context → Expression.Kind → Expression → Option String

/-- What lowerings change. -/
structure State where
  context : Context := {}
  includes : List String := []

namespace Generator

variable (generator : Generator)

/-- How the requests of a script are met, given a way to lower expressions. -/
def handler (lower : Expression.Kind → Expression → StateM State (Except Failure String)) :
    Script.Handler (StateM State) where
  lower := lower
  require path := modify fun state =>
    { state with includes := generator.target.record path state.includes }
  need object := modify fun state => { state with context := state.context.need object }
  setCurrent object := modify fun state => { state with context := state.context.setCurrent object }
  view := return (← get).context.view

def script (kind : Expression.Kind) (e : Expression) : Script (Except Failure String) :=
  Fragment.ofTrace generator (Trace.ofExpression generator.scope kind e)

/-- The fragment that is recalled for the expression, else the one that `make` yields. -/
def reusing (lookUp : Recall) (kind : Expression.Kind) (e : Expression)
    (make : StateM State (Except Failure String)) : StateM State (Except Failure String) := do
  match lookUp (← get).context kind e with
  | some code => return .ok code
  | none =>
    let result ← make
    modify fun state => { state with context := state.context.settle kind e result }
    return result

def deeper {α : Type} (action : StateM State α) : StateM State α := do
  modify fun state => { state with context := state.context.enter }
  let result ← action
  modify fun state => { state with context := state.context.leave }
  return result

def refuse (e : Expression) : StateM State (Except Failure String) := do
  return .error ⟨.nestingTooDeep (← get).context.maxDepth, e.span⟩

/-- The expression lowered with so many levels left. -/
def lowerWithin (lookUp : Recall) :
    Nat → Expression.Kind → Expression → StateM State (Except Failure String)
  | 0, kind, e => reusing lookUp kind e (refuse e)
  | levels + 1, kind, e =>
    reusing lookUp kind e
      (deeper ((generator.script kind e).run (generator.handler (lowerWithin lookUp levels))))

def lowerWith (lookUp : Recall) (kind : Expression.Kind) (e : Expression) :
    StateM State (Except Failure String) := do
  generator.lowerWithin lookUp (← get).context.levels kind e

/-- The expression lowered, with arguments that are remembered used again. -/
def lower (kind : Expression.Kind) (e : Expression) : StateM State (Except Failure String) :=
  generator.lowerWith Context.remembered? kind e

def perform {α : Type} (script : Script α) : StateM State α :=
  script.run (generator.handler generator.lower)

end Generator
end EventFormula
