import EventFormula.Hook
import EventFormula.Lowering
import EventFormula.Target.Symbolic

/-! A session is one generator and one state, used for one thing after another: lowering
expressions, visiting events one by one, changing the context, and asking the target for parts of
code. -/

namespace EventFormula

structure Session where
  generator : Generator
  state : State

namespace Session

def act {α : Type} (action : Generator → StateM State α) : StateM Session α := do
  let session ← get
  let (value, state) := action session.generator session.state
  set { session with state := state }
  return value

def change (f : Context → Context) : StateM Session Unit :=
  act fun _ => modify fun state => { state with context := f state.context }

def lower (kind : Expression.Kind) (e : Expression) : StateM Session (Except Failure String) :=
  act fun generator => generator.lower kind e

/-- The next thing that a fragment under construction is told. -/
inductive Move where
  | event (event : Event)
  | lower (kind : Expression.Kind) (e : Expression)

inductive Reply where
  | none
  | checked (result : Except Failure Unit)
  | lowered (result : Except Failure String)

def move (generator : Generator) (fragment : Fragment) : Move → Script (Reply × Fragment)
  | .lower kind e => do
    let (result, fragment) ← fragment.lowerArgument kind e
    return (.lowered result, fragment)
  | .event event => do
    let (result, fragment) ← fragment.visit generator event
    match event with
    | .argument .. => return (.checked result, fragment)
    | _ => return (.none, fragment)

/-- The fragment after each move, with its answers. -/
def moves (generator : Generator) : Fragment → List Move → Script (List (Reply × Fragment))
  | _, [] => return []
  | fragment, first :: rest => do
    let answer ← move generator fragment first
    return answer :: (← moves generator answer.2 rest)

/-- A fragment built by moves from outside, and what it comes to when reading is said to have ended
in `read`. -/
def visit (steps : List Move) (read : Except Failure Unit) :
    StateM Session (List (Reply × Fragment) × Except Failure String) := do
  let answers ← act fun generator => generator.perform (moves generator {} steps)
  return (answers, (answers.getLast?.elim {} Prod.snd).finish read)

def setCurrent (object : Option String) : StateM Session Unit := change (·.setCurrent object)

def need (object : String) : StateM Session Unit := change (·.need object)

def require (path : String) : StateM Session Unit :=
  act fun generator => generator.perform (.require path)

/-- A hook registered for the functions to come; the names that are known then. -/
def register (name : String) (hook : Hook) : StateM Session (List String) := do
  modify fun session =>
    { session with generator :=
        { session.generator with hooks := session.generator.hooks.insert name hook } }
  return (← get).generator.hooks.sortedNames

def reset (current : Option String) (maxDepth : Option Nat) : StateM Session Nat := do
  change fun _ => .fresh current maxDepth
  return (← get).state.context.maxDepth

def expand (name : String) : StateM Session (List String) := do
  let session ← get
  return session.generator.target.expand name session.state.context.view

def parameters (arguments : List Expression) (parameters : List Parameter) :
    StateM Session (List String) :=
  act fun generator => generator.perform (generator.target.parameterCodes arguments parameters)

/-- The call on one object: the current one, or another with an alternative. -/
def access (access : Access) (otherwise : Option String) : StateM Session String :=
  act fun generator => generator.perform <|
    match otherwise with
    | some code => generator.target.otherCall access code
    | none => generator.target.currentCall access

def runHook (name : String) (arguments : List Expression) : StateM Session (Option String) :=
  act fun generator =>
    match generator.hooks.get? name with
    | some hook => some <$> generator.perform (hook arguments)
    | none => pure none

end Session
end EventFormula
