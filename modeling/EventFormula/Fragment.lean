import EventFormula.Target
import EventFormula.Trace

/-! A fragment is the code of one formula, built while its events are visited. A call on an object
is made once for each object that the name stands for. An argument is lowered when it is announced,
and again as part of its call; the first failure of one is kept. -/

namespace EventFormula

structure Fragment where
  output : String := ""
  firstFailure : Option Failure := none

namespace Generator

variable (generator : Generator)

def requireFile : Option String → Script Unit
  | some path => if path = "" then .done () else .require path
  | none => .done ()

def hookOf (callable : Callable) : Option Hook := callable.hookName?.bind generator.hooks.get?

def parametersCode (arguments : List Expression) (parameters : List Parameter) : Script String := do
  return ", ".intercalate (← generator.target.parameterCodes arguments parameters)

/-- The calls on all objects, each with the one before it as its alternative. -/
def foldAccesses (output : String) : List Access → Script String
  | [] => .done output
  | access :: accesses => do
    .need access.object
    requireFile (access.info.bind TypeInfo.includeFile)
    let view ← .view
    let output ←
      if view.current = some access.object then generator.target.currentCall access
      else generator.target.otherCall access output
    foldAccesses output accesses

/-- The code of a call on every object that `name` stands for. -/
def accessCode (name : String) (access : String → Access) (returns : Expression.Kind) :
    Script String := do
  let view ← .view
  generator.foldAccesses returns.fallback ((generator.target.expand name view).map access)

def freeCall (call : Call) : Script String := do
  requireFile call.callable.includeFile
  match generator.hookOf call.callable with
  | some hook => hook call.arguments
  | none =>
    if call.returns = .text ∧ call.function = "" then
      return (call.arguments.head?.map fun argument =>
        generator.target.quote argument.text).getD ""
    else
      let parameters ← generator.parametersCode call.arguments call.callable.parameters
      return call.callable.callName ++ "(" ++ parameters ++ ")"

def objectCall (call : Call) : Script String :=
  match call.arguments with
  | [] => .done ""
  | object :: rest => do
    requireFile call.callable.includeFile
    match generator.hookOf call.callable with
    | some hook => hook call.arguments
    | none =>
      let parameters ← generator.parametersCode rest (call.callable.parameters.drop 1)
      let scope := generator.scope
      generator.accessCode object.text
        (fun target => ⟨target, none, scope.platform.objectType? (scope.typeOfObject target),
          call.callable.callName, parameters⟩) call.returns

def behaviorCall (call : Call) : Script String :=
  match call.arguments with
  | object :: behavior :: rest => do
    requireFile call.callable.includeFile
    match generator.hookOf call.callable with
    | some hook => hook call.arguments
    | none =>
      let parameters ← generator.parametersCode rest (call.callable.parameters.drop 2)
      let scope := generator.scope
      let info := scope.platform.behaviorType? (scope.typeOfBehavior behavior.text)
      generator.accessCode object.text
        (fun target => ⟨target, some behavior.text, info, call.callable.callName, parameters⟩)
        call.returns
  | _ => .done ""

def callCode (call : Call) : Script String :=
  match call.form with
  | .free => generator.freeCall call
  | .object => generator.objectCall call
  | .behavior => generator.behaviorCall call

end Generator

namespace Fragment

variable (generator : Generator)

def append (fragment : Fragment) (code : String) : Fragment :=
  { fragment with output := fragment.output ++ code }

/-- The first failure stays. -/
def note (fragment : Fragment) (failure : Failure) : Fragment :=
  { fragment with firstFailure := fragment.firstFailure.or (some failure) }

/-- A number with a point or an exponent in it. -/
def numberCode (text : String) : String :=
  if text.toList.any fun c => c = '.' || c = 'e' || c = 'E' then text else text ++ ".0"

def lowerArgument (fragment : Fragment) (kind : Expression.Kind) (e : Expression) :
    Script (Except Failure String × Fragment) := do
  match ← Script.lower kind e with
  | .ok code => return (.ok code, fragment)
  | .error failure => return (.error failure, fragment.note failure)

def visit (fragment : Fragment) : Event → Script (Except Failure Unit × Fragment)
  | .constant text | .operator text => return (.ok (), fragment.append text)
  | .number text => return (.ok (), fragment.append (numberCode text))
  | .argument kind e => do
    let (result, fragment) ← fragment.lowerArgument kind e
    return (result.map fun _ => (), fragment)
  | .call call => do
    return (.ok (), fragment.append (← generator.callCode call))

/-- The code, unless an argument or the formula itself failed. A failure that was noted comes before
the one that reading the formula ended with. -/
def finish (fragment : Fragment) (read : Except Failure Unit) : Except Failure String :=
  match fragment.firstFailure with
  | some failure => .error failure
  | none => read.map fun _ => fragment.output

/-- The code of a formula, given its trace. -/
def ofTrace (trace : Trace) : Script (Except Failure String) := do
  let visitor (event : Event) : StateT Fragment Script (Except Failure Unit) :=
    fun fragment => fragment.visit generator event
  let (read, fragment) ← (trace.visit visitor).run {}
  return fragment.finish read

end Fragment
end EventFormula
