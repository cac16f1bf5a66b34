import EventFormula.Call.Arguments

/-! A trace is what reading a formula yields: its events in the order of the text and, if the
formula is not in order, the failure that ended them. Before a call comes one event for each
argument that is a formula of its own, so that a visitor can settle it first. -/

namespace EventFormula

inductive Call.Form where
  | free
  /-- The first argument names an object. -/
  | object
  /-- The first two arguments name an object and a behavior. -/
  | behavior
deriving DecidableEq

structure Call where
  form : Call.Form
  returns : Expression.Kind
  function : String
  /-- One for each parameter, the names in the head included. -/
  arguments : List Expression
  callable : Callable

inductive Event where
  | constant (text : String)
  /-- `+ - * /`, signs included. -/
  | operator (text : String)
  | number (text : String)
  | argument (kind : Expression.Kind) (expression : Expression)
  | call (call : Call)

namespace Call

/-- The arguments that are formulas written by the designer. -/
def checks (callable : Callable) (arguments : List Argument) : List Event :=
  (callable.parameters.zip arguments).filterMap fun (parameter, argument) =>
    if argument.written then
      parameter.kind.expressionKind?.map fun kind => .argument kind argument.expression
    else none

end Call

structure Trace where
  events : List Event
  failure : Option Failure

namespace Trace

variable {m : Type → Type} [Monad m]

def after (events : List Event) (trace : Trace) : Trace :=
  ⟨events ++ trace.events, trace.failure⟩

def result (trace : Trace) : Except Failure Unit :=
  match trace.failure with
  | some failure => .error failure
  | none => .ok ()

/-- The events shown to a visitor until it refuses one. -/
def visitEvents (visit : Event → m (Except Failure Unit)) : List Event → m (Except Failure Unit)
  | [] => pure (.ok ())
  | event :: events => do
    match ← visit event with
    | .ok () => visitEvents visit events
    | .error failure => pure (.error failure)

/-- The formula as a visitor finds it: the failure of the trace counts if the visitor refuses no
event. -/
def visit (visit : Event → m (Except Failure Unit)) (trace : Trace) : m (Except Failure Unit) := do
  match ← visitEvents visit trace.events with
  | .ok () => pure trace.result
  | .error failure => pure (.error failure)

end Trace
end EventFormula
