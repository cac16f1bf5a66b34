import EventFormula.Trace.Arguments
import EventFormula.Trace.Descent

/-! A recording keeps every event that a visitor is shown. Arguments are accepted, refused, or read
in turn, and then their own recording is kept too. -/

namespace EventFormula

inductive Record where
  | event (event : Event)
  /-- What was recorded while the argument before it was read. -/
  | nested (records : List Record)

namespace Recording

inductive Mode where
  | accept
  | read
  | reject

/-- One record more; the latest comes first. -/
def add (record : Record) : StateM (List Record) Unit := modify (record :: ·)

def rejection (e : Expression) : Failure := ⟨.stated .unexpectedToken "rejected", e.span⟩

/-- The visitor that records; `nested` reads an argument that is shorter than `e`. -/
def visitor (e : Expression) (mode : Mode)
    (nested : (kind : Expression.Kind) → (argument : Expression) →
      argument.text.length < e.text.length → Except Failure Unit × List Record) :
    Visitor (StateM (List Record)) where
  notice event := add (.event event)
  answer kind argument := do
    add (.event (.argument kind argument))
    match mode with
    | .accept => pure (.ok ())
    | .reject => pure (.error (rejection argument))
    | .read =>
      if h : argument.text.length < e.text.length then
        let (result, records) := nested kind argument h
        add (.nested records)
        pure result
      else pure (.ok ())

/-- The records of an expression read as a formula, and the result. Each argument is shorter than
the formula it stands in, as `Trace.length_of_mem_ofExpression` says. -/
def ofExpression (scope : Scope) (mode : Mode) (kind : Expression.Kind) (e : Expression) :
    Except Failure Unit × List Record :=
  let nested kind (argument : Expression) (_ : argument.text.length < e.text.length) :=
    ofExpression scope mode kind argument
  let (result, records) := ((visitor e mode nested).parse scope kind e).run.run []
  (result, records.reverse)
termination_by e.text.length

end Recording
end EventFormula
