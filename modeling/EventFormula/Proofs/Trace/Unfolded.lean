import EventFormula.Trace.Arguments

/-!
# Events at any depth

The arguments that a formula announces are formulas with events of their own. `unfolded` lists the
events of a formula and, behind each argument, those inside it: the order in which a lowering that
remembers its fragments comes to them.
-/

namespace EventFormula

/-- The argument that the event announces. -/
def Event.argument? : Event → Option (Expression.Kind × Expression)
  | argument kind e => some (kind, e)
  | _ => none

/-- The call that the event makes. -/
def Event.call? : Event → Option Call
  | call made => some made
  | _ => none

namespace Trace

variable (scope : Scope)

/-- The events of a formula, each argument followed by the events inside it. -/
def unfolded (kind : Expression.Kind) (e : Expression) : List Event :=
  (ofExpression scope kind e).events.attach.flatMap fun event =>
    event.val :: match event with
      | ⟨.argument inner argument, _⟩ => unfolded inner argument
      | _ => []
termination_by e.text.length
decreasing_by exact length_of_mem_ofExpression ‹_›

/-- The event followed by those inside it. -/
def unfoldedEvent (event : Event) : List Event :=
  event :: match event with
    | .argument kind e => unfolded scope kind e
    | _ => []

theorem unfolded_eq (kind : Expression.Kind) (e : Expression) :
    unfolded scope kind e
      = (ofExpression scope kind e).events.flatMap (unfoldedEvent scope) := by
  have hevents := List.attach_map_subtype_val (ofExpression scope kind e).events
  rw [unfolded]
  conv => rhs; rw [← hevents, List.flatMap_map]
  congr 1
  funext ⟨event, hmem⟩
  cases event <;> rfl

/-- The arguments of a formula at any depth. -/
def arguments (kind : Expression.Kind) (e : Expression) : List (Expression.Kind × Expression) :=
  (unfolded scope kind e).filterMap Event.argument?

/-- The calls of a formula at any depth. -/
def calls (kind : Expression.Kind) (e : Expression) : List Call :=
  (unfolded scope kind e).filterMap Event.call?

end Trace

namespace Event

variable (scope : Scope)

/-- The argument that the event announces and those inside it. -/
def arguments : Event → List (Expression.Kind × Expression)
  | argument kind e => (kind, e) :: Trace.arguments scope kind e
  | _ => []

/-- The call that the event makes, or those of the argument that it announces. -/
def calls : Event → List Call
  | argument kind e => Trace.calls scope kind e
  | call made => [made]
  | _ => []

end Event

namespace Trace

variable (scope : Scope) (kind : Expression.Kind) (e : Expression)

theorem arguments_eq :
    arguments scope kind e
      = (ofExpression scope kind e).events.flatMap (Event.arguments scope) := by
  rw [arguments, unfolded_eq, List.filterMap_flatMap]
  congr 1
  funext event
  cases event <;> rfl

theorem calls_eq :
    calls scope kind e = (ofExpression scope kind e).events.flatMap (Event.calls scope) := by
  rw [calls, unfolded_eq, List.filterMap_flatMap]
  congr 1
  funext event
  cases event <;> rfl

variable {scope kind e}

/-- What is inside an argument is inside the formula. -/
theorem mem_arguments {formula : Expression.Kind × Expression} {event : Event}
    (hevent : event ∈ (ofExpression scope kind e).events) (h : formula ∈ event.arguments scope) :
    formula ∈ arguments scope kind e := by
  rw [arguments_eq]
  exact List.mem_flatMap.2 ⟨event, hevent, h⟩

theorem mem_calls {call : Call} {event : Event}
    (hevent : event ∈ (ofExpression scope kind e).events) (h : call ∈ event.calls scope) :
    call ∈ calls scope kind e := by
  rw [calls_eq]
  exact List.mem_flatMap.2 ⟨event, hevent, h⟩

end Trace
end EventFormula
