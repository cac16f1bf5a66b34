import EventFormula.Proofs.Call.Translation
import EventFormula.Trace.Reader

/-!
# Reading a formula that stands elsewhere

The tokens of a formula do not depend on where it stands, and the reader goes by the tokens. Where
the formula stands it only uses to place arguments and failures, so each step of a reader that
starts some bytes later yields the same, as many bytes later. The main statement,
`ofExpression_shifted`, needs no bound: what is clamped for one reader is clamped for the other.
-/

namespace EventFormula

/-- The event seen from a text in which the formula starts `offset` bytes later. -/
def Event.shifted (offset : Nat) : Event → Event
  | .constant text => .constant text
  | .operator text => .operator text
  | .number text => .number text
  | .argument kind e => .argument kind (e.shifted offset)
  | .call made => .call (made.shifted offset)

theorem Call.checks_shifted (offset : Nat) (callable : Callable) (arguments : List Argument) :
    checks callable (arguments.map (Argument.shifted · offset))
      = (checks callable arguments).map (Event.shifted offset) := by
  rw [checks, checks, List.zip_map_right, List.filterMap_map, List.map_filterMap]
  refine congrArg (List.filterMap · _) (funext fun ⟨parameter, argument⟩ => ?_)
  cases hwritten : argument.written with
  | false => simp [Argument.shifted, hwritten]
  | true => simp [Argument.shifted, hwritten, Function.comp_def, Event.shifted]

namespace Trace

/-- The trace seen from a text in which the formula starts `offset` bytes later. -/
def shifted (offset : Nat) (trace : Trace) : Trace :=
  ⟨trace.events.map (Event.shifted offset), trace.failure.map (Failure.shifted · offset)⟩

theorem after_shifted (offset : Nat) (events : List Event) (trace : Trace) :
    (trace.shifted offset).after (events.map (Event.shifted offset))
      = (trace.after events).shifted offset := by
  simp only [after, shifted, List.map_append]

/-- The head of a call, with the arguments that it gives some bytes later. -/
def Head.shifted (offset : Nat) (head : Head) : Head :=
  { head with given := head.given.map (Expression.shifted · offset) }

/-- What has been read of a formula that starts `offset` bytes later. -/
def Stage.shifted (offset : Nat) : Stage → Stage
  | .arguments head opening depth inner => .arguments (head.shifted offset) opening depth inner
  | stage => stage

/-- What a token does in a formula that starts `offset` bytes later. -/
def Step.shifted (offset : Nat) : Step → Step
  | .next events stage groups =>
    .next (events.map (Event.shifted offset)) (stage.shifted offset) groups
  | .stop failure => .stop (failure.shifted offset)

namespace Reader

/-- The reader of the same text where it starts `offset` bytes later. -/
def shifted (offset : Nat) (reader : Reader) : Reader :=
  { reader with base := min (reader.base + offset) maxOffset }

variable (reader : Reader) (offset : Nat)

@[simp] theorem scope_shifted : (reader.shifted offset).scope = reader.scope := rfl

@[simp] theorem kind_shifted : (reader.shifted offset).kind = reader.kind := rfl

@[simp] theorem signs_shifted : (reader.shifted offset).signs = reader.signs := rfl

@[simp] theorem joins_shifted : (reader.shifted offset).joins = reader.joins := rfl

@[simp] theorem continuation_shifted :
    (reader.shifted offset).continuation = reader.continuation := rfl

theorem placeOf_shifted (span : Span) :
    (reader.shifted offset).placeOf span = (reader.placeOf span).shifted offset := by
  rw [placeOf, placeOf, Span.shifted_shifted]
  simp only [shifted, Span.shifted, Span.mk.injEq]
  omega

theorem lexerFailure?_shifted (token : Token) :
    (reader.shifted offset).lexerFailure? token
      = (reader.lexerFailure? token).map (Failure.shifted · offset) := by
  simp only [lexerFailure?, placeOf_shifted]
  split <;> rfl

theorem unexpected_shifted (token : Token) (expected : String) :
    (reader.shifted offset).unexpected token expected
      = (reader.unexpected token expected).shifted offset := by
  rw [unexpected, unexpected, lexerFailure?_shifted, placeOf_shifted]
  cases reader.lexerFailure? token <;> rfl

theorem expectedExpression_shifted (token : Token) :
    (reader.shifted offset).expectedExpression token
      = (reader.expectedExpression token).shifted offset := by
  rw [expectedExpression, expectedExpression, lexerFailure?_shifted, placeOf_shifted]
  cases reader.lexerFailure? token <;> rfl

theorem place_base_shifted (text : String) (start : Nat) :
    Expression.place text ((reader.shifted offset).base + start)
      = (Expression.place text (reader.base + start)).shifted offset := by
  rw [Expression.place_shifted]
  refine Expression.place_eq ?_
  simp only [shifted]
  omega

theorem nameAt_shifted (token : Token) :
    (reader.shifted offset).nameAt token = (reader.nameAt token).shifted offset :=
  reader.place_base_shifted offset _ _

theorem literal_shifted (token : Token) :
    (reader.shifted offset).literal token = (reader.literal token).shifted offset := by
  simp only [literal, Call.shifted, List.map_cons, List.map_nil, Nat.add_assoc,
    place_base_shifted]

theorem freeHead_shifted (head : Token) :
    (reader.shifted offset).freeHead head
      = shiftResult offset (Head.shifted offset) (reader.freeHead head) := by
  simp only [freeHead, placeOf_shifted, scope_shifted, kind_shifted]
  cases reader.scope.platform.freeFunction? reader.kind head.text <;> rfl

theorem objectHead_shifted (head member : Token) :
    (reader.shifted offset).objectHead head member
      = shiftResult offset (Head.shifted offset) (reader.objectHead head member) := by
  simp only [objectHead, placeOf_shifted, nameAt_shifted, scope_shifted, kind_shifted]
  cases reader.scope.platform.objectFunction? reader.kind
    (reader.scope.typeOfObject head.text) member.text <;> rfl

theorem behaviorHead_shifted (head member function : Token) :
    (reader.shifted offset).behaviorHead head member function
      = shiftResult offset (Head.shifted offset) (reader.behaviorHead head member function) := by
  simp only [behaviorHead, placeOf_shifted, nameAt_shifted, scope_shifted, kind_shifted]
  split
  · rfl
  · cases reader.scope.platform.behaviorFunction? reader.kind
      (reader.scope.typeOfBehavior member.text) function.text <;> rfl

theorem callEvents_shifted (head : Head) (opening closing : Token) (inner : List Token) :
    (reader.shifted offset).callEvents (head.shifted offset) opening closing inner
      = shiftResult offset (List.map (Event.shifted offset))
          (reader.callEvents head opening closing inner) := by
  have hsplit : Call.split (reader.shifted offset).base opening.span.stop inner
      = (Call.split reader.base opening.span.stop inner).map (Expression.shifted · offset) :=
    Call.split_shifted reader.base opening.span.stop inner
  simp only [callEvents, placeOf_shifted, hsplit]
  change (Call.align head.function head.callable
    (head.given.map (Expression.shifted · offset)) _ _).map _ = _
  rw [Call.align_shifted]
  refine map_shiftResult (fun arguments => ?_) _
  rw [List.map_append, ← Call.checks_shifted]
  simp only [List.map_cons, List.map_nil, Event.shifted, Call.shifted, List.map_map]
  rfl

theorem openCall_shifted (found : Except Failure Head) (opening : Token) (groups : List Token) :
    openCall (shiftResult offset (Head.shifted offset) found) opening groups
      = (openCall found opening groups).shifted offset := by
  cases found <;> rfl

theorem stepOperand_shifted (groups : List Token) (token : Token) :
    (reader.shifted offset).stepOperand groups token
      = (reader.stepOperand groups token).shifted offset := by
  simp only [stepOperand, signs_shifted, kind_shifted, unexpected_shifted,
    expectedExpression_shifted, literal_shifted, placeOf_shifted]
  repeat' split
  all_goals rfl

theorem stepOperator_shifted (groups : List Token) (token : Token) :
    (reader.shifted offset).stepOperator groups token
      = (reader.stepOperator groups token).shifted offset := by
  simp only [stepOperator, joins_shifted, continuation_shifted, unexpected_shifted,
    placeOf_shifted]
  repeat' split
  all_goals rfl

theorem stepArguments_shifted (head : Head) (opening : Token) (depth : Nat)
    (inner groups : List Token) (token : Token) :
    (reader.shifted offset).stepArguments (head.shifted offset) opening depth inner groups token
      = (reader.stepArguments head opening depth inner groups token).shifted offset := by
  simp only [stepArguments, callEvents_shifted, placeOf_shifted]
  split
  · rfl
  · rfl
  · cases reader.callEvents head opening token inner.reverse <;> rfl
  · rfl
  · rfl

/-- One token does the same, as many bytes later. -/
theorem step_shifted (stage : Stage) (groups : List Token) (token : Token) :
    (reader.shifted offset).step (stage.shifted offset) groups token
      = (reader.step stage groups token).shifted offset := by
  cases stage with
  | operand => exact reader.stepOperand_shifted offset groups token
  | operator => exact reader.stepOperator_shifted offset groups token
  | arguments head opening depth inner =>
    exact reader.stepArguments_shifted offset head opening depth inner groups token
  | name head =>
    simp only [step, Stage.shifted, freeHead_shifted, openCall_shifted, unexpected_shifted]
    split <;> rfl
  | member head =>
    simp only [step, Stage.shifted, unexpected_shifted]
    split <;> rfl
  | memberName head second =>
    simp only [step, Stage.shifted, objectHead_shifted, openCall_shifted, unexpected_shifted]
    split <;> rfl
  | function head second =>
    simp only [step, Stage.shifted, unexpected_shifted]
    split <;> rfl
  | functionName head second third =>
    simp only [step, Stage.shifted, behaviorHead_shifted, openCall_shifted, unexpected_shifted]
    split <;> rfl

theorem atEnd_shifted (stage : Stage) (groups : List Token) :
    (reader.shifted offset).atEnd (stage.shifted offset) groups
      = (reader.atEnd stage groups).map (Failure.shifted · offset) := by
  have hclosing : (reader.shifted offset).closing = reader.closing := rfl
  cases stage with
  | operator => cases groups <;> simp only [atEnd, Stage.shifted, placeOf_shifted] <;> rfl
  | operand =>
    simp only [atEnd, Stage.shifted, expectedExpression_shifted, hclosing]
    rfl
  | arguments head opening depth inner =>
    simp only [atEnd, Stage.shifted, placeOf_shifted]
    rfl
  | _ =>
    simp only [atEnd, Stage.shifted, unexpected_shifted, hclosing]
    rfl

/-- So does a run of tokens, from any stage on. -/
theorem walk_shifted (stage : Stage) (groups tokens : List Token) :
    (reader.shifted offset).walk (stage.shifted offset) groups tokens
      = (reader.walk stage groups tokens).shifted offset := by
  induction tokens generalizing stage groups with
  | nil =>
    rw [walk, walk, atEnd_shifted]
    rfl
  | cons token tokens ih =>
    rw [walk, walk, step_shifted]
    cases reader.step stage groups token with
    | next events next left =>
      simp only [Step.shifted, ih]
      exact after_shifted offset events _
    | stop failure => rfl

end Reader

/-- An expression that stands some bytes later has the same trace, as many bytes later. -/
theorem ofExpression_shifted (scope : Scope) (kind : Expression.Kind) (e : Expression)
    (offset : Nat) :
    ofExpression scope kind (e.shifted offset) = (ofExpression scope kind e).shifted offset := by
  simp only [ofExpression, Expression.text_shifted, Expression.span_shifted]
  split
  · rfl
  · exact (Reader.ofExpression scope kind e).walk_shifted offset .operand [] _

end Trace
end EventFormula
