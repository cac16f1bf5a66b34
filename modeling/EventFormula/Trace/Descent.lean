import EventFormula.Trace.Reader

/-! The grammar of `EventFormula.Trace.Reader` as a recursive descent. A visitor is told of each
part as soon as it is recognized. Its first refusal ends the reading. -/

namespace EventFormula

/-- A visitor is told of what needs no answer, and asked about arguments. -/
structure Visitor (m : Type → Type) where
  notice : Event → m Unit
  answer : Expression.Kind → Expression → m (Except Failure Unit)

namespace Visitor

variable {m : Type → Type} [Monad m] (visitor : Visitor m)

def tell (event : Event) : ExceptT Failure m Unit := ExceptT.lift (visitor.notice event)

def ask (kind : Expression.Kind) (e : Expression) : ExceptT Failure m Unit :=
  ExceptT.mk (visitor.answer kind e)

/-- An argument that the designer wrote is asked about if it is a formula of its own. -/
def validate (parameter : Parameter) (argument : Call.Argument) : ExceptT Failure m Unit :=
  match argument.written, parameter.kind.expressionKind? with
  | true, some kind => visitor.ask kind argument.expression
  | _, _ => pure ()

def lead (token : Token) : Event :=
  if token.isWhitespace then .constant token.text else .operator token.text

def pass (p : Token → Bool) (tokens : List Token) : ExceptT Failure m Unit :=
  forM (tokens.takeWhile p) fun token => visitor.tell (lead token)

end Visitor

namespace Trace.Reader

/-- What is left of some tokens. -/
abbrev Left (tokens : List Token) : Type := {left : List Token // left.length ≤ tokens.length}

variable {tokens : List Token}

def Left.within {left : List Token} (rest : Left left) (h : left.length ≤ tokens.length) :
    Left tokens := ⟨rest.1, Nat.le_trans rest.2 h⟩

def behind (p : Token → Bool) (tokens : List Token) : Left tokens :=
  ⟨tokens.dropWhile p, (tokens.dropWhile_sublist p).length_le⟩

variable (reader : Reader)

def leads (token : Token) : Bool := token.isWhitespace || reader.signs token.kind

def expect (kinds : List Token.Kind) (expected : String) :
    Left tokens → Except Failure (Token × Left tokens)
  | ⟨[], _⟩ => .error (reader.unexpected reader.closing expected)
  | ⟨token :: left, h⟩ =>
    if token.kind ∈ kinds then .ok (token, ⟨left, Nat.le_of_lt h⟩)
    else .error (reader.unexpected token expected)

/-- The head of a call that starts with a name, and the parenthesis behind it. -/
def head (name : Token) (left : Left tokens) : Except Failure (Head × Token × Left tokens) := do
  let (token, left) ← reader.expect [.leftParen, .dot] "`(` or `.` after a name" left
  if token.kind = .leftParen then return (← reader.freeHead name, token, left)
  let (member, left) ← reader.expect [.identifier] "a function or behavior name" left
  let (token, left) ← reader.expect [.leftParen, .doubleColon] "`(` or `::`" left
  if token.kind = .leftParen then return (← reader.objectHead name member, token, left)
  let (function, left) ← reader.expect [.identifier] "a behavior function name" left
  let (token, left) ← reader.expect [.leftParen] "`(`" left
  return (← reader.behaviorHead name member function, token, left)

def depthBehind (token : Token) (depth : Nat) : Nat :=
  match token.kind with
  | .leftParen => depth + 1
  | .rightParen => depth - 1
  | _ => depth

/-- The tokens up to the parenthesis that closes a call; `depth` parentheses are open among those
before. -/
def scan (opening : Token) (depth : Nat) :
    (tokens : List Token) → Except Failure (List Token × Token × Left tokens)
  | [] => .error ⟨.unclosedParen, reader.placeOf opening.span⟩
  | token :: tokens =>
    if token.kind = .rightParen ∧ depth = 0 then .ok ([], token, ⟨tokens, Nat.le_succ _⟩)
    else if token.kind = .unterminatedString then
      .error ⟨.unterminatedString, reader.placeOf token.span⟩
    else
      (scan opening (depthBehind token depth) tokens).map fun (inner, closing, left) =>
        (token :: inner, closing, left.within (Nat.le_succ _))

end Trace.Reader

namespace Visitor

open Trace Trace.Reader

variable {m : Type → Type} [Monad m] (visitor : Visitor m) (reader : Reader)

/-- A call that starts with a name. All its arguments are matched with the parameters before the
visitor is asked about the first. -/
def call (name : Token) (tokens : List Token) : ExceptT Failure m (Left tokens) := do
  let (head, opening, left) ← reader.head name ⟨tokens, Nat.le_refl _⟩
  let (inner, closing, rest) ← reader.scan opening 0 left.1
  let written := Call.split reader.base opening.span.stop inner
  let place := reader.placeOf (head.span.merge closing.span)
  let arguments ← Call.align head.function head.callable head.given written place
  forM (head.callable.parameters.zip arguments) fun (parameter, argument) =>
    visitor.validate parameter argument
  visitor.tell (.call ⟨head.form, reader.kind, head.function,
    arguments.map Call.Argument.expression, head.callable⟩)
  return rest.within left.2

mutual

/-- A term where `groups` groups are open. -/
def term (groups : Nat) (tokens : List Token) : ExceptT Failure m (Left tokens) := do
  visitor.pass reader.leads tokens
  match behind reader.leads tokens with
  | ⟨[], _⟩ => throw (reader.expectedExpression reader.closing)
  | ⟨token :: left, h⟩ =>
    match token.kind, reader.kind with
    | .number, .number =>
      visitor.tell (.number token.text)
      return ⟨left, Nat.le_of_lt h⟩
    | .number, .text => throw (reader.unexpected token "a string")
    | .string, .text =>
      visitor.tell (.call (reader.literal token))
      return ⟨left, Nat.le_of_lt h⟩
    | .string, .number => throw (reader.unexpected token "a number")
    | .leftParen, _ =>
      let rest ← group groups token left
      return rest.within (Nat.le_of_lt h)
    | .identifier, _ =>
      let rest ← visitor.call reader token left
      return rest.within (Nat.le_of_lt h)
    | _, _ => throw (reader.expectedExpression token)
termination_by 3 * tokens.length
decreasing_by
  rw [List.length_cons] at h
  omega

/-- What follows the parenthesis that opens a group, the closing one included. -/
def group (groups : Nat) (opening : Token) (tokens : List Token) :
    ExceptT Failure m (Left tokens) := do
  if maxGroups ≤ groups then throw ⟨.nestingTooDeep maxGroups, reader.placeOf opening.span⟩
  else
    visitor.tell (.constant opening.text)
    let left ← formula (groups + 1) tokens
    visitor.pass Token.isWhitespace left.1
    match behind Token.isWhitespace left.1 with
    | ⟨[], _⟩ => throw ⟨.unclosedParen, reader.placeOf opening.span⟩
    | ⟨closing :: rest, h⟩ =>
      if closing.kind = .rightParen then
        visitor.tell (.constant closing.text)
        return ⟨rest, Nat.le_trans (Nat.le_of_lt h) left.2⟩
      else throw (reader.unexpected closing "`)`")
termination_by 3 * tokens.length + 2

def formula (groups : Nat) (tokens : List Token) : ExceptT Failure m (Left tokens) := do
  let left ← term groups tokens
  let rest ← more groups left.1
  return rest.within left.2
termination_by 3 * tokens.length + 1
decreasing_by
  · omega
  · have := left.2
    omega

def more (groups : Nat) (tokens : List Token) : ExceptT Failure m (Left tokens) := do
  visitor.pass Token.isWhitespace tokens
  match behind Token.isWhitespace tokens with
  | ⟨[], h⟩ => return ⟨[], h⟩
  | ⟨token :: left, h⟩ =>
    if reader.joins token.kind then
      visitor.tell (.operator token.text)
      let rest ← formula groups left
      return rest.within (Nat.le_of_lt h)
    else return ⟨token :: left, h⟩
termination_by 3 * tokens.length
decreasing_by
  rw [List.length_cons] at h
  omega

end

/-- An expression read as a formula of some kind for the visitor. -/
def parse (scope : Scope) (kind : Expression.Kind) (e : Expression) :
    ExceptT Failure m Unit := do
  let reader := Reader.ofExpression scope kind e
  let tokens := Token.lexemes e.text
  if tokens.all Token.isWhitespace then throw ⟨.emptyExpression kind, e.span⟩
  else
    let left ← visitor.formula reader 0 tokens
    visitor.pass Token.isWhitespace left.1
    match (behind Token.isWhitespace left.1).1 with
    | [] => return
    | token :: _ =>
      if token.kind = .rightParen then throw ⟨.unmatchedParen, reader.placeOf token.span⟩
      else throw (reader.unexpected token reader.continuation)

end Visitor
end EventFormula
