import EventFormula.Scope
import EventFormula.Text.Escape
import EventFormula.Token.Lexer
import EventFormula.Trace

/-!
# Reading a formula

    number formula := term (operator term)*      operator := + - * /
    term           := sign* primary              sign     := + -
    primary        := number | ( number formula ) | call

    text formula   := primary (+ primary)*
    primary        := string | ( text formula ) | call

    call           := Name ( arguments )
                    | Object . Name ( arguments )
                    | Object . Behavior :: Name ( arguments )

Whitespace may stand anywhere but inside the head of a call. Each token moves the reader on or ends
the formula with a failure. The arguments of a call are not read here: their tokens are collected
up to the parenthesis that closes the call.
-/

namespace EventFormula.Trace

/-- How many groups may be open at once. -/
def maxGroups : Nat := 256

structure Reader where
  scope : Scope
  kind : Expression.Kind
  base : Nat
  closing : Token

structure Head where
  form : Call.Form
  function : String
  callable : Callable
  given : List Expression
  /-- Where the head starts. -/
  span : Span

/-- What has been read just before. -/
inductive Stage where
  /-- A term has to follow. -/
  | operand
  | operator
  | name (head : Token)
  | member (head : Token)
  | memberName (head member : Token)
  /-- The name of an object, of a behavior, and `::`. -/
  | function (head member : Token)
  | functionName (head member function : Token)
  /-- The opening parenthesis of a call and the tokens after it, in reverse; `depth` parentheses
  are open among those. -/
  | arguments (head : Head) (opening : Token) (depth : Nat) (inner : List Token)

inductive Step where
  | next (events : List Event) (stage : Stage) (groups : List Token)
  | stop (failure : Failure)

namespace Reader

variable (reader : Reader)

/-- The place of a token in the outermost formula. -/
def placeOf (span : Span) : Span := span.shifted reader.base

def lexerFailure? (token : Token) : Option Failure :=
  match token.kind with
  | .unterminatedString => some ⟨.unterminatedString, reader.placeOf token.span⟩
  | .invalid => some ⟨.invalidCharacter token.text, reader.placeOf token.span⟩
  | _ => none

def unexpected (token : Token) (expected : String) : Failure :=
  (reader.lexerFailure? token).getD
    ⟨.unexpected token.describe expected, reader.placeOf token.span⟩

def expectedExpression (token : Token) : Failure :=
  (reader.lexerFailure? token).getD
    ⟨.expectedExpression token.describe, reader.placeOf token.span⟩

def joins (kind : Token.Kind) : Bool :=
  match reader.kind with
  | .number => kind.isOperator
  | .text => kind == .plus

def signs (kind : Token.Kind) : Bool :=
  match reader.kind with
  | .number => kind.isSign
  | .text => false

def continuation : String :=
  match reader.kind with
  | .number => "an operator"
  | .text => "`+`"

/-- A string literal calls the function without a name. Its text starts after the quote; a sum past
the limit of offsets is clamped, here and in `nameAt`, as in `Span`. -/
def literal (token : Token) : Call where
  form := .free
  returns := .text
  function := ""
  arguments := [.place (Text.unescape token.text) (reader.base + token.span.start + 1)]
  callable := .stringLiteral

def nameAt (token : Token) : Expression := .place token.text (reader.base + token.span.start)

def freeHead (head : Token) : Except Failure Head :=
  match reader.scope.platform.freeFunction? reader.kind head.text with
  | some callable => .ok ⟨.free, head.text, callable, [], head.span⟩
  | none => .error ⟨.unknownFunction head.text, reader.placeOf head.span⟩

def objectHead (head member : Token) : Except Failure Head :=
  let type := reader.scope.typeOfObject head.text
  match reader.scope.platform.objectFunction? reader.kind type member.text with
  | some callable => .ok ⟨.object, member.text, callable, [reader.nameAt head], head.span⟩
  | none =>
    .error ⟨.unknownFunction (head.text ++ "." ++ member.text), reader.placeOf member.span⟩

def behaviorHead (head member function : Token) : Except Failure Head :=
  let type := reader.scope.typeOfBehavior member.text
  if type = "" then .error ⟨.unknownBehavior member.text, reader.placeOf member.span⟩
  else
    match reader.scope.platform.behaviorFunction? reader.kind type function.text with
    | some callable =>
      .ok ⟨.behavior, function.text, callable, [reader.nameAt head, reader.nameAt member],
        head.span⟩
    | none =>
      .error ⟨.unknownFunction (head.text ++ "." ++ member.text ++ "::" ++ function.text),
        reader.placeOf function.span⟩

def callEvents (head : Head) (opening closing : Token) (inner : List Token) :
    Except Failure (List Event) :=
  let written := Call.split reader.base opening.span.stop inner
  let place := reader.placeOf (head.span.merge closing.span)
  (Call.align head.function head.callable head.given written place).map fun arguments =>
    Call.checks head.callable arguments ++
      [.call ⟨head.form, reader.kind, head.function, arguments.map Call.Argument.expression,
        head.callable⟩]

/-- The opening parenthesis of a call, once it is known what is called. -/
def openCall (head : Except Failure Head) (opening : Token) (groups : List Token) : Step :=
  match head with
  | .ok head => .next [] (.arguments head opening 0 []) groups
  | .error failure => .stop failure

def stepOperand (groups : List Token) (token : Token) : Step :=
  if token.isWhitespace then .next [.constant token.text] .operand groups
  else if reader.signs token.kind then .next [.operator token.text] .operand groups
  else
    match token.kind, reader.kind with
    | .number, .number => .next [.number token.text] .operator groups
    | .number, .text => .stop (reader.unexpected token "a string")
    | .string, .text => .next [.call (reader.literal token)] .operator groups
    | .string, .number => .stop (reader.unexpected token "a number")
    | .leftParen, _ =>
      if groups.length < maxGroups then
        .next [.constant token.text] .operand (token :: groups)
      else .stop ⟨.nestingTooDeep maxGroups, reader.placeOf token.span⟩
    | .identifier, _ => .next [] (.name token) groups
    | _, _ => .stop (reader.expectedExpression token)

def stepOperator (groups : List Token) (token : Token) : Step :=
  if token.isWhitespace then .next [.constant token.text] .operator groups
  else if reader.joins token.kind then .next [.operator token.text] .operand groups
  else
    match token.kind, groups with
    | .rightParen, _ :: groups => .next [.constant token.text] .operator groups
    | .rightParen, [] => .stop ⟨.unmatchedParen, reader.placeOf token.span⟩
    | _, _ :: _ => .stop (reader.unexpected token "`)`")
    | _, [] => .stop (reader.unexpected token reader.continuation)

def stepArguments (head : Head) (opening : Token) (depth : Nat) (inner groups : List Token)
    (token : Token) : Step :=
  match token.kind, depth with
  | .leftParen, depth => .next [] (.arguments head opening (depth + 1) (token :: inner)) groups
  | .rightParen, depth + 1 => .next [] (.arguments head opening depth (token :: inner)) groups
  | .rightParen, 0 =>
    match reader.callEvents head opening token inner.reverse with
    | .ok events => .next events .operator groups
    | .error failure => .stop failure
  | .unterminatedString, _ => .stop ⟨.unterminatedString, reader.placeOf token.span⟩
  | _, depth => .next [] (.arguments head opening depth (token :: inner)) groups

def step (stage : Stage) (groups : List Token) (token : Token) : Step :=
  match stage with
  | .operand => reader.stepOperand groups token
  | .operator => reader.stepOperator groups token
  | .name head =>
    match token.kind with
    | .leftParen => openCall (reader.freeHead head) token groups
    | .dot => .next [] (.member head) groups
    | _ => .stop (reader.unexpected token "`(` or `.` after a name")
  | .member head =>
    match token.kind with
    | .identifier => .next [] (.memberName head token) groups
    | _ => .stop (reader.unexpected token "a function or behavior name")
  | .memberName head member =>
    match token.kind with
    | .leftParen => openCall (reader.objectHead head member) token groups
    | .doubleColon => .next [] (.function head member) groups
    | _ => .stop (reader.unexpected token "`(` or `::`")
  | .function head member =>
    match token.kind with
    | .identifier => .next [] (.functionName head member token) groups
    | _ => .stop (reader.unexpected token "a behavior function name")
  | .functionName head member function =>
    match token.kind with
    | .leftParen => openCall (reader.behaviorHead head member function) token groups
    | _ => .stop (reader.unexpected token "`(`")
  | .arguments head opening depth inner =>
    reader.stepArguments head opening depth inner groups token

def atEnd (stage : Stage) (groups : List Token) : Option Failure :=
  match stage, groups with
  | .operator, [] => none
  | .operator, opening :: _ | .arguments _ opening _ _, _ =>
    some ⟨.unclosedParen, reader.placeOf opening.span⟩
  | .operand, _ => some (reader.expectedExpression reader.closing)
  | .name _, _ => some (reader.unexpected reader.closing "`(` or `.` after a name")
  | .member _, _ => some (reader.unexpected reader.closing "a function or behavior name")
  | .memberName .., _ => some (reader.unexpected reader.closing "`(` or `::`")
  | .function .., _ => some (reader.unexpected reader.closing "a behavior function name")
  | .functionName .., _ => some (reader.unexpected reader.closing "`(`")

/-- The trace of the tokens that are left. -/
def walk (stage : Stage) (groups : List Token) : List Token → Trace
  | [] => ⟨[], reader.atEnd stage groups⟩
  | token :: tokens =>
    match reader.step stage groups token with
    | .next events stage groups => (walk stage groups tokens).after events
    | .stop failure => ⟨[], some failure⟩

def ofExpression (scope : Scope) (kind : Expression.Kind) (e : Expression) : Reader :=
  ⟨scope, kind, e.base, Token.closing e.text⟩

end Reader

def ofExpression (scope : Scope) (kind : Expression.Kind) (e : Expression) : Trace :=
  let tokens := Token.lexemes e.text
  if tokens.all Token.isWhitespace then ⟨[], some ⟨.emptyExpression kind, e.span⟩⟩
  else (Reader.ofExpression scope kind e).walk .operand [] tokens

end EventFormula.Trace
