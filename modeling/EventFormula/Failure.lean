import EventFormula.Diagnostic
import EventFormula.Expression

/-! A failure says what is wrong with a formula and where. What is wrong is a cause; its code, its
message and the advice that goes with it follow from the cause. -/

namespace EventFormula

inductive Cause where
  | unterminatedString
  | invalidCharacter (text : String)
  | unexpected (found expected : String)
  /-- A closing parenthesis that closes nothing. -/
  | unmatchedParen
  | expectedExpression (found : String)
  | missingArgument (function : String)
  | unclosedParen
  | unknownFunction (name : String)
  | wrongArgumentCount (function : String) (required max found : Nat)
  | nestingTooDeep (limit : Nat)
  | emptyExpression (kind : Expression.Kind)
  | unknownBehavior (name : String)
  /-- A cause that a reader of events brings forward in words of its own. -/
  | stated (code : ErrorCode) (message : String)
deriving DecidableEq

namespace Cause

def code : Cause → ErrorCode
  | unterminatedString => .unterminatedString
  | invalidCharacter _ => .invalidCharacter
  | unexpected .. | unmatchedParen => .unexpectedToken
  | expectedExpression _ | missingArgument _ => .expectedExpression
  | unclosedParen => .unclosedDelimiter
  | unknownFunction _ => .unknownFunction
  | wrongArgumentCount .. => .wrongArgumentCount
  | nestingTooDeep _ => .nestingTooDeep
  | emptyExpression _ => .emptyExpression
  | unknownBehavior _ => .unknownBehavior
  | stated code _ => code

def argumentCount (required max : Nat) : String :=
  (if required = max then toString required else toString required ++ " to " ++ toString max)
    ++ " argument" ++ (if max = 1 then "" else "s")

def message : Cause → String
  | unterminatedString => "unterminated string literal"
  | invalidCharacter text => "invalid character `" ++ text ++ "`"
  | unexpected found expected => "expected " ++ expected ++ ", found " ++ found
  | unmatchedParen => "unmatched `)`"
  | expectedExpression found => "expected an expression, found " ++ found
  | missingArgument function => "missing argument to `" ++ function ++ "`"
  | unclosedParen => "this `(` is never closed"
  | unknownFunction name => "unknown function `" ++ name ++ "`"
  | wrongArgumentCount function required max found =>
    "`" ++ function ++ "` takes " ++ argumentCount required max ++ ", found " ++ toString found
  | nestingTooDeep limit => "expression nests deeper than the limit of " ++ toString limit
  | emptyExpression kind => "empty " ++ kind.name ++ " expression"
  | unknownBehavior name => "unknown behavior `" ++ name ++ "`"
  | stated _ message => message

example : (wrongArgumentCount "Random" 0 1 2).message
    = "`Random` takes 0 to 1 argument, found 2" := by decide +kernel

end Cause

/-- A cause and its place in the outermost formula. -/
structure Failure where
  cause : Cause
  span : Span
deriving DecidableEq

namespace Failure

def code (failure : Failure) : ErrorCode := failure.cause.code

def message (failure : Failure) : String := failure.cause.message

def position (failure : Failure) : Nat := failure.span.start

/-- The failure seen from a text in which the formula starts `base` bytes later. -/
def shifted (failure : Failure) (base : Nat) : Failure :=
  { failure with span := failure.span.shifted base }

def suggestions : ErrorCode → List String
  | .unterminatedString => ["close the string with `\"`"]
  | .unclosedDelimiter => ["add the missing `)`"]
  | _ => []

def notes : ErrorCode → List String
  | .unknownFunction => ["function names are case-sensitive"]
  | .nestingTooDeep => ["split the expression or move parts of it into variables"]
  | _ => []

def toDiagnostic (failure : Failure) : Diagnostic where
  code := failure.code
  message := failure.message
  labels := [⟨failure.span, failure.code.description⟩]
  notes := notes failure.code
  suggestions := suggestions failure.code

end Failure
end EventFormula
