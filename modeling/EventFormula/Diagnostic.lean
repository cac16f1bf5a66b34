import EventFormula.Span

/-! What is wrong with a formula, in the parts that are shown. -/

namespace EventFormula

inductive ErrorCode where
  | unterminatedString
  | invalidCharacter
  | unexpectedToken
  | expectedExpression
  | unclosedDelimiter
  | unknownFunction
  | wrongArgumentCount
  | nestingTooDeep
  | emptyExpression
  | unknownBehavior
deriving DecidableEq

namespace ErrorCode

def all : List ErrorCode :=
  [unterminatedString, invalidCharacter, unexpectedToken, expectedExpression, unclosedDelimiter,
    unknownFunction, wrongArgumentCount, nestingTooDeep, emptyExpression, unknownBehavior]

def number : ErrorCode → String
  | unterminatedString => "E0001"
  | invalidCharacter => "E0002"
  | unexpectedToken => "E1001"
  | expectedExpression => "E1002"
  | unclosedDelimiter => "E1003"
  | unknownFunction => "E1004"
  | wrongArgumentCount => "E1005"
  | nestingTooDeep => "E1006"
  | emptyExpression => "E1007"
  | unknownBehavior => "E1008"

def description : ErrorCode → String
  | unterminatedString => "unterminated string literal"
  | invalidCharacter => "invalid character in expression"
  | unexpectedToken => "unexpected token"
  | expectedExpression => "expected expression"
  | unclosedDelimiter => "unclosed delimiter"
  | unknownFunction => "unknown function"
  | wrongArgumentCount => "wrong number of arguments"
  | nestingTooDeep => "sub-expressions nested too deeply"
  | emptyExpression => "empty expression"
  | unknownBehavior => "unknown behavior"

/-- Whether cutting the formula into tokens already shows the error. -/
def isLexerError : ErrorCode → Bool
  | unterminatedString | invalidCharacter => true
  | _ => false

/-- ASCII letters in upper case, all else as it is. -/
def upper (text : String) : String := String.ofList (text.toList.map Char.toUpper)

def ofNumber? (number : String) : Option ErrorCode :=
  all.find? fun code => code.number == upper number

theorem ofNumber?_number (code : ErrorCode) : ofNumber? code.number = some code := by
  cases code <;> decide +kernel

example : ofNumber? "e1004" = some unknownFunction := by decide +kernel

end ErrorCode

structure Label where
  span : Span
  message : String
deriving DecidableEq

structure Diagnostic where
  code : ErrorCode
  message : String
  labels : List Label := []
  notes : List String := []
  suggestions : List String := []
deriving DecidableEq

def Diagnostic.headline (diagnostic : Diagnostic) : String :=
  "error[" ++ diagnostic.code.number ++ "]: " ++ diagnostic.message

end EventFormula
