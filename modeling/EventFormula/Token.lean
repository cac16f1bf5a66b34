import EventFormula.Span

/-! A formula is cut into tokens that cover it without gaps: whitespace is a token like any other,
and text that fits no token is an invalid one. A closing token of no length marks the end. -/

namespace EventFormula

namespace Token

inductive Kind where
  | whitespace
  | number
  /-- A closed string literal, quotes included. -/
  | string
  | unterminatedString
  | identifier
  | doubleColon
  | dot
  | leftParen
  | rightParen
  | comma
  | plus
  | minus
  | star
  | slash
  /-- One character that starts no token. -/
  | invalid
  | endOfText
deriving DecidableEq

namespace Kind

def all : List Kind :=
  [whitespace, number, string, unterminatedString, identifier, doubleColon, dot, leftParen,
    rightParen, comma, plus, minus, star, slash, invalid, endOfText]

/-- The name of the kind in token listings. -/
def name : Kind → String
  | whitespace => "Whitespace"
  | number => "Number"
  | string => "String"
  | unterminatedString => "UnterminatedString"
  | identifier => "Ident"
  | doubleColon => "DoubleColon"
  | dot => "Dot"
  | leftParen => "LParen"
  | rightParen => "RParen"
  | comma => "Comma"
  | plus => "Plus"
  | minus => "Minus"
  | star => "Star"
  | slash => "Slash"
  | invalid => "Invalid"
  | endOfText => "Eof"

def ofName? (name : String) : Option Kind := all.find? fun kind => kind.name == name

/-- What a message calls a token of this kind. -/
def describe : Kind → String
  | whitespace => "whitespace"
  | number => "a number"
  | string | unterminatedString => "a string"
  | identifier => "an identifier"
  | doubleColon => "`::`"
  | dot => "`.`"
  | leftParen => "`(`"
  | rightParen => "`)`"
  | comma => "`,`"
  | plus => "`+`"
  | minus => "`-`"
  | star => "`*`"
  | slash => "`/`"
  | invalid => "an invalid character"
  | endOfText => "end of expression"

def isOperator : Kind → Bool
  | plus | minus | star | slash => true
  | _ => false

def isSign : Kind → Bool
  | plus | minus => true
  | _ => false

theorem ofName?_name (kind : Kind) : ofName? kind.name = some kind := by
  cases kind <;> decide +kernel

end Kind
end Token

/-- A token, where it stands in its text, and the text it covers there. -/
structure Token where
  kind : Token.Kind
  span : Span
  text : String
deriving DecidableEq

namespace Token

def chars (tokens : List Token) : List Char := tokens.flatMap fun token => token.text.toList

def concat (tokens : List Token) : String := String.ofList (chars tokens)

/-- The kind, followed by the text where the kind does not settle it. -/
def describe (token : Token) : String :=
  match token.kind with
  | .identifier | .number => token.kind.describe ++ " `" ++ token.text ++ "`"
  | kind => kind.describe

def isWhitespace (token : Token) : Bool := token.kind == .whitespace

@[simp] theorem chars_nil : chars [] = [] := rfl

@[simp] theorem chars_cons (token : Token) (tokens : List Token) :
    chars (token :: tokens) = token.text.toList ++ chars tokens := rfl

@[simp] theorem chars_append (as bs : List Token) : chars (as ++ bs) = chars as ++ chars bs :=
  List.flatMap_append

@[simp] theorem toList_concat (tokens : List Token) : (concat tokens).toList = chars tokens :=
  String.toList_ofList

end Token
end EventFormula
