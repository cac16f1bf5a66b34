import EventFormula.Text
import EventFormula.Token
import EventFormula.Unicode

/-!
# Cutting a formula into tokens

At each place the longest token that fits is taken:

- a run of blanks (space, tab, carriage return, line feed);
- a number: digits with an optional point and optional digits after it, or a point with digits
  after it; then, if complete, an exponent;
- a string literal, closed or not. Inside it a backslash takes the next character along, whatever
  it is but a line feed;
- a name: letters, numbers and underscores, the first of them no number;
- `::` and the one-character tokens.

One character that starts none of these is an invalid token.
-/

namespace EventFormula.Token

def isBlank (c : Char) : Bool := c = ' ' || c = '\t' || c = '\r' || c = '\n'

def isNameStart (c : Char) : Bool := c = '_' || Unicode.isLetter c

def isNameRest (c : Char) : Bool := isNameStart c || Unicode.isNumber c

def digits (cs : List Char) : Nat := (cs.takeWhile Char.isDigit).length

def sign : List Char → Nat
  | c :: _ => if c = '+' || c = '-' then 1 else 0
  | [] => 0

/-- The length of the exponent that `cs` starts with, none unless it has a digit. -/
def exponent : List Char → Nat
  | c :: cs =>
    if c = 'e' || c = 'E' then
      let places := digits (cs.drop (sign cs))
      if places = 0 then 0 else 1 + sign cs + places
    else 0
  | [] => 0

def decimals (cs : List Char) : Nat := digits cs + exponent (cs.drop (digits cs))

/-- The length of what continues a number after its first digit. -/
def numberTail (cs : List Char) : Nat :=
  match cs.drop (digits cs) with
  | '.' :: rest => digits cs + 1 + decimals rest
  | rest => digits cs + exponent rest

/-- The length of what continues a string literal after its opening quote, and whether a closing
quote ends it. -/
def stringTail : List Char → Nat × Bool
  | '"' :: _ => (1, true)
  | '\\' :: c :: cs =>
    if c = '\n' then (0, false)
    else
      let (length, closed) := stringTail cs
      (2 + length, closed)
  | '\\' :: [] => (0, false)
  | _ :: cs =>
    let (length, closed) := stringTail cs
    (1 + length, closed)
  | [] => (0, false)

def symbol (c : Char) : Kind :=
  if c = '(' then .leftParen
  else if c = ')' then .rightParen
  else if c = ',' then .comma
  else if c = '+' then .plus
  else if c = '-' then .minus
  else if c = '*' then .star
  else if c = '/' then .slash
  else if c = '.' then .dot
  else .invalid

/-- The kind of the longest token that starts with `c`, and how many of the characters after `c`
it takes. -/
def scan (c : Char) (cs : List Char) : Kind × Nat :=
  if isBlank c then (.whitespace, (cs.takeWhile isBlank).length)
  else if c = '"' then
    let (length, closed) := stringTail cs
    (if closed then .string else .unterminatedString, length)
  else if isNameStart c then (.identifier, (cs.takeWhile isNameRest).length)
  else if c.isDigit then (.number, numberTail cs)
  else if c = '.' && digits cs != 0 then (.number, decimals cs)
  else if c = ':' && cs.head? = some ':' then (.doubleColon, 1)
  else (symbol c, 0)

/-- The tokens of `cs`, which starts at byte `start` of its text. -/
def lexemesFrom (start : Nat) : List Char → List Token
  | [] => []
  | c :: cs =>
    let (kind, length) := scan c cs
    let lexeme := c :: cs.take length
    let stop := start + Text.size lexeme
    ⟨kind, .ofRange start stop, String.ofList lexeme⟩ :: lexemesFrom stop (cs.drop length)
termination_by cs => cs.length
decreasing_by
  simp only [List.length_drop, List.length_cons]
  omega

/-- The tokens of a text, the closing one left out. -/
def lexemes (source : String) : List Token := lexemesFrom 0 source.toList

def closing (source : String) : Token :=
  ⟨.endOfText, .ofRange (Text.size source.toList) (Text.size source.toList), ""⟩

def lex (source : String) : List Token := lexemes source ++ [closing source]

theorem chars_lexemesFrom (start : Nat) (cs : List Char) : chars (lexemesFrom start cs) = cs := by
  fun_induction lexemesFrom start cs with
  | case1 => rfl
  | case2 start c cs kind length h lexeme stop ih =>
    simp only [chars_cons, ih, String.toList_ofList, lexeme, List.cons_append,
      List.take_append_drop]

theorem concat_lexemes (source : String) : concat (lexemes source) = source := by
  rw [concat, lexemes, chars_lexemesFrom, String.ofList_toList]

theorem text_ne_empty_of_mem_lexemesFrom {start : Nat} {cs : List Char} {token : Token}
    (h : token ∈ lexemesFrom start cs) : token.text ≠ "" := by
  fun_induction lexemesFrom start cs with
  | case1 => cases h
  | case2 start c cs kind length hscan lexeme stop ih =>
    rcases List.mem_cons.1 h with rfl | h
    · intro he
      have := congrArg String.toList he
      simp [lexeme] at this
    · exact ih h

end EventFormula.Token
