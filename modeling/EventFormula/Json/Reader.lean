import EventFormula.Json

/-! Reading JSON. The reader is strict: one value, blanks around it, nothing else. It cuts the text
into lexemes and then builds the value on a stack of the arrays and objects that are still open, so
no depth of nesting is too much for it. -/

namespace EventFormula.Json

/-- Part of a string: a character, or a unit that `\u` names by four hexadecimal digits. -/
inductive Piece where
  | char (c : Char)
  | unit (value : Nat)

/-- A mark of the notation, or a whole value that has no parts. -/
inductive Lexeme where
  | openArray
  | closeArray
  | openObject
  | closeObject
  | comma
  | colon
  | scalar (value : Json)

def isBlank (c : Char) : Bool := c = ' ' || c = '\t' || c = '\r' || c = '\n'

def hexDigit? (c : Char) : Option Nat :=
  if c.isDigit then some (c.toNat - '0'.toNat)
  else if 'a' ≤ c ∧ c ≤ 'f' then some (c.toNat - 'a'.toNat + 10)
  else if 'A' ≤ c ∧ c ≤ 'F' then some (c.toNat - 'A'.toNat + 10)
  else none

def hexUnit? (a b c d : Char) : Option Nat := do
  return (((← hexDigit? a) * 16 + (← hexDigit? b)) * 16 + (← hexDigit? c)) * 16 + (← hexDigit? d)

def escaped? (c : Char) : Option Char :=
  if c = '"' || c = '\\' || c = '/' then some c
  else if c = 'b' then some '\x08'
  else if c = 'f' then some '\x0c'
  else if c = 'n' then some '\n'
  else if c = 'r' then some '\r'
  else if c = 't' then some '\t'
  else none

def pieces? : List Char → Option (List Piece × List Char)
  | [] => none
  | '"' :: rest => some ([], rest)
  | '\\' :: 'u' :: a :: b :: c :: d :: rest => do
    let value ← hexUnit? a b c d
    let (pieces, rest) ← pieces? rest
    return (.unit value :: pieces, rest)
  | '\\' :: c :: rest => do
    let c ← escaped? c
    let (pieces, rest) ← pieces? rest
    return (.char c :: pieces, rest)
  | c :: rest =>
    if c.toNat < 0x20 then none
    else do
      let (pieces, rest) ← pieces? rest
      return (.char c :: pieces, rest)

/-- The characters that the parts stand for. Two halves of a surrogate pair make one character; a
half on its own makes none. -/
def joinPieces? : List Piece → Option (List Char)
  | [] => some []
  | .char c :: rest => (joinPieces? rest).map (c :: ·)
  | .unit high :: .unit low :: rest =>
    if 0xd800 ≤ high ∧ high < 0xdc00 ∧ 0xdc00 ≤ low ∧ low < 0xe000 then
      (joinPieces? rest).map
        (Char.ofNat (0x10000 + (high - 0xd800) * 0x400 + (low - 0xdc00)) :: ·)
    else if 0xd800 ≤ high ∧ high < 0xe000 then none
    else (joinPieces? (.unit low :: rest)).map (Char.ofNat high :: ·)
  | .unit value :: rest =>
    if 0xd800 ≤ value ∧ value < 0xe000 then none
    else (joinPieces? rest).map (Char.ofNat value :: ·)

def isNumberChar (c : Char) : Bool :=
  c.isDigit || c = '-' || c = '+' || c = '.' || c = 'e' || c = 'E'

def digitsThen (next : List Char → Bool) (cs : List Char) : Bool :=
  (cs.takeWhile Char.isDigit).length != 0 && next (cs.dropWhile Char.isDigit)

def exponentEnds : List Char → Bool
  | [] => true
  | e :: cs =>
    (e = 'e' || e = 'E') &&
      match cs with
      | '+' :: cs | '-' :: cs => digitsThen List.isEmpty cs
      | cs => digitsThen List.isEmpty cs

def fractionEnds : List Char → Bool
  | '.' :: cs => digitsThen exponentEnds cs
  | cs => exponentEnds cs

/-- Whether a number of this form is allowed: no leading zeros, digits around the point. -/
def isNumber (cs : List Char) : Bool :=
  match (if cs.head? = some '-' then cs.tail else cs) with
  | '0' :: cs => fractionEnds cs
  | cs => digitsThen fractionEnds cs

def word? (cs : List Char) : Option Json :=
  if cs = ['n', 'u', 'l', 'l'] then some .null
  else if cs = ['t', 'r', 'u', 'e'] then some (.bool true)
  else if cs = ['f', 'a', 'l', 's', 'e'] then some (.bool false)
  else none

def mark? (c : Char) : Option Lexeme :=
  if c = '[' then some .openArray
  else if c = ']' then some .closeArray
  else if c = '\x7b' then some .openObject
  else if c = '\x7d' then some .closeObject
  else if c = ',' then some .comma
  else if c = ':' then some .colon
  else none

theorem length_pieces? {cs rest : List Char} {pieces : List Piece}
    (h : pieces? cs = some (pieces, rest)) : rest.length < cs.length := by
  fun_induction pieces? cs generalizing pieces rest with
  | case1 => cases h
  | case2 tail => simp_all
  | case3 a b c d tail ih =>
    rcases Option.bind_eq_some_iff.1 h with ⟨value, _, h⟩
    rcases Option.bind_eq_some_iff.1 h with ⟨⟨ps, after⟩, hp, h⟩
    have := ih hp
    cases h
    simp only [List.length_cons]
    omega
  | case4 c tail _ ih =>
    rcases Option.bind_eq_some_iff.1 h with ⟨value, _, h⟩
    rcases Option.bind_eq_some_iff.1 h with ⟨⟨ps, after⟩, hp, h⟩
    have := ih hp
    cases h
    simp only [List.length_cons]
    omega
  | case5 => cases h
  | case6 c tail _ _ _ _ ih =>
    rcases Option.bind_eq_some_iff.1 h with ⟨⟨ps, after⟩, hp, h⟩
    have := ih hp
    cases h
    simp only [List.length_cons]
    omega

def lexemes? : List Char → Option (List Lexeme)
  | [] => some []
  | c :: cs =>
    if isBlank c then lexemes? cs
    else if c = '"' then
      match h : pieces? cs with
      | none => none
      | some (pieces, rest) =>
        have := length_pieces? h
        let value := match joinPieces? pieces with
          | some text => .string (String.ofList text)
          | none => .unreadable
        (lexemes? rest).map (.scalar value :: ·)
    else if isNumberChar c then
      let text := c :: cs.takeWhile isNumberChar
      if isNumber text then
        (lexemes? (cs.drop (cs.takeWhile isNumberChar).length)).map
          (.scalar (.number (String.ofList text)) :: ·)
      else none
    else if c.isAlpha then
      match word? (c :: cs.takeWhile Char.isAlpha) with
      | some value =>
        (lexemes? (cs.drop (cs.takeWhile Char.isAlpha).length)).map (.scalar value :: ·)
      | none => none
    else
      match mark? c with
      | some mark => (lexemes? cs).map (mark :: ·)
      | none => none
termination_by cs => cs.length
decreasing_by all_goals simp only [List.length_drop, List.length_cons]; omega

/-- An array or object that is still open, its parts so far in reverse. -/
inductive Frame where
  | array (items : List Json)
  /-- `readable` says that every name so far denotes a text. -/
  | object (readable : Bool) (members : List (String × Json)) (name : String)

/-- What may come next. -/
inductive Stage where
  | value
  /-- A value, or the end of an array that has none yet. -/
  | firstItem
  /-- A name, or the end of an object that has none yet. -/
  | firstName
  | name
  | colon
  | next
  | done (value : Json)

def settle (value : Json) : List Frame → List Frame × Stage
  | [] => ([], .done value)
  | .array items :: frames => (.array (value :: items) :: frames, .next)
  | .object readable members name :: frames =>
    (.object readable ((name, value) :: members) name :: frames, .next)

def Frame.close : Frame → Json
  | .array items => .array items.reverse
  | .object true members _ => .object members.reverse
  | .object false _ _ => .unreadable

def beginValue : Lexeme → List Frame → Option (List Frame × Stage)
  | .scalar value, frames => some (settle value frames)
  | .openArray, frames => some (.array [] :: frames, .firstItem)
  | .openObject, frames => some (.object true [] "" :: frames, .firstName)
  | _, _ => none

def beginName : Lexeme → List Frame → Option (List Frame × Stage)
  | .scalar (.string name), .object readable members _ :: frames =>
    some (.object readable members name :: frames, .colon)
  | .scalar .unreadable, .object _ members name :: frames =>
    some (.object false members name :: frames, .colon)
  | _, _ => none

def step : List Frame × Stage → Lexeme → Option (List Frame × Stage)
  | (frame :: frames, .firstItem), .closeArray => some (settle frame.close frames)
  | (frames, .firstItem), lexeme => beginValue lexeme frames
  | (frames, .value), lexeme => beginValue lexeme frames
  | (frame :: frames, .firstName), .closeObject => some (settle frame.close frames)
  | (frames, .firstName), lexeme => beginName lexeme frames
  | (frames, .name), lexeme => beginName lexeme frames
  | (frames, .colon), .colon => some (frames, .value)
  | (.array items :: frames, .next), .comma => some (.array items :: frames, .value)
  | (.object readable members name :: frames, .next), .comma =>
    some (.object readable members name :: frames, .name)
  | (.array items :: frames, .next), .closeArray =>
    some (settle (Frame.array items).close frames)
  | (.object readable members name :: frames, .next), .closeObject =>
    some (settle (Frame.object readable members name).close frames)
  | _, _ => none

/-- The value that a text denotes, if it is JSON. -/
def parse? (text : String) : Option Json := do
  let lexemes ← lexemes? text.toList
  match ← lexemes.foldlM step ([], .value) with
  | ([], .done value) => some value
  | _ => none

end EventFormula.Json
