import EventFormula.Unicode

/-! Text between quotes. In a string literal a backslash and one of `n`, `r`, `t`, `\` and `"` stand
for one character; before any other character a backslash stands for itself. Listings quote text so
that every character can be told apart. -/

namespace EventFormula.Text

/-- The character that a backslash followed by `c` stands for. -/
def escaped? (c : Char) : Option Char :=
  if c = 'n' then some '\n'
  else if c = 'r' then some '\r'
  else if c = 't' then some '\t'
  else if c = '\\' then some '\\'
  else if c = '"' then some '"'
  else none

/-- The characters a literal stands for, its quotes taken off. -/
def resolveEscapes : List Char → List Char
  | '\\' :: c :: cs =>
    match escaped? c with
    | some d => d :: resolveEscapes cs
    | none => '\\' :: c :: resolveEscapes cs
  | c :: cs => c :: resolveEscapes cs
  | [] => []

/-- One quote less at each end that has one. -/
def stripQuotes (cs : List Char) : List Char :=
  let inner := if cs.head? = some '"' then cs.tail else cs
  if inner.getLast? = some '"' then inner.dropLast else inner

def unescape (literal : String) : String :=
  String.ofList (resolveEscapes (stripQuotes literal.toList))

def escapeChar (c : Char) : List Char :=
  if c = '"' then ['\\', '"']
  else if c = '\\' then ['\\', '\\']
  else if c = '\n' then ['\\', 'n']
  else if c = '\r' then ['\\', 'r']
  else if c = '\t' then ['\\', 't']
  else [c]

def escapeChars (cs : List Char) : List Char := cs.flatMap escapeChar

def escape (text : String) : String := String.ofList (escapeChars text.toList)

theorem resolveEscapes_escapeChar_append (c : Char) (cs : List Char) :
    resolveEscapes (escapeChar c ++ cs) = c :: resolveEscapes cs := by
  by_cases hq : c = '"'
  · subst hq; rfl
  by_cases hb : c = '\\'
  · subst hb; rfl
  by_cases hn : c = '\n'
  · subst hn; rfl
  by_cases hr : c = '\r'
  · subst hr; rfl
  by_cases ht : c = '\t'
  · subst ht; rfl
  simp [escapeChar, hq, hb, hn, hr, ht, resolveEscapes]

@[simp] theorem resolveEscapes_escapeChars (cs : List Char) :
    resolveEscapes (escapeChars cs) = cs := by
  induction cs with
  | nil => rfl
  | cons c cs ih =>
    simp only [escapeChars, List.flatMap_cons] at ih ⊢
    rw [resolveEscapes_escapeChar_append, ih]

theorem stripQuotes_quoted (cs : List Char) : stripQuotes ('"' :: (cs ++ ['"'])) = cs := by
  simp [stripQuotes]

theorem unescape_quoted_escape (text : String) :
    unescape ("\"" ++ escape text ++ "\"") = text := by
  have h : ("\"" ++ escape text ++ "\"").toList = '"' :: (escapeChars text.toList ++ ['"']) := by
    simp [escape]
  rw [unescape, h, stripQuotes_quoted, resolveEscapes_escapeChars, String.ofList_toList]

example : unescape "\"a\\n\\q\"" = "a\n\\q" := by decide +kernel

/-- The number of a character in braces: lowercase hexadecimal, no leading zeros. -/
def codePoint (c : Char) : List Char :=
  ['\\', 'u', '\x7b'] ++ Nat.toDigits 16 c.toNat ++ ['\x7d']

def showChar (c : Char) : List Char :=
  if c = '\x00' then ['\\', '0']
  else if c = '\t' then ['\\', 't']
  else if c = '\r' then ['\\', 'r']
  else if c = '\n' then ['\\', 'n']
  else if c = '"' then ['\\', '"']
  else if c = '\\' then ['\\', '\\']
  else if Unicode.isExtendingMark c || Unicode.isUnprintable c then codePoint c
  else [c]

def quoted (text : String) : String :=
  String.ofList ('"' :: text.toList.flatMap showChar ++ ['"'])

example : quoted "a\"é\u200b" = "\"a\\\"é\\u\x7b200b\x7d\"" := by decide +kernel

end EventFormula.Text
