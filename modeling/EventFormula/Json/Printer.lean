import EventFormula.Json

/-! Writing JSON: there are no blanks, and only a quote, a backslash and the control characters are
escaped. -/

namespace EventFormula.Json

def hexDigits (n : Nat) : List Char :=
  let shown := Nat.toDigits 16 n
  List.replicate (4 - shown.length) '0' ++ shown

def stringChar (c : Char) : List Char :=
  if c = '"' then ['\\', '"']
  else if c = '\\' then ['\\', '\\']
  else if c = '\n' then ['\\', 'n']
  else if c.toNat < 0x20 then '\\' :: 'u' :: hexDigits c.toNat
  else [c]

def renderString (text : String) : String :=
  String.ofList ('"' :: text.toList.flatMap stringChar ++ ['"'])

mutual

/-- What denotes no text is written as null. -/
def render : Json → String
  | null | unreadable => "null"
  | bool value => if value then "true" else "false"
  | number text => text
  | string text => renderString text
  | array items => "[" ++ ",".intercalate (renderItems items) ++ "]"
  | object members => "\x7b" ++ ",".intercalate (renderMembers members) ++ "\x7d"

def renderItems : List Json → List String
  | [] => []
  | item :: items => render item :: renderItems items

def renderMembers : List (String × Json) → List String
  | [] => []
  | (name, value) :: members => (renderString name ++ ":" ++ render value) :: renderMembers members

end

example : render (object [("a", array [null, bool true]), ("b", string "x\"\n")])
    = "\x7b\"a\":[null,true],\"b\":\"x\\\"\\n\"\x7d" := by decide +kernel

end EventFormula.Json
