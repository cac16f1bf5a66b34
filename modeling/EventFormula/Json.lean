/-! JSON values. Numbers stay as written, members stay in order and may repeat a name. A string that
holds half of a surrogate pair denotes no text; such a string, and an object with such a name in it,
is `unreadable`. -/

namespace EventFormula

inductive Json where
  | null
  | bool (value : Bool)
  | number (text : String)
  | string (text : String)
  | array (items : List Json)
  | object (members : List (String × Json))
  /-- Well formed, but some name or string in it denotes no text. -/
  | unreadable
deriving Inhabited

namespace Json

def ofNat (n : Nat) : Json := number (toString n)

def strings (texts : List String) : Json := array (texts.map string)

def ofOption {α : Type} (encode : α → Json) : Option α → Json
  | some value => encode value
  | none => null

def nat? : Json → Option Nat
  | number text => text.toNat?
  | _ => none

def string? : Json → Option String
  | string text => some text
  | _ => none

def bool? : Json → Option Bool
  | bool value => some value
  | _ => none

def listOf? {α : Type} (decode : Json → Option α) : Json → Option (List α)
  | array items => items.mapM decode
  | _ => none

/-- The text of a member that is not there or null is none. -/
def nullable? {α : Type} (decode : Json → Option α) : Json → Option (Option α)
  | null => some none
  | value => (decode value).map some

/-- The member of that name, the last one if there are several. -/
def member? (name : String) : Json → Option Json
  | object members => (members.reverse.find? fun member => member.1 == name).map Prod.snd
  | _ => none

/-! ### Records

A record is written as an object, or as the array of its fields in order. In an object a name that
is no field is ignored, and a field may not be there twice. In an array fields may be missing at
the end. -/

/-- The value of the field of that name; refused if there are two. -/
def uniqueMember? (members : List (String × Json)) (name : String) : Option (Option Json) :=
  match members.filter fun member => member.1 == name with
  | [] => some none
  | [member] => some (some member.2)
  | _ => none

def fields? (names : List String) : Json → Option (List (Option Json))
  | object members => names.mapM (uniqueMember? members)
  | array items =>
    if items.length ≤ names.length then
      some (items.map some ++ List.replicate (names.length - items.length) none)
    else none
  | _ => none

def required {α : Type} (decode : Json → Option α) : Option Json → Option α
  | some value => decode value
  | none => none

def defaulted {α : Type} (decode : Json → Option α) (value : α) : Option Json → Option α
  | some json => decode json
  | none => some value

/-- A choice is written as its name alone, or as an object with that one name. -/
def choice? : Json → Option (String × Option Json)
  | string name => some (name, none)
  | object [(name, content)] => some (name, some content)
  | _ => none

def bareChoice? (json : Json) : Option String :=
  match choice? json with
  | some (name, none) | some (name, some null) => some name
  | _ => none

end Json
end EventFormula
