import EventFormula.Target
import EventFormula.Platform.Builtin
import EventFormula.Text.Escape

/-! The JavaScript target. The instances of an object are in an array named after it. The object
that the event goes through is the element at `i`; any other object is the first of its array, and
when that is empty the alternative is taken. A parameter that cannot be lowered becomes the fallback
of its kind. -/

namespace EventFormula.JavaScript

/-- A letter or a digit as it is, anything else as an underscore and its number. -/
def mangleChar (c : Char) : List Char :=
  if c.isAlphanum then [c] else '_' :: Nat.toDigits 10 c.toNat

/-- The name of the array of an object's instances. -/
def objectsList (object : String) : String :=
  String.ofList (object.toList.flatMap mangleChar ++ "Objects".toList)

def insertFile (path : String) : List String → List String
  | [] => [path]
  | file :: files =>
    if path < file then path :: file :: files
    else if path = file then file :: files
    else file :: insertFile path files

/-- The objects that a name could stand for: the members of the group of that name, else itself. -/
def candidates (scope : Scope) (name : String) : List String :=
  match scope.group? name with
  | some group => group.objects
  | none => [name]

/-- The current object alone if it is a candidate, else the candidates that are declared, each
once. -/
def expand (scope : Scope) (name : String) (current : Option String) : List String :=
  let names := candidates scope name
  match current with
  | some object =>
    if object ∈ names then [object] else (names.filter scope.hasObject).eraseDups
  | none => (names.filter scope.hasObject).eraseDups

def quote (text : String) : String := "\"" ++ Text.escape text ++ "\""

/-- An expression as the code of its kind; nothing, or one that fails, as the fallback. -/
def expressionCode (kind : Expression.Kind) (e : Expression) : Script String :=
  if e.isEmpty then return kind.fallback
  else do
    match ← Script.lower kind e with
    | .ok code => return code
    | .error _ => return kind.fallback

/-- An argument without a parameter is taken as it is. -/
def parameterCode (argument : Expression) (parameter : Option Parameter) : Script String :=
  match parameter.elim .code Parameter.kind with
  | .number => expressionCode .number argument
  | .string => expressionCode .text argument
  | .object | .behavior => return quote argument.text
  | .code => return argument.text

def parameterCodes : List Expression → List Parameter → Script (List String)
  | [], _ => return []
  | argument :: arguments, parameters => do
    let first ← parameterCode argument parameters.head?
    let rest ← parameterCodes arguments parameters.tail
    return first :: rest

def callOn (element : String) (access : Access) : String :=
  element ++ (access.behavior.elim "" fun name => ".getBehavior(" ++ quote name ++ ")") ++ "."
    ++ access.callName ++ "(" ++ access.parameters ++ ")"

def currentCall (access : Access) : String := callOn (objectsList access.object ++ "[i]") access

def otherCall (access : Access) (otherwise : String) : String :=
  let list := objectsList access.object
  "((" ++ list ++ ".length === 0) ? " ++ otherwise ++ " : " ++ callOn (list ++ "[0]") access ++ ")"

def target (scope : Scope) : Target where
  record path files := if path = "" then files else insertFile path files
  parameterCodes := parameterCodes
  expand name view := expand scope name view.current
  currentCall access := .done (currentCall access)
  otherCall access otherwise := .done (otherCall access otherwise)
  escape := Text.escape

def firstCode (kind : Expression.Kind) : List Expression → Script String
  | argument :: _ => expressionCode kind argument
  | [] => return kind.fallback

def toStringHook : Hook := fun arguments =>
  return "(\"\" + (" ++ (← firstCode .number arguments) ++ "))"

def toNumberHook : Hook := fun arguments =>
  return "parseFloat(" ++ (← firstCode .text arguments) ++ ")"

def hooks : Table Hook :=
  .ofList [(Platform.toStringHook, toStringHook), (Platform.toNumberHook, toNumberHook)]

def generator (scope : Scope) : Generator := ⟨scope, target scope, hooks⟩

end EventFormula.JavaScript
