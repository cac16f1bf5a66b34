import EventFormula.Target
import EventFormula.Text

/-! A target whose code spells out what was asked for: which way a call takes, whether a type was
known, and every request for a file. What names stand for is given by a table. -/

namespace EventFormula.Symbolic

abbrev Expansions := Table (List String)

/-- A number or a text that fails is an error, anything else is taken as it is. -/
def parameterCode (argument : Expression) (parameter : Parameter) : Script String :=
  match parameter.kind.expressionKind? with
  | some kind => do
    match ← Script.lower kind argument with
    | .ok code => return code
    | .error _ => return "ERR"
  | none => return argument.text

/-- Arguments without a parameter, and parameters without an argument, are left out. -/
def parameterCodes (arguments : List Expression) (parameters : List Parameter) :
    Script (List String) :=
  Script.each (fun (argument, parameter) => parameterCode argument parameter)
    (arguments.zip parameters)

/-- The object, the behavior, the call and its parameters; a sign says whether the type is known. -/
def callText (access : Access) : String :=
  (if access.info.isSome then "+" else "-") ++ access.object ++ "."
    ++ (access.behavior.elim "" fun name => name ++ ".") ++ access.callName ++ ":"
    ++ access.parameters

def mark (access : Access) : String := if access.behavior.isSome then "b" else ""

def currentCall (access : Access) : String := "fast" ++ mark access ++ "(" ++ callText access ++ ")"

def otherCall (access : Access) (otherwise : String) : String :=
  "pick" ++ mark access ++ "(" ++ callText access ++ "|" ++ otherwise ++ ")"

def target (expansions : Expansions) : Target where
  record path files := files ++ [path]
  parameterCodes := parameterCodes
  expand name _ := (expansions.get? name).getD []
  currentCall access := .done (currentCall access)
  otherCall access otherwise := .done (otherCall access otherwise)
  escape := Text.replaceChar '"' "''"

end EventFormula.Symbolic
