import EventFormula.Expression
import EventFormula.Table

/-! A platform says what a formula may call. Functions that return a number and functions that
return text are kept apart, so a name may stand for one of each. Every object type also has the
functions of the base type. -/

namespace EventFormula

inductive ParameterKind where
  | object
  | behavior
  | number
  | string
  /-- Code of the target, taken as it is. -/
  | code
deriving DecidableEq

namespace ParameterKind

def name : ParameterKind → String
  | object => "object"
  | behavior => "behavior"
  | number => "number"
  | string => "string"
  | code => "code"

def all : List ParameterKind := [object, behavior, number, string, code]

def ofName? (name : String) : Option ParameterKind := all.find? fun kind => kind.name == name

def expressionKind? : ParameterKind → Option Expression.Kind
  | number => some .number
  | string => some .text
  | object | behavior | code => none

end ParameterKind

structure Parameter where
  kind : ParameterKind
  /-- The designer may leave the argument out; the default stands in for it. -/
  optional : Bool := false
  /-- The designer never writes the argument; it is always the default. -/
  codeOnly : Bool := false
  defaultValue : String := ""
  description : String := ""

inductive Generation where
  /-- The name to call and the arguments in parentheses. -/
  | call
  /-- Whatever the hook of that name makes of it. -/
  | custom (hook : String)

structure Callable where
  description : String := ""
  parameters : List Parameter := []
  /-- The file that has to be there when the call runs. -/
  includeFile : Option String := none
  generation : Generation := .call
  callName : String := ""

namespace Callable

def hookName? (callable : Callable) : Option String :=
  match callable.generation with
  | .call => none
  | .custom hook => some hook

/-- The parameters that the designer writes between the parentheses. The first `taken` ones are
given by the head of the call. -/
def written (callable : Callable) (taken : Nat) : List Parameter :=
  (callable.parameters.drop taken).filter fun parameter => !parameter.codeOnly

def requiredCount (callable : Callable) (taken : Nat) : Nat :=
  ((callable.written taken).filter fun parameter => !parameter.optional).length

def maxCount (callable : Callable) (taken : Nat) : Nat := (callable.written taken).length

theorem requiredCount_le_maxCount (callable : Callable) (taken : Nat) :
    callable.requiredCount taken ≤ callable.maxCount taken :=
  List.length_filter_le ..

/-- What a string literal calls: a function without a name that takes the text. -/
def stringLiteral : Callable where
  parameters := [⟨.string, false, false, "", ""⟩]

end Callable

structure Functions where
  numeric : Table Callable := .empty
  text : Table Callable := .empty

namespace Functions

def get? (functions : Functions) : Expression.Kind → String → Option Callable
  | .number, name => functions.numeric.get? name
  | .text, name => functions.text.get? name

def isEmpty (functions : Functions) : Bool :=
  functions.numeric.isEmpty && functions.text.isEmpty

end Functions

structure TypeInfo where
  includeFile : Option String := none
  functions : Functions := {}

structure Platform where
  name : String := ""
  functions : Functions := {}
  objects : Table TypeInfo := .empty
  behaviors : Table TypeInfo := .empty

namespace Platform

/-- The type whose functions every object type has. -/
def baseObjectType : String := ""

def objectType? (platform : Platform) (type : String) : Option TypeInfo :=
  platform.objects.get? type

def behaviorType? (platform : Platform) (type : String) : Option TypeInfo :=
  platform.behaviors.get? type

def freeFunction? (platform : Platform) (returns : Expression.Kind) (name : String) :
    Option Callable :=
  platform.functions.get? returns name

/-- A function of the type itself, else of the base type. -/
def objectFunction? (platform : Platform) (returns : Expression.Kind) (type name : String) :
    Option Callable :=
  ((platform.objectType? type).bind fun info => info.functions.get? returns name).or
    ((platform.objectType? baseObjectType).bind fun info => info.functions.get? returns name)

def behaviorFunction? (platform : Platform) (returns : Expression.Kind) (type name : String) :
    Option Callable :=
  (platform.behaviorType? type).bind fun info => info.functions.get? returns name

end Platform
end EventFormula
