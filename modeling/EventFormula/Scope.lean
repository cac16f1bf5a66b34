import EventFormula.Platform
import EventFormula.Project

/-! A formula is read against a platform, a project and one of its layouts. What the layout declares
hides what the project declares under the same name. -/

namespace EventFormula

structure Scope where
  platform : Platform
  project : Project
  layout : Layout

namespace Scope

def object? (scope : Scope) (name : String) : Option ObjectDecl :=
  (scope.layout.object? name).or (scope.project.object? name)

def group? (scope : Scope) (name : String) : Option ObjectGroup :=
  (scope.layout.group? name).or (scope.project.group? name)

def hasObject (scope : Scope) (name : String) : Bool := (scope.object? name).isSome

/-- The type that all of them have; the base type if there are none or they differ. -/
def commonType : List String → String
  | [] => Platform.baseObjectType
  | type :: types => if types.all (· == type) then type else Platform.baseObjectType

/-- The type of an object, or the common type of the declared members of a group. A name that is
neither has the base type. -/
def typeOfObject (scope : Scope) (name : String) : String :=
  match scope.object? name with
  | some object => object.type
  | none =>
    match scope.group? name with
    | some group =>
      commonType (group.objects.filterMap fun member =>
        (scope.object? member).map ObjectDecl.type)
    | none => Platform.baseObjectType

/-- The type of the first behavior of that name, the layout's objects before the project's. A
project uses one type for one behavior name; without such a behavior the type is empty. -/
def typeOfBehavior (scope : Scope) (name : String) : String :=
  (((scope.layout.objects ++ scope.project.objects).flatMap ObjectDecl.behaviors).find?
    fun behavior => behavior.name == name).elim "" BehaviorDecl.type

end Scope
end EventFormula
