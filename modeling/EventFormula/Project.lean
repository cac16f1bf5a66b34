/-! A project declares the objects that exist everywhere, groups of objects, and layouts with
objects and groups of their own. Where a name is declared twice the first declaration counts. -/

namespace EventFormula

structure BehaviorDecl where
  name : String
  type : String

structure ObjectDecl where
  name : String
  type : String
  behaviors : List BehaviorDecl := []

/-- A set of objects that can stand wherever an object can. -/
structure ObjectGroup where
  name : String
  objects : List String := []

structure Layout where
  name : String := ""
  objects : List ObjectDecl := []
  groups : List ObjectGroup := []

structure Project where
  name : String := ""
  objects : List ObjectDecl := []
  groups : List ObjectGroup := []
  layouts : List Layout := []

namespace Layout

def object? (layout : Layout) (name : String) : Option ObjectDecl :=
  layout.objects.find? fun object => object.name == name

def group? (layout : Layout) (name : String) : Option ObjectGroup :=
  layout.groups.find? fun group => group.name == name

end Layout

namespace Project

def object? (project : Project) (name : String) : Option ObjectDecl :=
  project.objects.find? fun object => object.name == name

def group? (project : Project) (name : String) : Option ObjectGroup :=
  project.groups.find? fun group => group.name == name

def layout? (project : Project) (name : String) : Option Layout :=
  project.layouts.find? fun layout => layout.name == name

/-- The layout of that name. Without a name it is the first one, and an empty one if there is
none. -/
def selectLayout? (project : Project) : Option String → Option Layout
  | some name => project.layout? name
  | none => some (project.layouts.head?.getD {})

end Project
end EventFormula
