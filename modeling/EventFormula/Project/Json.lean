import EventFormula.Json.Reader
import EventFormula.Project

/-! Projects in JSON. Every part of a project is a record. Objects and behaviors need their name and
their type, groups their name; all else may be missing. -/

namespace EventFormula

namespace BehaviorDecl

def toJson (behavior : BehaviorDecl) : Json :=
  .object [("name", .string behavior.name), ("type", .string behavior.type)]

def ofJson? (json : Json) : Option BehaviorDecl := do
  match ← json.fields? ["name", "type"] with
  | [name, type] =>
    return { name := ← Json.required Json.string? name, type := ← Json.required Json.string? type }
  | _ => none

end BehaviorDecl

namespace ObjectDecl

def toJson (object : ObjectDecl) : Json :=
  .object [("name", .string object.name), ("type", .string object.type),
    ("behaviors", .array (object.behaviors.map BehaviorDecl.toJson))]

def ofJson? (json : Json) : Option ObjectDecl := do
  match ← json.fields? ["name", "type", "behaviors"] with
  | [name, type, behaviors] =>
    return {
      name := ← Json.required Json.string? name
      type := ← Json.required Json.string? type
      behaviors := ← Json.defaulted (Json.listOf? BehaviorDecl.ofJson?) [] behaviors }
  | _ => none

end ObjectDecl

namespace ObjectGroup

def toJson (group : ObjectGroup) : Json :=
  .object [("name", .string group.name), ("objects", .strings group.objects)]

def ofJson? (json : Json) : Option ObjectGroup := do
  match ← json.fields? ["name", "objects"] with
  | [name, objects] =>
    return {
      name := ← Json.required Json.string? name
      objects := ← Json.defaulted (Json.listOf? Json.string?) [] objects }
  | _ => none

end ObjectGroup

namespace Layout

def toJson (layout : Layout) : Json :=
  .object [("name", .string layout.name),
    ("objects", .array (layout.objects.map ObjectDecl.toJson)),
    ("groups", .array (layout.groups.map ObjectGroup.toJson))]

def ofJson? (json : Json) : Option Layout := do
  match ← json.fields? ["name", "objects", "groups"] with
  | [name, objects, groups] =>
    return {
      name := ← Json.defaulted Json.string? "" name
      objects := ← Json.defaulted (Json.listOf? ObjectDecl.ofJson?) [] objects
      groups := ← Json.defaulted (Json.listOf? ObjectGroup.ofJson?) [] groups }
  | _ => none

end Layout

namespace Project

def jsonMembers (project : Project) : List (String × Json) :=
  [("name", .string project.name), ("objects", .array (project.objects.map ObjectDecl.toJson)),
    ("groups", .array (project.groups.map ObjectGroup.toJson)),
    ("layouts", .array (project.layouts.map Layout.toJson))]

def toJson (project : Project) : Json := .object project.jsonMembers

def ofJson? (json : Json) : Option Project := do
  match ← json.fields? ["name", "objects", "groups", "layouts"] with
  | [name, objects, groups, layouts] =>
    return {
      name := ← Json.defaulted Json.string? "" name
      objects := ← Json.defaulted (Json.listOf? ObjectDecl.ofJson?) [] objects
      groups := ← Json.defaulted (Json.listOf? ObjectGroup.ofJson?) [] groups
      layouts := ← Json.defaulted (Json.listOf? Layout.ofJson?) [] layouts }
  | _ => none

def read? (description : String) : Option Project := (Json.parse? description).bind ofJson?

end Project
end EventFormula
