import EventFormula.Json.Reader
import EventFormula.Platform

/-! Platforms in JSON. Every part of a platform is a record; tables are objects from name to entry,
and of two entries with one name the later stays. Only the kind of a parameter has to be there. -/

namespace EventFormula

namespace ParameterKind

def toJson (kind : ParameterKind) : Json := .string kind.name

def ofJson? (json : Json) : Option ParameterKind := json.bareChoice?.bind ofName?

end ParameterKind

namespace Parameter

def toJson (parameter : Parameter) : Json :=
  .object [("kind", parameter.kind.toJson), ("optional", .bool parameter.optional),
    ("code_only", .bool parameter.codeOnly), ("default_value", .string parameter.defaultValue),
    ("description", .string parameter.description)]

def ofJson? (json : Json) : Option Parameter := do
  match ← json.fields? ["kind", "optional", "code_only", "default_value", "description"] with
  | [kind, optional, codeOnly, defaultValue, description] =>
    return {
      kind := ← Json.required ParameterKind.ofJson? kind
      optional := ← Json.defaulted Json.bool? false optional
      codeOnly := ← Json.defaulted Json.bool? false codeOnly
      defaultValue := ← Json.defaulted Json.string? "" defaultValue
      description := ← Json.defaulted Json.string? "" description }
  | _ => none

end Parameter

namespace Generation

def toJson : Generation → Json
  | .call => .string "call"
  | .custom hook => .object [("custom", .string hook)]

def ofJson? (json : Json) : Option Generation :=
  match json.choice? with
  | some ("call", none) | some ("call", some .null) => some .call
  | some ("custom", some (.string hook)) => some (.custom hook)
  | _ => none

end Generation

namespace Callable

def toJson (callable : Callable) : Json :=
  .object [("description", .string callable.description),
    ("parameters", .array (callable.parameters.map Parameter.toJson)),
    ("include_file", .ofOption .string callable.includeFile),
    ("codegen", callable.generation.toJson), ("function_call_name", .string callable.callName)]

def ofJson? (json : Json) : Option Callable := do
  match ← json.fields?
      ["description", "parameters", "include_file", "codegen", "function_call_name"] with
  | [description, parameters, includeFile, generation, callName] =>
    return {
      description := ← Json.defaulted Json.string? "" description
      parameters := ← Json.defaulted (Json.listOf? Parameter.ofJson?) [] parameters
      includeFile := ← Json.defaulted (Json.nullable? Json.string?) none includeFile
      generation := ← Json.defaulted Generation.ofJson? .call generation
      callName := ← Json.defaulted Json.string? "" callName }
  | _ => none

end Callable

namespace Table

variable {α : Type}

def toJson (encode : α → Json) (table : Table α) : Json :=
  .object (table.entries.map fun entry => (entry.1, encode entry.2))

def ofJson? (decode : Json → Option α) : Json → Option (Table α)
  | .object members => do
    return .ofList (← members.mapM fun member => (decode member.2).map (member.1, ·))
  | _ => none

end Table

namespace Functions

def toJson (functions : Functions) : Json :=
  .object [("numeric", functions.numeric.toJson Callable.toJson),
    ("text", functions.text.toJson Callable.toJson)]

def ofJson? (json : Json) : Option Functions := do
  match ← json.fields? ["numeric", "text"] with
  | [numeric, text] =>
    return {
      numeric := ← Json.defaulted (Table.ofJson? Callable.ofJson?) .empty numeric
      text := ← Json.defaulted (Table.ofJson? Callable.ofJson?) .empty text }
  | _ => none

end Functions

namespace TypeInfo

def toJson (info : TypeInfo) : Json :=
  .object [("include_file", .ofOption .string info.includeFile),
    ("functions", info.functions.toJson)]

def ofJson? (json : Json) : Option TypeInfo := do
  match ← json.fields? ["include_file", "functions"] with
  | [includeFile, functions] =>
    return {
      includeFile := ← Json.defaulted (Json.nullable? Json.string?) none includeFile
      functions := ← Json.defaulted Functions.ofJson? {} functions }
  | _ => none

end TypeInfo

namespace Platform

def toJson (platform : Platform) : Json :=
  .object [("name", .string platform.name), ("functions", platform.functions.toJson),
    ("objects", platform.objects.toJson TypeInfo.toJson),
    ("behaviors", platform.behaviors.toJson TypeInfo.toJson)]

def ofJson? (json : Json) : Option Platform := do
  match ← json.fields? ["name", "functions", "objects", "behaviors"] with
  | [name, functions, objects, behaviors] =>
    return {
      name := ← Json.defaulted Json.string? "" name
      functions := ← Json.defaulted Functions.ofJson? {} functions
      objects := ← Json.defaulted (Table.ofJson? TypeInfo.ofJson?) .empty objects
      behaviors := ← Json.defaulted (Table.ofJson? TypeInfo.ofJson?) .empty behaviors }
  | _ => none

def read? (description : String) : Option Platform := (Json.parse? description).bind ofJson?

end Platform
end EventFormula
