import EventFormula.Project.Json
import EventFormula.Proofs.Json.Records
import EventFormula.Proofs.Json.RoundTrip

/-!
# Descriptions lose nothing

For each part of a platform and of a project `States` says what can be written for it: its encoding,
or what is left of that when fields are left out whose value is their default, at any depth. The
entries of a table may be in any order and stay in it. The main statement, `descriptions_lossless`,
says that a platform and a project come back from whatever states them, also when that is read from
its text.
-/

namespace EventFormula

open Json (Field Kept Lossless Plain StatesRecord StatesList StatesTable)

namespace ParameterKind

theorem lossless : Lossless (Plain toJson) toJson ofJson? := by
  refine .plain (fun kind => .string kind.name) ?_
  intro kind
  cases kind <;> rfl

end ParameterKind

namespace Parameter

def fields (parameter : Parameter) : List Field :=
  [.needed "kind" (Plain ParameterKind.toJson) parameter.kind,
    .spared "optional" (Plain .bool) parameter.optional false,
    .spared "code_only" (Plain .bool) parameter.codeOnly false,
    .spared "default_value" (Plain .string) parameter.defaultValue "",
    .spared "description" (Plain .string) parameter.description ""]

def States (parameter : Parameter) : Json → Prop := StatesRecord parameter.fields

theorem lossless : Lossless States toJson ofJson? where
  stated parameter := ⟨_, rfl, .keep rfl (.keep rfl (.keep rfl (.keep rfl (.keep rfl .nil))))⟩
  sound h := h.sound ⟨fun _ => ParameterKind.lossless.sound, fun _ => Json.lossless_bool.sound,
    fun _ => Json.lossless_bool.sound, fun _ => Json.lossless_string.sound,
    fun _ => Json.lossless_string.sound⟩
  decoded := by
    intro parameter json h
    refine h.decoded rfl (by decide) ?_
    rintro found (_ | ⟨hkind, _ | ⟨hoptional, _ | ⟨hcodeOnly, _ | ⟨hdefaultValue,
      _ | ⟨hdescription, ⟨⟩⟩⟩⟩⟩⟩)
    simp only [ParameterKind.lossless.needed hkind, Json.lossless_bool.spared hoptional,
      Json.lossless_bool.spared hcodeOnly, Json.lossless_string.spared hdefaultValue,
      Json.lossless_string.spared hdescription]
    rfl

end Parameter

namespace Generation

theorem lossless : Lossless (Plain toJson) toJson ofJson? := by
  refine .plain ?_ ?_
  · intro generation
    cases generation with
    | call => exact .string "call"
    | custom hook => exact .object (List.forall_mem_singleton.2 (.string hook))
  · intro generation
    cases generation <;> rfl

end Generation

namespace Callable

def fields (callable : Callable) : List Field :=
  [.spared "description" (Plain .string) callable.description "",
    .spared "parameters" (StatesList Parameter.States) callable.parameters [],
    .spared "include_file" (Plain (.ofOption .string)) callable.includeFile none,
    .spared "codegen" (Plain Generation.toJson) callable.generation .call,
    .spared "function_call_name" (Plain .string) callable.callName ""]

def States (callable : Callable) : Json → Prop := StatesRecord callable.fields

theorem lossless : Lossless States toJson ofJson? where
  stated callable := ⟨_, rfl, .keep rfl (.keep (Parameter.lossless.list.stated _)
    (.keep rfl (.keep rfl (.keep rfl .nil))))⟩
  sound h := h.sound ⟨fun _ => Json.lossless_string.sound, fun _ => Parameter.lossless.list.sound,
    fun _ => Json.lossless_nullable.sound, fun _ => Generation.lossless.sound,
    fun _ => Json.lossless_string.sound⟩
  decoded := by
    intro callable json h
    refine h.decoded rfl (by decide) ?_
    rintro found (_ | ⟨hdescription, _ | ⟨hparameters, _ | ⟨hincludeFile, _ | ⟨hgeneration,
      _ | ⟨hcallName, ⟨⟩⟩⟩⟩⟩⟩)
    simp only [Json.lossless_string.spared hdescription,
      Parameter.lossless.list.spared hparameters, Json.lossless_nullable.spared hincludeFile,
      Generation.lossless.spared hgeneration, Json.lossless_string.spared hcallName]
    rfl

end Callable

namespace Functions

def fields (functions : Functions) : List Field :=
  [.spared "numeric" (StatesTable Callable.States) functions.numeric .empty,
    .spared "text" (StatesTable Callable.States) functions.text .empty]

def States (functions : Functions) : Json → Prop := StatesRecord functions.fields

theorem lossless : Lossless States toJson ofJson? where
  stated functions := ⟨_, rfl, .keep (Callable.lossless.table.stated _)
    (.keep (Callable.lossless.table.stated _) .nil)⟩
  sound h := h.sound ⟨fun _ => Callable.lossless.table.sound,
    fun _ => Callable.lossless.table.sound⟩
  decoded := by
    intro functions json h
    refine h.decoded rfl (by decide) ?_
    rintro found (_ | ⟨hnumeric, _ | ⟨htext, ⟨⟩⟩⟩)
    simp only [Callable.lossless.table.spared hnumeric, Callable.lossless.table.spared htext]
    rfl

end Functions

namespace TypeInfo

def fields (info : TypeInfo) : List Field :=
  [.spared "include_file" (Plain (.ofOption .string)) info.includeFile none,
    .spared "functions" Functions.States info.functions {}]

def States (info : TypeInfo) : Json → Prop := StatesRecord info.fields

theorem lossless : Lossless States toJson ofJson? where
  stated info := ⟨_, rfl, .keep rfl (.keep (Functions.lossless.stated _) .nil)⟩
  sound h := h.sound ⟨fun _ => Json.lossless_nullable.sound, fun _ => Functions.lossless.sound⟩
  decoded := by
    intro info json h
    refine h.decoded rfl (by decide) ?_
    rintro found (_ | ⟨hincludeFile, _ | ⟨hfunctions, ⟨⟩⟩⟩)
    simp only [Json.lossless_nullable.spared hincludeFile, Functions.lossless.spared hfunctions]
    rfl

end TypeInfo

namespace Platform

def fields (platform : Platform) : List Field :=
  [.spared "name" (Plain .string) platform.name "",
    .spared "functions" Functions.States platform.functions {},
    .spared "objects" (StatesTable TypeInfo.States) platform.objects .empty,
    .spared "behaviors" (StatesTable TypeInfo.States) platform.behaviors .empty]

def States (platform : Platform) : Json → Prop := StatesRecord platform.fields

theorem lossless : Lossless States toJson ofJson? where
  stated platform := ⟨_, rfl, .keep rfl (.keep (Functions.lossless.stated _)
    (.keep (TypeInfo.lossless.table.stated _) (.keep (TypeInfo.lossless.table.stated _) .nil)))⟩
  sound h := h.sound ⟨fun _ => Json.lossless_string.sound, fun _ => Functions.lossless.sound,
    fun _ => TypeInfo.lossless.table.sound, fun _ => TypeInfo.lossless.table.sound⟩
  decoded := by
    intro platform json h
    refine h.decoded rfl (by decide) ?_
    rintro found (_ | ⟨hname, _ | ⟨hfunctions, _ | ⟨hobjects, _ | ⟨hbehaviors, ⟨⟩⟩⟩⟩⟩)
    simp only [Json.lossless_string.spared hname, Functions.lossless.spared hfunctions,
      TypeInfo.lossless.table.spared hobjects, TypeInfo.lossless.table.spared hbehaviors]
    rfl

end Platform

namespace BehaviorDecl

def fields (behavior : BehaviorDecl) : List Field :=
  [.needed "name" (Plain .string) behavior.name, .needed "type" (Plain .string) behavior.type]

def States (behavior : BehaviorDecl) : Json → Prop := StatesRecord behavior.fields

theorem lossless : Lossless States toJson ofJson? where
  stated behavior := ⟨_, rfl, .keep rfl (.keep rfl .nil)⟩
  sound h := h.sound ⟨fun _ => Json.lossless_string.sound, fun _ => Json.lossless_string.sound⟩
  decoded := by
    intro behavior json h
    refine h.decoded rfl (by decide) ?_
    rintro found (_ | ⟨hname, _ | ⟨htype, ⟨⟩⟩⟩)
    simp only [Json.lossless_string.needed hname, Json.lossless_string.needed htype]
    rfl

end BehaviorDecl

namespace ObjectDecl

def fields (object : ObjectDecl) : List Field :=
  [.needed "name" (Plain .string) object.name, .needed "type" (Plain .string) object.type,
    .spared "behaviors" (StatesList BehaviorDecl.States) object.behaviors []]

def States (object : ObjectDecl) : Json → Prop := StatesRecord object.fields

theorem lossless : Lossless States toJson ofJson? where
  stated object := ⟨_, rfl, .keep rfl (.keep rfl
    (.keep (BehaviorDecl.lossless.list.stated _) .nil))⟩
  sound h := h.sound ⟨fun _ => Json.lossless_string.sound, fun _ => Json.lossless_string.sound,
    fun _ => BehaviorDecl.lossless.list.sound⟩
  decoded := by
    intro object json h
    refine h.decoded rfl (by decide) ?_
    rintro found (_ | ⟨hname, _ | ⟨htype, _ | ⟨hbehaviors, ⟨⟩⟩⟩⟩)
    simp only [Json.lossless_string.needed hname, Json.lossless_string.needed htype,
      BehaviorDecl.lossless.list.spared hbehaviors]
    rfl

end ObjectDecl

namespace ObjectGroup

def fields (group : ObjectGroup) : List Field :=
  [.needed "name" (Plain .string) group.name,
    .spared "objects" (StatesList (Plain .string)) group.objects []]

def States (group : ObjectGroup) : Json → Prop := StatesRecord group.fields

theorem lossless : Lossless States toJson ofJson? where
  stated group := ⟨_, rfl, .keep rfl (.keep (Json.lossless_string.list.stated _) .nil)⟩
  sound h := h.sound ⟨fun _ => Json.lossless_string.sound,
    fun _ => Json.lossless_string.list.sound⟩
  decoded := by
    intro group json h
    refine h.decoded rfl (by decide) ?_
    rintro found (_ | ⟨hname, _ | ⟨hobjects, ⟨⟩⟩⟩)
    simp only [Json.lossless_string.needed hname, Json.lossless_string.list.spared hobjects]
    rfl

end ObjectGroup

namespace Layout

def fields (layout : Layout) : List Field :=
  [.spared "name" (Plain .string) layout.name "",
    .spared "objects" (StatesList ObjectDecl.States) layout.objects [],
    .spared "groups" (StatesList ObjectGroup.States) layout.groups []]

def States (layout : Layout) : Json → Prop := StatesRecord layout.fields

theorem lossless : Lossless States toJson ofJson? where
  stated layout := ⟨_, rfl, .keep rfl (.keep (ObjectDecl.lossless.list.stated _)
    (.keep (ObjectGroup.lossless.list.stated _) .nil))⟩
  sound h := h.sound ⟨fun _ => Json.lossless_string.sound, fun _ => ObjectDecl.lossless.list.sound,
    fun _ => ObjectGroup.lossless.list.sound⟩
  decoded := by
    intro layout json h
    refine h.decoded rfl (by decide) ?_
    rintro found (_ | ⟨hname, _ | ⟨hobjects, _ | ⟨hgroups, ⟨⟩⟩⟩⟩)
    simp only [Json.lossless_string.spared hname, ObjectDecl.lossless.list.spared hobjects,
      ObjectGroup.lossless.list.spared hgroups]
    rfl

end Layout

namespace Project

def fields (project : Project) : List Field :=
  [.spared "name" (Plain .string) project.name "",
    .spared "objects" (StatesList ObjectDecl.States) project.objects [],
    .spared "groups" (StatesList ObjectGroup.States) project.groups [],
    .spared "layouts" (StatesList Layout.States) project.layouts []]

def States (project : Project) : Json → Prop := StatesRecord project.fields

theorem lossless : Lossless States toJson ofJson? where
  stated project := ⟨_, rfl, .keep rfl (.keep (ObjectDecl.lossless.list.stated _)
    (.keep (ObjectGroup.lossless.list.stated _) (.keep (Layout.lossless.list.stated _) .nil)))⟩
  sound h := h.sound ⟨fun _ => Json.lossless_string.sound, fun _ => ObjectDecl.lossless.list.sound,
    fun _ => ObjectGroup.lossless.list.sound, fun _ => Layout.lossless.list.sound⟩
  decoded := by
    intro project json h
    refine h.decoded rfl (by decide) ?_
    rintro found (_ | ⟨hname, _ | ⟨hobjects, _ | ⟨hgroups, _ | ⟨hlayouts, ⟨⟩⟩⟩⟩⟩)
    simp only [Json.lossless_string.spared hname, ObjectDecl.lossless.list.spared hobjects,
      ObjectGroup.lossless.list.spared hgroups, Layout.lossless.list.spared hlayouts]
    rfl

end Project

/-- A platform and a project come back from their encoding, and from whatever is left of it when
fields are left out whose value is the default. That is so for the values in JSON and for their
text. -/
theorem descriptions_lossless :
    (∀ platform : Platform,
      (platform.States platform.toJson ∧ Platform.ofJson? platform.toJson = some platform ∧
        Platform.read? platform.toJson.render = some platform) ∧
      ∀ json, platform.States json →
        Platform.ofJson? json = some platform ∧ Platform.read? json.render = some platform) ∧
    ∀ project : Project,
      (project.States project.toJson ∧ Project.ofJson? project.toJson = some project ∧
        Project.read? project.toJson.render = some project) ∧
      ∀ json, project.States json →
        Project.ofJson? json = some project ∧ Project.read? json.render = some project := by
  have hplatform (platform : Platform) (json : Json) (h : platform.States json) :
      Platform.ofJson? json = some platform ∧ Platform.read? json.render = some platform := by
    refine ⟨Platform.lossless.decoded h, ?_⟩
    rw [Platform.read?, Json.parse?_render (Platform.lossless.sound h), Option.bind_some]
    exact Platform.lossless.decoded h
  have hproject (project : Project) (json : Json) (h : project.States json) :
      Project.ofJson? json = some project ∧ Project.read? json.render = some project := by
    refine ⟨Project.lossless.decoded h, ?_⟩
    rw [Project.read?, Json.parse?_render (Project.lossless.sound h), Option.bind_some]
    exact Project.lossless.decoded h
  constructor
  · intro platform
    have hstated := Platform.lossless.stated platform
    exact ⟨⟨hstated, hplatform platform _ hstated⟩, hplatform platform⟩
  · intro project
    have hstated := Project.lossless.stated project
    exact ⟨⟨hstated, hproject project _ hstated⟩, hproject project⟩

/-- A function with one parameter. All else is default. -/
def platformOfAbs : Platform where
  functions := {
    numeric := .ofList [("Abs", { parameters := [{ kind := .number }], callName := "Math.abs" })] }

/-- An object without behaviors, and a layout that is all default. -/
def projectOfHero : Project where
  objects := [⟨"Hero", "Sprite", []⟩]
  layouts := [{}]

theorem descriptions_lossless_sparse :
    (platformOfAbs.States (.object [("functions", .object [("numeric", .object [("Abs",
        .object [("parameters", .array [.object [("kind", .string "number")]]),
          ("function_call_name", .string "Math.abs")])])])]) ∧
      Platform.read? (Json.render (.object [("functions", .object [("numeric", .object [("Abs",
        .object [("parameters", .array [.object [("kind", .string "number")]]),
          ("function_call_name", .string "Math.abs")])])])])) = some platformOfAbs) ∧
    projectOfHero.States (.object [
        ("objects", .array [.object [("name", .string "Hero"), ("type", .string "Sprite")]]),
        ("layouts", .array [.object []])]) ∧
      Project.read? (Json.render (.object [
        ("objects", .array [.object [("name", .string "Hero"), ("type", .string "Sprite")]]),
        ("layouts", .array [.object []])])) = some projectOfHero := by
  obtain ⟨hplatforms, hprojects⟩ := descriptions_lossless
  have hparameter : Parameter.States { kind := .number } (.object [("kind", .string "number")]) :=
    ⟨_, rfl, .keep rfl (.leave rfl (.leave rfl (.leave rfl (.leave rfl .nil))))⟩
  have hcallable : Callable.States { parameters := [{ kind := .number }], callName := "Math.abs" }
      (.object [("parameters", .array [.object [("kind", .string "number")]]),
        ("function_call_name", .string "Math.abs")]) :=
    ⟨_, rfl, .leave rfl (.keep ⟨_, rfl, .cons hparameter .nil⟩
      (.leave rfl (.leave rfl (.keep rfl .nil))))⟩
  have hfunctions : Functions.States platformOfAbs.functions (.object [("numeric", .object [("Abs",
      .object [("parameters", .array [.object [("kind", .string "number")]]),
        ("function_call_name", .string "Math.abs")])])]) :=
    ⟨_, rfl, .keep ⟨_, rfl, .cons ⟨rfl, hcallable⟩ .nil⟩ (.leave rfl .nil)⟩
  have hhero : ObjectDecl.States ⟨"Hero", "Sprite", []⟩
      (.object [("name", .string "Hero"), ("type", .string "Sprite")]) :=
    ⟨_, rfl, .keep rfl (.keep rfl (.leave rfl .nil))⟩
  have hlayout : Layout.States {} (.object []) :=
    ⟨_, rfl, .leave rfl (.leave rfl (.leave rfl .nil))⟩
  have hplatform : platformOfAbs.States _ :=
    ⟨_, rfl, .leave rfl (.keep hfunctions (.leave rfl (.leave rfl .nil)))⟩
  have hproject : projectOfHero.States _ :=
    ⟨_, rfl, .leave rfl (.keep ⟨_, rfl, .cons hhero .nil⟩
      (.leave rfl (.keep ⟨_, rfl, .cons hlayout .nil⟩ .nil)))⟩
  exact ⟨⟨hplatform, ((hplatforms _).2 _ hplatform).2⟩, hproject,
    ((hprojects _).2 _ hproject).2⟩

end EventFormula
