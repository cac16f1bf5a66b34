import EventFormula.CommandLine.Directory
import EventFormula.CommandLine.Options
import EventFormula.Lowering
import EventFormula.Platform.Json
import EventFormula.Project.Json
import EventFormula.Target.JavaScript

/-! Lowering one formula for the command line. The platform is read before the project, and both
before the formula. -/

namespace EventFormula.CommandLine

inductive LowerError where
  | usage (error : UsageError)
  | unreadable (path : String) (error : ReadError)
  | malformed (path : String)
  | unknownLayout (name : String)
  | failed (failure : Failure) (formula : String)

namespace LowerError

def message : LowerError → String
  | usage error => error.message
  | unreadable path error => "cannot read `" ++ path ++ "`: " ++ error.message
  | malformed path => "`" ++ path ++ "` is not a valid description: unexpected content"
  | unknownLayout name => "the project has no layout named `" ++ name ++ "`"
  | failed failure _ => failure.message

/-- One for a formula that fails, two for anything before that. -/
def exitCode : LowerError → Nat
  | failed .. => 1
  | _ => 2

end LowerError

structure Output where
  code : String
  includes : List String
  /-- Object lists, in order of first use. -/
  objects : List String

def Output.render (output : Output) : String :=
  output.code ++ "\n"
    ++ String.join (output.includes.map fun path => "// include: " ++ path ++ "\n")
    ++ String.join (output.objects.map fun name => "// objects: " ++ name ++ "\n")

def load {α : Type} (files : Files) (read? : String → Option α) (default : α) :
    Option String → Except LowerError α
  | none => .ok default
  | some path =>
    match files path with
    | .error error => .error (.unreadable path error)
    | .ok text =>
      match read? text with
      | some value => .ok value
      | none => .error (.malformed path)

def selectLayout (project : Project) (name : Option String) : Except LowerError Layout :=
  match project.selectLayout? name with
  | some layout => .ok layout
  | none => .error (.unknownLayout (name.getD ""))

def lower (files : Files) (options : Options) : Except LowerError Output := do
  let some formula := options.expression | .error (.usage .missingExpression)
  let platform ← load files Platform.read? .builtin options.platform
  let project ← load files Project.read? {} options.project
  let layout ← selectLayout project options.layout
  let generator := JavaScript.generator ⟨platform, project, layout⟩
  let start : State := { context := .fresh options.current options.maxDepth }
  let (result, state) := generator.lower options.kind (.ofText formula) start
  match result with
  | .ok code => return ⟨code, state.includes, state.context.needed⟩
  | .error failure => .error (.failed failure formula)

end EventFormula.CommandLine
