import EventFormula.CommandLine.Lower

/-! A command is carried out to a report: what to print, what to complain about, and a status.
Reading files is left to whoever asks. -/

namespace EventFormula

namespace Token

def listingLine (token : Token) : String :=
  "  " ++ token.kind.name ++ " " ++ Text.quoted token.text ++ " @ " ++ token.span.render ++ "\n"

def listing (source : String) : String :=
  let tokens := lexemes source
  "Tokens for " ++ Text.quoted source ++ " (" ++ toString tokens.length ++ " tokens):\n"
    ++ String.join (tokens.map listingLine)

end Token

namespace CommandLine

structure Report where
  status : Nat
  out : String := ""
  err : String := ""

/-- Bad arguments, or descriptions that cannot be used. -/
def usageStatus : Nat := 2

def lines (texts : List String) : String := String.join (texts.map (· ++ "\n"))

def usage : String := lines [
  "evx expression compiler",
  "",
  "Usage: evxc <command> [options]",
  "",
  "Commands:",
  "  lower [options] <expression>  Lower an expression to JavaScript",
  "  tokens <expression>           Tokenize and display tokens",
  "  explain <code>                Explain an error code (e.g., E1004)",
  "  help                          Show this help message",
  "  version                       Show version information",
  "",
  "Lower options:",
  "  --project=<file>      Project description (JSON)",
  "  --platform=<file>     Platform description (JSON, default: built-in)",
  "  --layout=<name>       Layout to resolve objects in (default: first)",
  "  --string              Lower a string expression (default: number)",
  "  --current=<object>    Object the event iterates over",
  "  --max-depth=<n>       Nesting limit for sub-expressions (default: 64)",
  "  --color=<mode>        Diagnostics colors: auto, always, never",
  "",
  "Environment:",
  "  EVX_LOG               Log filter, e.g. evx_codegen=debug (falls back to RUST_LOG)",
  "",
  "Examples:",
  "  evxc lower \"Abs(-2) + 1\"",
  "  evxc lower --project=game.json --current=Player \"Player.X() + 10\"",
  "  evxc lower --string --project=game.json \"\\\"Hi \\\" + Player.Name()\"",
  "  evxc tokens \"Player.Body::Speed()\""]

def version : String := "evxc 0.1.0-alpha.1"

def runLower (files : Files) (isTerminal : Bool) (arguments : List String) : Report :=
  match Options.parse arguments with
  | .error error =>
    { status := usageStatus
      err := lines ["error: " ++ error.message, "Usage: evxc lower [options] <expression>"] }
  | .ok options =>
    match lower files options with
    | .ok output => { status := 0, out := output.render }
    | .error (.failed failure formula) =>
      { status := LowerError.exitCode (.failed failure formula)
        err := Terminal.render (options.color.resolve isTerminal) (some formula)
          failure.toDiagnostic }
    | .error error => { status := error.exitCode, err := lines ["error: " ++ error.message] }

def runTokens : List String → Report
  | [formula] => { status := 0, out := Token.listing formula }
  | _ => { status := usageStatus, err := lines ["Usage: evxc tokens <expression>"] }

def explanation (code : ErrorCode) : String :=
  code.number ++ ": " ++ code.description ++ " ("
    ++ (if code.isLexerError then "lexer" else "parser") ++ " error)"

def runExplain : List String → Report
  | [] =>
    { status := usageStatus
      err := lines ["Usage: evxc explain <ERROR_CODE>", "Example: evxc explain E1004"] }
  | number :: _ =>
    match ErrorCode.ofNumber? number with
    | some code => { status := 0, out := lines [explanation code] }
    | none =>
      { status := usageStatus
        err := lines (["Unknown error code: " ++ number, "", "Known codes:"] ++
          ErrorCode.all.map fun code => "  " ++ code.number ++ "  " ++ code.description) }

inductive Command where
  | lower
  | tokens
  | explain
  | help
  | version

def Command.ofName? (name : String) : Option Command :=
  if name = "lower" then some lower
  else if name = "tokens" then some tokens
  else if name = "--explain" ∨ name = "explain" then some explain
  else if name = "help" ∨ name = "--help" ∨ name = "-h" then some help
  else if name = "version" ∨ name = "--version" ∨ name = "-V" then some version
  else none

/-- The report of a command; `isTerminal` says whether complaints go to a terminal. -/
def run (files : Files) (isTerminal : Bool) : List String → Report
  | [] => { status := usageStatus, out := usage }
  | name :: arguments =>
    match Command.ofName? name with
    | some .lower => runLower files isTerminal arguments
    | some .tokens => runTokens arguments
    | some .explain => runExplain arguments
    | some .help => { status := 0, out := usage }
    | some .version => { status := 0, out := lines [version] }
    | none =>
      { status := usageStatus, out := usage, err := lines ["Unknown command: " ++ name, ""] }

def paths : List String → List String
  | name :: arguments =>
    match Command.ofName? name, Options.parse arguments with
    | some .lower, .ok options => options.paths
    | _, _ => []
  | [] => []

end CommandLine
end EventFormula
