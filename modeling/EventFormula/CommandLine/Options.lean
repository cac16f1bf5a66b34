import EventFormula.Context
import EventFormula.Diagnostic.Terminal
import EventFormula.Expression

/-! Options for lowering. An argument that starts with two dashes is an option until a bare `--` has
been seen; any other one is the formula, and there may only be one. Every argument is read as
options of its own, which are then merged into those before: what is set wins, what is unset changes
nothing. A colour mode of `auto` counts as unset. -/

namespace EventFormula

inductive UsageError where
  | unknownOption (argument : String)
  | invalidValue (option value : String)
  | missingExpression
  | extraArgument (argument : String)
deriving DecidableEq

def UsageError.message : UsageError → String
  | unknownOption argument => "unknown option `" ++ argument ++ "`"
  | invalidValue option value => "invalid value `" ++ value ++ "` for `" ++ option ++ "`"
  | missingExpression => "missing expression"
  | extraArgument argument =>
    "unexpected argument `" ++ argument ++ "`, quote the expression to pass it as one argument"

structure Options where
  project : Option String := none
  /-- The file that describes the platform, else the built-in one. -/
  platform : Option String := none
  /-- The layout by name, else the first one. -/
  layout : Option String := none
  text : Bool := false
  current : Option String := none
  maxDepth : Option Nat := none
  color : ColorMode := .auto
  expression : Option String := none
deriving DecidableEq

namespace Options

/-- What `later` sets, and what it does not as it was. -/
def merge (options later : Options) : Options where
  project := later.project.or options.project
  platform := later.platform.or options.platform
  layout := later.layout.or options.layout
  text := options.text || later.text
  current := later.current.or options.current
  maxDepth := later.maxDepth.or options.maxDepth
  color := if later.color = .auto then options.color else later.color
  expression := later.expression.or options.expression

def valueOf? (flag argument : String) : Option String :=
  if flag.toList.isPrefixOf argument.toList then
    some (String.ofList (argument.toList.drop flag.toList.length))
  else none

def largestDepth : Nat := 18446744073709551615

/-- A limit in decimal digits, a plus before them or not. -/
def depth? (value : String) : Option Nat :=
  let digits := if value.toList.head? = some '+' then value.toList.tail else value.toList
  if digits.isEmpty || !digits.all Char.isDigit then none
  else
    let depth := digits.foldl (fun n c => n * 10 + (c.toNat - '0'.toNat)) 0
    if depth = 0 ∨ largestDepth < depth then none else some depth

def ofOption (argument : String) : Except UsageError Options :=
  if argument = "--string" then .ok { text := true }
  else if let some path := valueOf? "--project=" argument then .ok { project := some path }
  else if let some path := valueOf? "--platform=" argument then .ok { platform := some path }
  else if let some name := valueOf? "--layout=" argument then .ok { layout := some name }
  else if let some name := valueOf? "--current=" argument then .ok { current := some name }
  else if let some value := valueOf? "--max-depth=" argument then
    match depth? value with
    | some depth => .ok { maxDepth := some depth }
    | none => .error (.invalidValue "--max-depth" value)
  else if let some value := valueOf? "--color=" argument then
    match ColorMode.ofFlag? value with
    | some mode => .ok { color := mode }
    | none => .error (.invalidValue "--color" value)
  else .error (.unknownOption argument)

def add (options later : Options) : Except UsageError Options :=
  match options.expression, later.expression with
  | some _, some extra => .error (.extraArgument extra)
  | _, _ => .ok (options.merge later)

/-- The arguments after a bare `--`. -/
def addFormulas (options : Options) : List String → Except UsageError Options
  | [] => .ok options
  | argument :: arguments => do
    addFormulas (← options.add { expression := some argument }) arguments

def addArguments (options : Options) : List String → Except UsageError Options
  | [] => .ok options
  | argument :: arguments =>
    if argument = "--" then options.addFormulas arguments
    else if "--".toList.isPrefixOf argument.toList then do
      addArguments (← options.add (← ofOption argument)) arguments
    else do
      addArguments (← options.add { expression := some argument }) arguments

/-- The options that the arguments of a command state. -/
def parse (arguments : List String) : Except UsageError Options := addArguments {} arguments

def kind (options : Options) : Expression.Kind := if options.text then .text else .number

def nestingLimit (options : Options) : Nat := options.maxDepth.getD Context.defaultMaxDepth

def paths (options : Options) : List String :=
  options.platform.toList ++ options.project.toList

example : depth? "+007" = some 7 ∧ depth? "18446744073709551616" = none := by decide +kernel

end Options
end EventFormula
