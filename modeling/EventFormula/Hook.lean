import EventFormula.Target.JavaScript
import EventFormula.Text.Escape

/-! Hooks that show what a hook is given and what it may ask for. -/

namespace EventFormula.Hook

def verbatim : Hook := fun arguments =>
  return "verbatim<" ++ ";".intercalate (arguments.map Expression.text) ++ ">"

def nothing : Hook := fun _ => return ""

/-- The code of the expression, or the number of what is wrong with it. -/
def codeOrError (kind : Expression.Kind) (e : Expression) : Script String := do
  match ← Script.lower kind e with
  | .ok code => return code
  | .error failure => return "!" ++ failure.code.number

/-- Every argument lowered, after a word of the hook's own. -/
def lowered (word : String) (kind : Expression.Kind) : Hook := fun arguments => do
  let codes ← Script.each (codeOrError kind) arguments
  return word ++ "<" ++ "; ".intercalate codes ++ ">"

def numbers : Hook := lowered "numbers" .number

def strings : Hook := lowered "strings" .text

/-- The first argument becomes the current object, and its list is needed. -/
def pick : Hook := fun arguments => do
  let object := (arguments.head?.map Expression.text).getD ""
  .require "pick.js"
  .setCurrent (some object)
  .need object
  let view ← .view
  return "picked@" ++ toString view.depth ++ "/" ++ toString view.maxDepth

def catalogue : Table Hook :=
  .ofList
    [("verbatim", verbatim), ("nothing", nothing), ("numbers", numbers), ("strings", strings),
      ("pick", pick), (Platform.toStringHook, JavaScript.toStringHook),
      (Platform.toNumberHook, JavaScript.toNumberHook)]

def listing (hooks : Table Hook) : String :=
  "HookRegistry \x7b hooks: [" ++ ", ".intercalate (hooks.sortedNames.map Text.quoted) ++ "] \x7d"

end EventFormula.Hook
