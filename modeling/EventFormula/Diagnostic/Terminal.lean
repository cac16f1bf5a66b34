import EventFormula.Diagnostic
import EventFormula.Text

/-! Diagnostics on a terminal. A label is shown under the line of the formula in which its span
starts. Carets stand from the column of the span's start on: as many as the span has bytes, at least
one, and none beyond the end of the line. Columns count characters. -/

namespace EventFormula

inductive ColorMode where
  /-- When it goes to a terminal. -/
  | auto
  | always
  | never
deriving DecidableEq

namespace ColorMode

def resolve (mode : ColorMode) (isTerminal : Bool) : Bool :=
  match mode with
  | auto => isTerminal
  | always => true
  | never => false

def ofFlag? (flag : String) : Option ColorMode :=
  if flag = "auto" then some auto
  else if flag = "always" then some always
  else if flag = "never" then some never
  else none

end ColorMode

namespace Terminal

inductive Color where
  | error
  | help
  | bold

def Color.start : Color → String
  | error => "\x1b[1;31m"
  | help => "\x1b[1;32m"
  | bold => "\x1b[1m"

def reset : String := "\x1b[0m"

def paint (colors : Bool) (color : Color) (text : String) : String :=
  if colors then color.start ++ text ++ reset else text

def isLineFeed (c : Char) : Bool := c = '\n'

/-- The line of `source` that holds an offset, and how many characters of it come before. An offset
past the end counts as the end; one inside a character has no line. -/
def lineAt? (source : String) (offset : Nat) : Option (String × Nat) :=
  let cs := source.toList
  (Text.splitAt? (min offset (Text.size cs)) cs).map fun (before, after) =>
    let head := (before.reverse.takeWhile fun c => !isLineFeed c).reverse
    let tail := after.takeWhile fun c => !isLineFeed c
    (String.ofList (head ++ tail), head.length)

def underlineWidth (line : String) (column : Nat) (span : Span) : Nat :=
  max 1 (min (span.stop - span.start) (line.length - column))

def repeated (c : Char) (count : Nat) : String := String.ofList (List.replicate count c)

def renderLabel (colors : Bool) (source : Option String) (label : Label) : String :=
  "  --> " ++ label.span.render ++ "\n" ++
    match source.bind (lineAt? · label.span.start) with
    | none => "   = " ++ paint colors .error label.message ++ "\n"
    | some (line, column) =>
      "   |\n   | " ++ line ++ "\n   | " ++ repeated ' ' column
        ++ paint colors .error (repeated '^' (underlineWidth line column label.span)) ++ " "
        ++ paint colors .error label.message ++ "\n"

def renderTrailer (colors : Bool) (color : Color) (word text : String) : String :=
  "  = " ++ paint colors color word ++ ": " ++ text ++ "\n"

/-- The diagnostic as a terminal shows it, under the formula if that is known. -/
def render (colors : Bool) (source : Option String) (diagnostic : Diagnostic) : String :=
  paint colors .error "error" ++ paint colors .bold ("[" ++ diagnostic.code.number ++ "]") ++ ": "
    ++ diagnostic.message ++ "\n"
    ++ String.join (diagnostic.labels.map (renderLabel colors source))
    ++ String.join (diagnostic.notes.map (renderTrailer colors .bold "note"))
    ++ String.join (diagnostic.suggestions.map (renderTrailer colors .help "help"))
    ++ "\n"

example : render false (some "2 + Sine(3)") ⟨.unknownFunction, "what?", [⟨⟨4, 8⟩, "here"⟩], [], []⟩
    = "error[E1004]: what?\n  --> 4..8\n   |\n   | 2 + Sine(3)\n   |     ^^^^ here\n\n" := by
  decide +kernel

end Terminal
end EventFormula
