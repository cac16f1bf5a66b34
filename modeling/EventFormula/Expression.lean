import EventFormula.Span
import EventFormula.Text

/-! An expression is a formula, or part of one, as the designer typed it. It knows where its first
byte stands in the outermost formula. -/

namespace EventFormula

namespace Expression

inductive Kind where
  | number
  | text
deriving DecidableEq

def Kind.name : Kind → String
  | number => "number"
  | text => "string"

def Kind.ofName? (name : String) : Option Kind :=
  if name = "number" then some number
  else if name = "string" then some text
  else none

/-- The code of a value that stands in when nothing better is known. -/
def Kind.fallback : Kind → String
  | number => "0"
  | text => "\"\""

end Expression

structure Expression where
  text : String
  base : Nat
  base_le : base ≤ maxOffset
deriving DecidableEq

namespace Expression

/-- The offset may be the sum of a base and a start, and the clamp is for that sum too. -/
def place (text : String) (offset : Nat) : Expression :=
  ⟨text, min offset maxOffset, Nat.min_le_right ..⟩

def ofText (text : String) : Expression := .place text 0

def span (e : Expression) : Span := (Span.ofRange 0 (Text.size e.text.toList)).shifted e.base

def isEmpty (e : Expression) : Bool := e.text == ""

theorem start_span (e : Expression) : e.span.start = e.base := by
  have := e.base_le
  simp only [span, Span.ofRange, Span.shifted]
  omega

theorem eq_of_span_eq {e f : Expression} (htext : e.text = f.text) (hspan : e.span = f.span) :
    e = f := by
  have hbase : e.base = f.base := by
    rw [← start_span, ← start_span, hspan]
  cases e
  cases f
  cases htext
  cases hbase
  rfl

example : (Expression.place "é+" 7).span = ⟨7, 10⟩ := by decide +kernel

end Expression
end EventFormula
