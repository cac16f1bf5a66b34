/-! A span is a run of bytes in the formula the designer typed; it may be stated with its ends in
either order. Offsets stop at `maxOffset`: a larger one is clamped, never wrapped. That goes for the
sum of a base and an offset too. Taken in 32 bits without a check such a sum overflows past the
limit, so what is said of it there is said of the clamped sum only. -/

namespace EventFormula

/-- The largest offset a span can hold. -/
def maxOffset : Nat := 4294967295

structure Span where
  start : Nat
  /-- The offset after the last byte. -/
  stop : Nat
deriving DecidableEq

namespace Span

/-- The span between two offsets of any size. -/
def ofRange (start stop : Nat) : Span := ⟨min start maxOffset, min stop maxOffset⟩

def point (offset : Nat) : Span := ⟨offset, offset⟩

/-- The number of bytes, unless the span ends before it starts. -/
def length? (s : Span) : Option Nat :=
  if s.start ≤ s.stop then some (s.stop - s.start) else none

def isEmpty (s : Span) : Bool := s.start == s.stop

/-- The same bytes seen from a text in which they start `base` bytes later. -/
def shifted (s : Span) (base : Nat) : Span :=
  ⟨min (s.start + base) maxOffset, min (s.stop + base) maxOffset⟩

def merge (s t : Span) : Span := ⟨min s.start t.start, max s.stop t.stop⟩

def render (s : Span) : String := toString s.start ++ ".." ++ toString s.stop

/-- Shifting twice is shifting once by the sum, clamped or not. -/
theorem shifted_shifted (s : Span) (a b : Nat) : (s.shifted a).shifted b = s.shifted (a + b) := by
  simp only [shifted, mk.injEq]
  omega

example : (ofRange 3 (maxOffset + 9)).length? = some (maxOffset - 3) := by decide
example : (Span.mk 3 1).length? = none := by decide

end Span
end EventFormula
