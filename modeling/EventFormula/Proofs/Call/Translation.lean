import EventFormula.Trace

/-!
# Arguments of a formula that stands elsewhere

A formula can be seen from a text in which it starts some bytes later. Everything that is found in
it then is found as many bytes later: the arguments of its calls, the default values that stand in
for them, and what is wrong with them. Offsets that cannot be stated are clamped, and clamping them
at once or one after the other comes to the same, so these statements need no bound.
-/

namespace EventFormula

/-- A result seen from a text in which the formula starts `offset` bytes later, given how its value
looks from there. -/
def shiftResult {α : Type} (offset : Nat) (move : α → α) : Except Failure α → Except Failure α
  | .ok value => .ok (move value)
  | .error failure => .error (failure.shifted offset)

theorem map_shiftResult {α β : Type} {offset : Nat} {before : α → α} {after : β → β}
    {f g : α → β} (h : ∀ value, g (before value) = after (f value)) (result : Except Failure α) :
    (shiftResult offset before result).map g = shiftResult offset after (result.map f) := by
  cases result with
  | ok value => exact congrArg Except.ok (h value)
  | error failure => rfl

namespace Expression

/-- The expression seen from a text in which it starts `offset` bytes later. -/
def shifted (e : Expression) (offset : Nat) : Expression := .place e.text (e.base + offset)

variable (e : Expression) (offset : Nat)

@[simp] theorem text_shifted : (e.shifted offset).text = e.text := rfl

@[simp] theorem isEmpty_shifted : (e.shifted offset).isEmpty = e.isEmpty := rfl

@[simp] theorem base_shifted : (e.shifted offset).base = min (e.base + offset) maxOffset := rfl

theorem place_eq {text : String} {first second : Nat}
    (h : min first maxOffset = min second maxOffset) : place text first = place text second := by
  simp only [place, h]

theorem place_shifted (text : String) (start : Nat) :
    (place text start).shifted offset = place text (start + offset) :=
  place_eq (by simp only [place]; omega)

/-- It stands as many bytes later as well if its place was clamped before. -/
theorem place_clamped (text : String) (start : Nat) :
    place text (min (start + offset) maxOffset) = (place text start).shifted offset := by
  rw [place_shifted]
  exact place_eq (by omega)

theorem span_shifted : (e.shifted offset).span = e.span.shifted offset := by
  rw [span, span, Span.shifted_shifted]
  simp only [Span.shifted, base_shifted, text_shifted, Span.mk.injEq]
  omega

end Expression

namespace Call

variable {offset : Nat}

/-- The argument seen from a text in which it starts `offset` bytes later. -/
def Argument.shifted (argument : Argument) (offset : Nat) : Argument :=
  { argument with expression := argument.expression.shifted offset }

/-- The call seen from a text in which it starts `offset` bytes later. -/
def shifted (call : Call) (offset : Nat) : Call :=
  { call with arguments := call.arguments.map (Expression.shifted · offset) }

theorem place_shifted (base last : Nat) (slots : List (List Token)) :
    place (min (base + offset) maxOffset) last slots
      = (place base last slots).map (Expression.shifted · offset) := by
  have hplace (text : String) (start : Nat) :
      Expression.place text (min (base + offset) maxOffset + start)
        = (Expression.place text (base + start)).shifted offset := by
    rw [Expression.place_shifted]
    exact Expression.place_eq (by omega)
  induction slots generalizing last with
  | nil => rfl
  | cons slot slots ih =>
    rw [place, place]
    split
    · rw [List.map_cons, ih, hplace]
    · rw [List.map_cons, ih, hplace]

theorem split_shifted (base start : Nat) (inner : List Token) :
    split (min (base + offset) maxOffset) start inner
      = (split base start inner).map (Expression.shifted · offset) := by
  rw [split, split]
  split
  · rfl
  · exact place_shifted base start (slots 0 inner)

theorem fill_shifted (function : String) (stop : Nat) (parameters : List Parameter)
    (written : List Expression) :
    fill function (min (stop + offset) maxOffset) parameters
        (written.map (Expression.shifted · offset))
      = shiftResult offset (List.map (Argument.shifted · offset))
          (fill function stop parameters written) := by
  -- one argument more in front
  have next (e : Expression) (written : Bool) (rest : Except Failure (List Argument)) :
      (shiftResult offset (List.map (Argument.shifted · offset)) rest).map
          (⟨e.shifted offset, written⟩ :: ·)
        = shiftResult offset (List.map (Argument.shifted · offset))
            (rest.map (⟨e, written⟩ :: ·)) := by
    refine map_shiftResult (fun others => ?_) rest
    rfl
  fun_induction fill function stop parameters written with
  | case1 => rfl
  | case2 written parameter parameters hcode ih =>
    simp only [fill, hcode, if_true, ih, Expression.place_clamped]
    exact next _ false _
  | case3 parameter parameters hcode ih =>
    rw [List.map_nil] at ih ⊢
    simp only [fill, hcode, Bool.false_eq_true, if_false, ih, Expression.place_clamped]
    exact next _ false _
  | case4 parameter parameters hcode argument rest hempty ih =>
    simp only [List.map_cons, fill, hcode, Bool.false_eq_true, if_false,
      Expression.isEmpty_shifted, hempty, if_true, ih]
    exact next _ true _
  | case5 parameter parameters hcode argument rest hempty hoptional ih =>
    simp only [List.map_cons, fill, hcode, Bool.false_eq_true, if_false,
      Expression.isEmpty_shifted, hempty, hoptional, if_true, ih, Expression.base_shifted,
      Expression.place_clamped]
    exact next _ false _
  | case6 parameter parameters hcode argument rest hempty hoptional =>
    simp only [List.map_cons, fill, hcode, Bool.false_eq_true, if_false,
      Expression.isEmpty_shifted, hempty, hoptional, Expression.span_shifted]
    rfl

theorem align_shifted (function : String) (callable : Callable) (given written : List Expression)
    (place : Span) :
    align function callable (given.map (Expression.shifted · offset))
        (written.map (Expression.shifted · offset)) (place.shifted offset)
      = shiftResult offset (List.map (Argument.shifted · offset))
          (align function callable given written place) := by
  simp only [align, List.length_map]
  split
  · rfl
  · rw [show (place.shifted offset).stop = min (place.stop + offset) maxOffset from rfl,
      fill_shifted]
    refine map_shiftResult (fun arguments => ?_) _
    simp only [List.map_append, List.map_map]
    rfl

end Call
end EventFormula
