import EventFormula.Proofs.Trace.Sites
import EventFormula.Proofs.Trace.Translation
import EventFormula.Proofs.Trace.Unfolded

/-!
# Where arguments at any depth stand

A formula is read by itself, and where an argument stands in it is added to the offset of the
formula. While no such sum is clamped, the arguments of a formula stand one behind the other inside
it, and so on down (`InRange.arranged`). Where they end does not matter, as spans may saturate.
-/

namespace EventFormula

namespace Expression

variable {start stop offset : Nat} {e : Expression} {es : List Expression}

theorem shifted_ofText (e : Expression) : (ofText e.text).shifted e.base = e := by
  rw [ofText, place_shifted, Nat.zero_add, place]
  simp only [Nat.min_eq_left e.base_le]

theorem stop_shifted (h : e.base + offset ≤ maxOffset) :
    (e.shifted offset).stop = e.stop + offset := by
  simp only [Expression.stop, base_shifted, text_shifted]
  omega

/-- Expressions that stand some bytes later stand one behind the other as before, if none of their
offsets is clamped. -/
theorem Arranged.shifted (h : Arranged start es stop)
    (hoffset : ∀ e ∈ es, e.base + offset ≤ maxOffset) :
    Arranged (start + offset) (es.map (Expression.shifted · offset)) (stop + offset) := by
  induction es generalizing start with
  | nil => exact Nat.add_le_add_right h offset
  | cons e es ih =>
    obtain ⟨hstart, hless, hafter⟩ := h
    obtain ⟨hbase, hbases⟩ := List.forall_mem_cons.1 hoffset
    have hstop := stop_shifted hbase
    rw [List.map_cons, Arranged, base_shifted, hstop]
    refine ⟨?_, ?_, ih hafter hbases⟩
    · omega
    · omega

end Expression

namespace Trace

theorem formulas_shifted (offset : Nat) (events : List Event) :
    formulas (events.map (Event.shifted offset))
      = (formulas events).map fun formula => (formula.1, formula.2.shifted offset) := by
  rw [formulas, formulas, List.filterMap_map, List.map_filterMap]
  congr 1
  funext event
  cases event <;> rfl

/-- All arguments of a formula, at any depth, end inside it. -/
theorem stop_of_mem_arguments {scope : Scope} {kind : Expression.Kind} {e : Expression}
    (hfits : e.stop ≤ maxOffset) {formula : Expression.Kind × Expression}
    (h : formula ∈ arguments scope kind e) : formula.2.stop ≤ e.stop := by
  rw [arguments_eq] at h
  obtain ⟨event, hevent, hformula⟩ := List.mem_flatMap.1 h
  cases event with
  | constant text | operator text | number text | call call => cases hformula
  | argument inner argument =>
    have hannounced : (inner, argument) ∈ formulas (ofExpression scope kind e).events :=
      mem_formulas.2 hevent
    have hplace := (arranged_ofExpression scope kind hfits).of_mem (List.mem_map_of_mem hannounced)
    rcases List.mem_cons.1 hformula with rfl | hformula
    · exact hplace.2.2
    · have hinner := stop_of_mem_arguments (Nat.le_trans hplace.2.2 hfits) hformula
      exact Nat.le_trans hinner hplace.2.2
termination_by e.text.length
decreasing_by exact length_of_mem_ofExpression hevent

/-- No offset runs over in the formula or in an argument, at any depth: the text is not longer than
offsets go, and there is an offset for each argument that is found, seen from where the formula
around it stands. -/
structure InRange (scope : Scope) (kind : Expression.Kind) (e : Expression) : Prop where
  text : Text.size e.text.toList ≤ maxOffset
  places : ∀ formula ∈ (kind, e) :: arguments scope kind e,
    ∀ argument ∈ formulas (ofExpression scope formula.1 (.ofText formula.2.text)).events,
      argument.2.base + formula.2.base ≤ maxOffset

section Range
variable {scope : Scope} {kind : Expression.Kind} {e : Expression}

theorem formulas_ofText (scope : Scope) (kind : Expression.Kind) (e : Expression) :
    formulas (ofExpression scope kind e).events
      = (formulas (ofExpression scope kind (.ofText e.text)).events).map
          fun formula => (formula.1, formula.2.shifted e.base) := by
  have htrace := ofExpression_shifted scope kind (.ofText e.text) e.base
  rw [Expression.shifted_ofText] at htrace
  rw [htrace, shifted, formulas_shifted]

theorem arranged_ofText (htext : Text.size e.text.toList ≤ maxOffset) :
    Expression.Arranged 0
      ((formulas (ofExpression scope kind (.ofText e.text)).events).map Prod.snd)
      (Text.size e.text.toList) := by
  have hstop : (Expression.ofText e.text).stop = Text.size e.text.toList := Nat.zero_add _
  have harranged := arranged_ofExpression scope kind (hstop.symm ▸ htext)
  rw [hstop] at harranged
  exact harranged

/-- The arguments that are announced stand one behind the other inside the formula. -/
theorem InRange.arranged (h : InRange scope kind e) :
    Expression.Arranged e.base ((formulas (ofExpression scope kind e).events).map Prod.snd)
      e.stop := by
  have hoffset : ∀ argument
      ∈ (formulas (ofExpression scope kind (.ofText e.text)).events).map Prod.snd,
      argument.base + e.base ≤ maxOffset := by
    intro argument hmem
    obtain ⟨formula, hformula, rfl⟩ := List.mem_map.1 hmem
    exact h.places (kind, e) List.mem_cons_self formula hformula
  have harranged := (arranged_ofText h.text).shifted hoffset
  rw [formulas_ofText, List.map_map, Expression.stop, Nat.add_comm e.base]
  rw [Nat.zero_add, List.map_map] at harranged
  exact harranged

/-- What is in range has its arguments in range. -/
theorem InRange.argument (h : InRange scope kind e) {inner : Expression.Kind}
    {argument : Expression} (hmem : .argument inner argument ∈ (ofExpression scope kind e).events) :
    InRange scope inner argument := by
  have hformula : (inner, argument) ∈ formulas (ofExpression scope kind e).events :=
    mem_formulas.2 hmem
  have hplace := h.arranged.of_mem (List.mem_map_of_mem hformula)
  constructor
  · have htext := h.text
    simp only [Expression.stop] at hplace
    omega
  · intro formula hformula
    exact h.places formula (List.mem_cons_of_mem _ (mem_arguments hmem hformula))

/-- A formula that ends at an offset is in range. -/
theorem inRange_of_stop_le (hfits : e.stop ≤ maxOffset) : InRange scope kind e := by
  constructor
  · exact Nat.le_trans (Nat.le_add_left _ e.base) hfits
  · intro formula hformula argument hargument
    have hstop : formula.2.stop ≤ maxOffset := by
      rcases List.mem_cons.1 hformula with rfl | hformula
      · exact hfits
      · exact Nat.le_trans (stop_of_mem_arguments hfits hformula) hfits
    rw [Expression.stop] at hstop
    have hplace := (arranged_ofText (Nat.le_trans (Nat.le_add_left _ _) hstop)).of_mem
      (List.mem_map_of_mem hargument)
    omega

end Range
end Trace
end EventFormula
