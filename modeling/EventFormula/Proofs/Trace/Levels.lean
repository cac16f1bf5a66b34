import EventFormula.Proofs.Trace.Places
import Mathlib.Data.List.Pairwise

/-!
# The levels of a formula

The formulas in a formula are arranged in levels: the formula itself is the first, and each level
has the arguments of the one before it. `nesting` is the number of levels, so nothing is below that
many (`below_eq_nil_iff`). As long as no offset runs over, the formulas of one level start one
behind the other (`InRange.below`).
-/

namespace EventFormula

theorem Expression.Arranged.pairwise {start stop : Nat} {es : List Expression}
    (h : Arranged start es stop) : es.Pairwise fun e other => e.base < other.base := by
  induction es generalizing start with
  | nil => exact .nil
  | cons e es ih =>
    obtain ⟨-, hless, hafter⟩ := h
    refine .cons (fun other hmem => ?_) (ih hafter)
    exact Nat.lt_of_lt_of_le hless (hafter.of_mem hmem).1

namespace Trace

variable (scope : Scope)

/-- One more than the nesting of the argument that is nested most. -/
def nesting (kind : Expression.Kind) (e : Expression) : Nat :=
  1 + ((formulas (ofExpression scope kind e).events).attach.map fun formula =>
    nesting formula.val.1 formula.val.2).foldr max 0
termination_by e.text.length
decreasing_by exact length_of_mem_ofExpression (mem_formulas.1 formula.property)

/-- The formulas that are so many levels below a formula, in the order of the text. -/
def below : (levels : Nat) → Expression.Kind → Expression → List (Expression.Kind × Expression)
  | 0, kind, e => [(kind, e)]
  | levels + 1, kind, e =>
    (formulas (ofExpression scope kind e).events).flatMap fun formula =>
      below levels formula.1 formula.2

variable {scope} {kind : Expression.Kind} {e : Expression}

theorem nesting_eq (scope : Scope) (kind : Expression.Kind) (e : Expression) :
    nesting scope kind e = 1 + ((formulas (ofExpression scope kind e).events).map fun formula =>
      nesting scope formula.1 formula.2).foldr max 0 := by
  have hformulas := List.attach_map_subtype_val (formulas (ofExpression scope kind e).events)
  rw [nesting]
  conv => rhs; rw [← hformulas, List.map_map]
  rfl

theorem foldr_max_le_iff {numbers : List Nat} {bound : Nat} :
    numbers.foldr max 0 ≤ bound ↔ ∀ number ∈ numbers, number ≤ bound := by
  induction numbers with
  | nil => exact iff_of_true (Nat.zero_le bound) (List.forall_mem_nil _)
  | cons number numbers ih => rw [List.foldr_cons, Nat.max_le, ih, List.forall_mem_cons]

/-- A formula has a level more than its arguments have. -/
theorem nesting_le_succ_iff {levels : Nat} : nesting scope kind e ≤ levels + 1 ↔
    ∀ formula ∈ formulas (ofExpression scope kind e).events,
      nesting scope formula.1 formula.2 ≤ levels := by
  rw [nesting_eq, Nat.add_comm, Nat.add_le_add_iff_right, foldr_max_le_iff, List.forall_mem_map]

theorem nesting_pos (scope : Scope) (kind : Expression.Kind) (e : Expression) :
    0 < nesting scope kind e := by
  rw [nesting_eq]
  omega

/-- Nothing is below a formula by as many levels as it has. -/
theorem below_eq_nil_iff {levels : Nat} :
    below scope levels kind e = [] ↔ nesting scope kind e ≤ levels := by
  induction levels generalizing kind e with
  | zero =>
    have hpos := nesting_pos scope kind e
    constructor
    · intro hnone
      cases hnone
    · intro hle
      omega
  | succ levels ih =>
    rw [below, List.flatMap_eq_nil_iff, nesting_le_succ_iff]
    constructor
    · intro hnone formula hmem
      exact ih.1 (hnone formula hmem)
    · intro hle formula hmem
      exact ih.2 (hle formula hmem)

/-- Formulas that are put in the places of others, each inside of one, stand one behind the other if
those do. -/
theorem arranged_flatMap {start stop : Nat} {es : List (Expression.Kind × Expression)}
    {inside : Expression.Kind × Expression → List (Expression.Kind × Expression)}
    (h : Expression.Arranged start (es.map Prod.snd) stop)
    (hinside : ∀ formula ∈ es, formula.2.base < formula.2.stop →
      Expression.Arranged formula.2.base ((inside formula).map Prod.snd) formula.2.stop) :
    Expression.Arranged start ((es.flatMap inside).map Prod.snd) stop := by
  induction es generalizing start with
  | nil => exact h
  | cons formula es ih =>
    obtain ⟨hstart, hless, hafter⟩ := h
    obtain ⟨hfirst, hothers⟩ := List.forall_mem_cons.1 hinside
    rw [List.flatMap_cons, List.map_append]
    exact ((hfirst hless).of_le hstart (Nat.le_refl _)).append (ih hafter hothers)

theorem InRange.arranged_below (h : InRange scope kind e) (hless : e.base < e.stop)
    (levels : Nat) :
    Expression.Arranged e.base ((below scope levels kind e).map Prod.snd) e.stop := by
  induction levels generalizing kind e with
  | zero => exact ⟨Nat.le_refl _, hless, Nat.le_refl _⟩
  | succ levels ih =>
    refine arranged_flatMap h.arranged fun formula hmem hless => ?_
    exact ih (h.argument (mem_formulas.1 hmem)) hless

/-- The formulas of a level start one behind the other. -/
theorem InRange.below (h : InRange scope kind e) (levels : Nat) :
    (below scope levels kind e).Pairwise fun formula other => formula.2.base < other.2.base := by
  cases levels with
  | zero => exact List.pairwise_singleton _ _
  | succ levels =>
    have harranged : Expression.Arranged e.base
        ((Trace.below scope (levels + 1) kind e).map Prod.snd) e.stop :=
      arranged_flatMap h.arranged fun formula hmem hless =>
        (h.argument (mem_formulas.1 hmem)).arranged_below hless levels
    have hstarts := harranged.pairwise
    rw [List.pairwise_map] at hstarts
    exact hstarts

end Trace
end EventFormula
