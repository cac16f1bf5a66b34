import EventFormula.Proofs.Lowering.Earliest
import EventFormula.Proofs.Trace.Marks

/-!
# Where lowerings fail

A lowering fails as reading its expression does, or as the lowering of a formula that the expression
announces, or because no level is left for it. Whatever hooks and default values there are, no other
failure comes to light, so each of them marks the expression. The main statement,
`failure_points_into_text`, says this of every generator and every state.
-/

namespace EventFormula.Generator

open Trace (Shown)

variable {generator : Generator}
  {lower : Expression.Kind → Expression → StateM State (Except Failure String)}
  {kind : Expression.Kind} {e : Expression} {state : State} {failure : Failure}

/-- A script fails as reading the expression does, or as the lowering of what is announced. -/
theorem failure_of_script
    (h : ((generator.script kind e).run (generator.handler lower) state).1 = .error failure) :
    (Trace.ofExpression generator.scope kind e).failure = some failure ∨
      ∃ formula ∈ Trace.formulas (Trace.ofExpression generator.scope kind e).events,
        ∃ state, (lower formula.1 formula.2 state).1 = .error failure := by
  have preserves : (generator.handler lower).Preserves fun _ => True :=
    ⟨id, id, id, id, id⟩
  have hshown : Shown (fun _ _ => True)
      (fun kind e failure => ∃ state, True ∧ (lower kind e state).1 = .error failure)
      (Trace.ofExpression generator.scope kind e).events
      ((Fragment.shown generator (Trace.ofExpression generator.scope kind e).events {}).run
        (generator.handler lower) state).1 :=
    shown_run preserves (fun _ _ => trivial) _ trivial rfl
  rw [script, Fragment.ofTrace_eq, Script.run_then] at h
  generalize ((Fragment.shown generator (Trace.ofExpression generator.scope kind e).events {}).run
    (generator.handler lower) state) = ended at hshown h
  obtain ⟨answer, after⟩ := ended
  cases hshown with
  | all _ hnone =>
    refine Or.inl ?_
    change Fragment.finish _ (Trace.result _) = .error failure at h
    unfold Fragment.finish Trace.result at h
    rw [hnone] at h
    cases hread : (Trace.ofExpression generator.scope kind e).failure with
    | none =>
      rw [hread] at h
      cases h
    | some other =>
      rw [hread] at h
      cases h
      rfl
  | @refused _ other _ _ formula hformulas _ hfails hnoted =>
    obtain ⟨middle, -, hfailure⟩ := hfails
    change Fragment.finish _ (.error other) = .error failure at h
    unfold Fragment.finish at h
    rw [hnoted] at h
    cases h
    exact Or.inr ⟨formula, hformulas ▸ List.mem_append_cons_self, middle, hfailure⟩

/-- Whatever is recalled and in whatever state it begins, a lowering that fails marks its
expression. -/
theorem marked_of_lowerWithin (lookUp : Recall) {levels : Nat} (hfits : e.stop ≤ maxOffset)
    (h : (generator.lowerWithin lookUp levels kind e state).1 = .error failure) :
    e.Marked failure.span := by
  induction levels generalizing kind e state with
  | zero =>
    cases hcode : lookUp state.context kind e with
    | some code =>
      rw [lowerWithin_of_recall generator hcode] at h
      cases h
    | none =>
      rw [lowerWithin_zero generator hcode] at h
      cases h
      exact Expression.marked_span hfits
  | succ levels ih =>
    cases hcode : lookUp state.context kind e with
    | some code =>
      rw [lowerWithin_of_recall generator hcode] at h
      cases h
    | none =>
      rw [lowerWithin_succ generator hcode] at h
      rcases failure_of_script h with hread | ⟨formula, hmem, middle, hfailure⟩
      · exact Trace.marked_of_failure hfits hread
      · have hpart : formula.2.PartOf e := Trace.partOf_of_announced hfits hmem
        exact hpart.marked (ih (Nat.le_trans hpart.stop_le hfits) hfailure)

/-- A formula that fails to be lowered fails between its own two ends, and at both ends of the
failure its text can be cut. -/
theorem failure_points_into_text (generator : Generator) {kind : Expression.Kind} {text : String}
    {offset : Nat} {state : State} {failure : Failure}
    (hfits : offset + Text.size text.toList ≤ maxOffset)
    (h : (generator.lower kind (.place text offset) state).1 = .error failure) :
    offset ≤ failure.span.start ∧ failure.span.start ≤ failure.span.stop ∧
      failure.span.stop ≤ offset + Text.size text.toList ∧
      Text.IsCut text.toList (failure.span.start - offset) ∧
      Text.IsCut text.toList (failure.span.stop - offset) := by
  have hbase : (Expression.place text offset).base = offset :=
    Nat.min_eq_left (Nat.le_trans (Nat.le_add_right ..) hfits)
  have hstop : (Expression.place text offset).stop = offset + Text.size text.toList := by
    rw [Expression.stop, hbase]
    rfl
  have hplaced : (Expression.place text offset).stop ≤ maxOffset := hstop ▸ hfits
  have hmarked := marked_of_lowerWithin Context.remembered? hplaced h
  have hbounds := hmarked.bounds hplaced
  rw [hbase, hstop] at hbounds
  exact hbounds

/-- In `F(1 é)` the argument fails at the `é`, which takes two bytes. -/
theorem failure_points_into_text_nested :
    7 + Text.size "F(1 é)".toList ≤ maxOffset ∧
      ((JavaScript.generator .sample).lower .number (.place "F(1 é)" 7) (.initial 4)).1
        = .error ⟨.unexpected "an identifier `é`" "an operator", ⟨11, 13⟩⟩ ∧
      7 ≤ 11 ∧ 11 ≤ 13 ∧ 13 ≤ 7 + Text.size "F(1 é)".toList ∧
      Text.IsCut "F(1 é)".toList (11 - 7) ∧ Text.IsCut "F(1 é)".toList (13 - 7) := by
  have hfits : 7 + Text.size "F(1 é)".toList ≤ maxOffset := by decide +kernel
  have hfailure : ((JavaScript.generator .sample).lower .number (.place "F(1 é)" 7)
      (.initial 4)).1 = .error ⟨.unexpected "an identifier `é`" "an operator", ⟨11, 13⟩⟩ := by
    decide +kernel
  exact ⟨hfits, hfailure, failure_points_into_text (JavaScript.generator .sample) hfits hfailure⟩

/-- One byte further is inside the `é`. -/
example : ¬ Text.IsCut "F(1 é)".toList (12 - 7) := by decide +kernel

end EventFormula.Generator
