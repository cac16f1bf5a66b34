import EventFormula.Proofs.Lowering.Marks
import EventFormula.Proofs.Lowering.Reuse
import EventFormula.Proofs.Script.Translation

/-!
# Lowering a formula that stands elsewhere

A formula is lowered in the same way wherever it stands: to the same code with the same files and
lists, or with the same failure as many bytes later. The two runs go in lockstep. They remember the
same fragments at other places, and as long as all offsets can be stated no two of these places
become one. Where one cannot be stated this breaks down, even if the formula itself ends before.
-/

namespace EventFormula

/-- A span that starts and ends early enough to be shifted can be told from others by where it is
then. -/
theorem Span.shifted_eq_iff {first second : Span} {offset : Nat}
    (hfirst : first.start + offset ≤ maxOffset ∧ first.stop + offset ≤ maxOffset)
    (hsecond : second.start + offset ≤ maxOffset ∧ second.stop + offset ≤ maxOffset) :
    first.shifted offset = second.shifted offset ↔ first = second := by
  constructor
  · intro h
    obtain ⟨hstart, hstop⟩ := Span.mk.inj h
    rw [Nat.min_eq_left hfirst.1, Nat.min_eq_left hsecond.1] at hstart
    rw [Nat.min_eq_left hfirst.2, Nat.min_eq_left hsecond.2] at hstop
    exact congr (congrArg Span.mk (Nat.add_right_cancel hstart)) (Nat.add_right_cancel hstop)
  · exact congrArg (Span.shifted · offset)

/-- The fragment as it is remembered of a formula that starts `offset` bytes later. -/
def Lowered.shifted (offset : Nat) (entry : Lowered) : Lowered :=
  { entry with span := entry.span.shifted offset }

namespace State

variable {offset : Nat} {state : State} {kind : Expression.Kind} {e : Expression}

/-- The state with all fragments remembered `offset` bytes later. -/
def shifted (offset : Nat) (state : State) : State :=
  { state with context := { state.context with
      lowered := state.context.lowered.map (Lowered.shifted offset) } }

/-- What is remembered can be shifted without being clamped. -/
def Fits (offset : Nat) (state : State) : Prop :=
  ∀ entry ∈ state.context.lowered,
    entry.span.start + offset ≤ maxOffset ∧ entry.span.stop + offset ≤ maxOffset

theorem shifted_of_idle (h : state.context.Idle) : state.shifted offset = state := by
  simp only [shifted, h.2, List.map_nil]
  rw [← h.2]

theorem fits_of_idle (h : state.context.Idle) : state.Fits offset := by
  intro entry hmem
  rw [h.2] at hmem
  cases hmem

theorem fits_span (he : e.stop + offset ≤ maxOffset) :
    e.span.start + offset ≤ maxOffset ∧ e.span.stop + offset ≤ maxOffset := by
  have hle : e.base ≤ e.stop := Nat.le_add_right ..
  rw [Expression.span_of_fits (Nat.le_trans (Nat.le_add_right ..) he)]
  exact ⟨Nat.le_trans (Nat.add_le_add_right hle offset) he, he⟩

/-- The same fragments are found. -/
theorem remembered?_shifted (hstate : state.Fits offset) (he : e.stop + offset ≤ maxOffset) :
    (state.shifted offset).context.remembered? kind (e.shifted offset)
      = state.context.remembered? kind e := by
  have hfind (entries : List Lowered) (h : ∀ entry ∈ entries,
      entry.span.start + offset ≤ maxOffset ∧ entry.span.stop + offset ≤ maxOffset) :
      (entries.map (Lowered.shifted offset)).find?
          (fun entry => entry.kind == kind && entry.span == e.span.shifted offset)
        = (entries.find? fun entry => entry.kind == kind && entry.span == e.span).map
          (Lowered.shifted offset) := by
    induction entries with
    | nil => rfl
    | cons entry entries ih =>
      obtain ⟨hentry, hothers⟩ := List.forall_mem_cons.1 h
      have hsame : (entry.span.shifted offset == e.span.shifted offset)
          = (entry.span == e.span) := by
        rw [Bool.eq_iff_iff, beq_iff_eq, beq_iff_eq]
        exact Span.shifted_eq_iff hentry (fits_span he)
      rw [List.map_cons, List.find?_cons, List.find?_cons, ih hothers]
      simp only [Lowered.shifted, hsame]
      split <;> rfl
  simp only [Context.remembered?, shifted, Expression.span_shifted, hfind _ hstate]
  cases state.context.lowered.find? fun entry => entry.kind == kind && entry.span == e.span <;> rfl

theorem settle_shifted (result : Except Failure String) :
    (state.shifted offset).settle kind (e.shifted offset) (shiftResult offset id result)
      = (state.settle kind e result).shifted offset := by
  by_cases hdepth : state.context.depth = 0
  · have hshifted : (state.shifted offset).context.depth = 0 := hdepth
    rw [Generator.settle_of_depth hdepth, Generator.settle_of_depth hshifted]
    rfl
  · simp only [settle, shifted, Context.settle, hdepth, if_false]
    cases result with
    | error failure => rfl
    | ok code =>
      simp only [shiftResult, Context.remember, Expression.span_shifted]
      rfl

theorem Fits.settle (hstate : state.Fits offset) (he : e.stop + offset ≤ maxOffset)
    (result : Except Failure String) : (state.settle kind e result).Fits offset := by
  unfold State.settle Context.settle
  split
  · exact fun entry hmem => absurd hmem List.not_mem_nil
  · cases result with
    | error failure => exact hstate
    | ok code => exact List.forall_mem_cons.2 ⟨fits_span he, hstate⟩

end State

namespace Script

variable {α β : Type} {offset : Nat} {move : α → β} {first : Script α} {second : Script β}
  {generator : Generator}
  {lower : Expression.Kind → Expression → StateM State (Except Failure String)}
  {P : Expression.Kind → Expression → State → Prop}

/-- A script that follows another is carried out in lockstep with it, if the lowerings that they ask
for are. -/
theorem Follows.run (h : Follows offset move first second)
    (hlower : ∀ {kind e state}, P kind e state → state.Fits offset →
      lower kind (e.shifted offset) (state.shifted offset)
          = (shiftResult offset id (lower kind e state).1, (lower kind e state).2.shifted offset) ∧
        (lower kind e state).2.Fits offset)
    {state : State} (asks : first.Asks (generator.handler lower) P state)
    (hfits : state.Fits offset) :
    second.run (generator.handler lower) (state.shifted offset)
        = (move (first.run (generator.handler lower) state).1,
          (first.run (generator.handler lower) state).2.shifted offset) ∧
      (first.run (generator.handler lower) state).2.Fits offset := by
  induction h generalizing state with
  | done value => exact ⟨rfl, hfits⟩
  | lowering kind e _ ih =>
    obtain ⟨hanswer, hafter⟩ := hlower asks.1 hfits
    have hshifted : (generator.handler lower).lower kind (e.shifted offset) (state.shifted offset)
        = (shiftResult offset id (lower kind e state).1,
          (lower kind e state).2.shifted offset) := hanswer
    rw [run_lowering, run_lowering, hshifted]
    exact ih _ asks.2 hafter
  | including path _ ih => exact ih asks hfits
  | needing object _ ih =>
    have hneed : ((generator.handler lower).need object state).2.Fits offset := by
      show ∀ entry ∈ (state.context.need object).lowered, _
      rw [Context.need_eq]
      exact hfits
    have hshifted : ((generator.handler lower).need object (state.shifted offset)).2
        = ((generator.handler lower).need object state).2.shifted offset := by
      show State.mk ((state.shifted offset).context.need object) _
        = State.shifted offset (State.mk (state.context.need object) _)
      rw [Context.need_eq, Context.need_eq]
      rfl
    have hnext := ih asks hneed
    rw [← hshifted] at hnext
    exact hnext
  | picking object _ ih => exact ih asks hfits
  | viewing _ ih => exact ih _ asks hfits

end Script

namespace Generator

variable {generator : Generator} {offset : Nat}

/-- A lowering some bytes later goes in lockstep, if nothing in its course is clamped. -/
theorem lowerWithin_shifted (hg : generator.Translates offset) {levels : Nat}
    {kind : Expression.Kind} {e : Expression} {state : State} (he : e.stop + offset ≤ maxOffset)
    (hwithin : generator.Within Context.remembered? (fun _ _ e _ => e.stop + offset ≤ maxOffset)
      levels kind e state) (hfits : state.Fits offset) :
    generator.lowerWithin Context.remembered? levels kind (e.shifted offset) (state.shifted offset)
        = (shiftResult offset id (generator.lowerWithin Context.remembered? levels kind e state).1,
          (generator.lowerWithin Context.remembered? levels kind e state).2.shifted offset) ∧
      (generator.lowerWithin Context.remembered? levels kind e state).2.Fits offset := by
  have hrecall : (state.shifted offset).context.remembered? kind (e.shifted offset)
      = state.context.remembered? kind e := State.remembered?_shifted hfits he
  induction levels generalizing kind e state with
  | zero =>
    cases hcode : state.context.remembered? kind e with
    | some code =>
      rw [hcode] at hrecall
      rw [lowerWithin_of_recall generator hcode, lowerWithin_of_recall generator hrecall]
      exact ⟨rfl, hfits⟩
    | none =>
      rw [hcode] at hrecall
      rw [lowerWithin_zero generator hcode, lowerWithin_zero generator hrecall,
        Expression.span_shifted]
      refine ⟨Prod.ext rfl ?_, hfits.settle he _⟩
      exact State.settle_shifted (.error ⟨.nestingTooDeep state.context.maxDepth, e.span⟩)
  | succ levels ih =>
    cases hcode : state.context.remembered? kind e with
    | some code =>
      rw [hcode] at hrecall
      rw [lowerWithin_of_recall generator hcode, lowerWithin_of_recall generator hrecall]
      exact ⟨rfl, hfits⟩
    | none =>
      rw [hcode] at hrecall
      have henter : state.enter.Fits offset := hfits
      obtain ⟨hended, hafter⟩ := (hg.script kind e).run
        (fun h hstate => ih h.1 h.2 hstate (State.remembered?_shifted hstate h.1))
        (hwithin hcode) henter
      change generator.ended Context.remembered? levels kind (e.shifted offset)
          (state.shifted offset)
        = (shiftResult offset id (generator.ended Context.remembered? levels kind e state).1,
          (generator.ended Context.remembered? levels kind e state).2.shifted offset) at hended
      change (generator.ended Context.remembered? levels kind e state).2.Fits offset at hafter
      rw [lowerWithin_succ generator hcode, lowerWithin_succ generator hrecall, hended]
      generalize generator.ended Context.remembered? levels kind e state = ended at hafter ⊢
      have hleave : ended.2.leave.Fits offset := hafter
      have hsettle : (ended.2.leave.shifted offset).settle kind (e.shifted offset)
          (shiftResult offset id ended.1) = (ended.2.leave.settle kind e ended.1).shifted offset :=
        State.settle_shifted ended.1
      exact ⟨Prod.ext rfl hsettle, hleave.settle he ended.1⟩

end Generator

namespace JavaScript

/-- As long as no offset in the course of it is clamped, lowering a text some bytes later comes to
the same code, or to the same failure as many bytes later, and leaves the same state behind. -/
theorem lower_place (scope : Scope) {kind : Expression.Kind} {text : String} {offset : Nat}
    {state : State} (hidle : state.context.Idle)
    (hfits : (Expression.ofText text).stop + offset ≤ maxOffset)
    (hwithin : (generator scope).Within Context.remembered?
      (fun _ _ e _ => e.stop + offset ≤ maxOffset) state.context.levels kind (.ofText text) state) :
    (generator scope).lower kind (.place text offset) state
      = (((generator scope).lower kind (.ofText text) state).1.mapError fun failure =>
          ⟨failure.cause, ⟨failure.span.start + offset, failure.span.stop + offset⟩⟩,
        ((generator scope).lower kind (.ofText text) state).2) := by
  have hplace : Expression.place text offset = (Expression.ofText text).shifted offset := by
    rw [Expression.ofText, Expression.place_shifted, Nat.zero_add]
  have htext : (Expression.ofText text).stop ≤ maxOffset := Nat.le_trans (Nat.le_add_right ..) hfits
  obtain ⟨hlower, -⟩ := Generator.lowerWithin_shifted (translates_generator scope) hfits hwithin
    (State.fits_of_idle hidle)
  rw [State.shifted_of_idle hidle, ← hplace] at hlower
  change (generator scope).lower kind (.place text offset) state
    = (shiftResult offset id ((generator scope).lower kind (.ofText text) state).1,
      ((generator scope).lower kind (.ofText text) state).2.shifted offset) at hlower
  rw [hlower]
  refine Prod.ext ?_ (State.shifted_of_idle (Generator.idle_lower hidle))
  cases hresult : ((generator scope).lower kind (.ofText text) state).1 with
  | ok code => rfl
  | error failure =>
    have hmarked : (Expression.ofText text).Marked failure.span :=
      Generator.marked_of_lowerWithin Context.remembered? htext hresult
    have hbounds := hmarked.bounds htext
    have hstart : failure.span.start + offset ≤ maxOffset := by omega
    have hstop : failure.span.stop + offset ≤ maxOffset := by omega
    show Except.error (failure.shifted offset) = Except.error _
    rw [Failure.shifted, Span.shifted, Nat.min_eq_left hstart, Nat.min_eq_left hstop]

/-- The argument of `F(F(2)*)` ends too early, nine bytes later as well. -/
theorem lower_place_nested :
    (State.initial 4).context.Idle ∧ (Expression.ofText "F(F(2)*)").stop + 9 ≤ maxOffset ∧
      (generator .sample).Within Context.remembered? (fun _ _ e _ => e.stop + 9 ≤ maxOffset) 4
        .number (.ofText "F(F(2)*)") (.initial 4) ∧
      ((generator .sample).lower .number (.ofText "F(F(2)*)") (.initial 4)).1
        = .error ⟨.expectedExpression "end of expression", ⟨7, 7⟩⟩ ∧
      (generator .sample).lower .number (.place "F(F(2)*)" 9) (.initial 4)
        = (.error ⟨.expectedExpression "end of expression", ⟨16, 16⟩⟩,
          ((generator .sample).lower .number (.ofText "F(F(2)*)") (.initial 4)).2) := by
  have hidle : (State.initial 4).context.Idle := Context.idle_fresh none (some 4)
  have hfits : (Expression.ofText "F(F(2)*)").stop + 9 ≤ maxOffset := by decide +kernel
  have hwithin : (generator .sample).Within Context.remembered?
      (fun _ _ e _ => e.stop + 9 ≤ maxOffset) 4 .number (.ofText "F(F(2)*)") (.initial 4) := by
    decide +kernel
  have hfailure : ((generator .sample).lower .number (.ofText "F(F(2)*)") (.initial 4)).1
      = .error ⟨.expectedExpression "end of expression", ⟨7, 7⟩⟩ := by
    decide +kernel
  refine ⟨hidle, hfits, hwithin, hfailure, ?_⟩
  rw [lower_place .sample hidle hfits hwithin, hfailure]
  rfl

end JavaScript
end EventFormula
