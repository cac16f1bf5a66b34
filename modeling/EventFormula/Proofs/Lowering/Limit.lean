import EventFormula.Proofs.Lowering.Course

/-!
# The nesting limit

Raising the limit changes neither the code nor what is included and needed, provided that nothing
was refused for the lower limit in the course of the lowering. Without that a higher limit can
change the code: a default value that is refused becomes the fallback of its kind, and is lowered
once there is a level for it.
-/

namespace EventFormula

/-- The state with another limit, as a fresh one with that limit would be. -/
def State.allow (state : State) (limit : Nat) : State :=
  { state with context := { state.context with maxDepth := limit } }

namespace State

variable (state : State) (limit : Nat)

theorem leave_allow : (state.allow limit).leave = state.leave.allow limit := rfl

theorem settle_allow (kind : Expression.Kind) (e : Expression) (result : Except Failure String) :
    (state.allow limit).settle kind e result = (state.settle kind e result).allow limit := by
  by_cases hdepth : state.context.depth = 0
  · have hallow : (state.allow limit).context.depth = 0 := hdepth
    rw [Generator.settle_of_depth hdepth, Generator.settle_of_depth hallow]
    rfl
  · simp only [settle, allow, Context.settle, hdepth, if_false]
    cases result <;> rfl

theorem need_allow (object : String) :
    (state.allow limit).context.need object
      = { state.context.need object with maxDepth := limit } := by
  simp only [allow, Context.need_eq]

end State

namespace Generator

variable {generator : Generator}

/-- With more levels and a higher limit a lowering ends in the same way, if none in its course is
refused. -/
theorem lowerWithin_allow (hg : generator.Local) {few many limit : Nat} (hle : few ≤ many)
    {kind : Expression.Kind} {e : Expression} {state : State}
    (hadmitted : generator.Admitted Context.remembered? few kind e state) :
    generator.lowerWithin Context.remembered? many kind e (state.allow limit)
      = ((generator.lowerWithin Context.remembered? few kind e state).1,
        (generator.lowerWithin Context.remembered? few kind e state).2.allow limit) := by
  induction few generalizing many kind e state with
  | zero =>
    obtain ⟨code, hcode⟩ := Option.isSome_iff_exists.1 (hadmitted.1 rfl)
    have hallow : (state.allow limit).context.remembered? kind e = some code := hcode
    rw [lowerWithin_of_recall generator hcode, lowerWithin_of_recall generator hallow]
  | succ few ih =>
    obtain ⟨many, rfl⟩ : ∃ levels, many = levels + 1 := ⟨many - 1, by omega⟩
    cases hcode : state.context.remembered? kind e with
    | some code =>
      have hallow : (state.allow limit).context.remembered? kind e = some code := hcode
      rw [lowerWithin_of_recall generator hcode, lowerWithin_of_recall generator hallow]
    | none =>
      have hallow : (state.allow limit).context.remembered? kind e = none := hcode
      have alike : (generator.handler (generator.lowerWithin Context.remembered? few)).Alike
          (generator.handler (generator.lowerWithin Context.remembered? many))
          (generator.Admitted Context.remembered? few)
          (fun first second => second = first.allow limit) := {
        lower := by
          rintro kind e state _ hadmitted rfl
          have hless : few ≤ many := by omega
          obtain ⟨hvalue, hstate⟩ := Prod.ext_iff.1 (ih hless hadmitted)
          exact ⟨hvalue.symm, hstate⟩
        require := by
          rintro path state _ rfl
          rfl
        need := by
          rintro object state _ rfl
          exact congrArg (fun context => { state with context := context })
            (state.need_allow limit object)
        view := by
          rintro state _ rfl
          exact ⟨rfl, rfl⟩ }
      have henter : (state.allow limit).enter = state.enter.allow limit := rfl
      obtain ⟨hvalue, hended⟩ :=
        Script.run_alike alike (local_script hg kind e) (hadmitted.2 hcode) henter
      change (generator.ended Context.remembered? few kind e state).1
        = (generator.ended Context.remembered? many kind e (state.allow limit)).1 at hvalue
      change (generator.ended Context.remembered? many kind e (state.allow limit)).2
        = (generator.ended Context.remembered? few kind e state).2.allow limit at hended
      rw [lowerWithin_succ generator hcode, lowerWithin_succ generator hallow, ← hvalue, hended,
        State.leave_allow, State.settle_allow]

end Generator

namespace JavaScript

/-- A limit that refuses nothing can be raised: the code stays, and so does all else that the
lowering leaves behind. -/
theorem lower_allow (scope : Scope) {kind : Expression.Kind} {e : Expression} {state : State}
    {limit : Nat} {code : String} (hle : state.context.maxDepth ≤ limit)
    (hcode : ((generator scope).lower kind e state).1 = .ok code)
    (hwithin : (generator scope).Unrefused Context.remembered? state.context.levels kind e state) :
    ((generator scope).lower kind e (state.allow limit)).1 = .ok code ∧
      ((generator scope).lower kind e (state.allow limit)).2
        = ((generator scope).lower kind e state).2.allow limit := by
  have hlevels : state.context.levels ≤ (state.allow limit).context.levels :=
    Nat.sub_le_sub_right hle state.context.depth
  have hadmitted : (generator scope).Admitted Context.remembered? state.context.levels kind e
      state :=
    ⟨Generator.isSome_of_ok _ hcode, hwithin⟩
  have hlower : (generator scope).lower kind e (state.allow limit)
      = (((generator scope).lower kind e state).1,
        ((generator scope).lower kind e state).2.allow limit) :=
    Generator.lowerWithin_allow (local_generator scope) hlevels hadmitted
  rw [hlower]
  exact ⟨hcode, rfl⟩

/-- Five levels for `F(F())` instead of three. -/
theorem lower_allow_nested :
    (State.initial 3).context.maxDepth ≤ 5 ∧
      ((generator .sample).lower .number (.ofText "F(F())") (.initial 3)).1
        = .ok "f(f(1.0))" ∧
      (generator .sample).Unrefused Context.remembered? 3 .number (.ofText "F(F())") (.initial 3) ∧
      ((generator .sample).lower .number (.ofText "F(F())") (.initial 5)).1
        = .ok "f(f(1.0))" := by
  have hle : (State.initial 3).context.maxDepth ≤ 5 := by decide
  have hcode : ((generator .sample).lower .number (.ofText "F(F())") (.initial 3)).1
      = .ok "f(f(1.0))" :=
    Except.eq_ok_of_toOption (by decide +kernel)
  have hwithin : (generator .sample).Unrefused Context.remembered? 3 .number (.ofText "F(F())")
      (.initial 3) := by
    decide +kernel
  exact ⟨hle, hcode, hwithin, (lower_allow .sample hle hcode hwithin).1⟩

/-- Within one level the default value of `F` is refused and replaced; within two it is lowered. -/
theorem limit_changes_code :
    ¬ ∀ (scope : Scope) (current : Option String) (kind : Expression.Kind) (e : Expression)
        (few many : Nat) (code : String), 1 ≤ few → few ≤ many →
      ((generator scope).lower kind e { context := .fresh current (some few) }).1 = .ok code →
      ((generator scope).lower kind e { context := .fresh current (some many) }).1 = .ok code := by
  intro h
  have hfew : ((generator .sample).lower .number (.ofText "F()") (.initial 1)).1 = .ok "f(0)" :=
    Except.eq_ok_of_toOption (by decide +kernel)
  have hmany : ((generator .sample).lower .number (.ofText "F()") (.initial 2)).1
      = .ok "f(1.0)" :=
    Except.eq_ok_of_toOption (by decide +kernel)
  have hsame := h .sample none .number (.ofText "F()") 1 2 "f(0)" (by decide) (by decide) hfew
  rw [show State.mk (.fresh none (some 2)) [] = State.initial 2 from rfl, hmany] at hsame
  exact absurd (Except.ok.inj hsame) (by decide)

end JavaScript
end EventFormula
