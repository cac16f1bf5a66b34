import EventFormula.Proofs.Lowering.Outcome

/-!
# Reuse of fragments

An argument that was lowered before is not lowered again. The main statement says that this cannot
be seen: a lowering ends in the same state with the same result as if nothing were ever recalled,
provided that without recalling none of the lowerings in its course is refused. The two runs go in
lockstep except where a fragment is recalled; there the outcome of the other run is the fragment,
and its effects have been had before.
-/

namespace EventFormula

namespace Generator

variable {generator : Generator} {current : Option String}

variable (generator current) in
/-- The states differ at most in fragments that are remembered, all of them outcomes. -/
structure Agree (first second : State) : Prop where
  forget : first.forget = second.forget
  first : generator.Faithful current first
  second : generator.Faithful current second

theorem Agree.apply (ha : generator.target.Absorbing) {first second : State}
    (h : generator.Agree current first second) (effect : Effect) :
    generator.Agree current (effect.apply generator first) (effect.apply generator second) where
  forget := by rw [Effect.forget_apply, Effect.forget_apply, h.forget]
  first := h.first.apply ha effect
  second := h.second.apply ha effect

theorem Agree.enter {first second : State} (h : generator.Agree current first second) :
    generator.Agree current first.enter second.enter where
  forget := by rw [State.forget_enter, State.forget_enter, h.forget]
  first := h.first.enter
  second := h.second.enter

/-- Where one of two runs that agree has ended as an outcome says, so has the other. -/
theorem Agree.settle (ha : generator.target.Absorbing) {first second state : State} {levels : Nat}
    {kind : Expression.Kind} {e : Expression} {result : Except Failure String}
    {effects : List Effect} (h : generator.Agree current first second)
    (houtcome : generator.outcome? current levels kind e = some (result, effects))
    (hstate : (first.leave.settle kind e result).forget
      = Effect.applyAll generator effects state.forget) :
    generator.Agree current (first.leave.settle kind e result)
      (second.leave.settle kind e result) := by
  rw [State.forget_settle] at hstate
  have hforget : first.leave.forget = second.leave.forget := congrArg State.leave h.forget
  have habsorbed := Effect.absorbed_applyAll_self ha effects state.forget
  rw [← hstate] at habsorbed
  constructor
  · rw [State.forget_settle, State.forget_settle, hforget]
  · refine h.first.leave.settle houtcome ?_
    intro effect hmem
    exact (habsorbed effect hmem).of_eq rfl rfl
  · refine h.second.leave.settle houtcome ?_
    intro effect hmem
    rw [hforget] at habsorbed
    exact (habsorbed effect hmem).of_eq rfl rfl

/-- With and without recalling, lowerings that begin in states that agree end in the same way, if
without recalling none in their course is refused. -/
theorem agree_lowerWithin (hg : generator.Local) (ha : generator.target.Absorbing) {levels : Nat}
    {kind : Expression.Kind} {e : Expression} {first second : State}
    (hadmitted : generator.Admitted Recall.never levels kind e first)
    (h : generator.Agree current first second) :
    (generator.lowerWithin Recall.never levels kind e first).1
        = (generator.lowerWithin Context.remembered? levels kind e second).1 ∧
      generator.Agree current (generator.lowerWithin Recall.never levels kind e first).2
        (generator.lowerWithin Context.remembered? levels kind e second).2 := by
  induction levels generalizing kind e first second with
  | zero => cases hadmitted.1 rfl
  | succ levels ih =>
    obtain ⟨found, effects, houtcome, hstate, hfirst⟩ := endsAs_lowerWithin hg ha
      (fun hcode => by cases hcode) hadmitted h.first
    cases hcode : second.context.remembered? kind e with
    | some code =>
      -- the second run stands still; what the first one does has been had before
      obtain ⟨other, others, hremembered, habsorbed⟩ := h.second.lowered hcode
      obtain ⟨hresult, heffects⟩ := Prod.mk.inj (outcome?_unique houtcome hremembered)
      rw [lowerWithin_of_recall generator hcode]
      refine ⟨hresult, ?_, hfirst, h.second⟩
      rw [hstate, heffects, h.forget, ← Effect.forget_applyAll,
        Effect.applyAll_of_absorbed habsorbed]
    | none =>
      have alike : (generator.handler (generator.lowerWithin Recall.never levels)).Alike
          (generator.handler (generator.lowerWithin Context.remembered? levels))
          (generator.Admitted Recall.never levels) (generator.Agree current) := {
        lower := ih
        require := fun {path _ _} hagree => hagree.apply ha (.require path)
        need := fun {object _ _} hagree => hagree.apply ha (.need object)
        view := fun hagree =>
          ⟨hagree.first.current_eq.trans hagree.second.current_eq.symm, hagree⟩ }
      obtain ⟨hvalue, hended⟩ :=
        Script.run_alike alike (local_script hg kind e) (hadmitted.2 rfl) h.enter
      change (generator.ended Recall.never levels kind e first).1
        = (generator.ended Context.remembered? levels kind e second).1 at hvalue
      have hnever : Recall.never first.context kind e = none := rfl
      rw [lowerWithin_succ generator hnever] at houtcome hstate ⊢
      rw [lowerWithin_succ generator hcode, ← hvalue]
      exact ⟨rfl, Agree.settle ha hended houtcome hstate⟩

variable (generator) in
/-- The outermost lowering leaves no fragment behind. -/
theorem forget_lowerWithin {lookUp : Recall} (levels : Nat) {kind : Expression.Kind}
    {e : Expression} {state : State} (hdepth : state.context.depth = 0)
    (hcode : lookUp state.context kind e = none) :
    (generator.lowerWithin lookUp levels kind e state).2.forget
      = (generator.lowerWithin lookUp levels kind e state).2 := by
  have hended := depth_lowerWithin generator lookUp levels kind e state
  cases levels with
  | zero =>
    rw [lowerWithin_zero generator hcode, settle_of_depth hdepth]
    rfl
  | succ levels =>
    rw [lowerWithin_succ generator hcode, depth_settle, hdepth] at hended
    rw [lowerWithin_succ generator hcode, settle_of_depth hended]
    rfl

/-- What begins idle ends idle. -/
theorem idle_lower {kind : Expression.Kind} {e : Expression} {state : State}
    (h : state.context.Idle) : (generator.lower kind e state).2.context.Idle := by
  have hforget := forget_lowerWithin generator state.context.levels h.1
    (Context.remembered?_of_idle h kind e)
  refine ⟨(depth_lowerWithin generator _ _ kind e state).trans h.1, ?_⟩
  exact (congrArg (fun state => state.context.lowered) hforget).symm

/-- So does whatever a session carries out: between its steps no fragment is remembered. -/
theorem idle_perform {α : Type} (script : Script α) {state : State} (h : state.context.Idle) :
    (generator.perform script state).2.context.Idle := by
  have preserves : (generator.handler generator.lower).Preserves fun state =>
      state.context.Idle := {
    lower := idle_lower
    require := fun h => h
    need := fun {object state} h => by
      show (state.context.need object).Idle
      rw [Context.need_eq]
      exact h
    setCurrent := fun h => h
    view := fun h => h }
  exact preserves.run script h

/-- A formula whose script makes no request is lowered to its value, and the state stays as it is.
-/
theorem lower_of_done {kind : Expression.Kind} {e : Expression} {state : State}
    {result : Except Failure String} (hscript : generator.script kind e = .done result)
    (h : state.context.Idle) (hlimit : 0 < state.context.maxDepth) :
    generator.lower kind e state = (result, state) := by
  obtain ⟨levels, hlevels⟩ : ∃ levels, state.context.levels = levels + 1 :=
    ⟨state.context.levels - 1, by rw [Context.levels, h.1]; omega⟩
  have hended :
      generator.ended Context.remembered? levels kind e state = (result, state.enter) := by
    rw [ended, hscript]
    rfl
  show generator.lowerWithin Context.remembered? state.context.levels kind e state = _
  rw [hlevels, lowerWithin_succ generator (Context.remembered?_of_idle h kind e), hended]
  rw [State.leave_enter, settle_of_depth h.1, Context.forget, ← h.2]

theorem lower_eq_of_unrefused (hg : generator.Local) (ha : generator.target.Absorbing)
    {kind : Expression.Kind} {e : Expression} {state : State} (hidle : state.context.Idle)
    (hwithin : generator.Unrefused Recall.never state.context.levels kind e state) :
    generator.lower kind e state = generator.lowerWith Recall.never kind e state := by
  have hremembered := Context.remembered?_of_idle hidle kind e
  have hnever : Recall.never state.context kind e = none := rfl
  show generator.lowerWithin Context.remembered? state.context.levels kind e state
    = generator.lowerWithin Recall.never state.context.levels kind e state
  generalize state.context.levels = levels at hwithin ⊢
  cases levels with
  | zero => rw [lowerWithin_zero generator hremembered, lowerWithin_zero generator hnever]
  | succ levels =>
    have hfaithful : generator.Faithful state.context.current state := faithful_of_idle hidle
    have hadmitted : generator.Admitted Recall.never (levels + 1) kind e state :=
      ⟨fun hzero => absurd hzero (Nat.succ_ne_zero levels), hwithin⟩
    obtain ⟨hvalue, hagree⟩ := agree_lowerWithin hg ha hadmitted ⟨rfl, hfaithful, hfaithful⟩
    refine Prod.ext hvalue.symm ?_
    rw [← forget_lowerWithin generator _ hidle.1 hremembered,
      ← forget_lowerWithin generator _ hidle.1 hnever,
      hagree.forget]

end Generator

namespace JavaScript

/-- Using fragments again cannot be seen. -/
theorem lower_eq_lowerWith_never (scope : Scope) {kind : Expression.Kind} {e : Expression}
    {state : State} (hidle : state.context.Idle)
    (hwithin : (generator scope).Unrefused Recall.never state.context.levels kind e state) :
    (generator scope).lower kind e state
      = (generator scope).lowerWith Recall.never kind e state :=
  Generator.lower_eq_of_unrefused (local_generator scope) (absorbing_target scope) hidle hwithin

/-- In `F(F())` the fragment made when the inner call is checked is used again for its code. -/
theorem lower_eq_lowerWith_never_nested :
    (State.initial 4).context.Idle ∧
      (generator .sample).Unrefused Recall.never 4 .number (.ofText "F(F())") (.initial 4) ∧
      (generator .sample).lower .number (.ofText "F(F())") (.initial 4)
        = (generator .sample).lowerWith Recall.never .number (.ofText "F(F())") (.initial 4) := by
  have hidle : (State.initial 4).context.Idle := Context.idle_fresh none (some 4)
  have hwithin : (generator .sample).Unrefused Recall.never 4 .number (.ofText "F(F())")
      (.initial 4) := by
    decide +kernel
  exact ⟨hidle, hwithin, lower_eq_lowerWith_never .sample hidle hwithin⟩

end JavaScript
end EventFormula
