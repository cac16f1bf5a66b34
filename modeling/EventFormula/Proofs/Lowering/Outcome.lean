import EventFormula.Proofs.Lowering.Effect

/-!
# Outcomes

What a local script does to the state is a list of effects: files to include, objects whose lists
are read. So the lowering of an expression has an outcome that no state enters into, its result and
its effects; `outcome?` finds it as far as some number of levels shows. The main statement,
`endsAs_lowerWithin`, says that a lowering in whose course none is refused ends as the outcome says,
whether fragments are recalled or not, provided that those remembered are the outcomes of their
expressions.
-/

namespace EventFormula

/-- What a view shows to a local script. -/
def View.ofCurrent (current : Option String) : View := ⟨current, [], 0, 0⟩

namespace Script

variable {α : Type}

/-- The value of a local script and its effects in order, given how each lowering ends that it asks
for and which effects that has. -/
def evaluate (current : Option String)
    (answer : Expression.Kind → Expression → Option (Except Failure String × List Effect)) :
    Script α → Option (α × List Effect)
  | done value => some (value, [])
  | lowering kind e next =>
    (answer kind e).bind fun (result, first) =>
      ((next result).evaluate current answer).map fun (value, rest) => (value, first ++ rest)
  | including path next =>
    (next.evaluate current answer).map fun (value, rest) => (value, .require path :: rest)
  | needing object next =>
    (next.evaluate current answer).map fun (value, rest) => (value, .need object :: rest)
  | picking _ _ => none
  | viewing next => (next (.ofCurrent current)).evaluate current answer

variable {current : Option String}
  {answer more : Expression.Kind → Expression → Option (Except Failure String × List Effect)}

theorem evaluate_lowering {kind : Expression.Kind} {e : Expression}
    {next : Except Failure String → Script α} {result : Except Failure String} {value : α}
    {first rest : List Effect} (hanswer : answer kind e = some (result, first))
    (hnext : (next result).evaluate current answer = some (value, rest)) :
    (lowering kind e next).evaluate current answer = some (value, first ++ rest) := by
  simp only [evaluate, hanswer, Option.bind_some, hnext, Option.map_some]

/-- More answers leave an evaluation that was possible as it was. -/
theorem evaluate_mono (h : ∀ {kind e found}, answer kind e = some found → more kind e = some found)
    {script : Script α} {found : α × List Effect}
    (hs : script.evaluate current answer = some found) :
    script.evaluate current more = some found := by
  induction script generalizing found with
  | done value => exact hs
  | lowering kind e next ih =>
    obtain ⟨⟨result, first⟩, hanswer, hnext⟩ := Option.bind_eq_some_iff.1 hs
    obtain ⟨⟨value, rest⟩, hvalue, rfl⟩ := Option.map_eq_some_iff.1 hnext
    exact evaluate_lowering (h hanswer) (ih result hvalue)
  | including path next ih =>
    obtain ⟨⟨value, rest⟩, hvalue, rfl⟩ := Option.map_eq_some_iff.1 hs
    simp only [evaluate, ih hvalue, Option.map_some]
  | needing object next ih =>
    obtain ⟨⟨value, rest⟩, hvalue, rfl⟩ := Option.map_eq_some_iff.1 hs
    simp only [evaluate, ih hvalue, Option.map_some]
  | picking object next ih => cases hs
  | viewing next ih => exact ih _ hs

end Script

namespace Generator

variable (generator : Generator) (current : Option String)

/-- How the lowering of an expression ends and which effects it has, if so many levels are enough to
tell. Nothing is recalled. -/
def outcome? : Nat → Expression.Kind → Expression → Option (Except Failure String × List Effect)
  | 0, _, _ => none
  | levels + 1, kind, e => (generator.script kind e).evaluate current (outcome? levels)

variable {generator current}

theorem outcome?_succ {levels : Nat} {kind : Expression.Kind} {e : Expression}
    {found : Except Failure String × List Effect}
    (h : generator.outcome? current levels kind e = some found) :
    generator.outcome? current (levels + 1) kind e = some found := by
  induction levels generalizing kind e found with
  | zero => cases h
  | succ levels ih => exact Script.evaluate_mono ih h

theorem outcome?_mono {few many : Nat} (hle : few ≤ many) {kind : Expression.Kind} {e : Expression}
    {found : Except Failure String × List Effect}
    (h : generator.outcome? current few kind e = some found) :
    generator.outcome? current many kind e = some found := by
  induction hle with
  | refl => exact h
  | step _ ih => exact outcome?_succ ih

/-- There is but one outcome. -/
theorem outcome?_unique {first second : Nat} {kind : Expression.Kind} {e : Expression}
    {found other : Except Failure String × List Effect}
    (hfound : generator.outcome? current first kind e = some found)
    (hother : generator.outcome? current second kind e = some other) : found = other := by
  have h := outcome?_mono (Nat.le_max_left first second) hfound
  rw [outcome?_mono (Nat.le_max_right first second) hother] at h
  exact (Option.some.inj h).symm

variable (generator current)

/-- The fragments that are remembered are outcomes, and their effects have been had. -/
structure Faithful (state : State) : Prop where
  current_eq : state.context.current = current
  lowered : ∀ {kind e code}, state.context.remembered? kind e = some code →
    ∃ levels effects, generator.outcome? current levels kind e = some (.ok code, effects) ∧
      ∀ effect ∈ effects, effect.Absorbed generator state

variable {generator current}

theorem faithful_of_idle {state : State} (h : state.context.Idle) :
    generator.Faithful state.context.current state where
  current_eq := rfl
  lowered hcode := by
    simp only [Context.remembered?, h.2, List.find?_nil] at hcode
    cases hcode

theorem Faithful.apply (ha : generator.target.Absorbing) {state : State}
    (h : generator.Faithful current state) (effect : Effect) :
    generator.Faithful current (effect.apply generator state) := by
  have hcontext : (effect.apply generator state).context.current = state.context.current ∧
      (effect.apply generator state).context.lowered = state.context.lowered := by
    cases effect with
    | require path => exact ⟨rfl, rfl⟩
    | need object =>
      simp only [Effect.apply, Context.need_eq, and_self]
  constructor
  · exact hcontext.1.trans h.current_eq
  · intro kind e code hcode
    rw [Context.remembered?, hcontext.2] at hcode
    obtain ⟨levels, effects, houtcome, habsorbed⟩ := h.lowered hcode
    refine ⟨levels, effects, houtcome, ?_⟩
    intro other hmem
    exact Effect.absorbed_apply ha (habsorbed other hmem) effect

/-- How deep lowerings are nested is of no account. -/
theorem Faithful.of_depth {state : State} (h : generator.Faithful current state) (depth : Nat) :
    generator.Faithful current
      { state with context := { state.context with depth := depth } } where
  current_eq := h.current_eq
  lowered hcode := by
    obtain ⟨levels, effects, houtcome, habsorbed⟩ := h.lowered hcode
    exact ⟨levels, effects, houtcome, fun effect hmem => (habsorbed effect hmem).of_eq rfl rfl⟩

theorem Faithful.enter {state : State} (h : generator.Faithful current state) :
    generator.Faithful current state.enter := h.of_depth _

theorem Faithful.leave {state : State} (h : generator.Faithful current state) :
    generator.Faithful current state.leave := h.of_depth _

/-- A lowering that ends as its outcome says may be remembered. -/
theorem Faithful.settle {state : State} (h : generator.Faithful current state)
    {levels : Nat} {kind : Expression.Kind} {e : Expression} {result : Except Failure String}
    {effects : List Effect}
    (houtcome : generator.outcome? current levels kind e = some (result, effects))
    (habsorbed : ∀ effect ∈ effects, effect.Absorbed generator state) :
    generator.Faithful current (state.settle kind e result) := by
  by_cases hdepth : state.context.depth = 0
  · rw [settle_of_depth hdepth]
    exact ⟨h.current_eq, fun hcode => by cases hcode⟩
  cases result with
  | error failure =>
    have hsame : state.settle kind e (.error failure) = state := by
      simp only [State.settle, Context.settle, hdepth, if_false]
    rw [hsame]
    exact h
  | ok code =>
    rw [State.settle_ok hdepth]
    constructor
    · exact h.current_eq
    · intro other f found hcode
      rcases Context.remembered?_remember_cases hcode with ⟨rfl, rfl, rfl⟩ | hcode
      · refine ⟨levels, effects, houtcome, ?_⟩
        intro effect hmem
        exact (habsorbed effect hmem).of_eq rfl rfl
      · obtain ⟨levels, effects, houtcome, habsorbed⟩ := h.lowered hcode
        refine ⟨levels, effects, houtcome, ?_⟩
        intro effect hmem
        exact (habsorbed effect hmem).of_eq rfl rfl

variable (generator current)

/-- A run that began in `state` has ended: its value and its effects are those that the evaluation
finds, and the fragments that are remembered are still outcomes. -/
def EndsAs {α : Type} (evaluation : Nat → Option (α × List Effect)) (state : State)
    (ended : α × State) : Prop :=
  ∃ levels effects, evaluation levels = some (ended.1, effects) ∧
    ended.2.forget = Effect.applyAll generator effects state.forget ∧
    generator.Faithful current ended.2

variable {generator current}

theorem handler_require
    (lower : Expression.Kind → Expression → StateM State (Except Failure String)) (path : String)
    (state : State) : ((generator.handler lower).require path state).2
      = (Effect.require path).apply generator state := rfl

theorem handler_need
    (lower : Expression.Kind → Expression → StateM State (Except Failure String)) (object : String)
    (state : State) : ((generator.handler lower).need object state).2
      = (Effect.need object).apply generator state := rfl

/-- A fragment that is remembered ends the lowering of its expression. -/
theorem endsAs_of_remembered {kind : Expression.Kind} {e : Expression} {state : State}
    {code : String} (hf : generator.Faithful current state)
    (hcode : state.context.remembered? kind e = some code) :
    generator.EndsAs current (generator.outcome? current · kind e) state (.ok code, state) := by
  obtain ⟨levels, effects, houtcome, habsorbed⟩ := hf.lowered hcode
  refine ⟨levels, effects, houtcome, ?_, hf⟩
  rw [← Effect.forget_applyAll, Effect.applyAll_of_absorbed habsorbed]

/-- A script carried out one level deeper ends the lowering that it belongs to. -/
theorem EndsAs.settle (ha : generator.target.Absorbing) {kind : Expression.Kind} {e : Expression}
    {state : State} {ended : Except Failure String × State}
    (h : generator.EndsAs current
      (fun levels => (generator.script kind e).evaluate current (generator.outcome? current levels))
      state.enter ended) :
    generator.EndsAs current (generator.outcome? current · kind e) state
      (ended.1, ended.2.leave.settle kind e ended.1) := by
  obtain ⟨levels, effects, hvalue, hstate, hf⟩ := h
  have hleave : ended.2.leave.forget = Effect.applyAll generator effects state.forget := by
    show ended.2.forget.leave = _
    rw [hstate, State.forget_enter, ← Effect.enter_applyAll, State.leave_enter]
  refine ⟨levels + 1, effects, hvalue, (State.forget_settle ..).trans hleave, ?_⟩
  have houtcome : generator.outcome? current (levels + 1) kind e = some (ended.1, effects) := hvalue
  refine hf.leave.settle houtcome ?_
  intro effect hmem
  have habsorbed := Effect.absorbed_applyAll_self ha effects state.forget effect hmem
  rw [← hleave] at habsorbed
  exact habsorbed.of_eq rfl rfl

/-- A local script ends as its evaluation says if the lowerings that it asks for do. -/
theorem endsAs_run (ha : generator.target.Absorbing) {α : Type}
    {lower : Expression.Kind → Expression → StateM State (Except Failure String)}
    {P : Expression.Kind → Expression → State → Prop}
    (hlower : ∀ {kind e state}, P kind e state → generator.Faithful current state →
      generator.EndsAs current (generator.outcome? current · kind e) state (lower kind e state))
    {script : Script α} {state : State} (hl : script.Local)
    (asks : script.Asks (generator.handler lower) P state)
    (hf : generator.Faithful current state) :
    generator.EndsAs current
      (fun levels => script.evaluate current (generator.outcome? current levels)) state
      (script.run (generator.handler lower) state) := by
  induction script generalizing state with
  | done value => exact ⟨0, [], rfl, rfl, hf⟩
  | lowering kind e next ih =>
    obtain ⟨few, first, houtcome, hfirst, hf⟩ := hlower asks.1 hf
    obtain ⟨many, rest, hvalue, hrest, hf⟩ := ih _ (hl _) asks.2 hf
    -- the lowering and what follows were found with levels of their own; the more serve both
    refine ⟨max few many, first ++ rest, ?_, ?_, hf⟩
    · exact Script.evaluate_lowering (outcome?_mono (Nat.le_max_left ..) houtcome)
        (Script.evaluate_mono (outcome?_mono (Nat.le_max_right ..)) hvalue)
    · rw [Effect.applyAll_append, ← hfirst]
      exact hrest
  | including path next ih =>
    have hafter := hf.apply ha (.require path)
    obtain ⟨levels, effects, hvalue, hstate, hf⟩ := ih hl asks hafter
    refine ⟨levels, .require path :: effects, ?_, ?_, hf⟩
    · exact Option.map_eq_some_iff.2 ⟨_, hvalue, rfl⟩
    · refine hstate.trans ?_
      rw [handler_require, Effect.forget_apply]
      rfl
  | needing object next ih =>
    have hafter := hf.apply ha (.need object)
    obtain ⟨levels, effects, hvalue, hstate, hf⟩ := ih hl asks hafter
    refine ⟨levels, .need object :: effects, ?_, ?_, hf⟩
    · exact Option.map_eq_some_iff.2 ⟨_, hvalue, rfl⟩
    · refine hstate.trans ?_
      rw [handler_need, Effect.forget_apply]
      rfl
  | picking object next ih => exact False.elim hl
  | viewing next ih =>
    have hnext : next state.context.view = next (.ofCurrent current) := hl.2 _ _ hf.current_eq
    obtain ⟨levels, effects, hvalue, hstate, hf⟩ := ih _ (hl.1 _) asks hf
    have hseen : (Script.viewing next).evaluate current (generator.outcome? current levels)
        = (next state.context.view).evaluate current (generator.outcome? current levels) := by
      rw [hnext]
      rfl
    exact ⟨levels, effects, hseen.trans hvalue, hstate, hf⟩

/-- A lowering in whose course none is refused ends as its outcome says, if all that is recalled is
remembered. -/
theorem endsAs_lowerWithin (hg : generator.Local) (ha : generator.target.Absorbing)
    {lookUp : Recall}
    (hrecall : ∀ {context kind e code}, lookUp context kind e = some code →
      context.remembered? kind e = some code)
    {levels : Nat} {kind : Expression.Kind} {e : Expression} {state : State}
    (hadmitted : generator.Admitted lookUp levels kind e state)
    (hf : generator.Faithful current state) :
    generator.EndsAs current (generator.outcome? current · kind e) state
      (generator.lowerWithin lookUp levels kind e state) := by
  induction levels generalizing kind e state with
  | zero =>
    obtain ⟨code, hcode⟩ := Option.isSome_iff_exists.1 (hadmitted.1 rfl)
    rw [lowerWithin_of_recall generator hcode]
    exact endsAs_of_remembered hf (hrecall hcode)
  | succ levels ih =>
    cases hcode : lookUp state.context kind e with
    | some code =>
      rw [lowerWithin_of_recall generator hcode]
      exact endsAs_of_remembered hf (hrecall hcode)
    | none =>
      rw [lowerWithin_succ generator hcode]
      have asks := hadmitted.2 hcode
      exact EndsAs.settle ha (endsAs_run ha ih (local_script hg kind e) asks hf.enter)

/-- What holds of all that ends as an outcome says holds of every lowering in the course, if none is
refused. -/
theorem within_of_unrefused (hg : generator.Local) (ha : generator.target.Absorbing)
    {lookUp : Recall}
    (hrecall : ∀ {context kind e code}, lookUp context kind e = some code →
      context.remembered? kind e = some code)
    {P : Nat → Expression.Kind → Expression → State → Prop}
    (hP : ∀ {levels kind e state}, generator.EndsAs current
      (generator.outcome? current · kind e) state
        (generator.lowerWithin lookUp levels kind e state) →
      P levels kind e state)
    {levels : Nat} {kind : Expression.Kind} {e : Expression} {state : State}
    (hwithin : generator.Unrefused lookUp levels kind e state)
    (hf : generator.Faithful current state) :
    generator.Within lookUp P levels kind e state := by
  induction levels generalizing kind e state with
  | zero => exact trivial
  | succ levels ih =>
    intro hcode
    have keeps : (generator.handler (generator.lowerWithin lookUp levels)).Keeps
        (generator.Admitted lookUp levels) (generator.Faithful current) := {
      lower := fun hadmitted hf => by
        obtain ⟨-, -, -, -, hafter⟩ := endsAs_lowerWithin hg ha hrecall hadmitted hf
        exact hafter
      require := fun {path _} hf => hf.apply ha (.require path)
      need := fun {object _} hf => hf.apply ha (.need object)
      view := fun hf => hf }
    refine Script.Asks.imp keeps ?_ (local_script hg kind e) (hwithin hcode) hf.enter
    intro kind e state hf hadmitted
    exact ⟨hP (endsAs_lowerWithin hg ha hrecall hadmitted hf), ih hadmitted.2 hf⟩

end Generator
end EventFormula
