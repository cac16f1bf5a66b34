import EventFormula.Proofs.Lowering.Scripts
import EventFormula.Proofs.Script.Local

/-!
# The course of a lowering

Lowering an expression asks for other lowerings, those for more, and so on down. `Within` speaks of
all of them, each with the levels that are left for it and the state in which it begins. Lowerings
that are refused for want of a level are told from the others here, and generators whose scripts are
all local; the JavaScript generator is one.
-/

namespace EventFormula

namespace Context

/-- No lowering is going on, and no fragment is remembered. -/
def Idle (context : Context) : Prop := context.depth = 0 ∧ context.lowered = []

instance (context : Context) : Decidable context.Idle := inferInstanceAs (Decidable (_ ∧ _))

theorem idle_fresh (current : Option String) (maxDepth : Option Nat) :
    (Context.fresh current maxDepth).Idle := ⟨rfl, rfl⟩

theorem remembered?_of_idle {context : Context} (h : context.Idle) (kind : Expression.Kind)
    (e : Expression) : context.remembered? kind e = none := by
  simp only [Context.remembered?, h.2, List.find?_nil]

end Context

theorem Script.compositional_local : Script.Compositional Script.Local where
  done _ := trivial
  bind := local_bind
  lower _ _ := fun _ => trivial
  require _ := trivial
  need _ := trivial
  view hf h := ⟨hf, h⟩

/-- Nothing is ever recalled. -/
def Recall.never : Recall := fun _ _ _ => none

namespace State

/-- The state one level deeper. -/
def enter (state : State) : State := { state with context := state.context.enter }

/-- The state one level up. -/
def leave (state : State) : State := { state with context := state.context.leave }

/-- The state after a lowering has ended in `result`. -/
def settle (state : State) (kind : Expression.Kind) (e : Expression)
    (result : Except Failure String) : State :=
  { state with context := state.context.settle kind e result }

/-- To settle a lowering changes nothing but the fragments that are remembered. -/
theorem settle_eq (state : State) (kind : Expression.Kind) (e : Expression)
    (result : Except Failure String) : ∃ lowered, state.settle kind e result
      = { state with context := { state.context with lowered := lowered } } := by
  unfold settle Context.settle
  split
  · exact ⟨[], rfl⟩
  · cases result with
    | ok code => exact ⟨_, rfl⟩
    | error failure => exact ⟨_, rfl⟩

/-- A lowering inside another one has its code remembered. -/
theorem settle_ok {state : State} (h : state.context.depth ≠ 0) (kind : Expression.Kind)
    (e : Expression) (code : String) :
    state.settle kind e (.ok code)
      = { state with context := state.context.remember kind e code } := by
  simp only [settle, Context.settle, h, if_false]

end State

namespace Generator

variable (generator : Generator)

/-- How the script for an expression ends, carried out one level deeper. -/
def ended (lookUp : Recall) (levels : Nat) (kind : Expression.Kind) (e : Expression)
    (state : State) : Except Failure String × State :=
  (generator.script kind e).run (generator.handler (generator.lowerWithin lookUp levels))
    state.enter

section Equations
variable {lookUp : Recall} {kind : Expression.Kind} {e : Expression} {state : State}

theorem lowerWithin_of_recall {levels : Nat} {code : String}
    (h : lookUp state.context kind e = some code) :
    generator.lowerWithin lookUp levels kind e state = (.ok code, state) := by
  cases levels <;> simp only [lowerWithin, reusing, bind, StateT.bind, get, getThe,
    MonadStateOf.get, StateT.get, pure, h] <;> rfl

theorem lowerWithin_zero (h : lookUp state.context kind e = none) :
    generator.lowerWithin lookUp 0 kind e state =
      (.error ⟨.nestingTooDeep state.context.maxDepth, e.span⟩,
        state.settle kind e (.error ⟨.nestingTooDeep state.context.maxDepth, e.span⟩)) := by
  simp only [lowerWithin, reusing, bind, StateT.bind, get, getThe, MonadStateOf.get, StateT.get,
    pure, h]
  rfl

theorem lowerWithin_succ {levels : Nat} (h : lookUp state.context kind e = none) :
    generator.lowerWithin lookUp (levels + 1) kind e state =
      ((generator.ended lookUp levels kind e state).1,
        (generator.ended lookUp levels kind e state).2.leave.settle kind e
          (generator.ended lookUp levels kind e state).1) := by
  simp only [lowerWithin, reusing, bind, StateT.bind, get, getThe, MonadStateOf.get, StateT.get,
    pure, h]
  rfl

/-- A lowering that yields code has had a level, or has found its fragment. -/
theorem isSome_of_ok {levels : Nat} {code : String}
    (h : (generator.lowerWithin lookUp levels kind e state).1 = .ok code) (hzero : levels = 0) :
    (lookUp state.context kind e).isSome := by
  cases hcode : lookUp state.context kind e with
  | some found => rfl
  | none =>
    rw [hzero, lowerWithin_zero generator hcode] at h
    cases h

end Equations

section Depth
variable {lookUp : Recall} {α : Type}

/-- No script changes how many lowerings are going on, if the lowerings it asks for do not. -/
theorem depth_run {lower : Expression.Kind → Expression → StateM State (Except Failure String)}
    (hlower : ∀ kind e state, (lower kind e state).2.context.depth = state.context.depth)
    (script : Script α) (state : State) :
    (script.run (generator.handler lower) state).2.context.depth = state.context.depth := by
  have preserves : (generator.handler lower).Preserves
      (fun other => other.context.depth = state.context.depth) := {
    lower := fun {kind e other} h => (hlower kind e other).trans h
    require := fun h => h
    need := fun {object other} h => by
      show (other.context.need object).depth = state.context.depth
      rw [Context.need_eq]
      exact h
    setCurrent := fun h => h
    view := fun h => h }
  exact preserves.run script rfl

theorem depth_settle (state : State) (kind : Expression.Kind) (e : Expression)
    (result : Except Failure String) :
    (state.settle kind e result).context.depth = state.context.depth := by
  obtain ⟨lowered, h⟩ := state.settle_eq kind e result
  rw [h]

theorem depth_ended {levels : Nat}
    (hlower : ∀ kind e state,
      (generator.lowerWithin lookUp levels kind e state).2.context.depth = state.context.depth)
    (kind : Expression.Kind) (e : Expression) (state : State) :
    (generator.ended lookUp levels kind e state).2.leave.context.depth = state.context.depth := by
  have hrun := depth_run generator hlower (generator.script kind e) state.enter
  simp only [ended, State.leave, Context.leave, hrun]
  rfl

variable (lookUp) in
theorem depth_lowerWithin (levels : Nat) (kind : Expression.Kind) (e : Expression)
    (state : State) :
    (generator.lowerWithin lookUp levels kind e state).2.context.depth = state.context.depth := by
  induction levels generalizing kind e state with
  | zero =>
    cases h : lookUp state.context kind e with
    | some code => rw [lowerWithin_of_recall generator h]
    | none => rw [lowerWithin_zero generator h, depth_settle]
  | succ levels ih =>
    cases h : lookUp state.context kind e with
    | some code => rw [lowerWithin_of_recall generator h]
    | none => rw [lowerWithin_succ generator h, depth_settle, depth_ended generator ih]

end Depth

theorem settle_of_depth {state : State} (h : state.context.depth = 0) (kind : Expression.Kind)
    (e : Expression) (result : Except Failure String) :
    state.settle kind e result = { state with context := state.context.forget } := by
  simp only [State.settle, Context.settle, h, if_true]

/-- Every lowering in the course of this one is as `P` says of the levels left for it, of what is
lowered and of the state in which it begins. -/
def Within (lookUp : Recall) (P : Nat → Expression.Kind → Expression → State → Prop) :
    Nat → Expression.Kind → Expression → State → Prop
  | 0, _, _, _ => True
  | levels + 1, kind, e, state =>
    lookUp state.context kind e = none →
      (generator.script kind e).Asks (generator.handler (generator.lowerWithin lookUp levels))
        (fun kind e state => P levels kind e state ∧ Within lookUp P levels kind e state)
        state.enter

instance decidableWithin (lookUp : Recall)
    {P : Nat → Expression.Kind → Expression → State → Prop}
    [∀ levels kind e state, Decidable (P levels kind e state)] :
    (levels : Nat) → (kind : Expression.Kind) → (e : Expression) → (state : State) →
      Decidable (generator.Within lookUp P levels kind e state)
  | 0, _, _, _ => .isTrue trivial
  | levels + 1, _, _, _ =>
    letI := decidableWithin lookUp (P := P) levels
    inferInstanceAs (Decidable (_ → _))

/-- No lowering in the course of this one is refused for want of a level: each finds a level left,
or a fragment to use again. -/
def Unrefused (lookUp : Recall) : Nat → Expression.Kind → Expression → State → Prop :=
  generator.Within lookUp fun levels kind e state =>
    levels = 0 → (lookUp state.context kind e).isSome

instance (lookUp : Recall) (levels : Nat) (kind : Expression.Kind) (e : Expression)
    (state : State) : Decidable (generator.Unrefused lookUp levels kind e state) :=
  inferInstanceAs (Decidable (generator.Within ..))

/-- Neither this lowering nor any in its course is refused. -/
def Admitted (lookUp : Recall) (levels : Nat) (kind : Expression.Kind) (e : Expression)
    (state : State) : Prop :=
  (levels = 0 → (lookUp state.context kind e).isSome) ∧
    generator.Unrefused lookUp levels kind e state

/-- The scripts of the target and of the hooks are local, and what a name stands for depends on the
current object alone. -/
structure Local : Prop where
  parameterCodes : ∀ arguments parameters,
    (generator.target.parameterCodes arguments parameters).Local
  expand : ∀ name (v w : View), v.current = w.current →
    generator.target.expand name v = generator.target.expand name w
  currentCall : ∀ access, (generator.target.currentCall access).Local
  otherCall : ∀ access otherwise, (generator.target.otherCall access otherwise).Local
  hook : ∀ {name hook}, generator.hooks.get? name = some hook → ∀ arguments, (hook arguments).Local

variable {generator}

theorem Local.provides (hg : generator.Local) : generator.Provides Script.Local :=
  ⟨hg.parameterCodes, hg.expand, hg.currentCall, hg.otherCall, hg.hook⟩

/-- Whatever the expression is, lowering it is local. -/
theorem local_script (hg : generator.Local) (kind : Expression.Kind) (e : Expression) :
    (generator.script kind e).Local :=
  hg.provides.script Script.compositional_local kind e

end Generator

namespace JavaScript

theorem local_hook {name : String} {hook : Hook} (h : hooks.get? name = some hook)
    (arguments : List Expression) : (hook arguments).Local := by
  have hmem := Table.mem_of_get?_ofList h
  simp only [List.mem_cons, Prod.mk.injEq, List.not_mem_nil, or_false] at hmem
  rcases hmem with ⟨-, rfl⟩ | ⟨-, rfl⟩
  · exact compositional_toStringHook Script.compositional_local arguments
  · exact compositional_toNumberHook Script.compositional_local arguments

/-- The scripts of the JavaScript target and of its hooks are local. -/
theorem local_generator (scope : Scope) : (generator scope).Local :=
  have provides := provides_target Script.compositional_local scope local_hook
  ⟨provides.parameterCodes, provides.expand, provides.currentCall, provides.otherCall,
    provides.hook⟩

end JavaScript

/-- One number function, `F`, whose only argument is a number that may be left out and is `1`
then. -/
def Scope.sample : Scope where
  platform.functions.numeric :=
    .ofList [("F", {
      parameters := [{ kind := .number, optional := true, defaultValue := "1" }]
      callName := "f" })]
  project := {}
  layout := {}

/-- The state before anything was lowered, with so many levels allowed. -/
def State.initial (levels : Nat) : State where
  context := .fresh none (some levels)

theorem Except.eq_ok_of_toOption {ε α : Type} {result : Except ε α} {value : α}
    (h : result.toOption = some value) : result = .ok value := by
  cases result with
  | ok other => exact congrArg Except.ok (Option.some.inj h)
  | error failure => cases h

end EventFormula
