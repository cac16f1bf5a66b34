import EventFormula.Proofs.Lowering.Course
import EventFormula.Proofs.Target.Includes

/-!
# Effects

What a lowering changes in the state, apart from the fragments that are remembered, is a list of
effects: files to include, and objects whose lists are read. Effects that have been had are
absorbed: having them again changes nothing, whatever has happened in between.
-/

namespace EventFormula

/-- What a script changes in the state, fragments apart. -/
inductive Effect where
  | require (path : String)
  | need (object : String)

/-- The state without the fragments that are remembered. -/
def State.forget (state : State) : State := { state with context := state.context.forget }

namespace State

theorem forget_enter (state : State) : state.enter.forget = state.forget.enter := rfl

theorem leave_enter (state : State) : state.enter.leave = state := by
  simp only [enter, leave, Context.leave_enter]

theorem forget_settle (state : State) (kind : Expression.Kind) (e : Expression)
    (result : Except Failure String) : (state.settle kind e result).forget = state.forget := by
  unfold settle Context.settle
  split
  · rfl
  · cases result <;> rfl

end State

namespace Effect

variable (generator : Generator)

def apply : Effect → State → State
  | require path, state => { state with includes := generator.target.record path state.includes }
  | need object, state => { state with context := state.context.need object }

def applyAll (effects : List Effect) (state : State) : State :=
  effects.foldl (fun state effect => effect.apply generator state) state

/-- The effect has been had: once more it would change nothing. -/
def Absorbed : Effect → State → Prop
  | require path, state => generator.target.record path state.includes = state.includes
  | need object, state => object ∈ state.context.needed

variable {generator}

theorem applyAll_append (first rest : List Effect) (state : State) :
    applyAll generator (first ++ rest) state
      = applyAll generator rest (applyAll generator first state) :=
  List.foldl_append

theorem apply_of_absorbed {effect : Effect} {state : State} (h : effect.Absorbed generator state) :
    effect.apply generator state = state := by
  cases effect with
  | require path =>
    have hrecord : generator.target.record path state.includes = state.includes := h
    simp only [apply, hrecord]
  | need object =>
    have hmem : object ∈ state.context.needed := h
    simp only [apply, Context.need, hmem, if_true]

theorem applyAll_of_absorbed {effects : List Effect} {state : State}
    (h : ∀ effect ∈ effects, effect.Absorbed generator state) :
    applyAll generator effects state = state := by
  induction effects with
  | nil => rfl
  | cons effect effects ih =>
    have hfirst := apply_of_absorbed (h effect List.mem_cons_self)
    have hrest := ih fun other hmem => h other (List.mem_cons_of_mem _ hmem)
    simpa only [applyAll, List.foldl_cons, hfirst] using hrest

theorem forget_apply (effect : Effect) (state : State) :
    (effect.apply generator state).forget = effect.apply generator state.forget := by
  cases effect with
  | require path => rfl
  | need object =>
    simp only [apply, Context.need_eq]
    rfl

theorem forget_applyAll (effects : List Effect) (state : State) :
    (applyAll generator effects state).forget = applyAll generator effects state.forget := by
  induction effects generalizing state with
  | nil => rfl
  | cons effect effects ih =>
    simp only [applyAll, List.foldl_cons, ← forget_apply] at ih ⊢
    exact ih _

theorem enter_apply (effect : Effect) (state : State) :
    (effect.apply generator state).enter = effect.apply generator state.enter := by
  cases effect with
  | require path => rfl
  | need object =>
    simp only [apply, Context.need_eq]
    rfl

theorem enter_applyAll (effects : List Effect) (state : State) :
    (applyAll generator effects state).enter = applyAll generator effects state.enter := by
  induction effects generalizing state with
  | nil => rfl
  | cons effect effects ih =>
    simp only [applyAll, List.foldl_cons, ← enter_apply] at ih ⊢
    exact ih _

theorem absorbed_apply_self (ha : generator.target.Absorbing) (effect : Effect) (state : State) :
    effect.Absorbed generator (effect.apply generator state) := by
  cases effect with
  | require path => exact ha.again path state.includes
  | need object => exact Context.mem_need.2 (Or.inr rfl)

theorem absorbed_apply (ha : generator.target.Absorbing) {effect : Effect} {state : State}
    (h : effect.Absorbed generator state) (other : Effect) :
    effect.Absorbed generator (other.apply generator state) := by
  cases effect with
  | require path =>
    cases other with
    | require other => exact ha.keeps other h
    | need object => exact h
  | need object =>
    cases other with
    | require path => exact h
    | need other => exact Context.mem_need.2 (Or.inl h)

theorem absorbed_applyAll (ha : generator.target.Absorbing) {effect : Effect} {state : State}
    (h : effect.Absorbed generator state) (others : List Effect) :
    effect.Absorbed generator (applyAll generator others state) := by
  induction others generalizing state with
  | nil => exact h
  | cons other others ih => exact ih (absorbed_apply ha h other)

/-- Only the files and the lists that are needed tell whether an effect has been had. -/
theorem Absorbed.of_eq {effect : Effect} {state other : State}
    (h : effect.Absorbed generator state) (hincludes : other.includes = state.includes)
    (hneeded : other.context.needed = state.context.needed) :
    effect.Absorbed generator other := by
  cases effect with
  | require path =>
    have hrecord : generator.target.record path state.includes = state.includes := h
    show generator.target.record path other.includes = other.includes
    rw [hincludes, hrecord]
  | need object =>
    show object ∈ other.context.needed
    rw [hneeded]
    exact h

/-- Effects that have just been had are absorbed. -/
theorem absorbed_applyAll_self (ha : generator.target.Absorbing) (effects : List Effect)
    (state : State) :
    ∀ effect ∈ effects, effect.Absorbed generator (applyAll generator effects state) := by
  induction effects generalizing state with
  | nil => intro effect hmem; cases hmem
  | cons first effects ih =>
    intro effect hmem
    rcases List.mem_cons.1 hmem with rfl | hmem
    · exact absorbed_applyAll ha (absorbed_apply_self ha effect state) effects
    · exact ih _ effect hmem

end Effect

end EventFormula
