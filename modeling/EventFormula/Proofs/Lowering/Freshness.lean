import EventFormula.Proofs.Lowering.Reuse
import EventFormula.Hook

/-!
# Fresh fragments

A fragment is made for the object that is current then. As long as no hook changes that object, a
lowering inside another one yields the code that it would yield if nothing were remembered. A hook
that changes it breaks this: fragments are remembered by kind, place and text alone, so one that was
made for the object before is used again for the object that is current now.
-/

namespace EventFormula

namespace Generator

variable {generator : Generator} {current : Option String}

variable (generator) in
/-- Code that the lowering yields is the code that it would yield if nothing were remembered. -/
def Fresh (levels : Nat) (kind : Expression.Kind) (e : Expression) (state : State) : Prop :=
  ∀ code, (generator.lowerWithin Context.remembered? levels kind e state).1 = .ok code →
    (generator.lowerWithin Context.remembered? levels kind e state.forget).1 = .ok code

instance (levels : Nat) (kind : Expression.Kind) (e : Expression) (state : State) :
    Decidable (generator.Fresh levels kind e state) :=
  match hcode : (generator.lowerWithin Context.remembered? levels kind e state).1 with
  | .ok code =>
    decidable_of_iff ((generator.lowerWithin Context.remembered? levels kind e
      state.forget).1.toOption = some code) <| by
        constructor
        · intro hfresh other hother
          rw [Except.eq_ok_of_toOption hfresh, ← hother, hcode]
        · intro hfresh
          rw [hfresh code hcode]
          rfl
  | .error _ => .isTrue fun code hother => by
    rw [hother] at hcode
    cases hcode

theorem current_applyAll (effects : List Effect) (state : State) :
    (Effect.applyAll generator effects state).context.current = state.context.current := by
  induction effects generalizing state with
  | nil => rfl
  | cons effect effects ih =>
    refine (ih (effect.apply generator state)).trans ?_
    cases effect with
    | require path => rfl
    | need object =>
      show (state.context.need object).current = _
      rw [Context.need_eq]

/-- A run that ends as an outcome says has begun with the current object of that outcome. -/
theorem EndsAs.current_eq {α : Type} {evaluation : Nat → Option (α × List Effect)} {state : State}
    {ended : α × State} (h : generator.EndsAs current evaluation state ended) :
    state.context.current = current := by
  obtain ⟨levels, effects, -, hstate, hf⟩ := h
  have hended : ended.2.forget.context.current = state.forget.context.current := by
    rw [hstate, current_applyAll]
  exact hended.symm.trans hf.current_eq

/-- What ends as an outcome says is fresh, unless the lowering is refused once the fragments are
forgotten. -/
theorem fresh_of_endsAs (hg : generator.Local) (ha : generator.target.Absorbing) {levels : Nat}
    {kind : Expression.Kind} {e : Expression} {state : State}
    (h : generator.EndsAs current (generator.outcome? current · kind e) state
      (generator.lowerWithin Context.remembered? levels kind e state))
    (hadmitted : generator.Admitted Context.remembered? levels kind e state.forget) :
    generator.Fresh levels kind e state := by
  intro code hcode
  have hforgotten : generator.Faithful current state.forget :=
    ⟨h.current_eq, fun hnone => by cases hnone⟩
  obtain ⟨few, effects, houtcome, -, -⟩ := h
  obtain ⟨many, others, hother, -, -⟩ := endsAs_lowerWithin hg ha id hadmitted hforgotten
  have hsame := (Prod.mk.inj (outcome?_unique houtcome hother)).1
  rw [← hsame, hcode]

/-- If no hook changes the current object and nothing is refused, every lowering in the course of
one that begins idle is fresh. -/
theorem within_fresh (hg : generator.Local) (ha : generator.target.Absorbing)
    {kind : Expression.Kind} {e : Expression} {state : State} (hidle : state.context.Idle)
    (hwithin : generator.Unrefused Context.remembered? state.context.levels kind e state) :
    generator.Within Context.remembered? (fun levels kind e state =>
        generator.Admitted Context.remembered? levels kind e state.forget →
          generator.Fresh levels kind e state)
      state.context.levels kind e state :=
  within_of_unrefused hg ha id (fun hends => fresh_of_endsAs hg ha hends) hwithin
    (faithful_of_idle hidle)

/-- The fragment that `F(F())` uses again is fresh. -/
theorem within_fresh_nested :
    (State.initial 4).context.Idle ∧
      (JavaScript.generator .sample).Unrefused Context.remembered? 4 .number (.ofText "F(F())")
        (.initial 4) ∧
      (JavaScript.generator .sample).Within Context.remembered? (fun levels kind e state =>
          (JavaScript.generator .sample).Admitted Context.remembered? levels kind e state.forget →
            (JavaScript.generator .sample).Fresh levels kind e state)
        4 .number (.ofText "F(F())") (.initial 4) := by
  have hidle : (State.initial 4).context.Idle := Context.idle_fresh none (some 4)
  have hwithin : (JavaScript.generator .sample).Unrefused Context.remembered? 4 .number
      (.ofText "F(F())") (.initial 4) := by
    decide +kernel
  exact ⟨hidle, hwithin, within_fresh (JavaScript.local_generator .sample)
    (JavaScript.absorbing_target .sample) hidle hwithin⟩

end Generator

/-- An object `O`, a function `X` of all objects, a function `P` that makes its argument the current
object, and `G`, which takes two numbers. -/
def Scope.picking : Scope where
  platform.functions.numeric := .ofList
    [("G", { parameters := [{ kind := .number }, { kind := .number }], callName := "g" }),
      ("P", { parameters := [{ kind := .object }], generation := .custom "pick" })]
  platform.objects := .ofList
    [("", ⟨none, .ofList [("X", { parameters := [{ kind := .object }], callName := "getX" })],
      .empty⟩)]
  project.objects := [⟨"O", "T", []⟩]
  layout := {}

namespace JavaScript

/-- In `G(O.X(), P(O))` the call of `P` picks `O`, but the code of `O.X()` from before that is used
again. -/
theorem not_fresh_of_pick :
    ¬ ∀ (scope : Scope) (hooks : Table Hook) (kind : Expression.Kind) (e : Expression)
        (state : State), state.context.Idle →
      (Generator.mk scope (target scope) hooks).Within Context.remembered?
        (Generator.mk scope (target scope) hooks).Fresh state.context.levels kind e state := by
  intro h
  have hidle : (State.initial 4).context.Idle := Context.idle_fresh none (some 4)
  have hwithin := h .picking (hooks.insert "pick" Hook.pick) .number (.ofText "G(O.X(), P(O))")
    (.initial 4) hidle
  revert hwithin
  decide +kernel

/-- So the call is made on the first instance of `O`, not on the one that the event goes through. -/
example :
    ((Generator.mk .picking (target .picking) (hooks.insert "pick" Hook.pick)).lower .number
        (.ofText "G(O.X(), P(O))") (.initial 64)).1.toOption
      = some "g(((OObjects.length === 0) ? 0 : OObjects[0].getX()), picked@2/64)" := by
  decide +kernel

end JavaScript
end EventFormula
