import EventFormula.Proofs.Lowering.Course

/-!
# What is recorded stays

In the course of a lowering files to include and objects whose lists are needed are added, never
taken away. A fragment that is used again adds nothing, so what its code relies on has to be there
since it was made. `Establishes` says of an action that it only adds to the state and that its value
is as some property of values and states says, in whatever the state grows into; so the property is
still there in the end. The main statement, `establishes_lowerWithin`, carries such a property of
codes through all levels, remembered fragments included.
-/

namespace EventFormula

/-- The second state has all that is recorded in the first, and the same object is current. -/
structure State.Grows (first second : State) : Prop where
  current : second.context.current = first.context.current
  needed : first.context.needed ⊆ second.context.needed
  includes : first.includes ⊆ second.includes

namespace State

theorem Grows.refl (state : State) : state.Grows state :=
  ⟨rfl, List.Subset.refl _, List.Subset.refl _⟩

theorem Grows.trans {first second third : State} (h : first.Grows second)
    (hrest : second.Grows third) : first.Grows third :=
  ⟨hrest.current.trans h.current, List.Subset.trans h.needed hrest.needed,
    List.Subset.trans h.includes hrest.includes⟩

theorem grows_settle (state : State) (kind : Expression.Kind) (e : Expression)
    (result : Except Failure String) : state.Grows (state.settle kind e result) := by
  obtain ⟨lowered, h⟩ := state.settle_eq kind e result
  rw [h]
  exact ⟨rfl, List.Subset.refl _, List.Subset.refl _⟩

theorem grows_enter (state : State) : state.Grows state.enter :=
  ⟨rfl, List.Subset.refl _, List.Subset.refl _⟩

theorem grows_leave (state : State) : state.Grows state.leave :=
  ⟨rfl, List.Subset.refl _, List.Subset.refl _⟩

end State

/-- Every file is kept, and one that is to be recorded is there from then on. -/
structure Target.Collecting (target : Target) : Prop where
  keeps : ∀ path files, files ⊆ target.record path files
  records : ∀ {path} files, path ≠ "" → path ∈ target.record path files

/-- From a state that is as `I` says, the action only adds to what is recorded and leads to such a
state again, and its value is as `Q` says in each state which that grows into. -/
def Establishes {α : Type} (I : State → Prop) (action : StateM State α) (Q : α → State → Prop) :
    Prop :=
  ∀ state, I state → state.Grows (action state).2 ∧ I (action state).2 ∧
    ∀ final, (action state).2.Grows final → Q (action state).1 final

section Rules
variable {α β : Type} {handler : Script.Handler (StateM State)} {I : State → Prop}
  {Q R : α → State → Prop}

theorem Establishes.done {value : α} (h : ∀ final, Q value final) :
    Establishes I ((Script.done value).run handler) Q :=
  fun state hI => ⟨.refl state, hI, fun final _ => h final⟩

theorem Establishes.weaken {action : StateM State α} (ha : Establishes I action Q)
    (h : ∀ value final, Q value final → R value final) : Establishes I action R := by
  intro state hI
  obtain ⟨hgrows, hend, hQ⟩ := ha state hI
  exact ⟨hgrows, hend, fun final hfinal => h _ final (hQ final hfinal)⟩

/-- What comes after can rely on what has been established. -/
theorem Establishes.bind {script : Script α} {f : α → Script β} {S : β → State → Prop}
    (hs : Establishes I (script.run handler) Q)
    (hf : ∀ value, Establishes I ((f value).run handler) fun result final =>
      Q value final → S result final) : Establishes I ((script >>= f).run handler) S := by
  intro state hI
  rw [Script.run_then]
  obtain ⟨hgrows, hmiddle, hQ⟩ := hs state hI
  obtain ⟨hrest, hend, hS⟩ := hf _ _ hmiddle
  exact ⟨hgrows.trans hrest, hend,
    fun final hfinal => hS final hfinal (hQ final (hrest.trans hfinal))⟩

end Rules

namespace Generator

variable {generator : Generator} {Q : Expression.Kind → Expression → String → State → Prop}

/-- If the result is a code, that is as `Q` says. -/
def Owed (Q : Expression.Kind → Expression → String → State → Prop) (kind : Expression.Kind)
    (e : Expression) (result : Except Failure String) (final : State) : Prop :=
  ∀ code, result = .ok code → Q kind e code final

/-- Each fragment that is remembered is as `Q` says. -/
def Kept (Q : Expression.Kind → Expression → String → State → Prop) (state : State) : Prop :=
  ∀ kind e code, state.context.remembered? kind e = some code →
    ∀ final, state.Grows final → Q kind e code final

theorem kept_of_idle {state : State} (h : state.context.Idle) : Kept Q state := by
  intro kind e code hcode
  rw [Context.remembered?_of_idle h] at hcode
  cases hcode

theorem Kept.grows {state next : State} (hkept : Kept Q state) (hgrows : state.Grows next)
    (hsame : next.context.lowered = state.context.lowered) : Kept Q next := by
  intro kind e code hcode final hfinal
  have hbefore : state.context.remembered? kind e = some code := by
    rwa [Context.remembered?, ← hsame]
  exact hkept kind e code hbefore final (hgrows.trans hfinal)

section Requests
variable {lower : Expression.Kind → Expression → StateM State (Except Failure String)}

/-- A file that is named is included from then on. -/
theorem establishes_requireFile (hcollects : generator.target.Collecting) (file : Option String) :
    Establishes (Kept Q) ((requireFile file).run (generator.handler lower)) fun _ final =>
      ∀ path, file = some path → path ≠ "" → path ∈ final.includes := by
  cases file with
  | none => exact Establishes.done fun final path h => by cases h
  | some path =>
    by_cases hempty : path = ""
    · simp only [requireFile, hempty, if_true]
      exact Establishes.done fun final other h hother => absurd (Option.some.inj h).symm hother
    · simp only [requireFile, hempty, if_false]
      intro state hkept
      have hgrows : state.Grows
          { state with includes := generator.target.record path state.includes } :=
        ⟨rfl, List.Subset.refl _, hcollects.keeps path state.includes⟩
      refine ⟨hgrows, hkept.grows hgrows rfl, fun final hfinal other h _ => ?_⟩
      rw [← Option.some.inj h]
      exact hfinal.includes (hcollects.records _ hempty)

theorem establishes_need (object : String) :
    Establishes (Kept Q) ((Script.need object).run (generator.handler lower)) fun _ final =>
      object ∈ final.context.needed := by
  intro state hkept
  have hgrows : state.Grows { state with context := state.context.need object } := by
    refine ⟨?_, fun name hname => Context.mem_need.2 (Or.inl hname), List.Subset.refl _⟩
    rw [Context.need_eq]
  have hsame : (state.context.need object).lowered = state.context.lowered := by
    rw [Context.need_eq]
  exact ⟨hgrows, hkept.grows hgrows hsame,
    fun final hfinal => hfinal.needed (Context.mem_need.2 (Or.inr rfl))⟩

theorem establishes_view :
    Establishes (Kept Q) (Script.view.run (generator.handler lower)) fun view final =>
      view.current = final.context.current :=
  fun state hkept => ⟨.refl state, hkept, fun _ hfinal => hfinal.current.symm⟩

end Requests

section Lowerings
variable {state middle : State} {kind : Expression.Kind} {e : Expression}

/-- A result that is as it has to be can be remembered. -/
theorem kept_settle {result : Except Failure String} (hkept : Kept Q state)
    (hresult : ∀ final, state.Grows final → Owed Q kind e result final) :
    Kept Q (state.settle kind e result) := by
  intro other f code hcode final hfinal
  have hgrows := (state.grows_settle kind e result).trans hfinal
  by_cases hdepth : state.context.depth = 0
  · rw [settle_of_depth hdepth] at hcode
    cases hcode
  · cases result with
    | error failure =>
      simp only [State.settle, Context.settle, hdepth, if_false] at hcode
      exact hkept other f code hcode final hgrows
    | ok found =>
      rw [State.settle_ok hdepth] at hcode
      rcases Context.remembered?_remember_cases hcode with ⟨rfl, rfl, rfl⟩ | hcode
      · exact hresult final hgrows _ rfl
      · exact hkept other f code hcode final hgrows

theorem settled {result : Except Failure String} (hgrows : state.Grows middle)
    (hkept : Kept Q middle) (hresult : ∀ final, middle.Grows final → Owed Q kind e result final) :
    state.Grows (middle.settle kind e result) ∧ Kept Q (middle.settle kind e result) ∧
      ∀ final, (middle.settle kind e result).Grows final → Owed Q kind e result final := by
  have hsettle := middle.grows_settle kind e result
  refine ⟨hgrows.trans hsettle, kept_settle hkept hresult, ?_⟩
  intro final hfinal
  exact hresult final (hsettle.trans hfinal)

/-- A fragment that is used again is as it has to be. -/
theorem Kept.recalled {code : String} (hkept : Kept Q state)
    (hcode : state.context.remembered? kind e = some code) (levels : Nat) :
    state.Grows (generator.lowerWithin Context.remembered? levels kind e state).2 ∧
      Kept Q (generator.lowerWithin Context.remembered? levels kind e state).2 ∧
      ∀ final, (generator.lowerWithin Context.remembered? levels kind e state).2.Grows final →
        Owed Q kind e (generator.lowerWithin Context.remembered? levels kind e state).1 final := by
  rw [lowerWithin_of_recall generator hcode]
  refine ⟨.refl state, hkept, ?_⟩
  intro final hfinal found hfound
  cases hfound
  exact hkept kind e code hcode final hfinal

end Lowerings

/-- If the script of each expression establishes what its code owes, given that the lowerings which
it asks for do, then all lowerings do. -/
theorem establishes_lowerWithin
    (hscript : ∀ lower, (∀ kind e, Establishes (Kept Q) (lower kind e) (Owed Q kind e)) →
      ∀ kind e, Establishes (Kept Q) ((generator.script kind e).run (generator.handler lower))
        (Owed Q kind e))
    (levels : Nat) (kind : Expression.Kind) (e : Expression) :
    Establishes (Kept Q) (generator.lowerWithin Context.remembered? levels kind e)
      (Owed Q kind e) := by
  induction levels generalizing kind e with
  | zero =>
    intro state hkept
    cases hcode : state.context.remembered? kind e with
    | some code => exact hkept.recalled hcode 0
    | none =>
      rw [lowerWithin_zero generator hcode]
      exact settled (.refl state) hkept fun final _ code hfound => by cases hfound
  | succ levels ih =>
    intro state hkept
    cases hcode : state.context.remembered? kind e with
    | some code => exact hkept.recalled hcode (levels + 1)
    | none =>
      rw [lowerWithin_succ generator hcode]
      -- one level more or less makes no difference to what is recorded or remembered
      have henter : Kept Q state.enter := hkept.grows state.grows_enter rfl
      obtain ⟨hgrows, hend, hresult⟩ := hscript _ ih kind e state.enter henter
      have hleave := (generator.ended Context.remembered? levels kind e state).2.grows_leave
      refine settled ((state.grows_enter.trans hgrows).trans hleave) (hend.grows hleave rfl) ?_
      intro final hfinal
      exact hresult final (hleave.trans hfinal)

end Generator
end EventFormula
