import EventFormula.Proofs.Lowering.Course
import EventFormula.Proofs.Trace.Sites
import EventFormula.Trace.Arguments

/-!
# How lowerings end

Which code a lowering yields depends on the target and the hooks, on the current object and on the
fragments that are remembered. Whether it fails, and with what, depends on the formula and the limit
alone, but for what has been recalled: the judgment `Ends` says so, and `ends_lowerWithin` that
every lowering follows it. What is recalled only ever stands for a readable formula.
-/

namespace EventFormula

namespace Trace

/-- The formula is read without a failure, and so is every formula that it announces. -/
inductive Readable (scope : Scope) : Expression.Kind → Expression → Prop where
  | intro {kind : Expression.Kind} {e : Expression}
      (hread : (ofExpression scope kind e).failure = none)
      (hannounced : ∀ formula ∈ formulas (ofExpression scope kind e).events,
        Readable scope formula.1 formula.2) : Readable scope kind e

/-- The formula is not read to its end, though every formula that it announces is readable. -/
structure Unread (scope : Scope) (kind : Expression.Kind) (e : Expression) (failure : Failure) :
    Prop where
  read : (ofExpression scope kind e).failure = some failure
  announced : ∀ formula ∈ formulas (ofExpression scope kind e).events,
    Readable scope formula.1 formula.2

/-- The formulas that are announced nest at most so deep, this one included. -/
def Nests (scope : Scope) : (levels : Nat) → Expression.Kind → Expression → Prop
  | 0, _, _ => False
  | levels + 1, kind, e =>
    ∀ formula ∈ formulas (ofExpression scope kind e).events, Nests scope levels formula.1 formula.2

/-- Something is refused for want of a level, and the formula nests more deeply than the levels. -/
def TooDeep (scope : Scope) (limit levels : Nat) (kind : Expression.Kind) (e : Expression)
    (result : Except Failure String) : Prop :=
  ¬ Nests scope levels kind e ∧ ∃ span, result = .error ⟨.nestingTooDeep limit, span⟩

/-- The ways in which a lowering with so many levels can end: with code for a readable formula,
refused, with the failure of a formula that is not read to its end, or with that of the first
argument that is not lowered. -/
inductive Ends (scope : Scope) (limit : Nat) :
    (levels : Nat) → Expression.Kind → Expression → Except Failure String → Prop where
  | code {levels : Nat} {kind : Expression.Kind} {e : Expression} {code : String}
      (h : Readable scope kind e) : Ends scope limit levels kind e (.ok code)
  | refused {kind : Expression.Kind} {e : Expression} :
      Ends scope limit 0 kind e (.error ⟨.nestingTooDeep limit, e.span⟩)
  | unread {levels : Nat} {kind : Expression.Kind} {e : Expression} {failure : Failure}
      (h : Unread scope kind e failure) : Ends scope limit (levels + 1) kind e (.error failure)
  | argument {levels : Nat} {kind : Expression.Kind} {e : Expression} {failure : Failure}
      {before after : List (Expression.Kind × Expression)}
      {formula : Expression.Kind × Expression}
      (hformulas : formulas (ofExpression scope kind e).events = before ++ formula :: after)
      (hbefore : ∀ other ∈ before, Readable scope other.1 other.2)
      (h : Ends scope limit levels formula.1 formula.2 (.error failure)) :
      Ends scope limit (levels + 1) kind e (.error failure)

section Endings
variable {scope : Scope} {limit levels : Nat} {kind : Expression.Kind} {e : Expression}
  {result : Except Failure String}

theorem Ends.readable {code : String} (h : Ends scope limit levels kind e (.ok code)) :
    Readable scope kind e := by
  obtain ⟨hreadable⟩ := h
  exact hreadable

theorem TooDeep.around {formula : Expression.Kind × Expression}
    (h : TooDeep scope limit levels formula.1 formula.2 result)
    (hmem : formula ∈ formulas (ofExpression scope kind e).events) :
    TooDeep scope limit (levels + 1) kind e result :=
  ⟨fun hnests => h.1 (hnests formula hmem), h.2⟩

/-- A readable formula is lowered, or something in it is refused. -/
theorem Ends.of_readable (h : Ends scope limit levels kind e result)
    (hreadable : Readable scope kind e) :
    (∃ code, result = .ok code) ∨ TooDeep scope limit levels kind e result := by
  induction h with
  | code _ => exact Or.inl ⟨_, rfl⟩
  | refused => exact Or.inr ⟨id, _, rfl⟩
  | unread h =>
    obtain ⟨hread, -⟩ := hreadable
    rw [h.read] at hread
    cases hread
  | @argument _ kind e _ before after formula hformulas _ _ ih =>
    obtain ⟨-, hannounced⟩ := hreadable
    have hmem : formula ∈ formulas (ofExpression scope kind e).events :=
      hformulas ▸ List.mem_append_cons_self
    rcases ih (hannounced formula hmem) with ⟨code, hcode⟩ | hdeep
    · cases hcode
    · exact Or.inr (hdeep.around hmem)

/-- A formula that is not read to its end fails there, or something in it is refused. -/
theorem Ends.of_unread {failure : Failure} (h : Ends scope limit levels kind e result)
    (hunread : Unread scope kind e failure) :
    result = .error failure ∨ TooDeep scope limit levels kind e result := by
  cases h with
  | code h =>
    obtain ⟨hread, -⟩ := h
    rw [hunread.read] at hread
    cases hread
  | refused => exact Or.inr ⟨id, _, rfl⟩
  | unread h =>
    have hsame := h.read.symm.trans hunread.read
    cases hsame
    exact Or.inl rfl
  | @argument _ _ _ _ before after formula hformulas _ h =>
    have hmem : formula ∈ formulas (ofExpression scope kind e).events :=
      hformulas ▸ List.mem_append_cons_self
    rcases h.of_readable (hunread.announced formula hmem) with ⟨code, hcode⟩ | hdeep
    · cases hcode
    · exact Or.inr (hdeep.around hmem)

end Endings

/-- How events are shown to a fragment: all formulas among them are lowered and found good, or the
first that fails to be lowered ends the matter. -/
inductive Shown (good : Expression.Kind → Expression → Prop)
    (fails : Expression.Kind → Expression → Failure → Prop) (events : List Event) :
    Except Failure Unit × Fragment → Prop where
  | all {fragment : Fragment}
      (hgood : ∀ formula ∈ formulas events, good formula.1 formula.2)
      (hnone : fragment.firstFailure = none) : Shown good fails events (.ok (), fragment)
  | refused {fragment : Fragment} {failure : Failure}
      {before after : List (Expression.Kind × Expression)}
      {formula : Expression.Kind × Expression}
      (hformulas : formulas events = before ++ formula :: after)
      (hbefore : ∀ other ∈ before, good other.1 other.2)
      (hfails : fails formula.1 formula.2 failure)
      (hnoted : fragment.firstFailure = some failure) :
      Shown good fails events (.error failure, fragment)

section Showing
variable {good : Expression.Kind → Expression → Prop}
  {fails : Expression.Kind → Expression → Failure → Prop} {event : Event} {events : List Event}
  {ended : Except Failure Unit × Fragment}

theorem Shown.silent (h : Shown good fails events ended) (hevent : formulas [event] = []) :
    Shown good fails (event :: events) ended := by
  have heq : formulas (event :: events) = formulas events := by
    rw [← List.singleton_append, Reader.formulas_append, hevent, List.nil_append]
  cases h with
  | all hgood hnone => exact .all (heq ▸ hgood) hnone
  | refused hformulas hbefore hfails hnoted =>
    exact .refused (heq.trans hformulas) hbefore hfails hnoted

theorem Shown.accepted (h : Shown good fails events ended) {kind : Expression.Kind}
    {e : Expression} (hgood : good kind e) :
    Shown good fails (.argument kind e :: events) ended := by
  have heq : formulas (.argument kind e :: events) = (kind, e) :: formulas events := rfl
  cases h with
  | all hrest hnone =>
    refine .all (fun formula hmem => ?_) hnone
    rw [heq] at hmem
    rcases List.mem_cons.1 hmem with rfl | hmem
    · exact hgood
    · exact hrest formula hmem
  | @refused _ _ before after formula hformulas hbefore hfails hnoted =>
    have hsplit : formulas (.argument kind e :: events)
        = ((kind, e) :: before) ++ formula :: after := by
      rw [heq, hformulas, List.cons_append]
    refine .refused hsplit (fun other hmem => ?_) hfails hnoted
    rcases List.mem_cons.1 hmem with rfl | hmem
    · exact hgood
    · exact hbefore other hmem

end Showing
end Trace

namespace Context

open Trace

/-- The limit of the context is this, and the fragments that it remembers are those of readable
formulas. -/
structure Vouches (scope : Scope) (limit : Nat) (context : Context) : Prop where
  limit_eq : context.maxDepth = limit
  lowered : ∀ {kind e code}, context.remembered? kind e = some code → Readable scope kind e

variable {scope : Scope} {limit : Nat} {context other : Context}

theorem vouches_of_idle (h : context.Idle) : context.Vouches scope context.maxDepth where
  limit_eq := rfl
  lowered hcode := by
    rw [remembered?_of_idle h] at hcode
    cases hcode

theorem Vouches.of_eq (h : context.Vouches scope limit) (hlimit : other.maxDepth = context.maxDepth)
    (hlowered : other.lowered = context.lowered) : other.Vouches scope limit where
  limit_eq := hlimit.trans h.limit_eq
  lowered hcode := by
    rw [remembered?, hlowered] at hcode
    exact h.lowered hcode

end Context

/-- The end of a lowering leaves a fragment behind at most if there is code. -/
theorem State.vouches_settle {scope : Scope} {limit : Nat} {state : State} {kind : Expression.Kind}
    {e : Expression} {result : Except Failure String} (h : state.context.Vouches scope limit)
    (hresult : ∀ code, result = .ok code → Trace.Readable scope kind e) :
    (state.settle kind e result).context.Vouches scope limit := by
  unfold State.settle Context.settle
  split
  · exact ⟨h.limit_eq, fun hcode => by cases hcode⟩
  · cases result with
    | error failure => exact h
    | ok code =>
      refine ⟨h.limit_eq, fun hcode => ?_⟩
      rcases Context.remembered?_remember_cases hcode with ⟨rfl, rfl, -⟩ | hearlier
      · exact hresult code rfl
      · exact h.lowered hearlier

namespace Generator

open Trace (Shown Readable Ends)

variable {generator : Generator}
  {lower : Expression.Kind → Expression → StateM State (Except Failure String)}

section Visits
variable {fragment : Fragment} {state : State}

/-- Any event but the announcement of a formula is accepted. -/
theorem visit_silent {event : Event} (hevent : Trace.formulas [event] = []) (fragment : Fragment)
    (state : State) :
    ∃ code, ((fragment.visit generator event).run (generator.handler lower) state).1
      = (.ok (), fragment.append code) := by
  cases event with
  | constant text => exact ⟨text, rfl⟩
  | operator text => exact ⟨text, rfl⟩
  | number text => exact ⟨Fragment.numberCode text, rfl⟩
  | argument kind e => cases hevent
  | call call =>
    refine ⟨((generator.callCode call).run (generator.handler lower) state).1, ?_⟩
    rw [Fragment.visit, Script.run_then]
    rfl

theorem visit_of_ok {kind : Expression.Kind} {e : Expression} {code : String}
    (h : (lower kind e state).1 = .ok code) :
    ((fragment.visit generator (.argument kind e)).run (generator.handler lower) state).1
      = (.ok (), fragment) := by
  have hlower : ((Script.lower kind e).run (generator.handler lower) state).1 = .ok code := h
  rw [Fragment.visit_argument, Script.run_then, hlower]
  rfl

theorem visit_of_error {kind : Expression.Kind} {e : Expression} {failure : Failure}
    (h : (lower kind e state).1 = .error failure) :
    ((fragment.visit generator (.argument kind e)).run (generator.handler lower) state).1
      = (.error failure, fragment.note failure) := by
  have hlower : ((Script.lower kind e).run (generator.handler lower) state).1 = .error failure := h
  rw [Fragment.visit_argument, Script.run_then, hlower]
  rfl

end Visits

section Following
variable {I : State → Prop} {good : Expression.Kind → Expression → Prop}

/-- With lowerings that keep `I`, and yield code for good formulas only, events are shown until one
of the formulas fails. -/
theorem shown_run (preserves : (generator.handler lower).Preserves I)
    (hgood : ∀ {kind e state code}, I state → (lower kind e state).1 = .ok code → good kind e)
    (events : List Event) {fragment : Fragment} {state : State} (hI : I state)
    (hnone : fragment.firstFailure = none) :
    Shown good (fun kind e failure => ∃ state, I state ∧ (lower kind e state).1 = .error failure)
      events
      ((Fragment.shown generator events fragment).run (generator.handler lower) state).1 := by
  induction events generalizing fragment state with
  | nil => exact .all (fun _ hmem => absurd hmem List.not_mem_nil) hnone
  | cons event events ih =>
    have hkept : I ((fragment.visit generator event).run (generator.handler lower) state).2 :=
      preserves.run _ hI
    rw [Fragment.shown_cons, Script.run_then]
    by_cases hevent : Trace.formulas [event] = []
    · obtain ⟨code, hcode⟩ := visit_silent hevent fragment state
      have hnext : (fragment.append code).firstFailure = none := hnone
      rw [hcode]
      exact (ih hkept hnext).silent hevent
    · cases event with
      | argument kind e =>
        cases hresult : (lower kind e state).1 with
        | ok code =>
          rw [visit_of_ok hresult]
          exact (ih hkept hnone).accepted (hgood hI hresult)
        | error failure =>
          have hformulas : Trace.formulas (.argument kind e :: events)
              = [] ++ (kind, e) :: Trace.formulas events := rfl
          have hnoted : (fragment.note failure).firstFailure = some failure := by
            rw [Fragment.note, hnone]
            rfl
          rw [visit_of_error hresult]
          exact .refused hformulas (fun _ hmem => absurd hmem List.not_mem_nil)
            ⟨state, hI, hresult⟩ hnoted
      | _ => exact absurd rfl hevent

end Following

variable {limit : Nat}

/-- Scripts keep to readable formulas if the lowerings that they ask for do. -/
theorem preserves_vouches
    (hlower : ∀ {kind e state}, state.context.Vouches generator.scope limit →
      (lower kind e state).2.context.Vouches generator.scope limit) :
    (generator.handler lower).Preserves
      fun state => state.context.Vouches generator.scope limit where
  lower := hlower
  require h := h
  need {object state} h := by
    show (state.context.need object).Vouches generator.scope limit
    rw [Context.need_eq]
    exact h.of_eq rfl rfl
  setCurrent h := h.of_eq rfl rfl
  view h := h

/-- The script for an expression ends as the judgment says, if the lowerings that it asks for do. -/
theorem ends_script {levels : Nat}
    (hlower : ∀ kind e state, state.context.Vouches generator.scope limit →
      Ends generator.scope limit levels kind e (lower kind e state).1 ∧
        (lower kind e state).2.context.Vouches generator.scope limit)
    (kind : Expression.Kind) (e : Expression) {state : State}
    (h : state.context.Vouches generator.scope limit) :
    Ends generator.scope limit (levels + 1) kind e
        ((generator.script kind e).run (generator.handler lower) state).1 ∧
      ((generator.script kind e).run (generator.handler lower) state).2.context.Vouches
        generator.scope limit := by
  have preserves := preserves_vouches fun {kind e state} h => (hlower kind e state h).2
  have hgood {kind : Expression.Kind} {e : Expression} {state : State} {code : String}
      (h : state.context.Vouches generator.scope limit)
      (hcode : (lower kind e state).1 = .ok code) : Readable generator.scope kind e := by
    have hends := (hlower kind e state h).1
    rw [hcode] at hends
    exact hends.readable
  refine ⟨?_, preserves.run _ h⟩
  have hshown := shown_run preserves hgood (Trace.ofExpression generator.scope kind e).events h
    (rfl : ({} : Fragment).firstFailure = none)
  rw [script, Fragment.ofTrace_eq, Script.run_then]
  generalize ((Fragment.shown generator (Trace.ofExpression generator.scope kind e).events {}).run
    (generator.handler lower) state) = ended at hshown
  obtain ⟨answer, after⟩ := ended
  cases hshown with
  | all hgood hnone =>
    unfold Fragment.finish Trace.result
    rw [hnone]
    cases hread : (Trace.ofExpression generator.scope kind e).failure with
    | none => exact .code ⟨hread, hgood⟩
    | some failure => exact .unread ⟨hread, hgood⟩
  | @refused _ failure _ _ formula hformulas hbefore hfails hnoted =>
    obtain ⟨middle, hmiddle, hfailure⟩ := hfails
    have hends := (hlower formula.1 formula.2 middle hmiddle).1
    rw [hfailure] at hends
    unfold Fragment.finish
    rw [hnoted]
    exact .argument hformulas hbefore hends

/-- Every lowering ends as the judgment says, and leaves fragments of readable formulas behind. -/
theorem ends_lowerWithin (levels : Nat) (kind : Expression.Kind) (e : Expression) (state : State)
    (h : state.context.Vouches generator.scope limit) :
    Ends generator.scope limit levels kind e
        (generator.lowerWithin Context.remembered? levels kind e state).1 ∧
      (generator.lowerWithin Context.remembered? levels kind e state).2.context.Vouches
        generator.scope limit := by
  induction levels generalizing kind e state with
  | zero =>
    cases hcode : state.context.remembered? kind e with
    | some code =>
      rw [lowerWithin_of_recall generator hcode]
      exact ⟨.code (h.lowered hcode), h⟩
    | none =>
      rw [lowerWithin_zero generator hcode, h.limit_eq]
      exact ⟨.refused, State.vouches_settle h fun code hresult => by cases hresult⟩
  | succ levels ih =>
    cases hcode : state.context.remembered? kind e with
    | some code =>
      rw [lowerWithin_of_recall generator hcode]
      exact ⟨.code (h.lowered hcode), h⟩
    | none =>
      have henter : state.enter.context.Vouches generator.scope limit := h.of_eq rfl rfl
      obtain ⟨hends, hended⟩ := ends_script ih kind e henter
      change Ends generator.scope limit (levels + 1) kind e
        (generator.ended Context.remembered? levels kind e state).1 at hends
      change (generator.ended Context.remembered? levels kind e state).2.context.Vouches
        generator.scope limit at hended
      have hleave :
          (generator.ended Context.remembered? levels kind e state).2.leave.context.Vouches
            generator.scope limit := hended.of_eq rfl rfl
      rw [lowerWithin_succ generator hcode]
      refine ⟨hends, State.vouches_settle hleave fun code hresult => ?_⟩
      rw [hresult] at hends
      exact hends.readable

/-- So does the outermost one, with as many levels as its context allows. -/
theorem ends_lower {kind : Expression.Kind} {e : Expression} {state : State}
    (h : state.context.Idle) :
    Ends generator.scope state.context.maxDepth state.context.maxDepth kind e
      (generator.lower kind e state).1 := by
  have hlevels : state.context.levels = state.context.maxDepth := by
    rw [Context.levels, h.1, Nat.sub_zero]
  have hvouches : state.context.Vouches generator.scope state.context.maxDepth :=
    Context.vouches_of_idle h
  have hends := (ends_lowerWithin state.context.maxDepth kind e state hvouches).1
  rw [← hlevels] at hends ⊢
  exact hends

end Generator
end EventFormula
