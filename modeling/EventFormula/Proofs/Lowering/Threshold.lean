import EventFormula.Proofs.Lowering.Ending
import EventFormula.Proofs.Lowering.Once
import EventFormula.Proofs.Trace.Levels

/-!
# The threshold of the nesting limit

Where the designer has written all formulas that calls take and no call has a hook, each formula is
lowered at its own level, and what is asked for again is remembered. So a readable formula is
lowered exactly if the limit is not less than its nesting, and otherwise the first formula of the
level below the limit is refused. That is the main statement, `lower_threshold`.
-/

namespace EventFormula

open Trace (nesting below formulas Readable)

/-- The failure of the first formula that no level is left for, if there is one. -/
def Trace.refusal? (scope : Scope) (limit levels : Nat) (kind : Expression.Kind)
    (e : Expression) : Option Failure :=
  (below scope levels kind e).head?.map fun formula =>
    ⟨.nestingTooDeep limit, formula.2.span⟩

/-- The result is this failure, or code if there is none. -/
def Fails (failure : Option Failure) (result : Except Failure String) : Prop :=
  match failure with
  | some failure => result = .error failure
  | none => ∃ code, result = .ok code

/-- The fragment has noted this failure; if there is none, all events shown to it were accepted. -/
structure Fragment.Notes (failure : Option Failure) (shown : Except Failure Unit × Fragment) :
    Prop where
  noted : shown.2.firstFailure = failure
  accepted : failure = none → shown.1 = .ok ()

theorem Trace.refusal?_succ (scope : Scope) (limit levels : Nat) (kind : Expression.Kind)
    (e : Expression) :
    refusal? scope limit (levels + 1) kind e
      = (formulas (ofExpression scope kind e).events).findSome? fun formula =>
          refusal? scope limit levels formula.1 formula.2 := by
  rw [refusal?, below, List.head?_flatMap, List.map_findSome?]
  rfl

namespace Generator

variable {generator : Generator} {current : Option String} {limit : Nat}

section Steps
variable {lower : Expression.Kind → Expression → StateM State (Except Failure String)}
  {inner : Expression.Kind → Expression → State → List LogEntry}
  {known : List (Expression.Kind × Expression)} {first position : Nat} {start state : State}
  {fragment : Fragment} {refusal : Expression.Kind × Expression → Option Failure}

/-- The failure that a fragment notes is that of the first formula which has to fail. -/
theorem notes_shown (hplain : generator.target.Plain) (hrecalls : Recalls lower inner)
    (hkeeps : ∀ {kind e state}, state.context.Vouches generator.scope limit →
      (lower kind e state).2.context.Vouches generator.scope limit)
    {events : List Event} (honce : ∀ event ∈ events, generator.DoesOnce current lower inner event)
    (hfails : ∀ formula ∈ formulas events, ∀ state : State,
      state.context.Vouches generator.scope limit →
      (∀ entry ∈ state.context.lowered, entry.span.start < formula.2.base) →
        Fails (refusal formula) (lower formula.1 formula.2 state).1)
    (hsupplied : Trace.Supplied known events) {stop : Nat}
    (harranged : Expression.Arranged position ((formulas events).map Prod.snd) stop)
    (hreached : State.Reached start first position known current state)
    (hvouches : state.context.Vouches generator.scope limit)
    (hnone : fragment.firstFailure = none) :
    Fragment.Notes ((formulas events).findSome? refusal)
      ((Fragment.shown generator events fragment).run (generator.handler lower) state).1 := by
  induction events generalizing fragment state known position with
  | nil => exact ⟨hnone, fun _ => rfl⟩
  | cons event events ih =>
    obtain ⟨hevent, hevents⟩ := List.forall_mem_cons.1 honce
    -- an event that is accepted leaves the others as the first ones were
    have next {after : Fragment} (hnone : after.firstFailure = none)
        (hvisit : ((fragment.visit generator event).run (generator.handler lower) state).1
          = (.ok (), after))
        (hrest : (formulas (event :: events)).findSome? refusal
          = (formulas events).findSome? refusal) :
        Fragment.Notes ((formulas (event :: events)).findSome? refusal)
          ((Fragment.shown generator (event :: events) fragment).run (generator.handler lower)
            state).1 := by
      have hok := congrArg Prod.fst hvisit
      obtain ⟨-, _, _, hsupplied, harranged, hreached⟩ :=
        visit_once hplain hrecalls hevent hsupplied harranged hreached hok
      have hkept : ((fragment.visit generator event).run (generator.handler lower)
          state).2.context.Vouches generator.scope limit :=
        (preserves_vouches hkeeps).run _ hvouches
      have hothers : ∀ formula ∈ formulas events, formula ∈ formulas (event :: events) := by
        intro formula hmem
        exact Trace.mem_formulas.2 (List.mem_cons_of_mem _ (Trace.mem_formulas.1 hmem))
      rw [(Fragment.shown_cons_ok inner hok).1, hvisit, hrest]
      exact ih hevents (fun formula hmem => hfails formula (hothers formula hmem)) hsupplied
        harranged hreached hkept hnone
    by_cases hsilent : formulas [event] = []
    · obtain ⟨code, hcode⟩ := visit_silent hsilent fragment state
      have happended : (fragment.append code).firstFailure = none := hnone
      refine next happended hcode ?_
      rw [← List.singleton_append, Trace.Reader.formulas_append, hsilent, List.nil_append]
    · cases event with
      | argument kind e =>
        obtain ⟨hposition, hless, hafter⟩ := harranged
        have hbefore : ∀ entry ∈ state.context.lowered, entry.span.start < e.base :=
          fun entry hmem => Nat.lt_of_lt_of_le (hreached.start_lt entry hmem) hposition
        have hformula := hfails (kind, e) List.mem_cons_self state hvouches hbefore
        have hcons : formulas (.argument kind e :: events) = (kind, e) :: formulas events := rfl
        cases hrefusal : refusal (kind, e) with
        | none =>
          rw [hrefusal] at hformula
          obtain ⟨code, hcode⟩ := hformula
          refine next hnone (visit_of_ok hcode) ?_
          rw [hcons, List.findSome?_cons, hrefusal]
        | some failure =>
          rw [hrefusal] at hformula
          have hshown : ((Fragment.shown generator (.argument kind e :: events) fragment).run
              (generator.handler lower) state).1 = (.error failure, fragment.note failure) := by
            rw [Fragment.shown_cons, Script.run_then, visit_of_error hformula]
            rfl
          rw [hshown, hcons, List.findSome?_cons, hrefusal]
          refine ⟨?_, fun hnever => by cases hnever⟩
          rw [Fragment.note, hnone]
          rfl
      | _ => exact absurd rfl hsilent

end Steps

section Levels
variable {levels : Nat} {kind : Expression.Kind} {e : Expression} {state : State}

/-- A formula that is read to its end has the failure that was noted, if there is one. -/
theorem fails_finish {failure : Option Failure} {shown : Except Failure Unit × Fragment}
    {trace : Trace} (h : Fragment.Notes failure shown) (hread : trace.failure = none) :
    Fails failure (shown.2.finish (shown.1.bind fun _ => trace.result)) := by
  obtain ⟨hnoted, haccepted⟩ := h
  rw [Fragment.finish, hnoted]
  cases failure with
  | some failure => rfl
  | none =>
    rw [haccepted rfl, Trace.result, hread]
    exact ⟨shown.2.output, rfl⟩

/-- With so many levels left, the formulas of the level below them are the ones that are refused. -/
theorem fails_lowerWithin (hplain : generator.target.Plain)
    (hrange : Trace.InRange generator.scope kind e)
    (hhooks : ∀ call ∈ Trace.calls generator.scope kind e,
      generator.hookOf call.callable = none)
    (hsupplied : Trace.AllSupplied generator.scope kind e)
    (hreadable : Readable generator.scope kind e)
    (hvouches : state.context.Vouches generator.scope limit)
    (hbefore : ∀ entry ∈ state.context.lowered, entry.span.start < e.base) :
    Fails (Trace.refusal? generator.scope limit levels kind e)
      (generator.lowerWithin Context.remembered? levels kind e state).1 := by
  have hnew : state.context.remembered? kind e = none :=
    Context.remembered?_of_start_ne fun entry hmem => Nat.ne_of_lt (hbefore entry hmem)
  induction levels generalizing kind e state with
  | zero =>
    rw [lowerWithin_zero generator hnew, hvouches.limit_eq]
    rfl
  | succ levels ih =>
    obtain ⟨hread, hannounced⟩ := hreadable
    have honce : ∀ event ∈ (Trace.ofExpression generator.scope kind e).events,
        generator.DoesOnce state.context.current
          (generator.lowerWithin Context.remembered? levels) (generator.logWithin levels) event :=
      fun event hmem => doesOnce_of_mem hrange hhooks hsupplied
        (fun hrange hhooks hsupplied => lowersOnce_lowerWithin hplain hrange hhooks hsupplied) hmem
    have hfails : ∀ formula ∈ formulas (Trace.ofExpression generator.scope kind e).events,
        ∀ inside : State, inside.context.Vouches generator.scope limit →
          (∀ entry ∈ inside.context.lowered, entry.span.start < formula.2.base) →
            Fails (Trace.refusal? generator.scope limit levels formula.1 formula.2)
              (generator.lowerWithin Context.remembered? levels formula.1 formula.2 inside).1 := by
      intro formula hmem inside hvouches hbefore
      have hevent := Trace.mem_formulas.1 hmem
      refine ih (hrange.argument hevent) ?_ ?_ (hannounced formula hmem) hvouches hbefore
        (Context.remembered?_of_start_ne fun entry hentry => Nat.ne_of_lt (hbefore entry hentry))
      · intro call hcall
        exact hhooks call (Trace.mem_calls hevent hcall)
      · intro other hother
        exact hsupplied other (List.mem_cons_of_mem _ (Trace.mem_arguments hevent hother))
    have hkeeps : ∀ {kind e} {state : State}, state.context.Vouches generator.scope limit →
        (generator.lowerWithin Context.remembered? levels kind e state).2.context.Vouches
          generator.scope limit :=
      fun {kind e state} h => (ends_lowerWithin levels kind e state h).2
    have hnotes := notes_shown hplain
      (generator.recalls_lowerWithin levels) hkeeps honce hfails
      (hsupplied (kind, e) List.mem_cons_self) hrange.arranged (reached_enter rfl hbefore)
      (hvouches.of_eq rfl rfl) (rfl : ({} : Fragment).firstFailure = none)
    rw [lowerWithin_succ generator hnew, ended, script, Fragment.ofTrace_eq, Script.run_then,
      Trace.refusal?_succ]
    exact fails_finish hnotes hread

/-- So for the outermost lowering the level that counts is given by the limit. -/
theorem fails_lower (hplain : generator.target.Plain)
    (hrange : Trace.InRange generator.scope kind e)
    (hhooks : ∀ call ∈ Trace.calls generator.scope kind e,
      generator.hookOf call.callable = none)
    (hsupplied : Trace.AllSupplied generator.scope kind e)
    (hreadable : Readable generator.scope kind e) (hidle : state.context.Idle) :
    Fails (Trace.refusal? generator.scope state.context.maxDepth state.context.maxDepth kind e)
      (generator.lower kind e state).1 := by
  have hlevels : state.context.levels = state.context.maxDepth := by
    rw [Context.levels, hidle.1, Nat.sub_zero]
  show Fails _ (generator.lowerWithin _ state.context.levels kind e state).1
  rw [hlevels]
  exact fails_lowerWithin hplain hrange hhooks hsupplied hreadable
    (Context.vouches_of_idle hidle) (hidle.2 ▸ List.forall_mem_nil _)

end Levels

end Generator

namespace JavaScript

/-- Let a formula be lowered to code under some limit, no call in it have a hook, and the designer
have written the formulas that its calls take. Then it is lowered under those limits that are not
less than its nesting. Any other limit has the first formula of the level behind it refused, which
starts before all others of that level. `Trace.InRange` leaves out texts longer than 32 bits count,
and those in which an argument starts past that, where adding up offsets overflows. -/
theorem lower_threshold (scope : Scope) (hooks : Table Hook) {kind : Expression.Kind}
    {e : Expression} (hrange : Trace.InRange scope kind e)
    (hhooks : ∀ call ∈ Trace.calls scope kind e,
      (generatorWith scope hooks).hookOf call.callable = none)
    (hsupplied : Trace.AllSupplied scope kind e) {before : State} {code : String}
    (hstart : before.context.Idle)
    (hcode : ((generatorWith scope hooks).lower kind e before).1 = .ok code) {state : State}
    (hidle : state.context.Idle) :
    let limit := state.context.maxDepth
    let result := ((generatorWith scope hooks).lower kind e state).1
    ((∃ code, result = .ok code) ↔ nesting scope kind e ≤ limit) ∧
      (limit < nesting scope kind e → ∃ first rest, below scope limit kind e = first :: rest ∧
        (∀ other ∈ rest, first.2.span.start < other.2.span.start) ∧
        result = .error ⟨.nestingTooDeep limit, first.2.span⟩) := by
  intro limit result
  have hends : Trace.Ends (generatorWith scope hooks).scope before.context.maxDepth
      before.context.maxDepth kind e ((generatorWith scope hooks).lower kind e before).1 :=
    Generator.ends_lower hstart
  rw [hcode] at hends
  have hfails : Fails (Trace.refusal? scope limit limit kind e) result :=
    Generator.fails_lower (plain_target scope) hrange hhooks hsupplied hends.readable hidle
  rw [Trace.refusal?] at hfails
  have hstarts := hrange.below limit
  rw [← Nat.not_le, ← Trace.below_eq_nil_iff]
  cases hbelow : below scope limit kind e with
  | nil =>
    rw [hbelow] at hfails
    exact ⟨iff_of_true hfails rfl, fun hsome => absurd rfl hsome⟩
  | cons first rest =>
    rw [hbelow] at hfails hstarts
    have hrefused : result = .error ⟨.nestingTooDeep limit, first.2.span⟩ := hfails
    constructor
    · constructor
      · rintro ⟨found, hfound⟩
        rw [hrefused] at hfound
        cases hfound
      · intro hnone
        cases hnone
    · intro _
      refine ⟨first, rest, rfl, fun other hmem => ?_, hrefused⟩
      rw [Expression.start_span, Expression.start_span]
      exact (List.pairwise_cons.1 hstarts).1 other hmem

/-- `F(G(),F(1,G()))` has three levels. Two will not do: `1` comes first in the third. -/
theorem lower_threshold_pairs :
    let e := Expression.ofText "F(G(),F(1,G()))"
    Trace.InRange .pairs .number e ∧
      (∀ call ∈ Trace.calls .pairs .number e,
        (generatorWith .pairs hooks).hookOf call.callable = none) ∧
      Trace.AllSupplied .pairs .number e ∧
      (State.initial 4).context.Idle ∧
      ((generatorWith .pairs hooks).lower .number e (.initial 4)).1
        = .ok "f(g(), f(1.0, g()))" ∧
      nesting .pairs .number e = 3 ∧
      (∃ code, ((generatorWith .pairs hooks).lower .number e (.initial 3)).1 = .ok code) ∧
      ((generatorWith .pairs hooks).lower .number e (.initial 2)).1
        = .error ⟨.nestingTooDeep 2, ⟨8, 9⟩⟩ := by
  intro e
  have hrange : Trace.InRange .pairs .number e := Trace.inRange_of_stop_le (by decide +kernel)
  have hhooks : ∀ call ∈ Trace.calls .pairs .number e,
      (generatorWith .pairs hooks).hookOf call.callable = none := by
    decide +kernel
  have hsupplied : Trace.AllSupplied .pairs .number e := by decide +kernel
  have hidle (limit : Nat) : (State.initial limit).context.Idle :=
    Context.idle_fresh none (some limit)
  have hcode : ((generatorWith .pairs hooks).lower .number e (.initial 4)).1
      = .ok "f(g(), f(1.0, g()))" :=
    Except.eq_ok_of_toOption (by decide +kernel)
  have hnesting : nesting .pairs .number e = 3 := by decide +kernel
  have hbelow : below .pairs 2 .number e
      = [(.number, .place "1" 8), (.number, .place "G()" 10)] := by
    decide +kernel
  obtain ⟨henough, -⟩ :=
    lower_threshold .pairs hooks hrange hhooks hsupplied (hidle 4) hcode (hidle 3)
  obtain ⟨-, hrefused⟩ :=
    lower_threshold .pairs hooks hrange hhooks hsupplied (hidle 4) hcode (hidle 2)
  refine ⟨hrange, hhooks, hsupplied, hidle 4, hcode, hnesting, ?_, ?_⟩
  · exact henough.2 (Nat.le_of_eq hnesting)
  · have hless : 2 < nesting .pairs .number e := by
      rw [hnesting]
      decide
    obtain ⟨first, rest, hfirst, -, hresult⟩ := hrefused hless
    have hsame : first :: rest = [(.number, .place "1" 8), (.number, .place "G()" 10)] :=
      hfirst.symm.trans hbelow
    cases hsame
    exact hresult

end JavaScript
end EventFormula
