import EventFormula.Proofs.Lowering.Ending

/-!
# The earliest failure

The failure that is reported for a formula is, as a rule, the earliest one: a formula that is
written in a call and ends before it is lowered by itself. One that breaks off ends where its own
failure is. Apart from that there are two exceptions by design. The parentheses of a call are looked
for, and its arguments counted and matched with its parameters, before any argument is lowered; so a
string that is not closed or an argument that is missing comes before what is wrong with the
arguments in front of it. And a fragment that is remembered is used again at any depth, so a formula
that is nested too deeply by itself need not be so in its place.
-/

namespace EventFormula

instance decidableEqError {ε α : Type} [DecidableEq ε] (result : Except ε α) (failure : ε) :
    Decidable (result = .error failure) :=
  match result with
  | .ok _ => .isFalse fun h => by cases h
  | .error other => decidable_of_iff (other = failure)
    ⟨congrArg Except.error, fun h => Except.error.inj h⟩

namespace Trace

/-- All calls count that are clear. -/
def Site.clear (reader : Reader) (site : Site) : Bool := decide (site.Clear reader)

/-- The formulas among the arguments of those calls in an expression that count. -/
def written (scope : Scope) (counts : Reader → Site → Bool) (kind : Expression.Kind)
    (e : Expression) : List (Expression.Kind × Expression) :=
  ((sites scope kind e).filter (counts (Reader.ofExpression scope kind e))).flatMap
    (Site.formulas (Reader.ofExpression scope kind e))

/-- The formula is an argument of a call in the expression, or of one in such an argument, and so
on; all these calls count. -/
inductive Written (scope : Scope) (counts : Reader → Site → Bool) :
    Expression.Kind → Expression → Expression.Kind × Expression → Prop where
  | direct {kind : Expression.Kind} {e : Expression} {formula : Expression.Kind × Expression}
      (h : formula ∈ written scope counts kind e) : Written scope counts kind e formula
  | within {kind : Expression.Kind} {e : Expression} {outer formula : Expression.Kind × Expression}
      (houter : outer ∈ written scope counts kind e)
      (hinner : Written scope counts outer.1 outer.2 formula) :
      Written scope counts kind e formula

section Placing
variable {scope : Scope} {counts : Reader → Site → Bool} {kind : Expression.Kind} {e : Expression}
  {formula : Expression.Kind × Expression} {failure : Failure}

theorem mem_written : formula ∈ written scope counts kind e ↔
    ∃ site ∈ sites scope kind e, counts (Reader.ofExpression scope kind e) site = true ∧
      formula ∈ site.formulas (Reader.ofExpression scope kind e) := by
  simp only [written, List.mem_flatMap, List.mem_filter, and_assoc]

theorem mem_sites_of_written (h : formula ∈ written scope counts kind e) :
    formula ∈ (sites scope kind e).flatMap (Site.formulas (Reader.ofExpression scope kind e)) := by
  obtain ⟨site, hsite, -, hformula⟩ := mem_written.1 h
  exact List.mem_flatMap.2 ⟨site, hsite, hformula⟩

theorem place_of_written (hfits : e.stop ≤ maxOffset) (h : formula ∈ written scope counts kind e) :
    e.base ≤ formula.2.base ∧ formula.2.base < formula.2.stop ∧ formula.2.stop ≤ e.stop :=
  (covered_ofExpression scope kind hfits).arranged.of_mem
    (List.mem_map_of_mem (mem_sites_of_written h))

/-- A written formula stands inside the expression. -/
theorem Written.place (h : Written scope counts kind e formula) (hfits : e.stop ≤ maxOffset) :
    e.base ≤ formula.2.base ∧ formula.2.base < formula.2.stop ∧ formula.2.stop ≤ e.stop := by
  induction h with
  | direct h => exact place_of_written hfits h
  | within houter _ ih =>
    have hplace := place_of_written hfits houter
    have hinner := ih (by omega)
    omega

/-- In a readable formula there is nothing to fail at, so all that is written has been announced. -/
theorem readable_of_written (hfits : e.stop ≤ maxOffset) (h : formula ∈ written scope counts kind e)
    (hreadable : Readable scope kind e) : Readable scope formula.1 formula.2 := by
  obtain ⟨hread, hannounced⟩ := hreadable
  obtain ⟨site, hsite, -, hformula⟩ := mem_written.1 h
  rcases (covered_ofExpression scope kind hfits).each site hsite with hall | ⟨failure, hfailure, -⟩
  · exact hannounced formula (hall formula hformula)
  · rw [hread] at hfailure
    cases hfailure

theorem Written.readable (h : Written scope counts kind e formula) (hfits : e.stop ≤ maxOffset)
    (hreadable : Readable scope kind e) : Readable scope formula.1 formula.2 := by
  induction h with
  | direct h => exact readable_of_written hfits h hreadable
  | within houter _ ih =>
    have hplace := place_of_written hfits houter
    exact ih (by omega) (readable_of_written hfits houter hreadable)

/-- The formula is in order, or ends right where the failure is, which is then its own. -/
def Settled (scope : Scope) (failure : Failure) (formula : Expression.Kind × Expression) : Prop :=
  Readable scope formula.1 formula.2 ∨
    formula.2.stop = failure.span.start ∧ Unread scope formula.1 formula.2 failure

/-- Where the failure of a lowering stands: not behind the expression, and behind nothing that is
written in clear calls and not settled. -/
structure Located (scope : Scope) (kind : Expression.Kind) (e : Expression) (failure : Failure) :
    Prop where
  inside : failure.span.start ≤ e.stop
  itself : e.base < e.stop → e.stop ≤ failure.span.start → Unread scope kind e failure
  written : ∀ formula, Written scope Site.clear kind e formula →
    formula.2.stop ≤ failure.span.start → Settled scope failure formula

theorem located_refused (limit : Nat) (hfits : e.stop ≤ maxOffset) :
    Located scope kind e ⟨.nestingTooDeep limit, e.span⟩ := by
  have hstart : e.span.start = e.base := Expression.start_span e
  constructor
  · show e.span.start ≤ e.stop
    rw [hstart]
    exact Nat.le_add_right ..
  · intro hless hbefore
    change e.stop ≤ e.span.start at hbefore
    omega
  · intro formula hwritten hbefore
    have hplace := hwritten.place hfits
    change formula.2.stop ≤ e.span.start at hbefore
    omega

theorem located_unread (hfits : e.stop ≤ maxOffset) (h : Unread scope kind e failure) :
    Located scope kind e failure := by
  have hcovered := covered_ofExpression scope kind hfits
  -- what is written in a call that the reader has not got past does not end before the failure
  have hdirect {formula : Expression.Kind × Expression}
      (hmem : formula ∈ Trace.written scope Site.clear kind e) :
      Readable scope formula.1 formula.2 ∨ failure.span.start ≤ formula.2.base := by
    obtain ⟨site, hsite, hclear, hformula⟩ := mem_written.1 hmem
    rcases hcovered.each site hsite with hall | ⟨other, hother, hbehind⟩
    · exact Or.inl (h.announced formula (hall formula hformula))
    · have hsame := hother.symm.trans h.read
      cases hsame
      exact Or.inr (hbehind (of_decide_eq_true hclear) formula hformula)
  refine ⟨hcovered.failure failure h.read, fun _ _ => h, fun formula hwritten hbefore => ?_⟩
  cases hwritten with
  | direct hmem =>
    have hplace := place_of_written hfits hmem
    rcases hdirect hmem with hreadable | hbehind
    · exact Or.inl hreadable
    · omega
  | within houter hinner =>
    have houterPlace := place_of_written hfits houter
    have hinnerPlace := hinner.place (by omega)
    rcases hdirect houter with hreadable | hbehind
    · exact Or.inl (hinner.readable (by omega) hreadable)
    · omega

/-- If an argument fails, those before it are in order, and those behind it are behind the failure.
-/
theorem located_argument (hfits : e.stop ≤ maxOffset)
    {before after : List (Expression.Kind × Expression)} {argument : Expression.Kind × Expression}
    (hformulas : formulas (ofExpression scope kind e).events = before ++ argument :: after)
    (hbefore : ∀ other ∈ before, Readable scope other.1 other.2)
    (hlocated : argument.2.stop ≤ maxOffset → Located scope argument.1 argument.2 failure) :
    Located scope kind e failure := by
  have hcovered := covered_ofExpression scope kind hfits
  obtain ⟨rest, hrest⟩ := hcovered.announced
  rw [hformulas, List.append_assoc, List.cons_append] at hrest
  have hinside : argument.2.stop < e.stop :=
    hcovered.inside argument (hformulas ▸ List.mem_append_cons_self)
  have harranged := hcovered.arranged
  rw [hrest, List.map_append, List.map_cons] at harranged
  have hargument : argument.2.base < argument.2.stop := (harranged.of_mem
    List.mem_append_cons_self).2.1
  obtain ⟨hfailure, hitself, hwithin⟩ := hlocated (by omega)
  -- a formula written in the expression is before the argument, is the argument or is behind it
  have hdirect {formula : Expression.Kind × Expression}
      (hmem : formula ∈ Trace.written scope Site.clear kind e) :
      Readable scope formula.1 formula.2 ∨ formula = argument ∨
        argument.2.stop ≤ formula.2.base := by
    have hsites := mem_sites_of_written hmem
    rw [hrest] at hsites
    rcases List.mem_append.1 hsites with hfront | hback
    · exact Or.inl (hbefore formula hfront)
    · rcases List.mem_cons.1 hback with heq | hback
      · exact Or.inr (Or.inl heq)
      · exact Or.inr (Or.inr (harranged.after.of_mem (List.mem_map_of_mem hback)).1)
  refine ⟨by omega, fun _ hend => by omega, fun formula hwritten hend => ?_⟩
  cases hwritten with
  | direct hmem =>
    have hplace := place_of_written hfits hmem
    rcases hdirect hmem with hreadable | rfl | hbehind
    · exact Or.inl hreadable
    · exact Or.inr ⟨by omega, hitself hargument hend⟩
    · omega
  | within houter hinner =>
    have houterPlace := place_of_written hfits houter
    have hinnerPlace := hinner.place (by omega)
    rcases hdirect houter with hreadable | rfl | hbehind
    · exact Or.inl (hinner.readable (by omega) hreadable)
    · exact hwithin formula hinner hend
    · omega

/-- Wherever a lowering fails, everything written before the failure is settled. -/
theorem Ends.located {limit levels : Nat} {result : Except Failure String}
    (h : Ends scope limit levels kind e result) (hresult : result = .error failure)
    (hfits : e.stop ≤ maxOffset) : Located scope kind e failure := by
  induction h with
  | code _ => cases hresult
  | refused =>
    cases hresult
    exact located_refused limit hfits
  | unread h =>
    cases hresult
    exact located_unread hfits h
  | argument hformulas hbefore _ ih =>
    exact located_argument hfits hformulas hbefore fun hargument => ih hresult hargument

end Placing
end Trace

namespace Generator

open Trace

variable (generator : Generator)

/-- Lowered by itself, whatever the state and its limit are, the formula ends as `P` says, or it
nests more deeply than the limit and is refused for that. -/
def Alone (formula : Expression.Kind × Expression) (P : Except Failure String → Prop) : Prop :=
  ∀ state : State, state.context.Idle →
    P (generator.lower formula.1 formula.2 state).1 ∨
      TooDeep generator.scope state.context.maxDepth state.context.maxDepth formula.1 formula.2
        (generator.lower formula.1 formula.2 state).1

variable {generator}

/-- A formula written in clear calls that ends before the failure that is reported is lowered by
itself, or ends right there and fails in the same way by itself. -/
theorem lower_earliest {kind : Expression.Kind} {e : Expression} {state : State}
    {failure : Failure} (hidle : state.context.Idle) (hfits : e.stop ≤ maxOffset)
    (hfailure : (generator.lower kind e state).1 = .error failure)
    {formula : Expression.Kind × Expression}
    (hwritten : Written generator.scope Site.clear kind e formula)
    (hbefore : formula.2.span.stop ≤ failure.span.start) :
    generator.Alone formula (fun result => ∃ code, result = .ok code) ∨
      formula.2.span.stop = failure.span.start ∧
        generator.Alone formula (fun result => result = .error failure) := by
  have hplace := hwritten.place hfits
  have hspan := Expression.span_of_fits (Nat.le_trans hplace.2.2 hfits)
  rw [hspan] at hbefore ⊢
  have hlocated : Located generator.scope kind e failure :=
    (ends_lower hidle).located hfailure hfits
  rcases hlocated.written formula hwritten hbefore with hreadable | ⟨hend, hunread⟩
  · exact Or.inl fun alone halone => (ends_lower halone).of_readable hreadable
  · exact Or.inr ⟨hend, fun alone halone => (ends_lower halone).of_unread hunread⟩

/-- In `F(1)+F(F(2)*)` the `2` is lowered by itself. -/
theorem lower_earliest_nested :
    (State.initial 4).context.Idle ∧ (Expression.ofText "F(1)+F(F(2)*)").stop ≤ maxOffset ∧
      ((JavaScript.generator .sample).lower .number (.ofText "F(1)+F(F(2)*)") (.initial 4)).1
        = .error ⟨.expectedExpression "end of expression", ⟨12, 12⟩⟩ ∧
      Written .sample Site.clear .number (.ofText "F(1)+F(F(2)*)") (.number, .place "2" 9) ∧
      (Expression.place "2" 9).span.stop ≤ 12 ∧
      ((JavaScript.generator .sample).Alone (.number, .place "2" 9)
          (fun result => ∃ code, result = .ok code) ∨
        (Expression.place "2" 9).span.stop = 12 ∧
          (JavaScript.generator .sample).Alone (.number, .place "2" 9) (fun result =>
            result = .error ⟨.expectedExpression "end of expression", ⟨12, 12⟩⟩)) := by
  have hidle : (State.initial 4).context.Idle := Context.idle_fresh none (some 4)
  have hfits : (Expression.ofText "F(1)+F(F(2)*)").stop ≤ maxOffset := by decide +kernel
  have hfailure : ((JavaScript.generator .sample).lower .number (.ofText "F(1)+F(F(2)*)")
      (.initial 4)).1 = .error ⟨.expectedExpression "end of expression", ⟨12, 12⟩⟩ := by
    decide +kernel
  have houter : (Expression.Kind.number, Expression.place "F(2)*" 7)
      ∈ Trace.written .sample Site.clear .number (.ofText "F(1)+F(F(2)*)") := by
    decide +kernel
  have hinner : (Expression.Kind.number, Expression.place "2" 9)
      ∈ Trace.written .sample Site.clear .number (.place "F(2)*" 7) := by
    decide +kernel
  have hwritten : Written .sample Site.clear .number (.ofText "F(1)+F(F(2)*)")
      (.number, .place "2" 9) :=
    .within houter (.direct hinner)
  have hbefore : (Expression.place "2" 9).span.stop ≤ 12 := by decide +kernel
  exact ⟨hidle, hfits, hfailure, hwritten, hbefore,
    lower_earliest hidle hfits hfailure hwritten hbefore⟩

variable (generator) in
/-- The formula is an argument in the expression and ends before the failure that is reported, but
fails by itself within the same limit. -/
def Overlooked (limit : Nat) (kind : Expression.Kind) (e : Expression)
    (formula : Expression.Kind × Expression) : Prop :=
  formula ∈ Trace.written generator.scope (fun _ _ => true) kind e ∧
    ∃ reported failure, (generator.lower kind e (.initial limit)).1 = .error reported ∧
      formula.2.span.stop ≤ reported.span.start ∧
      (generator.lower formula.1 formula.2 (.initial limit)).1 = .error failure

end Generator

/-- Functions `A` of one number, `M` of two, and `D` of four that may be left out: what `D()` comes
to contains `A(1)` and calls around it at the places where `D()+A(A(A(A(1))))` has them. -/
def Scope.overlooking : Scope where
  platform.functions.numeric := .ofList
    [("A", { parameters := [{ kind := .number }], callName := "a" }),
      ("M", { parameters := [{ kind := .number }, { kind := .number }], callName := "m" }),
      ("D", {
        parameters := ["       A(1)", "     A(A(1))", "   A(A(A(1)))", " A(A(A(A(1))))"].map
          fun text => { kind := .number, optional := true, defaultValue := text }
        callName := "d" })]
  project := {}
  layout := {}

namespace JavaScript

open Generator in
/-- Arguments that end before the failure and yet fail by themselves: one that ends where the
failure is, which is its own; one before an argument that is missing; one before a string that is
not closed; and one that is nested too deeply where nothing is remembered. -/
theorem overlooked_arguments :
    (generator .overlooking).Overlooked 64 .number (.ofText "A(1+)") (.number, .place "1+" 2) ∧
      (generator .overlooking).Overlooked 64 .number (.ofText "M(Q(1), )")
        (.number, .place "Q(1)" 2) ∧
      (generator .overlooking).Overlooked 64 .number (.ofText "A(1+, \"a")
        (.number, .place "1+" 2) ∧
      (generator .overlooking).Overlooked 3 .number (.ofText "D()+A(A(A(A(1))))+")
        (.number, .place "A(A(A(1)))" 6) := by
  refine ⟨⟨by decide +kernel, ⟨.expectedExpression "end of expression", ⟨4, 4⟩⟩,
      ⟨.expectedExpression "end of expression", ⟨4, 4⟩⟩, ?_⟩,
    ⟨by decide +kernel, ⟨.missingArgument "M", ⟨7, 7⟩⟩, ⟨.unknownFunction "Q", ⟨2, 3⟩⟩, ?_⟩,
    ⟨by decide +kernel, ⟨.unterminatedString, ⟨6, 8⟩⟩,
      ⟨.expectedExpression "end of expression", ⟨4, 4⟩⟩, ?_⟩,
    ⟨by decide +kernel, ⟨.expectedExpression "end of expression", ⟨18, 18⟩⟩,
      ⟨.nestingTooDeep 3, ⟨12, 13⟩⟩, ?_⟩⟩
  all_goals decide +kernel

end JavaScript
end EventFormula
