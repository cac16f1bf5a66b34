import EventFormula.Proofs.Call.Places
import EventFormula.Proofs.Trace.Blocks

/-!
# The calls in a formula and where they stand

While a formula is read the reader comes to calls, and each of them has formulas among its
arguments, whether the reader gets past that call or not. These formulas stand one behind the other
in the text. The main statement, `covered_ofExpression`, compares them with the trace: those that
are announced come first, and the others belong to a call that the reader has failed at, with a
failure that comes before them unless the call holds an unterminated string or misses an argument.
-/

namespace EventFormula

namespace Trace

/-- A call that is come to while a formula is read. -/
structure Site where
  head : Head
  opening : Token
  /-- The tokens between its parentheses, or all that follow if the call is not closed. -/
  inner : List Token

/-- The tokens before the parenthesis that closes what is open, with `depth` more open in between.
-/
def enclosed : (depth : Nat) → List Token → List Token
  | _, [] => []
  | depth, token :: tokens =>
    match token.kind, depth with
    | .leftParen, depth => token :: enclosed (depth + 1) tokens
    | .rightParen, 0 => []
    | .rightParen, depth + 1 => token :: enclosed depth tokens
    | _, depth => token :: enclosed depth tokens

/-- The call whose opening parenthesis has just been read. -/
def Stage.opened (tokens : List Token) : Stage → List Site
  | .arguments head opening 0 [] => [⟨head, opening, enclosed 0 tokens⟩]
  | _ => []

/-- The formulas that are announced, in order. -/
def formulas (events : List Event) : List (Expression.Kind × Expression) :=
  events.filterMap fun
    | .argument kind e => some (kind, e)
    | _ => none

theorem mem_formulas {events : List Event} {formula : Expression.Kind × Expression} :
    formula ∈ formulas events ↔ .argument formula.1 formula.2 ∈ events := by
  rw [formulas, List.mem_filterMap]
  constructor
  · rintro ⟨event, hmem, hevent⟩
    cases event with
    | argument kind e =>
      cases hevent
      exact hmem
    | _ => cases hevent
  · intro hmem
    exact ⟨_, hmem, rfl⟩

namespace Reader

variable (reader : Reader)

/-- The calls that are come to from a stage on. -/
def sites (stage : Stage) (groups : List Token) : List Token → List Site
  | [] => []
  | token :: tokens =>
    match reader.step stage groups token with
    | .next _ next left => next.opened tokens ++ sites next left tokens
    | .stop _ => []

end Reader

namespace Site

variable (reader : Reader) (site : Site)

/-- The parameters that the designer writes in the call. -/
def parameters : List Parameter := site.head.callable.written site.head.given.length

/-- What is written between the parentheses. -/
def written : List Expression := Call.split reader.base site.opening.span.stop site.inner

/-- The formulas among the arguments. -/
def formulas : List (Expression.Kind × Expression) :=
  Call.formulas site.parameters (site.written reader)

/-- All string literals in the call are closed, and no argument is blank that has to be there. -/
def Clear : Prop :=
  (∀ token ∈ site.inner, token.kind ≠ .unterminatedString) ∧
    ∀ pair ∈ site.parameters.zip (site.written reader),
      pair.2.isEmpty = true → pair.1.optional = true

instance : Decidable (site.Clear reader) := inferInstanceAs (Decidable (_ ∧ _))

end Site

/-- The calls that are come to when the expression is read. -/
def sites (scope : Scope) (kind : Expression.Kind) (e : Expression) : List Site :=
  (Reader.ofExpression scope kind e).sites .operand [] (Token.lexemes e.text)

namespace Stage

/-- Everything that is kept from before starts before an offset, and what has been collected of a
call is laid out up to there. -/
def At (offset : Nat) : Stage → Prop
  | .operand | .operator => True
  | .name head | .member head => head.span.start ≤ offset
  | .memberName head second | .function head second =>
    head.span.start ≤ offset ∧ second.span.start ≤ offset
  | .functionName head second third =>
    head.span.start ≤ offset ∧ second.span.start ≤ offset ∧ third.span.start ≤ offset
  | .arguments head opening _ inner =>
    head.span.start ≤ opening.span.start ∧ opening.span.start ≤ opening.span.stop ∧
      Token.Laid opening.span.stop inner.reverse offset

/-- No call is being collected. -/
def Plain : Stage → Prop
  | .arguments .. => False
  | _ => True

/-- The call that is being collected. -/
def current (tokens : List Token) : Stage → List Site
  | .arguments head opening depth inner =>
    [⟨head, opening, inner.reverse ++ enclosed depth tokens⟩]
  | _ => []

/-- Where the arguments can stand that come from this stage on. -/
def start (offset : Nat) : Stage → Nat
  | .arguments _ opening _ _ => opening.span.stop
  | _ => offset

end Stage

namespace Reader

variable {reader : Reader}

theorem start_placeOf (span : Span) :
    (reader.placeOf span).start ≤ reader.base + span.start := by
  simp only [placeOf, Span.shifted]
  omega

theorem span_unexpected (token : Token) (expected : String) :
    (reader.unexpected token expected).span = reader.placeOf token.span := by
  unfold unexpected lexerFailure?
  cases token.kind <;> rfl

theorem span_expectedExpression (token : Token) :
    (reader.expectedExpression token).span = reader.placeOf token.span := by
  unfold expectedExpression lexerFailure?
  cases token.kind <;> rfl

/-- What a token does outside of calls: it ends the formula with a failure not behind it, or it is
read without an announcement, or it opens a call. -/
inductive Moves (reader : Reader) (token : Token) : Step → Prop where
  | stop {failure : Failure} (h : failure.span.start ≤ reader.base + token.span.stop) :
      Moves reader token (.stop failure)
  | go {events : List Event} {next : Stage} {left : List Token} (hevents : formulas events = [])
      (hplain : next.Plain) (hat : next.At token.span.stop)
      (hleft : ∀ opening ∈ left, opening.span.start ≤ token.span.stop) :
      Moves reader token (.next events next left)
  | opens {head : Head} {left : List Token} (hhead : head.span.start ≤ token.span.start)
      (hleft : ∀ opening ∈ left, opening.span.start ≤ token.span.stop) :
      Moves reader token (.next [] (.arguments head token 0 []) left)

section Steps
variable {groups : List Token} {token : Token} {offset : Nat}

theorem moves_unexpected (hcovers : token.Covers offset) (expected : String) :
    Moves reader token (.stop (reader.unexpected token expected)) := by
  refine .stop ?_
  rw [span_unexpected]
  have hstart := reader.start_placeOf token.span
  have hless := hcovers.start_eq ▸ hcovers.less
  omega

theorem moves_openCall (hcovers : token.Covers offset) {found : Except Failure Head}
    (hgroups : ∀ opening ∈ groups, opening.span.start ≤ offset)
    (hok : ∀ head, found = .ok head → head.span.start ≤ offset)
    (herror : ∀ failure, found = .error failure →
      failure.span.start ≤ reader.base + token.span.stop) :
    Moves reader token (openCall found token groups) := by
  have hless := hcovers.less
  cases found with
  | ok head =>
    refine .opens (hcovers.start_eq ▸ hok head rfl) fun opening hmem => ?_
    have := hgroups opening hmem
    omega
  | error failure => exact .stop (herror failure rfl)

theorem moves_stepOperand (hcovers : token.Covers offset)
    (hgroups : ∀ opening ∈ groups, opening.span.start ≤ offset) :
    Moves reader token (reader.stepOperand groups token) := by
  have hstart := hcovers.start_eq
  have hless := hcovers.less
  have hstop : token.span.start ≤ token.span.stop := by omega
  have hleft : ∀ opening ∈ groups, opening.span.start ≤ token.span.stop := fun opening hmem => by
    have := hgroups opening hmem
    omega
  unfold stepOperand
  repeat' split
  · exact .go rfl trivial trivial hleft
  · exact .go rfl trivial trivial hleft
  · exact .go rfl trivial trivial hleft
  · exact moves_unexpected hcovers _
  · exact .go rfl trivial trivial hleft
  · exact moves_unexpected hcovers _
  · refine .go rfl trivial trivial fun opening hmem => ?_
    rcases List.mem_cons.1 hmem with rfl | hmem
    · exact hstop
    · exact hleft opening hmem
  · exact .stop (by have := reader.start_placeOf token.span; simp only; omega)
  · exact .go rfl trivial hstop hleft
  · refine .stop ?_
    rw [span_expectedExpression]
    have := reader.start_placeOf token.span
    omega

theorem moves_stepOperator (hcovers : token.Covers offset)
    (hgroups : ∀ opening ∈ groups, opening.span.start ≤ offset) :
    Moves reader token (reader.stepOperator groups token) := by
  have hstart := hcovers.start_eq
  have hless := hcovers.less
  have hleft : ∀ opening ∈ groups, opening.span.start ≤ token.span.stop := fun opening hmem => by
    have := hgroups opening hmem
    omega
  unfold stepOperator
  repeat' split
  · exact .go rfl trivial trivial hleft
  · exact .go rfl trivial trivial hleft
  · exact .go rfl trivial trivial fun opening hmem => hleft opening (List.mem_cons_of_mem _ hmem)
  · exact .stop (by have := reader.start_placeOf token.span; simp only; omega)
  · exact moves_unexpected hcovers _
  · exact moves_unexpected hcovers _

/-- A token that is read outside of calls. -/
theorem moves_step {stage : Stage} (hcovers : token.Covers offset) (hplain : stage.Plain)
    (hat : stage.At offset) (hgroups : ∀ opening ∈ groups, opening.span.start ≤ offset) :
    Moves reader token (reader.step stage groups token) := by
  have hstart := hcovers.start_eq
  have hless := hcovers.less
  have hleft : ∀ opening ∈ groups, opening.span.start ≤ token.span.stop := fun opening hmem => by
    have := hgroups opening hmem
    omega
  -- a failure at a token that was read before
  have hbefore {span : Span} (h : span.start ≤ offset) :
      (reader.placeOf span).start ≤ reader.base + token.span.stop := by
    have := reader.start_placeOf span
    omega
  cases stage with
  | operand => exact moves_stepOperand hcovers hgroups
  | operator => exact moves_stepOperator hcovers hgroups
  | arguments head opening depth inner => exact hplain.elim
  | name head =>
    simp only [step]
    split
    · refine moves_openCall hcovers hgroups (fun found h => ?_) fun failure h => ?_
      · unfold freeHead at h
        split at h <;> cases h
        exact hat
      · unfold freeHead at h
        split at h <;> cases h
        exact hbefore hat
    · exact .go rfl trivial (Nat.le_trans hat (by omega)) hleft
    · exact moves_unexpected hcovers _
  | member head =>
    simp only [step]
    split
    · exact .go rfl trivial ⟨Nat.le_trans hat (by omega), by omega⟩ hleft
    · exact moves_unexpected hcovers _
  | memberName head second =>
    simp only [step]
    split
    · refine moves_openCall hcovers hgroups (fun found h => ?_) fun failure h => ?_
      · simp only [objectHead] at h
        split at h <;> cases h
        exact hat.1
      · simp only [objectHead] at h
        split at h <;> cases h
        exact hbefore hat.2
    · exact .go rfl trivial ⟨Nat.le_trans hat.1 (by omega), Nat.le_trans hat.2 (by omega)⟩ hleft
    · exact moves_unexpected hcovers _
  | function head second =>
    simp only [step]
    split
    · exact .go rfl trivial
        ⟨Nat.le_trans hat.1 (by omega), Nat.le_trans hat.2 (by omega), by omega⟩ hleft
    · exact moves_unexpected hcovers _
  | functionName head second third =>
    simp only [step]
    split
    · refine moves_openCall hcovers hgroups (fun found h => ?_) fun failure h => ?_
      · simp only [behaviorHead] at h
        split at h
        · cases h
        · split at h <;> cases h
          exact hat.1
      · simp only [behaviorHead] at h
        split at h
        · cases h
          exact hbefore hat.2.1
        · split at h <;> cases h
          exact hbefore hat.2.2
    · exact moves_unexpected hcovers _

end Steps

/-- How the formulas in calls compare with a trace, all of it between two offsets. -/
structure Covered (reader : Reader) (start stop : Nat) (sites : List Site) (trace : Trace) :
    Prop where
  /-- They stand one behind the other. -/
  arranged : Expression.Arranged start ((sites.flatMap (Site.formulas reader)).map Prod.snd) stop
  /-- Those that are announced come first. -/
  announced : ∃ rest, sites.flatMap (Site.formulas reader) = formulas trace.events ++ rest
  /-- If those of a call are not, there is a failure, and it does not come behind them unless it is
  one that is found before arguments are looked at. -/
  each : ∀ site ∈ sites, (∀ formula ∈ site.formulas reader, formula ∈ formulas trace.events) ∨
    ∃ failure, trace.failure = some failure ∧ (site.Clear reader →
      ∀ formula ∈ site.formulas reader, failure.span.start ≤ formula.2.base)
  /-- Behind each announced formula a parenthesis follows. -/
  inside : ∀ formula ∈ formulas trace.events, formula.2.stop < stop
  failure : ∀ failure, trace.failure = some failure → failure.span.start ≤ stop

section Walks
variable {start stop : Nat} {sites : List Site} {trace : Trace} {site : Site}

theorem formulas_append (first second : List Event) :
    formulas (first ++ second) = formulas first ++ formulas second :=
  List.filterMap_append ..

theorem Covered.silent {events : List Event} {earlier : Nat}
    (h : Covered reader start stop sites trace) (hevents : formulas events = [])
    (hstart : earlier ≤ start) : Covered reader earlier stop sites (trace.after events) := by
  have heq : formulas (trace.after events).events = formulas trace.events := by
    rw [after, formulas_append, hevents, List.nil_append]
  refine ⟨h.arranged.of_le hstart (Nat.le_refl _), ?_, ?_, ?_, h.failure⟩
  · rw [heq]
    exact h.announced
  · rw [heq]
    exact h.each
  · rw [heq]
    exact h.inside

/-- A call that is complete announces its formulas. -/
theorem Covered.call {events : List Event} {earlier middle : Nat}
    (h : Covered reader start stop sites trace)
    (hevents : formulas events = site.formulas reader)
    (harranged : Expression.Arranged earlier ((site.formulas reader).map Prod.snd) middle)
    (hstart : middle ≤ start) (hless : middle < stop) :
    Covered reader earlier stop (site :: sites) (trace.after events) := by
  have heq : formulas (trace.after events).events
      = site.formulas reader ++ formulas trace.events := by
    rw [after, formulas_append, hevents]
  constructor
  · rw [List.flatMap_cons, List.map_append]
    exact (harranged.of_le (Nat.le_refl _) hstart).append h.arranged
  · obtain ⟨rest, hrest⟩ := h.announced
    exact ⟨rest, by rw [List.flatMap_cons, heq, hrest, List.append_assoc]⟩
  · rw [heq]
    intro other hmem
    rcases List.mem_cons.1 hmem with rfl | hmem
    · exact Or.inl fun formula hformula => List.mem_append_left _ hformula
    · rcases h.each other hmem with hannounced | hfailure
      · exact Or.inl fun formula hformula =>
          List.mem_append_right _ (hannounced formula hformula)
      · exact Or.inr hfailure
  · rw [heq]
    intro formula hmem
    rcases List.mem_append.1 hmem with hmem | hmem
    · have hstop := (harranged.of_mem (List.mem_map_of_mem hmem)).2.2
      omega
    · exact h.inside formula hmem
  · exact h.failure

theorem covered_failure {failure : Failure} (hle : start ≤ stop)
    (hfailure : failure.span.start ≤ stop) :
    Covered reader start stop [] ⟨[], some failure⟩ where
  arranged := hle
  announced := ⟨[], rfl⟩
  each _ hmem := absurd hmem List.not_mem_nil
  inside _ hmem := absurd hmem List.not_mem_nil
  failure _ h := by
    cases h
    exact hfailure

/-- A call that the reader fails at announces nothing. -/
theorem covered_site {failure : Failure}
    (harranged : Expression.Arranged start ((site.formulas reader).map Prod.snd) stop)
    (hfailure : failure.span.start ≤ stop)
    (hclear : site.Clear reader →
      ∀ formula ∈ site.formulas reader, failure.span.start ≤ formula.2.base) :
    Covered reader start stop [site] ⟨[], some failure⟩ where
  arranged := by rwa [List.flatMap_cons, List.flatMap_nil, List.append_nil]
  announced := ⟨_, rfl⟩
  each other hmem := by
    rw [List.mem_singleton.1 hmem]
    exact Or.inr ⟨failure, rfl, hclear⟩
  inside _ hmem := absurd hmem List.not_mem_nil
  failure _ h := by
    cases h
    exact hfailure

/-- The formulas of a call stand between its parentheses. -/
theorem arranged_formulas (site : Site) (hlaid : Token.Laid site.opening.span.stop site.inner stop)
    (hfits : reader.base + stop ≤ maxOffset) :
    Expression.Arranged (reader.base + site.opening.span.stop)
      ((site.formulas reader).map Prod.snd) (reader.base + stop) :=
  (Call.arranged_split hlaid hfits).1.sublist (Call.formulas_sublist ..)

section Collecting
variable {head : Head} {opening token : Token} {depth offset : Nat} {inner tokens : List Token}

/-- A token between the parentheses of a call is collected, or closes the call, or starts a string
that never ends. -/
theorem collect_cases (head : Head) (opening token : Token) (depth : Nat)
    (inner groups : List Token) :
    (∃ next, (∀ tokens, enclosed depth (token :: tokens) = token :: enclosed next tokens) ∧
      reader.step (.arguments head opening depth inner) groups token
        = .next [] (.arguments head opening next (token :: inner)) groups) ∨
    (token.kind = .rightParen ∧ depth = 0) ∨
    (token.kind = .unterminatedString ∧
      (∀ tokens, enclosed depth (token :: tokens) = token :: enclosed depth tokens) ∧
      reader.step (.arguments head opening depth inner) groups token
        = .stop ⟨.unterminatedString, reader.placeOf token.span⟩) := by
  cases hkind : token.kind <;> cases depth <;>
    simp [enclosed, step, stepArguments, hkind]

theorem enclosed_prefix (depth : Nat) (tokens : List Token) : enclosed depth tokens <+: tokens := by
  induction tokens generalizing depth with
  | nil => exact List.nil_prefix
  | cons token tokens ih =>
    unfold enclosed
    split
    · exact List.cons_prefix_cons.2 ⟨rfl, ih _⟩
    · exact List.nil_prefix
    · exact List.cons_prefix_cons.2 ⟨rfl, ih _⟩
    · exact List.cons_prefix_cons.2 ⟨rfl, ih _⟩

/-- A call that is not closed in order announces nothing, and stands before the end. -/
theorem covered_unclosed {failure : Failure}
    (hat : (Stage.arguments head opening depth inner).At offset)
    (hlaid : Token.Laid offset tokens stop) (hfits : reader.base + stop ≤ maxOffset)
    (hfailure : failure.span.start ≤ reader.base + stop)
    (hclear : (Site.mk head opening (inner.reverse ++ enclosed depth tokens)).Clear reader →
      failure.span.start ≤ reader.base + opening.span.stop) :
    Covered reader (reader.base + opening.span.stop) (reader.base + stop)
      [⟨head, opening, inner.reverse ++ enclosed depth tokens⟩] ⟨[], some failure⟩ := by
  obtain ⟨behind, hbehind⟩ := enclosed_prefix depth tokens
  rw [← hbehind] at hlaid
  obtain ⟨last, henclosed, hrest⟩ := Token.laid_append.1 hlaid
  have hsite : Token.Laid opening.span.stop (inner.reverse ++ enclosed depth tokens) last :=
    Token.laid_append.2 ⟨offset, hat.2.2, henclosed⟩
  have hlast := hrest.le
  have harranged : Expression.Arranged (reader.base + opening.span.stop)
      (((Site.mk head opening (inner.reverse ++ enclosed depth tokens)).formulas reader).map
        Prod.snd) (reader.base + last) :=
    arranged_formulas ⟨head, opening, _⟩ hsite (by omega)
  refine covered_site (harranged.of_le (Nat.le_refl _) (by omega)) hfailure ?_
  intro hclosed formula hmem
  have hstart := (harranged.of_mem (List.mem_map_of_mem hmem)).1
  exact Nat.le_trans (hclear hclosed) hstart

/-- The parenthesis that closes a call: its formulas are announced, or it has failed. -/
theorem close_cases (groups : List Token) (hat : (Stage.arguments head opening 0 inner).At offset)
    (hkind : token.kind = .rightParen) (hfits : reader.base + offset ≤ maxOffset) :
    (∃ events, reader.step (.arguments head opening 0 inner) groups token
        = .next events .operator groups ∧
      formulas events = (Site.mk head opening inner.reverse).formulas reader) ∨
    ∃ failure, reader.step (.arguments head opening 0 inner) groups token = .stop failure ∧
      failure.span.start ≤ reader.base + offset ∧
      ((Site.mk head opening inner.reverse).Clear reader →
        failure.span.start ≤ reader.base + opening.span.stop) := by
  obtain ⟨hhead, hopening, hinner⟩ := hat
  have hoffset := hinner.le
  simp only [step, stepArguments, hkind, callEvents]
  cases halign : Call.align head.function head.callable head.given
      (Call.split reader.base opening.span.stop inner.reverse)
      (reader.placeOf (head.span.merge token.span)) with
  | ok arguments =>
    refine Or.inl ⟨_, rfl, ?_⟩
    rw [formulas_append, Call.checks_eq_formulas halign]
    have hannounce (list : List (Expression.Kind × Expression)) :
        formulas (list.map Call.announce) = list := by
      induction list with
      | nil => rfl
      | cons first list ih => exact congrArg (List.cons first) ih
    rw [hannounce]
    exact List.append_nil _
  | error failure =>
    refine Or.inr ⟨failure, rfl, ?_⟩
    rcases Call.align_error halign with hspan | ⟨argument, hspan, hmissing⟩
    · have hstart : failure.span.start ≤ reader.base + opening.span.start := by
        have hplace := reader.start_placeOf (head.span.merge token.span)
        rw [hspan]
        simp only [Span.merge] at hplace ⊢
        omega
      exact ⟨by omega, fun _ => by omega⟩
    · obtain ⟨parameter, hmem, hneeded, hblank⟩ := hmissing
      have hwritten := (List.of_mem_zip hmem).2
      refine ⟨?_, fun hclear => ?_⟩
      · rw [hspan, Expression.start_span]
        exact (Call.arranged_split hinner hfits).2 argument hwritten
      · have hoptional := hclear.2 (parameter, argument) hmem hblank
        rw [hneeded] at hoptional
        cases hoptional

end Collecting

/-- The end of the text. -/
theorem covered_end {stage : Stage} {groups : List Token} (hat : stage.At stop)
    (hgroups : ∀ opening ∈ groups, opening.span.start ≤ stop)
    (hclosing : reader.closing.span.start ≤ stop) (hfits : reader.base + stop ≤ maxOffset) :
    Covered reader (reader.base + stage.start stop) (reader.base + stop) (stage.current [])
      ⟨[], reader.atEnd stage groups⟩ := by
  have hlast := reader.start_placeOf reader.closing.span
  have hunexpected (expected : String) :
      Covered reader (reader.base + stop) (reader.base + stop) []
        ⟨[], some (reader.unexpected reader.closing expected)⟩ :=
    covered_failure (Nat.le_refl _) (by rw [span_unexpected]; omega)
  cases stage with
  | operator =>
    cases groups with
    | nil =>
      exact ⟨Nat.le_refl _, ⟨[], rfl⟩, fun _ h => absurd h List.not_mem_nil,
        fun _ h => absurd h List.not_mem_nil, fun _ h => by cases h⟩
    | cons opening groups =>
      have hstart := reader.start_placeOf opening.span
      have hopening := hgroups opening List.mem_cons_self
      exact covered_failure (Nat.le_refl _) (by simp only; omega)
  | operand => exact covered_failure (Nat.le_refl _) (by rw [span_expectedExpression]; omega)
  | name head => exact hunexpected _
  | member head => exact hunexpected _
  | memberName head second => exact hunexpected _
  | function head second => exact hunexpected _
  | functionName head second third => exact hunexpected _
  | arguments head opening depth inner =>
    have hstart := reader.start_placeOf opening.span
    have hopening := hat.2.1
    have hinner := hat.2.2.le
    have hnone : Token.Laid stop [] stop := rfl
    exact covered_unclosed hat hnone hfits (by simp only; omega) fun _ => by simp only; omega

theorem current_of_plain {stage : Stage} (h : stage.Plain) (tokens : List Token) :
    stage.current tokens = [] := by
  cases stage <;> first | rfl | exact h.elim

theorem opened_of_plain {stage : Stage} (h : stage.Plain) (tokens : List Token) :
    stage.opened tokens = [] := by
  cases stage <;> first | rfl | exact h.elim

theorem opened_of_collected (head : Head) (opening token : Token) (depth : Nat)
    (inner tokens : List Token) :
    (Stage.arguments head opening depth (token :: inner)).opened tokens = [] := by
  cases depth <;> rfl

theorem start_of_plain {stage : Stage} (h : stage.Plain) (offset : Nat) :
    stage.start offset = offset := by
  cases stage <;> first | rfl | exact h.elim

section Stepping
variable {groups tokens : List Token} {token : Token} {offset : Nat}

/-- What is known of reading on from the next token. -/
def CoveredBehind (reader : Reader) (stop : Nat) (token : Token) (tokens : List Token) : Prop :=
  ∀ (stage : Stage) (groups : List Token), stage.At token.span.stop →
    (∀ opening ∈ groups, opening.span.start ≤ token.span.stop) →
    Covered reader (reader.base + stage.start token.span.stop) (reader.base + stop)
      (stage.current tokens ++ reader.sites stage groups tokens) (reader.walk stage groups tokens)

theorem covered_plain {stage : Stage} (hcovers : token.Covers offset)
    (hrest : Token.Laid token.span.stop tokens stop) (hplain : stage.Plain) (hat : stage.At offset)
    (hgroups : ∀ opening ∈ groups, opening.span.start ≤ offset)
    (ih : CoveredBehind reader stop token tokens) :
    Covered reader (reader.base + offset) (reader.base + stop)
      (reader.sites stage groups (token :: tokens))
      (reader.walk stage groups (token :: tokens)) := by
  have hmoves : Moves reader token (reader.step stage groups token) :=
    moves_step hcovers hplain hat hgroups
  have hless := hcovers.less
  have hstop := hrest.le
  rw [sites, walk]
  cases hstep : reader.step stage groups token with
  | stop failure =>
    rw [hstep] at hmoves
    obtain ⟨hfailure⟩ := hmoves
    exact covered_failure (by omega) (by omega)
  | next events next left =>
    rw [hstep] at hmoves
    cases hmoves with
    | go hevents hnext hat hleft =>
      have h := ih next left hat hleft
      rw [current_of_plain hnext, start_of_plain hnext] at h
      simp only [opened_of_plain hnext]
      exact h.silent hevents (by omega)
    | @opens head left hhead hleft =>
      have hat : (Stage.arguments head token 0 []).At token.span.stop :=
        ⟨hhead, by have := hcovers.start_eq; omega, rfl⟩
      exact (ih _ left hat hleft).silent rfl (by simp only [Stage.start]; omega)

theorem covered_arguments {head : Head} {opening : Token} {depth : Nat} {inner : List Token}
    (hcovers : token.Covers offset) (hrest : Token.Laid token.span.stop tokens stop)
    (hat : (Stage.arguments head opening depth inner).At offset)
    (hgroups : ∀ opening ∈ groups, opening.span.start ≤ offset)
    (hfits : reader.base + stop ≤ maxOffset) (ih : CoveredBehind reader stop token tokens) :
    Covered reader (reader.base + opening.span.stop) (reader.base + stop)
      (⟨head, opening, inner.reverse ++ enclosed depth (token :: tokens)⟩
        :: reader.sites (.arguments head opening depth inner) groups (token :: tokens))
      (reader.walk (.arguments head opening depth inner) groups (token :: tokens)) := by
  have hless := hcovers.less
  have hstop := hrest.le
  have hleft : ∀ opening ∈ groups, opening.span.start ≤ token.span.stop := fun opening hmem => by
    have := hgroups opening hmem
    omega
  have hlaid : Token.Laid offset (token :: tokens) stop := ⟨hcovers, hrest⟩
  rw [sites, walk]
  rcases collect_cases head opening token depth inner groups with
    ⟨next, henclosed, hstep⟩ | ⟨hkind, rfl⟩ | ⟨hkind, henclosed, hstep⟩
  · have hinner : Token.Laid opening.span.stop (token :: inner).reverse token.span.stop := by
      rw [List.reverse_cons]
      exact Token.laid_append.2 ⟨offset, hat.2.2, hcovers, rfl⟩
    have h := ih (.arguments head opening next (token :: inner)) groups
      ⟨hat.1, hat.2.1, hinner⟩ hleft
    have hsilent : formulas [] = [] := rfl
    rw [hstep, henclosed]
    have hcollected : inner.reverse ++ token :: enclosed next tokens
        = (token :: inner).reverse ++ enclosed next tokens := by
      rw [List.reverse_cons, List.append_assoc, List.singleton_append]
    simp only [hcollected, opened_of_collected, List.nil_append]
    exact h.silent hsilent (Nat.le_refl _)
  · have hclosed : inner.reverse ++ enclosed 0 (token :: tokens) = inner.reverse := by
      simp only [enclosed, hkind, List.append_nil]
    have hcall : reader.base + offset ≤ maxOffset := by omega
    rcases close_cases groups hat hkind hcall with
      ⟨events, hstep, hevents⟩ | ⟨failure, hstep, hfailure, hclear⟩
    · have hafter := ih .operator groups trivial hleft
      have harranged : Expression.Arranged (reader.base + opening.span.stop)
          (((Site.mk head opening inner.reverse).formulas reader).map Prod.snd)
          (reader.base + offset) :=
        arranged_formulas ⟨head, opening, inner.reverse⟩ hat.2.2 hcall
      rw [hstep, hclosed]
      exact hafter.call hevents harranged (by simp only [Stage.start]; omega) (by omega)
    · rw [hstep]
      refine covered_unclosed hat hlaid hfits (by omega) ?_
      rw [hclosed]
      exact hclear
  · rw [hstep]
    have hstart := reader.start_placeOf token.span
    have htoken := hcovers.start_eq
    refine covered_unclosed hat hlaid hfits (by simp only; omega) fun hclear => ?_
    refine absurd hkind (hclear.1 token (List.mem_append_right _ ?_))
    rw [henclosed]
    exact List.mem_cons_self

end Stepping

/-- From any stage on, calls and trace compare as they have to. -/
theorem covered_walk {stage : Stage} {groups tokens : List Token} {offset : Nat}
    (hlaid : Token.Laid offset tokens stop) (hat : stage.At offset)
    (hgroups : ∀ opening ∈ groups, opening.span.start ≤ offset)
    (hclosing : reader.closing.span.start ≤ stop) (hfits : reader.base + stop ≤ maxOffset) :
    Covered reader (reader.base + stage.start offset) (reader.base + stop)
      (stage.current tokens ++ reader.sites stage groups tokens)
      (reader.walk stage groups tokens) := by
  induction tokens generalizing stage groups offset with
  | nil =>
    obtain rfl : offset = stop := hlaid
    rw [sites, List.append_nil]
    exact covered_end hat hgroups hclosing hfits
  | cons token tokens ih =>
    obtain ⟨hcovers, hrest⟩ := hlaid
    have hbehind : CoveredBehind reader stop token tokens :=
      fun _ _ hat hleft => ih hrest hat hleft
    by_cases hplain : stage.Plain
    · rw [current_of_plain hplain, start_of_plain hplain]
      exact covered_plain hcovers hrest hplain hat hgroups hbehind
    · cases stage with
      | arguments head opening depth inner =>
        exact covered_arguments hcovers hrest hat hgroups hfits hbehind
      | _ => exact absurd trivial hplain

theorem sites_of_blank {groups tokens : List Token}
    (h : tokens.all Token.isWhitespace = true) : reader.sites .operand groups tokens = [] := by
  induction tokens with
  | nil => rfl
  | cons token tokens ih =>
    rw [List.all_cons, Bool.and_eq_true] at h
    have hstep : reader.step .operand groups token
        = .next [.constant token.text] .operand groups := by
      simp only [step, stepOperand, h.1, if_true]
    simp only [sites, hstep, ih h.2]
    rfl

end Walks
end Reader

/-- The calls in an expression and its trace compare as they have to. -/
theorem covered_ofExpression (scope : Scope) (kind : Expression.Kind) {e : Expression}
    (hfits : e.stop ≤ maxOffset) :
    (Reader.ofExpression scope kind e).Covered e.base e.stop (sites scope kind e)
      (ofExpression scope kind e) := by
  by_cases hall : (Token.lexemes e.text).all Token.isWhitespace = true
  · simp only [sites, Reader.sites_of_blank hall, ofExpression, hall, if_true]
    refine Reader.covered_failure (Nat.le_add_right ..) ?_
    simp only [Expression.start_span]
    exact Nat.le_add_right ..
  · have hlaid := Token.laid_lexemes (Nat.le_trans (Nat.le_add_left _ e.base) hfits)
    have hclosing : (Reader.ofExpression scope kind e).closing.span.start
        ≤ Text.size e.text.toList := Nat.min_le_left ..
    have hnone : ∀ opening ∈ ([] : List Token), opening.span.start ≤ 0 :=
      fun opening hmem => absurd hmem List.not_mem_nil
    rw [ofExpression, if_neg hall]
    have hat : Stage.operand.At 0 := trivial
    exact Reader.covered_walk hlaid hat hnone hclosing hfits

/-- The formulas that are announced stand one behind the other. -/
theorem arranged_ofExpression (scope : Scope) (kind : Expression.Kind) {e : Expression}
    (hfits : e.stop ≤ maxOffset) :
    Expression.Arranged e.base ((formulas (ofExpression scope kind e).events).map Prod.snd)
      e.stop := by
  have hcovered := covered_ofExpression scope kind hfits
  obtain ⟨rest, hrest⟩ := hcovered.announced
  have harranged := hcovered.arranged
  rw [hrest, List.map_append] at harranged
  exact harranged.sublist (List.sublist_append_left _ _)

end Trace
end EventFormula
