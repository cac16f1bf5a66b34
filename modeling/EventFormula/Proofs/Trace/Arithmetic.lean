import EventFormula.Proofs.Lowering.Scripts
import EventFormula.Proofs.Trace.Reading

/-!
# Formulas without calls

A number formula that is read without a failure and calls nothing has no name in it. Terms and
operators take turns, and every token yields one event. So its script makes no request: the code is
the text of the tokens one after the other, with a point in each number that has none.
-/

namespace EventFormula

/-- Whether it is a call. -/
def Event.isCall : Event → Bool
  | .call _ => true
  | _ => false

namespace Token

/-- The event that a token yields outside of calls. -/
def event (token : Token) : Event :=
  match token.kind with
  | .number => .number token.text
  | .plus | .minus | .star | .slash => .operator token.text
  | _ => .constant token.text

/-- The code that a token becomes outside of calls. -/
def code (token : Token) : String :=
  if token.kind = .number then Fragment.numberCode token.text else token.text

/-- The code that a run of tokens becomes outside of calls. -/
def codes (tokens : List Token) : List Char := tokens.flatMap fun token => token.code.toList

theorem codes_cons (token : Token) (tokens : List Token) :
    codes (token :: tokens) = token.code.toList ++ codes tokens := rfl

end Token

namespace Trace

/-- Tokens of a number formula without calls, from where a term has to start on, or from behind a
complete term on. -/
inductive Arithmetic : (complete : Bool) → List Token → Prop where
  | done : Arithmetic true []
  | blank {complete : Bool} {token : Token} {tokens : List Token} (h : token.kind = .whitespace)
      (hrest : Arithmetic complete tokens) : Arithmetic complete (token :: tokens)
  | sign {token : Token} {tokens : List Token} (h : token.kind ∈ Expression.Kind.number.signs)
      (hrest : Arithmetic false tokens) : Arithmetic false (token :: tokens)
  | number {token : Token} {tokens : List Token} (h : token.kind = .number)
      (hrest : Arithmetic true tokens) : Arithmetic false (token :: tokens)
  | opening {token : Token} {tokens : List Token} (h : token.kind = .leftParen)
      (hrest : Arithmetic false tokens) : Arithmetic false (token :: tokens)
  | operator {token : Token} {tokens : List Token}
      (h : token.kind ∈ Expression.Kind.number.operators) (hrest : Arithmetic false tokens) :
      Arithmetic true (token :: tokens)
  | closing {token : Token} {tokens : List Token} (h : token.kind = .rightParen)
      (hrest : Arithmetic true tokens) : Arithmetic true (token :: tokens)

namespace Reader

variable {reader : Reader} {groups tokens : List Token} {token : Token}

theorem ne_identifier_of_operator {kind : Expression.Kind} (h : token.kind ∈ kind.operators) :
    token.kind ≠ .identifier := by
  intro hname
  rw [hname] at h
  cases kind <;> exact absurd h (by decide)

/-- A part of a formula that calls nothing has no name in it. -/
theorem Derives.nameless {part : Part} {depth : Nat} {events : List Event}
    (h : reader.Derives part depth tokens events) (hfree : events.any Event.isCall = false) :
    ∀ token ∈ tokens, token.kind ≠ .identifier := by
  have differs {token : Token} {kind : Token.Kind} (h : token.kind = kind)
      (hne : kind ≠ .identifier) : token.kind ≠ .identifier := h ▸ hne
  induction h with
  | number _ htoken => exact List.forall_mem_singleton.2 (differs htoken (by decide))
  | string => cases hfree
  | group hopening _ hclosing ih =>
    simp only [List.any_append, List.any_cons, Bool.or_eq_false_iff] at hfree
    obtain ⟨⟨-, hinner⟩, -⟩ := hfree
    refine List.forall_mem_append.2 ⟨List.forall_mem_cons.2 ⟨?_, ih hinner⟩, ?_⟩
    · exact differs hopening (by decide)
    · exact List.forall_mem_singleton.2 (differs hclosing (by decide))
  | call =>
    rw [List.any_append, Bool.or_eq_false_iff] at hfree
    cases hfree.2
  | primary _ ih => exact ih hfree
  | sign htoken _ ih =>
    exact List.forall_mem_cons.2 ⟨ne_identifier_of_operator (operator_of_sign htoken), ih hfree⟩
  | blankBefore htoken _ ih =>
    exact List.forall_mem_cons.2 ⟨differs htoken (by decide), ih hfree⟩
  | blankAfter _ htoken ih =>
    rw [List.any_append, Bool.or_eq_false_iff] at hfree
    exact List.forall_mem_append.2
      ⟨ih hfree.1, List.forall_mem_singleton.2 (differs htoken (by decide))⟩
  | term _ ih => exact ih hfree
  | join _ htoken _ ihfirst ihrest =>
    rw [List.any_append, Bool.or_eq_false_iff] at hfree
    exact List.forall_mem_append.2 ⟨ihfirst hfree.1,
      List.forall_mem_cons.2 ⟨ne_identifier_of_operator htoken, ihrest hfree.2⟩⟩

/-- Where the reader is before a term, or behind a complete one. -/
def stageOf (complete : Bool) : Stage := if complete then .operator else .operand

theorem event_of_operator (h : token.kind ∈ Expression.Kind.number.operators) :
    token.event = .operator token.text := by
  simp only [Expression.Kind.operators, List.mem_cons, List.not_mem_nil, or_false] at h
  rcases h with hkind | hkind | hkind | hkind <;> simp only [Token.event, hkind]

/-- Tokens without names that are read to their end without a failure make up a formula without
calls, and each of them yields its event. -/
theorem arithmetic_of_succeeds (hkind : reader.kind = .number)
    (hfree : ∀ token ∈ tokens, token.kind ≠ .identifier) {complete : Bool}
    (h : reader.Succeeds (stageOf complete) groups tokens) :
    Arithmetic complete tokens ∧
      (reader.walk (stageOf complete) groups tokens).events = tokens.map Token.event := by
  induction tokens generalizing complete groups with
  | nil =>
    obtain ⟨hstage, -⟩ := end_cases h
    cases complete with
    | true => exact ⟨.done, rfl⟩
    | false => cases hstage
  | cons token tokens ih =>
    obtain ⟨hname, hrest⟩ := List.forall_mem_cons.1 hfree
    -- a token that yields its event is followed by such tokens
    have next (after : Bool) {stage : Stage} {left : List Token} {event : Event}
        (hevent : token.event = event) (h : reader.Succeeds stage groups (token :: tokens))
        (hwalk : reader.walk stage groups (token :: tokens)
          = (reader.walk (stageOf after) left tokens).after [event]) :
        Arithmetic after tokens ∧
          (reader.walk stage groups (token :: tokens)).events
            = (token :: tokens).map Token.event := by
      obtain ⟨hafter, hevents⟩ := ih hrest (succeeds_after hwalk h)
      refine ⟨hafter, ?_⟩
      rw [hwalk, ← hevent]
      exact congrArg (token.event :: ·) hevents
    cases complete with
    | false =>
      change reader.Succeeds .operand groups (token :: tokens) at h
      rcases operand_cases h with hblank | hsign | ⟨-, hnumber⟩ | ⟨htext, -⟩ |
        ⟨hopening, hdepth⟩ | hidentifier
      · have hevent : token.event = .constant token.text := by simp only [Token.event, hblank]
        exact (next false hevent h (walk_blankBefore hblank)).imp_left (.blank hblank)
      · have hevent := event_of_operator (operator_of_sign (hkind ▸ hsign))
        exact (next false hevent h (walk_sign hsign)).imp_left (.sign (hkind ▸ hsign))
      · have hevent : token.event = .number token.text := by simp only [Token.event, hnumber]
        exact (next true hevent h (walk_number hkind hnumber)).imp_left (.number hnumber)
      · rw [hkind] at htext
        cases htext
      · have hevent : token.event = .constant token.text := by simp only [Token.event, hopening]
        exact (next false hevent h (walk_opening hopening hdepth)).imp_left (.opening hopening)
      · exact absurd hidentifier hname
    | true =>
      change reader.Succeeds .operator groups (token :: tokens) at h
      rcases operator_cases h with hblank | hoperator | ⟨hclosing, opening, outer, rfl⟩
      · have hevent : token.event = .constant token.text := by simp only [Token.event, hblank]
        exact (next true hevent h (walk_blankAfter hblank)).imp_left (.blank hblank)
      · have hevent := event_of_operator (hkind ▸ hoperator)
        exact (next false hevent h (walk_operator hoperator)).imp_left
          (.operator (hkind ▸ hoperator))
      · have hevent : token.event = .constant token.text := by simp only [Token.event, hclosing]
        exact (next true hevent h (walk_closing hclosing)).imp_left (.closing hclosing)

end Reader

/-- A number formula that is read without a failure and calls nothing. -/
theorem arithmetic_of_read {scope : Scope} {e : Expression}
    (hread : (ofExpression scope .number e).failure = none)
    (hfree : (ofExpression scope .number e).events.any Event.isCall = false) :
    Arithmetic false (Token.lexemes e.text) ∧
      (ofExpression scope .number e).events = (Token.lexemes e.text).map Token.event := by
  have hnameless := (derives_of_ofExpression hread).nameless hfree
  by_cases hall : (Token.lexemes e.text).all Token.isWhitespace = true
  · simp only [ofExpression, hall, if_true] at hread
    cases hread
  · rw [ofExpression_eq_walk hall] at hread ⊢
    exact Reader.arithmetic_of_succeeds rfl hnameless hread

end Trace

/-- Events of tokens are shown without a request. -/
theorem Fragment.shown_tokens (generator : Generator) (tokens : List Token) (fragment : Fragment) :
    shown generator (tokens.map Token.event) fragment
      = .done (Except.ok (), fragment.append (String.ofList (Token.codes tokens))) := by
  have hvisit (token : Token) (fragment : Fragment) :
      fragment.visit generator token.event
        = .done (Except.ok (), fragment.append token.code) := by
    cases hkind : token.kind
    all_goals
      simp only [Token.event, Token.code, hkind]
      rfl
  induction tokens generalizing fragment with
  | nil =>
    have hnothing : fragment.append "" = fragment := by
      rw [append, String.append_empty]
    exact congrArg (fun fragment => Script.done (Except.ok (), fragment)) hnothing.symm
  | cons token tokens ih =>
    have hcode : (fragment.append token.code).append (String.ofList (Token.codes tokens))
        = fragment.append (String.ofList (Token.codes (token :: tokens))) := by
      rw [Token.codes_cons, String.ofList_append, String.ofList_toList]
      simp only [append, String.append_assoc]
    rw [List.map_cons, shown_cons, hvisit, ← hcode]
    exact ih (fragment.append token.code)

/-- The script for a formula without calls is done at once. -/
theorem Generator.script_arithmetic (generator : Generator) {e : Expression}
    (hread : (Trace.ofExpression generator.scope .number e).failure = none)
    (hfree : (Trace.ofExpression generator.scope .number e).events.any Event.isCall = false) :
    generator.script .number e
      = .done (Except.ok (String.ofList (Token.codes (Token.lexemes e.text)))) := by
  obtain ⟨-, hevents⟩ := Trace.arithmetic_of_read hread hfree
  rw [script, Fragment.ofTrace_eq, hevents, Fragment.shown_tokens, Trace.result, hread]
  show Script.done (Except.ok ("" ++ String.ofList (Token.codes (Token.lexemes e.text)))) = _
  rw [String.empty_append]

end EventFormula
