import EventFormula.Proofs.Token.Normal

/-!
# Normal forms

The code of a number formula without calls is a number formula again. It has the tokens of the
formula, each number with a point or an exponent in it, so it is read in the same way and there is
nothing left to change: lowering it gives the same code once more, whatever the generator and the
place are. The main statement is `lower_normal`.
-/

namespace EventFormula

namespace Trace.Reader

variable {reader other : Reader} {groups left tokens others : List Token}

theorem succeeds_of_after {stage next : Stage} {rest : List Token} {events : List Event}
    (hwalk : reader.walk stage groups tokens = (reader.walk next left rest).after events)
    (h : reader.Succeeds next left rest) : reader.Succeeds stage groups tokens := by
  rw [Succeeds, hwalk]
  exact h

/-- Outside of calls reading goes by the kinds of the tokens and by how many groups are open. -/
theorem succeeds_of_kinds (hreader : reader.kind = .number) (hother : other.kind = .number)
    (hfree : ∀ token ∈ tokens, token.kind ≠ .identifier)
    (hkinds : others.map Token.kind = tokens.map Token.kind) (hgroups : left.length = groups.length)
    {complete : Bool} (h : reader.Succeeds (stageOf complete) groups tokens) :
    other.Succeeds (stageOf complete) left others := by
  induction tokens generalizing others groups left complete with
  | nil =>
    obtain rfl := List.map_eq_nil_iff.1 hkinds
    obtain ⟨hstage, rfl⟩ := end_cases h
    obtain rfl := List.length_eq_zero_iff.1 hgroups
    rw [hstage]
    rfl
  | cons token tokens ih =>
    obtain ⟨first, rest, rfl, hfirst, hrest⟩ := List.map_eq_cons_iff.1 hkinds
    obtain ⟨hname, hfree⟩ := List.forall_mem_cons.1 hfree
    -- where the one reader goes on after a token, so does the other
    have next (after : Bool) {stage : Stage} {inner outer : List Token} {events : List Event}
        (hlength : outer.length = inner.length)
        (hwalk : reader.walk stage groups (token :: tokens)
          = (reader.walk (stageOf after) inner tokens).after events)
        (h : reader.Succeeds stage groups (token :: tokens)) :
        other.Succeeds (stageOf after) outer rest :=
      ih hfree hrest hlength (succeeds_after hwalk h)
    cases complete with
    | false =>
      change reader.Succeeds .operand groups (token :: tokens) at h
      change other.Succeeds .operand left (first :: rest)
      rcases operand_cases h with hblank | hsign | ⟨-, hnumber⟩ | ⟨htext, -⟩ |
        ⟨hopening, hdepth⟩ | hidentifier
      · exact succeeds_of_after (walk_blankBefore (hfirst.trans hblank))
          (next false hgroups (walk_blankBefore hblank) h)
      · have hother : first.kind ∈ other.kind.signs := by rwa [hfirst, hother, ← hreader]
        exact succeeds_of_after (walk_sign hother) (next false hgroups (walk_sign hsign) h)
      · exact succeeds_of_after (walk_number hother (hfirst.trans hnumber))
          (next true hgroups (walk_number hreader hnumber) h)
      · rw [hreader] at htext
        cases htext
      · have hless : left.length < maxGroups := hgroups ▸ hdepth
        have hmore : (first :: left).length = (token :: groups).length :=
          congrArg (· + 1) hgroups
        exact succeeds_of_after (walk_opening (hfirst.trans hopening) hless)
          (next false hmore (walk_opening hopening hdepth) h)
      · exact absurd hidentifier hname
    | true =>
      change reader.Succeeds .operator groups (token :: tokens) at h
      change other.Succeeds .operator left (first :: rest)
      rcases operator_cases h with hblank | hoperator | ⟨hclosing, opening, outer, rfl⟩
      · exact succeeds_of_after (walk_blankAfter (hfirst.trans hblank))
          (next true hgroups (walk_blankAfter hblank) h)
      · have hother : first.kind ∈ other.kind.operators := by rwa [hfirst, hother, ← hreader]
        exact succeeds_of_after (walk_operator hother)
          (next false hgroups (walk_operator hoperator) h)
      · obtain ⟨innermost, more, rfl⟩ := List.exists_cons_of_length_eq_add_one hgroups
        have hless : more.length = outer.length := Nat.succ.inj hgroups
        exact succeeds_of_after (walk_closing (hfirst.trans hclosing))
          (next true hless (walk_closing hclosing) h)

end Trace.Reader

theorem Token.isCall_event (token : Token) : token.event.isCall = false := by
  unfold Token.event
  split <;> rfl

/-- A formula whose tokens are of the kinds of one without calls is such a formula, too. -/
theorem Trace.read_of_kinds {scope : Scope} (other : Scope) {e f : Expression}
    (hread : (ofExpression scope .number e).failure = none)
    (hfree : (ofExpression scope .number e).events.any Event.isCall = false)
    (hkinds : (Token.lexemes f.text).map Token.kind = (Token.lexemes e.text).map Token.kind) :
    (ofExpression other .number f).failure = none ∧
      (ofExpression other .number f).events.any Event.isCall = false := by
  have hnameless := (derives_of_ofExpression hread).nameless hfree
  have hnames : ∀ token ∈ Token.lexemes f.text, token.kind ≠ .identifier := by
    have hmap : ∀ kind ∈ (Token.lexemes e.text).map Token.kind, kind ≠ .identifier :=
      List.forall_mem_map.2 hnameless
    rw [← hkinds] at hmap
    exact fun token hmem => hmap token.kind (List.mem_map_of_mem hmem)
  have hall : ¬ (Token.lexemes e.text).all Token.isWhitespace = true := by
    intro hall
    simp only [ofExpression, hall, if_true] at hread
    cases hread
  have hother : ¬ (Token.lexemes f.text).all Token.isWhitespace = true := by
    have hblanks (tokens : List Token) :
        tokens.all Token.isWhitespace = (tokens.map Token.kind).all (· == .whitespace) := by
      rw [List.all_map]
      rfl
    rwa [hblanks, hkinds, ← hblanks]
  rw [ofExpression_eq_walk hall] at hread
  rw [ofExpression_eq_walk hother]
  have hsucceeds : (Reader.ofExpression other .number f).Succeeds (Reader.stageOf false) []
      (Token.lexemes f.text) := Reader.succeeds_of_kinds rfl rfl hnameless hkinds rfl hread
  have hevents := (Reader.arithmetic_of_succeeds rfl hnames hsucceeds).2
  refine ⟨hsucceeds, ?_⟩
  change (Reader.walk _ (Reader.stageOf false) [] _).events.any _ = false
  rw [hevents, List.any_map]
  exact List.any_eq_false.2 fun token _ => by rw [Function.comp_apply, token.isCall_event]; decide

namespace Fragment

theorem result_of_finish {fragment : Fragment} {read : Except Failure Unit} {code : String}
    (h : fragment.finish read = .ok code) : read = .ok () := by
  unfold finish at h
  split at h
  · cases h
  · cases read with
    | ok value => rfl
    | error failure => cases h

end Fragment

namespace Generator

variable {generator : Generator} {e : Expression} {state : State}

/-- A formula has code only if it is read without a failure. -/
theorem failure_of_run {handler : Script.Handler (StateM State)} {kind : Expression.Kind}
    {code : String} (h : ((generator.script kind e).run handler state).1 = .ok code) :
    (Trace.ofExpression generator.scope kind e).failure = none := by
  rw [script, Fragment.ofTrace_eq, Script.run_then] at h
  have hshown := Fragment.shown_ok_of_finish h
  have hread := Fragment.result_of_finish h
  rw [hshown] at hread
  exact Trace.failure_of_result hread

section New
variable {kind : Expression.Kind} (hnew : state.context.remembered? kind e = none)
include hnew

/-- A formula that is not recalled has code only if a level is left for it and it is read. -/
theorem read_of_lower {code : String} (h : (generator.lower kind e state).1 = .ok code) :
    state.context.depth < state.context.maxDepth ∧
      (Trace.ofExpression generator.scope kind e).failure = none := by
  change (generator.lowerWithin _ state.context.levels kind e state).1 = _ at h
  cases hlevels : state.context.levels with
  | zero =>
    rw [hlevels, lowerWithin_zero generator hnew] at h
    cases h
  | succ levels =>
    rw [hlevels, lowerWithin_succ generator hnew] at h
    have hless : 0 < state.context.levels := hlevels ▸ Nat.succ_pos levels
    exact ⟨Nat.lt_of_sub_pos hless, failure_of_run h⟩

/-- At whatever level, a script that makes no request is lowered to its value. -/
theorem lower_of_script_done {result : Except Failure String}
    (hscript : generator.script kind e = .done result)
    (hlevel : state.context.depth < state.context.maxDepth) :
    (generator.lower kind e state).1 = result := by
  obtain ⟨levels, hlevels⟩ : ∃ levels, state.context.levels = levels + 1 :=
    ⟨state.context.levels - 1, by rw [Context.levels]; omega⟩
  change (generator.lowerWithin _ state.context.levels kind e state).1 = _
  rw [hlevels, lowerWithin_succ generator hnew, ended, hscript]
  rfl

end New

variable (generator) in
/-- What is remembered of the formula, lowering it came to before. -/
def Earned (kind : Expression.Kind) (e : Expression) (state : State) : Prop :=
  ∀ code, state.context.remembered? kind e = some code →
    ∃ before : State, before.context.remembered? kind e = none ∧
      (generator.lower kind e before).1 = .ok code

theorem earned_of_idle (h : state.context.Idle) (kind : Expression.Kind) (e : Expression) :
    generator.Earned kind e state := by
  intro code hcode
  rw [Context.remembered?_of_idle h kind e] at hcode
  cases hcode

section Earned
variable {kind : Expression.Kind} (hearned : generator.Earned kind e state)
include hearned

/-- A fragment was made where the formula was not recalled, here or before. -/
theorem exists_new {code : String} (h : (generator.lower kind e state).1 = .ok code) :
    ∃ before : State, before.context.remembered? kind e = none ∧
      (generator.lower kind e before).1 = .ok code := by
  cases hrecall : state.context.remembered? kind e with
  | none => exact ⟨state, hrecall, h⟩
  | some found =>
    have hfound : (generator.lower kind e state).1 = .ok found :=
      congrArg Prod.fst (lowerWithin_of_recall generator hrecall)
    cases hfound.symm.trans h
    exact hearned code hrecall

theorem lower_of_earned {result : Except Failure String}
    (hscript : generator.script kind e = .done result)
    (hlevel : state.context.depth < state.context.maxDepth) :
    (generator.lower kind e state).1 = result := by
  cases hrecall : state.context.remembered? kind e with
  | none => exact lower_of_script_done hrecall hscript hlevel
  | some found =>
    obtain ⟨before, hnew, hfound⟩ := hearned found hrecall
    have hbefore := lower_of_script_done hnew hscript (read_of_lower hnew hfound).1
    rw [← hbefore, hfound]
    exact congrArg Prod.fst (lowerWithin_of_recall generator hrecall)

end Earned

/-- The code of a number formula without calls is in normal form: its tokens are those of the
formula, each number with a point or an exponent and of the same value, and it is a formula without
calls whose code it is itself. -/
theorem lower_normal {code : String}
    (hfree : (Trace.ofExpression generator.scope .number e).events.any Event.isCall = false)
    (hearned : generator.Earned .number e state)
    (hcode : (generator.lower .number e state).1 = .ok code) :
    List.Forall₂ Token.Normalises (Token.lexemes e.text) (Token.lexemes code) ∧
      ∀ (other : Generator) (f : Expression), f.text = code →
        (Trace.ofExpression other.scope .number f).failure = none ∧
        (Trace.ofExpression other.scope .number f).events.any Event.isCall = false ∧
        ∀ state : State, other.Earned .number f state →
          state.context.depth < state.context.maxDepth →
          (other.lower .number f state).1 = .ok code := by
  obtain ⟨before, hnew, hcode⟩ := exists_new hearned hcode
  obtain ⟨hlevel, hread⟩ := read_of_lower hnew hcode
  have hvalue := lower_of_script_done hnew (generator.script_arithmetic hread hfree) hlevel
  obtain rfl : code = String.ofList (Token.codes (Token.lexemes e.text)) :=
    Except.ok.inj (hcode.symm.trans hvalue)
  have hlexed : Token.Lexed (Token.lexemes e.text) := ⟨0, e.text.toList, rfl⟩
  have hstable := Token.stable_of_arithmetic (Trace.arithmetic_of_read hread hfree).1 hlexed 0
  have hlexemes : Token.lexemes (String.ofList (Token.codes (Token.lexemes e.text)))
      = Token.placed 0 ((Token.lexemes e.text).map Token.normal) := by
    rw [Token.lexemes, String.toList_ofList]
    exact hstable
  rw [hlexemes]
  refine ⟨Token.normalises_placed hlexed.spelled, fun other f hf => ?_⟩
  have hkinds : (Token.lexemes f.text).map Token.kind = (Token.lexemes e.text).map Token.kind := by
    rw [hf, hlexemes, Token.kinds_placed_normal]
  obtain ⟨hread, hfree⟩ := Trace.read_of_kinds other.scope hread hfree hkinds
  refine ⟨hread, hfree, fun state hearned hlevel => ?_⟩
  rw [lower_of_earned hearned (other.script_arithmetic hread hfree) hlevel, hf, hlexemes,
    Token.codes_placed_normal]

/-- Blanks, signs that touch, groups, and numbers of all shapes. -/
theorem lower_normal_shapes :
    let e := Expression.place "-.5*( 007- -1e2)+--3./(4)" 3
    (Trace.ofExpression Scope.sample .number e).events.any Event.isCall = false ∧
      (JavaScript.generator .sample).Earned .number e (.initial 1) ∧
      ((JavaScript.generator .sample).lower .number e (.initial 1)).1
        = .ok "-.5*( 007.0- -1e2)+--3./(4.0)" ∧
      List.Forall₂ Token.Normalises (Token.lexemes e.text)
        (Token.lexemes "-.5*( 007.0- -1e2)+--3./(4.0)") ∧
      ((JavaScript.generator .sample).lower .number (.ofText "-.5*( 007.0- -1e2)+--3./(4.0)")
        (.initial 1)).1 = .ok "-.5*( 007.0- -1e2)+--3./(4.0)" := by
  intro e
  have hfree : (Trace.ofExpression Scope.sample .number e).events.any Event.isCall = false := by
    decide +kernel
  have hidle : (State.initial 1).context.Idle := Context.idle_fresh none (some 1)
  have hcode : ((JavaScript.generator .sample).lower .number e (.initial 1)).1
      = .ok "-.5*( 007.0- -1e2)+--3./(4.0)" := Except.eq_ok_of_toOption (by decide +kernel)
  obtain ⟨htokens, hagain⟩ :=
    @lower_normal (JavaScript.generator .sample) _ _ _ hfree (earned_of_idle hidle _ _) hcode
  exact ⟨hfree, earned_of_idle hidle _ _, hcode, htokens,
    (hagain (JavaScript.generator .sample) (.ofText "-.5*( 007.0- -1e2)+--3./(4.0)") rfl).2.2
      (.initial 1) (earned_of_idle hidle _ _) (by decide)⟩

end Generator
end EventFormula
