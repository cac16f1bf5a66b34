import EventFormula.Proofs.Expression.Parts
import EventFormula.Proofs.Trace.Sites

/-!
# What a trace points at

While a formula is read everything that is kept from before takes whole characters of it: names, the
parentheses that are open, the arguments of a call so far. A failure is placed at a token, at what
is kept or between the two, so it marks the formula. The formulas that are announced are parts of
it.
-/

namespace EventFormula.Trace

/-- The places kept from before. -/
def Stage.spans : Stage → List Span
  | .operand | .operator => []
  | .name head | .member head => [head.span]
  | .memberName head second | .function head second => [head.span, second.span]
  | .functionName head second third => [head.span, second.span, third.span]
  | .arguments head opening _ inner => head.span :: opening.span :: inner.map Token.span

namespace Reader

/-- All that is kept from before takes whole characters. -/
structure Keeps (cs : List Char) (stage : Stage) (groups : List Token) : Prop where
  stage : ∀ span ∈ stage.spans, span.Cuts cs
  groups : ∀ opening ∈ groups, opening.span.Cuts cs

/-- A step keeps only what takes whole characters, or its failure marks the expression. -/
def Marks (whole : Expression) : Step → Prop
  | .next _ stage groups => Keeps whole.text.toList stage groups
  | .stop failure => whole.Marked failure.span

variable {reader : Reader} {whole : Expression}

section Steps
variable {groups : List Token} {token : Token} (hbase : reader.base = whole.base)
include hbase

theorem marked_placeOf {span : Span} (h : span.Cuts whole.text.toList) :
    whole.Marked (reader.placeOf span) :=
  ⟨span, h, by rw [placeOf, hbase]⟩

variable (htoken : token.span.Cuts whole.text.toList)
include htoken

theorem marks_unexpected (expected : String) :
    Marks whole (.stop (reader.unexpected token expected)) := by
  show whole.Marked (reader.unexpected token expected).span
  rw [span_unexpected]
  exact marked_placeOf hbase htoken

theorem marks_expectedExpression : Marks whole (.stop (reader.expectedExpression token)) := by
  show whole.Marked (reader.expectedExpression token).span
  rw [span_expectedExpression]
  exact marked_placeOf hbase htoken

variable (hgroups : ∀ opening ∈ groups, opening.span.Cuts whole.text.toList)
include hgroups

theorem marks_stepOperand : Marks whole (reader.stepOperand groups token) := by
  have hplain {stage : Stage} (hspans : stage.spans = []) :
      Keeps whole.text.toList stage groups :=
    ⟨fun span hmem => absurd (hspans ▸ hmem) List.not_mem_nil, hgroups⟩
  unfold stepOperand
  repeat' split
  · exact hplain rfl
  · exact hplain rfl
  · exact hplain rfl
  · exact marks_unexpected hbase htoken _
  · exact hplain rfl
  · exact marks_unexpected hbase htoken _
  · exact ⟨fun span hmem => absurd hmem List.not_mem_nil,
      List.forall_mem_cons.2 ⟨htoken, hgroups⟩⟩
  · exact marked_placeOf hbase htoken
  · exact ⟨List.forall_mem_singleton.2 htoken, hgroups⟩
  · exact marks_expectedExpression hbase htoken

theorem marks_stepOperator : Marks whole (reader.stepOperator groups token) := by
  have hplain {stage : Stage} {left : List Token} (hspans : stage.spans = [])
      (hleft : ∀ opening ∈ left, opening.span.Cuts whole.text.toList) :
      Keeps whole.text.toList stage left :=
    ⟨fun span hmem => absurd (hspans ▸ hmem) List.not_mem_nil, hleft⟩
  unfold stepOperator
  repeat' split
  · exact hplain rfl hgroups
  · exact hplain rfl hgroups
  · exact hplain rfl (List.forall_mem_cons.1 hgroups).2
  · exact marked_placeOf hbase htoken
  · exact marks_unexpected hbase htoken _
  · exact marks_unexpected hbase htoken _

omit hbase in
theorem marks_openCall {found : Except Failure Head}
    (hok : ∀ head, found = .ok head → head.span.Cuts whole.text.toList)
    (herror : ∀ failure, found = .error failure → whole.Marked failure.span) :
    Marks whole (openCall found token groups) := by
  cases found with
  | ok head =>
    exact ⟨List.forall_mem_cons.2 ⟨hok head rfl, List.forall_mem_singleton.2 htoken⟩, hgroups⟩
  | error failure => exact herror failure rfl

/-- A call whose arguments do not fit fails at the call or at a blank argument. -/
theorem marks_stepArguments {head : Head} {opening : Token} {depth : Nat} {inner : List Token}
    (hhead : head.span.Cuts whole.text.toList) (hopening : opening.span.Cuts whole.text.toList)
    (hinner : ∀ token ∈ inner, token.span.Cuts whole.text.toList) :
    Marks whole (reader.stepArguments head opening depth inner groups token) := by
  have hcollect (depth : Nat) :
      Keeps whole.text.toList (.arguments head opening depth (token :: inner)) groups := by
    refine ⟨List.forall_mem_cons.2 ⟨hhead, List.forall_mem_cons.2 ⟨hopening, ?_⟩⟩, hgroups⟩
    exact List.forall_mem_map.2 (List.forall_mem_cons.2 ⟨htoken, hinner⟩)
  unfold stepArguments
  split
  · exact hcollect _
  · exact hcollect _
  · split
    · exact ⟨fun span hmem => absurd hmem List.not_mem_nil, hgroups⟩
    · rename_i failure hfailure
      rcases Call.align_error (Call.map_error hfailure) with hspan | ⟨argument, hspan, hmissing⟩
      · show whole.Marked failure.span
        rw [hspan]
        exact marked_placeOf hbase (hhead.merge htoken)
      · obtain ⟨parameter, hmem, -, hblank⟩ := hmissing
        have hsplit := (List.of_mem_zip hmem).2
        rw [hbase] at hsplit
        have hreverse : ∀ token ∈ inner.reverse, token.span.Cuts whole.text.toList :=
          fun token hmem => hinner token (List.mem_reverse.1 hmem)
        show whole.Marked failure.span
        rw [hspan]
        exact Call.marked_of_mem_split hreverse hopening.stop hsplit hblank
  · exact marked_placeOf hbase htoken
  · exact hcollect _

theorem marks_step {stage : Stage} (hstage : ∀ span ∈ stage.spans, span.Cuts whole.text.toList) :
    Marks whole (reader.step stage groups token) := by
  have hnext {next : Stage} (hspans : ∀ span ∈ next.spans, span ∈ stage.spans ∨ span = token.span) :
      Keeps whole.text.toList next groups := by
    refine ⟨fun span hmem => ?_, hgroups⟩
    rcases hspans span hmem with hmem | rfl
    · exact hstage span hmem
    · exact htoken
  cases stage with
  | operand => exact marks_stepOperand hbase htoken hgroups
  | operator => exact marks_stepOperator hbase htoken hgroups
  | name head =>
    obtain ⟨hhead, -⟩ := List.forall_mem_cons.1 hstage
    simp only [step]
    split
    · refine marks_openCall htoken hgroups (fun found h => ?_) fun failure h => ?_
      · unfold freeHead at h
        split at h <;> cases h
        exact hhead
      · unfold freeHead at h
        split at h <;> cases h
        exact marked_placeOf hbase hhead
    · exact hnext fun span hmem => Or.inl hmem
    · exact marks_unexpected hbase htoken _
  | member head =>
    simp only [step]
    split
    · exact hnext (by simp [Stage.spans])
    · exact marks_unexpected hbase htoken _
  | memberName head second =>
    obtain ⟨hhead, hothers⟩ := List.forall_mem_cons.1 hstage
    obtain ⟨hsecond, -⟩ := List.forall_mem_cons.1 hothers
    simp only [step]
    split
    · refine marks_openCall htoken hgroups (fun found h => ?_) fun failure h => ?_
      · simp only [objectHead] at h
        split at h <;> cases h
        exact hhead
      · simp only [objectHead] at h
        split at h <;> cases h
        exact marked_placeOf hbase hsecond
    · exact hnext fun span hmem => Or.inl hmem
    · exact marks_unexpected hbase htoken _
  | function head second =>
    simp only [step]
    split
    · exact hnext (by simp [Stage.spans])
    · exact marks_unexpected hbase htoken _
  | functionName head second third =>
    obtain ⟨hhead, hothers⟩ := List.forall_mem_cons.1 hstage
    obtain ⟨hsecond, hlast⟩ := List.forall_mem_cons.1 hothers
    obtain ⟨hthird, -⟩ := List.forall_mem_cons.1 hlast
    simp only [step]
    split
    · refine marks_openCall htoken hgroups (fun found h => ?_) fun failure h => ?_
      · simp only [behaviorHead] at h
        split at h
        · cases h
        · split at h <;> cases h
          exact hhead
      · simp only [behaviorHead] at h
        split at h
        · cases h
          exact marked_placeOf hbase hsecond
        · split at h <;> cases h
          exact marked_placeOf hbase hthird
    · exact marks_unexpected hbase htoken _
  | arguments head opening depth inner =>
    obtain ⟨hhead, hothers⟩ := List.forall_mem_cons.1 hstage
    obtain ⟨hopening, hinner⟩ := List.forall_mem_cons.1 hothers
    exact marks_stepArguments hbase htoken hgroups hhead hopening (List.forall_mem_map.1 hinner)

end Steps

/-- So is a failure that the end of the text brings. -/
theorem marked_atEnd {stage : Stage} {groups : List Token} {failure : Failure}
    (hbase : reader.base = whole.base) (hclosing : reader.closing.span.Cuts whole.text.toList)
    (hkeeps : Keeps whole.text.toList stage groups) (h : reader.atEnd stage groups = some failure) :
    whole.Marked failure.span := by
  have hunexpected {expected : String}
      (h : some (reader.unexpected reader.closing expected) = some failure) :
      whole.Marked failure.span := by
    cases h
    exact marks_unexpected hbase hclosing expected
  cases stage with
  | operand =>
    cases h
    exact marks_expectedExpression hbase hclosing
  | operator =>
    cases groups with
    | nil => cases h
    | cons opening groups =>
      cases h
      exact marked_placeOf hbase (List.forall_mem_cons.1 hkeeps.groups).1
  | name head => exact hunexpected h
  | member head => exact hunexpected h
  | memberName head second => exact hunexpected h
  | function head second => exact hunexpected h
  | functionName head second third => exact hunexpected h
  | arguments head opening depth inner =>
    cases h
    obtain ⟨-, hothers⟩ := List.forall_mem_cons.1 hkeeps.stage
    exact marked_placeOf hbase (List.forall_mem_cons.1 hothers).1

/-- Whatever ends the walk over tokens of an expression marks it. -/
theorem marked_walk {stage : Stage} {groups tokens : List Token} {failure : Failure}
    (hbase : reader.base = whole.base) (hclosing : reader.closing.span.Cuts whole.text.toList)
    (htokens : ∀ token ∈ tokens, token.span.Cuts whole.text.toList)
    (hkeeps : Keeps whole.text.toList stage groups)
    (h : (reader.walk stage groups tokens).failure = some failure) : whole.Marked failure.span := by
  induction tokens generalizing stage groups with
  | nil => exact marked_atEnd hbase hclosing hkeeps h
  | cons token tokens ih =>
    obtain ⟨htoken, hrest⟩ := List.forall_mem_cons.1 htokens
    have hmarks : Marks whole (reader.step stage groups token) :=
      marks_step hbase htoken hkeeps.groups hkeeps.stage
    cases hstep : reader.step stage groups token with
    | next events next left =>
      rw [hstep] at hmarks
      rw [walk_next hstep] at h
      exact ih hrest hmarks h
    | stop failure =>
      rw [hstep] at hmarks
      simp only [walk, hstep] at h
      cases h
      exact hmarks

/-- The tokens between the parentheses of a call are cut out of those of the text. -/
theorem infix_of_mem_sites {stage : Stage} {groups tokens : List Token} {site : Site}
    (h : site ∈ reader.sites stage groups tokens) : site.inner <:+: tokens := by
  induction tokens generalizing stage groups with
  | nil => cases h
  | cons token tokens ih =>
    have hbehind : tokens <:+: token :: tokens := (List.suffix_cons ..).isInfix
    rw [sites] at h
    split at h
    · rename_i events next left hstep
      rcases List.mem_append.1 h with h | h
      · unfold Stage.opened at h
        split at h
        · cases List.mem_singleton.1 h
          have hinner := enclosed_prefix 0 tokens
          exact hinner.isInfix.trans hbehind
        · cases h
      · exact (ih h).trans hbehind
    · cases h

end Reader

variable {scope : Scope} {kind : Expression.Kind} {e : Expression}

/-- The failure that reading an expression ends with marks it. -/
theorem marked_of_failure {failure : Failure} (hfits : e.stop ≤ maxOffset)
    (h : (ofExpression scope kind e).failure = some failure) : e.Marked failure.span := by
  have hlaid := Token.laid_lexemes (Nat.le_trans (Nat.le_add_left _ e.base) hfits)
  have htokens : ∀ token ∈ Token.lexemes e.text, token.span.Cuts e.text.toList := by
    intro token hmem
    have hcuts := hlaid.cuts hmem
    rwa [Token.lexemes, Token.chars_lexemesFrom] at hcuts
  have hclosing : (Token.closing e.text).span = .point (Text.size e.text.toList) := by
    have hsize : Text.size e.text.toList ≤ maxOffset :=
      Nat.le_trans (Nat.le_add_left _ e.base) hfits
    simp only [Token.closing, Span.ofRange, Span.point, Nat.min_eq_left hsize]
  rw [ofExpression] at h
  split at h
  · cases h
    exact Expression.marked_span hfits
  · have hnothing : Reader.Keeps e.text.toList .operand [] :=
      ⟨fun span hmem => absurd hmem List.not_mem_nil,
        fun opening hmem => absurd hmem List.not_mem_nil⟩
    refine Reader.marked_walk rfl ?_ htokens hnothing h
    exact hclosing ▸ Span.cuts_point (Text.isCut_size _)

/-- What is announced while an expression is read is part of it. -/
theorem partOf_of_announced {formula : Expression.Kind × Expression} (hfits : e.stop ≤ maxOffset)
    (h : formula ∈ formulas (ofExpression scope kind e).events) : formula.2.PartOf e := by
  obtain ⟨rest, hrest⟩ := (covered_ofExpression scope kind hfits).announced
  have hmem : formula ∈ (sites scope kind e).flatMap (Site.formulas (.ofExpression scope kind e)) :=
    hrest ▸ List.mem_append_left rest h
  obtain ⟨site, hsite, hformula⟩ := List.mem_flatMap.1 hmem
  have hwritten := (Call.formulas_sublist _ _).subset (List.mem_map_of_mem hformula)
  obtain ⟨hsplit, hempty⟩ := List.mem_filter.1 hwritten
  exact Call.partOf_of_mem_split (Reader.infix_of_mem_sites hsite) hfits hsplit
    (by simpa using hempty)

end EventFormula.Trace
