import EventFormula.Proofs.Trace.Descent
import EventFormula.Proofs.Trace.Grammar
import EventFormula.Trace.Recording

/-!
# Reading is deriving

Tokens that are read without a failure can be derived: a term is split off where one has to start,
and what follows a complete term extends the formula read so far, up to the end or to the
parenthesis that closes the group. With `walk_of_derives` this gives the main statement, that a
formula is recorded without a failure just if its tokens can be derived, and that what is recorded
then are the events of any derivation.
-/

namespace EventFormula

namespace Trace

namespace Reader

variable (reader : Reader)

/-- The tokens are read to their end without a failure. -/
def Succeeds (stage : Stage) (groups tokens : List Token) : Prop :=
  (reader.walk stage groups tokens).failure = none

variable {reader} {groups : List Token} {token : Token} {tokens : List Token}

theorem step_of_succeeds {stage : Stage} (h : reader.Succeeds stage groups (token :: tokens)) :
    ∃ events next left, reader.step stage groups token = .next events next left ∧
      reader.Succeeds next left tokens := by
  cases hstep : reader.step stage groups token with
  | next events next left =>
    rw [Succeeds, walk_next hstep] at h
    exact ⟨events, next, left, rfl, h⟩
  | stop failure =>
    simp only [Succeeds, walk, hstep] at h
    cases h

theorem succeeds_after {stage next : Stage} {left rest : List Token} {events : List Event}
    (hwalk : reader.walk stage groups tokens = (reader.walk next left rest).after events)
    (h : reader.Succeeds stage groups tokens) : reader.Succeeds next left rest := by
  rw [Succeeds, hwalk] at h
  exact h

theorem succeeds_of_eq {stage next : Stage} {left rest : List Token}
    (hwalk : reader.walk stage groups tokens = reader.walk next left rest)
    (h : reader.Succeeds stage groups tokens) : reader.Succeeds next left rest := by
  rw [Succeeds, hwalk] at h
  exact h

/-- Only behind a complete term and outside of all groups a formula can end. -/
theorem end_cases {stage : Stage} (h : reader.Succeeds stage groups []) :
    stage = .operator ∧ groups = [] := by
  have hend : reader.atEnd stage groups = none := h
  unfold atEnd at hend
  split at hend <;> first | exact ⟨rfl, rfl⟩ | cases hend

/-- The tokens that a term can start with. -/
theorem operand_cases (h : reader.Succeeds .operand groups (token :: tokens)) :
    token.kind = .whitespace ∨ token.kind ∈ reader.kind.signs ∨
      (reader.kind = .number ∧ token.kind = .number) ∨
      (reader.kind = .text ∧ token.kind = .string) ∨
      (token.kind = .leftParen ∧ groups.length < maxGroups) ∨ token.kind = .identifier := by
  obtain ⟨events, next, left, hstep, -⟩ := step_of_succeeds h
  rw [← signs_iff]
  simp only [step, stepOperand] at hstep
  split at hstep
  · rename_i hblank
    exact Or.inl (beq_iff_eq.1 hblank)
  split at hstep
  · rename_i hsigns
    exact Or.inr (Or.inl hsigns)
  split at hstep
  · simp [*]
  · cases hstep
  · simp [*]
  · cases hstep
  · split at hstep
    · simp [*]
    · cases hstep
  · simp [*]
  · cases hstep

/-- The tokens that can follow a complete term. -/
theorem operator_cases (h : reader.Succeeds .operator groups (token :: tokens)) :
    token.kind = .whitespace ∨ token.kind ∈ reader.kind.operators ∨
      (token.kind = .rightParen ∧ ∃ opening outer, groups = opening :: outer) := by
  obtain ⟨events, next, left, hstep, -⟩ := step_of_succeeds h
  rw [← joins_iff]
  simp only [step, stepOperator] at hstep
  split at hstep
  · rename_i hblank
    exact Or.inl (beq_iff_eq.1 hblank)
  split at hstep
  · rename_i hjoins
    exact Or.inr (Or.inl hjoins)
  split at hstep
  · rename_i hkind
    exact Or.inr (Or.inr ⟨hkind, _, _, rfl⟩)
  · cases hstep
  · cases hstep
  · cases hstep

/-- Unless a term has just been completed, there is a token more. -/
theorem token_of_succeeds {stage : Stage} (hstage : stage ≠ .operator)
    (h : reader.Succeeds stage groups tokens) :
    ∃ token rest events next left, tokens = token :: rest ∧
      reader.step stage groups token = .next events next left ∧
      reader.Succeeds next left rest := by
  cases tokens with
  | nil => exact absurd (end_cases h).1 hstage
  | cons token rest =>
    obtain ⟨events, next, left, hstep, hnext⟩ := step_of_succeeds h
    exact ⟨token, rest, events, next, left, rfl, hstep, hnext⟩

theorem head_of_openCall {found : Except Failure Head} {opening : Token} {events : List Event}
    {next : Stage} {left : List Token}
    (h : openCall found opening groups = .next events next left) :
    ∃ head, found = .ok head := by
  cases found with
  | ok head => exact ⟨head, rfl⟩
  | error failure => cases h

theorem names_of_freeHead {name : Token} {head : Head} (hname : name.kind = .identifier)
    (h : reader.freeHead name = .ok head) : reader.Names [name] head := by
  unfold freeHead at h
  split at h
  · cases h
    exact .free hname ‹_›
  · cases h

theorem names_of_objectHead {name dot member : Token} {head : Head}
    (hname : name.kind = .identifier) (hdot : dot.kind = .dot) (hmember : member.kind = .identifier)
    (h : reader.objectHead name member = .ok head) : reader.Names [name, dot, member] head := by
  simp only [objectHead] at h
  split at h
  · cases h
    exact .object hname hdot hmember ‹_›
  · cases h

theorem names_of_behaviorHead {name dot member colons function : Token} {head : Head}
    (hname : name.kind = .identifier) (hdot : dot.kind = .dot) (hmember : member.kind = .identifier)
    (hcolons : colons.kind = .doubleColon) (hfunction : function.kind = .identifier)
    (h : reader.behaviorHead name member function = .ok head) :
    reader.Names [name, dot, member, colons, function] head := by
  simp only [behaviorHead] at h
  split at h
  · cases h
  · split at h
    · cases h
      exact .behavior hname hdot hmember hcolons hfunction ‹_› ‹_›
    · cases h

/-- Behind `::` the name of a known function and an opening parenthesis have to follow. -/
theorem function_of_succeeds {name member : Token}
    (h : reader.Succeeds (.function name member) groups tokens) :
    ∃ function opening rest head, tokens = function :: opening :: rest ∧
      function.kind = .identifier ∧ opening.kind = .leftParen ∧
      reader.behaviorHead name member function = .ok head := by
  obtain ⟨function, rest, events, next, left, rfl, hstep, h⟩ := token_of_succeeds (by simp) h
  simp only [step] at hstep
  split at hstep
  · rename_i hfunction
    cases hstep
    obtain ⟨opening, rest, events, next, left, rfl, hstep, -⟩ := token_of_succeeds (by simp) h
    simp only [step] at hstep
    split at hstep
    · rename_i hopening
      obtain ⟨head, hhead⟩ := head_of_openCall hstep
      exact ⟨function, opening, rest, head, rfl, hfunction, hopening, hhead⟩
    · cases hstep
  · cases hstep

/-- Behind the point a name has to follow, and then a parenthesis or `::`. -/
theorem member_of_succeeds {name : Token} (h : reader.Succeeds (.member name) groups tokens) :
    ∃ member token rest, tokens = member :: token :: rest ∧ member.kind = .identifier ∧
      ((token.kind = .leftParen ∧ ∃ head, reader.objectHead name member = .ok head) ∨
        (token.kind = .doubleColon ∧ reader.Succeeds (.function name member) groups rest)) := by
  obtain ⟨member, rest, events, next, left, rfl, hstep, h⟩ := token_of_succeeds (by simp) h
  simp only [step] at hstep
  split at hstep
  · rename_i hmember
    cases hstep
    obtain ⟨token, rest, events, next, left, rfl, hstep, h⟩ := token_of_succeeds (by simp) h
    refine ⟨member, token, rest, rfl, hmember, ?_⟩
    simp only [step] at hstep
    split at hstep
    · rename_i hopening
      exact Or.inl ⟨hopening, head_of_openCall hstep⟩
    · rename_i hcolons
      cases hstep
      exact Or.inr ⟨hcolons, h⟩
    · cases hstep
  · cases hstep

/-- A name that is read without a failure begins the head of a call. -/
theorem names_of_succeeds {name : Token} (hname : name.kind = .identifier)
    (h : reader.Succeeds (.name name) groups tokens) :
    ∃ first head opening rest, reader.Names first head ∧ opening.kind = .leftParen ∧
      name :: tokens = first ++ opening :: rest := by
  obtain ⟨token, rest, events, next, left, rfl, hstep, h⟩ := token_of_succeeds (by simp) h
  simp only [step] at hstep
  split at hstep
  · rename_i hopening
    obtain ⟨head, hhead⟩ := head_of_openCall hstep
    exact ⟨[name], head, token, rest, names_of_freeHead hname hhead, hopening, rfl⟩
  · rename_i hdot
    cases hstep
    obtain ⟨member, second, rest, rfl, hmember, ⟨hopening, head, hhead⟩ | ⟨hcolons, h⟩⟩ :=
      member_of_succeeds h
    · exact ⟨[name, token, member], head, second, rest,
        names_of_objectHead hname hdot hmember hhead, hopening, rfl⟩
    · obtain ⟨function, opening, rest, head, rfl, hfunction, hopening, hhead⟩ :=
        function_of_succeeds h
      exact ⟨[name, token, member, second, function], head, opening, rest,
        names_of_behaviorHead hname hdot hmember hcolons hfunction hhead, hopening, rfl⟩
  · cases hstep

theorem closed_of_succeeds {head : Head} {opening : Token} {depth : Nat} {before : List Token}
    (h : reader.Succeeds (.arguments head opening depth before) groups (token :: tokens)) :
    token.kind ≠ .unterminatedString := by
  intro hkind
  obtain ⟨events, next, left, hstep, -⟩ := step_of_succeeds h
  simp only [step, stepArguments, hkind] at hstep
  cases hstep

/-- A call in progress goes on in order up to the next parenthesis that closes what was open. -/
theorem balanced_of_succeeds {head : Head} {opening : Token} {depth : Nat} {before : List Token}
    (h : reader.Succeeds (.arguments head opening depth before) groups tokens) :
    ∃ inner closing rest, Balanced inner ∧ closing.kind = .rightParen ∧
      tokens = inner ++ closing :: rest := by
  induction hlength : tokens.length using Nat.strongRecOn generalizing tokens depth before with
  | ind length ih =>
    obtain ⟨token, tail, -, -, -, rfl, -, -⟩ := token_of_succeeds (by simp) h
    rw [List.length_cons] at hlength
    by_cases hopening : token.kind = .leftParen
    · have hdeeper := succeeds_of_eq (walk_deeper hopening) h
      obtain ⟨inner, closing, rest, hinner, hclosing, rfl⟩ :=
        ih tail.length (by omega) hdeeper rfl
      have hafter := succeeds_of_eq (walk_balanced hinner _ _ _) hdeeper
      have hshallower := succeeds_of_eq (walk_shallower hclosing) hafter
      rw [List.length_append, List.length_cons] at hlength
      obtain ⟨others, last, rest, hothers, hlast, rfl⟩ :=
        ih rest.length (by omega) hshallower rfl
      refine ⟨token :: inner ++ closing :: others, last, rest,
        .group hopening hinner hclosing hothers, hlast, ?_⟩
      simp only [List.cons_append, List.append_assoc]
    by_cases hclosing : token.kind = .rightParen
    · exact ⟨[], token, tail, .nil, hclosing, rfl⟩
    have hkind : token.kind ∉ [.leftParen, .rightParen, .unterminatedString] := by
      simp only [List.mem_cons, List.not_mem_nil, or_false, not_or]
      exact ⟨hopening, hclosing, closed_of_succeeds h⟩
    have hnext := succeeds_of_eq (walk_collect hkind) h
    obtain ⟨inner, closing, rest, hinner, hclosing, rfl⟩ := ih tail.length (by omega) hnext rfl
    exact ⟨token :: inner, closing, rest, .token hkind hinner, hclosing, rfl⟩

/-- The parentheses of a call are read only if its arguments match what is called. -/
theorem aligns_of_succeeds {head : Head} {opening closing : Token} {inner rest : List Token}
    (hopening : opening.kind = .leftParen) (hinner : Balanced inner)
    (hclosing : closing.kind = .rightParen)
    (h : reader.Succeeds (.arguments head opening 0 inner.reverse) groups (closing :: rest)) :
    ∃ arguments, reader.Aligns head opening closing inner arguments := by
  obtain ⟨events, next, left, hstep, -⟩ := step_of_succeeds h
  simp only [step, stepArguments, hclosing, callEvents, List.reverse_reverse] at hstep
  cases halign : Call.align head.function head.callable head.given
      (Call.split reader.base opening.span.stop inner)
      (reader.placeOf (head.span.merge closing.span)) with
  | ok arguments => exact ⟨arguments, hopening, hinner, hclosing, halign⟩
  | error failure =>
    rw [halign] at hstep
    cases hstep

/-- A name where a term has to start begins a call. -/
theorem call_of_succeeds (depth : Nat) (hkind : token.kind = .identifier)
    (h : reader.Succeeds .operand groups (token :: tokens)) :
    ∃ first rest events, token :: tokens = first ++ rest ∧
      reader.Derives .primary depth first events := by
  obtain ⟨name, head, opening, tail, hname, hopening, heq⟩ :=
    names_of_succeeds hkind (succeeds_of_eq (walk_name hkind) h)
  rw [heq] at h
  have harguments := succeeds_of_eq (walk_names hname hopening) h
  obtain ⟨inner, closing, rest, hinner, hclosing, rfl⟩ := balanced_of_succeeds harguments
  have hclose := succeeds_of_eq (walk_balanced hinner _ _ _) harguments
  rw [List.append_nil] at hclose
  obtain ⟨arguments, haligns⟩ := aligns_of_succeeds hopening hinner hclosing hclose
  refine ⟨name ++ opening :: inner ++ [closing], rest, _, ?_, .call hname haligns⟩
  rw [heq]
  simp only [List.cons_append, List.append_assoc, List.nil_append]

/-- The tokens end with `more` if no group is open, else `more` is what stands before the
parenthesis that closes the innermost one. -/
def Ends (groups tokens more : List Token) : Prop :=
  (groups = [] ∧ tokens = more) ∨
    ∃ opening outer closing rest, groups = opening :: outer ∧ closing.kind = .rightParen ∧
      tokens = more ++ closing :: rest

theorem Ends.prepend {more : List Token} (first : List Token) (h : Ends groups tokens more) :
    Ends groups (first ++ tokens) (first ++ more) := by
  rcases h with ⟨rfl, rfl⟩ | ⟨opening, outer, closing, rest, rfl, hclosing, rfl⟩
  · exact Or.inl ⟨rfl, rfl⟩
  · exact Or.inr ⟨opening, outer, closing, rest, rfl, hclosing, (List.append_assoc ..).symm⟩

variable (reader)

/-- Wherever these tokens are read as what begins with a term, a term can be split off. -/
def Starts (tokens : List Token) : Prop :=
  ∀ {groups : List Token} {depth : Nat}, groups.length + depth = maxGroups →
    reader.Succeeds .operand groups tokens →
    ∃ first rest events, tokens = first ++ rest ∧ reader.Derives .term depth first events

/-- Wherever these tokens are read behind a formula, they extend it: all of them, or those up to the
parenthesis that closes the group. -/
def Extends (tokens : List Token) : Prop :=
  ∀ {groups : List Token} {depth : Nat} {before : List Token} {events : List Event},
    groups.length + depth = maxGroups → reader.Succeeds .operator groups tokens →
    reader.Derives .formula depth before events →
    ∃ more events, reader.Derives .formula depth (before ++ more) events ∧ Ends groups tokens more

variable {reader}

theorem succeeds_of_derives {part : Part} {depth : Nat} {first rest : List Token}
    {events : List Event} (hgroups : groups.length + depth = maxGroups)
    (hfirst : reader.Derives part depth first events)
    (h : reader.Succeeds .operand groups (first ++ rest)) : reader.Succeeds .operator groups rest :=
  succeeds_after (walk_of_derives hfirst (Nat.le_of_eq hgroups) rest) h

/-- Behind a formula, as behind a term, there may be whitespace. -/
theorem Derives.blank {depth : Nat} {events : List Event} (hkind : token.kind = .whitespace)
    (h : reader.Derives .formula depth tokens events) :
    reader.Derives .formula depth (tokens ++ [token]) (events ++ [.constant token.text]) := by
  cases h with
  | term hterm => exact .term (.blankAfter hterm hkind)
  | @join _ operator first rest before after hfirst hoperator hrest =>
    have hjoin := Derives.join hfirst hoperator (.blankAfter hrest hkind)
    simp only [List.append_assoc, List.cons_append] at hjoin ⊢
    exact hjoin

theorem starts_of_shorter
    (ih : ∀ shorter : List Token, shorter.length < tokens.length →
      reader.Starts shorter ∧ reader.Extends shorter) :
    reader.Starts tokens := by
  intro groups depth hgroups h
  obtain ⟨token, tail, -, -, -, rfl, -, -⟩ := token_of_succeeds (by simp) h
  have hshorter : tail.length < (token :: tail).length := Nat.lt_succ_self _
  rcases operand_cases h with hblank | hsign | ⟨hkind, hnumber⟩ | ⟨hkind, hstring⟩ |
    ⟨hopening, hless⟩ | hname
  · have htail := succeeds_after (walk_blankBefore hblank) h
    obtain ⟨first, rest, events, rfl, hterm⟩ := (ih tail hshorter).1 hgroups htail
    exact ⟨token :: first, rest, _, rfl, .blankBefore hblank hterm⟩
  · have htail := succeeds_after (walk_sign hsign) h
    obtain ⟨first, rest, events, rfl, hterm⟩ := (ih tail hshorter).1 hgroups htail
    exact ⟨token :: first, rest, _, rfl, .sign hsign hterm⟩
  · exact ⟨[token], tail, _, rfl, .primary (.number hkind hnumber)⟩
  · exact ⟨[token], tail, _, rfl, .primary (.string hkind hstring)⟩
  · obtain ⟨depth, rfl⟩ : ∃ inner, depth = inner + 1 := ⟨depth - 1, by omega⟩
    have hgroups : (token :: groups).length + depth = maxGroups := by
      rw [List.length_cons]
      omega
    -- the formula in the group is its first term and what extends that up to the closing one
    have htail := succeeds_after (walk_opening hopening hless) h
    obtain ⟨first, rest, events, rfl, hterm⟩ := (ih tail hshorter).1 hgroups htail
    have hrest := succeeds_of_derives hgroups hterm htail
    rw [List.length_cons, List.length_append] at ih
    obtain ⟨more, events, hformula, ⟨hnil, -⟩ |
      ⟨opening, outer, closing, rest, -, hclosing, rfl⟩⟩ :=
      (ih rest (by omega)).2 hgroups hrest (.term hterm)
    · cases hnil
    · refine ⟨token :: (first ++ more) ++ [closing], rest, _, ?_,
        .primary (.group hopening hformula hclosing)⟩
      simp only [List.cons_append, List.append_assoc, List.nil_append]
  · obtain ⟨first, rest, events, heq, hprimary⟩ := call_of_succeeds depth hname h
    exact ⟨first, rest, events, heq, .primary hprimary⟩

theorem extends_of_shorter
    (ih : ∀ shorter : List Token, shorter.length < tokens.length →
      reader.Starts shorter ∧ reader.Extends shorter) :
    reader.Extends tokens := by
  intro groups depth before events hgroups h hbefore
  cases tokens with
  | nil => exact ⟨[], events, by rwa [List.append_nil], Or.inl ⟨(end_cases h).2, rfl⟩⟩
  | cons token tail =>
    have hshorter : tail.length < (token :: tail).length := Nat.lt_succ_self _
    rcases operator_cases h with hblank | hoperator | ⟨hclosing, opening, outer, rfl⟩
    · have htail := succeeds_after (walk_blankAfter hblank) h
      obtain ⟨more, events, hformula, hends⟩ :=
        (ih tail hshorter).2 hgroups htail (hbefore.blank hblank)
      refine ⟨token :: more, events, ?_, hends.prepend [token]⟩
      rw [List.append_assoc] at hformula
      exact hformula
    · have htail := succeeds_after (walk_operator hoperator) h
      obtain ⟨first, rest, events, rfl, hterm⟩ := (ih tail hshorter).1 hgroups htail
      have hrest := succeeds_of_derives hgroups hterm htail
      rw [List.length_cons, List.length_append] at ih
      obtain ⟨more, events, hformula, hends⟩ :=
        (ih rest (by omega)).2 hgroups hrest (.join hbefore hoperator hterm)
      refine ⟨token :: first ++ more, events, ?_, hends.prepend (token :: first)⟩
      rw [List.append_assoc] at hformula
      exact hformula
    · exact ⟨[], events, by rwa [List.append_nil],
        Or.inr ⟨opening, outer, token, tail, rfl, hclosing, rfl⟩⟩

theorem starts_and_extends (tokens : List Token) :
    reader.Starts tokens ∧ reader.Extends tokens := by
  induction hlength : tokens.length using Nat.strongRecOn generalizing tokens with
  | ind length ih =>
    have hshorter : ∀ shorter : List Token, shorter.length < tokens.length →
        reader.Starts shorter ∧ reader.Extends shorter :=
      fun shorter hless => ih shorter.length (hlength ▸ hless) shorter rfl
    exact ⟨starts_of_shorter hshorter, extends_of_shorter hshorter⟩

/-- Tokens that are read without a failure are a formula. -/
theorem derives_of_succeeds (h : reader.Succeeds .operand [] tokens) :
    ∃ events, reader.Derives .formula maxGroups tokens events := by
  have hgroups : ([] : List Token).length + maxGroups = maxGroups := Nat.zero_add _
  obtain ⟨first, rest, events, rfl, hterm⟩ := (starts_and_extends tokens).1 hgroups h
  have hrest := succeeds_of_derives hgroups hterm h
  obtain ⟨more, events, hformula, ⟨-, rfl⟩ | ⟨opening, outer, -, -, hnil, -⟩⟩ :=
    (starts_and_extends rest).2 hgroups hrest (.term hterm)
  · exact ⟨events, hformula⟩
  · cases hnil

theorem Derives.exists_not_blank {part : Part} {depth : Nat} {events : List Event}
    (h : reader.Derives part depth tokens events) :
    ∃ token ∈ tokens, token.isWhitespace = false := by
  have visible {token : Token} {kind : Token.Kind} (hkind : token.kind = kind)
      (hne : kind ≠ .whitespace) : token.isWhitespace = false := by
    rw [← hkind] at hne
    exact beq_eq_false_iff_ne.2 hne
  induction h with
  | number _ htoken => exact ⟨_, List.mem_cons_self, visible htoken (by decide)⟩
  | string _ htoken => exact ⟨_, List.mem_cons_self, visible htoken (by decide)⟩
  | group hopening _ _ _ => exact ⟨_, List.mem_cons_self, visible hopening (by decide)⟩
  | @call depth name inner head opening closing arguments _ haligns =>
    refine ⟨opening, ?_, visible haligns.hopening (by decide)⟩
    exact List.mem_append_left _ (List.mem_append_right _ List.mem_cons_self)
  | primary _ ih => exact ih
  | sign htoken _ ih =>
    obtain ⟨token, hmem, hblank⟩ := ih
    exact ⟨token, List.mem_cons_of_mem _ hmem, hblank⟩
  | blankBefore _ _ ih =>
    obtain ⟨token, hmem, hblank⟩ := ih
    exact ⟨token, List.mem_cons_of_mem _ hmem, hblank⟩
  | blankAfter _ _ ih =>
    obtain ⟨token, hmem, hblank⟩ := ih
    exact ⟨token, List.mem_append_left _ hmem, hblank⟩
  | term _ ih => exact ih
  | join _ _ _ ih _ =>
    obtain ⟨token, hmem, hblank⟩ := ih
    exact ⟨token, List.mem_append_left _ hmem, hblank⟩

end Reader

theorem ofExpression_eq_walk {scope : Scope} {kind : Expression.Kind} {e : Expression}
    (h : ¬ (Token.lexemes e.text).all Token.isWhitespace = true) :
    ofExpression scope kind e
      = (Reader.ofExpression scope kind e).walk .operand [] (Token.lexemes e.text) :=
  if_neg h

theorem failure_of_result {trace : Trace} (h : trace.result = .ok ()) : trace.failure = none := by
  cases hfailure : trace.failure with
  | none => rfl
  | some failure =>
    simp only [result, hfailure] at h
    cases h

/-- A derivation is the trace. -/
theorem ofExpression_of_derives {scope : Scope} {kind : Expression.Kind} {e : Expression}
    {events : List Event} (h : (Reader.ofExpression scope kind e).Derives .formula maxGroups
      (Token.lexemes e.text) events) :
    ofExpression scope kind e = ⟨events, none⟩ := by
  obtain ⟨token, hmem, hblank⟩ := h.exists_not_blank
  have hall : ¬ (Token.lexemes e.text).all Token.isWhitespace = true := by
    intro hall
    rw [List.all_eq_true.1 hall token hmem] at hblank
    cases hblank
  have hgroups : ([] : List Token).length + maxGroups ≤ maxGroups := Nat.le_of_eq (Nat.zero_add _)
  have hwalk := Reader.walk_of_derives h hgroups []
  rw [List.append_nil] at hwalk
  rw [ofExpression_eq_walk hall, hwalk]
  simp only [Reader.walk, Reader.atEnd, after, List.append_nil]

/-- A trace without a failure is derived. -/
theorem derives_of_ofExpression {scope : Scope} {kind : Expression.Kind} {e : Expression}
    (h : (ofExpression scope kind e).failure = none) :
    (Reader.ofExpression scope kind e).Derives .formula maxGroups (Token.lexemes e.text)
      (ofExpression scope kind e).events := by
  by_cases hall : (Token.lexemes e.text).all Token.isWhitespace = true
  · simp only [ofExpression, hall, if_true] at h
    cases h
  rw [ofExpression_eq_walk hall] at h
  obtain ⟨events, hderives⟩ := Reader.derives_of_succeeds h
  rw [ofExpression_of_derives hderives]
  exact hderives

end Trace

namespace Recording

section Accepting
variable {visit : Event → StateM (List Record) (Except Failure Unit)}
  (hvisit : ∀ event records, (visit event).run records = (.ok (), .event event :: records))

include hvisit

/-- A visitor that keeps every event and refuses none is shown all of them. -/
theorem visitEvents_of_accepts (events : List Event) (records : List Record) :
    (Trace.visitEvents visit events).run records
      = (.ok (), (events.map Record.event).reverse ++ records) := by
  induction events generalizing records with
  | nil => rfl
  | cons event events ih =>
    rw [Trace.visitEvents, StateT.run_bind, hvisit]
    refine (ih (.event event :: records)).trans ?_
    simp only [List.map_cons, List.reverse_cons, List.append_assoc, List.cons_append,
      List.nil_append]

theorem visit_of_accepts (trace : Trace) (records : List Record) :
    (trace.visit visit).run records
      = (trace.result, (trace.events.map Record.event).reverse ++ records) := by
  rw [Trace.visit, StateT.run_bind, visitEvents_of_accepts hvisit]
  rfl

end Accepting

/-- With all arguments accepted, the recording is the trace. -/
theorem ofExpression_accept (scope : Scope) (kind : Expression.Kind) (e : Expression) :
    Recording.ofExpression scope .accept kind e
      = ((Trace.ofExpression scope kind e).result,
        (Trace.ofExpression scope kind e).events.map Record.event) := by
  rw [Recording.ofExpression, Visitor.parse_eq_visit, visit_of_accepts]
  · simp only [List.append_nil, List.reverse_reverse]
  · intro event records
    cases event <;> rfl

/-- A formula is recorded without a failure just if it can be derived, and then the events of any
derivation are what is recorded. -/
theorem ofExpression_accept_iff (scope : Scope) (kind : Expression.Kind) (e : Expression) :
    ((Recording.ofExpression scope .accept kind e).1 = .ok () ↔
        ∃ events, (Trace.Reader.ofExpression scope kind e).Derives .formula Trace.maxGroups
          (Token.lexemes e.text) events) ∧
      ∀ events, (Trace.Reader.ofExpression scope kind e).Derives .formula Trace.maxGroups
          (Token.lexemes e.text) events →
        (Recording.ofExpression scope .accept kind e).2 = events.map Record.event := by
  rw [ofExpression_accept]
  constructor
  · constructor
    · intro hresult
      exact ⟨_, Trace.derives_of_ofExpression (Trace.failure_of_result hresult)⟩
    · rintro ⟨events, hderives⟩
      rw [Trace.ofExpression_of_derives hderives]
      rfl
  · intro events hderives
    rw [Trace.ofExpression_of_derives hderives]

end Recording

end EventFormula
