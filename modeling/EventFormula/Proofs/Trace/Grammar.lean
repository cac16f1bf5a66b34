import EventFormula.Trace.Reader

/-!
# The grammar of formulas

`Derives` says which runs of tokens are formulas, terms and primaries, and which events such a run
stands for, in the order of the text. Nothing in it depends on how formulas are read. The main
statement, `walk_of_derives`, is that what can be derived is read: the reader yields the events of
the derivation and goes on behind it with the groups that were open before.
-/

namespace EventFormula

namespace Expression.Kind

/-- The operators that can join the terms of such a formula. -/
def operators : Expression.Kind → List Token.Kind
  | number => [.plus, .minus, .star, .slash]
  | text => [.plus]

/-- The signs that a term of such a formula can carry. -/
def signs : Expression.Kind → List Token.Kind
  | number => [.plus, .minus]
  | text => []

end Expression.Kind

namespace Trace

theorem after_after (first second : List Event) (trace : Trace) :
    (trace.after second).after first = trace.after (first ++ second) := by
  simp only [after, List.append_assoc]

/-- Runs of tokens in which parentheses match and string literals are closed. -/
inductive Balanced : List Token → Prop where
  | nil : Balanced []
  | token {token : Token} {tokens : List Token}
      (hkind : token.kind ∉ [.leftParen, .rightParen, .unterminatedString])
      (htokens : Balanced tokens) : Balanced (token :: tokens)
  | group {opening closing : Token} {inner tokens : List Token}
      (hopening : opening.kind = .leftParen) (hinner : Balanced inner)
      (hclosing : closing.kind = .rightParen) (htokens : Balanced tokens) :
      Balanced (opening :: inner ++ closing :: tokens)

/-- The parts that formulas are made of. -/
inductive Part where
  | primary
  | term
  | formula

namespace Reader

variable (reader : Reader)

/-- The tokens name a function of the platform that returns what the formula is read as. -/
inductive Names : List Token → Head → Prop where
  | free {name : Token} {callable : Callable} (hname : name.kind = .identifier)
      (hcallable : reader.scope.platform.freeFunction? reader.kind name.text = some callable) :
      Names [name] ⟨.free, name.text, callable, [], name.span⟩
  | object {name dot member : Token} {callable : Callable} (hname : name.kind = .identifier)
      (hdot : dot.kind = .dot) (hmember : member.kind = .identifier)
      (hcallable : reader.scope.platform.objectFunction? reader.kind
        (reader.scope.typeOfObject name.text) member.text = some callable) :
      Names [name, dot, member]
        ⟨.object, member.text, callable, [reader.nameAt name], name.span⟩
  | behavior {name dot member colons function : Token} {callable : Callable}
      (hname : name.kind = .identifier) (hdot : dot.kind = .dot)
      (hmember : member.kind = .identifier) (hcolons : colons.kind = .doubleColon)
      (hfunction : function.kind = .identifier)
      (htype : reader.scope.typeOfBehavior member.text ≠ "")
      (hcallable : reader.scope.platform.behaviorFunction? reader.kind
        (reader.scope.typeOfBehavior member.text) function.text = some callable) :
      Names [name, dot, member, colons, function]
        ⟨.behavior, function.text, callable, [reader.nameAt name, reader.nameAt member],
          name.span⟩

/-- The tokens between the parentheses of a call are in order, and as arguments they match the
parameters of what is called. -/
structure Aligns (head : Head) (opening closing : Token) (inner : List Token)
    (arguments : List Call.Argument) : Prop where
  hopening : opening.kind = .leftParen
  hinner : Balanced inner
  hclosing : closing.kind = .rightParen
  halign : Call.align head.function head.callable head.given
    (Call.split reader.base opening.span.stop inner)
    (reader.placeOf (head.span.merge closing.span)) = .ok arguments

/-- The call of a head with arguments. -/
def call (head : Head) (arguments : List Call.Argument) : Call :=
  ⟨head.form, reader.kind, head.function, arguments.map Call.Argument.expression, head.callable⟩

/-- The tokens are such a part of a formula, no more than `depth` of its groups inside each other,
and stand for these events. -/
inductive Derives : Part → (depth : Nat) → List Token → List Event → Prop where
  | number {depth : Nat} {token : Token} (hkind : reader.kind = .number)
      (htoken : token.kind = .number) : Derives .primary depth [token] [.number token.text]
  | string {depth : Nat} {token : Token} (hkind : reader.kind = .text)
      (htoken : token.kind = .string) :
      Derives .primary depth [token] [.call (reader.literal token)]
  | group {depth : Nat} {opening closing : Token} {tokens : List Token} {events : List Event}
      (hopening : opening.kind = .leftParen) (hinner : Derives .formula depth tokens events)
      (hclosing : closing.kind = .rightParen) :
      Derives .primary (depth + 1) (opening :: tokens ++ [closing])
        (.constant opening.text :: events ++ [.constant closing.text])
  | call {depth : Nat} {name inner : List Token} {head : Head} {opening closing : Token}
      {arguments : List Call.Argument} (hname : reader.Names name head)
      (haligns : reader.Aligns head opening closing inner arguments) :
      Derives .primary depth (name ++ opening :: inner ++ [closing])
        (Call.checks head.callable arguments ++ [.call (reader.call head arguments)])
  | primary {depth : Nat} {tokens : List Token} {events : List Event}
      (hprimary : Derives .primary depth tokens events) : Derives .term depth tokens events
  | sign {depth : Nat} {token : Token} {tokens : List Token} {events : List Event}
      (htoken : token.kind ∈ reader.kind.signs) (hterm : Derives .term depth tokens events) :
      Derives .term depth (token :: tokens) (.operator token.text :: events)
  | blankBefore {depth : Nat} {token : Token} {tokens : List Token} {events : List Event}
      (htoken : token.kind = .whitespace) (hterm : Derives .term depth tokens events) :
      Derives .term depth (token :: tokens) (.constant token.text :: events)
  | blankAfter {depth : Nat} {token : Token} {tokens : List Token} {events : List Event}
      (hterm : Derives .term depth tokens events) (htoken : token.kind = .whitespace) :
      Derives .term depth (tokens ++ [token]) (events ++ [.constant token.text])
  | term {depth : Nat} {tokens : List Token} {events : List Event}
      (hterm : Derives .term depth tokens events) : Derives .formula depth tokens events
  | join {depth : Nat} {token : Token} {first rest : List Token} {before after : List Event}
      (hfirst : Derives .formula depth first before)
      (htoken : token.kind ∈ reader.kind.operators)
      (hrest : Derives .term depth rest after) :
      Derives .formula depth (first ++ token :: rest) (before ++ .operator token.text :: after)

variable {reader}

theorem joins_iff {kind : Token.Kind} :
    reader.joins kind = true ↔ kind ∈ reader.kind.operators := by
  unfold joins
  cases reader.kind <;> cases kind <;> decide

theorem signs_iff {kind : Token.Kind} :
    reader.signs kind = true ↔ kind ∈ reader.kind.signs := by
  unfold signs
  cases reader.kind <;> cases kind <;> decide

theorem signs_eq_false {kind : Token.Kind} (h : kind.isSign = false) :
    reader.signs kind = false := by
  unfold signs
  cases reader.kind with
  | number => exact h
  | text => rfl

theorem isWhitespace_of_operator {kind : Expression.Kind} {token : Token}
    (h : token.kind ∈ kind.operators) : token.isWhitespace = false := by
  apply beq_eq_false_iff_ne.2
  intro hblank
  rw [hblank] at h
  cases kind <;> exact absurd h (by decide)

theorem operator_of_sign {kind : Expression.Kind} {token : Token}
    (h : token.kind ∈ kind.signs) : token.kind ∈ kind.operators := by
  cases kind with
  | number =>
    rcases List.mem_cons.1 h with hplus | hminus
    · exact List.mem_cons.2 (Or.inl hplus)
    · rw [List.mem_singleton.1 hminus]
      decide
  | text => cases h

section Steps
variable {groups : List Token} {token : Token} {tokens : List Token}

theorem walk_next {stage next : Stage} {left : List Token} {events : List Event}
    (h : reader.step stage groups token = .next events next left) :
    reader.walk stage groups (token :: tokens) = (reader.walk next left tokens).after events := by
  simp only [walk, h]

theorem walk_silent {stage next : Stage} {left : List Token}
    (h : reader.step stage groups token = .next [] next left) :
    reader.walk stage groups (token :: tokens) = reader.walk next left tokens := walk_next h

theorem walk_blankBefore (h : token.kind = .whitespace) :
    reader.walk .operand groups (token :: tokens)
      = (reader.walk .operand groups tokens).after [.constant token.text] := by
  have hblank : token.isWhitespace = true := beq_iff_eq.2 h
  exact walk_next (by simp only [step, stepOperand, hblank, if_true])

theorem walk_blankAfter (h : token.kind = .whitespace) :
    reader.walk .operator groups (token :: tokens)
      = (reader.walk .operator groups tokens).after [.constant token.text] := by
  have hblank : token.isWhitespace = true := beq_iff_eq.2 h
  exact walk_next (by simp only [step, stepOperator, hblank, if_true])

theorem walk_sign (h : token.kind ∈ reader.kind.signs) :
    reader.walk .operand groups (token :: tokens)
      = (reader.walk .operand groups tokens).after [.operator token.text] := by
  have hblank := isWhitespace_of_operator (operator_of_sign h)
  exact walk_next (by simp [step, stepOperand, hblank, signs_iff.2 h])

theorem walk_operator (h : token.kind ∈ reader.kind.operators) :
    reader.walk .operator groups (token :: tokens)
      = (reader.walk .operand groups tokens).after [.operator token.text] := by
  have hblank := isWhitespace_of_operator h
  exact walk_next (by simp [step, stepOperator, hblank, joins_iff.2 h])

theorem walk_number (hkind : reader.kind = .number) (h : token.kind = .number) :
    reader.walk .operand groups (token :: tokens)
      = (reader.walk .operator groups tokens).after [.number token.text] :=
  walk_next (by simp [step, stepOperand, signs, Token.isWhitespace, hkind, h, Token.Kind.isSign])

theorem walk_string (hkind : reader.kind = .text) (h : token.kind = .string) :
    reader.walk .operand groups (token :: tokens)
      = (reader.walk .operator groups tokens).after [.call (reader.literal token)] :=
  walk_next (by simp [step, stepOperand, signs, Token.isWhitespace, hkind, h])

theorem walk_opening (h : token.kind = .leftParen) (hgroups : groups.length < maxGroups) :
    reader.walk .operand groups (token :: tokens)
      = (reader.walk .operand (token :: groups) tokens).after [.constant token.text] := by
  have hsigns : reader.signs .leftParen = false := signs_eq_false rfl
  exact walk_next (by simp [step, stepOperand, Token.isWhitespace, h, hsigns, hgroups])

theorem walk_closing {opening : Token} (h : token.kind = .rightParen) :
    reader.walk .operator (opening :: groups) (token :: tokens)
      = (reader.walk .operator groups tokens).after [.constant token.text] := by
  have hjoins : reader.joins .rightParen = false := by
    unfold joins
    cases reader.kind <;> rfl
  exact walk_next (by simp [step, stepOperator, Token.isWhitespace, h, hjoins])

theorem walk_name (h : token.kind = .identifier) :
    reader.walk .operand groups (token :: tokens) = reader.walk (.name token) groups tokens := by
  have hsigns : reader.signs .identifier = false := signs_eq_false rfl
  exact walk_silent (by simp [step, stepOperand, Token.isWhitespace, h, hsigns])

/-- Whatever names a function, the parenthesis after it opens a call of it. -/
theorem walk_names {name : List Token} {head : Head} (hname : reader.Names name head)
    (h : token.kind = .leftParen) :
    reader.walk .operand groups (name ++ token :: tokens)
      = reader.walk (.arguments head token 0 []) groups tokens := by
  cases hname with
  | @free name callable hname hcallable =>
    have hopen : reader.step (.name name) groups token
        = .next [] (.arguments ⟨.free, name.text, callable, [], name.span⟩ token 0 []) groups := by
      simp only [step, h, freeHead, hcallable, openCall]
    exact (walk_name hname).trans (walk_silent hopen)
  | @object name dot member callable hname hdot hmember hcallable =>
    have hfirst : reader.step (.name name) groups dot = .next [] (.member name) groups := by
      simp only [step, hdot]
    have hsecond : reader.step (.member name) groups member
        = .next [] (.memberName name member) groups := by
      simp only [step, hmember]
    have hopen : reader.step (.memberName name member) groups token
        = .next [] (.arguments ⟨.object, member.text, callable, [reader.nameAt name], name.span⟩
          token 0 []) groups := by
      simp only [step, h, objectHead, hcallable, openCall]
    calc reader.walk .operand groups (name :: dot :: member :: token :: tokens)
        = reader.walk (.name name) groups (dot :: member :: token :: tokens) := walk_name hname
      _ = reader.walk (.member name) groups (member :: token :: tokens) := walk_silent hfirst
      _ = reader.walk (.memberName name member) groups (token :: tokens) := walk_silent hsecond
      _ = _ := walk_silent hopen
  | @behavior name dot member colons function callable hname hdot hmember hcolons hfunction htype
      hcallable =>
    have hfirst : reader.step (.name name) groups dot = .next [] (.member name) groups := by
      simp only [step, hdot]
    have hsecond : reader.step (.member name) groups member
        = .next [] (.memberName name member) groups := by
      simp only [step, hmember]
    have hthird : reader.step (.memberName name member) groups colons
        = .next [] (.function name member) groups := by
      simp only [step, hcolons]
    have hfourth : reader.step (.function name member) groups function
        = .next [] (.functionName name member function) groups := by
      simp only [step, hfunction]
    have hopen : reader.step (.functionName name member function) groups token
        = .next [] (.arguments ⟨.behavior, function.text, callable,
          [reader.nameAt name, reader.nameAt member], name.span⟩ token 0 []) groups := by
      simp only [step, h, behaviorHead, htype, if_false, hcallable, openCall]
    calc reader.walk .operand groups
          (name :: dot :: member :: colons :: function :: token :: tokens)
        = reader.walk (.name name) groups
            (dot :: member :: colons :: function :: token :: tokens) :=
          walk_name hname
      _ = reader.walk (.member name) groups (member :: colons :: function :: token :: tokens) :=
          walk_silent hfirst
      _ = reader.walk (.memberName name member) groups (colons :: function :: token :: tokens) :=
          walk_silent hsecond
      _ = reader.walk (.function name member) groups (function :: token :: tokens) :=
          walk_silent hthird
      _ = reader.walk (.functionName name member function) groups (token :: tokens) :=
          walk_silent hfourth
      _ = _ := walk_silent hopen

end Steps

section Arguments
variable {head : Head} {opening : Token} {groups : List Token}

theorem walk_collect {depth : Nat} {before rest : List Token} {token : Token}
    (h : token.kind ∉ [.leftParen, .rightParen, .unterminatedString]) :
    reader.walk (.arguments head opening depth before) groups (token :: rest)
      = reader.walk (.arguments head opening depth (token :: before)) groups rest := by
  refine walk_silent ?_
  cases hkind : token.kind <;> simp_all [step, stepArguments]

theorem walk_deeper {depth : Nat} {before rest : List Token} {token : Token}
    (h : token.kind = .leftParen) :
    reader.walk (.arguments head opening depth before) groups (token :: rest)
      = reader.walk (.arguments head opening (depth + 1) (token :: before)) groups rest :=
  walk_silent (by simp only [step, stepArguments, h])

theorem walk_shallower {depth : Nat} {before rest : List Token} {token : Token}
    (h : token.kind = .rightParen) :
    reader.walk (.arguments head opening (depth + 1) before) groups (token :: rest)
      = reader.walk (.arguments head opening depth (token :: before)) groups rest :=
  walk_silent (by simp only [step, stepArguments, h])

/-- Between the parentheses of a call, tokens in order are collected. -/
theorem walk_balanced {inner : List Token} (h : Balanced inner) (depth : Nat)
    (before rest : List Token) :
    reader.walk (.arguments head opening depth before) groups (inner ++ rest)
      = reader.walk (.arguments head opening depth (inner.reverse ++ before)) groups rest := by
  induction h generalizing depth before rest with
  | nil => rfl
  | @token token tokens hkind htokens ih =>
    refine (walk_collect hkind).trans ((ih depth (token :: before) rest).trans ?_)
    rw [List.reverse_cons, List.append_assoc]
    rfl
  | @group opener closer inner tokens hopening hinner hclosing htokens ihinner ihtokens =>
    have hreverse : (opener :: inner ++ closer :: tokens).reverse ++ before
        = tokens.reverse ++ closer :: (inner.reverse ++ opener :: before) := by
      simp only [List.cons_append, List.reverse_cons, List.reverse_append, List.append_assoc,
        List.nil_append]
    rw [hreverse, ← ihtokens, List.append_assoc]
    refine (walk_deeper hopening).trans ((ihinner (depth + 1) (opener :: before) _).trans ?_)
    exact walk_shallower hclosing

/-- The parenthesis that closes a call yields its events. -/
theorem walk_call {closing : Token} {inner rest : List Token} {arguments : List Call.Argument}
    (h : reader.Aligns head opening closing inner arguments) :
    reader.walk (.arguments head opening 0 inner.reverse) groups (closing :: rest)
      = (reader.walk .operator groups rest).after
        (Call.checks head.callable arguments ++ [.call (reader.call head arguments)]) := by
  refine walk_next ?_
  simp only [step, stepArguments, h.hclosing, callEvents, List.reverse_reverse, h.halign]
  rfl

end Arguments

/-- What can be derived is read, whatever comes after it. -/
theorem walk_of_derives {part : Part} {depth : Nat} {tokens : List Token} {events : List Event}
    (h : reader.Derives part depth tokens events) {groups : List Token}
    (hgroups : groups.length + depth ≤ maxGroups) (rest : List Token) :
    reader.walk .operand groups (tokens ++ rest)
      = (reader.walk .operator groups rest).after events := by
  induction h generalizing groups rest with
  | number hkind htoken => exact walk_number hkind htoken
  | string hkind htoken => exact walk_string hkind htoken
  | @group depth opening closing tokens events hopening _ hclosing ih =>
    have hless : (opening :: groups).length + depth ≤ maxGroups := by
      rw [List.length_cons]
      omega
    have hinner := ih hless (closing :: rest)
    calc reader.walk .operand groups (opening :: tokens ++ [closing] ++ rest)
        = reader.walk .operand groups (opening :: (tokens ++ closing :: rest)) := by
          simp only [List.cons_append, List.append_assoc, List.nil_append]
      _ = (reader.walk .operand (opening :: groups) (tokens ++ closing :: rest)).after
            [.constant opening.text] := walk_opening hopening (by omega)
      _ = _ := by
          rw [hinner, walk_closing hclosing, after_after, after_after]
          simp only [List.cons_append, List.nil_append]
  | @call depth name inner head opening closing arguments hname haligns =>
    calc reader.walk .operand groups (name ++ opening :: inner ++ [closing] ++ rest)
        = reader.walk .operand groups (name ++ opening :: (inner ++ closing :: rest)) := by
          simp only [List.cons_append, List.append_assoc, List.nil_append]
      _ = reader.walk (.arguments head opening 0 []) groups (inner ++ closing :: rest) :=
          walk_names hname haligns.hopening
      _ = reader.walk (.arguments head opening 0 inner.reverse) groups (closing :: rest) := by
          rw [walk_balanced haligns.hinner, List.append_nil]
      _ = _ := walk_call haligns
  | primary _ ih => exact ih hgroups rest
  | sign htoken _ ih =>
    rw [List.cons_append, walk_sign htoken, ih hgroups, after_after]
    rfl
  | blankBefore htoken _ ih =>
    rw [List.cons_append, walk_blankBefore htoken, ih hgroups, after_after]
    rfl
  | blankAfter _ htoken ih =>
    rw [List.append_assoc, List.singleton_append, ih hgroups, walk_blankAfter htoken, after_after]
  | term _ ih => exact ih hgroups rest
  | join _ htoken _ ihfirst ihrest =>
    rw [List.append_assoc, List.cons_append, ihfirst hgroups, walk_operator htoken, ihrest hgroups,
      after_after, after_after, List.append_assoc]
    rfl

end Reader
end Trace
end EventFormula
