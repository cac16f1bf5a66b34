import EventFormula.Proofs.Lowering.Outcome
import EventFormula.Proofs.Trace.Blocks

/-!
# The pieces of a code

`Composed` says what the lowering of a formula comes to, given what the lowerings of its arguments
come to: the code consists of one piece for each block of the trace, and the piece of a call is made
of one code for each parameter. A written argument that is a formula contributes the code that it
was lowered to. The main statement is `piece_call`: once the arguments are accepted that a call
announces, its code is the piece of its block.
-/

namespace EventFormula

/-- What lowerings come to. -/
abbrev Answers := Expression.Kind → Expression → Except Failure String

/-- What a script comes to if lowerings end as `answers` says. -/
def Script.value {α : Type} (current : Option String) (answers : Answers) (script : Script α) : α :=
  let handler : Script.Handler Id :=
    { lower := answers
      require := fun _ => ()
      need := fun _ => ()
      setCurrent := fun _ => ()
      view := .ofCurrent current }
  script.run handler

namespace JavaScript

section Definitions
variable (scope : Scope) (current : Option String) (answers : Answers)

/-- The code that stands for a formula which nobody wrote: nothing, or one that fails, is the
fallback of the kind. -/
def defaultCode (kind : Expression.Kind) (e : Expression) : String :=
  if e.isEmpty then kind.fallback
  else
    match answers kind e with
    | .ok code => code
    | .error _ => kind.fallback

/-- The code of one parameter. -/
inductive ParameterCode : Parameter → Call.Argument → String → Prop where
  | written {parameter : Parameter} {argument : Call.Argument} {kind : Expression.Kind}
      {code : String} (hkind : parameter.kind.expressionKind? = some kind)
      (hwritten : argument.written = true) (hcode : answers kind argument.expression = .ok code) :
      ParameterCode parameter argument code
  | unwritten {parameter : Parameter} {argument : Call.Argument} {kind : Expression.Kind}
      (hkind : parameter.kind.expressionKind? = some kind) (hwritten : argument.written = false) :
      ParameterCode parameter argument (defaultCode answers kind argument.expression)
  | name {parameter : Parameter} {argument : Call.Argument}
      (hkind : parameter.kind = .object ∨ parameter.kind = .behavior) :
      ParameterCode parameter argument (quote argument.expression.text)
  | code {parameter : Parameter} {argument : Call.Argument} (hkind : parameter.kind = .code) :
      ParameterCode parameter argument argument.expression.text

/-- One code for each parameter and its argument, in order. -/
inductive ParameterCodes : List Parameter → List Call.Argument → List String → Prop where
  | nil : ParameterCodes [] [] []
  | cons {parameter : Parameter} {argument : Call.Argument} {code : String}
      {parameters : List Parameter} {arguments : List Call.Argument} {codes : List String}
      (hcode : ParameterCode answers parameter argument code)
      (hcodes : ParameterCodes parameters arguments codes) :
      ParameterCodes (parameter :: parameters) (argument :: arguments) (code :: codes)

/-- The calls on objects, each with the one before it as its alternative. -/
def alternatives (accesses : List Access) (output : String) : String :=
  accesses.foldl (fun output access =>
    if current = some access.object then currentCall access else otherCall access output) output

/-- The code of a call that is made as it stands, given that of its parameters. -/
def standardCode (call : Call) (parameters : String) : String :=
  match call.form, call.arguments with
  | .free, _ => call.callable.callName ++ "(" ++ parameters ++ ")"
  | .object, object :: _ =>
    alternatives current ((expand scope object.text current).map fun target =>
      ⟨target, none, scope.platform.objectType? (scope.typeOfObject target),
        call.callable.callName, parameters⟩) call.returns.fallback
  | .behavior, object :: behavior :: _ =>
    alternatives current ((expand scope object.text current).map fun target =>
      ⟨target, some behavior.text,
        scope.platform.behaviorType? (scope.typeOfBehavior behavior.text),
        call.callable.callName, parameters⟩) call.returns.fallback
  | _, _ => ""

/-- If the event announces an argument, that is lowered without a failure. -/
def Accepted : Event → Prop
  | .argument kind e => ∃ code, answers kind e = .ok code
  | _ => True

/-- The code that a block of events adds to a formula of this kind. -/
inductive Piece (reader : Trace.Reader) : List Event → String → Prop where
  | constant (text : String) : Piece reader [.constant text] text
  | operator (text : String) : Piece reader [.operator text] text
  | number (text : String) : Piece reader [.number text] (Fragment.numberCode text)
  | literal (token : Token) :
      Piece reader [.call (reader.literal token)] (quote (Text.unescape token.text))
  | hooked {head : Trace.Head} {hook : Hook} {written : List Expression} {place : Span}
      {arguments : List Call.Argument}
      (hhook : (generator scope).hookOf head.callable = some hook)
      (halign : Call.align head.function head.callable head.given written place = .ok arguments)
      (hchecks : ∀ event ∈ Call.checks head.callable arguments, Accepted answers event) :
      Piece reader (Call.checks head.callable arguments ++ [.call (reader.call head arguments)])
        ((hook (arguments.map Call.Argument.expression)).value current answers)
  | standard {head : Trace.Head} {written : List Expression} {place : Span}
      {arguments : List Call.Argument} {codes : List String}
      (hhook : (generator scope).hookOf head.callable = none) (hfits : head.Fits)
      (halign : Call.align head.function head.callable head.given written place = .ok arguments)
      (hchecks : ∀ event ∈ Call.checks head.callable arguments, Accepted answers event)
      (hcodes : ParameterCodes answers (head.callable.parameters.drop head.given.length)
        (arguments.drop head.given.length) codes) :
      Piece reader (Call.checks head.callable arguments ++ [.call (reader.call head arguments)])
        (standardCode scope current (reader.call head arguments) (", ".intercalate codes))

/-- The events come in blocks, and the code consists of their pieces. -/
inductive Pieces (reader : Trace.Reader) : List Event → String → Prop where
  | nil : Pieces reader [] ""
  | snoc {events block : List Event} {code piece : String}
      (hpieces : Pieces reader events code)
      (hpiece : Piece scope current answers reader block piece) :
      Pieces reader (events ++ block) (code ++ piece)

/-- The first argument among the events that is not accepted fails in this way. -/
def Refused (failure : Failure) (events : List Event) : Prop :=
  ∃ before kind e after, events = before ++ .argument kind e :: after ∧
    (∀ event ∈ before, Accepted answers event) ∧ answers kind e = .error failure

/-- What the lowering of a formula comes to: the code is made of the pieces of the whole trace. A
failure is that of the first argument which fails, behind the pieces that come before its call, or
else that of the trace. -/
def Composed (kind : Expression.Kind) (e : Expression) : Except Failure String → Prop
  | .ok code =>
    (Trace.ofExpression scope kind e).failure = none ∧
      Pieces scope current answers (.ofExpression scope kind e)
        (Trace.ofExpression scope kind e).events code
  | .error failure =>
    ∃ events rest code, (Trace.ofExpression scope kind e).events = events ++ rest ∧
      Pieces scope current answers (.ofExpression scope kind e) events code ∧
      (Refused answers failure rest ∨
        (rest = [] ∧ (Trace.ofExpression scope kind e).failure = some failure))

end Definitions

end JavaScript

namespace Script

variable {α β : Type} {current : Option String} {answers : Answers}

theorem value_bind (script : Script α) (f : α → Script β) :
    (script >>= f).value current answers
      = (f (script.value current answers)).value current answers :=
  run_bind ..

/-- An evaluation finds the value that its answers lead to. -/
theorem value_of_evaluate
    {answer : Expression.Kind → Expression → Option (Except Failure String × List Effect)}
    (h : ∀ {kind e found}, answer kind e = some found → answers kind e = found.1)
    {script : Script α} {found : α × List Effect}
    (hs : script.evaluate current answer = some found) :
    script.value current answers = found.1 := by
  induction script generalizing found with
  | done value =>
    cases hs
    rfl
  | lowering kind e next ih =>
    obtain ⟨⟨result, first⟩, hanswer, hnext⟩ := Option.bind_eq_some_iff.1 hs
    obtain ⟨⟨value, rest⟩, hvalue, rfl⟩ := Option.map_eq_some_iff.1 hnext
    have hresult : answers kind e = result := h hanswer
    show (next (answers kind e)).value current answers = value
    rw [hresult]
    exact ih result hvalue
  | including path next ih =>
    obtain ⟨⟨value, rest⟩, hvalue, rfl⟩ := Option.map_eq_some_iff.1 hs
    have hnext := ih hvalue
    exact hnext
  | needing object next ih =>
    obtain ⟨⟨value, rest⟩, hvalue, rfl⟩ := Option.map_eq_some_iff.1 hs
    have hnext := ih hvalue
    exact hnext
  | picking object next ih => cases hs
  | viewing next ih => exact ih _ hs

end Script

namespace JavaScript

variable {scope : Scope} {current : Option String} {answers : Answers}

theorem value_expressionCode (kind : Expression.Kind) (e : Expression) :
    (expressionCode kind e).value current answers = defaultCode answers kind e := by
  unfold expressionCode defaultCode
  split
  · rfl
  · rw [Script.value_bind]
    show (match answers kind e with
      | .ok code => (pure code : Script String)
      | .error _ => pure kind.fallback).value current answers = _
    cases answers kind e <;> rfl

/-- The arguments that are written and have to be formulas are not empty and have been accepted. -/
def Checked (answers : Answers) (parameters : List Parameter) (arguments : List Call.Argument) :
    Prop :=
  ∀ parameter argument kind, (parameter, argument) ∈ parameters.zip arguments →
    parameter.kind.expressionKind? = some kind → argument.written = true →
      argument.expression.isEmpty = false ∧ ∃ code, answers kind argument.expression = .ok code

theorem value_parameterCode {parameter : Parameter} {argument : Call.Argument}
    (h : ∀ kind, parameter.kind.expressionKind? = some kind → argument.written = true →
      argument.expression.isEmpty = false ∧ ∃ code, answers kind argument.expression = .ok code) :
    ParameterCode answers parameter argument
      ((parameterCode argument.expression (some parameter)).value current answers) := by
  have hexpression {kind : Expression.Kind} (hkind : parameter.kind.expressionKind? = some kind) :
      ParameterCode answers parameter argument
        ((expressionCode kind argument.expression).value current answers) := by
    rw [value_expressionCode]
    cases hwritten : argument.written with
    | false => exact .unwritten hkind hwritten
    | true =>
      obtain ⟨hempty, code, hcode⟩ := h kind hkind hwritten
      have hdefault : defaultCode answers kind argument.expression = code := by
        simp only [defaultCode, hempty, hcode]
        rfl
      rw [hdefault]
      exact .written hkind hwritten hcode
  cases hkind : parameter.kind with
  | number =>
    simp only [parameterCode, Option.elim_some, hkind]
    exact hexpression (by rw [hkind]; rfl)
  | string =>
    simp only [parameterCode, Option.elim_some, hkind]
    exact hexpression (by rw [hkind]; rfl)
  | object =>
    simp only [parameterCode, Option.elim_some, hkind]
    exact .name (Or.inl hkind)
  | behavior =>
    simp only [parameterCode, Option.elim_some, hkind]
    exact .name (Or.inr hkind)
  | code =>
    simp only [parameterCode, Option.elim_some, hkind]
    exact .code hkind

theorem value_parameterCodes {parameters : List Parameter} {arguments : List Call.Argument}
    (hlength : arguments.length = parameters.length) (h : Checked answers parameters arguments) :
    ParameterCodes answers parameters arguments
      ((parameterCodes (arguments.map Call.Argument.expression) parameters).value current
        answers) := by
  induction parameters generalizing arguments with
  | nil =>
    rw [List.length_eq_zero_iff.1 hlength]
    exact .nil
  | cons parameter parameters ih =>
    cases arguments with
    | nil => cases hlength
    | cons argument arguments =>
      rw [List.map_cons, parameterCodes, Script.value_bind, Script.value_bind]
      have hfirst : ∀ kind, parameter.kind.expressionKind? = some kind → argument.written = true →
          argument.expression.isEmpty = false ∧
            ∃ code, answers kind argument.expression = .ok code :=
        fun kind => h parameter argument kind List.mem_cons_self
      have hrest : Checked answers parameters arguments := fun parameter argument kind hmem =>
        h parameter argument kind (List.mem_cons_of_mem _ hmem)
      exact .cons (value_parameterCode hfirst) (ih (Nat.succ.inj hlength) hrest)

theorem value_foldAccesses (accesses : List Access) (output : String) :
    ((generator scope).foldAccesses output accesses).value current answers
      = alternatives current accesses output := by
  induction accesses generalizing output with
  | nil => rfl
  | cons access accesses ih =>
    have hview : (Script.view.value current answers).current = current := rfl
    rw [Generator.foldAccesses, Script.value_bind, Script.value_bind, Script.value_bind]
    simp only [hview, alternatives, List.foldl_cons]
    split
    · rw [Script.value_bind]
      exact ih _
    · rw [Script.value_bind]
      exact ih _

theorem value_accessCode (name : String) (access : String → Access) (returns : Expression.Kind) :
    ((generator scope).accessCode name access returns).value current answers
      = alternatives current ((expand scope name current).map access) returns.fallback := by
  rw [Generator.accessCode, Script.value_bind, value_foldAccesses]
  rfl

theorem value_parametersCode (arguments : List Expression) (parameters : List Parameter) :
    ((generator scope).parametersCode arguments parameters).value current answers
      = ", ".intercalate ((parameterCodes arguments parameters).value current answers) := by
  rw [Generator.parametersCode, Script.value_bind]
  rfl

section Calls
variable {call : Call} {given rest : List Expression}

/-- A call with a hook is what that makes of it. -/
theorem value_callCode_of_hook {hook : Hook} (hgiven : call.form.Takes given)
    (harguments : call.arguments = given ++ rest)
    (hhook : (generator scope).hookOf call.callable = some hook) :
    ((generator scope).callCode call).value current answers
      = (hook call.arguments).value current answers := by
  cases hform : call.form with
  | free =>
    simp only [Generator.callCode, hform, Generator.freeCall, hhook]
    rw [Script.value_bind]
  | object =>
    rw [hform] at hgiven
    obtain ⟨object, rfl⟩ := hgiven
    simp only [Generator.callCode, hform, Generator.objectCall, harguments, List.cons_append, hhook]
    rw [Script.value_bind]
  | behavior =>
    rw [hform] at hgiven
    obtain ⟨object, behavior, rfl⟩ := hgiven
    simp only [Generator.callCode, hform, Generator.behaviorCall, harguments, List.cons_append,
      hhook]
    rw [Script.value_bind]

/-- A call without a hook is made as it stands, with the codes of the parameters that its head does
not give. -/
theorem value_callCode (hgiven : call.form.Takes given)
    (hname : call.form = .free → call.function ≠ "") (harguments : call.arguments = given ++ rest)
    (hhook : (generator scope).hookOf call.callable = none) :
    ((generator scope).callCode call).value current answers
      = standardCode scope current call (", ".intercalate
        ((parameterCodes rest (call.callable.parameters.drop given.length)).value current
          answers)) := by
  cases hform : call.form with
  | free =>
    rw [hform] at hgiven
    obtain rfl := hgiven
    have hliteral : ¬ (call.returns = .text ∧ call.function = "") := fun h => hname hform h.2
    simp only [Generator.callCode, standardCode, hform, Generator.freeCall, harguments, hhook,
      if_neg hliteral]
    rw [Script.value_bind, Script.value_bind, value_parametersCode]
    rfl
  | object =>
    rw [hform] at hgiven
    obtain ⟨object, rfl⟩ := hgiven
    simp only [Generator.callCode, standardCode, hform, Generator.objectCall, harguments,
      List.cons_append, hhook]
    rw [Script.value_bind, Script.value_bind, value_parametersCode, value_accessCode]
    rfl
  | behavior =>
    rw [hform] at hgiven
    obtain ⟨object, behavior, rfl⟩ := hgiven
    simp only [Generator.callCode, standardCode, hform, Generator.behaviorCall, harguments,
      List.cons_append, hhook]
    rw [Script.value_bind, Script.value_bind, value_parametersCode, value_accessCode]
    rfl

end Calls

/-- Once its arguments are accepted, a call adds the piece of its block. -/
theorem piece_call {reader : Trace.Reader} {head : Trace.Head} {written : List Expression}
    {place : Span} {arguments : List Call.Argument} (hfits : head.Fits)
    (halign : Call.align head.function head.callable head.given written place = .ok arguments)
    (hchecks : ∀ event ∈ Call.checks head.callable arguments, Accepted answers event) :
    Piece scope current answers reader
      (Call.checks head.callable arguments ++ [.call (reader.call head arguments)])
      (((generator scope).callCode (reader.call head arguments)).value current answers) := by
  obtain ⟨filled, hfilled, hlength, hwritten⟩ := Call.align_spec halign
  have hgiven : (head.given.map fun e => (⟨e, false⟩ : Call.Argument)).map
      Call.Argument.expression = head.given := by
    rw [List.map_map]
    exact List.map_id _
  have harguments : (reader.call head arguments).arguments
      = head.given ++ filled.map Call.Argument.expression := by
    rw [Trace.Reader.call, hfilled, List.map_append, hgiven]
  cases hhook : (generator scope).hookOf head.callable with
  | some hook =>
    rw [value_callCode_of_hook hfits.takes harguments hhook]
    exact .hooked hhook halign hchecks
  | none =>
    have hdrop : arguments.drop head.given.length = filled := by
      rw [hfilled, List.drop_left' (List.length_map ..)]
    have hchecked : Checked answers (head.callable.parameters.drop head.given.length) filled := by
      intro parameter argument kind hmem hkind hargument
      refine ⟨hwritten argument (List.of_mem_zip hmem).2 hargument, ?_⟩
      rw [← hdrop] at hmem
      exact hchecks _ (Call.argument_mem_checks hmem hkind hargument)
    have hcodes : ParameterCodes answers (head.callable.parameters.drop head.given.length)
        (arguments.drop head.given.length)
        ((parameterCodes (filled.map Call.Argument.expression)
          (head.callable.parameters.drop head.given.length)).value current answers) := by
      rw [hdrop]
      exact value_parameterCodes hlength hchecked
    rw [value_callCode hfits.takes hfits.named harguments hhook]
    exact .standard hhook hfits halign hchecks hcodes

end JavaScript
end EventFormula
