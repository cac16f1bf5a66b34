import EventFormula.Proofs.Lowering.Scripts
import EventFormula.Proofs.Trace.Translation

/-!
# Scripts for a formula that stands elsewhere

One script follows another if it makes the same requests, only with expressions that stand some
bytes later, and so on for every answer: where the other is told a failure, it is told the same one
as many bytes later. A generator translates if its target and its hooks make such scripts for
arguments that stand later. Then so does the script for a whole formula. The JavaScript generator
translates.
-/

namespace EventFormula

namespace Script

variable {α β γ δ : Type} {offset : Nat}

/-- The second script makes the requests of the first one `offset` bytes later, and comes to the
value that `move` makes of the other. -/
inductive Follows (offset : Nat) (move : α → β) : Script α → Script β → Prop where
  | done (value : α) : Follows offset move (.done value) (.done (move value))
  | lowering {next : Except Failure String → Script α} {other : Except Failure String → Script β}
      (kind : Expression.Kind) (e : Expression)
      (h : ∀ result, Follows offset move (next result) (other (shiftResult offset id result))) :
      Follows offset move (.lowering kind e next) (.lowering kind (e.shifted offset) other)
  | including {next : Script α} {other : Script β} (path : String)
      (h : Follows offset move next other) :
      Follows offset move (.including path next) (.including path other)
  | needing {next : Script α} {other : Script β} (object : String)
      (h : Follows offset move next other) :
      Follows offset move (.needing object next) (.needing object other)
  | picking {next : Script α} {other : Script β} (object : Option String)
      (h : Follows offset move next other) :
      Follows offset move (.picking object next) (.picking object other)
  | viewing {next : View → Script α} {other : View → Script β}
      (h : ∀ view, Follows offset move (next view) (other view)) :
      Follows offset move (.viewing next) (.viewing other)

theorem Follows.bind {move : α → β} {after : γ → δ} {first : Script α} {second : Script β}
    {f : α → Script γ} {g : β → Script δ} (h : Follows offset move first second)
    (hf : ∀ value, Follows offset after (f value) (g (move value))) :
    Follows offset after (first >>= f) (second >>= g) := by
  show Follows offset after (first.bind f) (second.bind g)
  induction h with
  | done value => exact hf value
  | lowering kind e _ ih => exact .lowering kind e ih
  | including path _ ih => exact .including path ih
  | needing object _ ih => exact .needing object ih
  | picking object _ ih => exact .picking object ih
  | viewing _ ih => exact .viewing ih

theorem follows_lower (kind : Expression.Kind) (e : Expression) :
    Follows offset (shiftResult offset id) (lower kind e) (lower kind (e.shifted offset)) :=
  .lowering kind e fun result => .done result

theorem follows_need (object : String) : Follows offset id (need object) (need object) :=
  .needing object (.done ())

theorem follows_view : Follows offset id view view := .viewing fun view => .done view

theorem follows_requireFile (file : Option String) :
    Follows offset id (Generator.requireFile file) (Generator.requireFile file) := by
  unfold Generator.requireFile
  split
  · split
    · exact .done ()
    · exact .including _ (.done ())
  · exact .done ()

end Script

open Script (Follows)

/-- The fragment for a formula that starts `offset` bytes later. -/
def Fragment.shifted (offset : Nat) (fragment : Fragment) : Fragment :=
  { fragment with firstFailure := fragment.firstFailure.map (Failure.shifted · offset) }

theorem Fragment.note_shifted {offset : Nat} (fragment : Fragment) (failure : Failure) :
    (fragment.shifted offset).note (failure.shifted offset)
      = (fragment.note failure).shifted offset := by
  unfold note shifted
  cases fragment.firstFailure <;> rfl

/-- What a formula comes to, some bytes later, after its events have been shown. -/
theorem Fragment.finish_shifted {offset : Nat} (fragment : Fragment) (trace : Trace)
    (shown : Except Failure Unit) :
    (fragment.shifted offset).finish
        ((shiftResult offset id shown).bind fun _ => (trace.shifted offset).result)
      = shiftResult offset id (fragment.finish (shown.bind fun _ => trace.result)) := by
  unfold finish shifted Trace.shifted Trace.result
  cases fragment.firstFailure with
  | some failure => rfl
  | none =>
    cases shown with
    | error failure => rfl
    | ok _ => cases trace.failure <;> rfl

namespace Generator

/-- The target and the hooks make scripts that follow those for arguments some bytes before. -/
structure Translates (generator : Generator) (offset : Nat) : Prop where
  parameterCodes : ∀ arguments parameters,
    Follows offset id (generator.target.parameterCodes arguments parameters)
      (generator.target.parameterCodes (arguments.map (Expression.shifted · offset)) parameters)
  currentCall : ∀ access,
    Follows offset id (generator.target.currentCall access) (generator.target.currentCall access)
  otherCall : ∀ access otherwise,
    Follows offset id (generator.target.otherCall access otherwise)
      (generator.target.otherCall access otherwise)
  hook : ∀ {name hook}, generator.hooks.get? name = some hook → ∀ arguments,
    Follows offset id (hook arguments) (hook (arguments.map (Expression.shifted · offset)))

namespace Translates

variable {generator : Generator} {offset : Nat} (hg : generator.Translates offset)
include hg

theorem foldAccesses (output : String) (accesses : List Access) :
    Follows offset id (generator.foldAccesses output accesses)
      (generator.foldAccesses output accesses) := by
  induction accesses generalizing output with
  | nil => exact .done output
  | cons access accesses ih =>
    refine Follows.bind (Script.follows_need _) fun _ => ?_
    refine Follows.bind (Script.follows_requireFile _) fun _ => ?_
    refine Follows.bind Script.follows_view fun view => ?_
    simp only [id]
    split
    · exact Follows.bind (hg.currentCall access) ih
    · exact Follows.bind (hg.otherCall access output) ih

theorem accessCode (name : String) (access : String → Access) (returns : Expression.Kind) :
    Follows offset id (generator.accessCode name access returns)
      (generator.accessCode name access returns) :=
  Follows.bind Script.follows_view fun _ => hg.foldAccesses _ _

theorem parametersCode (arguments : List Expression) (parameters : List Parameter) :
    Follows offset id (generator.parametersCode arguments parameters)
      (generator.parametersCode (arguments.map (Expression.shifted · offset)) parameters) :=
  Follows.bind (hg.parameterCodes arguments parameters) fun _ => .done _

theorem hookOf {callable : Callable} {hook : Hook} (h : generator.hookOf callable = some hook)
    (arguments : List Expression) :
    Follows offset id (hook arguments) (hook (arguments.map (Expression.shifted · offset))) := by
  obtain ⟨name, -, hname⟩ := Option.bind_eq_some_iff.1 h
  exact hg.hook hname arguments

theorem freeCall (call : Call) :
    Follows offset id (generator.freeCall call) (generator.freeCall (call.shifted offset)) := by
  refine Follows.bind (Script.follows_requireFile _) fun _ => ?_
  simp only [Call.shifted]
  cases hhook : generator.hookOf call.callable with
  | some hook => exact hg.hookOf hhook call.arguments
  | none =>
    by_cases hliteral : call.returns = .text ∧ call.function = ""
    · simp only [hliteral, and_self, if_true, List.head?_map, Option.map_map]
      exact .done _
    · simp only [hliteral, if_false]
      exact Follows.bind (hg.parametersCode _ _) fun _ => .done _

theorem objectCall (call : Call) :
    Follows offset id (generator.objectCall call)
      (generator.objectCall (call.shifted offset)) := by
  obtain ⟨form, returns, function, arguments, callable⟩ := call
  cases arguments with
  | nil => exact .done ""
  | cons object rest =>
    refine Follows.bind (Script.follows_requireFile _) fun _ => ?_
    cases hhook : generator.hookOf callable with
    | some hook =>
      simp only [Call.shifted, hhook]
      exact hg.hookOf hhook (object :: rest)
    | none =>
      simp only [Call.shifted, hhook]
      exact Follows.bind (hg.parametersCode rest _) fun _ => hg.accessCode _ _ _

theorem behaviorCall (call : Call) :
    Follows offset id (generator.behaviorCall call)
      (generator.behaviorCall (call.shifted offset)) := by
  obtain ⟨form, returns, function, arguments, callable⟩ := call
  match arguments with
  | [] => exact .done ""
  | [_] => exact .done ""
  | object :: behavior :: rest =>
    refine Follows.bind (Script.follows_requireFile _) fun _ => ?_
    cases hhook : generator.hookOf callable with
    | some hook =>
      simp only [Call.shifted, hhook]
      exact hg.hookOf hhook (object :: behavior :: rest)
    | none =>
      simp only [Call.shifted, hhook]
      exact Follows.bind (hg.parametersCode rest _) fun _ => hg.accessCode _ _ _

theorem callCode (call : Call) :
    Follows offset id (generator.callCode call) (generator.callCode (call.shifted offset)) := by
  obtain ⟨form, returns, function, arguments, callable⟩ := call
  cases form with
  | free => exact hg.freeCall ⟨.free, returns, function, arguments, callable⟩
  | object => exact hg.objectCall ⟨.object, returns, function, arguments, callable⟩
  | behavior => exact hg.behaviorCall ⟨.behavior, returns, function, arguments, callable⟩

/-- The answer of a fragment to an event, and the fragment after it, some bytes later. -/
def answered (offset : Nat) (answer : Except Failure Unit × Fragment) :
    Except Failure Unit × Fragment :=
  (shiftResult offset id answer.1, answer.2.shifted offset)

theorem visit (fragment : Fragment) (event : Event) :
    Follows offset (answered offset) (fragment.visit generator event)
      ((fragment.shifted offset).visit generator (event.shifted offset)) := by
  cases event with
  | constant text => exact .done _
  | operator text => exact .done _
  | number text => exact .done _
  | argument kind e =>
    rw [Event.shifted, Fragment.visit_argument, Fragment.visit_argument]
    refine Follows.bind (Script.follows_lower kind e) fun result => ?_
    cases result with
    | ok code => exact .done _
    | error failure =>
      simp only [shiftResult, Fragment.note_shifted]
      exact .done (Except.error failure, fragment.note failure)
  | call call => exact Follows.bind (hg.callCode call) fun _ => .done _

theorem shown (events : List Event) (fragment : Fragment) :
    Follows offset (answered offset) (Fragment.shown generator events fragment)
      (Fragment.shown generator (events.map (Event.shifted offset)) (fragment.shifted offset)) := by
  induction events generalizing fragment with
  | nil => exact .done _
  | cons event events ih =>
    rw [List.map_cons, Fragment.shown_cons, Fragment.shown_cons]
    refine Follows.bind (hg.visit fragment event) fun answer => ?_
    obtain ⟨result, next⟩ := answer
    cases result with
    | ok _ => exact ih next
    | error failure => exact .done (Except.error failure, next)

/-- The script for an expression follows that for the expression some bytes before. -/
theorem script (kind : Expression.Kind) (e : Expression) :
    Follows offset (shiftResult offset id) (generator.script kind e)
      (generator.script kind (e.shifted offset)) := by
  rw [Generator.script, Generator.script, Trace.ofExpression_shifted, Fragment.ofTrace_eq,
    Fragment.ofTrace_eq]
  refine Follows.bind (hg.shown _ {}) fun answer => ?_
  obtain ⟨read, fragment⟩ := answer
  simp only [answered, Fragment.finish_shifted]
  exact .done _

end Translates
end Generator

namespace JavaScript

variable {offset : Nat}

theorem follows_expressionCode (kind : Expression.Kind) (e : Expression) :
    Script.Follows offset id (expressionCode kind e) (expressionCode kind (e.shifted offset)) := by
  unfold expressionCode
  rw [Expression.isEmpty_shifted]
  split
  · exact .done _
  · refine Script.Follows.bind (Script.follows_lower kind e) fun result => ?_
    cases result <;> exact .done _

theorem follows_parameterCode (argument : Expression) (parameter : Option Parameter) :
    Script.Follows offset id (parameterCode argument parameter)
      (parameterCode (argument.shifted offset) parameter) := by
  unfold parameterCode
  split
  · exact follows_expressionCode _ _
  · exact follows_expressionCode _ _
  · exact .done _
  · exact .done _
  · exact .done _

theorem follows_parameterCodes (arguments : List Expression) (parameters : List Parameter) :
    Script.Follows offset id (parameterCodes arguments parameters)
      (parameterCodes (arguments.map (Expression.shifted · offset)) parameters) := by
  induction arguments generalizing parameters with
  | nil => exact .done _
  | cons argument arguments ih =>
    exact Script.Follows.bind (follows_parameterCode _ _) fun _ =>
      Script.Follows.bind (ih _) fun _ => .done _

theorem follows_firstCode (kind : Expression.Kind) (arguments : List Expression) :
    Script.Follows offset id (firstCode kind arguments)
      (firstCode kind (arguments.map (Expression.shifted · offset))) := by
  cases arguments with
  | nil => exact .done _
  | cons argument _ => exact follows_expressionCode kind argument

/-- The hooks that come with the target translate with it. -/
theorem translates_generator (scope : Scope) : (generator scope).Translates offset where
  parameterCodes := follows_parameterCodes
  currentCall _ := .done _
  otherCall _ _ := .done _
  hook h arguments := by
    have hmem := Table.mem_of_get?_ofList h
    simp only [List.mem_cons, Prod.mk.injEq, List.not_mem_nil, or_false] at hmem
    rcases hmem with ⟨-, rfl⟩ | ⟨-, rfl⟩
    · exact Script.Follows.bind (follows_firstCode .number arguments) fun _ => .done _
    · exact Script.Follows.bind (follows_firstCode .text arguments) fun _ => .done _

end JavaScript
end EventFormula
