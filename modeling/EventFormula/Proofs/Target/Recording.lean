import EventFormula.Proofs.Lowering.Growth
import EventFormula.Proofs.Target.Includes
import EventFormula.Proofs.Target.Receivers
import EventFormula.Proofs.Trace.Unfolded

/-!
# What the code relies on is recorded

The code of a formula reads arrays of instances and calls functions out of files, so whoever runs it
has to know which. `Reads` collects the arrays that the calls in a code read, from the events of the
formula down to the code of each parameter, whether that was written or stands in for what was not.
The main statement, `lower_recorded`, says that all of them are arrays of objects which are recorded
as needed, and that what each call of the formula needs is recorded, calls inside of arguments
included.
-/

namespace EventFormula.JavaScript

/-- The lists that a dispatch tests or takes an element of. -/
def Dispatch.lists : Dispatch → List RuntimeList
  | fallback => []
  | call element => [element.list]
  | ifEmpty list yes no => list :: (yes.lists ++ no.lists)

theorem mem_lists_choices {current : Option String} {objects : List String} {otherwise : Dispatch}
    {list : RuntimeList} (h : list ∈ (choices current objects otherwise).lists) :
    list ∈ otherwise.lists ∨ ∃ object ∈ objects, list = .of object := by
  induction objects generalizing otherwise with
  | nil => exact Or.inl h
  | cons object objects ih =>
    rw [choices, List.foldl_cons] at h
    have hobject : object ∈ object :: objects := List.mem_cons_self
    rcases ih h with h | ⟨other, hmem, rfl⟩
    · split at h
      · exact Or.inr ⟨object, hobject, List.mem_singleton.1 h⟩
      · rcases List.mem_cons.1 h with rfl | h
        · exact Or.inr ⟨object, hobject, rfl⟩
        · rcases List.mem_append.1 h with h | h
          · exact Or.inl h
          · exact Or.inr ⟨object, hobject, List.mem_singleton.1 h⟩
    · exact Or.inr ⟨other, List.mem_cons_of_mem _ hmem, rfl⟩

namespace Reads

variable (scope : Scope)

mutual

/-- The code that a formula was lowered to, and the lists that calls in it read. -/
inductive Formula : Expression.Kind → Expression → String → List RuntimeList → Prop
  | read {kind : Expression.Kind} {e : Expression} {code : String} {lists : List RuntimeList}
      (hread : (Trace.ofExpression scope kind e).failure = none)
      (hevents : Events (Trace.ofExpression scope kind e).events code lists) :
      Formula kind e code lists

/-- The code that events add to. What is announced adds nothing before the call. -/
inductive Events : List Event → String → List RuntimeList → Prop
  | nil : Events [] "" []
  | constant {events : List Event} {code : String} {lists : List RuntimeList} (text : String)
      (hevents : Events events code lists) : Events (.constant text :: events) (text ++ code) lists
  | operator {events : List Event} {code : String} {lists : List RuntimeList} (text : String)
      (hevents : Events events code lists) : Events (.operator text :: events) (text ++ code) lists
  | number {events : List Event} {code : String} {lists : List RuntimeList} (text : String)
      (hevents : Events events code lists) :
      Events (.number text :: events) (Fragment.numberCode text ++ code) lists
  | argument {events : List Event} {code : String} {lists : List RuntimeList}
      (kind : Expression.Kind) (e : Expression) (hevents : Events events code lists) :
      Events (.argument kind e :: events) code lists
  | call {events : List Event} {call : Call} {piece code : String} {read lists : List RuntimeList}
      (hcall : Made call piece read) (hevents : Events events code lists) :
      Events (.call call :: events) (piece ++ code) (read ++ lists)

/-- The code of a call. On objects it is a dispatch, whose lists are read besides those that the
parameters read. -/
inductive Made : Call → String → List RuntimeList → Prop
  | literal {call : Call} (hform : call.form = .free) (hreturns : call.returns = .text)
      (hname : call.function = "") (hhook : (generator scope).hookOf call.callable = none) :
      Made call ((call.arguments.head?.map fun argument => quote argument.text).getD "") []
  | free {call : Call} {codes : List String} {lists : List RuntimeList} (hform : call.form = .free)
      (hhook : (generator scope).hookOf call.callable = none)
      (hparameters : Parameters call.arguments call.callable.parameters codes lists) :
      Made call (call.callable.callName ++ "(" ++ ", ".intercalate codes ++ ")") lists
  | objects {call : Call} {object : Expression} {given rest : List Expression}
      {codes : List String} {lists : List RuntimeList} (dispatch : Dispatch)
      (hgiven : call.form.Takes (object :: given))
      (harguments : call.arguments = object :: given ++ rest)
      (hhook : (generator scope).hookOf call.callable = none)
      (hparameters : Parameters rest (call.callable.parameters.drop (given.length + 1)) codes
        lists) :
      Made call (dispatch.render call.returns (memberCall (given.head?.map Expression.text)
        call.callable.callName (", ".intercalate codes))) (dispatch.lists ++ lists)
  | toText {call : Call} {code : String} {lists : List RuntimeList}
      (hhook : (generator scope).hookOf call.callable = some toStringHook)
      (hvalue : Value .number call.arguments.head? code lists) :
      Made call ("(\"\" + (" ++ code ++ "))") lists
  | toNumber {call : Call} {code : String} {lists : List RuntimeList}
      (hhook : (generator scope).hookOf call.callable = some toNumberHook)
      (hvalue : Value .text call.arguments.head? code lists) :
      Made call ("parseFloat(" ++ code ++ ")") lists

/-- One code for each argument, as its parameter says. -/
inductive Parameters : List Expression → List Parameter → List String → List RuntimeList → Prop
  | nil (parameters : List Parameter) : Parameters [] parameters [] []
  | cons {argument : Expression} {arguments : List Expression} {parameters : List Parameter}
      {code : String} {codes : List String} {read lists : List RuntimeList}
      (hfirst : Argument argument (parameters.head?.elim .code Parameter.kind) code read)
      (hrest : Parameters arguments parameters.tail codes lists) :
      Parameters (argument :: arguments) parameters (code :: codes) (read ++ lists)

/-- The code of an argument. Nothing is known of code that is taken as it is. -/
inductive Argument : Expression → ParameterKind → String → List RuntimeList → Prop
  | formula {argument : Expression} {parameter : ParameterKind} {kind : Expression.Kind}
      {code : String} {lists : List RuntimeList} (hkind : parameter.expressionKind? = some kind)
      (hvalue : Value kind (some argument) code lists) : Argument argument parameter code lists
  | name {argument : Expression} {parameter : ParameterKind}
      (hkind : parameter = .object ∨ parameter = .behavior) :
      Argument argument parameter (quote argument.text) []
  | verbatim (argument : Expression) : Argument argument .code argument.text []

/-- The code of a formula, or the fallback if there is none. -/
inductive Value : Expression.Kind → Option Expression → String → List RuntimeList → Prop
  | lowered {kind : Expression.Kind} {e : Expression} {code : String} {lists : List RuntimeList}
      (hcode : Formula kind e code lists) : Value kind (some e) code lists
  | fallback (kind : Expression.Kind) (e : Option Expression) : Value kind e kind.fallback []

end

end Reads

/-- What a call needs is recorded: its own file, and if it is made as it stands, for each object
that it is made on, the object and the file of its type. -/
structure Recorded (scope : Scope) (final : State) (call : Call) : Prop where
  file : ∀ path, call.callable.includeFile = some path → path ≠ "" → path ∈ final.includes
  receivers : (generator scope).hookOf call.callable = none →
    ∀ receiver ∈ (generator scope).receivers (.ofCurrent final.context.current) call,
      receiver.1 ∈ final.context.needed ∧
        ∀ path, receiver.2.bind TypeInfo.includeFile = some path → path ≠ "" →
          path ∈ final.includes

/-- Each list is that of an object which is recorded as needed. -/
def Provided (final : State) (lists : List RuntimeList) : Prop :=
  ∀ list ∈ lists, ∃ object ∈ final.context.needed, list = .of object

/-- What is said of the code of a formula in the end. -/
def Accounted (scope : Scope) (kind : Expression.Kind) (e : Expression) (code : String)
    (final : State) : Prop :=
  (∀ call ∈ Trace.calls scope kind e, Recorded scope final call) ∧
    ∃ lists, Reads.Formula scope kind e code lists ∧ Provided final lists

theorem Provided.nil (final : State) : Provided final [] := fun _ h => by cases h

theorem Provided.append {final : State} {read lists : List RuntimeList}
    (hread : Provided final read) (hlists : Provided final lists) :
    Provided final (read ++ lists) := by
  intro list hmem
  rcases List.mem_append.1 hmem with hmem | hmem
  · exact hread list hmem
  · exact hlists list hmem

theorem mem_insertFile (path : String) (files : List String) : path ∈ insertFile path files := by
  induction files with
  | nil => exact List.mem_cons_self
  | cons file files ih =>
    rw [insertFile]
    split
    · exact List.mem_cons_self
    · split
      · rename_i hsame
        rw [hsame]
        exact List.mem_cons_self
      · exact List.mem_cons_of_mem _ ih

theorem subset_insertFile (path : String) (files : List String) :
    files ⊆ insertFile path files := by
  induction files with
  | nil => exact List.nil_subset _
  | cons file files ih =>
    rw [insertFile]
    split
    · exact List.subset_cons_self _ _
    · split
      · exact List.Subset.refl _
      · exact List.cons_subset_cons file ih

theorem collecting_target (scope : Scope) : (target scope).Collecting where
  keeps path files := by
    by_cases hpath : path = ""
    · simp only [target, hpath, if_true]
      exact List.Subset.refl _
    · simp only [target, hpath, if_false]
      exact subset_insertFile path files
  records {path} files hpath := by
    simp only [target, hpath, if_false]
    exact mem_insertFile path files

section Scripts
variable {scope : Scope}
  {lower : Expression.Kind → Expression → StateM State (Except Failure String)}
  (hlower : ∀ kind e, Establishes (Generator.Kept (Accounted scope)) (lower kind e)
    (Generator.Owed (Accounted scope) kind e))
include hlower

/-- The code of a formula, or its fallback, reads lists that are provided. -/
theorem establishes_expressionCode (kind : Expression.Kind) (e : Expression) :
    Establishes (Generator.Kept (Accounted scope))
      ((expressionCode kind e).run ((generator scope).handler lower)) fun code final =>
        ∃ lists, Reads.Value scope kind (some e) code lists ∧ Provided final lists := by
  rw [expressionCode]
  split
  · exact Establishes.done fun final => ⟨[], .fallback kind _, .nil final⟩
  · refine Establishes.bind (hlower kind e) fun result => ?_
    cases result with
    | ok code =>
      apply Establishes.done
      intro final howed
      obtain ⟨-, lists, hreads, hprovided⟩ := howed code rfl
      exact ⟨lists, .lowered hreads, hprovided⟩
    | error failure => exact Establishes.done fun final _ => ⟨[], .fallback kind _, .nil final⟩

theorem establishes_parameterCode (argument : Expression) (parameter : Option Parameter) :
    Establishes (Generator.Kept (Accounted scope))
      ((parameterCode argument parameter).run ((generator scope).handler lower)) fun code final =>
        ∃ lists, Reads.Argument scope argument (parameter.elim .code Parameter.kind) code lists ∧
          Provided final lists := by
  have hformula {kind : ParameterKind} {inner : Expression.Kind}
      (hkind : kind.expressionKind? = some inner) :
      Establishes (Generator.Kept (Accounted scope))
        ((expressionCode inner argument).run ((generator scope).handler lower)) fun code final =>
          ∃ lists, Reads.Argument scope argument kind code lists ∧ Provided final lists := by
    apply (establishes_expressionCode hlower inner argument).weaken
    rintro code final ⟨lists, hvalue, hprovided⟩
    exact ⟨lists, .formula hkind hvalue, hprovided⟩
  rw [parameterCode]
  cases parameter.elim .code Parameter.kind with
  | number => exact hformula rfl
  | string => exact hformula rfl
  | object => exact Establishes.done fun final => ⟨[], .name (Or.inl rfl), .nil final⟩
  | behavior => exact Establishes.done fun final => ⟨[], .name (Or.inr rfl), .nil final⟩
  | code => exact Establishes.done fun final => ⟨[], .verbatim argument, .nil final⟩

theorem establishes_parameterCodes (arguments : List Expression) (parameters : List Parameter) :
    Establishes (Generator.Kept (Accounted scope))
      ((parameterCodes arguments parameters).run ((generator scope).handler lower))
      fun codes final =>
        ∃ lists, Reads.Parameters scope arguments parameters codes lists ∧
          Provided final lists := by
  induction arguments generalizing parameters with
  | nil => exact Establishes.done fun final => ⟨[], .nil parameters, .nil final⟩
  | cons argument arguments ih =>
    rw [parameterCodes]
    refine Establishes.bind (establishes_parameterCode hlower argument parameters.head?)
      fun code => ?_
    refine Establishes.bind (ih parameters.tail) fun codes => ?_
    apply Establishes.done
    rintro final ⟨lists, hrest, hlists⟩ ⟨read, hfirst, hread⟩
    exact ⟨read ++ lists, .cons hfirst hrest, hread.append hlists⟩

theorem establishes_parametersCode (arguments : List Expression) (parameters : List Parameter) :
    Establishes (Generator.Kept (Accounted scope))
      (((generator scope).parametersCode arguments parameters).run
        ((generator scope).handler lower)) fun text final =>
        ∃ codes lists, text = ", ".intercalate codes ∧
          Reads.Parameters scope arguments parameters codes lists ∧ Provided final lists := by
  rw [Generator.parametersCode]
  refine Establishes.bind (establishes_parameterCodes hlower arguments parameters) fun codes => ?_
  apply Establishes.done
  rintro final ⟨lists, hparameters, hlists⟩
  exact ⟨codes, lists, rfl, hparameters, hlists⟩

omit hlower in
/-- The calls on objects are alternatives of each other, and for each of them what it needs is
recorded. -/
theorem establishes_foldAccesses (output : String) (accesses : List Access) :
    Establishes (Generator.Kept (Accounted scope))
      (((generator scope).foldAccesses output accesses).run ((generator scope).handler lower))
      fun code final =>
        code = alternatives final.context.current accesses output ∧
          ∀ access ∈ accesses, access.object ∈ final.context.needed ∧
            ∀ path, access.info.bind TypeInfo.includeFile = some path → path ≠ "" →
              path ∈ final.includes := by
  induction accesses generalizing output with
  | nil => exact Establishes.done fun final => ⟨rfl, fun access h => by cases h⟩
  | cons access accesses ih =>
    rw [Generator.foldAccesses]
    refine Establishes.bind (Generator.establishes_need access.object) fun _ => ?_
    refine Establishes.bind (Generator.establishes_requireFile (collecting_target scope) _)
      fun _ => ?_
    refine Establishes.bind Generator.establishes_view fun view => ?_
    by_cases hcurrent : view.current = some access.object
    · rw [if_pos hcurrent]
      apply (ih (currentCall access)).weaken
      rintro code final ⟨hcode, hothers⟩ hview hfile hneeded
      refine ⟨?_, List.forall_mem_cons.2 ⟨⟨hneeded, hfile⟩, hothers⟩⟩
      rw [hcode, alternatives, alternatives, List.foldl_cons, ← hview, if_pos hcurrent]
    · rw [if_neg hcurrent]
      apply (ih (otherCall access output)).weaken
      rintro code final ⟨hcode, hothers⟩ hview hfile hneeded
      refine ⟨?_, List.forall_mem_cons.2 ⟨⟨hneeded, hfile⟩, hothers⟩⟩
      rw [hcode, alternatives, alternatives, List.foldl_cons, ← hview, if_neg hcurrent]

theorem establishes_firstCode (kind : Expression.Kind) (arguments : List Expression) :
    Establishes (Generator.Kept (Accounted scope))
      ((firstCode kind arguments).run ((generator scope).handler lower)) fun code final =>
        ∃ lists, Reads.Value scope kind arguments.head? code lists ∧ Provided final lists := by
  cases arguments with
  | nil => exact Establishes.done fun final => ⟨[], .fallback kind _, .nil final⟩
  | cons argument arguments => exact establishes_expressionCode hlower kind argument

/-- The hooks that come with the target lower the first argument. -/
theorem establishes_hook {call : Call} {hook : Hook}
    (hhook : (generator scope).hookOf call.callable = some hook) :
    Establishes (Generator.Kept (Accounted scope))
      ((hook call.arguments).run ((generator scope).handler lower)) fun code final =>
        ∃ lists, Reads.Made scope call code lists ∧ Provided final lists := by
  obtain ⟨name, -, hname⟩ := Option.bind_eq_some_iff.1 hhook
  have hmem := Table.mem_of_get?_ofList hname
  simp only [List.mem_cons, Prod.mk.injEq, List.not_mem_nil, or_false] at hmem
  rcases hmem with ⟨-, rfl⟩ | ⟨-, rfl⟩
  · refine Establishes.bind (establishes_firstCode hlower .number call.arguments) fun code => ?_
    apply Establishes.done
    rintro final ⟨lists, hvalue, hlists⟩
    exact ⟨lists, .toText hhook hvalue, hlists⟩
  · refine Establishes.bind (establishes_firstCode hlower .text call.arguments) fun code => ?_
    apply Establishes.done
    rintro final ⟨lists, hvalue, hlists⟩
    exact ⟨lists, .toNumber hhook hvalue, hlists⟩

omit hlower in
/-- Calls with the same parameters on all receivers. -/
theorem alternatives_accesses (current : Option String) (view : View) (call : Call)
    (behavior : Option String) (parameters : String) :
    alternatives current ((generator scope).accesses view call behavior parameters)
        call.returns.fallback
      = (choices current (((generator scope).receivers view call).map Prod.fst)
          .fallback).render call.returns
        (memberCall behavior call.callable.callName parameters) := by
  have hmember : ∀ access ∈ (generator scope).accesses view call behavior parameters,
      callOn "" access = memberCall behavior call.callable.callName parameters := by
    intro access hmem
    obtain ⟨receiver, -, rfl⟩ := List.mem_map.1 hmem
    rfl
  have hobjects : ((generator scope).accesses view call behavior parameters).map Access.object
      = ((generator scope).receivers view call).map Prod.fst :=
    List.map_map
  rw [← hobjects]
  exact alternatives_render hmember .fallback

/-- A call on objects reads the lists of its receivers, besides what its parameters read. -/
theorem establishes_objects {call : Call} {object : Expression} {given rest : List Expression}
    (hgiven : call.form.Takes (object :: given))
    (harguments : call.arguments = object :: given ++ rest)
    (hhook : (generator scope).hookOf call.callable = none) :
    Establishes (Generator.Kept (Accounted scope))
      (((generator scope).callCode call).run ((generator scope).handler lower)) fun code final =>
        Recorded scope final call ∧
          ∃ lists, Reads.Made scope call code lists ∧ Provided final lists := by
  rw [Generator.callCode_eq_accesses hgiven harguments hhook]
  refine Establishes.bind (Generator.establishes_requireFile (collecting_target scope) _)
    fun _ => ?_
  refine Establishes.bind (establishes_parametersCode hlower rest _) fun parameters => ?_
  refine Establishes.bind Generator.establishes_view fun view => ?_
  apply (establishes_foldAccesses call.returns.fallback _).weaken
  rintro code final ⟨hcode, haccesses⟩ hview ⟨codes, lists, rfl, hparameters, hlists⟩ hfile
  have hreceivers : ∀ receiver ∈ (generator scope).receivers view call,
      receiver.1 ∈ final.context.needed ∧
        ∀ path, receiver.2.bind TypeInfo.includeFile = some path → path ≠ "" →
          path ∈ final.includes :=
    fun receiver hmem => haccesses _ (List.mem_map_of_mem hmem)
  rw [hcode, alternatives_accesses]
  constructor
  · refine ⟨hfile, fun _ receiver hmem => hreceivers receiver ?_⟩
    have hexpand (name : String) : (generator scope).target.expand name view
        = (generator scope).target.expand name (.ofCurrent final.context.current) := by
      simp only [generator, target, hview, View.ofCurrent]
    rwa [Generator.receivers_congr hexpand]
  · refine ⟨_, .objects _ hgiven harguments hhook hparameters, Provided.append ?_ hlists⟩
    intro list hmem
    rcases mem_lists_choices hmem with hnone | ⟨object, hobject, rfl⟩
    · cases hnone
    · obtain ⟨receiver, hreceiver, rfl⟩ := List.mem_map.1 hobject
      exact ⟨receiver.1, (hreceivers receiver hreceiver).1, rfl⟩

/-- A free call that is made as it stands. -/
theorem establishes_free {call : Call} (hform : call.form = .free)
    (hhook : (generator scope).hookOf call.callable = none) :
    Establishes (Generator.Kept (Accounted scope))
      (((generator scope).callCode call).run ((generator scope).handler lower)) fun code final =>
        Recorded scope final call ∧
          ∃ lists, Reads.Made scope call code lists ∧ Provided final lists := by
  have hrecorded {final : State} (hfile : ∀ path, call.callable.includeFile = some path →
      path ≠ "" → path ∈ final.includes) : Recorded scope final call := by
    refine ⟨hfile, fun _ receiver hmem => ?_⟩
    simp only [Generator.receivers, hform, List.not_mem_nil] at hmem
  simp only [Generator.callCode, hform, Generator.freeCall, hhook]
  refine Establishes.bind (Generator.establishes_requireFile (collecting_target scope) _)
    fun _ => ?_
  by_cases hliteral : call.returns = .text ∧ call.function = ""
  · rw [if_pos hliteral]
    apply Establishes.done
    intro final hfile
    exact ⟨hrecorded hfile, [], .literal hform hliteral.1 hliteral.2 hhook, .nil final⟩
  · rw [if_neg hliteral]
    refine Establishes.bind (establishes_parametersCode hlower _ _) fun text => ?_
    apply Establishes.done
    rintro final ⟨codes, lists, rfl, hparameters, hlists⟩ hfile
    exact ⟨hrecorded hfile, lists, .free hform hhook hparameters, hlists⟩

theorem establishes_callCode {call : Call} (hheaded : call.Headed) :
    Establishes (Generator.Kept (Accounted scope))
      (((generator scope).callCode call).run ((generator scope).handler lower)) fun code final =>
        Recorded scope final call ∧
          ∃ lists, Reads.Made scope call code lists ∧ Provided final lists := by
  cases hhook : (generator scope).hookOf call.callable with
  | some hook =>
    rw [Generator.callCode_of_hook hheaded hhook]
    refine Establishes.bind (Generator.establishes_requireFile (collecting_target scope) _)
      fun _ => ?_
    apply (establishes_hook hlower hhook).weaken
    rintro code final hmade hfile
    exact ⟨⟨hfile, fun hnone => by rw [hnone] at hhook; cases hhook⟩, hmade⟩
  | none =>
    obtain ⟨given, rest, hgiven, harguments⟩ := hheaded
    cases given with
    | cons object given => exact establishes_objects hlower hgiven harguments hhook
    | nil =>
      refine establishes_free hlower ?_ hhook
      cases hform : call.form with
      | free => rfl
      | object =>
        rw [hform] at hgiven
        obtain ⟨object, hobject⟩ := hgiven
        cases hobject
      | behavior =>
        rw [hform] at hgiven
        obtain ⟨object, behavior, hobject⟩ := hgiven
        cases hobject

/-- What is said in the end of an event that was visited: it has added a piece of code. -/
def Added (scope : Scope) (event : Event) (fragment : Fragment)
    (answer : Except Failure Unit × Fragment) (final : State) : Prop :=
  answer.1 = .ok () → (∀ call ∈ event.calls scope, Recorded scope final call) ∧
    ∃ piece read, answer.2 = fragment.append piece ∧ Provided final read ∧
      ∀ events code lists, Reads.Events scope events code lists →
        Reads.Events scope (event :: events) (piece ++ code) (read ++ lists)

theorem establishes_visit {event : Event} (hheaded : ∀ call, event = .call call → call.Headed)
    (fragment : Fragment) :
    Establishes (Generator.Kept (Accounted scope))
      ((fragment.visit (generator scope) event).run ((generator scope).handler lower))
      (Added scope event fragment) := by
  have hsilent {final : State} : ∀ call ∈ ([] : List Call), Recorded scope final call :=
    fun call hmem => (List.not_mem_nil hmem).elim
  cases event with
  | constant text =>
    exact Establishes.done fun final _ =>
      ⟨hsilent, text, [], rfl, .nil final, fun _ _ _ hevents => .constant text hevents⟩
  | operator text =>
    exact Establishes.done fun final _ =>
      ⟨hsilent, text, [], rfl, .nil final, fun _ _ _ hevents => .operator text hevents⟩
  | number text =>
    exact Establishes.done fun final _ =>
      ⟨hsilent, _, [], rfl, .nil final, fun _ _ _ hevents => .number text hevents⟩
  | argument kind e =>
    rw [Fragment.visit_argument]
    refine Establishes.bind (hlower kind e) fun result => ?_
    cases result with
    | error failure => exact Establishes.done fun final _ hok => by cases hok
    | ok code =>
      apply Establishes.done
      intro final howed _
      refine ⟨(howed code rfl).1, "", [], ?_, .nil final, fun events code lists hevents => ?_⟩
      · rw [Fragment.append, String.append_empty]
      · rw [String.empty_append]
        exact .argument kind e hevents
  | call call =>
    refine Establishes.bind (establishes_callCode hlower (hheaded call rfl)) fun piece => ?_
    apply Establishes.done
    rintro final ⟨hrecorded, read, hmade, hread⟩ -
    refine ⟨?_, piece, read, rfl, hread, fun _ _ _ hevents => .call hmade hevents⟩
    rintro other hmem
    rw [List.mem_singleton.1 hmem]
    exact hrecorded

/-- What is said in the end of events that were all visited. -/
def AllAdded (scope : Scope) (events : List Event) (fragment : Fragment)
    (answer : Except Failure Unit × Fragment) (final : State) : Prop :=
  answer.1 = .ok () →
    (∀ call ∈ events.flatMap (Event.calls scope), Recorded scope final call) ∧
      ∃ code lists, answer.2 = fragment.append code ∧ Provided final lists ∧
        Reads.Events scope events code lists

theorem establishes_shown {events : List Event}
    (hheaded : ∀ call, .call call ∈ events → call.Headed) (fragment : Fragment) :
    Establishes (Generator.Kept (Accounted scope))
      ((Fragment.shown (generator scope) events fragment).run ((generator scope).handler lower))
      (AllAdded scope events fragment) := by
  induction events generalizing fragment with
  | nil =>
    apply Establishes.done
    intro final _
    refine ⟨fun call hmem => (List.not_mem_nil hmem).elim, "", [], ?_, .nil final, .nil⟩
    rw [Fragment.append, String.append_empty]
  | cons event events ih =>
    have hfirst : ∀ call, event = .call call → call.Headed :=
      fun call heq => hheaded call (heq ▸ List.mem_cons_self)
    rw [Fragment.shown_cons]
    refine Establishes.bind (establishes_visit hlower hfirst fragment) fun answer => ?_
    obtain ⟨result, next⟩ := answer
    cases result with
    | error failure => exact Establishes.done fun final _ hok => by cases hok
    | ok =>
      apply (ih (fun call hmem => hheaded call (List.mem_cons_of_mem _ hmem)) next).weaken
      intro answer final hrest hadded hanswer
      obtain ⟨hcalls, piece, read, rfl, hread, hevent⟩ := hadded rfl
      obtain ⟨hothers, code, lists, hcode, hlists, hevents⟩ := hrest hanswer
      constructor
      · intro call hmem
        rcases List.mem_append.1 (List.flatMap_cons ▸ hmem) with hmem | hmem
        · exact hcalls call hmem
        · exact hothers call hmem
      · refine ⟨piece ++ code, read ++ lists, ?_, hread.append hlists,
          hevent events code lists hevents⟩
        rw [hcode, Fragment.append, Fragment.append, Fragment.append, String.append_assoc]

/-- The script of a formula, all of it. -/
theorem establishes_script (kind : Expression.Kind) (e : Expression) :
    Establishes (Generator.Kept (Accounted scope))
      (((generator scope).script kind e).run ((generator scope).handler lower))
      (Generator.Owed (Accounted scope) kind e) := by
  rw [Generator.script, Fragment.ofTrace_eq]
  refine Establishes.bind (establishes_shown hlower (fun call hmem =>
    Trace.headed_of_mem_ofExpression hmem) {}) fun answer => ?_
  apply Establishes.done
  intro final hadded code hcode
  obtain ⟨result, next⟩ := answer
  cases result with
  | error failure => cases Fragment.shown_ok_of_finish hcode
  | ok =>
    obtain ⟨hcalls, piece, lists, hpiece, hlists, hevents⟩ := hadded rfl
    obtain rfl : next = Fragment.append {} piece := hpiece
    cases hread : (Trace.ofExpression (generator scope).scope kind e).failure with
    | some failure =>
      simp only [Except.bind, Trace.result, hread] at hcode
      cases hcode
    | none =>
      simp only [Except.bind, Trace.result, hread] at hcode
      have hpiece : "" ++ piece = code := Except.ok.inj hcode
      rw [String.empty_append] at hpiece
      rw [← hpiece]
      refine ⟨?_, lists, .read hread hevents, hlists⟩
      rw [Trace.calls_eq]
      exact hcalls

end Scripts

end EventFormula.JavaScript
