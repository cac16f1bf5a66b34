import EventFormula.Proofs.Lowering.Log
import EventFormula.Proofs.Target.Receivers

/-!
# The files that a call asks for

With the JavaScript target and with the symbolic one, what is done for a call is no more than this:
its file is asked for, the formulas among its arguments are lowered, and then, for each receiver of
a call on objects, the file of its type. The main statement is `asking_callCode`: a call without a
hook whose formulas are remembered has nothing read and asks for just these files, each of them
once.
-/

namespace EventFormula

/-- The file that is asked for, if one is named. -/
def fileOf (file : Option String) : List String := (file.filter (· != "")).toList

namespace Call

/-- The arguments that are formulas, as their parameters say. -/
def formulasFor (parameters : List Parameter) (arguments : List Expression) :
    List (Expression.Kind × Expression) :=
  (parameters.zip arguments).filterMap fun pair =>
    pair.1.kind.expressionKind?.map fun kind => (kind, pair.2)

/-- A string literal is no call that has its argument lowered. -/
def IsLiteral (call : Call) : Prop :=
  call.form = .free ∧ call.returns = .text ∧ call.function = ""

instance (call : Call) : Decidable call.IsLiteral := inferInstanceAs (Decidable (_ ∧ _))

/-- The arguments that are formulas and not given by the head. -/
def inputs (call : Call) : List (Expression.Kind × Expression) :=
  if call.IsLiteral then []
  else
    formulasFor (call.callable.parameters.drop call.form.taken)
      (call.arguments.drop call.form.taken)

end Call

namespace Script

variable {α β : Type} {known : List (Expression.Kind × Expression)}

/-- The script asks for nothing but to lower formulas that are known. -/
def Quiet (known : List (Expression.Kind × Expression)) : Script α → Prop
  | done _ => True
  | lowering kind e next => (kind, e) ∈ known ∧ ∀ result, (next result).Quiet known
  | including .. | needing .. | picking .. | viewing .. => False

theorem quiet_then {script : Script α} {f : α → Script β} (hs : script.Quiet known)
    (hf : ∀ value, (f value).Quiet known) : (script >>= f).Quiet known := by
  show (script.bind f).Quiet known
  induction script with
  | done value => exact hf value
  | lowering kind e next ih => exact ⟨hs.1, fun result => ih result (hs.2 result)⟩
  | including | needing | picking | viewing => exact hs.elim

theorem Quiet.mono {more : List (Expression.Kind × Expression)} {script : Script α}
    (hs : script.Quiet known) (hknown : known ⊆ more) : script.Quiet more := by
  induction script with
  | done value => trivial
  | lowering kind e next ih => exact ⟨hknown hs.1, fun result => ih result (hs.2 result)⟩
  | including | needing | picking | viewing => exact hs.elim

end Script

/-- The target has nothing done for the code of parameters but to lower those that are formulas, and
nothing for calls on objects. -/
structure Target.Plain (target : Target) : Prop where
  parameterCodes : ∀ arguments parameters,
    (target.parameterCodes arguments parameters).Quiet (Call.formulasFor parameters arguments)
  expand : ∀ name (v w : View), v.current = w.current → target.expand name v = target.expand name w
  currentCall : ∀ access, (target.currentCall access).Quiet []
  otherCall : ∀ access otherwise, (target.otherCall access otherwise).Quiet []

section Known

theorem formulasFor_cons {parameter : Parameter} {parameters : List Parameter}
    {argument : Expression} {arguments : List Expression} :
    Call.formulasFor (parameter :: parameters) (argument :: arguments)
      = (parameter.kind.expressionKind?.map fun kind => (kind, argument)).toList
        ++ Call.formulasFor parameters arguments := by
  rw [Call.formulasFor, List.zip_cons_cons, List.filterMap_cons]
  cases parameter.kind.expressionKind? <;> rfl

theorem JavaScript.quiet_expressionCode (kind : Expression.Kind) (e : Expression) :
    (expressionCode kind e).Quiet [(kind, e)] := by
  rw [expressionCode]
  split
  · trivial
  · refine ⟨List.mem_singleton_self _, fun result => ?_⟩
    cases result <;> trivial

theorem JavaScript.quiet_parameterCode (argument : Expression) (parameter : Parameter) :
    (parameterCode argument (some parameter)).Quiet
      (parameter.kind.expressionKind?.map fun kind => (kind, argument)).toList := by
  simp only [parameterCode, Option.elim_some]
  cases parameter.kind with
  | number => exact quiet_expressionCode .number argument
  | string => exact quiet_expressionCode .text argument
  | object | behavior | code => trivial

theorem JavaScript.quiet_parameterCodes (arguments : List Expression)
    (parameters : List Parameter) :
    (parameterCodes arguments parameters).Quiet (Call.formulasFor parameters arguments) := by
  induction arguments generalizing parameters with
  | nil => trivial
  | cons argument arguments ih =>
    cases parameters with
    | nil =>
      exact Script.quiet_then trivial fun _ => Script.quiet_then (ih []) fun _ => trivial
    | cons parameter parameters =>
      rw [formulasFor_cons]
      have hfirst := (quiet_parameterCode argument parameter).mono
        (List.subset_append_left _ (Call.formulasFor parameters arguments))
      have hrest := (ih parameters).mono (List.subset_append_right
        (parameter.kind.expressionKind?.map fun kind => (kind, argument)).toList _)
      exact Script.quiet_then hfirst fun _ => Script.quiet_then hrest fun _ => trivial

theorem JavaScript.plain_target (scope : Scope) : (target scope).Plain where
  parameterCodes := quiet_parameterCodes
  expand name v w h := by simp only [target, h]
  currentCall _ := trivial
  otherCall _ _ := trivial

theorem Symbolic.quiet_parameterCode (argument : Expression) (parameter : Parameter) :
    (parameterCode argument parameter).Quiet
      (parameter.kind.expressionKind?.map fun kind => (kind, argument)).toList := by
  rw [parameterCode]
  cases parameter.kind.expressionKind? with
  | none => trivial
  | some kind =>
    refine ⟨List.mem_singleton_self _, fun result => ?_⟩
    cases result <;> trivial

theorem Symbolic.quiet_parameterCodes (arguments : List Expression)
    (parameters : List Parameter) :
    (parameterCodes arguments parameters).Quiet (Call.formulasFor parameters arguments) := by
  rw [parameterCodes]
  induction parameters generalizing arguments with
  | nil =>
    rw [List.zip_nil_right]
    trivial
  | cons parameter parameters ih =>
    cases arguments with
    | nil => trivial
    | cons argument arguments =>
      rw [formulasFor_cons]
      have hfirst := (quiet_parameterCode argument parameter).mono
        (List.subset_append_left _ (Call.formulasFor parameters arguments))
      have hrest := (ih arguments).mono (List.subset_append_right
        (parameter.kind.expressionKind?.map fun kind => (kind, argument)).toList _)
      exact Script.quiet_then hfirst fun _ => Script.quiet_then hrest fun _ => trivial

theorem Symbolic.plain_target (expansions : Expansions) : (target expansions).Plain where
  parameterCodes := quiet_parameterCodes
  expand _ _ _ _ := rfl
  currentCall _ := trivial
  otherCall _ _ := trivial

end Known

/-- No fragment has been added, and neither the current object nor the depth is another. -/
structure State.Steady (first second : State) : Prop where
  lowered : second.context.lowered = first.context.lowered
  current : second.context.current = first.context.current
  depth : second.context.depth = first.context.depth

/-- This object is current, and these formulas have fragments that are remembered. -/
structure State.Ready (current : Option String) (known : List (Expression.Kind × Expression))
    (state : State) : Prop where
  current : state.context.current = current
  known : ∀ formula ∈ known, ∃ code, state.context.remembered? formula.1 formula.2 = some code

theorem State.Steady.refl (state : State) : state.Steady state := ⟨rfl, rfl, rfl⟩

theorem State.Steady.trans {first second third : State} (h : first.Steady second)
    (hrest : second.Steady third) : first.Steady third :=
  ⟨hrest.lowered.trans h.lowered, hrest.current.trans h.current, hrest.depth.trans h.depth⟩

theorem State.Steady.remembered? {first second : State} (h : first.Steady second) :
    second.context.remembered? = first.context.remembered? := by
  funext kind e
  rw [Context.remembered?, Context.remembered?, h.lowered]

theorem State.Ready.steady {current : Option String}
    {known : List (Expression.Kind × Expression)} {first second : State}
    (h : first.Ready current known) (hsteady : first.Steady second) :
    second.Ready current known := by
  refine ⟨hsteady.current.trans h.current, ?_⟩
  rw [hsteady.remembered?]
  exact h.known

/-- The lowerings as the scripts find them: one that is remembered changes nothing and is not
logged, and any other comes back to its level. -/
structure Recalls (lower : Expression.Kind → Expression → StateM State (Except Failure String))
    (inner : Expression.Kind → Expression → State → List LogEntry) : Prop where
  depth : ∀ kind e state, (lower kind e state).2.context.depth = state.context.depth
  lower : ∀ {kind e state code}, state.context.remembered? kind e = some code →
    lower kind e state = (.ok code, state)
  inner : ∀ {kind e state code}, state.context.remembered? kind e = some code →
    inner kind e state = []

theorem Generator.recalls_lowerWithin (generator : Generator) (levels : Nat) :
    Recalls (generator.lowerWithin Context.remembered? levels) (generator.logWithin levels) :=
  ⟨generator.depth_lowerWithin Context.remembered? levels, generator.lowerWithin_of_recall,
    generator.logWithin_of_recall⟩

/-- Carried out where that object is current and those formulas are known, the script adds no
fragment and asks for these files. -/
def Script.Asking {α : Type} (handler : Script.Handler (StateM State))
    (inner : Expression.Kind → Expression → State → List LogEntry) (current : Option String)
    (known : List (Expression.Kind × Expression)) (script : Script α) (files : List String) :
    Prop :=
  ∀ state : State, state.Ready current known → state.Steady (script.run handler state).2 ∧
    script.log handler inner state = files.map .require

section Rules
variable {α β : Type} {handler : Script.Handler (StateM State)}
  {inner : Expression.Kind → Expression → State → List LogEntry} {current : Option String}
  {known : List (Expression.Kind × Expression)}

theorem asking_done (value : α) : (Script.done value).Asking handler inner current known [] :=
  fun state _ => ⟨.refl state, rfl⟩

theorem Script.Asking.andThen {script : Script α} {f : α → Script β} {first rest : List String}
    (hs : script.Asking handler inner current known first)
    (hf : ∀ value, (f value).Asking handler inner current known rest) :
    (script >>= f).Asking handler inner current known (first ++ rest) := by
  intro state hready
  obtain ⟨hsteady, hlog⟩ := hs state hready
  obtain ⟨hlater, hlaterLog⟩ := hf _ _ (hready.steady hsteady)
  rw [Script.run_then, Script.log_then, hlog, hlaterLog, List.map_append]
  exact ⟨hsteady.trans hlater, rfl⟩

end Rules

section Requests
variable {α : Type} {generator : Generator}
  {lower : Expression.Kind → Expression → StateM State (Except Failure String)}
  {inner : Expression.Kind → Expression → State → List LogEntry} {current : Option String}
  {known : List (Expression.Kind × Expression)}

theorem asking_requireFile (file : Option String) :
    (Generator.requireFile file).Asking (generator.handler lower) inner current known
      (fileOf file) := by
  intro state _
  cases file with
  | none => exact ⟨.refl state, rfl⟩
  | some path =>
    by_cases hpath : path = ""
    · subst hpath
      exact ⟨.refl state, rfl⟩
    · have hfile : fileOf (some path) = [path] := by
        simp [fileOf, Option.filter, hpath]
      simp only [Generator.requireFile, hfile, hpath, if_false]
      exact ⟨⟨rfl, rfl, rfl⟩, rfl⟩

theorem asking_need (object : String) :
    (Script.need object).Asking (generator.handler lower) inner current known [] := by
  intro state _
  have hneed : ((Script.need object).run (generator.handler lower) state).2.context
      = state.context.need object := rfl
  rw [Context.need_eq] at hneed
  refine ⟨⟨?_, ?_, ?_⟩, rfl⟩ <;> rw [hneed]

theorem asking_view {f : View → Script α} {files : List String}
    (hf : ∀ view : View, view.current = current →
      (f view).Asking (generator.handler lower) inner current known files) :
    (Script.view >>= f).Asking (generator.handler lower) inner current known files :=
  fun state hready => hf state.context.view hready.current state hready

theorem asking_quiet (hrecalls : Recalls lower inner) {script : Script α}
    (hquiet : script.Quiet known) :
    script.Asking (generator.handler lower) inner current known [] := by
  intro state hready
  induction script with
  | done value => exact ⟨.refl state, rfl⟩
  | lowering kind e next ih =>
    obtain ⟨code, hcode⟩ := hready.known (kind, e) hquiet.1
    have hlower : (generator.handler lower).lower kind e state = (.ok code, state) :=
      hrecalls.lower hcode
    rw [Script.run_lowering, Script.log, hlower, hrecalls.inner hcode]
    exact ih (.ok code) (hquiet.2 _)
  | including | needing | picking | viewing => exact hquiet.elim

/-- The calls on objects ask for the files of their types. -/
theorem asking_foldAccesses (hplain : generator.target.Plain) (hrecalls : Recalls lower inner)
    (output : String) (accesses : List Access) :
    (generator.foldAccesses output accesses).Asking (generator.handler lower) inner current known
      (accesses.flatMap fun access => fileOf (access.info.bind TypeInfo.includeFile)) := by
  induction accesses generalizing output with
  | nil => exact asking_done output
  | cons access accesses ih =>
    rw [Generator.foldAccesses, List.flatMap_cons]
    refine (asking_need access.object).andThen fun _ => ?_
    refine (asking_requireFile _).andThen fun _ => ?_
    refine asking_view fun view _ => ?_
    by_cases hcurrent : view.current = some access.object
    · rw [if_pos hcurrent]
      have hquiet := (hplain.currentCall access).mono (List.nil_subset known)
      exact (asking_quiet hrecalls hquiet).andThen ih
    · rw [if_neg hcurrent]
      have hquiet := (hplain.otherCall access output).mono (List.nil_subset known)
      exact (asking_quiet hrecalls hquiet).andThen ih

/-- The code of parameters needs no reading once the formulas among them are known. -/
theorem asking_parametersCode (hplain : generator.target.Plain) (hrecalls : Recalls lower inner)
    {arguments : List Expression} {parameters : List Parameter}
    (hknown : Call.formulasFor parameters arguments ⊆ known) :
    (generator.parametersCode arguments parameters).Asking (generator.handler lower) inner current
      known [] :=
  (asking_quiet hrecalls ((hplain.parameterCodes arguments parameters).mono hknown)).andThen
    fun _ => asking_done _

end Requests

/-- The files that a call asks for: its own, and those of the types that it is made on. -/
def Generator.filesOf (generator : Generator) (current : Option String) (call : Call) :
    List String :=
  fileOf call.callable.includeFile ++ (generator.receivers (.ofCurrent current) call).flatMap
    fun receiver => fileOf (receiver.2.bind TypeInfo.includeFile)

section Calls
variable {generator : Generator}
  {lower : Expression.Kind → Expression → StateM State (Except Failure String)}
  {inner : Expression.Kind → Expression → State → List LogEntry} {current : Option String}
  {known : List (Expression.Kind × Expression)} {call : Call}

theorem asking_free (hplain : generator.target.Plain) (hrecalls : Recalls lower inner)
    (hform : call.form = .free) (hhook : generator.hookOf call.callable = none)
    (hknown : call.inputs ⊆ known) :
    (generator.callCode call).Asking (generator.handler lower) inner current known
      (generator.filesOf current call) := by
  have hfiles : generator.filesOf current call = fileOf call.callable.includeFile ++ [] := by
    simp only [Generator.filesOf, Generator.receivers, hform, List.flatMap_nil]
  simp only [Generator.callCode, hform, Generator.freeCall, hhook, hfiles]
  refine (asking_requireFile _).andThen fun _ => ?_
  by_cases hliteral : call.IsLiteral
  · rw [if_pos hliteral.2]
    exact asking_done _
  · have hnamed : ¬ (call.returns = .text ∧ call.function = "") := fun h => hliteral ⟨hform, h⟩
    have hparameters : Call.formulasFor call.callable.parameters call.arguments ⊆ known := by
      simpa only [Call.inputs, if_neg hliteral, hform, Call.Form.taken, List.drop_zero]
        using hknown
    rw [if_neg hnamed]
    exact (asking_parametersCode hplain hrecalls hparameters).andThen fun _ => asking_done _

theorem asking_objects (hplain : generator.target.Plain) (hrecalls : Recalls lower inner)
    {object : Expression} {given rest : List Expression}
    (hgiven : call.form.Takes (object :: given))
    (harguments : call.arguments = object :: given ++ rest)
    (hhook : generator.hookOf call.callable = none) (hknown : call.inputs ⊆ known) :
    (generator.callCode call).Asking (generator.handler lower) inner current known
      (generator.filesOf current call) := by
  have htaken : given.length + 1 = call.form.taken := Call.Form.length_of_takes hgiven
  have hliteral : ¬ call.IsLiteral := by
    rintro ⟨hform, -⟩
    rw [hform] at hgiven
    cases hgiven
  have hparameters : Call.formulasFor (call.callable.parameters.drop (given.length + 1)) rest
      ⊆ known := by
    have hrest : call.arguments.drop (given.length + 1) = rest := by
      rw [harguments]
      exact List.drop_left
    rw [← hrest, htaken]
    simpa only [Call.inputs, if_neg hliteral] using hknown
  rw [Generator.callCode_eq_accesses hgiven harguments hhook, Generator.filesOf]
  generalize htypes : ((generator.receivers (.ofCurrent current) call).flatMap fun receiver =>
    fileOf (receiver.2.bind TypeInfo.includeFile)) = types
  refine (asking_requireFile _).andThen fun _ => ?_
  refine (asking_parametersCode hplain hrecalls hparameters).andThen fun parameters => ?_
  refine asking_view fun view hcurrent => ?_
  have haccesses : ((generator.accesses view call (given.head?.map Expression.text)
      parameters).flatMap fun access => fileOf (access.info.bind TypeInfo.includeFile))
        = types := by
    rw [← htypes, Generator.accesses, List.flatMap_map, Generator.receivers_congr fun name =>
      hplain.expand name view (.ofCurrent current) hcurrent]
  rw [← haccesses]
  exact asking_foldAccesses hplain hrecalls _ _

/-- A call whose formulas are known has nothing lowered and asks for its files, each once. -/
theorem asking_callCode (hplain : generator.target.Plain) (hrecalls : Recalls lower inner)
    (hheaded : call.Headed) (hhook : generator.hookOf call.callable = none)
    (hknown : call.inputs ⊆ known) :
    (generator.callCode call).Asking (generator.handler lower) inner current known
      (generator.filesOf current call) := by
  obtain ⟨given, rest, hgiven, harguments⟩ := hheaded
  cases given with
  | cons object given => exact asking_objects hplain hrecalls hgiven harguments hhook hknown
  | nil => exact asking_free hplain hrecalls (Call.Form.free_of_takes hgiven) hhook hknown

end Calls

end EventFormula
