import EventFormula.Proofs.Target.Files
import EventFormula.Target.Symbolic

/-!
# The fold over the receivers

The code of a call on objects is put together receiver by receiver, and a call on the current object
takes the place of all that was put together before it. So for the code only the receivers behind
the last occurrence of the current object matter. What is recorded for a receiver is recorded for
all of them, also for those whose calls are gone; the main statement, `callCode_folds`, has both. It
holds for any list of receivers, with repetitions or without, and for any target whose calls are
texts that are made of what they are given.
-/

namespace EventFormula

/-- Calls of the target are made of what they are given, and nothing else is done for them. -/
structure Target.Composes (target : Target) (direct : Access → String)
    (compose : Access → String → String) : Prop where
  currentCall : ∀ access, target.currentCall access = .done (direct access)
  otherCall : ∀ access otherwise,
    target.otherCall access otherwise = .done (compose access otherwise)

theorem JavaScript.composes_target (scope : Scope) :
    (target scope).Composes JavaScript.currentCall JavaScript.otherCall :=
  ⟨fun _ => rfl, fun _ _ => rfl⟩

theorem Symbolic.composes_target (expansions : Expansions) :
    (target expansions).Composes Symbolic.currentCall Symbolic.otherCall :=
  ⟨fun _ => rfl, fun _ _ => rfl⟩

/-- Calls of which each keeps the one before it as its alternative. -/
def Access.composed (compose : Access → String → String) (accesses : List Access)
    (otherwise : String) : String :=
  accesses.foldl (fun otherwise access => compose access otherwise) otherwise

/-- What the calls leave of each other when that object is current. -/
structure Access.Folds (direct : Access → String) (compose : Access → String → String)
    (current : Option String) (fallback : String) (accesses : List Access) (code : String) :
    Prop where
  /-- Without the current object all of them are composed. -/
  others : (∀ access ∈ accesses, current ≠ some access.object) →
    code = composed compose accesses fallback
  /-- With it, the last call on it and those that follow are. -/
  last : ∀ before access after, accesses = before ++ access :: after →
    current = some access.object → (∀ other ∈ after, current ≠ some other.object) →
      code = composed compose after (direct access)

/-- The calls one after the other, as they come. -/
def Access.folded (direct : Access → String) (compose : Access → String → String)
    (current : Option String) (accesses : List Access) (otherwise : String) : String :=
  accesses.foldl (fun otherwise access =>
    if current = some access.object then direct access else compose access otherwise) otherwise

/-- The files that the types of the receivers come with, one for each call. -/
def Access.files (accesses : List Access) : List String :=
  accesses.flatMap fun access => fileOf (access.info.bind TypeInfo.includeFile)

namespace Access

variable {direct : Access → String} {compose : Access → String → String}
  {current : Option String}

theorem folded_of_others {accesses : List Access}
    (h : ∀ access ∈ accesses, current ≠ some access.object) (otherwise : String) :
    folded direct compose current accesses otherwise = composed compose accesses otherwise := by
  induction accesses generalizing otherwise with
  | nil => rfl
  | cons access accesses ih =>
    obtain ⟨hfirst, hothers⟩ := List.forall_mem_cons.1 h
    rw [folded, List.foldl_cons, if_neg hfirst]
    exact ih hothers _

/-- What was put together before a call on the current object is of no account. -/
theorem folded_append {access : Access} (hcurrent : current = some access.object)
    (before after : List Access) (otherwise : String) :
    folded direct compose current (before ++ access :: after) otherwise
      = folded direct compose current after (direct access) := by
  rw [folded, List.foldl_append, List.foldl_cons, if_pos hcurrent]
  rfl

theorem folds_folded (direct : Access → String) (compose : Access → String → String)
    (current : Option String) (accesses : List Access) (fallback : String) :
    Folds direct compose current fallback accesses
      (folded direct compose current accesses fallback) where
  others hothers := folded_of_others hothers fallback
  last before access after hsplit hcurrent hothers := by
    rw [hsplit, folded_append hcurrent, folded_of_others hothers]

end Access

/-- Objects that are needed one after the other are added in the order of their first use. -/
theorem Context.foldl_need (objects : List String) (context : Context) :
    objects.foldl Context.need context = { context with
      needed := context.needed ++ (objects.removeAll context.needed).eraseDups } := by
  induction objects generalizing context with
  | nil => simp only [List.foldl_nil, List.nil_removeAll, List.eraseDups_nil, List.append_nil]
  | cons object objects ih =>
    rw [List.foldl_cons, ih, Context.need_eq]
    by_cases hmem : object ∈ context.needed
    · have hgone : (object :: objects).removeAll context.needed
          = objects.removeAll context.needed := by
        simp only [List.removeAll, List.elem_eq_mem, hmem, decide_true, Bool.not_true,
          Bool.false_eq_true, not_false_eq_true, List.filter_cons_of_neg]
      simp only [if_pos hmem, hgone]
    · have hkept : (object :: objects).removeAll context.needed
          = object :: objects.removeAll context.needed := by
        simp only [List.removeAll, List.elem_eq_mem, hmem, decide_false, Bool.not_false,
          List.filter_cons_of_pos]
      have hrest : objects.removeAll (context.needed ++ [object])
          = (objects.removeAll context.needed).filter fun other => !other == object := by
        simp only [List.removeAll, List.filter_filter]
        refine List.filter_congr fun other _ => ?_
        rw [Bool.eq_iff_iff]
        simp [and_comm]
      simp only [if_neg hmem, hkept, hrest, List.eraseDups_cons, List.append_assoc,
        List.singleton_append]

namespace Generator

variable {generator : Generator} {direct : Access → String} {compose : Access → String → String}
  {lower : Expression.Kind → Expression → StateM State (Except Failure String)}
  {inner : Expression.Kind → Expression → State → List LogEntry}

/-- The files to include, once these have been recorded one after the other. -/
def included (generator : Generator) (files includes : List String) : List String :=
  files.foldl (fun includes path => generator.target.record path includes) includes

theorem run_requireFile (generator : Generator)
    (lower : Expression.Kind → Expression → StateM State (Except Failure String))
    (file : Option String) (state : State) :
    (requireFile file).run (generator.handler lower) state
      = ((), { state with includes := generator.included (fileOf file) state.includes }) := by
  cases file with
  | none => rfl
  | some path =>
    by_cases hpath : path = ""
    · subst hpath
      rfl
    · have hfile : fileOf (some path) = [path] := by
        simp [fileOf, Option.filter, hpath]
      simp only [requireFile, hfile, hpath, if_false]
      rfl

theorem log_requireFile (generator : Generator)
    (lower : Expression.Kind → Expression → StateM State (Except Failure String))
    (inner : Expression.Kind → Expression → State → List LogEntry) (file : Option String)
    (state : State) :
    (requireFile file).log (generator.handler lower) inner state
      = (fileOf file).map .require := by
  have hready : state.Ready state.context.current [] := ⟨rfl, List.forall_mem_nil _⟩
  exact (asking_requireFile file state hready).2

/-- What a call on one receiver leaves behind. -/
def recorded (generator : Generator) (access : Access) (state : State) : State where
  context := state.context.need access.object
  includes := generator.included (fileOf (access.info.bind TypeInfo.includeFile)) state.includes

theorem current_recorded (access : Access) (state : State) :
    (generator.recorded access state).context.current = state.context.current := by
  rw [recorded, Context.need_eq]

/-- One call is made, and the others follow. -/
theorem run_foldAccesses_cons (hcomposes : generator.target.Composes direct compose)
    (output : String) (access : Access) (accesses : List Access) (state : State) :
    (generator.foldAccesses output (access :: accesses)).run (generator.handler lower) state
      = (generator.foldAccesses (Access.folded direct compose state.context.current [access] output)
          accesses).run (generator.handler lower) (generator.recorded access state) := by
  have hneed : (Script.need access.object).run (generator.handler lower) state
      = ((), { state with context := state.context.need access.object }) := rfl
  have hcurrent : (generator.recorded access state).context.view.current
      = state.context.current := current_recorded access state
  rw [foldAccesses, Script.run_then, hneed, Script.run_then, run_requireFile, Script.run_then]
  show (if (generator.recorded access state).context.view.current = some access.object
    then generator.target.currentCall access >>= fun next => generator.foldAccesses next accesses
    else generator.target.otherCall access output >>= fun next =>
      generator.foldAccesses next accesses).run (generator.handler lower)
        (generator.recorded access state) = _
  rw [hcurrent, Access.folded, List.foldl_cons, List.foldl_nil]
  by_cases hpicked : state.context.current = some access.object
  · rw [if_pos hpicked, if_pos hpicked, hcomposes.currentCall]
    rfl
  · rw [if_neg hpicked, if_neg hpicked, hcomposes.otherCall]
    rfl

/-- The calls are made one after the other, and their receivers and files recorded with each. -/
theorem run_foldAccesses (hcomposes : generator.target.Composes direct compose) (output : String)
    (accesses : List Access) (state : State) :
    (generator.foldAccesses output accesses).run (generator.handler lower) state
      = (Access.folded direct compose state.context.current accesses output,
        { context := (accesses.map Access.object).foldl Context.need state.context,
          includes := generator.included (Access.files accesses) state.includes }) := by
  induction accesses generalizing output state with
  | nil => rfl
  | cons access accesses ih =>
    have hfiles : generator.included (Access.files (access :: accesses)) state.includes
        = generator.included (Access.files accesses)
            (generator.recorded access state).includes := by
      rw [Access.files, List.flatMap_cons, included, List.foldl_append]
      rfl
    rw [run_foldAccesses_cons hcomposes, ih, current_recorded, hfiles]
    rfl

theorem log_foldAccesses (hcomposes : generator.target.Composes direct compose) (output : String)
    (accesses : List Access) (state : State) :
    (generator.foldAccesses output accesses).log (generator.handler lower) inner state
      = (Access.files accesses).map .require := by
  induction accesses generalizing output state with
  | nil => rfl
  | cons access accesses ih =>
    have hneed : (Script.need access.object).log (generator.handler lower) inner state = [] := rfl
    rw [foldAccesses, Script.log_then, hneed, List.nil_append, Script.log_then, log_requireFile,
      Script.log_then, Access.files, List.flatMap_cons, List.map_append]
    refine congrArg _ ?_
    split
    · rw [hcomposes.currentCall]
      exact ih _ _
    · rw [hcomposes.otherCall]
      exact ih _ _

/-- There is one call for each object that the name stands for. -/
theorem object_accesses {call : Call} {object : Expression} {given rest : List Expression}
    (hgiven : call.form.Takes (object :: given))
    (harguments : call.arguments = object :: given ++ rest) (view : View)
    (behavior : Option String) (parameters : String) :
    (generator.accesses view call behavior parameters).map Access.object
      = generator.target.expand object.text view := by
  cases hform : call.form with
  | free =>
    rw [hform] at hgiven
    cases hgiven
  | object =>
    simp only [accesses, receivers, hform, harguments, List.cons_append, List.map_map]
    exact List.map_id _
  | behavior =>
    rw [hform] at hgiven
    obtain ⟨_, name, heq⟩ := hgiven
    cases heq
    simp only [accesses, receivers, hform, harguments, List.cons_append, List.nil_append,
      List.map_map]
    exact List.map_id _

/-- The code of a call on objects is what the fold over its receivers leaves, once its parameters
have their codes. All receivers are needed then, in the order of their first use, and behind the
file of the function one file is asked for with each of them. -/
theorem callCode_folds (hcomposes : generator.target.Composes direct compose)
    (lower : Expression.Kind → Expression → StateM State (Except Failure String))
    (inner : Expression.Kind → Expression → State → List LogEntry) (state : State)
    {call : Call} {object : Expression} {given rest : List Expression}
    (hgiven : call.form.Takes (object :: given))
    (harguments : call.arguments = object :: given ++ rest)
    (hhook : generator.hookOf call.callable = none) :
    let handler := generator.handler lower
    let own := fileOf call.callable.includeFile
    let begun := { state with includes := generator.included own state.includes }
    let parameters :=
      generator.parametersCode rest (call.callable.parameters.drop (given.length + 1))
    let prepared := (parameters.run handler begun).2
    let targets := generator.target.expand object.text prepared.context.view
    let accesses := generator.accesses prepared.context.view call
      (given.head?.map Expression.text) (parameters.run handler begun).1
    let made := (generator.callCode call).run handler state
    accesses.map Access.object = targets ∧
      Access.Folds direct compose prepared.context.current call.returns.fallback accesses made.1 ∧
      made.2.context = { prepared.context with
        needed := prepared.context.needed
          ++ (targets.removeAll prepared.context.needed).eraseDups } ∧
      made.2.includes = generator.included (Access.files accesses) prepared.includes ∧
      (generator.callCode call).log handler inner state = own.map .require
        ++ parameters.log handler inner begun ++ (Access.files accesses).map .require := by
  intro handler own begun parameters prepared targets accesses made
  have hobjects : accesses.map Access.object = targets :=
    object_accesses hgiven harguments _ _ _
  have hcode : generator.callCode call = requireFile call.callable.includeFile >>= fun _ =>
      parameters >>= fun codes => Script.view >>= fun view =>
        generator.foldAccesses call.returns.fallback
          (generator.accesses view call (given.head?.map Expression.text) codes) :=
    callCode_eq_accesses hgiven harguments hhook
  have hmade : made = (Access.folded direct compose prepared.context.current accesses
      call.returns.fallback,
      { context := targets.foldl Context.need prepared.context,
        includes := generator.included (Access.files accesses) prepared.includes }) := by
    show (generator.callCode call).run handler state = _
    rw [hcode, Script.run_then, run_requireFile, Script.run_then, Script.run_then, ← hobjects]
    exact run_foldAccesses hcomposes _ accesses prepared
  refine ⟨hobjects, ?_, ?_, ?_, ?_⟩
  · rw [hmade]
    exact Access.folds_folded direct compose _ accesses _
  · rw [hmade]
    exact Context.foldl_need targets prepared.context
  · rw [hmade]
  · rw [hcode, Script.log_then, log_requireFile, run_requireFile, Script.log_then, Script.log_then,
      List.append_assoc]
    exact congrArg _ (congrArg _ (log_foldAccesses hcomposes _ accesses prepared))

end Generator

namespace Symbolic

/-- Three objects of a type that comes with a file. A name stands for each of them twice. -/
def generatorOfRepeats : Generator where
  scope :=
    { platform := { objects := .ofList [("Sprite", { includeFile := some "sprite.js" })] }
      project := { objects := [⟨"A", "Sprite", []⟩, ⟨"B", "Sprite", []⟩, ⟨"C", "Sprite", []⟩] }
      layout := {} }
  target := target (.ofList [("G", ["A", "B", "C", "B", "A", "C"])])
  hooks := .empty

/-- The call `G.X(7)` of a function that comes with a file of its own. -/
def callOnRepeats : Call where
  form := .object
  returns := .number
  function := "X"
  arguments := [.ofText "G", .ofText "7"]
  callable :=
    { parameters := [{ kind := .object }, { kind := .number }], includeFile := some "x.js",
      callName := "getX" }

/-- The call on one of the objects. -/
def accessOfRepeats (object : String) : Access :=
  ⟨object, none, some { includeFile := some "sprite.js" }, "getX", "7.0"⟩

/-- Of the six calls three are left: the last one on `B`, which is current, and those behind it. The
file of the type is asked for six times. -/
theorem callCode_folds_repeats :
    let generator := generatorOfRepeats
    let state : State := { context := { current := some "B" } }
    let made := (generator.callCode callOnRepeats).run (generator.handler generator.lower) state
    generator.target.Composes currentCall otherCall ∧
      callOnRepeats.form.Takes [.ofText "G"] ∧
      callOnRepeats.arguments = [.ofText "G"] ++ [.ofText "7"] ∧
      generator.hookOf callOnRepeats.callable = none ∧
      made.1 = Access.composed otherCall [accessOfRepeats "A", accessOfRepeats "C"]
        (currentCall (accessOfRepeats "B")) ∧
      made.1 = "pick(+C.getX:7.0|pick(+A.getX:7.0|fast(+B.getX:7.0)))" ∧
      made.2.context.needed = ["A", "B", "C"] ∧
      made.2.includes = "x.js" :: List.replicate 6 "sprite.js" := by
  intro generator state made
  have hcomposes : generator.target.Composes currentCall otherCall := composes_target _
  have hgiven : callOnRepeats.form.Takes [.ofText "G"] := ⟨_, rfl⟩
  have hhook : generator.hookOf callOnRepeats.callable = none := rfl
  let begun : State := { state with includes := ["x.js"] }
  let prepared := (generator.parametersCode [.ofText "7"] [{ kind := .number }]).run
    (generator.handler generator.lower) begun
  have hcodes : prepared.1 = "7.0" := by decide +kernel
  have hcurrent : prepared.2.context.current = some "B" := by decide +kernel
  have hneeded : prepared.2.context.needed = [] := by decide +kernel
  have hrecorded : prepared.2.includes = ["x.js"] := by decide +kernel
  have haccesses : generator.accesses prepared.2.context.view callOnRepeats none prepared.1
      = ["A", "B", "C"].map accessOfRepeats
        ++ accessOfRepeats "B" :: ["A", "C"].map accessOfRepeats := by
    rw [hcodes]
    rfl
  have hothers : ∀ other ∈ ["A", "C"].map accessOfRepeats,
      prepared.2.context.current ≠ some other.object := by
    rw [hcurrent]
    decide
  obtain ⟨-, hfolds, hcontext, hincludes, -⟩ := Generator.callCode_folds hcomposes
    generator.lower generator.log state hgiven rfl hhook
  have hcode := hfolds.last _ _ _ haccesses hcurrent hothers
  refine ⟨hcomposes, hgiven, rfl, hhook, hcode, ?_, ?_, ?_⟩
  · refine hcode.trans ?_
    decide +kernel
  · refine (congrArg Context.needed hcontext).trans ?_
    show prepared.2.context.needed ++ (List.removeAll _ prepared.2.context.needed).eraseDups = _
    rw [hneeded]
    decide +kernel
  · refine hincludes.trans ?_
    show generator.included (Access.files (generator.accesses prepared.2.context.view callOnRepeats
      none prepared.1)) prepared.2.includes = _
    rw [haccesses, hrecorded]
    decide +kernel

end Symbolic
end EventFormula
