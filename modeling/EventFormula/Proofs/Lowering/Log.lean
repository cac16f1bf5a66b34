import EventFormula.Proofs.Lowering.Course

/-!
# The log of a lowering

What a lowering does can be counted: expressions are read, and files are asked for. The log has both
in the order in which they happen; an expression whose fragment is remembered is not read, and one
that is refused is not read either. Nothing but the log decides on the files that are included in
the end, which is the main statement, `includes_lowerWithin`.
-/

namespace EventFormula

/-- What happens in the course of a lowering. -/
inductive LogEntry where
  /-- The parser goes through an expression. -/
  | read (kind : Expression.Kind) (e : Expression)
  /-- A file is to be included. -/
  | require (path : String)
deriving DecidableEq

namespace LogEntry

def formula? : LogEntry → Option (Expression.Kind × Expression)
  | read kind e => some (kind, e)
  | require _ => none

def path? : LogEntry → Option String
  | read .. => none
  | require path => some path

end LogEntry

namespace Script

variable {σ α β : Type}

/-- What happens when the script is carried out from a state. `inner` says the same of the lowerings
that it asks for. -/
def log (handler : Handler (StateM σ)) (inner : Expression.Kind → Expression → σ → List LogEntry) :
    Script α → σ → List LogEntry
  | done _, _ => []
  | lowering kind e next, s =>
    inner kind e s ++ (next (handler.lower kind e s).1).log handler inner (handler.lower kind e s).2
  | including path next, s => .require path :: next.log handler inner (handler.require path s).2
  | needing object next, s => next.log handler inner (handler.need object s).2
  | picking object next, s => next.log handler inner (handler.setCurrent object s).2
  | viewing next, s => (next (handler.view s).1).log handler inner (handler.view s).2

theorem log_then (handler : Handler (StateM σ))
    (inner : Expression.Kind → Expression → σ → List LogEntry) (script : Script α)
    (f : α → Script β) (s : σ) :
    (script >>= f).log handler inner s = script.log handler inner s
      ++ (f (script.run handler s).1).log handler inner (script.run handler s).2 := by
  show (script.bind f).log handler inner s = _
  induction script generalizing s with
  | done value => rfl
  | lowering kind e next ih =>
    rw [bind, log, log, ih, List.append_assoc]
    rfl
  | including path next ih =>
    rw [bind, log, log, ih, List.cons_append]
    rfl
  | needing object next ih =>
    rw [bind, log, log, ih]
    rfl
  | picking object next ih =>
    rw [bind, log, log, ih]
    rfl
  | viewing next ih =>
    rw [bind, log, log, ih]
    rfl

end Script

namespace Generator

variable (generator : Generator)

/-- What happens when an expression is lowered with so many levels left. -/
def logWithin : Nat → Expression.Kind → Expression → State → List LogEntry
  | 0, _, _, _ => []
  | levels + 1, kind, e, state =>
    match state.context.remembered? kind e with
    | some _ => []
    | none =>
      .read kind e :: (generator.script kind e).log
        (generator.handler (generator.lowerWithin Context.remembered? levels)) (logWithin levels)
        state.enter

/-- What happens when an expression is lowered as far as the context allows. -/
def log (kind : Expression.Kind) (e : Expression) (state : State) : List LogEntry :=
  generator.logWithin state.context.levels kind e state

section Equations
variable {kind : Expression.Kind} {e : Expression} {state : State}

theorem logWithin_of_recall {levels : Nat} {code : String}
    (h : state.context.remembered? kind e = some code) :
    generator.logWithin levels kind e state = [] := by
  cases levels with
  | zero => rfl
  | succ levels => simp only [logWithin, h]

theorem logWithin_succ {levels : Nat} (h : state.context.remembered? kind e = none) :
    generator.logWithin (levels + 1) kind e state
      = .read kind e :: (generator.script kind e).log
          (generator.handler (generator.lowerWithin Context.remembered? levels))
          (generator.logWithin levels) state.enter := by
  simp only [logWithin, h]

end Equations

/-- The files to include, once those have been recorded that a log asks for. -/
def recordAll (log : List LogEntry) (files : List String) : List String :=
  (log.filterMap LogEntry.path?).foldl (fun files path => generator.target.record path files) files

theorem recordAll_append (first second : List LogEntry) (files : List String) :
    generator.recordAll (first ++ second) files
      = generator.recordAll second (generator.recordAll first files) := by
  rw [recordAll, recordAll, recordAll, List.filterMap_append, List.foldl_append]

theorem includes_run
    {lower : Expression.Kind → Expression → StateM State (Except Failure String)}
    {inner : Expression.Kind → Expression → State → List LogEntry}
    (hlower : ∀ kind e state,
      (lower kind e state).2.includes = generator.recordAll (inner kind e state) state.includes)
    {α : Type} (script : Script α) (state : State) :
    (script.run (generator.handler lower) state).2.includes
      = generator.recordAll (script.log (generator.handler lower) inner state) state.includes := by
  induction script generalizing state with
  | done value => rfl
  | lowering kind e next ih =>
    rw [Script.run_lowering, ih, Script.log, recordAll_append]
    exact congrArg _ (hlower kind e state)
  | including path next ih => exact ih _
  | needing object next ih => exact ih _
  | picking object next ih => exact ih _
  | viewing next ih => exact ih _ _

/-- The files that a lowering leaves are those that its log asks for, recorded in that order. -/
theorem includes_lowerWithin (levels : Nat) (kind : Expression.Kind) (e : Expression)
    (state : State) :
    (generator.lowerWithin Context.remembered? levels kind e state).2.includes
      = generator.recordAll (generator.logWithin levels kind e state) state.includes := by
  have recalled {levels : Nat} {kind : Expression.Kind} {e : Expression} {state : State}
      {code : String} (hcode : state.context.remembered? kind e = some code) :
      (generator.lowerWithin Context.remembered? levels kind e state).2.includes
        = generator.recordAll (generator.logWithin levels kind e state) state.includes := by
    rw [lowerWithin_of_recall generator hcode, logWithin_of_recall generator hcode]
    rfl
  induction levels generalizing kind e state with
  | zero =>
    cases hcode : state.context.remembered? kind e with
    | some code => exact recalled hcode
    | none =>
      rw [lowerWithin_zero generator hcode]
      rfl
  | succ levels ih =>
    cases hcode : state.context.remembered? kind e with
    | some code => exact recalled hcode
    | none =>
      rw [lowerWithin_succ generator hcode, logWithin_succ generator hcode]
      exact generator.includes_run ih (generator.script kind e) state.enter

end Generator
end EventFormula
