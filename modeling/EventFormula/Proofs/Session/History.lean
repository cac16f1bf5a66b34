import EventFormula.Proofs.Lowering.Reuse
import EventFormula.Proofs.Script.Blind
import EventFormula.Session

/-!
# Sessions forget

Between the steps of a session no lowering is going on and no fragment is remembered. So of what
earlier steps have done a lowering only finds the current object, the lists that have been needed
and the files included; and as the scripts that there are see neither lists nor files, its result is
that of a fresh generator in a fresh context. The main statement is `lower_independent`.
-/

namespace EventFormula

namespace State

/-- The states differ at most in the lists that have been needed and in the files to include. -/
structure Alike (first second : State) : Prop where
  current : first.context.current = second.context.current
  depth : first.context.depth = second.context.depth
  maxDepth : first.context.maxDepth = second.context.maxDepth
  lowered : first.context.lowered = second.context.lowered

namespace Alike

variable {first second : State}

theorem need (h : first.Alike second) (object : String) :
    Alike { first with context := first.context.need object }
      { second with context := second.context.need object } := by
  simp only [Context.need_eq]
  exact ⟨h.current, h.depth, h.maxDepth, h.lowered⟩

theorem enter (h : first.Alike second) : first.enter.Alike second.enter :=
  ⟨h.current, congrArg (· + 1) h.depth, h.maxDepth, h.lowered⟩

theorem leave (h : first.Alike second) : first.leave.Alike second.leave :=
  ⟨h.current, congrArg (· - 1) h.depth, h.maxDepth, h.lowered⟩

theorem settle (h : first.Alike second) (kind : Expression.Kind) (e : Expression)
    (result : Except Failure String) :
    (first.settle kind e result).Alike (second.settle kind e result) := by
  by_cases hdepth : first.context.depth = 0
  · rw [Generator.settle_of_depth hdepth, Generator.settle_of_depth (h.depth ▸ hdepth)]
    exact ⟨h.current, h.depth, h.maxDepth, rfl⟩
  · have hother : second.context.depth ≠ 0 := h.depth ▸ hdepth
    simp only [State.settle, Context.settle, hdepth, hother, if_false]
    cases result with
    | ok code => exact ⟨h.current, h.depth, h.maxDepth, congrArg (List.cons _) h.lowered⟩
    | error failure => exact h

theorem remembered? (h : first.Alike second) (kind : Expression.Kind) (e : Expression) :
    first.context.remembered? kind e = second.context.remembered? kind e := by
  rw [Context.remembered?, Context.remembered?, h.lowered]

end Alike
end State

namespace Context

/-- No object has an empty name. -/
def Named (context : Context) : Prop := context.current ≠ some ""

theorem named_setCurrent (context : Context) (object : Option String) :
    (context.setCurrent object).Named := by
  intro h
  have hne := (Option.filter_eq_some_iff.1 h).2
  exact absurd hne (by decide)

end Context

namespace State

/-- What no request changes: the name of the current object is not empty, and the limit. -/
structure Fixed (limit : Nat) (state : State) : Prop where
  named : state.context.Named
  limited : state.context.maxDepth = limit

theorem Fixed.settle {limit : Nat} {state : State} (h : state.Fixed limit) (kind : Expression.Kind)
    (e : Expression) (result : Except Failure String) :
    (state.settle kind e result).Fixed limit := by
  unfold State.settle Context.settle
  split
  · exact ⟨h.named, h.limited⟩
  · cases result <;> exact ⟨h.named, h.limited⟩

/-- How a session is between its steps. -/
def Rests (limit : Nat) (state : State) : Prop := state.context.Idle ∧ state.Fixed limit

end State

namespace Generator

variable {generator : Generator}

theorem respects_handler
    {lower : Expression.Kind → Expression → StateM State (Except Failure String)}
    (hlower : ∀ kind e {first second : State}, first.Alike second →
      (lower kind e first).1 = (lower kind e second).1 ∧
        (lower kind e first).2.Alike (lower kind e second).2) :
    (generator.handler lower).Respects State.Alike where
  lower := hlower
  require h := ⟨h.current, h.depth, h.maxDepth, h.lowered⟩
  need h := h.need _
  setCurrent h := ⟨rfl, h.depth, h.maxDepth, h.lowered⟩
  view h := ⟨⟨h.current, h.depth, h.maxDepth⟩, h⟩

/-- With blind scripts, lists and files are of no account for a lowering. -/
theorem alike_lowerWithin (hg : generator.Provides Script.Blind) (levels : Nat)
    (kind : Expression.Kind) (e : Expression) {first second : State} (h : first.Alike second) :
    (generator.lowerWithin Context.remembered? levels kind e first).1
        = (generator.lowerWithin Context.remembered? levels kind e second).1 ∧
      (generator.lowerWithin Context.remembered? levels kind e first).2.Alike
        (generator.lowerWithin Context.remembered? levels kind e second).2 := by
  induction levels generalizing kind e first second with
  | zero =>
    cases hcode : first.context.remembered? kind e with
    | some code =>
      rw [lowerWithin_of_recall generator hcode,
        lowerWithin_of_recall generator (h.remembered? kind e ▸ hcode)]
      exact ⟨rfl, h⟩
    | none =>
      rw [lowerWithin_zero generator hcode,
        lowerWithin_zero generator (h.remembered? kind e ▸ hcode), h.maxDepth]
      exact ⟨rfl, h.settle kind e _⟩
  | succ levels ih =>
    cases hcode : first.context.remembered? kind e with
    | some code =>
      rw [lowerWithin_of_recall generator hcode,
        lowerWithin_of_recall generator (h.remembered? kind e ▸ hcode)]
      exact ⟨rfl, h⟩
    | none =>
      have hscript := hg.script Script.compositional_blind kind e
      obtain ⟨hvalue, hstate⟩ := (respects_handler ih).run hscript h.enter
      change (generator.ended Context.remembered? levels kind e first).1
        = (generator.ended Context.remembered? levels kind e second).1 at hvalue
      rw [lowerWithin_succ generator hcode,
        lowerWithin_succ generator (h.remembered? kind e ▸ hcode), ← hvalue]
      exact ⟨rfl, hstate.leave.settle kind e _⟩

theorem alike_lower (hg : generator.Provides Script.Blind) (kind : Expression.Kind)
    (e : Expression) {first second : State} (h : first.Alike second) :
    (generator.lower kind e first).1 = (generator.lower kind e second).1 := by
  have hlevels : first.context.levels = second.context.levels := by
    rw [Context.levels, Context.levels, h.maxDepth, h.depth]
  show (generator.lowerWithin Context.remembered? first.context.levels kind e first).1
    = (generator.lowerWithin Context.remembered? second.context.levels kind e second).1
  rw [hlevels]
  exact (alike_lowerWithin hg _ kind e h).1

theorem fixed_handler {limit : Nat}
    {lower : Expression.Kind → Expression → StateM State (Except Failure String)}
    (hlower : ∀ kind e {state : State}, state.Fixed limit → (lower kind e state).2.Fixed limit) :
    (generator.handler lower).Preserves (State.Fixed limit) where
  lower h := hlower _ _ h
  require h := ⟨h.named, h.limited⟩
  need {object state} h := by
    show State.Fixed limit { state with context := state.context.need object }
    rw [Context.need_eq]
    exact ⟨h.named, h.limited⟩
  setCurrent h := ⟨Context.named_setCurrent _ _, h.limited⟩
  view h := h

theorem fixed_lowerWithin {limit : Nat} (levels : Nat) (kind : Expression.Kind) (e : Expression)
    {state : State} (h : state.Fixed limit) :
    (generator.lowerWithin Context.remembered? levels kind e state).2.Fixed limit := by
  induction levels generalizing kind e state with
  | zero =>
    cases hcode : state.context.remembered? kind e with
    | some code => rwa [lowerWithin_of_recall generator hcode]
    | none =>
      rw [lowerWithin_zero generator hcode]
      exact h.settle kind e _
  | succ levels ih =>
    cases hcode : state.context.remembered? kind e with
    | some code => rwa [lowerWithin_of_recall generator hcode]
    | none =>
      have henter : state.enter.Fixed limit := ⟨h.named, h.limited⟩
      have hended : (generator.ended Context.remembered? levels kind e state).2.Fixed limit :=
        (fixed_handler ih).run (generator.script kind e) henter
      have hleave : (generator.ended Context.remembered? levels kind e state).2.leave.Fixed limit :=
        ⟨hended.named, hended.limited⟩
      rw [lowerWithin_succ generator hcode]
      exact hleave.settle kind e _

theorem rests_lower {limit : Nat} (kind : Expression.Kind) (e : Expression) {state : State}
    (h : state.Rests limit) : (generator.lower kind e state).2.Rests limit :=
  ⟨idle_lower h.1, fixed_lowerWithin _ kind e h.2⟩

theorem rests_perform {limit : Nat} {α : Type} (script : Script α) {state : State}
    (h : state.Rests limit) : (generator.perform script state).2.Rests limit :=
  ⟨idle_perform script h.1,
    (fixed_handler fun kind e _ h => fixed_lowerWithin _ kind e h).run script h.2⟩

/-- In a state at rest a lowering ends as in a fresh context. -/
theorem lower_of_rests (hg : generator.Provides Script.Blind) {limit : Nat}
    (kind : Expression.Kind) (e : Expression) {state : State} (h : state.Rests limit) :
    (generator.lower kind e state).1
      = (generator.lower kind e { context := .fresh state.context.current (some limit) }).1 := by
  refine alike_lower hg kind e ⟨?_, h.1.1, h.2.limited, h.1.2⟩
  cases hcurrent : state.context.current with
  | none => rfl
  | some object =>
    have hne : object ≠ "" := fun hempty => h.2.named (hempty ▸ hcurrent)
    show some object = Option.filter (fun name => name != "") (some object)
    rw [Option.filter_some, if_pos (bne_iff_ne.2 hne)]

end Generator

namespace Session

/-- A hook that there is. -/
abbrev KnownHook := { hook : Hook // ∃ name, Hook.catalogue.get? name = some hook }

/-- What a session begins with. -/
structure Setup where
  scope : Scope
  /-- What names stand for in the symbolic target; without it the target is JavaScript. -/
  symbolic : Option Symbolic.Expansions
  hooks : Table Hook
  known : ∀ {name hook}, hooks.get? name = some hook →
    ∃ known, Hook.catalogue.get? known = some hook
  current : Option String
  maxDepth : Option Nat

namespace Setup

variable (setup : Setup)

def target : Target :=
  match setup.symbolic with
  | some expansions => Symbolic.target expansions
  | none => JavaScript.target setup.scope

def limit : Nat := setup.maxDepth.getD Context.defaultMaxDepth

/-- The session before its first step. -/
def start : Session where
  generator := ⟨setup.scope, setup.target, setup.hooks⟩
  state := { context := .fresh setup.current setup.maxDepth }

end Setup

/-- One thing that a session is used for. -/
inductive Step where
  | lower (kind : Expression.Kind) (e : Expression)
  | visit (moves : List Move) (read : Except Failure Unit)
  | setCurrent (object : Option String)
  | need (object : String)
  | require (path : String)
  | register (name : String) (hook : KnownHook)
  | expand (name : String)
  | parameters (arguments : List Expression) (parameters : List Parameter)
  | access (access : Access) (otherwise : Option String)

/-- The session after a step. -/
def after (session : Session) : Step → Session
  | .lower kind e => (lower kind e session).2
  | .visit moves read => (visit moves read session).2
  | .setCurrent object => (setCurrent object session).2
  | .need object => (need object session).2
  | .require path => (require path session).2
  | .register name hook => (register name hook.val session).2
  | .expand name => (expand name session).2
  | .parameters arguments list => (parameters arguments list session).2
  | .access target otherwise => (access target otherwise session).2

/-- The scope and the target of a session stay, its hooks are known, and it is at rest. -/
structure Orderly (setup : Setup) (session : Session) : Prop where
  scope : session.generator.scope = setup.scope
  target : session.generator.target = setup.target
  known : ∀ {name hook}, session.generator.hooks.get? name = some hook →
    ∃ known, Hook.catalogue.get? known = some hook
  rests : session.state.Rests setup.limit

variable {setup : Setup} {session : Session}

theorem orderly_start (setup : Setup) : Orderly setup setup.start where
  scope := rfl
  target := rfl
  known := setup.known
  rests := ⟨Context.idle_fresh .., Context.named_setCurrent {} setup.current, rfl⟩

/-- An action that leaves the generator alone leaves the session orderly if it comes to rest. -/
theorem Orderly.act (h : Orderly setup session) {state : State}
    (hrests : state.Rests setup.limit) : Orderly setup { session with state := state } :=
  ⟨h.scope, h.target, h.known, hrests⟩

theorem Orderly.register (h : Orderly setup session) (name : String) (hook : KnownHook) :
    Orderly setup (Session.register name hook.val session).2 where
  scope := h.scope
  target := h.target
  known {other found} hfound := by
    by_cases hname : other = name
    · subst hname
      have hself := Table.get?_insert_self session.generator.hooks other hook.val
      have heq : some found = some hook.val := hfound.symm.trans hself
      cases heq
      exact hook.property
    · exact h.known ((Table.get?_insert_of_ne session.generator.hooks hook.val hname).symm.trans
        hfound)
  rests := h.rests

theorem Orderly.after (h : Orderly setup session) (step : Step) :
    Orderly setup (session.after step) := by
  cases step with
  | lower kind e => exact h.act (Generator.rests_lower kind e h.rests)
  | visit moves read => exact h.act (Generator.rests_perform _ h.rests)
  | setCurrent object =>
    have hnamed := Context.named_setCurrent session.state.context object
    exact h.act ⟨h.rests.1, hnamed, h.rests.2.limited⟩
  | need object =>
    have hrests : State.Rests setup.limit
        { session.state with context := session.state.context.need object } := by
      rw [Context.need_eq]
      exact ⟨h.rests.1, h.rests.2.named, h.rests.2.limited⟩
    exact h.act hrests
  | require path => exact h.act (Generator.rests_perform (.require path) h.rests)
  | register name hook => exact h.register name hook
  | expand name => exact h
  | parameters arguments list => exact h.act (Generator.rests_perform _ h.rests)
  | access target otherwise => exact h.act (Generator.rests_perform _ h.rests)

theorem Orderly.afterAll (h : Orderly setup session) (steps : List Step) :
    Orderly setup (steps.foldl Session.after session) := by
  induction steps generalizing session with
  | nil => exact h
  | cons step steps ih => exact ih (h.after step)

/-- The scripts of an orderly session are blind. -/
theorem Orderly.provides (h : Orderly setup session) :
    (Generator.mk setup.scope setup.target session.generator.hooks).Provides Script.Blind := by
  have hhooks {name : String} {hook : Hook} (hhook : session.generator.hooks.get? name = some hook)
      (arguments : List Expression) : (hook arguments).Blind := by
    obtain ⟨known, hknown⟩ := h.known hhook
    exact Hook.blind_catalogue hknown arguments
  unfold Setup.target
  split
  · exact Symbolic.provides_target Script.compositional_blind setup.scope _ hhooks
  · exact JavaScript.provides_target Script.compositional_blind setup.scope hhooks

/-- After any steps, one step more leaves the nesting as it was and no fragment behind; and a
lowering has the result that a fresh generator with the hooks known by then yields in a fresh
context with the same current object and the same limit. -/
theorem lower_independent (setup : Setup) (before : List Step) :
    let session := before.foldl Session.after setup.start
    (∀ step : Step,
      (session.after step).state.context.depth = session.state.context.depth ∧
        (session.after step).state.context.lowered = []) ∧
    ∀ (kind : Expression.Kind) (e : Expression),
      (Session.lower kind e session).1
        = ((Generator.mk setup.scope setup.target session.generator.hooks).lower kind e
          { context := .fresh session.state.context.current setup.maxDepth }).1 := by
  intro session
  have horderly : Orderly setup session := (orderly_start setup).afterAll before
  constructor
  · intro step
    have hafter := (horderly.after step).rests
    exact ⟨hafter.1.1.trans horderly.rests.1.1.symm, hafter.1.2⟩
  · intro kind e
    have hgenerator : session.generator
        = Generator.mk setup.scope setup.target session.generator.hooks := by
      rw [← horderly.scope, ← horderly.target]
    show (session.generator.lower kind e session.state).1 = _
    rw [hgenerator]
    exact Generator.lower_of_rests horderly.provides kind e horderly.rests

end Session
end EventFormula
