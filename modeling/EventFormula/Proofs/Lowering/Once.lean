import EventFormula.Proofs.Target.Files
import EventFormula.Proofs.Trace.Places

/-!
# Each argument is lowered once

An argument is asked for twice, when it is announced and for the code of its call, and so are those
inside it. But when its call is made its fragment is still remembered, and no other has taken its
place: arguments stand one behind the other, so while offsets can be stated (`Trace.InRange`) each
of them starts at one of its own. The main statement, `lower_once`, says what a lowering does
altogether.
-/

namespace EventFormula

namespace Trace

/-- Each call comes behind the announcements of its formulas, these or earlier ones, so it is the
designer who has written them. -/
def Supplied (announced : List (Expression.Kind × Expression)) : List Event → Prop
  | [] => True
  | .argument kind e :: events => Supplied (announced ++ [(kind, e)]) events
  | .call call :: events => call.inputs ⊆ announced ∧ Supplied announced events
  | .constant _ :: events | .operator _ :: events | .number _ :: events =>
    Supplied announced events

instance decidableSupplied (announced : List (Expression.Kind × Expression)) :
    (events : List Event) → Decidable (Supplied announced events)
  | [] => .isTrue trivial
  | .argument kind e :: events => decidableSupplied (announced ++ [(kind, e)]) events
  | .call call :: events =>
    letI := decidableSupplied announced events
    inferInstanceAs (Decidable ((∀ formula ∈ call.inputs, formula ∈ announced) ∧ _))
  | .constant _ :: events | .operator _ :: events | .number _ :: events =>
    decidableSupplied announced events

/-- In the formula and in each of its arguments, at any depth, the formulas that calls take are
written. -/
def AllSupplied (scope : Scope) (kind : Expression.Kind) (e : Expression) : Prop :=
  ∀ formula ∈ (kind, e) :: arguments scope kind e,
    Supplied [] (ofExpression scope formula.1 formula.2).events

instance (scope : Scope) (kind : Expression.Kind) (e : Expression) :
    Decidable (AllSupplied scope kind e) :=
  inferInstanceAs (Decidable (∀ formula ∈ _, _))

end Trace

/-- What the event stands for in a log in which nothing is done twice. -/
def Generator.entries (generator : Generator) (current : Option String) : Event → List LogEntry
  | .argument kind e => [.read kind e]
  | .call call => (generator.filesOf current call).map .require
  | .constant _ | .operator _ | .number _ => []

section Reaching
variable {known : List (Expression.Kind × Expression)} {current : Option String}
  {start state next : State} {first position : Nat}

/-- How far a lowering has come that began at `start` with a formula at `first`: up to a position,
and whatever has a fragment by now starts before that. -/
structure State.Reached (start : State) (first position : Nat)
    (known : List (Expression.Kind × Expression)) (current : Option String) (state : State) :
    Prop where
  ready : state.Ready current known
  depth : state.context.depth ≠ 0
  le : first ≤ position
  before : ∀ entry ∈ start.context.lowered, entry.span.start < first
  placed : ∀ formula ∈ known, formula.2.base < position
  added : ∃ new, state.context.lowered = new ++ start.context.lowered ∧
    ∀ entry ∈ new, first ≤ entry.span.start ∧ entry.span.start < position

theorem State.Reached.steady (h : State.Reached start first position known current state)
    (hsteady : state.Steady next) : State.Reached start first position known current next := by
  obtain ⟨new, hlowered, hnew⟩ := h.added
  exact ⟨h.ready.steady hsteady, hsteady.depth ▸ h.depth, h.le, h.before, h.placed,
    new, hsteady.lowered.trans hlowered, hnew⟩

theorem State.Reached.of_le {later : Nat}
    (h : State.Reached start first position known current state) (hle : position ≤ later) :
    State.Reached start first later known current state := by
  obtain ⟨new, hlowered, hnew⟩ := h.added
  refine ⟨h.ready, h.depth, Nat.le_trans h.le hle, h.before, ?_, new, hlowered, ?_⟩
  · intro formula hmem
    exact Nat.lt_of_lt_of_le (h.placed formula hmem) hle
  · intro entry hmem
    exact ⟨(hnew entry hmem).1, Nat.lt_of_lt_of_le (hnew entry hmem).2 hle⟩

/-- All fragments start before the position. -/
theorem State.Reached.start_lt (h : State.Reached start first position known current state) :
    ∀ entry ∈ state.context.lowered, entry.span.start < position := by
  obtain ⟨new, hlowered, hnew⟩ := h.added
  intro entry hmem
  rw [hlowered] at hmem
  rcases List.mem_append.1 hmem with hmem | hmem
  · exact (hnew entry hmem).2
  · exact Nat.lt_of_lt_of_le (h.before entry hmem) h.le

/-- Fragments of what starts elsewhere are not taken for those of an expression. -/
theorem Context.find?_of_start_ne {entries : List Lowered} {kind : Expression.Kind}
    {e : Expression} (h : ∀ entry ∈ entries, entry.span.start ≠ e.base) :
    entries.find? (fun entry => entry.kind == kind && entry.span == e.span) = none := by
  refine List.find?_eq_none.2 fun entry hmem hkey => h entry hmem ?_
  have hspan : entry.span = e.span := beq_iff_eq.1 (Bool.and_eq_true_iff.1 hkey).2
  rw [hspan, Expression.start_span]

theorem Context.remembered?_of_start_ne {context : Context} {kind : Expression.Kind}
    {e : Expression} (h : ∀ entry ∈ context.lowered, entry.span.start ≠ e.base) :
    context.remembered? kind e = none := by
  rw [remembered?, find?_of_start_ne h]

theorem Context.remembered?_of_append {first second : Context} {added : List Lowered}
    {kind : Expression.Kind} {e : Expression} (hlowered : second.lowered = added ++ first.lowered)
    (h : ∀ entry ∈ added, entry.span.start ≠ e.base) :
    second.remembered? kind e = first.remembered? kind e := by
  rw [remembered?, remembered?, hlowered, List.find?_append, find?_of_start_ne h, Option.none_or]

/-- An argument behind the position has been lowered. -/
theorem State.Reached.argument {kind : Expression.Kind} {e : Expression} {code : String}
    {new : List Lowered} (h : State.Reached start first position known current state)
    (hposition : position ≤ e.base) (hless : e.base < e.stop)
    (hcurrent : next.context.current = current)
    (hdepth : next.context.depth = state.context.depth)
    (hlowered : next.context.lowered
      = ⟨kind, e.span, e.text, code⟩ :: new ++ state.context.lowered)
    (hnew : ∀ entry ∈ new, e.base ≤ entry.span.start ∧ entry.span.start < e.stop) :
    State.Reached start first e.stop (known ++ [(kind, e)]) current next := by
  have hadded : ∀ entry ∈ (⟨kind, e.span, e.text, code⟩ : Lowered) :: new,
      e.base ≤ entry.span.start ∧ entry.span.start < e.stop := by
    refine List.forall_mem_cons.2 ⟨?_, hnew⟩
    rw [Expression.start_span]
    exact ⟨Nat.le_refl _, hless⟩
  have hbefore : position ≤ e.stop := by omega
  refine ⟨⟨hcurrent, ?_⟩, hdepth ▸ h.depth, Nat.le_trans h.le hbefore, h.before, ?_, ?_⟩
  · intro formula hmem
    rcases List.mem_append.1 hmem with hmem | hmem
    · obtain ⟨found, hfound⟩ := h.ready.known formula hmem
      have hplace := h.placed formula hmem
      refine ⟨found, (Context.remembered?_of_append hlowered fun entry hentry => ?_).trans hfound⟩
      have hstart := (hadded entry hentry).1
      omega
    · obtain rfl := List.mem_singleton.1 hmem
      refine ⟨code, ?_⟩
      simp [Context.remembered?, hlowered]
  · intro formula hmem
    rcases List.mem_append.1 hmem with hmem | hmem
    · exact Nat.lt_of_lt_of_le (h.placed formula hmem) hbefore
    · obtain rfl := List.mem_singleton.1 hmem
      exact hless
  · obtain ⟨earlier, hearlier, hplaced⟩ := h.added
    refine ⟨⟨kind, e.span, e.text, code⟩ :: new ++ earlier, ?_, fun entry hmem => ?_⟩
    · rw [hlowered, hearlier, List.append_assoc]
    · have hle := h.le
      rcases List.mem_append.1 hmem with hmem | hmem
      · have hplace := hadded entry hmem
        omega
      · have hplace := hplaced entry hmem
        omega

end Reaching

namespace Fragment

variable {generator : Generator} {handler : Script.Handler (StateM State)}
  {inner : Expression.Kind → Expression → State → List LogEntry} {state : State}
  {fragment : Fragment} {event : Event} {events : List Event}

/-- If all events are accepted, the first one is. -/
theorem visit_ok_of_shown
    (h : ((shown generator (event :: events) fragment).run handler state).1.1 = .ok ()) :
    ((fragment.visit generator event).run handler state).1.1 = .ok () := by
  rw [shown_cons, Script.run_then] at h
  cases hvisit : ((fragment.visit generator event).run handler state).1.1 with
  | ok value => rfl
  | error failure =>
    rw [hvisit] at h
    cases h

variable (inner) in
/-- An event that is accepted leaves the others to be shown. -/
theorem shown_cons_ok (h : ((fragment.visit generator event).run handler state).1.1 = .ok ()) :
    (shown generator (event :: events) fragment).run handler state
        = (shown generator events ((fragment.visit generator event).run handler state).1.2).run
            handler ((fragment.visit generator event).run handler state).2 ∧
      (shown generator (event :: events) fragment).log handler inner state
        = (fragment.visit generator event).log handler inner state
          ++ (shown generator events ((fragment.visit generator event).run handler state).1.2).log
              handler inner ((fragment.visit generator event).run handler state).2 := by
  rw [shown_cons, Script.run_then, Script.log_then, h]
  exact ⟨rfl, rfl⟩

/-- An argument is accepted if there is code for it. -/
theorem lower_ok_of_visit {kind : Expression.Kind} {e : Expression}
    (h : ((fragment.visit generator (.argument kind e)).run handler state).1.1 = .ok ()) :
    ∃ code, (handler.lower kind e state).1 = .ok code := by
  have hrun : (Script.lower kind e).run handler state = handler.lower kind e state := rfl
  rw [visit_argument, Script.run_then, hrun] at h
  cases hlower : (handler.lower kind e state).1 with
  | ok code => exact ⟨code, rfl⟩
  | error failure =>
    rw [hlower] at h
    cases h

variable (generator handler inner state fragment) in
theorem visit_argument_eq (kind : Expression.Kind) (e : Expression) :
    ((fragment.visit generator (.argument kind e)).run handler state).2
        = (handler.lower kind e state).2 ∧
      (fragment.visit generator (.argument kind e)).log handler inner state
        = inner kind e state := by
  have hrun : (Script.lower kind e).run handler state = handler.lower kind e state := rfl
  have hlog : (Script.lower kind e).log handler inner state = inner kind e state :=
    List.append_nil _
  rw [visit_argument, Script.run_then, Script.log_then, hrun, hlog]
  cases (handler.lower kind e state).1 <;> exact ⟨rfl, List.append_nil _⟩

variable (generator handler inner state fragment) in
theorem visit_call_eq (call : Call) :
    ((fragment.visit generator (.call call)).run handler state).2
        = ((generator.callCode call).run handler state).2 ∧
      (fragment.visit generator (.call call)).log handler inner state
        = (generator.callCode call).log handler inner state := by
  rw [visit, Script.run_then, Script.log_then]
  exact ⟨rfl, List.append_nil _⟩

end Fragment

namespace Generator

variable (generator : Generator) (current : Option String)

/-- What an event and the events inside it stand for. -/
def allEntries (event : Event) : List LogEntry :=
  (Trace.unfoldedEvent generator.scope event).flatMap (generator.entries current)

/-- A lowering that ends well where nothing from the expression on has a fragment yet reads it and
does once what is inside it. All fragments that are left belong inside it. -/
def LowersOnce (lower : Expression.Kind → Expression → StateM State (Except Failure String))
    (inner : Expression.Kind → Expression → State → List LogEntry) (kind : Expression.Kind)
    (e : Expression) : Prop :=
  ∀ state code, state.context.current = current →
    (∀ entry ∈ state.context.lowered, entry.span.start < e.base) →
    (lower kind e state).1 = .ok code →
    inner kind e state
        = .read kind e
          :: (Trace.unfolded generator.scope kind e).flatMap (generator.entries current) ∧
      (lower kind e state).2.context.current = current ∧
      (state.context.depth ≠ 0 → ∃ new,
        (lower kind e state).2.context.lowered
            = ⟨kind, e.span, e.text, code⟩ :: new ++ state.context.lowered ∧
          ∀ entry ∈ new, e.base ≤ entry.span.start ∧ entry.span.start < e.stop)

/-- What is shown of an event for what it stands for to be done once. -/
def DoesOnce (lower : Expression.Kind → Expression → StateM State (Except Failure String))
    (inner : Expression.Kind → Expression → State → List LogEntry) : Event → Prop
  | .argument kind e => generator.LowersOnce current lower inner kind e
  | .call call => call.Headed ∧ generator.hookOf call.callable = none
  | .constant _ | .operator _ | .number _ => True

variable {generator current}

section Steps
variable {lower : Expression.Kind → Expression → StateM State (Except Failure String)}
  {inner : Expression.Kind → Expression → State → List LogEntry}
  {known : List (Expression.Kind × Expression)} {first position : Nat} {start state : State}
  {fragment : Fragment}

/-- An argument behind all fragments is lowered once. -/
theorem visit_argument_once (hrecalls : Recalls lower inner) {kind : Expression.Kind}
    {e : Expression} (honce : generator.LowersOnce current lower inner kind e)
    (hposition : position ≤ e.base) (hless : e.base < e.stop)
    (hreached : State.Reached start first position known current state)
    (hok : ((fragment.visit generator (.argument kind e)).run (generator.handler lower) state).1.1
      = .ok ()) :
    (fragment.visit generator (.argument kind e)).log (generator.handler lower) inner state
        = generator.allEntries current (.argument kind e) ∧
      State.Reached start first e.stop (known ++ [(kind, e)]) current
        ((fragment.visit generator (.argument kind e)).run (generator.handler lower) state).2 := by
  obtain ⟨hstate, hlog⟩ := fragment.visit_argument_eq generator (generator.handler lower) inner
    state kind e
  obtain ⟨code, hcode⟩ := Fragment.lower_ok_of_visit hok
  have hbefore : ∀ entry ∈ state.context.lowered, entry.span.start < e.base :=
    fun entry hmem => Nat.lt_of_lt_of_le (hreached.start_lt entry hmem) hposition
  obtain ⟨hinner, hcurrent, hadded⟩ := honce state code hreached.ready.current hbefore hcode
  obtain ⟨new, hlowered, hnew⟩ := hadded hreached.depth
  rw [hlog, hstate, hinner]
  exact ⟨rfl, hreached.argument hposition hless hcurrent (hrecalls.depth kind e state) hlowered
    hnew⟩

/-- A call whose formulas are known asks for its files once. -/
theorem visit_call_once (hplain : generator.target.Plain) (hrecalls : Recalls lower inner)
    {call : Call} (hheaded : call.Headed) (hhook : generator.hookOf call.callable = none)
    (hknown : call.inputs ⊆ known)
    (hreached : State.Reached start first position known current state) :
    (fragment.visit generator (.call call)).log (generator.handler lower) inner state
        = generator.allEntries current (.call call) ∧
      State.Reached start first position known current
        ((fragment.visit generator (.call call)).run (generator.handler lower) state).2 := by
  obtain ⟨hstate, hlog⟩ := fragment.visit_call_eq generator (generator.handler lower) inner state
    call
  have hasking : (generator.callCode call).Asking (generator.handler lower) inner current known
      (generator.filesOf current call) := asking_callCode hplain hrecalls hheaded hhook hknown
  obtain ⟨hsteady, hrequired⟩ := hasking state hreached.ready
  rw [hlog, hstate, hrequired]
  exact ⟨(List.append_nil _).symm, hreached.steady hsteady⟩

/-- An event that is accepted is done once, and it leaves the others to be. -/
theorem visit_once (hplain : generator.target.Plain) (hrecalls : Recalls lower inner)
    {event : Event} (honce : generator.DoesOnce current lower inner event) {events : List Event}
    (hsupplied : Trace.Supplied known (event :: events)) {stop : Nat}
    (harranged : Expression.Arranged position ((Trace.formulas (event :: events)).map Prod.snd)
      stop)
    (hreached : State.Reached start first position known current state)
    (hok : ((fragment.visit generator event).run (generator.handler lower) state).1.1 = .ok ()) :
    (fragment.visit generator event).log (generator.handler lower) inner state
        = generator.allEntries current event ∧
      ∃ known position, Trace.Supplied known events ∧
        Expression.Arranged position ((Trace.formulas events).map Prod.snd) stop ∧
        State.Reached start first position known current
          ((fragment.visit generator event).run (generator.handler lower) state).2 := by
  cases event with
  | constant text | operator text | number text =>
    exact ⟨rfl, known, position, hsupplied, harranged, hreached⟩
  | argument kind e =>
    obtain ⟨hposition, hless, hafter⟩ := harranged
    obtain ⟨hlog, hnext⟩ := visit_argument_once hrecalls honce hposition hless hreached hok
    exact ⟨hlog, _, _, hsupplied, hafter, hnext⟩
  | call call =>
    obtain ⟨hknown, hsupplied⟩ := hsupplied
    obtain ⟨hlog, hnext⟩ := visit_call_once hplain hrecalls honce.1 honce.2 hknown hreached
    exact ⟨hlog, _, _, hsupplied, harranged, hnext⟩

/-- The events of a formula are done once, each where it comes. -/
theorem shown_once (hplain : generator.target.Plain) (hrecalls : Recalls lower inner)
    {events : List Event} (honce : ∀ event ∈ events, generator.DoesOnce current lower inner event)
    (hsupplied : Trace.Supplied known events) {stop : Nat}
    (harranged : Expression.Arranged position ((Trace.formulas events).map Prod.snd) stop)
    (hreached : State.Reached start first position known current state)
    (hok : ((Fragment.shown generator events fragment).run (generator.handler lower) state).1.1
      = .ok ()) :
    (Fragment.shown generator events fragment).log (generator.handler lower) inner state
        = events.flatMap (generator.allEntries current) ∧
      ∃ known, State.Reached start first stop known current
        ((Fragment.shown generator events fragment).run (generator.handler lower) state).2 := by
  induction events generalizing fragment state known position with
  | nil => exact ⟨rfl, known, hreached.of_le harranged⟩
  | cons event events ih =>
    obtain ⟨hevent, hevents⟩ := List.forall_mem_cons.1 honce
    have hvisit := Fragment.visit_ok_of_shown hok
    obtain ⟨hrun, hlog⟩ := Fragment.shown_cons_ok inner hvisit
    obtain ⟨hfirst, _, _, hsupplied, harranged, hreached⟩ :=
      visit_once hplain hrecalls hevent hsupplied harranged hreached hvisit
    rw [hrun] at hok
    obtain ⟨hrest, hend⟩ := ih hevents hsupplied harranged hreached hok
    rw [hrun, hlog, hfirst, hrest, List.flatMap_cons]
    exact ⟨rfl, hend⟩

end Steps

section Levels
variable {levels : Nat} {kind : Expression.Kind} {e : Expression} {state : State}

/-- The calls and the arguments of a formula are done once if the arguments are, with so many levels
left. -/
theorem doesOnce_of_mem (hrange : Trace.InRange generator.scope kind e)
    (hhooks : ∀ call ∈ Trace.calls generator.scope kind e,
      generator.hookOf call.callable = none)
    (hsupplied : Trace.AllSupplied generator.scope kind e)
    (harguments : ∀ {kind e}, Trace.InRange generator.scope kind e →
      (∀ call ∈ Trace.calls generator.scope kind e, generator.hookOf call.callable = none) →
      Trace.AllSupplied generator.scope kind e →
      generator.LowersOnce current (generator.lowerWithin Context.remembered? levels)
        (generator.logWithin levels) kind e)
    {event : Event} (hmem : event ∈ (Trace.ofExpression generator.scope kind e).events) :
    generator.DoesOnce current (generator.lowerWithin Context.remembered? levels)
      (generator.logWithin levels) event := by
  cases event with
  | constant text | operator text | number text => trivial
  | call call =>
    have hhook := hhooks call (Trace.mem_calls hmem List.mem_cons_self)
    exact ⟨Trace.headed_of_mem_ofExpression hmem, hhook⟩
  | argument inner argument =>
    refine harguments (hrange.argument hmem) ?_ ?_
    · intro call hcall
      exact hhooks call (Trace.mem_calls hmem hcall)
    · intro formula hformula
      exact hsupplied formula (List.mem_cons_of_mem _ (Trace.mem_arguments hmem hformula))

theorem reached_enter {base : Nat} (hcurrent : state.context.current = current)
    (hbefore : ∀ entry ∈ state.context.lowered, entry.span.start < base) :
    State.Reached state.enter base base [] current state.enter where
  ready := ⟨hcurrent, List.forall_mem_nil _⟩
  depth := Nat.succ_ne_zero _
  le := Nat.le_refl base
  before := hbefore
  placed := List.forall_mem_nil _
  added := ⟨[], rfl, List.forall_mem_nil _⟩

/-- The script of a formula, all of it. -/
theorem ended_once (htarget : generator.target.Plain) {code : String}
    (honce : ∀ event ∈ (Trace.ofExpression generator.scope kind e).events,
      generator.DoesOnce current (generator.lowerWithin Context.remembered? levels)
        (generator.logWithin levels) event)
    (hrange : Trace.InRange generator.scope kind e)
    (hsupplied : Trace.Supplied [] (Trace.ofExpression generator.scope kind e).events)
    (hcurrent : state.context.current = current)
    (hbefore : ∀ entry ∈ state.context.lowered, entry.span.start < e.base)
    (hok : (generator.ended Context.remembered? levels kind e state).1 = .ok code) :
    (generator.script kind e).log
          (generator.handler (generator.lowerWithin Context.remembered? levels))
          (generator.logWithin levels) state.enter
        = (Trace.unfolded generator.scope kind e).flatMap (generator.entries current) ∧
      ∃ known, State.Reached state.enter e.base e.stop known current
        (generator.ended Context.remembered? levels kind e state).2 := by
  have hrecalls := generator.recalls_lowerWithin levels
  rw [ended, script, Fragment.ofTrace_eq, Script.run_then] at hok ⊢
  obtain ⟨hlog, hend⟩ := shown_once htarget hrecalls honce hsupplied hrange.arranged
    (reached_enter hcurrent hbefore) (Fragment.shown_ok_of_finish hok)
  refine ⟨?_, hend⟩
  rw [Script.log_then, hlog, Trace.unfolded_eq, List.flatMap_assoc]
  exact List.append_nil _

/-- With however many levels left, a formula is lowered once. -/
theorem lowersOnce_lowerWithin (htarget : generator.target.Plain)
    (hrange : Trace.InRange generator.scope kind e)
    (hhooks : ∀ call ∈ Trace.calls generator.scope kind e,
      generator.hookOf call.callable = none)
    (hsupplied : Trace.AllSupplied generator.scope kind e) :
    generator.LowersOnce current (generator.lowerWithin Context.remembered? levels)
      (generator.logWithin levels) kind e := by
  induction levels generalizing kind e with
  | zero =>
    -- without a level it would have been refused
    intro state code _ hbefore hok
    have hnew : state.context.remembered? kind e = none :=
      Context.remembered?_of_start_ne fun entry hmem => Nat.ne_of_lt (hbefore entry hmem)
    rw [lowerWithin_zero generator hnew] at hok
    cases hok
  | succ levels ih =>
    intro state code hcurrent hbefore hok
    have hnew : state.context.remembered? kind e = none :=
      Context.remembered?_of_start_ne fun entry hmem => Nat.ne_of_lt (hbefore entry hmem)
    rw [lowerWithin_succ generator hnew] at hok ⊢
    obtain ⟨hlog, known, hreached⟩ := ended_once htarget
      (fun _ hmem => doesOnce_of_mem hrange hhooks hsupplied ih hmem) hrange
      (hsupplied (kind, e) List.mem_cons_self) hcurrent hbefore hok
    refine ⟨?_, ?_, ?_⟩
    · rw [logWithin_succ generator hnew, hlog]
    · obtain ⟨lowered, hsettle⟩ := State.settle_eq
        (generator.ended Context.remembered? levels kind e state).2.leave kind e
        (generator.ended Context.remembered? levels kind e state).1
      rw [hsettle]
      exact hreached.ready.current
    · intro hdepth
      obtain ⟨new, hlowered, hnew⟩ := hreached.added
      refine ⟨new, ?_, hnew⟩
      have hleave := depth_ended generator
        (generator.depth_lowerWithin Context.remembered? levels) kind e state
      rw [hok, State.settle_ok (hleave ▸ hdepth)]
      exact congrArg _ hlowered

end Levels

variable (generator current) in
theorem formulas_entries (events : List Event) :
    (events.flatMap (generator.entries current)).filterMap LogEntry.formula?
      = events.filterMap Event.argument? := by
  induction events with
  | nil => rfl
  | cons event events ih =>
    rw [List.flatMap_cons, List.filterMap_append, ih]
    cases event with
    | constant text | operator text | number text | argument kind e => rfl
    | call call =>
      have hnone : ((generator.filesOf current call).map LogEntry.require).filterMap
          LogEntry.formula? = [] := by
        rw [List.filterMap_map]
        exact List.filterMap_eq_nil_iff.2 fun _ _ => rfl
      rw [entries, hnone]
      rfl

variable (generator current) in
theorem paths_entries (events : List Event) :
    (events.flatMap (generator.entries current)).filterMap LogEntry.path?
      = (events.filterMap Event.call?).flatMap (generator.filesOf current) := by
  induction events with
  | nil => rfl
  | cons event events ih =>
    rw [List.flatMap_cons, List.filterMap_append, ih]
    cases event with
    | constant text | operator text | number text | argument kind e => rfl
    | call call =>
      have hall : ((generator.filesOf current call).map LogEntry.require).filterMap
          LogEntry.path? = generator.filesOf current call := by
        rw [List.filterMap_map]
        exact List.filterMap_some
      rw [entries, hall]
      rfl

/-- Where no call has a hook and the designer has written the formulas that the calls take, a
formula that is lowered to code is read once and so is every argument in it, at any depth, and each
call asks once for its own file and for those of the types that it is made on. `Trace.InRange`
leaves out texts longer than 32 bits count, and those in which an argument, at any depth, starts
past that: adding up such an offset overflows, and the clamp would put two arguments of one text in
one place. -/
theorem lower_once
    (htarget : generator.target = JavaScript.target generator.scope ∨
      ∃ expansions, generator.target = Symbolic.target expansions)
    {kind : Expression.Kind} {e : Expression} {state : State} {code : String}
    (hidle : state.context.Idle) (hrange : Trace.InRange generator.scope kind e)
    (hhooks : ∀ call ∈ Trace.calls generator.scope kind e, generator.hookOf call.callable = none)
    (hsupplied : Trace.AllSupplied generator.scope kind e)
    (hcode : (generator.lower kind e state).1 = .ok code) :
    let log := generator.log kind e state
    let files := (Trace.calls generator.scope kind e).flatMap
      (generator.filesOf state.context.current)
    log.filterMap LogEntry.formula? = (kind, e) :: Trace.arguments generator.scope kind e ∧
      (log.filterMap LogEntry.formula?).length
        = 1 + (Trace.arguments generator.scope kind e).length ∧
      log.filterMap LogEntry.path? = files ∧
      (generator.lower kind e state).2.includes
        = files.foldl (fun included path => generator.target.record path included)
            state.includes := by
  intro log files
  have hplain : generator.target.Plain := by
    rcases htarget with htarget | ⟨expansions, htarget⟩
    · exact htarget ▸ JavaScript.plain_target generator.scope
    · exact htarget ▸ Symbolic.plain_target expansions
  have hbefore : ∀ entry ∈ state.context.lowered, entry.span.start < e.base :=
    hidle.2 ▸ List.forall_mem_nil _
  obtain ⟨hlog, -, -⟩ := lowersOnce_lowerWithin hplain hrange hhooks hsupplied state code rfl
    hbefore hcode
  have hformulas : log.filterMap LogEntry.formula?
      = (kind, e) :: Trace.arguments generator.scope kind e := by
    show (generator.logWithin _ kind e state).filterMap _ = _
    rw [hlog]
    exact congrArg ((kind, e) :: ·) (formulas_entries generator state.context.current _)
  have hpaths : log.filterMap LogEntry.path? = files := by
    show (generator.logWithin _ kind e state).filterMap _ = _
    rw [hlog]
    exact paths_entries generator state.context.current _
  refine ⟨hformulas, ?_, hpaths, ?_⟩
  · rw [hformulas, List.length_cons, Nat.add_comm]
  · rw [← hpaths]
    exact generator.includes_lowerWithin state.context.levels kind e state

end Generator

/-- `G` takes nothing and `F` takes two numbers. Each has a file. -/
def Scope.pairs : Scope where
  platform.functions.numeric := .ofList
    [("G", { includeFile := some "g.js", callName := "g" }),
      ("F", {
        parameters := [{ kind := .number }, { kind := .number }]
        includeFile := some "f.js"
        callName := "f" })]
  project := {}
  layout := {}

/-- `F(G(),F(1,G()))` has four arguments, of which two are the same text. -/
theorem Generator.lower_once_pairs :
    let e := Expression.ofText "F(G(),F(1,G()))"
    let log := (JavaScript.generator .pairs).log .number e (.initial 4)
    (State.initial 4).context.Idle ∧ Trace.InRange .pairs .number e ∧
      (∀ call ∈ Trace.calls .pairs .number e,
        (JavaScript.generator .pairs).hookOf call.callable = none) ∧
      Trace.AllSupplied .pairs .number e ∧
      ((JavaScript.generator .pairs).lower .number e (.initial 4)).1 = .ok "f(g(), f(1.0, g()))" ∧
      log.filterMap LogEntry.formula?
        = [(.number, e), (.number, .place "G()" 2), (.number, .place "F(1,G())" 6),
          (.number, .place "1" 8), (.number, .place "G()" 10)] ∧
      log.filterMap LogEntry.path? = ["g.js", "g.js", "f.js", "f.js"] ∧
      ((JavaScript.generator .pairs).lower .number e (.initial 4)).2.includes
        = ["f.js", "g.js"] := by
  intro e log
  have hidle : (State.initial 4).context.Idle := Context.idle_fresh none (some 4)
  have hrange : Trace.InRange .pairs .number e := Trace.inRange_of_stop_le (by decide +kernel)
  have hhooks : ∀ call ∈ Trace.calls .pairs .number e,
      (JavaScript.generator .pairs).hookOf call.callable = none := by
    decide +kernel
  have hsupplied : Trace.AllSupplied .pairs .number e := by decide +kernel
  have hcode : ((JavaScript.generator .pairs).lower .number e (.initial 4)).1
      = .ok "f(g(), f(1.0, g()))" :=
    Except.eq_ok_of_toOption (by decide +kernel)
  obtain ⟨hformulas, -, hpaths, hincludes⟩ :=
    lower_once (Or.inl rfl) hidle hrange hhooks hsupplied hcode
  have harguments : Trace.arguments .pairs .number e
      = [(.number, .place "G()" 2), (.number, .place "F(1,G())" 6), (.number, .place "1" 8),
        (.number, .place "G()" 10)] := by
    decide +kernel
  have hfiles : (Trace.calls .pairs .number e).flatMap
      ((JavaScript.generator .pairs).filesOf none) = ["g.js", "g.js", "f.js", "f.js"] := by
    decide +kernel
  refine ⟨hidle, hrange, hhooks, hsupplied, hcode, hformulas.trans ?_, hpaths.trans hfiles, ?_⟩
  · exact congrArg ((Expression.Kind.number, e) :: ·) harguments
  · exact hincludes.trans (hfiles ▸ rfl)

end EventFormula
