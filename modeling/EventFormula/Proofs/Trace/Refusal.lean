import EventFormula.Trace.Recording

/-!
# Visitors that refuse an argument

The main statement, `Visitor.run_refused`, is that the first refusal ends the reading: it is the
result, and what the visitor has been shown is what a visitor is shown that accepts all arguments,
up to the refused one. The two readings are compared part by part, by the recursion of the descent:
as long as nothing is refused they are abreast, and from then on only the other one goes on.
-/

namespace EventFormula

/-- Whether a visitor has to answer. -/
def Event.isArgument : Event → Bool
  | .argument .. => true
  | _ => false

namespace Visitor

variable {σ : Type}

/-- What has come of a visitor so far. -/
structure Course (σ : Type) where
  state : σ
  /-- The events that it has been shown. -/
  shown : List Event
  /-- What it has answered to the arguments among those. -/
  answers : List (Except Failure Unit)

/-- The visitor with a record of its course. -/
def recorded (visitor : Visitor (StateM σ)) : Visitor (StateM (Course σ)) where
  notice event := fun course =>
    ((), ⟨((visitor.notice event).run course.state).2, course.shown ++ [event], course.answers⟩)
  answer kind e := fun course =>
    let (answer, state) := (visitor.answer kind e).run course.state
    (answer, ⟨state, course.shown ++ [.argument kind e], course.answers ++ [answer]⟩)

/-- An expression read for a visitor that starts in some state: the result, and what came of the
visitor. -/
def run (visitor : Visitor (StateM σ)) (start : σ) (scope : Scope) (kind : Expression.Kind)
    (e : Expression) : Except Failure Unit × Course σ :=
  (visitor.recorded.parse scope kind e).run.run ⟨start, [], []⟩

/-- The visitor that accepts all arguments. -/
def accepting : Visitor (StateM Unit) := ⟨fun _ => pure (), fun _ _ => pure (.ok ())⟩

/-- Both have been shown the same, and nothing is refused. -/
structure Abreast (course : Course σ) (whole : Course Unit) : Prop where
  shown : course.shown = whole.shown
  answers : course.answers = List.replicate (whole.shown.countP Event.isArgument) (.ok ())

/-- How a reading ends beside the one in which all is accepted. -/
inductive Ending {α : Type} :
    Except Failure α × Course σ → Except Failure α × Course Unit → Prop where
  | same {result : Except Failure α} {course : Course σ} {whole : Course Unit}
      (h : Abreast course whole) : Ending (result, course) (result, whole)
  /-- An argument is refused, which is the last event that the visitor is shown. -/
  | refused {failure : Failure} {result : Except Failure α} {course : Course σ}
      {whole : Course Unit} (before after : List Event) (kind : Expression.Kind) (e : Expression)
      (hwhole : whole.shown = before ++ .argument kind e :: after)
      (hshown : course.shown = before ++ [.argument kind e])
      (hanswers : course.answers
        = List.replicate (before.countP Event.isArgument) (.ok ()) ++ [.error failure]) :
      Ending (.error failure, course) (result, whole)

/-- A part of a reading and the same part with all accepted. -/
structure Follows {α : Type} (read : ExceptT Failure (StateM (Course σ)) α)
    (all : ExceptT Failure (StateM (Course Unit)) α) : Prop where
  ending : ∀ course whole, Abreast course whole → Ending (read.run.run course) (all.run.run whole)
  grows : ∀ whole, ∃ events, (all.run.run whole).2.shown = whole.shown ++ events

namespace Follows

variable {α β : Type}

theorem pure (a : α) : Follows (σ := σ) (Pure.pure a) (Pure.pure a) :=
  ⟨fun _ _ h => .same h, fun _ => ⟨[], (List.append_nil _).symm⟩⟩

theorem throw (failure : Failure) :
    Follows (σ := σ) (α := α) (MonadExcept.throw failure) (MonadExcept.throw failure) :=
  ⟨fun _ _ h => .same h, fun _ => ⟨[], (List.append_nil _).symm⟩⟩

theorem lift (a : Except Failure α) : Follows (σ := σ) (liftM a) (liftM a) := by
  cases a with
  | ok a => exact pure a
  | error failure => exact throw failure

theorem bind {read : ExceptT Failure (StateM (Course σ)) α}
    {all : ExceptT Failure (StateM (Course Unit)) α}
    {next : α → ExceptT Failure (StateM (Course σ)) β}
    {nextAll : α → ExceptT Failure (StateM (Course Unit)) β} (h : Follows read all)
    (hnext : ∀ a, Follows (next a) (nextAll a)) : Follows (read >>= next) (all >>= nextAll) := by
  constructor
  · intro course whole habreast
    have hending := h.ending course whole habreast
    rw [ExceptT.run_bind, ExceptT.run_bind, StateT.run_bind, StateT.run_bind]
    rcases hread : read.run.run course with ⟨result, reached⟩
    rcases hall : all.run.run whole with ⟨accepted, wholeReached⟩
    rw [hread, hall] at hending
    cases hending with
    | same habreast =>
      cases result with
      | ok a => exact (hnext a).ending reached wholeReached habreast
      | error failure => exact .same habreast
    | refused before after kind e hwhole hshown hanswers =>
      cases accepted with
      | ok a =>
        obtain ⟨events, hevents⟩ := (hnext a).grows wholeReached
        refine .refused before (after ++ events) kind e ?_ hshown hanswers
        refine hevents.trans ?_
        rw [hwhole, List.append_assoc, List.cons_append]
      | error failure => exact .refused before after kind e hwhole hshown hanswers
  · intro whole
    obtain ⟨events, hevents⟩ := h.grows whole
    rw [ExceptT.run_bind, StateT.run_bind]
    rcases hall : all.run.run whole with ⟨accepted, reached⟩
    rw [hall] at hevents
    cases accepted with
    | ok a =>
      obtain ⟨more, hmore⟩ := (hnext a).grows reached
      exact ⟨events ++ more, by rw [← List.append_assoc, ← hevents]; exact hmore⟩
    | error failure => exact ⟨events, hevents⟩

variable (visitor : Visitor (StateM σ))

/-- Nothing that needs no answer can be refused. -/
theorem tell {event : Event} (hevent : event.isArgument = false) :
    Follows (visitor.recorded.tell event) (accepting.recorded.tell event) := by
  refine ⟨fun course whole h => .same ⟨?_, ?_⟩, fun whole => ⟨[event], rfl⟩⟩
  · exact congrArg (· ++ [event]) h.shown
  · refine h.answers.trans ?_
    show _ = List.replicate ((whole.shown ++ [event]).countP Event.isArgument) _
    rw [List.countP_append, List.countP_singleton, hevent]
    rfl

theorem ask (kind : Expression.Kind) (e : Expression) :
    Follows (visitor.recorded.ask kind e) (accepting.recorded.ask kind e) := by
  refine ⟨fun course whole h => ?_, fun whole => ⟨[.argument kind e], rfl⟩⟩
  have hshown : course.shown ++ [.argument kind e] = whole.shown ++ [.argument kind e] :=
    congrArg (· ++ [.argument kind e]) h.shown
  show Ending (((visitor.answer kind e).run course.state).1,
    ⟨((visitor.answer kind e).run course.state).2, course.shown ++ [.argument kind e],
      course.answers ++ [((visitor.answer kind e).run course.state).1]⟩)
    (.ok (), ⟨(), whole.shown ++ [.argument kind e], whole.answers ++ [.ok ()]⟩)
  rcases (visitor.answer kind e).run course.state with ⟨failure | _, state⟩
  · refine .refused whole.shown [] kind e rfl hshown ?_
    rw [h.answers]
  · refine .same ⟨hshown, ?_⟩
    rw [h.answers, List.countP_append, ← List.replicate_append_replicate]
    rfl

theorem each {read : α → ExceptT Failure (StateM (Course σ)) PUnit}
    {all : α → ExceptT Failure (StateM (Course Unit)) PUnit} (h : ∀ a, Follows (read a) (all a))
    (as : List α) : Follows (forM as read) (forM as all) := by
  induction as with
  | nil => exact pure _
  | cons a as ih =>
    rw [List.forM_cons, List.forM_cons]
    exact bind (h a) fun _ => ih

theorem pass (p : Token → Bool) (tokens : List Token) :
    Follows (visitor.recorded.pass p tokens) (accepting.recorded.pass p tokens) := by
  refine each (fun token => tell visitor ?_) _
  rw [lead]
  split <;> rfl

theorem validate (parameter : Parameter) (argument : Call.Argument) :
    Follows (visitor.recorded.validate parameter argument)
      (accepting.recorded.validate parameter argument) := by
  rw [Visitor.validate, Visitor.validate]
  split
  · exact ask visitor _ _
  · exact pure _

end Follows

section Descent

open Trace.Reader

variable (visitor : Visitor (StateM σ)) (reader : Trace.Reader)

theorem follows_call (name : Token) (tokens : List Token) :
    Follows (visitor.recorded.call reader name tokens)
      (accepting.recorded.call reader name tokens) := by
  rw [call, call]
  refine .bind (.lift _) fun (head, opening, left) => ?_
  refine .bind (.lift _) fun (inner, closing, rest) => ?_
  refine .bind (.lift _) fun arguments => ?_
  refine .bind (.each (fun (parameter, argument) => .validate visitor parameter argument) _)
    fun _ => ?_
  exact .bind (.tell visitor rfl) fun _ => .pure _

mutual

theorem follows_term (groups : Nat) (tokens : List Token) :
    Follows (visitor.recorded.term reader groups tokens)
      (accepting.recorded.term reader groups tokens) := by
  rw [term, term]
  refine .bind (.pass visitor _ _) fun _ => ?_
  rcases behind reader.leads tokens with ⟨_ | ⟨token, left⟩, h⟩
  · exact .throw _
  dsimp only
  split
  · exact .bind (.tell visitor rfl) fun _ => .pure _
  · exact .throw _
  · exact .bind (.tell visitor rfl) fun _ => .pure _
  · exact .throw _
  · exact .bind (follows_group groups token left) fun _ => .pure _
  · exact .bind (follows_call visitor reader token left) fun _ => .pure _
  · exact .throw _
termination_by 3 * tokens.length
decreasing_by
  rw [List.length_cons] at h
  omega

theorem follows_group (groups : Nat) (opening : Token) (tokens : List Token) :
    Follows (visitor.recorded.group reader groups opening tokens)
      (accepting.recorded.group reader groups opening tokens) := by
  rw [group, group]
  split
  · exact .throw _
  refine .bind (.tell visitor rfl) fun _ => ?_
  refine .bind (follows_formula (groups + 1) tokens) fun left => ?_
  refine .bind (.pass visitor _ _) fun _ => ?_
  rcases behind Token.isWhitespace left.1 with ⟨_ | ⟨closing, rest⟩, h⟩
  · exact .throw _
  dsimp only
  split
  · exact .bind (.tell visitor rfl) fun _ => .pure _
  · exact .throw _
termination_by 3 * tokens.length + 2

theorem follows_formula (groups : Nat) (tokens : List Token) :
    Follows (visitor.recorded.formula reader groups tokens)
      (accepting.recorded.formula reader groups tokens) := by
  rw [formula, formula]
  refine .bind (follows_term groups tokens) fun left => ?_
  exact .bind (follows_more groups left.1) fun _ => .pure _
termination_by 3 * tokens.length + 1
decreasing_by
  · omega
  · have := left.2
    omega

theorem follows_more (groups : Nat) (tokens : List Token) :
    Follows (visitor.recorded.more reader groups tokens)
      (accepting.recorded.more reader groups tokens) := by
  rw [more, more]
  refine .bind (.pass visitor _ _) fun _ => ?_
  rcases behind Token.isWhitespace tokens with ⟨_ | ⟨token, left⟩, h⟩
  · exact .pure _
  dsimp only
  split
  · refine .bind (.tell visitor rfl) fun _ => ?_
    exact .bind (follows_formula groups left) fun _ => .pure _
  · exact .pure _
termination_by 3 * tokens.length
decreasing_by
  rw [List.length_cons] at h
  omega

end

theorem follows_parse (scope : Scope) (kind : Expression.Kind) (e : Expression) :
    Follows (visitor.recorded.parse scope kind e) (accepting.recorded.parse scope kind e) := by
  rw [parse, parse]
  split
  · exact .throw _
  refine .bind (follows_formula visitor _ 0 _) fun left => ?_
  refine .bind (.pass visitor _ _) fun _ => ?_
  split
  · exact .pure _
  · split <;> exact .throw _

end Descent

/-- A refusal comes behind the answers that accept, and there is no other. -/
theorem place_of_refusal {count k : Nat} {refusal failure : Failure}
    (h : (List.replicate count (.ok ()) ++ [.error refusal] : List (Except Failure Unit))[k]?
      = some (.error failure)) : count = k ∧ refusal = failure := by
  rw [List.getElem?_append, List.length_replicate] at h
  split at h
  · cases List.eq_of_mem_replicate (List.mem_of_getElem? h)
  · rw [List.getElem?_singleton] at h
    split at h
    · cases h
      exact ⟨by omega, rfl⟩
    · cases h

variable {visitor : Visitor (StateM σ)} {start : σ} {scope : Scope} {kind : Expression.Kind}
  {e : Expression} {result accepted : Except Failure Unit} {course : Course σ}
  {whole : Course Unit} {k : Nat}

/-- A visitor that accepts `k` arguments and refuses the next one has been shown what the accepting
visitor is shown up to that argument and nothing else, and its refusal is the result. If no more
than `k` arguments come, it is shown the same, and the result is the same. -/
theorem run_refused (hrun : visitor.run start scope kind e = (result, course))
    (hwhole : accepting.run () scope kind e = (accepted, whole))
    (hanswers : ∀ answer ∈ course.answers.take k, answer = .ok ()) :
    (∀ failure, course.answers[k]? = some (.error failure) →
      result = .error failure ∧ ∃ before inner argument after,
        whole.shown = before ++ .argument inner argument :: after ∧
        before.countP Event.isArgument = k ∧
        course.shown = before ++ [.argument inner argument]) ∧
    (course.answers.length ≤ k → result = accepted ∧ course.shown = whole.shown) := by
  have hending := (follows_parse visitor scope kind e).ending ⟨start, [], []⟩ ⟨(), [], []⟩
    ⟨rfl, rfl⟩
  rw [run] at hrun hwhole
  rw [hrun, hwhole] at hending
  cases hending with
  | same habreast =>
    refine ⟨fun failure hfailure => ?_, fun _ => ⟨rfl, habreast.shown⟩⟩
    rw [habreast.answers] at hfailure
    cases List.eq_of_mem_replicate (List.mem_of_getElem? hfailure)
  | @refused refusal _ _ _ before after inner argument hevents hshown hrefused =>
    refine ⟨fun failure hfailure => ?_, fun hfew => ?_⟩
    · rw [hrefused] at hfailure
      obtain ⟨hk, rfl⟩ := place_of_refusal hfailure
      exact ⟨rfl, before, inner, argument, after, hevents, hk, hshown⟩
    · -- the refusal would be among the first answers
      have hmem : (.error refusal : Except Failure Unit) ∈ course.answers.take k := by
        rw [List.take_of_length_le hfew, hrefused]
        exact List.mem_append_right _ List.mem_cons_self
      cases hanswers _ hmem

instance : DecidableEq (Except Failure Unit)
  | .ok _, .ok _ => isTrue rfl
  | .error failure, .error other =>
    decidable_of_iff (failure = other) ⟨congrArg _, Except.error.inj⟩
  | .ok _, .error _ => isFalse nofun
  | .error _, .ok _ => isFalse nofun

/-- The visitor that refuses the third argument and all behind it; it counts the arguments. -/
def twoOnly : Visitor (StateM Nat) where
  notice _ := pure ()
  answer _ e := fun count =>
    (if count < 2 then .ok () else .error (Recording.rejection e), count + 1)

/-- One number function, `Max`, of two numbers. -/
def scopeOfMax : Scope where
  platform.functions.numeric :=
    .ofList [("Max", { parameters := [{ kind := .number }, { kind := .number }] })]
  project := {}
  layout := {}

/-- The third argument stands in the second call; of that call, of its other argument and of the
parenthesis behind it nothing is seen. -/
theorem run_refused_third :
    let read := twoOnly.run 0 scopeOfMax .number (.ofText "Max(1, 2) * (3 + Max(4, 5))")
    let whole := accepting.run () scopeOfMax .number (.ofText "Max(1, 2) * (3 + Max(4, 5))")
    let refusal := Recording.rejection (.place "4" 21)
    (∀ answer ∈ read.2.answers.take 2, answer = .ok ()) ∧
      read.2.answers[2]? = some (.error refusal) ∧ read.1 = .error refusal ∧
      ∃ before inner argument after, whole.2.shown = before ++ .argument inner argument :: after ∧
        before.countP Event.isArgument = 2 ∧
        read.2.shown = before ++ [.argument inner argument] := by
  intro read whole refusal
  have hanswers : ∀ answer ∈ read.2.answers.take 2, answer = .ok () := by decide +kernel
  have hrefused : read.2.answers[2]? = some (.error refusal) := by decide +kernel
  exact ⟨hanswers, hrefused, (run_refused rfl rfl hanswers).1 refusal hrefused⟩

end Visitor

end EventFormula
