import EventFormula.Proofs.Lowering.Pieces

/-!
# Composition

While the events of a formula are visited, each block adds its piece, up to the first argument that
fails; so what the lowering comes to is composed. The main statement is that a lowering which
succeeds with nothing refused in its course is composed, and so is every lowering in its course: all
of them end as one assignment of answers says, and the code of each is made of pieces which depend
on the answers alone. So the code of a written argument is the one that checking it has yielded.
-/

namespace EventFormula

namespace JavaScript

variable {scope : Scope} {current : Option String} {answers : Answers}

section Visits
variable (scope current answers)

/-- What a fragment comes to while events are visited. -/
def shown (events : List Event) (fragment : Fragment) : Except Failure Unit × Fragment :=
  ((Trace.visitEvents (fun event => fun fragment : Fragment =>
    fragment.visit (generator scope) event) events : StateT Fragment Script _).run
      fragment).value current answers

variable {scope current answers} {fragment : Fragment} {events : List Event}

theorem shown_of_ok {event : Event} {next : Fragment}
    (h : (fragment.visit (generator scope) event).value current answers = (.ok (), next)) :
    shown scope current answers (event :: events) fragment
      = shown scope current answers events next := by
  show (Fragment.shown (generator scope) (event :: events) fragment).value current answers = _
  rw [Fragment.shown_cons, Script.value_bind, h]
  rfl

theorem shown_of_error {event : Event} {next : Fragment} {failure : Failure}
    (h : (fragment.visit (generator scope) event).value current answers = (.error failure, next)) :
    shown scope current answers (event :: events) fragment = (.error failure, next) := by
  show (Fragment.shown (generator scope) (event :: events) fragment).value current answers = _
  rw [Fragment.shown_cons, Script.value_bind, h]
  rfl

theorem value_visit_accepted {kind : Expression.Kind} {e : Expression} {code : String}
    (h : answers kind e = .ok code) :
    (fragment.visit (generator scope) (.argument kind e)).value current answers
      = (.ok (), fragment) := by
  have hlower : (Script.lower kind e).value current answers = .ok code := h
  rw [Fragment.visit_argument, Script.value_bind, hlower]
  rfl

theorem value_visit_refused {kind : Expression.Kind} {e : Expression} {failure : Failure}
    (h : answers kind e = .error failure) :
    (fragment.visit (generator scope) (.argument kind e)).value current answers
      = (.error failure, fragment.note failure) := by
  have hlower : (Script.lower kind e).value current answers = .error failure := h
  rw [Fragment.visit_argument, Script.value_bind, hlower]
  rfl

theorem value_visit_call (call : Call) :
    (fragment.visit (generator scope) (.call call)).value current answers
      = (.ok (), fragment.append (((generator scope).callCode call).value current answers)) := by
  rw [Fragment.visit, Script.value_bind]
  rfl

/-- Announcements of arguments, all accepted, leave the fragment as it is. -/
theorem shown_accepted {before : List Event}
    (harguments : ∀ event ∈ before, ∃ kind e, event = .argument kind e)
    (h : ∀ event ∈ before, Accepted answers event) :
    shown scope current answers (before ++ events) fragment
      = shown scope current answers events fragment := by
  induction before with
  | nil => rfl
  | cons event before ih =>
    obtain ⟨⟨kind, e, rfl⟩, hothers⟩ := List.forall_mem_cons.1 harguments
    obtain ⟨⟨code, hcode⟩, haccepted⟩ := List.forall_mem_cons.1 h
    exact (shown_of_ok (value_visit_accepted hcode)).trans (ih hothers haccepted)

theorem Refused.append {failure : Failure} (h : Refused answers failure events)
    (rest : List Event) : Refused answers failure (events ++ rest) := by
  obtain ⟨before, kind, e, after, rfl, hbefore, hfailure⟩ := h
  refine ⟨before, kind, e, after ++ rest, ?_, hbefore, hfailure⟩
  rw [List.append_assoc, List.cons_append]

theorem accepted_or_refused (harguments : ∀ event ∈ events, ∃ kind e, event = .argument kind e) :
    (∀ event ∈ events, Accepted answers event) ∨ ∃ failure, Refused answers failure events := by
  induction events with
  | nil => exact Or.inl fun event hmem => absurd hmem List.not_mem_nil
  | cons event events ih =>
    obtain ⟨⟨kind, e, rfl⟩, hothers⟩ := List.forall_mem_cons.1 harguments
    cases hanswer : answers kind e with
    | error failure =>
      have hnone : ∀ event ∈ ([] : List Event), Accepted answers event :=
        fun event hmem => absurd hmem List.not_mem_nil
      exact Or.inr ⟨failure, [], kind, e, events, rfl, hnone, hanswer⟩
    | ok code =>
      have hfirst : Accepted answers (.argument kind e) := ⟨code, hanswer⟩
      rcases ih hothers with haccepted | ⟨failure, before, other, f, after, rfl, hbefore, hfailure⟩
      · exact Or.inl (List.forall_mem_cons.2 ⟨hfirst, haccepted⟩)
      · exact Or.inr ⟨failure, .argument kind e :: before, other, f, after, rfl,
          List.forall_mem_cons.2 ⟨hfirst, hbefore⟩, hfailure⟩

theorem argument_of_mem_checks {callable : Callable} {arguments : List Call.Argument}
    {event : Event} (h : event ∈ Call.checks callable arguments) :
    ∃ kind e, event = .argument kind e := by
  obtain ⟨⟨parameter, argument⟩, -, hevent⟩ := List.mem_filterMap.1 h
  dsimp only at hevent
  split at hevent
  · obtain ⟨kind, -, rfl⟩ := Option.map_eq_some_iff.1 hevent
    exact ⟨kind, argument.expression, rfl⟩
  · cases hevent

theorem shown_refused {before : List Event} {failure : Failure}
    (harguments : ∀ event ∈ before, ∃ kind e, event = .argument kind e)
    (h : Refused answers failure before) :
    shown scope current answers (before ++ events) fragment
      = (.error failure, fragment.note failure) := by
  obtain ⟨earlier, kind, e, later, rfl, haccepted, hfailure⟩ := h
  rw [List.append_assoc, List.cons_append]
  have hearlier : ∀ event ∈ earlier, ∃ kind e, event = .argument kind e :=
    fun event hmem => harguments event (List.mem_append_left _ hmem)
  exact (shown_accepted hearlier haccepted).trans (shown_of_error (value_visit_refused hfailure))

/-- A block adds its piece, unless one of the arguments announced in it fails. -/
theorem shown_block {reader : Trace.Reader} {block : List Event} (h : reader.Block block) :
    (∃ piece, Piece scope current answers reader block piece ∧
      ∀ rest fragment, shown scope current answers (block ++ rest) fragment
        = shown scope current answers rest (fragment.append piece)) ∨
    ∃ failure, Refused answers failure block ∧
      ∀ rest fragment, shown scope current answers (block ++ rest) fragment
        = (.error failure, fragment.note failure) := by
  cases h with
  | constant text =>
    exact Or.inl ⟨text, .constant text, fun rest fragment => shown_of_ok rfl⟩
  | operator text =>
    exact Or.inl ⟨text, .operator text, fun rest fragment => shown_of_ok rfl⟩
  | number text =>
    exact Or.inl ⟨_, .number text, fun rest fragment => shown_of_ok rfl⟩
  | literal token =>
    exact Or.inl ⟨_, .literal token, fun rest fragment => shown_of_ok (value_visit_call _)⟩
  | @call head written place arguments hfits halign =>
    have harguments : ∀ event ∈ Call.checks head.callable arguments,
        ∃ kind e, event = .argument kind e :=
      fun event hmem => argument_of_mem_checks hmem
    rcases accepted_or_refused harguments with haccepted | ⟨failure, hrefused⟩
    · refine Or.inl ⟨_, piece_call hfits halign haccepted, ?_⟩
      intro rest fragment
      rw [List.append_assoc]
      exact (shown_accepted harguments haccepted).trans (shown_of_ok (value_visit_call _))
    · refine Or.inr ⟨failure, hrefused.append _, ?_⟩
      intro rest fragment
      rw [List.append_assoc]
      exact shown_refused harguments hrefused

/-- Blocks add their pieces up to the first argument that fails. -/
theorem shown_blocks {reader : Trace.Reader} {events : List Event} (h : reader.Blocks events)
    {before : List Event} {code : String}
    (hpieces : Pieces scope current answers reader before code) :
    (∃ more, shown scope current answers events ⟨code, none⟩ = (.ok (), ⟨more, none⟩) ∧
      Pieces scope current answers reader (before ++ events) more) ∨
    ∃ failure done rest more,
      shown scope current answers events ⟨code, none⟩ = (.error failure, ⟨more, some failure⟩) ∧
        before ++ events = done ++ rest ∧ Pieces scope current answers reader done more ∧
        Refused answers failure rest := by
  induction h generalizing before code with
  | nil => exact Or.inl ⟨code, rfl, by rwa [List.append_nil]⟩
  | @block block rest hblock _ ih =>
    rcases shown_block hblock with ⟨piece, hpiece, hshown⟩ | ⟨failure, hrefused, hshown⟩
    · have hnext := ih (.snoc hpieces hpiece)
      rw [List.append_assoc] at hnext
      rw [hshown]
      exact hnext
    · exact Or.inr ⟨failure, before, block ++ rest, code, hshown rest _, rfl, hpieces,
        hrefused.append rest⟩

end Visits

theorem value_ofTrace_of_ok {trace : Trace} {fragment : Fragment}
    (h : shown scope current answers trace.events {} = (.ok (), fragment)) :
    (Fragment.ofTrace (generator scope) trace).value current answers
      = fragment.finish trace.result := by
  change (Fragment.shown (generator scope) trace.events {}).value current answers = _ at h
  rw [Fragment.ofTrace_eq, Script.value_bind, h]
  rfl

theorem value_ofTrace_of_error {trace : Trace} {fragment : Fragment} {failure : Failure}
    (h : shown scope current answers trace.events {} = (.error failure, fragment)) :
    (Fragment.ofTrace (generator scope) trace).value current answers
      = fragment.finish (.error failure) := by
  change (Fragment.shown (generator scope) trace.events {}).value current answers = _ at h
  rw [Fragment.ofTrace_eq, Script.value_bind, h]
  rfl

/-- What the script for a formula comes to is composed. -/
theorem composed_of_value {kind : Expression.Kind} {e : Expression} {result : Except Failure String}
    (h : ((generator scope).script kind e).value current answers = result) :
    Composed scope current answers kind e result := by
  change (Fragment.ofTrace (generator scope) (Trace.ofExpression scope kind e)).value current
    answers = result at h
  have hnil : Pieces scope current answers (.ofExpression scope kind e) [] "" := .nil
  rcases shown_blocks (Trace.blocks_ofExpression scope kind e) hnil with
    ⟨code, hshown, hpieces⟩ | ⟨failure, done, rest, code, hshown, heq, hpieces, hrefused⟩
  · rw [value_ofTrace_of_ok hshown] at h
    cases hfailure : (Trace.ofExpression scope kind e).failure with
    | none =>
      have hresult : result = .ok code := by
        rw [← h, Trace.result, hfailure]
        rfl
      rw [hresult]
      exact ⟨hfailure, hpieces⟩
    | some failure =>
      have hresult : result = .error failure := by
        rw [← h, Trace.result, hfailure]
        rfl
      rw [hresult]
      exact ⟨_, [], code, (List.append_nil _).symm, hpieces, Or.inr ⟨rfl, hfailure⟩⟩
  · rw [value_ofTrace_of_error hshown] at h
    have hresult : result = .error failure := h.symm
    rw [hresult]
    exact ⟨done, rest, code, heq, hpieces, Or.inl hrefused⟩

/-- Every outcome is composed of what the answers say, if these agree with all outcomes. -/
theorem composed_of_outcome
    (h : ∀ {levels kind e found}, (generator scope).outcome? current levels kind e = some found →
      answers kind e = found.1)
    {levels : Nat} {kind : Expression.Kind} {e : Expression}
    {found : Except Failure String × List Effect}
    (hfound : (generator scope).outcome? current levels kind e = some found) :
    Composed scope current answers kind e found.1 := by
  cases levels with
  | zero => cases hfound
  | succ levels => exact composed_of_value (Script.value_of_evaluate h hfound)

end JavaScript

namespace Generator

variable (generator : Generator) (current : Option String)

/-- The results of all outcomes; where there is none, any. -/
noncomputable def answers : Answers := fun kind e =>
  open Classical in
  if h : ∃ found : Except Failure String × List Effect,
      ∃ levels, generator.outcome? current levels kind e = some found then h.choose.1
  else .ok ""

variable {generator current}

theorem answers_of_outcome {levels : Nat} {kind : Expression.Kind} {e : Expression}
    {found : Except Failure String × List Effect}
    (h : generator.outcome? current levels kind e = some found) :
    generator.answers current kind e = found.1 := by
  have hexists : ∃ found : Except Failure String × List Effect,
      ∃ levels, generator.outcome? current levels kind e = some found := ⟨found, levels, h⟩
  obtain ⟨_, hchosen⟩ := hexists.choose_spec
  rw [answers, dif_pos hexists, outcome?_unique hchosen h]

end Generator

namespace JavaScript

/-- The lowering ends as the answers say, and is composed of them. -/
def Follows (scope : Scope) (current : Option String) (answers : Answers) (levels : Nat)
    (kind : Expression.Kind) (e : Expression) (state : State) : Prop :=
  ((generator scope).lowerWithin Context.remembered? levels kind e state).1 = answers kind e ∧
    Composed scope current answers kind e (answers kind e)

/-- A lowering that ends as an outcome says ends as the answers say, and is composed of them. -/
theorem composed_of_endsAs {scope : Scope} {current : Option String} {kind : Expression.Kind}
    {e : Expression} {state : State} {ended : Except Failure String × State}
    (h : (generator scope).EndsAs current ((generator scope).outcome? current · kind e) state
      ended) :
    ended.1 = (generator scope).answers current kind e ∧
      Composed scope current ((generator scope).answers current) kind e
        ((generator scope).answers current kind e) := by
  obtain ⟨levels, effects, hfound, -, -⟩ := h
  have hanswer : (generator scope).answers current kind e = ended.1 :=
    Generator.answers_of_outcome hfound
  have hcomposed := composed_of_outcome Generator.answers_of_outcome hfound
  rw [hanswer]
  exact ⟨rfl, hcomposed⟩

/-- A lowering that succeeds is composed of what the lowerings in its course have yielded, and all
of these are composed in the same way. -/
theorem lower_composed (scope : Scope) {kind : Expression.Kind} {e : Expression} {state : State}
    {code : String} (hidle : state.context.Idle)
    (hcode : ((generator scope).lower kind e state).1 = .ok code)
    (hwithin : (generator scope).Unrefused Context.remembered? state.context.levels kind e state) :
    ∃ answers : Answers,
      answers kind e = .ok code ∧
      Composed scope state.context.current answers kind e (.ok code) ∧
      (generator scope).Within Context.remembered?
        (Follows scope state.context.current answers) state.context.levels kind e state := by
  have hadmitted : (generator scope).Admitted Context.remembered? state.context.levels kind e
      state :=
    ⟨Generator.isSome_of_ok _ hcode, hwithin⟩
  have hfaithful : (generator scope).Faithful state.context.current state :=
    Generator.faithful_of_idle hidle
  have hends := Generator.endsAs_lowerWithin (local_generator scope) (absorbing_target scope)
    (fun hcode => hcode) hadmitted hfaithful
  obtain ⟨hanswer, hcomposed⟩ := composed_of_endsAs hends
  change ((generator scope).lower kind e state).1 = _ at hanswer
  rw [hcode] at hanswer
  rw [← hanswer] at hcomposed
  refine ⟨(generator scope).answers state.context.current, hanswer.symm, hcomposed, ?_⟩
  exact Generator.within_of_unrefused (local_generator scope) (absorbing_target scope)
    (fun hcode => hcode) composed_of_endsAs hwithin hfaithful

/-- In `F(F())` the argument is written, and the default value of the inner call is not. -/
theorem lower_composed_nested :
    (State.initial 4).context.Idle ∧
      ((generator .sample).lower .number (.ofText "F(F())") (.initial 4)).1 = .ok "f(f(1.0))" ∧
      (generator .sample).Unrefused Context.remembered? 4 .number (.ofText "F(F())") (.initial 4) ∧
      ∃ answers : Answers,
        answers .number (.ofText "F(F())") = .ok "f(f(1.0))" ∧
        Composed .sample none answers .number (.ofText "F(F())") (.ok "f(f(1.0))") ∧
        (generator .sample).Within Context.remembered? (Follows .sample none answers) 4 .number
          (.ofText "F(F())") (.initial 4) := by
  have hidle : (State.initial 4).context.Idle := Context.idle_fresh none (some 4)
  have hcode : ((generator .sample).lower .number (.ofText "F(F())") (.initial 4)).1
      = .ok "f(f(1.0))" :=
    Except.eq_ok_of_toOption (by decide +kernel)
  have hwithin : (generator .sample).Unrefused Context.remembered? 4 .number (.ofText "F(F())")
      (.initial 4) := by
    decide +kernel
  exact ⟨hidle, hcode, hwithin, lower_composed .sample hidle hcode hwithin⟩

end JavaScript
end EventFormula
