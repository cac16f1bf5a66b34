import EventFormula.Proofs.Call.Positions
import Mathlib.Data.List.Pairwise

/-!
# Parameters that are needed

Arguments are counted, and then they are dealt out in order. So an argument may fall on an optional
parameter while none is left for one behind it that is needed, which then gets its default without a
word. A call that is accepted supplies every parameter that is needed exactly if those without an
argument are all optional. For a function whose optional parameters come last that is always so, and
for no other function.
-/

namespace EventFormula.Call

/-- Every parameter that is needed has an argument with a text. -/
def Supplied (parameters : List Parameter) (filled : List Argument) : Prop :=
  ∀ (index : Nat) (parameter : Parameter) (argument : Argument),
    parameters[index]? = some parameter → filled[index]? = some argument →
      parameter.optional = false → parameter.codeOnly = false →
        argument.written = true ∧ argument.expression.isEmpty = false

/-- What comes behind an optional parameter is optional. -/
def OptionalLast (parameters : List Parameter) : Prop :=
  parameters.Pairwise fun first second => first.optional = true → second.optional = true

/-- The parameters that are needed. -/
def needed (parameters : List Parameter) : List Parameter :=
  parameters.filter fun parameter => !parameter.optional

section Supply
variable {parameter : Parameter} {parameters : List Parameter} {written : List Expression}
  {argument : Argument} {filled : List Argument}

theorem supplied_cons : Supplied (parameter :: parameters) (argument :: filled) ↔
    (parameter.optional = false → parameter.codeOnly = false →
      argument.written = true ∧ argument.expression.isEmpty = false) ∧
    Supplied parameters filled := by
  constructor
  · intro h
    exact ⟨h 0 parameter argument rfl rfl, fun index => h (index + 1)⟩
  · rintro ⟨hfirst, hothers⟩ index other entry hparameter hentry
    cases index with
    | zero =>
      cases hparameter
      cases hentry
      exact hfirst
    | succ index => exact hothers index other entry hparameter hentry

/-- If no blank argument falls on a parameter that is needed, what counts are the parameters on
which none falls. -/
theorem supplied_entries_iff (stop : Nat) (hanswered : Answered (designed parameters) written) :
    Supplied parameters (entries stop parameters written) ↔
      ∀ parameter ∈ (designed parameters).drop written.length, parameter.optional = true := by
  fun_induction entries stop parameters written with
  | case1 written =>
    have hnone : (designed []).drop written.length = [] := List.drop_nil
    rw [hnone]
    exact ⟨fun _ _ hmem => (by cases hmem), fun _ _ _ _ hparameter => (by cases hparameter)⟩
  | case2 parameter parameters written hcode ih =>
    rw [designed_cons_of_code hcode] at hanswered ⊢
    rw [supplied_cons, ih hanswered]
    exact and_iff_right fun _ hdesigned => by rw [hcode] at hdesigned; cases hdesigned
  | case3 parameter parameters written hcode ih =>
    rw [designed_cons hcode] at hanswered ⊢
    rw [supplied_cons]
    cases written with
    | nil =>
      rw [ih (answered_nil _), List.length_nil, List.drop_zero, List.forall_mem_cons]
      refine and_congr_left fun _ => ⟨fun h => ?_, fun h hneeded => ?_⟩
      · cases hoptional : parameter.optional with
        | true => rfl
        | false => cases (h hoptional (by simpa using hcode)).1
      · rw [h] at hneeded
        cases hneeded
    | cons argument written =>
      obtain ⟨hfirst, hothers⟩ := answered_cons.1 hanswered
      rw [List.length_cons, List.drop_succ_cons]
      refine (and_iff_right fun hneeded _ => ?_).trans (ih hothers)
      have hsome : ¬ argument.isEmpty = true := fun hblank => by
        rw [hfirst hblank] at hneeded
        cases hneeded
      rw [List.head?_cons, settle, if_neg hsome]
      exact ⟨rfl, by simpa using hsome⟩

end Supply

section Order
variable {parameters : List Parameter}

/-- If the optional parameters come last, they alone are without an argument. -/
theorem OptionalLast.drop (h : OptionalLast parameters) {count : Nat}
    (hcount : (needed parameters).length ≤ count) :
    ∀ parameter ∈ parameters.drop count, parameter.optional = true := by
  induction parameters generalizing count with
  | nil =>
    rw [List.drop_nil]
    exact fun _ hmem => by cases hmem
  | cons first parameters ih =>
    obtain ⟨hfirst, hothers⟩ := List.pairwise_cons.1 h
    cases hoptional : first.optional with
    | true =>
      intro parameter hmem
      rcases List.mem_cons.1 (List.mem_of_mem_drop hmem) with rfl | hmem
      · exact hoptional
      · exact hfirst parameter hmem hoptional
    | false =>
      have hneeded : needed (first :: parameters) = first :: needed parameters :=
        List.filter_cons_of_pos (by rw [hoptional]; rfl)
      rw [hneeded, List.length_cons] at hcount
      obtain ⟨count, rfl⟩ : ∃ less, count = less + 1 := ⟨count - 1, by omega⟩
      rw [List.drop_succ_cons]
      exact ih hothers (Nat.le_of_succ_le_succ hcount)

/-- If those that are needed are the first ones, the optional ones come last. -/
theorem optionalLast_of_drop
    (h : ∀ parameter ∈ parameters.drop (needed parameters).length, parameter.optional = true) :
    OptionalLast parameters := by
  -- none of those that are needed is behind the first ones, so these are as many as they are
  have hfront : ∀ parameter ∈ parameters.take (needed parameters).length,
      (!parameter.optional) = true := by
    have hback : needed (parameters.drop (needed parameters).length) = [] :=
      List.filter_eq_nil_iff.2 fun parameter hmem => by simp [h parameter hmem]
    have hsplit : needed parameters = needed (parameters.take (needed parameters).length)
        ++ needed (parameters.drop (needed parameters).length) := by
      rw [needed, needed, needed, ← List.filter_append, List.take_append_drop]
    rw [hback, List.append_nil] at hsplit
    refine List.length_filter_eq_length_iff.1 (Nat.le_antisymm (List.length_filter_le ..) ?_)
    change _ ≤ (needed (parameters.take (needed parameters).length)).length
    rw [← hsplit, List.length_take]
    exact Nat.min_le_left ..
  rw [OptionalLast, ← List.take_append_drop (needed parameters).length parameters,
    List.pairwise_append]
  refine ⟨List.pairwise_of_forall_mem_list ?_, List.pairwise_of_forall_mem_list ?_, ?_⟩
  · intro first hfirst second _ hoptional
    have hneeded := hfront first hfirst
    rw [hoptional] at hneeded
    cases hneeded
  · exact fun _ _ second hsecond _ => h second hsecond
  · exact fun _ _ second hsecond _ => h second hsecond

end Order

section Align
variable {function : String} {callable : Callable} {given written : List Expression}
  {place : Span} {arguments : List Argument}

theorem supplied_iff_of_align
    (h : align function callable given written place = .ok arguments) :
    Supplied (callable.parameters.drop given.length) (arguments.drop given.length) ↔
      ∀ parameter ∈ (callable.written given.length).drop written.length,
        parameter.optional = true := by
  obtain ⟨⟨-, -, hanswered⟩, rfl⟩ := align_eq_ok_iff.1 h
  rw [List.drop_left' (List.length_map ..)]
  exact supplied_entries_iff place.stop hanswered

/-- As many arguments as there are parameters that are needed will do, if they have a text. -/
theorem align_replicate (function : String) (callable : Callable) (given : List Expression)
    (place : Span) {e : Expression} (he : e.isEmpty = false) :
    ∃ arguments, align function callable given
      (List.replicate (callable.requiredCount given.length) e) place = .ok arguments := by
  refine ⟨_, align_eq_ok_iff.2 ⟨⟨?_, ?_, ?_⟩, rfl⟩⟩
  · exact Nat.le_of_eq List.length_replicate.symm
  · rw [List.length_replicate]
    exact callable.requiredCount_le_maxCount given.length
  · intro index parameter argument _ hargument hblank
    rw [(List.eq_of_mem_replicate (List.mem_of_getElem? hargument) : argument = e), he] at hblank
    cases hblank

end Align

/-- A call that is accepted supplies every parameter that is needed if, and only if, the parameters
on which no argument falls are optional. Whatever is written, that is so exactly for the functions
whose optional parameters come last. -/
theorem supplied_iff_optionalLast (function : String) (callable : Callable)
    (given : List Expression) (place : Span) :
    (∀ written arguments, align function callable given written place = .ok arguments →
      (Supplied (callable.parameters.drop given.length) (arguments.drop given.length) ↔
        ∀ parameter ∈ (callable.written given.length).drop written.length,
          parameter.optional = true)) ∧
    ((∀ written arguments, align function callable given written place = .ok arguments →
        Supplied (callable.parameters.drop given.length) (arguments.drop given.length)) ↔
      OptionalLast (callable.written given.length)) := by
  refine ⟨fun written arguments => supplied_iff_of_align, ?_, ?_⟩
  · intro h
    have htext : (Expression.ofText "1").isEmpty = false := rfl
    obtain ⟨arguments, hok⟩ := align_replicate function callable given place htext
    have hoptional := (supplied_iff_of_align hok).1 (h _ _ hok)
    rw [List.length_replicate] at hoptional
    exact optionalLast_of_drop hoptional
  · intro h written arguments hok
    exact (supplied_iff_of_align hok).2 (h.drop (align_eq_ok_iff.1 hok).1.1)

/-- With an optional parameter in front of one that is needed, a single argument is accepted. It
falls on the optional one, and nothing is left for the other but its default, which is empty. -/
theorem not_supplied_of_optional_first :
    let callable : Callable :=
      { parameters := [{ kind := .number, optional := true, defaultValue := "5" },
          { kind := .number }] }
    align "F" callable [] [.place "1" 2] ⟨0, 4⟩
        = .ok [⟨.place "1" 2, true⟩, ⟨.place "" 4, false⟩] ∧
      ¬ Supplied callable.parameters [⟨.place "1" 2, true⟩, ⟨.place "" 4, false⟩] := by
  refine ⟨rfl, fun h => ?_⟩
  have hwritten := (h 1 { kind := .number } ⟨.place "" 4, false⟩ rfl rfl rfl rfl).1
  cases hwritten

end EventFormula.Call
