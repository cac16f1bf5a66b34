import EventFormula.Trace

/-!
# Aligned arguments

What alignment yields has the arguments that the head of the call gives, and then one for each
further parameter. None of those that are written is empty, and each of them that has to be a
formula is announced. So what is announced are the formulas among the written arguments, and
alignment only fails for their number or for a blank one that is needed.
-/

namespace EventFormula.Call

theorem map_ok {α β : Type} {f : α → β} {result : Except Failure α} {value : β}
    (h : result.map f = .ok value) : ∃ found, result = .ok found ∧ f found = value := by
  cases result with
  | ok found => exact ⟨found, rfl, Except.ok.inj h⟩
  | error failure => cases h

/-- There is an argument for each parameter, and those that are written are not empty. -/
theorem fill_spec {function : String} {stop : Nat} {parameters : List Parameter}
    {written : List Expression} {arguments : List Argument}
    (h : fill function stop parameters written = .ok arguments) :
    arguments.length = parameters.length ∧
      ∀ argument ∈ arguments, argument.written = true → argument.expression.isEmpty = false := by
  -- one argument more, which is not written or else not empty
  have next {first : Argument} {rest : Except Failure (List Argument)} {arguments : List Argument}
      {parameters : List Parameter}
      (hfirst : first.written = true → first.expression.isEmpty = false)
      (h : rest.map (first :: ·) = .ok arguments)
      (ih : ∀ {others}, rest = .ok others → others.length = parameters.length ∧
        ∀ argument ∈ others, argument.written = true → argument.expression.isEmpty = false) :
      arguments.length = parameters.length + 1 ∧
        ∀ argument ∈ arguments, argument.written = true →
          argument.expression.isEmpty = false := by
    obtain ⟨others, hothers, rfl⟩ := map_ok h
    obtain ⟨hlength, hwritten⟩ := ih hothers
    constructor
    · exact congrArg Nat.succ hlength
    · intro argument hmem
      rcases List.mem_cons.1 hmem with rfl | hmem
      · exact hfirst
      · exact hwritten argument hmem
  fun_induction fill function stop parameters written generalizing arguments with
  | case1 => cases h; exact ⟨rfl, fun _ hmem => by cases hmem⟩
  | case2 _ _ _ _ ih => exact next (fun hw => by cases hw) h ih
  | case3 _ _ _ ih => exact next (fun hw => by cases hw) h ih
  | case4 _ _ _ _ _ hempty ih =>
    exact next (fun _ => by simpa only [Bool.not_eq_true'] using hempty) h ih
  | case5 _ _ _ _ _ _ _ ih => exact next (fun hw => by cases hw) h ih
  | case6 => cases h

/-- The given arguments come first, none of them written, and the others belong to the further
parameters. -/
theorem align_spec {function : String} {callable : Callable} {given written : List Expression}
    {place : Span} {arguments : List Argument}
    (h : align function callable given written place = .ok arguments) :
    ∃ filled, arguments = given.map (⟨·, false⟩) ++ filled ∧
      filled.length = (callable.parameters.drop given.length).length ∧
      ∀ argument ∈ filled, argument.written = true → argument.expression.isEmpty = false := by
  rw [align] at h
  split at h
  · cases h
  · obtain ⟨filled, hfilled, rfl⟩ := map_ok h
    exact ⟨filled, rfl, fill_spec hfilled⟩

theorem mem_zip_of_mem_zip_drop {α β : Type} {count : Nat} {first : List α} {second : List β}
    {pair : α × β} (h : pair ∈ (first.drop count).zip (second.drop count)) :
    pair ∈ first.zip second := by
  rw [List.zip, ← List.drop_zipWith] at h
  exact List.mem_of_mem_drop h

/-- An argument that is a formula and written is announced before the call. -/
theorem argument_mem_checks {callable : Callable} {arguments : List Argument} {count : Nat}
    {parameter : Parameter} {argument : Argument} {kind : Expression.Kind}
    (hmem : (parameter, argument) ∈
      (callable.parameters.drop count).zip (arguments.drop count))
    (hkind : parameter.kind.expressionKind? = some kind) (hwritten : argument.written = true) :
    .argument kind argument.expression ∈ checks callable arguments := by
  refine List.mem_filterMap.2 ⟨(parameter, argument), mem_zip_of_mem_zip_drop hmem, ?_⟩
  simp only [hwritten, if_true, hkind, Option.map_some]

/-- An argument for a parameter that asks for a formula, with the kind that is asked for, unless it
is blank. -/
def formula? : Parameter × Expression → Option (Expression.Kind × Expression) :=
  fun (parameter, argument) =>
    if argument.isEmpty then none
    else parameter.kind.expressionKind?.map fun kind => (kind, argument)

/-- The written arguments that are formulas. -/
def formulas (parameters : List Parameter) (written : List Expression) :
    List (Expression.Kind × Expression) :=
  (parameters.zip written).filterMap formula?

/-- The announcement of a formula. -/
def announce (formula : Expression.Kind × Expression) : Event := .argument formula.1 formula.2

/-- The announcement of an argument, if it is a formula that is written. -/
def check? : Parameter × Argument → Option Event := fun (parameter, argument) =>
  if argument.written then
    parameter.kind.expressionKind?.map fun kind => .argument kind argument.expression
  else none

theorem formulas_sublist (parameters : List Parameter) (written : List Expression) :
    ((formulas parameters written).map Prod.snd).Sublist
      (written.filter fun e => !e.isEmpty) := by
  induction parameters generalizing written with
  | nil => exact List.nil_sublist _
  | cons parameter parameters ih =>
    cases written with
    | nil => exact List.nil_sublist _
    | cons argument written =>
      have hrest := ih written
      rw [formulas, List.zip_cons_cons, List.filterMap_cons]
      cases hempty : argument.isEmpty with
      | true => simpa [formulas, formula?, hempty] using hrest
      | false =>
        cases hkind : parameter.kind.expressionKind? with
        | none => simpa [formulas, formula?, hempty, hkind] using hrest.cons argument
        | some kind => simpa [formulas, formula?, hempty, hkind] using hrest

theorem filterMap_fill {function : String} {stop : Nat} {parameters : List Parameter}
    {written : List Expression} {arguments : List Argument}
    (h : fill function stop parameters written = .ok arguments) :
    (parameters.zip arguments).filterMap check?
      = (formulas (parameters.filter fun parameter => !parameter.codeOnly) written).map
        announce := by
  fun_induction fill function stop parameters written generalizing arguments with
  | case1 =>
    cases h
    rfl
  | case2 written parameter parameters hcode ih =>
    obtain ⟨others, hothers, rfl⟩ := map_ok h
    have hrest := ih hothers
    simpa [check?, hcode] using hrest
  | case3 parameter parameters hcode ih =>
    obtain ⟨others, hothers, rfl⟩ := map_ok h
    have hrest := ih hothers
    simpa [check?, hcode, formulas] using hrest
  | case4 parameter parameters hcode argument rest hempty ih =>
    obtain ⟨others, hothers, rfl⟩ := map_ok h
    have hrest := ih hothers
    have hsome : argument.isEmpty = false := by simpa using hempty
    cases hkind : parameter.kind.expressionKind? with
    | none => simpa [check?, hcode, formulas, formula?, hsome, hkind] using hrest
    | some kind => simpa [check?, hcode, formulas, formula?, hsome, hkind, announce] using hrest
  | case5 parameter parameters hcode argument rest hempty hoptional ih =>
    obtain ⟨others, hothers, rfl⟩ := map_ok h
    have hrest := ih hothers
    have hblank : argument.isEmpty = true := by simpa using hempty
    simpa [check?, hcode, formulas, formula?, hblank] using hrest
  | case6 => cases h

/-- What the head of a call gives is not announced. -/
theorem filterMap_given (given : List Expression) (parameters : List Parameter)
    (filled : List Argument) :
    (parameters.zip (given.map (⟨·, false⟩) ++ filled)).filterMap check?
      = ((parameters.drop given.length).zip filled).filterMap check? := by
  induction given generalizing parameters with
  | nil => rfl
  | cons e given ih =>
    cases parameters with
    | nil => rfl
    | cons parameter parameters =>
      have hrest := ih parameters
      simpa [check?] using hrest

/-- A call announces the formulas among its written arguments. -/
theorem checks_eq_formulas {function : String} {callable : Callable}
    {given written : List Expression} {place : Span} {arguments : List Argument}
    (h : align function callable given written place = .ok arguments) :
    checks callable arguments
      = (formulas (callable.written given.length) written).map announce := by
  rw [align] at h
  split at h
  · cases h
  · obtain ⟨filled, hfilled, rfl⟩ := map_ok h
    exact (filterMap_given given callable.parameters filled).trans (filterMap_fill hfilled)

/-- An argument that has to be there is blank. -/
def Missing (parameters : List Parameter) (written : List Expression) (argument : Expression) :
    Prop :=
  ∃ parameter, (parameter, argument) ∈ parameters.zip written ∧ parameter.optional = false ∧
    argument.isEmpty = true

theorem map_error {α β : Type} {f : α → β} {result : Except Failure α} {failure : Failure}
    (h : result.map f = .error failure) : result = .error failure := by
  cases result with
  | ok found => cases h
  | error other =>
    cases h
    rfl

theorem missing_of_fill {function : String} {stop : Nat} {parameters : List Parameter}
    {written : List Expression} {failure : Failure}
    (h : fill function stop parameters written = .error failure) :
    ∃ argument, failure.span = argument.span ∧
      Missing (parameters.filter fun parameter => !parameter.codeOnly) written argument := by
  -- a parameter and an argument more in front leave what is missing behind them
  have behind {parameters : List Parameter} {written : List Expression} {parameter : Parameter}
      {first : Expression} (hcode : ¬ parameter.codeOnly = true)
      (h : ∃ argument, failure.span = argument.span ∧
        Missing (parameters.filter fun parameter => !parameter.codeOnly) written argument) :
      ∃ argument, failure.span = argument.span ∧
        Missing ((parameter :: parameters).filter fun parameter => !parameter.codeOnly)
          (first :: written) argument := by
    obtain ⟨argument, hspan, other, hmem, hneeded⟩ := h
    refine ⟨argument, hspan, other, ?_, hneeded⟩
    rw [List.filter_cons_of_pos (by simpa using hcode), List.zip_cons_cons]
    exact List.mem_cons_of_mem _ hmem
  fun_induction fill function stop parameters written with
  | case1 => cases h
  | case2 written parameter parameters hcode ih =>
    rw [List.filter_cons_of_neg (by simpa using hcode)]
    exact ih (map_error h)
  | case3 parameter parameters hcode ih =>
    obtain ⟨argument, -, other, hmem, -⟩ := ih (map_error h)
    rw [List.zip_nil_right] at hmem
    cases hmem
  | case4 parameter parameters hcode argument rest hempty ih =>
    exact behind hcode (ih (map_error h))
  | case5 parameter parameters hcode argument rest hempty hoptional ih =>
    exact behind hcode (ih (map_error h))
  | case6 parameter parameters hcode argument rest hempty hoptional =>
    cases h
    refine ⟨argument, rfl, parameter, ?_, by simpa using hoptional, by simpa using hempty⟩
    rw [List.filter_cons_of_pos (by simpa using hcode), List.zip_cons_cons]
    exact List.mem_cons_self

/-- A call whose arguments do not fit has a wrong number of them, or one of them is missing. -/
theorem align_error {function : String} {callable : Callable} {given written : List Expression}
    {place : Span} {failure : Failure}
    (h : align function callable given written place = .error failure) :
    failure.span = place ∨ ∃ argument, failure.span = argument.span ∧
      Missing (callable.written given.length) written argument := by
  rw [align] at h
  split at h
  · cases h
    exact Or.inl rfl
  · exact Or.inr (missing_of_fill (map_error h))

end EventFormula.Call
