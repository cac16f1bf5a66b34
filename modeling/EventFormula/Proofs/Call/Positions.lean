import EventFormula.Proofs.Call.Alignment

/-!
# Which argument falls on which parameter

The parameters that are not left to code take the written arguments in their order, one each.
Alignment fails if there are too few or too many of them, or if a blank one falls on a parameter
that is needed. What it yields else is `entries`: an argument with a text stands at its parameter,
and the default of the parameter stands everywhere else. That goes for a parameter that is needed,
too, when no argument is left for it.
-/

namespace EventFormula.Call

/-- The parameters that the designer writes. -/
def designed (parameters : List Parameter) : List Parameter :=
  parameters.filter fun parameter => !parameter.codeOnly

/-- What a parameter gets from the argument that falls on it, if one does. A default for which there
is no argument stands at `stop`. -/
def settle (stop : Nat) (parameter : Parameter) : Option Expression → Argument
  | none => ⟨.place parameter.defaultValue stop, false⟩
  | some argument =>
    if argument.isEmpty then ⟨.place parameter.defaultValue argument.base, false⟩
    else ⟨argument, true⟩

/-- No blank argument falls on a parameter that is needed. -/
def Answered (parameters : List Parameter) (written : List Expression) : Prop :=
  ∀ (index : Nat) (parameter : Parameter) (argument : Expression),
    parameters[index]? = some parameter → written[index]? = some argument →
      argument.isEmpty = true → parameter.optional = true

/-- How many parameters before the one at `index` take a written argument. -/
def turn (parameters : List Parameter) (index : Nat) : Nat :=
  (designed (parameters.take index)).length

/-- The arguments that stand at the parameters: one for each, the written ones that are not blank in
their order, and each of those at its parameter. -/
structure Filled (stop : Nat) (parameters : List Parameter) (written : List Expression)
    (filled : List Argument) : Prop where
  length_eq : filled.length = parameters.length
  kept : (filled.filter Argument.written).map Argument.expression
    = written.filter fun argument => !argument.isEmpty
  settled : ∀ (index : Nat) (parameter : Parameter), parameters[index]? = some parameter →
    filled[index]? = some (settle stop parameter
      (if parameter.codeOnly then none else written[turn parameters index]?))

/-- What stands at each parameter, whether that will do or not. -/
def entries (stop : Nat) : List Parameter → List Expression → List Argument
  | [], _ => []
  | parameter :: parameters, written =>
    if parameter.codeOnly then settle stop parameter none :: entries stop parameters written
    else settle stop parameter written.head? :: entries stop parameters written.tail

section Entries
variable {function : String} {stop : Nat} {parameter : Parameter} {parameters : List Parameter}
  {written : List Expression} {arguments : List Argument}

theorem designed_cons_of_code (h : parameter.codeOnly = true) :
    designed (parameter :: parameters) = designed parameters :=
  List.filter_cons_of_neg (by simpa using h)

theorem designed_cons (h : ¬ parameter.codeOnly = true) :
    designed (parameter :: parameters) = parameter :: designed parameters :=
  List.filter_cons_of_pos (by simpa using h)

theorem answered_nil (parameters : List Parameter) : Answered parameters [] :=
  fun _ _ _ _ hargument => by cases hargument

theorem answered_cons {argument : Expression} :
    Answered (parameter :: parameters) (argument :: written) ↔
      (argument.isEmpty = true → parameter.optional = true) ∧ Answered parameters written := by
  constructor
  · intro h
    exact ⟨h 0 parameter argument rfl rfl, fun index => h (index + 1)⟩
  · rintro ⟨hfirst, hothers⟩ index other blank hparameter hargument
    cases index with
    | zero =>
      cases hparameter
      cases hargument
      exact hfirst
    | succ index => exact hothers index other blank hparameter hargument

theorem map_eq_ok_iff {α β : Type} {f : α → β} {result : Except Failure α} {value : β} :
    result.map f = .ok value ↔ ∃ found, result = .ok found ∧ f found = value := by
  refine ⟨map_ok, ?_⟩
  rintro ⟨found, rfl, rfl⟩
  rfl

/-- One entry more, if the others are as they should be. -/
theorem map_cons_eq_ok_iff {first : Argument} {others : List Argument} {goes : Prop}
    {rest : Except Failure (List Argument)}
    (h : ∀ found, rest = .ok found ↔ goes ∧ found = others) :
    rest.map (first :: ·) = .ok arguments ↔ goes ∧ arguments = first :: others := by
  rw [map_eq_ok_iff]
  constructor
  · rintro ⟨found, hfound, rfl⟩
    obtain ⟨hgoes, rfl⟩ := (h found).1 hfound
    exact ⟨hgoes, rfl⟩
  · rintro ⟨hgoes, rfl⟩
    exact ⟨others, (h others).2 ⟨hgoes, rfl⟩, rfl⟩

/-- Nothing but a blank argument on a parameter that is needed keeps the parameters from being
filled. -/
theorem fill_eq_ok_iff : fill function stop parameters written = .ok arguments ↔
    Answered (designed parameters) written ∧ arguments = entries stop parameters written := by
  fun_induction fill function stop parameters written generalizing arguments with
  | case1 written =>
    have hanswered : Answered (designed []) written := fun _ _ _ hparameter => by cases hparameter
    rw [Except.ok.injEq, entries, eq_comm]
    exact (and_iff_right hanswered).symm
  | case2 written parameter parameters hcode ih =>
    rw [designed_cons_of_code hcode, entries, if_pos hcode]
    exact map_cons_eq_ok_iff fun found => ih
  | case3 parameter parameters hcode ih =>
    rw [designed_cons hcode, entries, if_neg hcode]
    refine map_cons_eq_ok_iff fun found => ih.trans ?_
    simp only [answered_nil, List.tail_nil]
  | case4 parameter parameters hcode argument rest hempty ih =>
    have hsome : ¬ argument.isEmpty = true := by simpa using hempty
    rw [designed_cons hcode, entries, if_neg hcode, answered_cons,
      and_iff_right fun hblank => absurd hblank hsome, List.head?_cons, settle, if_neg hsome]
    exact map_cons_eq_ok_iff fun found => ih
  | case5 parameter parameters hcode argument rest hempty hoptional ih =>
    have hblank : argument.isEmpty = true := by simpa using hempty
    rw [designed_cons hcode, entries, if_neg hcode, answered_cons,
      and_iff_right fun _ => hoptional, List.head?_cons, settle, if_pos hblank]
    exact map_cons_eq_ok_iff fun found => ih
  | case6 parameter parameters hcode argument rest hempty hoptional =>
    have hblank : argument.isEmpty = true := by simpa using hempty
    rw [designed_cons hcode, answered_cons]
    constructor
    · intro h
      cases h
    · intro h
      exact absurd (h.1.1 hblank) hoptional

theorem length_entries (stop : Nat) (parameters : List Parameter) (written : List Expression) :
    (entries stop parameters written).length = parameters.length := by
  fun_induction entries stop parameters written with
  | case1 written => rfl
  | case2 parameter parameters written hcode ih => rw [List.length_cons, List.length_cons, ih]
  | case3 parameter parameters written hcode ih => rw [List.length_cons, List.length_cons, ih]

/-- An argument is written if it is not blank, whatever parameter it falls on. -/
theorem filter_settle (stop : Nat) (parameter : Parameter) (argument : Option Expression) :
    ([settle stop parameter argument].filter Argument.written).map Argument.expression
      = argument.toList.filter fun e => !e.isEmpty := by
  cases argument with
  | none => rfl
  | some argument => cases hempty : argument.isEmpty <;> simp [settle, hempty]

theorem filter_settle_cons (stop : Nat) (parameter : Parameter) (argument : Option Expression)
    (arguments : List Argument) :
    ((settle stop parameter argument :: arguments).filter Argument.written).map Argument.expression
      = (argument.toList.filter fun e => !e.isEmpty)
        ++ (arguments.filter Argument.written).map Argument.expression := by
  rw [← filter_settle stop parameter, ← List.map_append, ← List.filter_append,
    List.singleton_append]

/-- If there are not too many of them, all arguments with a text stay, and in order. -/
theorem filter_entries (hmax : written.length ≤ (designed parameters).length) :
    ((entries stop parameters written).filter Argument.written).map Argument.expression
      = written.filter fun argument => !argument.isEmpty := by
  fun_induction entries stop parameters written with
  | case1 written =>
    cases written with
    | nil => rfl
    | cons argument written => cases hmax
  | case2 parameter parameters written hcode ih =>
    rw [designed_cons_of_code hcode] at hmax
    rw [filter_settle_cons, ih hmax]
    rfl
  | case3 parameter parameters written hcode ih =>
    rw [designed_cons hcode] at hmax
    cases written with
    | nil =>
      rw [filter_settle_cons, ih (Nat.zero_le _)]
      rfl
    | cons argument written =>
      rw [filter_settle_cons, ih (Nat.le_of_succ_le_succ hmax), ← List.filter_append]
      rfl

/-- A parameter gets what falls on it when its turn comes. -/
theorem getElem?_entries {index : Nat} (h : parameters[index]? = some parameter) :
    (entries stop parameters written)[index]? = some (settle stop parameter
      (if parameter.codeOnly then none else written[turn parameters index]?)) := by
  fun_induction entries stop parameters written generalizing index with
  | case1 written => cases h
  | case2 first parameters written hcode ih =>
    cases index with
    | zero =>
      cases h
      rw [if_pos hcode]
      rfl
    | succ index =>
      rw [turn, List.take_succ_cons, designed_cons_of_code hcode]
      exact ih h
  | case3 first parameters written hcode ih =>
    cases index with
    | zero =>
      cases h
      rw [if_neg hcode, List.head?_eq_getElem?]
      rfl
    | succ index =>
      have hnext : written[turn (first :: parameters) (index + 1)]?
          = written.tail[turn parameters index]? := by
        rw [turn, List.take_succ_cons, designed_cons hcode, List.length_cons, List.getElem?_tail]
        rfl
      rw [hnext]
      exact ih h

theorem filled_entries (stop : Nat) (hmax : written.length ≤ (designed parameters).length) :
    Filled stop parameters written (entries stop parameters written) where
  length_eq := length_entries stop parameters written
  kept := filter_entries hmax
  settled _ _ h := getElem?_entries h

end Entries

section Align
variable {function : String} {callable : Callable} {given written : List Expression}
  {place : Span} {arguments : List Argument}

/-- Alignment does nothing but count the arguments and fill the parameters. -/
theorem align_eq_ok_iff : align function callable given written place = .ok arguments ↔
    (callable.requiredCount given.length ≤ written.length ∧
      written.length ≤ callable.maxCount given.length ∧
      Answered (callable.written given.length) written) ∧
    arguments = given.map (⟨·, false⟩)
      ++ entries place.stop (callable.parameters.drop given.length) written := by
  rw [align]
  split
  · rename_i hcount
    constructor
    · intro h
      cases h
    · rintro ⟨⟨hrequired, hmax, -⟩, -⟩
      omega
  · rename_i hcount
    rw [map_eq_ok_iff]
    constructor
    · rintro ⟨filled, hfilled, rfl⟩
      obtain ⟨hanswered, rfl⟩ := fill_eq_ok_iff.1 hfilled
      exact ⟨⟨by omega, by omega, hanswered⟩, rfl⟩
    · rintro ⟨⟨-, -, hanswered⟩, rfl⟩
      exact ⟨_, fill_eq_ok_iff.2 ⟨hanswered, rfl⟩, rfl⟩

end Align

/-- Alignment succeeds exactly if there are enough arguments, and not too many, and no blank one
falls on a parameter that is needed. It yields what the head of the call gives, and behind that the
arguments that are written, each of them at its parameter, and defaults at the other parameters. -/
theorem align_positional (function : String) (callable : Callable) (given written : List Expression)
    (place : Span) :
    ((∃ arguments, align function callable given written place = .ok arguments) ↔
      callable.requiredCount given.length ≤ written.length ∧
        written.length ≤ callable.maxCount given.length ∧
        Answered (callable.written given.length) written) ∧
    ∀ arguments, align function callable given written place = .ok arguments →
      ∃ filled, arguments = given.map (⟨·, false⟩) ++ filled ∧
        Filled place.stop (callable.parameters.drop given.length) written filled := by
  constructor
  · constructor
    · rintro ⟨arguments, h⟩
      exact (align_eq_ok_iff.1 h).1
    · intro h
      exact ⟨_, align_eq_ok_iff.2 ⟨h, rfl⟩⟩
  · intro arguments h
    obtain ⟨⟨-, hmax, -⟩, heq⟩ := align_eq_ok_iff.1 h
    exact ⟨_, heq, filled_entries place.stop hmax⟩

end EventFormula.Call
