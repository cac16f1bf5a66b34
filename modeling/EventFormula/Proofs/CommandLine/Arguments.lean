import EventFormula.CommandLine.Options
import Mathlib.Data.List.TakeWhile
import Mathlib.Tactic.Push

/-!
# Arguments one by one

Before a bare `--` an argument with two dashes in front is an option; all others but this `--` are
formulas. An option has the flag of one field at most, so it is read as what it states alone, or
refused for what is wrong with it. Reading the arguments goes on by one `step` for each, and one
more of them is one option or one formula more.
-/

namespace EventFormula.Options

/-- The argument starts with two dashes. -/
def isOption (argument : String) : Bool := "--".toList.isPrefixOf argument.toList

/-- The arguments before a bare `--`. -/
def leading (arguments : List String) : List String := arguments.takeWhile (· != "--")

/-- The options: before a bare `--`, and with two dashes in front. -/
def settings (arguments : List String) : List String := (leading arguments).filter isOption

/-- All other arguments but that `--`. -/
def formulas (arguments : List String) : List String :=
  (leading arguments).filter (!isOption ·) ++ (arguments.dropWhile (· != "--")).tail

/-- The flags of the options that have a value. -/
def flags : List String :=
  ["--project=", "--platform=", "--layout=", "--current=", "--max-depth=", "--color="]

/-- What is wrong with an argument that should be an option. -/
inductive Invalid (argument : String) : UsageError → Prop where
  | unknown (hstring : argument ≠ "--string")
      (hflags : ∀ flag ∈ flags, valueOf? flag argument = none) :
      Invalid argument (.unknownOption argument)
  | depth {value : String} (hflag : valueOf? "--max-depth=" argument = some value)
      (hvalue : depth? value = none) : Invalid argument (.invalidValue "--max-depth" value)
  | color {value : String} (hflag : valueOf? "--color=" argument = some value)
      (hvalue : ColorMode.ofFlag? value = none) : Invalid argument (.invalidValue "--color" value)

section Values
variable {flag other argument value : String}

theorem valueOf?_eq_some_iff :
    valueOf? flag argument = some value ↔ argument.toList = flag.toList ++ value.toList := by
  rw [valueOf?]
  constructor
  · intro h
    split at h
    · next hprefix =>
      obtain ⟨rest, hrest⟩ := List.isPrefixOf_iff_prefix.1 hprefix
      obtain rfl := Option.some.inj h
      rw [String.toList_ofList, ← hrest, List.drop_left]
    · cases h
  · intro h
    have hprefix : flag.toList.isPrefixOf argument.toList = true := by
      rw [h, List.isPrefixOf_iff_prefix]
      exact List.prefix_append ..
    rw [if_pos hprefix, h, List.drop_left, String.ofList_toList]

theorem eq_of_begins :
    ∀ flag ∈ flags, ∀ other ∈ flags, flag.toList <+: other.toList → flag = other := by
  decide +kernel

/-- An argument has the flag of one option. -/
theorem valueOf?_eq_none (hflag : flag ∈ flags) (hother : other ∈ flags) (hne : other ≠ flag)
    (h : valueOf? flag argument = some value) : valueOf? other argument = none := by
  rw [Option.eq_none_iff_forall_ne_some]
  intro second hsecond
  have hfirst := valueOf?_eq_some_iff.1 h
  have hprefix : flag.toList <+: argument.toList := ⟨value.toList, hfirst.symm⟩
  have hprefix' : other.toList <+: argument.toList :=
    ⟨second.toList, (valueOf?_eq_some_iff.1 hsecond).symm⟩
  rcases List.prefix_or_prefix_of_prefix hprefix hprefix' with h | h
  · exact hne (eq_of_begins flag hflag other hother h).symm
  · exact hne (eq_of_begins other hother flag hflag h)

end Values

/-- What a valid option states. -/
def single (argument : String) : Options where
  project := valueOf? "--project=" argument
  platform := valueOf? "--platform=" argument
  layout := valueOf? "--layout=" argument
  text := argument == "--string"
  current := valueOf? "--current=" argument
  maxDepth := (valueOf? "--max-depth=" argument).bind depth?
  color := ((valueOf? "--color=" argument).bind ColorMode.ofFlag?).getD .auto

section Single
variable {flag argument value : String} {error : UsageError}

/-- Only a limit and a colour mode can have a value that is wrong. -/
theorem invalid_iff (hflag : flag ∈ flags) (h : valueOf? flag argument = some value) :
    Invalid argument error ↔
      flag = "--max-depth=" ∧ depth? value = none ∧ error = .invalidValue "--max-depth" value ∨
        flag = "--color=" ∧ ColorMode.ofFlag? value = none ∧
          error = .invalidValue "--color" value := by
  constructor
  · intro hinvalid
    cases hinvalid with
    | unknown hstring hflags =>
      rw [hflags flag hflag] at h
      cases h
    | depth hdepth hvalue =>
      by_cases heq : flag = "--max-depth="
      · subst heq
        obtain rfl := Option.some.inj (h.symm.trans hdepth)
        exact Or.inl ⟨rfl, hvalue, rfl⟩
      · rw [valueOf?_eq_none (by decide) hflag heq hdepth] at h
        cases h
    | color hcolor hvalue =>
      by_cases heq : flag = "--color="
      · subst heq
        obtain rfl := Option.some.inj (h.symm.trans hcolor)
        exact Or.inr ⟨rfl, hvalue, rfl⟩
      · rw [valueOf?_eq_none (by decide) hflag heq hcolor] at h
        cases h
  · rintro (⟨rfl, hvalue, rfl⟩ | ⟨rfl, hvalue, rfl⟩)
    · exact .depth h hvalue
    · exact .color h hvalue

/-- An option is refused for what is wrong with it, and else read as what it states. -/
theorem ofOption_cases (argument : String) :
    (∃ error, Invalid argument error ∧ ofOption argument = .error error) ∨
      (∀ error, ¬ Invalid argument error) ∧ ofOption argument = .ok (single argument) := by
  by_cases hflags : ∀ flag ∈ flags, valueOf? flag argument = none
  · have hnone := hflags
    simp only [flags, List.forall_mem_cons] at hnone
    by_cases hstring : argument = "--string"
    · right
      constructor
      · intro error hinvalid
        cases hinvalid with
        | unknown hne => exact hne hstring
        | depth hflag => simp [hnone] at hflag
        | color hflag => simp [hnone] at hflag
      · simp [ofOption, single, hstring ▸ hnone, hstring]
    · left
      exact ⟨_, .unknown hstring hflags, by simp [ofOption, hstring, hnone]⟩
  · push Not at hflags
    obtain ⟨flag, hflag, hsome⟩ := hflags
    obtain ⟨value, hvalue⟩ := Option.ne_none_iff_exists'.1 hsome
    have hstring : argument ≠ "--string" := by
      rintro rfl
      have hnone : ∀ flag ∈ flags, valueOf? flag "--string" = none := by decide +kernel
      exact hsome (hnone flag hflag)
    -- one flag fits and no other does, which decides every test of `ofOption`
    have hothers : ∀ other ∈ flags, other ≠ flag → valueOf? other argument = none :=
      fun other hother hne => valueOf?_eq_none hflag hother hne hvalue
    simp only [invalid_iff hflag hvalue]
    simp only [flags, List.mem_cons, List.not_mem_nil, or_false] at hflag
    simp only [flags, List.forall_mem_cons] at hothers
    rcases hflag with rfl | rfl | rfl | rfl | rfl | rfl
    · simp_all [ofOption, single]
    · simp_all [ofOption, single]
    · simp_all [ofOption, single]
    · simp_all [ofOption, single]
    · cases hdepth : depth? value <;> simp_all [ofOption, single]
    · cases hmode : ColorMode.ofFlag? value <;> simp_all [ofOption, single]

end Single

/-- One argument more, where `only` says that a bare `--` came before. -/
def step (only : Bool) (options : Options) (argument : String) : Except UsageError Options :=
  if only then options.add { expression := some argument }
  else if argument = "--" then .ok options
  else if isOption argument then (ofOption argument).bind options.add
  else options.add { expression := some argument }

section Append
variable {options : Options} {arguments : List String} {argument : String}

theorem addFormulas_cons : options.addFormulas (argument :: arguments)
    = (options.step true argument).bind fun options => options.addFormulas arguments := rfl

theorem addArguments_cons (hbare : argument ≠ "--") : options.addArguments (argument :: arguments)
    = (options.step false argument).bind fun options => options.addArguments arguments := by
  rw [addArguments, if_neg hbare, step, if_neg Bool.false_ne_true, if_neg hbare, isOption]
  split
  · cases ofOption argument <;> rfl
  · rfl

theorem addFormulas_append : options.addFormulas (arguments ++ [argument])
    = (options.addFormulas arguments).bind fun options => options.step true argument := by
  induction arguments generalizing options with
  | nil =>
    rw [List.nil_append, addFormulas_cons]
    show (options.step true argument).bind Except.ok = options.step true argument
    cases options.step true argument <;> rfl
  | cons first arguments ih =>
    rw [List.cons_append, addFormulas_cons, addFormulas_cons]
    cases options.step true first with
    | error error => rfl
    | ok options => exact ih

theorem addArguments_append : options.addArguments (arguments ++ [argument])
    = (options.addArguments arguments).bind fun options =>
      options.step (arguments.contains "--") argument := by
  induction arguments generalizing options with
  | nil =>
    show options.addArguments [argument] = options.step false argument
    by_cases hbare : argument = "--"
    · subst hbare
      rfl
    · rw [addArguments_cons hbare]
      cases options.step false argument <;> rfl
  | cons first arguments ih =>
    by_cases hbare : first = "--"
    · subst hbare
      exact addFormulas_append
    · have hcontains : (first :: arguments).contains "--" = arguments.contains "--" := by
        simp [Ne.symm hbare]
      rw [hcontains, List.cons_append, addArguments_cons hbare, addArguments_cons hbare]
      cases options.step false first with
      | error error => rfl
      | ok options => exact ih

end Append

section Lists
variable {before after : List String} {argument : String}

theorem bare_isOption : isOption "--" = true := by decide +kernel

theorem ne_bare (h : isOption argument = false) : argument ≠ "--" := by
  rintro rfl
  rw [bare_isOption] at h
  cases h

theorem settings_of_not_mem (h : "--" ∉ before) : settings before = before.filter isOption := by
  rw [settings, leading, List.takeWhile_eq_self_iff.2]
  intro argument hargument
  exact bne_iff_ne.2 (ne_of_mem_of_not_mem hargument h)

theorem settings_of_bare (h : "--" ∉ before) :
    settings (before ++ "--" :: after) = before.filter isOption := by
  rw [settings, leading, List.takeWhile_append_of_pos, List.takeWhile_cons_of_neg (by simp),
    List.append_nil]
  intro argument hargument
  exact bne_iff_ne.2 (ne_of_mem_of_not_mem hargument h)

theorem formulas_of_not_mem (h : "--" ∉ before) :
    formulas before = before.filter (!isOption ·) := by
  have hplain : ∀ argument ∈ before, (argument != "--") = true := fun argument hargument =>
    bne_iff_ne.2 (ne_of_mem_of_not_mem hargument h)
  rw [formulas, leading, List.takeWhile_eq_self_iff.2 hplain, List.dropWhile_eq_nil_iff.2 hplain,
    List.tail_nil, List.append_nil]

theorem formulas_of_bare (h : "--" ∉ before) :
    formulas (before ++ "--" :: after) = before.filter (!isOption ·) ++ after := by
  have hplain : ∀ argument ∈ before, (argument != "--") = true := fun argument hargument =>
    bne_iff_ne.2 (ne_of_mem_of_not_mem hargument h)
  rw [formulas, leading, List.takeWhile_append_of_pos hplain, List.dropWhile_append_of_pos hplain,
    List.takeWhile_cons_of_neg (by simp), List.dropWhile_cons_of_neg (by simp), List.append_nil,
    List.tail_cons]

/-- An argument that is no option, or that stands behind a bare `--`, is a formula more. -/
theorem append_formula (h : "--" ∈ before ∨ isOption argument = false) :
    settings (before ++ [argument]) = settings before ∧
      formulas (before ++ [argument]) = formulas before ++ [argument] := by
  by_cases hbare : "--" ∈ before
  · obtain ⟨first, last, rfl, hfirst⟩ := List.eq_append_cons_of_mem hbare
    rw [List.append_assoc, List.cons_append, settings_of_bare hfirst, settings_of_bare hfirst,
      formulas_of_bare hfirst, formulas_of_bare hfirst, List.append_assoc]
    exact ⟨rfl, rfl⟩
  · have hplain := h.resolve_left hbare
    have hnone : "--" ∉ before ++ [argument] := by
      simp [hbare, Ne.symm (ne_bare hplain)]
    rw [settings_of_not_mem hnone, settings_of_not_mem hbare, formulas_of_not_mem hnone,
      formulas_of_not_mem hbare]
    simp [hplain]

theorem append_bare (hbefore : "--" ∉ before) :
    settings (before ++ ["--"]) = settings before ∧
      formulas (before ++ ["--"]) = formulas before := by
  rw [settings_of_bare hbefore, settings_of_not_mem hbefore, formulas_of_bare hbefore,
    formulas_of_not_mem hbefore, List.append_nil]
  exact ⟨rfl, rfl⟩

theorem append_option (hbefore : "--" ∉ before) (hbare : argument ≠ "--")
    (h : isOption argument = true) :
    settings (before ++ [argument]) = settings before ++ [argument] ∧
      formulas (before ++ [argument]) = formulas before := by
  have hnone : "--" ∉ before ++ [argument] := by
    simp [hbefore, Ne.symm hbare]
  rw [settings_of_not_mem hnone, settings_of_not_mem hbefore, formulas_of_not_mem hnone,
    formulas_of_not_mem hbefore]
  simp [h]

/-- Wherever an argument that is no option stands, it is one formula more and changes no option. -/
theorem insert_formula (h : isOption argument = false) (before after : List String) :
    settings (before ++ argument :: after) = settings (before ++ after) ∧
      (formulas (before ++ argument :: after)).Perm (argument :: formulas (before ++ after)) := by
  by_cases hbefore : "--" ∈ before
  · obtain ⟨first, last, rfl, hfirst⟩ := List.eq_append_cons_of_mem hbefore
    rw [List.append_assoc, List.cons_append, List.append_assoc, List.cons_append,
      settings_of_bare hfirst, settings_of_bare hfirst, formulas_of_bare hfirst,
      formulas_of_bare hfirst, ← List.append_assoc, ← List.append_assoc]
    exact ⟨rfl, List.perm_middle⟩
  · by_cases hafter : "--" ∈ after
    · obtain ⟨first, last, rfl, hfirst⟩ := List.eq_append_cons_of_mem hafter
      have hwith : "--" ∉ before ++ argument :: first := by
        simp [hbefore, hfirst, Ne.symm (ne_bare h)]
      have hwithout : "--" ∉ before ++ first := by
        simp [hbefore, hfirst]
      rw [← List.cons_append, ← List.append_assoc, ← List.append_assoc, settings_of_bare hwith,
        settings_of_bare hwithout, formulas_of_bare hwith, formulas_of_bare hwithout]
      simp [h]
    · have hwith : "--" ∉ before ++ argument :: after := by
        simp [hbefore, hafter, Ne.symm (ne_bare h)]
      have hwithout : "--" ∉ before ++ after := by
        simp [hbefore, hafter]
      rw [settings_of_not_mem hwith, settings_of_not_mem hwithout, formulas_of_not_mem hwith,
        formulas_of_not_mem hwithout]
      simp [h]

end Lists

end EventFormula.Options
