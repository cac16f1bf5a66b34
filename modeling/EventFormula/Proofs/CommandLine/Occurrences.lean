import EventFormula.Proofs.CommandLine.Arguments
import Mathlib.Data.List.Induction

/-!
# Options that occur more than once

Every option before a bare `--` may occur several times, and an argument that is none is the
formula, of which there may be one. `stated` says what the arguments state in terms of the last
occurrence of each option, and `Offends` which argument is one too many or no option at all. The
main statement, `parse_stated`, says that the arguments are refused for the first one that offends,
and otherwise yield what they state. The last occurrence counts for every option but the colour
mode: there `auto` does not take back what was set before it.
-/

namespace EventFormula.Options

/-- The value of the last occurrence of an option. -/
def last? (flag : String) (arguments : List String) : Option String :=
  ((settings arguments).filterMap (valueOf? flag)).getLast?

/-- The colour modes, one for each occurrence of the option. -/
def modes (arguments : List String) : List ColorMode :=
  (settings arguments).filterMap fun argument =>
    (valueOf? "--color=" argument).bind ColorMode.ofFlag?

/-- What the arguments state: of each option the last occurrence, of the colour modes the last one
that is not `auto`. -/
def stated (arguments : List String) : Options where
  project := last? "--project=" arguments
  platform := last? "--platform=" arguments
  layout := last? "--layout=" arguments
  text := (settings arguments).contains "--string"
  current := last? "--current=" arguments
  maxDepth := (last? "--max-depth=" arguments).bind depth?
  color := ((modes arguments).filter (· ≠ .auto)).getLast?.getD .auto
  expression := (formulas arguments).head?

/-- What is wrong with an argument behind those before it: it should be an option and is not a valid
one, or it is a second formula. -/
inductive Offends (before : List String) (argument : String) : UsageError → Prop where
  | invalid {error : UsageError} (hbefore : "--" ∉ before) (hbare : argument ≠ "--")
      (hoption : isOption argument = true) (h : Invalid argument error) :
      Offends before argument error
  | extra (hformula : "--" ∈ before ∨ isOption argument = false) (hbefore : formulas before ≠ []) :
      Offends before argument (.extraArgument argument)

/-- No argument offends. -/
def Clean (arguments : List String) : Prop :=
  ∀ before argument after, arguments = before ++ argument :: after →
    ∀ error, ¬ Offends before argument error

/-- The first argument that offends does so with that error. -/
def FirstOffense (arguments : List String) (error : UsageError) : Prop :=
  ∃ before argument after, arguments = before ++ argument :: after ∧ Clean before ∧
    Offends before argument error

section Stated
variable {options : Options} {before arguments : List String} {argument : String}

theorem add_single : options.add (single argument) = .ok (options.merge (single argument)) := by
  rw [add]
  split
  · next heq => cases heq
  · rfl

theorem add_formula : options.add { expression := some argument }
    = if options.expression = none then .ok { options with expression := some argument }
      else .error (.extraArgument argument) := by
  rw [add]
  cases hexpression : options.expression with
  | none => simp [merge]
  | some formula => rfl

/-- The options alone state everything but the formula. -/
theorem stated_of_settings (h : settings arguments = settings before) :
    stated arguments = { stated before with expression := (formulas arguments).head? } := by
  simp only [stated, last?, modes, h]

theorem getLast?_filterMap_append {α β : Type} (f : α → Option β) (as : List α) (a : α) :
    ((as ++ [a]).filterMap f).getLast? = (f a).or (as.filterMap f).getLast? := by
  rw [List.filterMap_append, List.getLast?_append]
  cases h : f a <;> simp [h]

/-- A valid option is merged into what was stated before. -/
theorem stated_append (hvalid : ∀ error, ¬ Invalid argument error)
    (hsettings : settings (before ++ [argument]) = settings before ++ [argument])
    (hformulas : formulas (before ++ [argument]) = formulas before) :
    stated (before ++ [argument]) = (stated before).merge (single argument) := by
  have hlast (flag : String) :
      last? flag (before ++ [argument]) = (valueOf? flag argument).or (last? flag before) := by
    rw [last?, hsettings, getLast?_filterMap_append, last?]
  have hdepth : (last? "--max-depth=" (before ++ [argument])).bind depth?
      = ((valueOf? "--max-depth=" argument).bind depth?).or
        ((last? "--max-depth=" before).bind depth?) := by
    rw [hlast]
    cases hflag : valueOf? "--max-depth=" argument with
    | none => rfl
    | some value =>
      cases hvalue : depth? value with
      | none => exact absurd (.depth hflag hvalue) (hvalid _)
      | some depth => simp [hvalue]
  have hcolor : ((modes (before ++ [argument])).filter (· ≠ .auto)).getLast?.getD .auto
      = if ((valueOf? "--color=" argument).bind ColorMode.ofFlag?).getD .auto = .auto
        then ((modes before).filter (· ≠ .auto)).getLast?.getD .auto
        else ((valueOf? "--color=" argument).bind ColorMode.ofFlag?).getD .auto := by
    rw [modes, hsettings, List.filterMap_append, List.filter_append, List.getLast?_append]
    cases hmode : (valueOf? "--color=" argument).bind ColorMode.ofFlag? with
    | none => simp [hmode, modes]
    | some mode => cases mode <;> simp [hmode, modes]
  have htext : (settings (before ++ [argument])).contains "--string"
      = ((settings before).contains "--string" || argument == "--string") := by
    rw [hsettings, List.contains_append, List.contains_cons, List.contains_nil, Bool.or_false,
      BEq.comm]
  rw [stated, hlast, hlast, hlast, hlast, hdepth, hcolor, htext, hformulas]
  rfl

end Stated

section Run
variable {arguments before : List String} {argument : String} {error other : UsageError}

/-- A formula offends if there is one before it. -/
theorem offends_formula (h : "--" ∈ before ∨ isOption argument = false) :
    Offends before argument error ↔ formulas before ≠ [] ∧ error = .extraArgument argument := by
  constructor
  · rintro (⟨hbefore, -, hoption, -⟩ | ⟨-, hbefore⟩)
    · rw [h.resolve_left hbefore] at hoption
      cases hoption
    · exact ⟨hbefore, rfl⟩
  · rintro ⟨hbefore, rfl⟩
    exact .extra h hbefore

/-- An option offends if it is not valid. -/
theorem offends_option (hbefore : "--" ∉ before) (hoption : isOption argument = true) :
    Offends before argument error ↔ argument ≠ "--" ∧ Invalid argument error := by
  constructor
  · rintro (⟨-, hbare, -, hinvalid⟩ | ⟨hformula, -⟩)
    · exact ⟨hbare, hinvalid⟩
    · rw [hformula.resolve_left hbefore] at hoption
      cases hoption
  · rintro ⟨hbare, hinvalid⟩
    exact .invalid hbefore hbare hoption hinvalid

/-- Behind arguments that are stated one argument more offends, or it is stated as well. -/
theorem step_cases (before : List String) (argument : String) :
    (∃ error, Offends before argument error ∧
        (stated before).step (before.contains "--") argument = .error error) ∨
      (∀ error, ¬ Offends before argument error) ∧
        (stated before).step (before.contains "--") argument
          = .ok (stated (before ++ [argument])) := by
  by_cases hformula : "--" ∈ before ∨ isOption argument = false
  · have hstep : (stated before).step (before.contains "--") argument
        = (stated before).add { expression := some argument } := by
      rw [step]
      by_cases hbefore : "--" ∈ before
      · rw [if_pos (List.contains_iff_mem.2 hbefore)]
      · have hplain := hformula.resolve_left hbefore
        rw [if_neg (fun h => hbefore (List.contains_iff_mem.1 h)), if_neg (ne_bare hplain), hplain]
        rfl
    obtain ⟨hsettings, hformulas⟩ := append_formula hformula
    rw [hstep, add_formula]
    by_cases hempty : formulas before = []
    · right
      constructor
      · intro error hoffends
        exact ((offends_formula hformula).1 hoffends).1 hempty
      · rw [stated_of_settings hsettings, hformulas, hempty, if_pos (by simp [stated, hempty])]
        rfl
    · left
      refine ⟨_, .extra hformula hempty, if_neg ?_⟩
      simpa [stated] using hempty
  · push Not at hformula
    obtain ⟨hbefore, hoption⟩ := hformula
    replace hoption : isOption argument = true := Bool.not_eq_false _ ▸ hoption
    rw [step, if_neg (fun h => hbefore (List.contains_iff_mem.1 h))]
    by_cases hbare : argument = "--"
    · right
      refine ⟨fun error h => ((offends_option hbefore hoption).1 h).1 hbare, ?_⟩
      rw [if_pos hbare, hbare]
      obtain ⟨hsettings, hformulas⟩ := append_bare hbefore
      rw [stated_of_settings hsettings, hformulas]
      rfl
    · rw [if_neg hbare, if_pos hoption]
      obtain ⟨hsettings, hformulas⟩ := append_option hbefore hbare hoption
      rcases ofOption_cases argument with ⟨error, hinvalid, heq⟩ | ⟨hvalid, heq⟩
      · left
        exact ⟨error, .invalid hbefore hbare hoption hinvalid, by rw [heq]; rfl⟩
      · right
        refine ⟨fun error h => hvalid error ((offends_option hbefore hoption).1 h).2, ?_⟩
        rw [heq, stated_append hvalid hsettings hformulas]
        exact add_single

theorem clean_nil : Clean [] := by
  intro before argument after h
  exact absurd h (by simp)

theorem clean_append :
    Clean (before ++ [argument]) ↔ Clean before ∧ ∀ error, ¬ Offends before argument error := by
  constructor
  · intro h
    constructor
    · intro first other last hsplit
      exact h first other (last ++ [argument]) (by rw [hsplit]; simp)
    · exact h before argument [] rfl
  · rintro ⟨hbefore, hlast⟩ first other rest hsplit
    rcases List.eq_nil_or_concat rest with rfl | ⟨rest, last, rfl⟩
    · obtain ⟨rfl, heq⟩ := List.append_inj' hsplit rfl
      cases heq
      exact hlast
    · have hconcat : before ++ [argument] = (first ++ other :: rest) ++ [last] := by
        simpa using hsplit
      exact hbefore first other rest (List.append_inj' hconcat rfl).1

/-- The arguments are refused for the first one that offends, or none does and they yield what they
state. -/
theorem parse_cases (arguments : List String) :
    (∃ error, FirstOffense arguments error ∧ parse arguments = .error error) ∨
      Clean arguments ∧ parse arguments = .ok (stated arguments) := by
  induction arguments using List.reverseRecOn with
  | nil => exact Or.inr ⟨clean_nil, rfl⟩
  | append_singleton before argument ih =>
    have hparse : parse (before ++ [argument]) = (parse before).bind fun options =>
        options.step (before.contains "--") argument := addArguments_append
    rcases ih with ⟨error, ⟨first, other, last, hsplit, hoffends⟩, heq⟩ | ⟨hclean, heq⟩
    · left
      refine ⟨error, ⟨first, other, last ++ [argument], ?_, hoffends⟩, ?_⟩
      · rw [hsplit]
        simp
      · rw [hparse, heq]
        rfl
    · rw [heq] at hparse
      rcases step_cases before argument with ⟨error, hoffends, hstep⟩ | ⟨hnone, hstep⟩
      · left
        exact ⟨error, ⟨before, argument, [], rfl, hclean, hoffends⟩, hparse.trans hstep⟩
      · right
        exact ⟨clean_append.2 ⟨hclean, hnone⟩, hparse.trans hstep⟩

theorem Invalid.unique (h : Invalid argument error) (hother : Invalid argument other) :
    error = other := by
  cases h with
  | unknown hstring hflags =>
    cases hother with
    | unknown => rfl
    | depth hflag => cases (hflags "--max-depth=" (by decide)).symm.trans hflag
    | color hflag => cases (hflags "--color=" (by decide)).symm.trans hflag
  | depth hflag hvalue =>
    rcases (invalid_iff (by decide) hflag).1 hother with ⟨-, -, rfl⟩ | ⟨heq, -, -⟩
    · rfl
    · exact absurd heq (by decide)
  | color hflag hvalue =>
    rcases (invalid_iff (by decide) hflag).1 hother with ⟨heq, -, -⟩ | ⟨-, -, rfl⟩
    · exact absurd heq (by decide)
    · rfl

theorem Offends.unique (h : Offends before argument error)
    (hother : Offends before argument other) : error = other := by
  by_cases hformula : "--" ∈ before ∨ isOption argument = false
  · rw [((offends_formula hformula).1 h).2, ((offends_formula hformula).1 hother).2]
  · obtain ⟨hbefore, hoption⟩ := not_or.1 hformula
    have hinvalid {error : UsageError} (h : Offends before argument error) :
        Invalid argument error :=
      ((offends_option hbefore (Bool.not_eq_false _ ▸ hoption)).1 h).2
    exact (hinvalid h).unique (hinvalid hother)

/-- There is one first offense. -/
theorem FirstOffense.unique (h : FirstOffense arguments error)
    (hother : FirstOffense arguments other) : error = other := by
  obtain ⟨first, argument, last, rfl, hclean, hoffends⟩ := h
  obtain ⟨second, argument', rest, hsplit, hclean', hoffends'⟩ := hother
  -- were one of them in front of the other, it would offend among clean arguments
  rcases List.append_eq_append_iff.1 hsplit with ⟨more, rfl, hmore⟩ | ⟨more, rfl, hmore⟩
  · cases more with
    | nil =>
      cases hmore
      rw [List.append_nil] at hoffends'
      exact hoffends.unique hoffends'
    | cons head more =>
      cases hmore
      exact absurd hoffends (hclean' first argument more rfl error)
  · cases more with
    | nil =>
      cases hmore
      rw [List.append_nil] at hoffends
      exact hoffends.unique hoffends'
    | cons head more =>
      cases hmore
      exact absurd hoffends' (hclean second argument' more rfl other)

theorem parse_eq_ok_iff {options : Options} :
    parse arguments = .ok options ↔ Clean arguments ∧ options = stated arguments := by
  rcases parse_cases arguments with ⟨error, ⟨before, argument, after, hsplit, -, hoffends⟩, heq⟩ | h
  · rw [heq]
    refine iff_of_false nofun ?_
    rintro ⟨hclean, -⟩
    exact hclean before argument after hsplit error hoffends
  · rw [h.2, Except.ok.injEq, eq_comm]
    exact (and_iff_right h.1).symm

theorem parse_eq_error_iff : parse arguments = .error error ↔ FirstOffense arguments error := by
  rcases parse_cases arguments with ⟨first, hfirst, heq⟩ | ⟨hclean, heq⟩
  · rw [heq, Except.error.injEq]
    constructor
    · rintro rfl
      exact hfirst
    · exact hfirst.unique
  · rw [heq]
    refine iff_of_false nofun ?_
    rintro ⟨before, argument, after, hsplit, -, hoffends⟩
    exact hclean before argument after hsplit error hoffends

/-- No argument offends if all options are valid and there is at most one formula. -/
theorem clean_iff : Clean arguments ↔
    (∀ argument ∈ settings arguments, ∀ error, ¬ Invalid argument error) ∧
      (formulas arguments).length ≤ 1 := by
  induction arguments using List.reverseRecOn with
  | nil => exact iff_of_true clean_nil ⟨nofun, Nat.zero_le 1⟩
  | append_singleton before argument ih =>
    rw [clean_append, ih]
    by_cases hformula : "--" ∈ before ∨ isOption argument = false
    · obtain ⟨hsettings, hformulas⟩ := append_formula hformula
      simp only [offends_formula hformula, hsettings, hformulas, List.length_append,
        List.length_singleton]
      constructor
      · rintro ⟨⟨hvalid, -⟩, hnone⟩
        have hempty : formulas before = [] := by
          by_contra hsome
          exact hnone _ ⟨hsome, rfl⟩
        exact ⟨hvalid, by simp [hempty]⟩
      · rintro ⟨hvalid, hlength⟩
        have hempty : formulas before = [] := List.length_eq_zero_iff.1 (by omega)
        exact ⟨⟨hvalid, by omega⟩, fun error h => h.1 hempty⟩
    · obtain ⟨hbefore, hoption⟩ := not_or.1 hformula
      replace hoption : isOption argument = true := Bool.not_eq_false _ ▸ hoption
      simp only [offends_option hbefore hoption]
      by_cases hbare : argument = "--"
      · obtain ⟨hsettings, hformulas⟩ := append_bare hbefore
        subst hbare
        simp [hsettings, hformulas]
      · obtain ⟨hsettings, hformulas⟩ := append_option hbefore hbare hoption
        rw [hsettings, hformulas]
        simp only [List.forall_mem_append, List.forall_mem_singleton]
        constructor
        · rintro ⟨⟨hvalid, hlength⟩, hlast⟩
          exact ⟨⟨hvalid, fun error h => hlast error ⟨hbare, h⟩⟩, hlength⟩
        · rintro ⟨⟨hvalid, hlast⟩, hlength⟩
          exact ⟨⟨hvalid, hlength⟩, fun error h => hlast error h.2⟩

/-- The formula can stand anywhere among the other arguments, unless it looks like an option. -/
theorem parse_of_moved {options : Options} {after front back : List String}
    (hplain : isOption argument = false) (hsplit : before ++ after = front ++ back)
    (h : parse (before ++ argument :: after) = .ok options) :
    parse (front ++ argument :: back) = .ok options := by
  obtain ⟨hclean, rfl⟩ := parse_eq_ok_iff.1 h
  obtain ⟨hsettings, hformulas⟩ := insert_formula hplain before after
  obtain ⟨hsettings', hformulas'⟩ := insert_formula hplain front back
  rw [← hsplit] at hsettings' hformulas'
  have hsame : settings (front ++ argument :: back) = settings (before ++ argument :: after) :=
    hsettings'.trans hsettings.symm
  obtain ⟨hvalid, hlength⟩ := clean_iff.1 hclean
  have hempty : formulas (before ++ after) = [] := by
    have hcons := hformulas.length_eq
    rw [List.length_cons] at hcons
    exact List.length_eq_zero_iff.1 (by omega)
  rw [hempty] at hformulas hformulas'
  have halone := List.perm_singleton.1 hformulas
  have halone' := List.perm_singleton.1 hformulas'
  refine parse_eq_ok_iff.2 ⟨clean_iff.2 ⟨hsame ▸ hvalid, ?_⟩, ?_⟩
  · rw [halone', List.length_singleton]
  · rw [stated_of_settings hsame, halone', stated, halone]

end Run

/-- The last mode that is not `auto` is the last one, unless `auto` comes last and another one
before. -/
theorem lastSet_iff (modes : List ColorMode) :
    (modes.filter (· ≠ .auto)).getLast?.getD .auto = modes.getLast?.getD .auto ↔
      (modes.getLast? = some .auto → ∀ mode ∈ modes, mode = .auto) := by
  induction modes using List.reverseRecOn with
  | nil => exact iff_of_true rfl nofun
  | append_singleton modes mode =>
    rw [List.getLast?_append, List.getLast?_singleton, Option.some_or, Option.getD_some,
      List.filter_append]
    by_cases hmode : mode = .auto
    · subst hmode
      rw [List.filter_cons_of_neg (by simp), List.filter_nil, List.append_nil]
      cases hlast : (modes.filter (· ≠ .auto)).getLast? with
      | none =>
        have hnone := List.filter_eq_nil_iff.1 (List.getLast?_eq_none_iff.1 hlast)
        refine iff_of_true rfl fun _ mode hmem => ?_
        rcases List.mem_append.1 hmem with hmem | hmem
        · simpa using hnone mode hmem
        · exact List.mem_singleton.1 hmem
      | some mode =>
        obtain ⟨hmem, hset⟩ := List.mem_filter.1 (List.mem_of_getLast? hlast)
        refine iff_of_false (of_decide_eq_true hset) fun h => ?_
        exact of_decide_eq_true hset (h rfl mode (List.mem_append_left _ hmem))
    · rw [List.filter_cons_of_pos (by simpa using hmode), List.filter_nil, List.getLast?_append,
        List.getLast?_singleton, Option.some_or, Option.getD_some]
      exact iff_of_true rfl fun h => absurd (Option.some.inj h) hmode

/-- The arguments yield options just if none of them offends, and are refused just for the first one
that does. Of each option the last occurrence before a bare `--` counts, and the formula is the one
argument that is none, wherever it stands. Of the colour modes the last one counts just if it is not
`auto` or nothing else was set. -/
theorem parse_stated (arguments : List String) :
    (∀ options, parse arguments = .ok options ↔ Clean arguments ∧ options = stated arguments) ∧
      (∀ error, parse arguments = .error error ↔ FirstOffense arguments error) ∧
      ∀ options, parse arguments = .ok options →
        options.expression.toList = formulas arguments ∧
          (options.color = (modes arguments).getLast?.getD .auto ↔
            ((modes arguments).getLast? = some .auto → ∀ mode ∈ modes arguments, mode = .auto)) ∧
          ∀ before formula after front back, arguments = before ++ formula :: after →
            isOption formula = false → before ++ after = front ++ back →
            parse (front ++ formula :: back) = .ok options := by
  refine ⟨fun options => parse_eq_ok_iff, fun error => parse_eq_error_iff, ?_⟩
  intro options hparse
  obtain ⟨hclean, hstated⟩ := parse_eq_ok_iff.1 hparse
  refine ⟨?_, ?_, ?_⟩
  · have hlength := (clean_iff.1 hclean).2
    rw [hstated, stated]
    match hformulas : formulas arguments with
    | [] => rfl
    | [formula] => rfl
    | first :: second :: rest =>
      rw [hformulas, List.length_cons, List.length_cons] at hlength
      omega
  · rw [hstated]
    exact lastSet_iff (modes arguments)
  · rintro before formula after front back rfl hplain hsplit
    exact parse_of_moved hplain hsplit hparse

theorem parse_stated_layouts :
    parse ["--layout=A", "1 + 2", "--layout=B", "--color=never", "--"]
        = .ok { layout := some "B", color := .never, expression := some "1 + 2" } ∧
      parse ["--layout=A", "--layout=B", "--color=never", "--", "1 + 2"]
        = .ok { layout := some "B", color := .never, expression := some "1 + 2" } := by
  have hparse : parse ["--layout=A", "1 + 2", "--layout=B", "--color=never", "--"]
      = .ok { layout := some "B", color := .never, expression := some "1 + 2" } := by decide +kernel
  refine ⟨hparse, ?_⟩
  obtain ⟨-, -, hoptions⟩ :=
    parse_stated ["--layout=A", "1 + 2", "--layout=B", "--color=never", "--"]
  exact (hoptions _ hparse).2.2 ["--layout=A"] "1 + 2" ["--layout=B", "--color=never", "--"]
    ["--layout=A", "--layout=B", "--color=never", "--"] [] rfl (by decide +kernel) rfl

/-- The mode `auto` comes last and does not count. -/
theorem color_ne_of_auto :
    ¬ ∀ (arguments : List String) (options : Options), parse arguments = .ok options →
      options.color = (modes arguments).getLast?.getD .auto := by
  intro h
  have hparse : parse ["--color=always", "--color=auto", "1"]
      = .ok { color := .always, expression := some "1" } := by decide +kernel
  have hcolor := h _ _ hparse
  revert hcolor
  decide +kernel

end EventFormula.Options
