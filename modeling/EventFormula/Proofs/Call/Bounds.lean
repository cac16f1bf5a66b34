import EventFormula.Proofs.Call.Positions
import EventFormula.Proofs.Call.Segments

/-!
# The bounds of an argument

An argument ends before its slot does, and it stands behind the token that opens the slot if there
is any token in it. Without one it stands where the last argument that is not blank ends, so it is
outside of its slot unless that is the first, and it may be in front of a blank argument before it.
The failure for a missing argument is at the place of the argument.
-/

namespace EventFormula.Call

open Token (lexemes Laid laid_append)

/-- The argument stands behind the token that opens the slot, in a text that starts at `base`, and
ends before the one that closes it. -/
structure Slot.Holds (slot : Slot) (base : Nat) (argument : Expression) : Prop where
  start : base + slot.start ≤ argument.base
  stop : argument.stop ≤ base + slot.stop

/-- The first blank argument that falls on a parameter which is needed, and its number. -/
structure FirstMissing (parameters : List Parameter) (written : List Expression) (index : Nat)
    (argument : Expression) : Prop where
  at_index : written[index]? = some argument
  blank : argument.isEmpty = true
  needed : ∃ parameter, parameters[index]? = some parameter ∧ parameter.optional = false
  answered : Answered (parameters.take index) written

section Missing
variable {function : String} {stop : Nat} {parameters : List Parameter} {written : List Expression}
  {failure : Failure}

/-- One parameter more in front, with an argument that will do. -/
theorem FirstMissing.cons {parameter : Parameter} {first argument : Expression} {index : Nat}
    (hfirst : first.isEmpty = true → parameter.optional = true)
    (h : FirstMissing parameters written index argument) :
    FirstMissing (parameter :: parameters) (first :: written) (index + 1) argument where
  at_index := h.at_index
  blank := h.blank
  needed := h.needed
  answered := by
    rw [List.take_succ_cons, answered_cons]
    exact ⟨hfirst, h.answered⟩

/-- Filling the parameters fails for the first argument that is missing. -/
theorem firstMissing_of_fill (h : fill function stop parameters written = .error failure) :
    ∃ index argument, FirstMissing (designed parameters) written index argument ∧
      failure = ⟨.missingArgument function, argument.span⟩ := by
  fun_induction fill function stop parameters written with
  | case1 => cases h
  | case2 written parameter parameters hcode ih =>
    rw [designed_cons_of_code hcode]
    exact ih (map_error h)
  | case3 parameter parameters hcode ih =>
    obtain ⟨index, argument, hmissing, -⟩ := ih (map_error h)
    have hnone := hmissing.at_index
    rw [List.getElem?_nil] at hnone
    cases hnone
  | case4 parameter parameters hcode argument rest hempty ih =>
    obtain ⟨index, missing, hmissing, heq⟩ := ih (map_error h)
    rw [designed_cons hcode]
    refine ⟨index + 1, missing, hmissing.cons ?_, heq⟩
    intro hblank
    rw [hblank] at hempty
    cases hempty
  | case5 parameter parameters hcode argument rest hempty hoptional ih =>
    obtain ⟨index, missing, hmissing, heq⟩ := ih (map_error h)
    rw [designed_cons hcode]
    exact ⟨index + 1, missing, hmissing.cons fun _ => hoptional, heq⟩
  | case6 parameter parameters hcode argument rest hempty hoptional =>
    cases h
    rw [designed_cons hcode]
    refine ⟨0, argument, ⟨rfl, by simpa using hempty, ⟨parameter, rfl, by simpa using hoptional⟩,
      ?_⟩, rfl⟩
    intro index other blank hother
    cases hother

end Missing

section Slots
variable {base start stop last : Nat} {inner tokens : List Token} {found : List Slot}

theorem place_blank {offset : Nat} (h : offset ≤ maxOffset) :
    (Expression.place "" offset).base = offset ∧ (Expression.place "" offset).stop = offset := by
  have hbase : (Expression.place "" offset).base = offset := Nat.min_eq_left h
  constructor
  · exact hbase
  · rw [Expression.stop, hbase]
    rfl

/-- The expression in a slot, and the place where it leaves off. -/
theorem place_cons (base : Nat) (hlaid : Laid start tokens stop) (hlast : last ≤ start)
    (hfits : base + stop ≤ maxOffset) (slots : List (List Token)) :
    ∃ argument next, place base last (tokens :: slots) = argument :: place base next slots ∧
      next ≤ stop ∧ argument.stop ≤ base + stop ∧
      (base + start ≤ argument.base ↔ last = start ∨ tokens ≠ []) := by
  have hle := hlaid.le
  rw [place]
  split
  · rename_i htrim
    refine ⟨_, last, rfl, Nat.le_trans hlast hle, ?_⟩
    cases tokens with
    | nil =>
      obtain ⟨hbase, hstop⟩ := place_blank (show base + last ≤ maxOffset by omega)
      rw [List.head?_nil, Option.elim_none, hbase, hstop]
      constructor
      · omega
      · constructor
        · intro hstart
          left
          omega
        · rintro (rfl | hsome)
          · exact Nat.le_refl _
          · exact absurd rfl hsome
    | cons token tokens =>
      have hstart : token.span.start = start := hlaid.1.start_eq
      obtain ⟨hbase, hstop⟩ := place_blank (show base + start ≤ maxOffset by omega)
      rw [List.head?_cons, Option.elim_some, hstart, hbase, hstop]
      constructor
      · omega
      · exact iff_of_true (Nat.le_refl _) (Or.inr (List.cons_ne_nil _ _))
  · rename_i first rest htrim
    obtain ⟨front, back, hfront, hcore, hback⟩ := laid_trim hlaid
    rw [htrim] at hcore
    have hroom : base + back ≤ maxOffset := by omega
    obtain ⟨hbase, hstop, -⟩ := place_of_laid hcore hroom
    have hsome : tokens ≠ [] := by
      rintro rfl
      cases htrim
    refine ⟨_, _, rfl, ?_, by omega, iff_of_true (by omega) (Or.inr hsome)⟩
    rw [getLastD_stop hcore]
    exact hback

/-- A slot ends before the next one starts. -/
theorem Separated.ordered (h : Separated start inner stop found) (hlaid : Laid start inner stop) :
    (∀ slot ∈ found, start ≤ slot.start) ∧
      found.Pairwise fun slot later => slot.stop < later.start := by
  induction h with
  | last =>
    constructor
    · intro slot hslot
      obtain rfl := List.mem_singleton.1 hslot
      exact Nat.le_refl _
    · exact List.pairwise_singleton _ _
  | @comma start stop tokens rest comma found _ _ _ ih =>
    obtain ⟨middle, htokens, hcomma, hrest⟩ := laid_append.1 hlaid
    obtain ⟨hbehind, hordered⟩ := ih hrest
    have hstart := htokens.le
    have hopens := hcomma.start_eq
    have hless := hcomma.less
    constructor
    · intro slot hslot
      rcases List.mem_cons.1 hslot with rfl | hslot
      · exact Nat.le_refl _
      · have hlater := hbehind slot hslot
        omega
    · refine .cons ?_ hordered
      intro later hlater
      have hbound := hbehind later hlater
      show comma.span.start < later.start
      omega

/-- Of the slots without a token the first can only stand in its bounds. -/
theorem Separated.place_iff (h : Separated start inner stop found) (hlaid : Laid start inner stop)
    (hlast : last ≤ start) (hfits : base + stop ≤ maxOffset) {index : Nat} {slot : Slot}
    {argument : Expression} (hslot : found[index]? = some slot)
    (hargument : (place base last (found.map Slot.tokens))[index]? = some argument) :
    argument.stop ≤ base + slot.stop ∧
      (base + slot.start ≤ argument.base ↔ (index = 0 ∧ last = start) ∨ slot.tokens ≠ []) := by
  induction h generalizing last index with
  | @last start stop tokens =>
    obtain ⟨only, next, hplace, -, hstop, hstart⟩ :=
      place_cons base hlaid hlast hfits []
    rw [List.map_singleton, hplace] at hargument
    cases index with
    | zero =>
      cases hslot
      cases hargument
      exact ⟨hstop, hstart.trans (or_congr_left (and_iff_right rfl).symm)⟩
    | succ index => cases hslot
  | @comma start stop tokens rest comma found _ _ _ ih =>
    obtain ⟨middle, htokens, hcomma, hrest⟩ := laid_append.1 hlaid
    have hopens := hcomma.start_eq
    have hless := hcomma.less
    have hend := hrest.le
    have hcloses : base + comma.span.start ≤ maxOffset := by omega
    obtain ⟨first, next, hplace, hnext, hstop, hstart⟩ :=
      place_cons base (hopens ▸ htokens) hlast hcloses (found.map Slot.tokens)
    rw [List.map_cons, hplace] at hargument
    cases index with
    | zero =>
      cases hslot
      cases hargument
      exact ⟨hstop, hstart.trans (or_congr_left (and_iff_right rfl).symm)⟩
    | succ index =>
      -- what comes before the comma leaves off before it, so not where the next slot starts
      obtain ⟨hbefore, hiff⟩ := ih hrest (by omega) hfits hslot hargument
      refine ⟨hbefore, hiff.trans (or_congr_left ?_)⟩
      constructor
      · rintro ⟨-, hequal⟩
        omega
      · rintro ⟨hzero, -⟩
        cases hzero

theorem length_place (base last : Nat) (slots : List (List Token)) :
    (place base last slots).length = slots.length := by
  fun_induction place base last slots with
  | case1 => rfl
  | case2 last slot slots htrim ih => rw [List.length_cons, ih, List.length_cons]
  | case3 last slot slots first rest htrim ih => rw [List.length_cons, ih, List.length_cons]

/-- What has a token in its slot stands behind everything before it. -/
theorem Separated.behind (h : Separated start inner stop found) (hlaid : Laid start inner stop)
    (hfits : base + stop ≤ maxOffset) {index : Nat} {slot : Slot} {argument earlier : Expression}
    (hslot : found[index]? = some slot) (hsome : slot.tokens ≠ [])
    (hargument : (place base start (found.map Slot.tokens))[index]? = some argument)
    (hearlier : earlier ∈ (place base start (found.map Slot.tokens)).take index) :
    earlier.stop < argument.base := by
  obtain ⟨before, hbefore, hget⟩ := List.mem_take_iff_getElem.1 hearlier
  rw [length_place, List.length_map] at hbefore
  have hlater := (h.place_iff hlaid (Nat.le_refl _) hfits hslot hargument).2.2 (Or.inr hsome)
  have hfirst : found[before]? = some found[before] := List.getElem?_eq_getElem (by omega)
  have hother := (h.place_iff hlaid (Nat.le_refl _) hfits hfirst
    (List.getElem?_eq_some_iff.2 ⟨_, hget⟩)).1
  have hordered := List.pairwise_iff_getElem.1 (h.ordered hlaid).2 before index (by omega)
    (List.getElem?_eq_some_iff.1 hslot).1 (by omega)
  rw [(List.getElem?_eq_some_iff.1 hslot).2] at hordered
  omega

/-- There is a slot for each argument. -/
theorem Separated.exists_slot (h : Separated start inner stop found) {index : Nat}
    {argument : Expression} (hargument : (split base start inner)[index]? = some argument) :
    ∃ slot, found[index]? = some slot := by
  rw [split] at hargument
  split at hargument
  · cases hargument
  · obtain ⟨hbound, -⟩ := List.getElem?_eq_some_iff.1 hargument
    rw [length_place, h.slots_eq, List.length_map] at hbound
    exact ⟨found[index], List.getElem?_eq_getElem hbound⟩

end Slots

/-- An argument ends inside its slot, and all of it is there exactly if the slot is the first or has
a token; what has a token in its slot stands behind all arguments before it. A call that misses an
argument fails at the place of the first one that is missing. -/
theorem split_holds_iff (base : Nat) {source : String} {opening closing : Token}
    {before inner after : List Token} {slots : List Slot}
    (hsource : lexemes source = before ++ opening :: (inner ++ closing :: after))
    (hslots : Separated opening.span.stop inner closing.span.start slots)
    (hfits : base + Text.size source.toList ≤ maxOffset) :
    let arguments := split base opening.span.stop inner
    (∀ index slot argument, slots[index]? = some slot → arguments[index]? = some argument →
      argument.stop ≤ base + slot.stop ∧
      (slot.Holds base argument ↔ index = 0 ∨ slot.tokens ≠ []) ∧
      (slot.tokens ≠ [] → ∀ earlier ∈ arguments.take index, earlier.stop < argument.base)) ∧
    ∀ function callable given place span,
      align function callable given arguments place
          = .error ⟨.missingArgument function, span⟩ →
        ∃ index slot argument, slots[index]? = some slot ∧
          FirstMissing (callable.written given.length) arguments index argument ∧
          span = argument.span := by
  intro arguments
  have hall : Laid 0 (lexemes source) (Text.size source.toList) := Token.laid_lexemes (by omega)
  rw [hsource] at hall
  obtain ⟨_, -, -, hbehind⟩ := laid_append.1 hall
  obtain ⟨stop, hinner, hclosing, hafter⟩ := laid_append.1 hbehind
  rw [← hclosing.start_eq] at hinner
  have hroom : base + closing.span.start ≤ maxOffset := by
    have hstart := hclosing.less
    have hstop := hafter.le
    have hopens := hclosing.start_eq
    omega
  constructor
  · intro index slot argument hslot hargument
    by_cases hblank : inner.all Token.isWhitespace = true
    · have hnone : arguments = [] := if_pos hblank
      rw [hnone] at hargument
      cases hargument
    · have hplace : arguments = place base opening.span.stop (slots.map Slot.tokens) :=
        hslots.split_eq hblank base
      rw [hplace] at hargument ⊢
      obtain ⟨hstop, hstart⟩ :=
        hslots.place_iff hinner (Nat.le_refl _) hroom hslot hargument
      refine ⟨hstop, ?_, ?_⟩
      · constructor
        · intro hholds
          exact (hstart.1 hholds.start).imp_left And.left
        · intro hbounds
          exact ⟨hstart.2 (hbounds.imp_left fun hzero => ⟨hzero, rfl⟩), hstop⟩
      · intro hsome earlier hearlier
        exact hslots.behind hinner hroom hslot hsome hargument hearlier
  · intro function callable given place span hfails
    rw [align] at hfails
    split at hfails
    · cases hfails
    · obtain ⟨index, argument, hmissing, heq⟩ := firstMissing_of_fill (map_error hfails)
      obtain ⟨slot, hslot⟩ := hslots.exists_slot hmissing.at_index
      cases heq
      exact ⟨index, slot, argument, hslot, hmissing, rfl⟩

/-- What stands between the parentheses of `F(1, ,)`. -/
def innerOfAdjacent : List Token :=
  [⟨.number, ⟨2, 3⟩, "1"⟩, ⟨.comma, ⟨3, 4⟩, ","⟩, ⟨.whitespace, ⟨4, 5⟩, " "⟩,
    ⟨.comma, ⟨5, 6⟩, ","⟩]

/-- Nothing stands between the last comma and the parenthesis behind it. -/
def slotsOfAdjacent : List Slot :=
  [⟨2, [⟨.number, ⟨2, 3⟩, "1"⟩], 3⟩, ⟨4, [⟨.whitespace, ⟨4, 5⟩, " "⟩], 5⟩, ⟨6, [], 6⟩]

theorem separated_adjacent : Separated 2 innerOfAdjacent 6 slotsOfAdjacent :=
  .comma (.token (by decide) .nil) rfl
    (.comma (.token (by decide) .nil) rfl (.last .nil))

/-- The blank argument in the second slot stands there, and the one in the third does not. -/
theorem split_holds_iff_adjacent :
    lexemes "F(1, ,)" = [⟨.identifier, ⟨0, 1⟩, "F"⟩]
        ++ ⟨.leftParen, ⟨1, 2⟩, "("⟩ :: (innerOfAdjacent ++ ⟨.rightParen, ⟨6, 7⟩, ")"⟩ :: []) ∧
      Separated 2 innerOfAdjacent 6 slotsOfAdjacent ∧
      10 + Text.size "F(1, ,)".toList ≤ maxOffset ∧
      split 10 2 innerOfAdjacent = [.place "1" 12, .place "" 14, .place "" 13] ∧
      Slot.Holds ⟨4, [⟨.whitespace, ⟨4, 5⟩, " "⟩], 5⟩ 10 (.place "" 14) ∧
      ¬ Slot.Holds ⟨6, [], 6⟩ 10 (.place "" 13) := by
  have hsource : lexemes "F(1, ,)" = [⟨.identifier, ⟨0, 1⟩, "F"⟩]
      ++ ⟨.leftParen, ⟨1, 2⟩, "("⟩ :: (innerOfAdjacent ++ ⟨.rightParen, ⟨6, 7⟩, ")"⟩ :: []) := by
    decide +kernel
  have hfits : 10 + Text.size "F(1, ,)".toList ≤ maxOffset := by decide +kernel
  have hsplit : split 10 2 innerOfAdjacent
      = [.place "1" 12, .place "" 14, .place "" 13] := by decide +kernel
  obtain ⟨hplaces, -⟩ := split_holds_iff 10 hsource separated_adjacent hfits
  rw [hsplit] at hplaces
  obtain ⟨-, hsecond, -⟩ := hplaces 1 _ _ rfl rfl
  obtain ⟨-, hthird, -⟩ := hplaces 2 _ _ rfl rfl
  refine ⟨hsource, separated_adjacent, hfits, hsplit, ?_, ?_⟩
  · exact hsecond.2 (Or.inr (List.cons_ne_nil _ _))
  · intro hholds
    rcases hthird.1 hholds with hzero | hsome
    · cases hzero
    · exact hsome rfl

/-- An argument between two tokens that touch is not placed between them, nor behind the argument
before it, and that is where a call that needs it fails. -/
theorem not_holds_of_adjacent :
    let arguments := split 0 2 innerOfAdjacent
    let callable : Callable :=
      { parameters := [{ kind := .number }, { kind := .number, optional := true },
          { kind := .number }] }
    Separated 2 innerOfAdjacent 6 slotsOfAdjacent ∧
      ¬ (∀ (index : Nat) (slot : Slot) (argument : Expression),
        slotsOfAdjacent[index]? = some slot → arguments[index]? = some argument →
          slot.Holds 0 argument) ∧
      ¬ arguments.Pairwise (fun earlier later => earlier.base ≤ later.base) ∧
      align "F" callable [] arguments ⟨0, 7⟩ = .error ⟨.missingArgument "F", ⟨3, 3⟩⟩ := by
  intro arguments callable
  have hsplit : arguments = [.place "1" 2, .place "" 4, .place "" 3] := by decide +kernel
  rw [hsplit]
  refine ⟨separated_adjacent, ?_, by decide, rfl⟩
  intro hholds
  have hstart := (hholds 2 ⟨6, [], 6⟩ (.place "" 3) rfl rfl).start
  exact absurd hstart (by decide)

end EventFormula.Call
