import EventFormula.Fragment

/-!
# Numbers in decimal notation

A number is written as digits, perhaps with a point among them or at either end, and perhaps with an
exponent. `read` takes the longest number that a text starts with, and what it takes stays the same
whatever follows, unless that could go on with the number. The code of a number has a point or an
exponent in it, and the same value.
-/

namespace EventFormula

/-- The exponent of a number, as it is written. -/
structure Decimal.Exponent where
  letter : Char
  sign : Option Char
  digits : List Char

/-- A number, as it is written. -/
structure Decimal where
  whole : List Char
  /-- The digits after the point, if there is a point. -/
  fraction : Option (List Char)
  exponent : Option Decimal.Exponent

namespace Decimal

/-- The number that digits stand for. -/
def natural (digits : List Char) : Nat :=
  digits.foldl (fun n c => 10 * n + (c.toNat - '0'.toNat)) 0

namespace Exponent

def chars (exponent : Exponent) : List Char :=
  exponent.letter :: (exponent.sign.toList ++ exponent.digits)

def value (exponent : Exponent) : Int :=
  if exponent.sign = some '-' then -natural exponent.digits else natural exponent.digits

/-- It has a digit, and nothing that does not belong there. -/
structure Sound (exponent : Exponent) : Prop where
  letter : exponent.letter = 'e' ∨ exponent.letter = 'E'
  sign : ∀ c ∈ exponent.sign, c = '+' ∨ c = '-'
  digits : ∀ c ∈ exponent.digits, c.isDigit = true
  nonempty : exponent.digits ≠ []

end Exponent

/-- The digits after the point. -/
def places (number : Decimal) : List Char := number.fraction.getD []

/-- The number as it is written. -/
def chars (number : Decimal) : List Char :=
  number.whole ++ (number.fraction.elim [] ('.' :: ·) ++ number.exponent.elim [] Exponent.chars)

/-- The number that is meant. -/
def value (number : Decimal) : Rat :=
  natural (number.whole ++ number.places)
    * (10 : Rat) ^ (number.exponent.elim 0 Exponent.value - (number.places.length : Int))

/-- It has a digit before its exponent, and nothing that does not belong there. -/
structure Sound (number : Decimal) : Prop where
  whole : ∀ c ∈ number.whole, c.isDigit = true
  places : ∀ c ∈ number.places, c.isDigit = true
  exponent : ∀ exponent ∈ number.exponent, exponent.Sound
  nonempty : number.whole ++ number.places ≠ []

/-- The sign that the characters start with, and what comes behind it. -/
def readSign : List Char → Option Char × List Char
  | c :: cs => if c = '+' ∨ c = '-' then (some c, cs) else (none, c :: cs)
  | [] => (none, [])

/-- The longest exponent that the characters start with, and what comes behind it. -/
def readExponent : List Char → Option Exponent × List Char
  | c :: cs =>
    if c = 'e' ∨ c = 'E' then
      let (sign, rest) := readSign cs
      if rest.takeWhile Char.isDigit = [] then (none, c :: cs)
      else (some ⟨c, sign, rest.takeWhile Char.isDigit⟩, rest.dropWhile Char.isDigit)
    else (none, c :: cs)
  | [] => (none, [])

/-- A point and the digits after it, if the characters start with a point, and what comes behind. -/
def readFraction : List Char → Option (List Char) × List Char
  | '.' :: cs => (some (cs.takeWhile Char.isDigit), cs.dropWhile Char.isDigit)
  | cs => (none, cs)

/-- The longest number that the characters start with, and what comes behind it. -/
def read (cs : List Char) : Decimal × List Char :=
  let (fraction, rest) := readFraction (cs.dropWhile Char.isDigit)
  let (exponent, rest) := readExponent rest
  (⟨cs.takeWhile Char.isDigit, fraction, exponent⟩, rest)

/-- The number that a text is read as. -/
def ofText (text : String) : Decimal := (read text.toList).1

/-- The characters could not go on with a number. -/
def Ends (cs : List Char) : Prop :=
  ∀ c ∈ cs.head?, c.isDigit = false ∧ c ≠ '.' ∧ c ≠ 'e' ∧ c ≠ 'E'

theorem chars_readSign (cs : List Char) : (readSign cs).1.toList ++ (readSign cs).2 = cs := by
  cases cs with
  | nil => rfl
  | cons c cs =>
    simp only [readSign]
    split <;> rfl

theorem chars_readExponent (cs : List Char) :
    (readExponent cs).1.elim [] Exponent.chars ++ (readExponent cs).2 = cs := by
  cases cs with
  | nil => rfl
  | cons c cs =>
    simp only [readExponent]
    split
    · split
      · rfl
      · show c :: ((readSign cs).1.toList ++ (readSign cs).2.takeWhile Char.isDigit)
          ++ (readSign cs).2.dropWhile Char.isDigit = c :: cs
        rw [List.cons_append, List.append_assoc, List.takeWhile_append_dropWhile, chars_readSign]
    · rfl

theorem chars_readFraction (cs : List Char) :
    (readFraction cs).1.elim [] ('.' :: ·) ++ (readFraction cs).2 = cs := by
  unfold readFraction
  split
  · exact congrArg ('.' :: ·) List.takeWhile_append_dropWhile
  · rfl

/-- Nothing is lost. -/
theorem chars_read (cs : List Char) : (read cs).1.chars ++ (read cs).2 = cs := by
  show cs.takeWhile Char.isDigit
    ++ ((readFraction (cs.dropWhile Char.isDigit)).1.elim [] ('.' :: ·)
      ++ (readExponent (readFraction (cs.dropWhile Char.isDigit)).2).1.elim [] Exponent.chars)
    ++ (readExponent (readFraction (cs.dropWhile Char.isDigit)).2).2 = cs
  rw [List.append_assoc, List.append_assoc, chars_readExponent, chars_readFraction,
    List.takeWhile_append_dropWhile]

theorem isDigit_of_mem_takeWhile {cs : List Char} {c : Char}
    (h : c ∈ cs.takeWhile Char.isDigit) : c.isDigit = true :=
  List.all_eq_true.1 List.all_takeWhile c h

/-- Digits are read up to what is none. -/
theorem takeWhile_digits {digits rest : List Char} (hdigits : ∀ c ∈ digits, c.isDigit = true)
    (hrest : ∀ c ∈ rest.head?, c.isDigit = false) :
    (digits ++ rest).takeWhile Char.isDigit = digits ∧
      (digits ++ rest).dropWhile Char.isDigit = rest := by
  rw [List.takeWhile_append_of_pos hdigits, List.dropWhile_append_of_pos hdigits]
  cases rest with
  | nil => exact ⟨List.append_nil digits, rfl⟩
  | cons c rest =>
    have hc : ¬ c.isDigit = true := Bool.not_eq_true _ ▸ hrest c rfl
    rw [List.takeWhile_cons_of_neg hc, List.dropWhile_cons_of_neg hc, List.append_nil]
    exact ⟨rfl, rfl⟩

theorem readExponent_of_ends {cs : List Char} (h : Ends cs) : readExponent cs = (none, cs) := by
  cases cs with
  | nil => rfl
  | cons c cs =>
    obtain ⟨-, -, he, hE⟩ := h c rfl
    simp only [readExponent, he, hE, or_self, if_false]

theorem readExponent_append {exponent : Exponent} {rest : List Char} (h : exponent.Sound)
    (hrest : ∀ c ∈ rest.head?, c.isDigit = false) :
    readExponent (exponent.chars ++ rest) = (some exponent, rest) := by
  obtain ⟨letter, sign, digits⟩ := exponent
  have hsign : readSign (sign.toList ++ (digits ++ rest)) = (sign, digits ++ rest) := by
    cases sign with
    | some c =>
      have hc := h.sign c rfl
      simp only [Option.toList_some, List.singleton_append, readSign, hc, if_true]
    | none =>
      cases digits with
      | nil => exact absurd rfl h.nonempty
      | cons d digits =>
        have hd : d.isDigit = true := h.digits d List.mem_cons_self
        have hplus : d ≠ '+' := fun heq => absurd (heq ▸ hd) (by decide)
        have hminus : d ≠ '-' := fun heq => absurd (heq ▸ hd) (by decide)
        simp [readSign, hplus, hminus]
  obtain ⟨htake, hdrop⟩ := takeWhile_digits h.digits hrest
  have hletter : letter = 'e' ∨ letter = 'E' := h.letter
  have hnonempty : digits ≠ [] := h.nonempty
  simp only [Exponent.chars, List.cons_append, List.append_assoc, readExponent, hletter, if_true,
    hsign, htake, hdrop, hnonempty, if_false]

theorem readFraction_append {fraction : Option (List Char)} {rest : List Char}
    (hfraction : ∀ c ∈ fraction.getD [], c.isDigit = true)
    (hrest : ∀ c ∈ rest.head?, c.isDigit = false ∧ c ≠ '.') :
    readFraction (fraction.elim [] ('.' :: ·) ++ rest) = (fraction, rest) := by
  cases fraction with
  | some digits =>
    have hdigits : ∀ c ∈ digits, c.isDigit = true := hfraction
    obtain ⟨htake, hdrop⟩ := takeWhile_digits hdigits fun c hmem => (hrest c hmem).1
    show (some ((digits ++ rest).takeWhile Char.isDigit), (digits ++ rest).dropWhile Char.isDigit)
      = (some digits, rest)
    rw [htake, hdrop]
  | none =>
    show readFraction rest = (none, rest)
    cases rest with
    | nil => rfl
    | cons c rest =>
      have hpoint := (hrest c rfl).2
      unfold readFraction
      split
      · rename_i heq
        exact absurd (List.cons.inj heq).1 hpoint
      · rfl

/-- Behind the digits and the point comes the exponent, or what could not go on with the number. -/
theorem head_exponent {exponent : Option Exponent} {rest : List Char}
    (h : ∀ x ∈ exponent, x.Sound) (hrest : Ends rest) :
    ∀ c ∈ (exponent.elim [] Exponent.chars ++ rest).head?, c.isDigit = false ∧ c ≠ '.' := by
  intro c hmem
  cases exponent with
  | none =>
    obtain ⟨hdigit, hpoint, -⟩ := hrest c hmem
    exact ⟨hdigit, hpoint⟩
  | some x =>
    have hc : x.letter = c := Option.some.inj hmem
    subst hc
    rcases (h x rfl).letter with heq | heq <;> rw [heq] <;> decide

theorem readExponent_elim {exponent : Option Exponent} {rest : List Char}
    (h : ∀ x ∈ exponent, x.Sound) (hrest : Ends rest) :
    readExponent (exponent.elim [] Exponent.chars ++ rest) = (exponent, rest) := by
  cases exponent with
  | none => exact readExponent_of_ends hrest
  | some x => exact readExponent_append (h x rfl) fun c hmem => (hrest c hmem).1

/-- A number is read up to where it could not go on. -/
theorem read_append {number : Decimal} {rest : List Char} (h : number.Sound) (hrest : Ends rest) :
    read (number.chars ++ rest) = (number, rest) := by
  obtain ⟨whole, fraction, exponent⟩ := number
  have hexponent := head_exponent h.exponent hrest
  have hfraction : ∀ c ∈ (fraction.elim [] ('.' :: ·)
      ++ (exponent.elim [] Exponent.chars ++ rest)).head?, c.isDigit = false := by
    intro c hmem
    cases fraction with
    | none => exact (hexponent c hmem).1
    | some digits =>
      have hc : '.' = c := Option.some.inj hmem
      subst hc
      rfl
  obtain ⟨htake, hdrop⟩ := takeWhile_digits h.whole hfraction
  have hread := readFraction_append h.places hexponent
  simp only [read, chars, List.append_assoc, htake, hdrop, hread,
    readExponent_elim h.exponent hrest]

/-- What is read alone is the number. -/
theorem ofText_eq {number : Decimal} {text : String} (h : number.Sound)
    (htext : text.toList = number.chars) : ofText text = number := by
  have hend : Ends [] := fun c hmem => by cases hmem
  have hread := read_append h hend
  rw [List.append_nil] at hread
  rw [ofText, htext, hread]

/-- The characters start with a digit, or with a point and a digit. -/
def Starts : List Char → Prop
  | c :: cs => c.isDigit = true ∨ (c = '.' ∧ ∃ d ∈ cs.head?, d.isDigit = true)
  | [] => False

instance : (cs : List Char) → Decidable (Starts cs)
  | _ :: _ => inferInstanceAs (Decidable (_ ∨ _))
  | [] => inferInstanceAs (Decidable False)

/-- A number starts with a digit, or with a point and a digit. -/
theorem starts_chars {number : Decimal} (h : number.Sound) (rest : List Char) :
    Starts (number.chars ++ rest) := by
  obtain ⟨whole, fraction, exponent⟩ := number
  cases whole with
  | cons c whole => exact Or.inl (h.whole c List.mem_cons_self)
  | nil =>
    match fraction with
    | none | some [] => exact absurd rfl h.nonempty
    | some (d :: digits) => exact Or.inr ⟨rfl, d, rfl, h.places d List.mem_cons_self⟩

theorem sound_readExponent (cs : List Char) : ∀ x ∈ (readExponent cs).1, x.Sound := by
  intro x hmem
  cases cs with
  | nil => cases hmem
  | cons c cs =>
    simp only [readExponent] at hmem
    split at hmem
    · rename_i hletter
      split at hmem
      · cases hmem
      · rename_i hdigits
        cases hmem
        refine ⟨hletter, ?_, fun d hd => isDigit_of_mem_takeWhile hd, hdigits⟩
        intro d hd
        cases cs with
        | nil => cases hd
        | cons s cs =>
          simp only [readSign] at hd
          split at hd
          · rename_i hsign
            cases hd
            exact hsign
          · cases hd
    · cases hmem

/-- What is read where a number starts has a digit. -/
theorem sound_read {cs : List Char} (h : Starts cs) : (read cs).1.Sound where
  whole c hmem := isDigit_of_mem_takeWhile hmem
  places c hmem := by
    change c ∈ (readFraction (cs.dropWhile Char.isDigit)).1.getD [] at hmem
    unfold readFraction at hmem
    split at hmem
    · exact isDigit_of_mem_takeWhile hmem
    · cases hmem
  exponent := sound_readExponent _
  nonempty := by
    cases cs with
    | nil => exact h.elim
    | cons c cs =>
      rcases h with hdigit | ⟨rfl, hplace⟩
      · intro hempty
        have hwhole := (List.append_eq_nil_iff.1 hempty).1
        change (c :: cs).takeWhile Char.isDigit = [] at hwhole
        rw [List.takeWhile_cons_of_pos hdigit] at hwhole
        cases hwhole
      · intro hempty
        have hplaces := (List.append_eq_nil_iff.1 hempty).2
        change cs.takeWhile Char.isDigit = [] at hplaces
        cases cs with
        | nil => simp at hplace
        | cons d cs =>
          obtain ⟨d', hd, hdigit⟩ := hplace
          cases hd
          rw [List.takeWhile_cons_of_pos hdigit] at hplaces
          cases hplaces

section Code
variable {number : Decimal} {text : String}

/-- The number with a point in it, or an exponent. -/
def pointed (number : Decimal) : Decimal :=
  match number.fraction, number.exponent with
  | none, none => { number with fraction := some ['0'] }
  | _, _ => number

/-- The characters by which a number is told to have a point or an exponent. -/
def isMark (c : Char) : Bool := c = '.' || c = 'e' || c = 'E'

theorem isMark_of_isDigit {c : Char} (h : c.isDigit = true) : isMark c = false := by
  have hne (d : Char) (hd : d.isDigit = false) : c ≠ d := fun heq => by
    rw [heq, hd] at h
    cases h
  simp [isMark, hne '.' rfl, hne 'e' rfl, hne 'E' rfl]

theorem any_isMark_digits {digits : List Char} (h : ∀ c ∈ digits, c.isDigit = true) :
    digits.any isMark = false :=
  List.any_eq_false.2 fun c hmem => by rw [isMark_of_isDigit (h c hmem)]; decide

theorem any_isMark_chars (h : number.Sound) :
    number.chars.any isMark = (number.fraction.isSome || number.exponent.isSome) := by
  obtain ⟨whole, fraction, exponent⟩ := number
  simp only [chars, List.any_append, any_isMark_digits h.whole, Bool.false_or]
  cases fraction with
  | some digits => rfl
  | none =>
    cases exponent with
    | none => rfl
    | some x =>
      have hletter : isMark x.letter = true := by
        rcases (h.exponent x rfl).letter with heq | heq <;> rw [heq] <;> rfl
      simp [Exponent.chars, hletter]

/-- The code of a number is the number with a point in it, or an exponent. -/
theorem toList_numberCode (h : number.Sound) (htext : text.toList = number.chars) :
    (Fragment.numberCode text).toList = number.pointed.chars := by
  have hmark := any_isMark_chars h
  rw [← htext] at hmark
  change (if text.toList.any isMark then text else text ++ ".0").toList = _
  rw [hmark]
  obtain ⟨whole, fraction, exponent⟩ := number
  cases fraction with
  | some digits => exact htext
  | none =>
    cases exponent with
    | some x => exact htext
    | none =>
      show (text ++ ".0").toList = whole ++ (['.', '0'] ++ [])
      rw [String.toList_append, htext]
      simp [chars]

theorem sound_pointed (h : number.Sound) : number.pointed.Sound := by
  unfold pointed
  split
  · refine ⟨h.whole, fun c hmem => ?_, h.exponent, by simp [places]⟩
    rw [List.mem_singleton.1 hmem]
    rfl
  · exact h

theorem natural_append_zero (digits : List Char) :
    natural (digits ++ ['0']) = 10 * natural digits := by
  rw [natural, List.foldl_append]
  rfl

theorem value_pointed (number : Decimal) : number.pointed.value = number.value := by
  unfold pointed
  split
  · rename_i hfraction hexponent
    have htenth : (10 : Rat) ^ (-1 : Int) = 1 / 10 := by decide +kernel
    simp only [value, places, hfraction, hexponent, Option.getD_some, Option.getD_none,
      natural_append_zero]
    show ((10 * natural number.whole : Nat) : Rat) * (10 : Rat) ^ (-1 : Int)
      = (natural (number.whole ++ []) : Rat) * (10 : Rat) ^ (0 : Int)
    rw [htenth, List.append_nil, Rat.zpow_zero, Rat.natCast_mul]
    grind
  · rfl

/-- It is led by a zero with a digit after it. -/
def padded (number : Decimal) : Bool :=
  match number.whole with
  | '0' :: _ :: _ => true
  | _ => false

theorem padded_pointed (number : Decimal) : number.pointed.padded = number.padded := by
  unfold pointed
  split <;> rfl

end Code

end Decimal
end EventFormula
