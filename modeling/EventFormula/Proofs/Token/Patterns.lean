import EventFormula.Proofs.Token.Nesting
import Mathlib.Computability.Language

/-!
# Patterns of tokens

Each kind of token is declared by a pattern, which is a language over characters: classes of
characters are put together by union, concatenation and repetition. What the lexer takes for a token
fits the pattern of its kind, as `scan_mem_pattern` says.
-/

namespace EventFormula

open scoped Computability

namespace Token

/-- One character of a class. -/
def oneOf (p : Char → Bool) : Language Char := {cs | ∃ c, p c = true ∧ cs = [c]}

/-- The language, or nothing. -/
def maybe (l : Language Char) : Language Char := 1 + l

/-- One digit or more. -/
def digitRun : Language Char := oneOf Char.isDigit * (oneOf Char.isDigit)∗

/-- The letter, a sign perhaps, and digits. -/
def exponentPattern : Language Char :=
  oneOf (fun c => c = 'e' || c = 'E') * (maybe (oneOf fun c => c = '+' || c = '-') * digitRun)

/-- A character between the quotes of a literal, or a backslash and what it takes along. -/
def piece : Language Char :=
  oneOf (fun c => c ≠ '"' && c ≠ '\\') + {['\\']} * oneOf (· ≠ '\n')

/-- The texts that are declared to be tokens of the kind. -/
def Kind.pattern : Kind → Language Char
  | whitespace => oneOf isBlank * (oneOf isBlank)∗
  | number =>
    digitRun * (maybe ({['.']} * (oneOf Char.isDigit)∗) * maybe exponentPattern)
      + {['.']} * (digitRun * maybe exponentPattern)
  | string => {['"']} * (piece∗ * {['"']})
  | unterminatedString => {['"']} * piece∗
  | identifier => oneOf isNameStart * (oneOf isNameRest)∗
  | doubleColon => {[':', ':']}
  | dot => {['.']}
  | leftParen => {['(']}
  | rightParen => {[')']}
  | comma => {[',']}
  | plus => {['+']}
  | minus => {['-']}
  | star => {['*']}
  | slash => {['/']}
  | invalid | endOfText => 0

section Languages
variable {p : Char → Bool} {l : Language Char} {cs : List Char}

theorem mem_maybe : cs ∈ maybe l ↔ cs = [] ∨ cs ∈ l := Iff.rfl

theorem mem_oneOf_mul : cs ∈ oneOf p * l ↔ ∃ c ds, p c = true ∧ ds ∈ l ∧ cs = c :: ds := by
  rw [Language.mem_mul]
  constructor
  · rintro ⟨_, ⟨c, hc, rfl⟩, ds, hds, rfl⟩
    exact ⟨c, ds, hc, hds, rfl⟩
  · rintro ⟨c, ds, hc, hds, rfl⟩
    exact ⟨[c], ⟨c, hc, rfl⟩, ds, hds, rfl⟩

theorem mem_text_mul {text : List Char} :
    cs ∈ ({text} : Language Char) * l ↔ ∃ ds ∈ l, cs = text ++ ds := by
  rw [Language.mem_mul]
  constructor
  · rintro ⟨_, rfl, ds, hds, rfl⟩
    exact ⟨ds, hds, rfl⟩
  · rintro ⟨ds, hds, rfl⟩
    exact ⟨text, rfl, ds, hds, rfl⟩

theorem mem_kstar_oneOf : cs ∈ (oneOf p)∗ ↔ ∀ c ∈ cs, p c = true := by
  constructor
  · rintro ⟨parts, rfl, hparts⟩ c hc
    obtain ⟨part, hpart, hc⟩ := List.mem_flatten.1 hc
    obtain ⟨d, hd, rfl⟩ := hparts part hpart
    rwa [List.mem_singleton.1 hc]
  · intro h
    refine ⟨cs.map ([·]), ?_, ?_⟩
    · exact (List.flatMap_singleton' cs).symm
    · intro part hpart
      obtain ⟨c, hc, rfl⟩ := List.mem_map.1 hpart
      exact ⟨c, h c hc, rfl⟩

theorem mem_digitRun : cs ∈ digitRun ↔ (∀ c ∈ cs, c.isDigit = true) ∧ cs ≠ [] := by
  rw [digitRun, mem_oneOf_mul]
  constructor
  · rintro ⟨c, ds, hc, hds, rfl⟩
    exact ⟨List.forall_mem_cons.2 ⟨hc, mem_kstar_oneOf.1 hds⟩, nofun⟩
  · rintro ⟨hdigits, hnonempty⟩
    cases cs with
    | nil => exact absurd rfl hnonempty
    | cons c ds =>
      obtain ⟨hc, hds⟩ := List.forall_mem_cons.1 hdigits
      exact ⟨c, ds, hc, mem_kstar_oneOf.2 hds, rfl⟩

end Languages

end Token

namespace Decimal

open Token

theorem mem_exponentPattern {cs : List Char} :
    cs ∈ exponentPattern ↔ ∃ exponent : Exponent, exponent.Sound ∧ exponent.chars = cs := by
  rw [exponentPattern, mem_oneOf_mul]
  constructor
  · rintro ⟨letter, _, hletter, ⟨sign, hsign, digits, hdigits, rfl⟩, rfl⟩
    have hletter : letter = 'e' ∨ letter = 'E' := by simpa using hletter
    obtain ⟨hdigits, hnonempty⟩ := mem_digitRun.1 hdigits
    rcases mem_maybe.1 hsign with rfl | ⟨c, hc, rfl⟩
    · exact ⟨⟨letter, none, digits⟩, ⟨hletter, nofun, hdigits, hnonempty⟩, rfl⟩
    · refine ⟨⟨letter, some c, digits⟩, ⟨hletter, fun d hd => ?_, hdigits, hnonempty⟩, rfl⟩
      cases hd
      simpa using hc
  · rintro ⟨⟨letter, sign, digits⟩, h, rfl⟩
    refine ⟨letter, sign.toList ++ digits, by simpa using h.letter, ?_, rfl⟩
    refine Language.append_mem_mul ?_ (mem_digitRun.2 ⟨h.digits, h.nonempty⟩)
    cases sign with
    | none => exact Or.inl rfl
    | some c => exact Or.inr ⟨c, by simpa using h.sign c rfl, rfl⟩

theorem mem_maybe_exponent {cs : List Char} : cs ∈ maybe exponentPattern ↔
    ∃ exponent : Option Exponent, (∀ x ∈ exponent, x.Sound) ∧
      exponent.elim [] Exponent.chars = cs := by
  rw [mem_maybe, mem_exponentPattern]
  constructor
  · rintro (rfl | ⟨x, hx, rfl⟩)
    · exact ⟨none, nofun, rfl⟩
    · exact ⟨some x, fun y hy => by cases hy; exact hx, rfl⟩
  · rintro ⟨exponent, hexponent, rfl⟩
    cases exponent with
    | none => exact Or.inl rfl
    | some x => exact Or.inr ⟨x, hexponent x rfl, rfl⟩

/-- The pattern of numbers takes what is a number in decimal notation. -/
theorem mem_number {cs : List Char} :
    cs ∈ Kind.pattern .number ↔ ∃ number : Decimal, number.Sound ∧ number.chars = cs := by
  constructor
  · rintro (⟨whole, hwhole, _, ⟨point, hpoint, _, hlast, rfl⟩, rfl⟩ | hpoint)
    · obtain ⟨hdigits, hnonempty⟩ := mem_digitRun.1 hwhole
      obtain ⟨exponent, hexponent, rfl⟩ := mem_maybe_exponent.1 hlast
      rcases mem_maybe.1 hpoint with rfl | hpoint
      · exact ⟨⟨whole, none, exponent⟩, ⟨hdigits, List.forall_mem_nil _, hexponent,
          by simpa [places] using hnonempty⟩, rfl⟩
      · obtain ⟨fraction, hfraction, rfl⟩ := mem_text_mul.1 hpoint
        exact ⟨⟨whole, some fraction, exponent⟩,
          ⟨hdigits, mem_kstar_oneOf.1 hfraction, hexponent, by simp [hnonempty]⟩, rfl⟩
    · obtain ⟨_, ⟨fraction, hfraction, _, hlast, rfl⟩, rfl⟩ := mem_text_mul.1 hpoint
      obtain ⟨hdigits, hnonempty⟩ := mem_digitRun.1 hfraction
      obtain ⟨exponent, hexponent, rfl⟩ := mem_maybe_exponent.1 hlast
      exact ⟨⟨[], some fraction, exponent⟩,
        ⟨List.forall_mem_nil _, hdigits, hexponent, hnonempty⟩, rfl⟩
  · rintro ⟨⟨whole, fraction, exponent⟩, h, rfl⟩
    have hexponent : exponent.elim [] Exponent.chars ∈ maybe exponentPattern :=
      mem_maybe_exponent.2 ⟨exponent, h.exponent, rfl⟩
    by_cases hwhole : whole = []
    · subst hwhole
      cases fraction with
      | none => exact absurd rfl h.nonempty
      | some fraction =>
        have hfraction : fraction ∈ digitRun := mem_digitRun.2 ⟨h.places, h.nonempty⟩
        exact Or.inr (mem_text_mul.2 ⟨_, Language.append_mem_mul hfraction hexponent, rfl⟩)
    · refine Or.inl (Language.append_mem_mul (mem_digitRun.2 ⟨h.whole, hwhole⟩)
        (Language.append_mem_mul ?_ hexponent))
      cases fraction with
      | none => exact Or.inl rfl
      | some fraction => exact Or.inr (mem_text_mul.2 ⟨_, mem_kstar_oneOf.2 h.places, rfl⟩)

end Decimal

namespace Token

section Literals
variable {cs rest : List Char}

/-- A piece of a literal is read to its end, whatever follows. -/
theorem stringTail_piece (h : cs ∈ piece) :
    stringTail (cs ++ rest) = (cs.length + (stringTail rest).1, (stringTail rest).2) := by
  rcases h with ⟨c, hc, rfl⟩ | hescaped
  · have hplain : c ≠ '"' ∧ c ≠ '\\' := by simpa using hc
    simp [stringTail, hplain]
  · obtain ⟨_, ⟨c, hc, rfl⟩, rfl⟩ := mem_text_mul.1 hescaped
    have hfeed : c ≠ '\n' := by simpa using hc
    simp [stringTail, hfeed]

/-- So is what stands between the quotes. -/
theorem stringTail_pieces (h : cs ∈ piece∗) :
    stringTail (cs ++ rest) = (cs.length + (stringTail rest).1, (stringTail rest).2) := by
  obtain ⟨parts, rfl, hparts⟩ := h
  induction parts with
  | nil => simp
  | cons part parts ih =>
    obtain ⟨hpart, hothers⟩ := List.forall_mem_cons.1 hparts
    rw [List.flatten_cons, List.append_assoc, stringTail_piece hpart, ih hothers,
      List.length_append, Nat.add_assoc]

theorem append_mem_pieces {part : List Char} (hpart : part ∈ piece) (hcs : cs ∈ piece∗) :
    part ++ cs ∈ piece∗ := by
  obtain ⟨parts, rfl, hparts⟩ := hcs
  exact ⟨part :: parts, rfl, List.forall_mem_cons.2 ⟨hpart, hparts⟩⟩

/-- What is taken behind the opening quote is pieces of a literal, and then the closing quote if
there is one. -/
theorem take_stringTail (cs : List Char) :
    ∃ body ∈ piece∗, cs.take (stringTail cs).1
      = body ++ if (stringTail cs).2 then ['"'] else [] := by
  fun_induction stringTail cs with
  | case1 cs => exact ⟨[], Language.nil_mem_kstar piece, rfl⟩
  | case2 cs => exact ⟨[], Language.nil_mem_kstar piece, rfl⟩
  | case3 c cs hfeed length closed htail ih =>
    rw [htail] at ih
    obtain ⟨body, hbody, htake⟩ := ih
    have hpart : ['\\', c] ∈ piece :=
      Or.inr (mem_text_mul.2 ⟨[c], ⟨c, by simpa using hfeed, rfl⟩, rfl⟩)
    refine ⟨'\\' :: c :: body, append_mem_pieces hpart hbody, ?_⟩
    rw [Nat.add_comm, List.take_succ_cons, List.take_succ_cons, htake]
    rfl
  | case4 => exact ⟨[], Language.nil_mem_kstar piece, rfl⟩
  | case5 c cs hquote hbackslash hend length closed htail ih =>
    have hplain : c ≠ '\\' := ne_backslash hbackslash hend
    rw [htail] at ih
    obtain ⟨body, hbody, htake⟩ := ih
    have hpart : [c] ∈ piece := Or.inl ⟨c, by simpa using And.intro hquote hplain, rfl⟩
    refine ⟨c :: body, append_mem_pieces hpart hbody, ?_⟩
    rw [Nat.add_comm, List.take_succ_cons, htake]
    rfl
  | case6 => exact ⟨[], Language.nil_mem_kstar piece, rfl⟩

end Literals

theorem takeWhile_mem_kstar (p : Char → Bool) (cs : List Char) :
    cs.take (cs.takeWhile p).length ∈ (oneOf p)∗ := by
  rw [← List.prefix_iff_eq_take.1 (List.takeWhile_prefix p)]
  exact mem_kstar_oneOf.2 (List.all_eq_true.1 List.all_takeWhile)

/-- A symbol is declared to be one. -/
theorem mem_pattern_symbol (c : Char) : symbol c = .invalid ∨ [c] ∈ (symbol c).pattern := by
  unfold symbol
  repeat' split
  all_goals first
    | exact Or.inl rfl
    | exact Or.inr (congrArg ([·]) ‹_›)

/-- Whatever the lexer takes for a token fits the pattern of its kind. -/
theorem scan_mem_pattern {c : Char} {cs : List Char} (h : (scan c cs).1 ≠ .invalid) :
    c :: cs.take (scan c cs).2 ∈ (scan c cs).1.pattern := by
  have hscans := scans c cs
  generalize scan c cs = found at h hscans
  cases hscans with
  | blank hc => exact mem_oneOf_mul.2 ⟨c, _, hc, takeWhile_mem_kstar isBlank cs, rfl⟩
  | literal hc =>
    subst hc
    obtain ⟨body, hbody, htake⟩ := take_stringTail cs
    dsimp only
    rw [htake]
    cases (stringTail cs).2 with
    | true => exact mem_text_mul.2 ⟨_, Language.append_mem_mul hbody rfl, rfl⟩
    | false => exact mem_text_mul.2 ⟨body, hbody, by simp⟩
  | name hc => exact mem_oneOf_mul.2 ⟨c, _, hc, takeWhile_mem_kstar isNameRest cs, rfl⟩
  | digit hc =>
    obtain ⟨hstarts, hchars⟩ := Decimal.read_of_scans (.digit hc)
    exact Decimal.mem_number.2 ⟨_, Decimal.sound_read hstarts, hchars⟩
  | point hc hdigits =>
    obtain ⟨hstarts, hchars⟩ := Decimal.read_of_scans (.point hc hdigits)
    exact Decimal.mem_number.2 ⟨_, Decimal.sound_read hstarts, hchars⟩
  | colons hc hnext =>
    cases cs with
    | nil => cases hnext
    | cons d cs =>
      cases hc
      cases hnext
      rfl
  | symbol => exact (mem_pattern_symbol c).resolve_left h

end Token

end EventFormula
