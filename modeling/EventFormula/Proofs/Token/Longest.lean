import EventFormula.Proofs.Expression.Parts
import EventFormula.Proofs.Token.Patterns

/-!
# Longest match

At each place of a text the lexer takes the longest start of what is left that fits a pattern, and
one character as an invalid token where none does. No text fits two patterns, so the kind of a token
is settled with its text. The main statement, `lex_greedy`, is that these are exactly the tokens of
a text.
-/

namespace EventFormula

open scoped Computability

namespace Decimal

theorem length_readExponent_le (cs : List Char) : (readExponent cs).2.length ≤ cs.length := by
  have hlength := congrArg List.length (chars_readExponent cs)
  rw [List.length_append] at hlength
  omega

theorem length_readFraction_le (cs : List Char) : (readFraction cs).2.length ≤ cs.length := by
  have hlength := congrArg List.length (chars_readFraction cs)
  rw [List.length_append] at hlength
  omega

theorem head_dropWhile {cs : List Char} :
    ∀ c ∈ (cs.dropWhile Char.isDigit).head?, c.isDigit = false := by
  intro c hc
  have hhead := List.head?_dropWhile_not Char.isDigit cs
  rw [hc] at hhead
  exact hhead

/-- An exponent is read to its end at least, as more digits may follow. -/
theorem length_readExponent_append_le {exponent : Exponent} (h : exponent.Sound)
    (rest : List Char) :
    (readExponent (exponent.chars ++ rest)).2.length ≤ rest.length := by
  let longer : Exponent :=
    { exponent with digits := exponent.digits ++ rest.takeWhile Char.isDigit }
  have hlonger : longer.Sound := by
    refine ⟨h.letter, h.sign, fun c hc => ?_, fun hnone => ?_⟩
    · rcases List.mem_append.1 hc with hc | hc
      · exact h.digits c hc
      · exact isDigit_of_mem_takeWhile hc
    · exact h.nonempty (List.append_eq_nil_iff.1 hnone).1
  have hchars : exponent.chars ++ rest = longer.chars ++ rest.dropWhile Char.isDigit := by
    simp [longer, Exponent.chars]
  rw [hchars, readExponent_append hlonger head_dropWhile]
  exact (List.dropWhile_suffix Char.isDigit).length_le

/-- A number is read to its end at least. -/
theorem length_read_append_le {number : Decimal} (h : number.Sound) (rest : List Char) :
    (read (number.chars ++ rest)).2.length ≤ rest.length := by
  obtain ⟨whole, fraction, exponent⟩ := number
  have hshorter : (rest.dropWhile Char.isDigit).length ≤ rest.length :=
    (List.dropWhile_suffix Char.isDigit).length_le
  -- the digits in front are left out, and perhaps some that follow them
  have hread (behind : List Char)
      (hbehind : Decimal.chars ⟨whole, fraction, exponent⟩ ++ rest = whole ++ behind) :
      (read (Decimal.chars ⟨whole, fraction, exponent⟩ ++ rest)).2
        = (readExponent (readFraction (behind.dropWhile Char.isDigit)).2).2 := by
    rw [hbehind, read, List.dropWhile_append_of_pos h.whole]
  cases exponent with
  | some x =>
    have hx : x.Sound := h.exponent x rfl
    have hhead : ∀ c ∈ (x.chars ++ rest).head?, c.isDigit = false ∧ c ≠ '.' := by
      intro c hc
      cases hc
      rcases hx.letter with heq | heq <;> rw [heq] <;> decide
    have hstart : ∀ c ∈ (fraction.elim [] ('.' :: ·) ++ (x.chars ++ rest)).head?,
        c.isDigit = false := by
      intro c hc
      cases fraction with
      | none => exact (hhead c hc).1
      | some digits =>
        cases hc
        rfl
    have hstop : (fraction.elim [] ('.' :: ·) ++ (x.chars ++ rest)).dropWhile Char.isDigit
        = fraction.elim [] ('.' :: ·) ++ (x.chars ++ rest) :=
      (takeWhile_digits (fun _ hc => absurd hc List.not_mem_nil) hstart).2
    rw [hread (fraction.elim [] ('.' :: ·) ++ (x.chars ++ rest)) (by simp [chars]), hstop,
      readFraction_append h.places hhead]
    exact length_readExponent_append_le hx rest
  | none =>
    cases fraction with
    | some digits =>
      have hplaces : ∀ c ∈ digits, c.isDigit = true := h.places
      have hpoint : (readFraction (('.' :: (digits ++ rest)).dropWhile Char.isDigit)).2
          = (digits ++ rest).dropWhile Char.isDigit := rfl
      rw [hread ('.' :: (digits ++ rest)) (by simp [chars]), hpoint,
        List.dropWhile_append_of_pos hplaces]
      exact Nat.le_trans (length_readExponent_le _) hshorter
    | none =>
      rw [hread rest (by simp [chars])]
      exact Nat.le_trans (length_readExponent_le _)
        (Nat.le_trans (length_readFraction_le _) hshorter)

end Decimal

namespace Token

/-- What is found is a token, and one that takes more than `length` characters behind its first,
unless it takes just as many and is of the kind. -/
def Reaches (kind : Kind) (length : Nat) (found : Kind × Nat) : Prop :=
  found.1 ≠ .invalid ∧ (length < found.2 ∨ found = (kind, length))

theorem reaches_of_le {kind : Kind} {length more : Nat} (hkind : kind ≠ .invalid)
    (h : length ≤ more) : Reaches kind length (kind, more) := by
  refine ⟨hkind, ?_⟩
  rcases Nat.lt_or_eq_of_le h with hless | rfl
  · exact Or.inl hless
  · exact Or.inr rfl

section Length
variable (cs : List Char)

theorem digits_le : digits cs ≤ cs.length := (List.takeWhile_prefix _).length_le

theorem digits_drop_le {count : Nat} (h : count ≤ cs.length) :
    count + digits (cs.drop count) ≤ cs.length := by
  have hle := digits_le (cs.drop count)
  rw [List.length_drop] at hle
  omega

theorem sign_le : sign cs ≤ cs.length := by
  cases cs with
  | nil => exact Nat.le_refl 0
  | cons c cs =>
    rw [sign, List.length_cons]
    split <;> omega

theorem exponent_le : exponent cs ≤ cs.length := by
  cases cs with
  | nil => exact Nat.le_refl 0
  | cons c cs =>
    have hle := digits_drop_le cs (sign_le cs)
    simp only [exponent, List.length_cons]
    split
    · split <;> omega
    · omega

theorem decimals_le : decimals cs ≤ cs.length := by
  have hdigits := digits_le cs
  have hexponent := exponent_le (cs.drop (digits cs))
  rw [List.length_drop] at hexponent
  rw [decimals]
  omega

theorem numberTail_le : numberTail cs ≤ cs.length := by
  have hdigits := digits_le cs
  have hrest : (cs.drop (digits cs)).length = cs.length - digits cs := List.length_drop
  rw [numberTail]
  split
  · rename_i rest heq
    have hdecimals := decimals_le rest
    rw [heq, List.length_cons] at hrest
    omega
  · have hexponent := exponent_le (cs.drop (digits cs))
    omega

theorem stringTail_le : (stringTail cs).1 ≤ cs.length := by
  fun_induction stringTail cs with
  | case1 cs => exact Nat.succ_le_succ (Nat.zero_le _)
  | case2 cs => exact Nat.zero_le _
  | case3 c cs hfeed length closed htail ih =>
    rw [htail] at ih
    simp only [List.length_cons]
    omega
  | case4 => exact Nat.zero_le _
  | case5 c cs hquote hbackslash hend length closed htail ih =>
    rw [htail] at ih
    simp only [List.length_cons]
    omega
  | case6 => exact Nat.zero_le _

/-- The lexer takes no more than there is. -/
theorem scan_le (c : Char) : (scan c cs).2 ≤ cs.length := by
  have hscans := scans c cs
  generalize scan c cs = found at hscans ⊢
  cases hscans with
  | blank _ => exact (List.takeWhile_prefix _).length_le
  | literal _ => exact stringTail_le cs
  | name _ => exact (List.takeWhile_prefix _).length_le
  | digit _ => exact numberTail_le cs
  | point _ _ => exact decimals_le cs
  | colons _ hnext =>
    cases cs with
    | nil => cases hnext
    | cons d cs => exact Nat.succ_le_succ (Nat.zero_le _)
  | symbol => exact Nat.zero_le _

end Length

section Scan
variable {c : Char} {cs ds : List Char}

/-- A class with none of the four blanks in it has no blank in it. -/
theorem isBlank_eq_false {p : Char → Bool} (hblanks : [' ', '\t', '\r', '\n'].any p = false)
    (h : p c = true) : isBlank c = false := by
  cases hblank : isBlank c with
  | false => rfl
  | true =>
    have hmem : c ∈ [' ', '\t', '\r', '\n'] := by simpa [isBlank, or_assoc] using hblank
    exact absurd h (List.any_eq_false.1 hblanks c hmem)

theorem not_isNameStart_of_isDigit (h : c.isDigit = true) : isNameStart c = false := by
  have hbounds : 48 ≤ c.toNat ∧ c.toNat ≤ 57 := by
    simpa [Char.isDigit, UInt32.le_iff_toNat_le] using h
  have hsmall : c.toNat < 0x80 := by omega
  have hupper : c.isUpper = false := by
    refine decide_eq_false fun hcase => ?_
    have hless : 65 ≤ c.toNat := UInt32.le_iff_toNat_le.1 hcase.1
    omega
  have hlower : c.isLower = false := by
    refine Bool.and_eq_false_iff.2 (Or.inl (decide_eq_false fun hcase => ?_))
    have hless : 97 ≤ c.toNat := UInt32.le_iff_toNat_le.1 hcase
    omega
  have halpha : c.isAlpha = false := Bool.or_eq_false_iff.2 ⟨hupper, hlower⟩
  have hother : c ≠ '_' := fun heq => absurd (heq ▸ h) (by decide)
  simp [isNameStart, Unicode.isLetter, hsmall, halpha, hother]

theorem scan_of_isBlank (h : isBlank c = true) (cs : List Char) :
    scan c cs = (.whitespace, (cs.takeWhile isBlank).length) := if_pos h

theorem scan_of_isNameStart (h : isNameStart c = true) (cs : List Char) :
    scan c cs = (.identifier, (cs.takeWhile isNameRest).length) := by
  have hblank := isBlank_eq_false (p := isNameStart) rfl h
  have hquote : c ≠ '"' := fun heq => absurd (heq ▸ h) (by decide)
  simp [scan, hblank, hquote, h]

/-- Where a number starts, the lexer takes a number. -/
theorem scan_of_starts (h : Decimal.Starts (c :: cs)) : (scan c cs).1 = .number := by
  rcases h with hdigit | ⟨rfl, d, hd, hdigit⟩
  · have hblank := isBlank_eq_false (p := Char.isDigit) rfl hdigit
    have hname := not_isNameStart_of_isDigit hdigit
    have hquote : c ≠ '"' := fun heq => absurd (heq ▸ hdigit) (by decide)
    simp [scan, hblank, hquote, hname, hdigit]
  · obtain ⟨ds, rfl⟩ := List.head?_eq_some_iff.1 hd
    have hname : isNameStart '.' = false := rfl
    have hdigits : digits (d :: ds) ≠ 0 := by simp [digits, hdigit]
    simp [scan, isBlank, hname, hdigits]

theorem scan_quote (cs : List Char) :
    scan '"' cs = (if (stringTail cs).2 then .string else .unterminatedString, (stringTail cs).1) :=
  rfl

/-- A run of characters of one class goes on as long as the class does. -/
theorem length_takeWhile_append {p : Char → Bool} (h : ∀ d ∈ ds, p d = true) (rest : List Char) :
    ds.length ≤ ((ds ++ rest).takeWhile p).length := by
  rw [List.takeWhile_append_of_pos h, List.length_append]
  exact Nat.le_add_right ..

theorem reaches_number (h : c :: ds ∈ Kind.pattern .number) (rest : List Char) :
    Reaches .number ds.length (scan c (ds ++ rest)) := by
  obtain ⟨number, hsound, hchars⟩ := Decimal.mem_number.1 h
  have hstarts : Decimal.Starts (c :: (ds ++ rest)) := by
    rw [← List.cons_append, ← hchars]
    exact Decimal.starts_chars hsound rest
  have hscans := scans c (ds ++ rest)
  have hkind := scan_of_starts hstarts
  generalize scan c (ds ++ rest) = found at hscans hkind ⊢
  obtain ⟨kind, length⟩ := found
  cases hkind
  refine reaches_of_le nofun ?_
  -- what is left behind the number that is read is no longer than what follows
  have hleft := Decimal.length_read_append_le hsound rest
  have htaken := congrArg List.length (Decimal.read_of_scans hscans).2
  have hall := congrArg List.length (Decimal.chars_read (c :: (ds ++ rest)))
  rw [hchars, List.cons_append] at hleft
  simp only [List.length_append, List.length_cons, List.length_take] at htaken hall
  omega

theorem reaches_closed {body : List Char} (h : body ∈ piece∗) (rest : List Char) :
    Reaches .string (body ++ ['"']).length (scan '"' (body ++ ['"'] ++ rest)) := by
  have hclosing : stringTail ('"' :: rest) = (1, true) := rfl
  have htail : stringTail (body ++ ['"'] ++ rest) = ((body ++ ['"']).length, true) := by
    rw [List.append_assoc, List.singleton_append, stringTail_pieces h, hclosing,
      List.length_append, List.length_singleton]
  rw [scan_quote, htail]
  exact reaches_of_le nofun (Nat.le_refl _)

theorem stringTail_pos (h : (stringTail cs).2 = true) : 0 < (stringTail cs).1 := by
  fun_induction stringTail cs with
  | case1 cs => exact Nat.one_pos
  | case2 cs => cases h
  | case3 => exact Nat.add_pos_left Nat.two_pos _
  | case4 => cases h
  | case5 => exact Nat.add_pos_left Nat.one_pos _
  | case6 => cases h

/-- If a literal that is not closed can be closed further on, more of the text is taken. -/
theorem reaches_open {body : List Char} (h : body ∈ piece∗) (rest : List Char) :
    Reaches .unterminatedString body.length (scan '"' (body ++ rest)) := by
  rw [scan_quote, stringTail_pieces h]
  cases hclosed : (stringTail rest).2 with
  | true =>
    exact ⟨nofun, Or.inl (Nat.lt_add_of_pos_right (stringTail_pos hclosed))⟩
  | false => exact reaches_of_le nofun (Nat.le_add_right ..)

/-- A point in front of digits is a part of a number. -/
theorem reaches_point (rest : List Char) : Reaches .dot 0 (scan '.' rest) := by
  have hname : isNameStart '.' = false := rfl
  by_cases hdigits : digits rest = 0
  · have hscan : scan '.' rest = (.dot, 0) := by simp [scan, isBlank, hname, hdigits, symbol]
    rw [hscan]
    exact reaches_of_le nofun (Nat.le_refl 0)
  · have hscan : scan '.' rest = (.number, decimals rest) := by
      simp [scan, isBlank, hname, hdigits]
    have hpos : 0 < decimals rest :=
      Nat.lt_of_lt_of_le (Nat.pos_of_ne_zero hdigits) (Nat.le_add_right ..)
    rw [hscan]
    exact ⟨nofun, Or.inl hpos⟩

/-- If some text that a pattern takes is followed by anything else, the lexer takes that text or
more. -/
theorem reaches_scan {kind : Kind} (h : c :: ds ∈ kind.pattern) (rest : List Char) :
    Reaches kind ds.length (scan c (ds ++ rest)) := by
  cases kind with
  | whitespace =>
    obtain ⟨_, _, hc, hds, heq⟩ := mem_oneOf_mul.1 h
    cases heq
    rw [scan_of_isBlank hc]
    exact reaches_of_le nofun (length_takeWhile_append (mem_kstar_oneOf.1 hds) rest)
  | number => exact reaches_number h rest
  | string =>
    obtain ⟨_, ⟨body, hbody, _, rfl, rfl⟩, heq⟩ := mem_text_mul.1 h
    obtain ⟨rfl, rfl⟩ := List.cons.inj heq
    exact reaches_closed hbody rest
  | unterminatedString =>
    obtain ⟨body, hbody, heq⟩ := mem_text_mul.1 h
    obtain ⟨rfl, rfl⟩ := List.cons.inj heq
    exact reaches_open hbody rest
  | identifier =>
    obtain ⟨_, _, hc, hds, heq⟩ := mem_oneOf_mul.1 h
    cases heq
    rw [scan_of_isNameStart hc]
    exact reaches_of_le nofun (length_takeWhile_append (mem_kstar_oneOf.1 hds) rest)
  | doubleColon =>
    cases h
    exact reaches_of_le nofun (Nat.le_refl 1)
  | dot =>
    cases h
    exact reaches_point rest
  | invalid => cases h
  | endOfText => cases h
  | _ =>
    cases h
    exact reaches_of_le nofun (Nat.le_refl 0)

end Scan

/-- The text is the longest start of `cs` that some pattern takes, and it is the pattern of `kind`
that takes it. -/
structure Longest (cs : List Char) (kind : Kind) (text : List Char) : Prop where
  starts : text <+: cs
  fits : text ∈ kind.pattern
  longest : ∀ (other : Kind) (start : List Char),
    start <+: cs → start ∈ other.pattern → start.length ≤ text.length

/-- The token at the front of `cs`: the longest that there is, or else one invalid character. -/
inductive Front : List Char → Kind → List Char → Prop where
  | token {cs text : List Char} {kind : Kind} (h : Longest cs kind text) : Front cs kind text
  | invalid {c : Char} {cs : List Char}
      (h : ∀ (kind : Kind) (start : List Char), start <+: c :: cs → start ∉ kind.pattern) :
      Front (c :: cs) .invalid [c]

/-- The tokens that stand in `cs` from an offset on, if at each place the one at the front is taken.
-/
inductive Greedy : (start : Nat) → List Char → List Token → Prop where
  | done (start : Nat) : Greedy start [] [⟨.endOfText, .point start, ""⟩]
  | next {start : Nat} {kind : Kind} {text rest : List Char} {tokens : List Token}
      (front : Front (text ++ rest) kind text)
      (others : Greedy (start + Text.size text) rest tokens) :
      Greedy start (text ++ rest)
        (⟨kind, ⟨start, start + Text.size text⟩, String.ofList text⟩ :: tokens)

section Front
variable {c : Char} {cs text rest : List Char} {kind : Kind}

theorem ne_nil_of_mem_pattern (h : text ∈ kind.pattern) : text ≠ [] := by
  rintro rfl
  cases kind with
  | whitespace | identifier =>
    obtain ⟨_, _, _, _, heq⟩ := mem_oneOf_mul.1 h
    cases heq
  | string | unterminatedString =>
    obtain ⟨_, _, heq⟩ := mem_text_mul.1 h
    cases heq
  | number =>
    obtain ⟨number, hsound, hchars⟩ := Decimal.mem_number.1 h
    have hstarts := Decimal.starts_chars hsound []
    rw [hchars] at hstarts
    exact hstarts
  | _ => cases h

/-- What a pattern takes at the front of a text, the lexer takes too, or more. -/
theorem reaches_of_prefix (hstart : text <+: c :: cs) (hfits : text ∈ kind.pattern) :
    ∃ ds, text = c :: ds ∧ ds <+: cs ∧ Reaches kind ds.length (scan c cs) := by
  obtain ⟨rest, hrest⟩ := hstart
  cases text with
  | nil => exact absurd rfl (ne_nil_of_mem_pattern hfits)
  | cons d ds =>
    obtain ⟨rfl, rfl⟩ := List.cons.inj hrest
    exact ⟨ds, rfl, List.prefix_append ds rest, reaches_scan hfits rest⟩

theorem starts_scan (c : Char) (cs : List Char) : c :: cs.take (scan c cs).2 <+: c :: cs :=
  List.cons_prefix_cons.2 ⟨rfl, List.take_prefix ..⟩

/-- An invalid token is one character. -/
theorem scan_of_invalid (h : (scan c cs).1 = .invalid) : scan c cs = (.invalid, 0) := by
  have hscans := scans c cs
  generalize scan c cs = found at h hscans ⊢
  cases hscans with
  | literal _ => cases hclosed : (stringTail cs).2 <;> simp [hclosed] at h
  | symbol => exact Prod.ext h rfl
  | _ => cases h

/-- What the lexer takes stands at the front. -/
theorem front_scan (c : Char) (cs : List Char) :
    Front (c :: cs) (scan c cs).1 (c :: cs.take (scan c cs).2) := by
  by_cases hkind : (scan c cs).1 = .invalid
  · rw [scan_of_invalid hkind]
    refine .invalid fun kind start hstart hfits => ?_
    obtain ⟨ds, -, -, hreaches⟩ := reaches_of_prefix hstart hfits
    exact hreaches.1 hkind
  · refine .token ⟨starts_scan c cs, scan_mem_pattern hkind, fun other start hstart hfits => ?_⟩
    obtain ⟨ds, rfl, hds, -, hreaches⟩ := reaches_of_prefix hstart hfits
    have hlength := hds.length_le
    have hless : ds.length ≤ (scan c cs).2 := by
      rcases hreaches with hless | heq
      · exact Nat.le_of_lt hless
      · rw [heq]
    simp only [List.length_cons, List.length_take]
    omega

/-- Nothing else stands at the front. -/
theorem scan_of_front (h : Front (c :: cs) kind text) :
    kind = (scan c cs).1 ∧ text = c :: cs.take (scan c cs).2 := by
  cases h with
  | token h =>
    obtain ⟨ds, rfl, hds, htoken, hreaches⟩ := reaches_of_prefix h.starts h.fits
    have hlongest := h.longest _ _ (starts_scan c cs) (scan_mem_pattern htoken)
    have hle := scan_le cs c
    simp only [List.length_cons, List.length_take] at hlongest
    rcases hreaches with hless | heq
    · omega
    · rw [heq]
      exact ⟨rfl, congrArg (c :: ·) (List.prefix_iff_eq_take.1 hds)⟩
  | invalid h =>
    have hkind : (scan c cs).1 = .invalid := by
      by_contra htoken
      exact h _ _ (starts_scan c cs) (scan_mem_pattern htoken)
    rw [scan_of_invalid hkind]
    exact ⟨rfl, rfl⟩

theorem Front.ne_nil (h : Front cs kind text) : text ≠ [] := by
  cases h with
  | token h => exact ne_nil_of_mem_pattern h.fits
  | invalid h => exact nofun

/-- Something stands at the front of every text. -/
theorem exists_front (h : cs ≠ []) :
    ∃ kind text rest, cs = text ++ rest ∧ Front (text ++ rest) kind text := by
  cases cs with
  | nil => exact absurd rfl h
  | cons c cs =>
    have hsplit : c :: cs = (c :: cs.take (scan c cs).2) ++ cs.drop (scan c cs).2 := by
      rw [List.cons_append, List.take_append_drop]
    exact ⟨_, _, _, hsplit, hsplit ▸ front_scan c cs⟩

theorem lexemesFrom_cons (start : Nat) (c : Char) (cs : List Char) :
    lexemesFrom start (c :: cs)
      = ⟨(scan c cs).1, .ofRange start (start + Text.size (c :: cs.take (scan c cs).2)),
          String.ofList (c :: cs.take (scan c cs).2)⟩
        :: lexemesFrom (start + Text.size (c :: cs.take (scan c cs).2))
          (cs.drop (scan c cs).2) := by
  rw [lexemesFrom]

/-- The lexer takes what stands at the front, and goes on behind it. -/
theorem lexemesFrom_append (h : Front (text ++ rest) kind text) (start : Nat) :
    lexemesFrom start (text ++ rest)
      = ⟨kind, .ofRange start (start + Text.size text), String.ofList text⟩
        :: lexemesFrom (start + Text.size text) rest := by
  cases text with
  | nil => exact absurd rfl h.ne_nil
  | cons c ds =>
    rw [List.cons_append] at h ⊢
    obtain ⟨rfl, htext⟩ := scan_of_front h
    have htake := (List.cons.inj htext).2
    have hsplit : ds ++ rest = ds ++ (ds ++ rest).drop (scan c (ds ++ rest)).2 := by
      nth_rewrite 2 [htake]
      rw [List.take_append_drop]
    have hdrop : rest = (ds ++ rest).drop (scan c (ds ++ rest)).2 :=
      List.append_cancel_left hsplit
    rw [lexemesFrom_cons, ← htake, ← hdrop]

/-- What is taken as long as no offset is clamped is what the lexer yields, with the token that
closes the text. -/
theorem greedy_iff {start : Nat} {cs : List Char} {tokens : List Token}
    (hfits : start + Text.size cs ≤ maxOffset) :
    Greedy start cs tokens ↔
      tokens = lexemesFrom start cs ++ [⟨.endOfText, .point (start + Text.size cs), ""⟩] := by
  constructor
  · intro h
    induction h with
    | done start => rw [lexemesFrom]; rfl
    | @next start kind text rest tokens front others ih =>
      rw [Text.size_append] at hfits ⊢
      have hspan : Span.ofRange start (start + Text.size text)
          = ⟨start, start + Text.size text⟩ := by
        simp only [Span.ofRange, Span.mk.injEq]
        omega
      rw [lexemesFrom_append front, hspan, ih (by omega), ← Nat.add_assoc, List.cons_append]
  · rintro rfl
    -- by the recursion of the lexer, which takes what stands at the front each time
    fun_induction lexemesFrom start cs with
    | case1 start => exact .done start
    | case2 start c cs kind length hscan text stop ih =>
      have hfront := front_scan c cs
      rw [hscan] at hfront
      have hsplit : c :: cs = text ++ cs.drop length := by
        rw [List.cons_append, List.take_append_drop]
      rw [hsplit] at hfront hfits ⊢
      rw [Text.size_append, ← Nat.add_assoc] at hfits ⊢
      have hspan : Span.ofRange start stop = ⟨start, stop⟩ := by
        simp only [Span.ofRange, Span.mk.injEq]
        omega
      rw [hspan, List.cons_append]
      exact .next hfront (ih hfits)

/-- The lexer cuts a text greedily, and loses nothing. What it yields are the tokens that are taken
when at each place the longest text that fits a pattern is taken, with the kind of that pattern, or
one invalid character where none fits. They lie one behind the other from the first byte to the
last, each of them takes whole characters, and at least one, and their texts together are the text.
-/
theorem lex_greedy {source : String} (hfits : Text.size source.toList ≤ maxOffset) :
    (∀ tokens, Greedy 0 source.toList tokens ↔ tokens = lex source) ∧
      Laid 0 (lexemes source) (Text.size source.toList) ∧
      (∀ token ∈ lexemes source, token.span.start < token.span.stop ∧
        Text.IsCut source.toList token.span.start ∧ Text.IsCut source.toList token.span.stop ∧
        Text.slice source token.span.start token.span.stop = token.text) ∧
      concat (lexemes source) = source := by
  have hlaid := laid_lexemes hfits
  have hchars : chars (lexemes source) = source.toList := chars_lexemesFrom 0 source.toList
  refine ⟨fun tokens => ?_, hlaid, fun token hmem => ?_, concat_lexemes source⟩
  · have hclosing : closing source = ⟨.endOfText, .point (0 + Text.size source.toList), ""⟩ := by
      simp only [closing, Span.ofRange, Span.point, Nat.zero_add, Nat.min_eq_left hfits]
    rw [lex, hclosing]
    exact greedy_iff (by omega)
  · have hcuts := hlaid.cuts hmem
    rw [hchars] at hcuts
    obtain ⟨first, last, hsplit⟩ := List.append_of_mem hmem
    rw [hsplit] at hlaid
    obtain ⟨hstart, hstop⟩ := hlaid.place
    have hslice : Text.slice source token.span.start token.span.stop = concat [token] := by
      rw [hstart, hstop]
      exact slice_run (by rw [hsplit, List.append_assoc]; rfl)
    refine ⟨(hlaid.of_mem (List.mem_append_right first List.mem_cons_self)).2.1, hcuts.start,
      hcuts.stop, ?_⟩
    rw [hslice, concat, chars_cons, chars_nil, List.append_nil, String.ofList_toList]

theorem lex_greedy_exponent :
    Text.size "1e+.5\"é\\".toList ≤ maxOffset ∧
      Greedy 0 "1e+.5\"é\\".toList
        [⟨.number, ⟨0, 1⟩, "1"⟩, ⟨.identifier, ⟨1, 2⟩, "e"⟩, ⟨.plus, ⟨2, 3⟩, "+"⟩,
          ⟨.number, ⟨3, 5⟩, ".5"⟩, ⟨.unterminatedString, ⟨5, 8⟩, "\"é"⟩, ⟨.invalid, ⟨8, 9⟩, "\\"⟩,
          ⟨.endOfText, .point 9, ""⟩] :=
  have hfits : Text.size "1e+.5\"é\\".toList ≤ maxOffset := by decide +kernel
  ⟨hfits, ((lex_greedy hfits).1 _).2 (by decide +kernel)⟩

end Front

end Token

end EventFormula
