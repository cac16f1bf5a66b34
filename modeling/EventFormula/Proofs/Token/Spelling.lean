import EventFormula.Proofs.Text.Decimal
import EventFormula.Token.Lexer

/-!
# How tokens are spelled

The kind of a token says something about its text: whitespace is blank, a number is one in decimal
notation, and a token of one character is always the same. The lexer takes the longest number, so
what it takes is the number that would be read there.
-/

namespace EventFormula

namespace Token

/-- What the longest token is that starts with `c`, and how much of the rest it takes. -/
inductive Scans (c : Char) (cs : List Char) : Kind × Nat → Prop where
  | blank (h : isBlank c = true) : Scans c cs (.whitespace, (cs.takeWhile isBlank).length)
  | literal (h : c = '"') :
      Scans c cs (if (stringTail cs).2 then .string else .unterminatedString, (stringTail cs).1)
  | name (h : isNameStart c = true) : Scans c cs (.identifier, (cs.takeWhile isNameRest).length)
  | digit (h : c.isDigit = true) : Scans c cs (.number, numberTail cs)
  | point (h : c = '.') (hdigits : digits cs ≠ 0) : Scans c cs (.number, decimals cs)
  | colons (h : c = ':') (hnext : cs.head? = some ':') : Scans c cs (.doubleColon, 1)
  | symbol : Scans c cs (symbol c, 0)

theorem scans (c : Char) (cs : List Char) : Scans c cs (scan c cs) := by
  unfold scan
  split
  · exact .blank ‹_›
  split
  · exact .literal ‹_›
  split
  · exact .name ‹_›
  split
  · exact .digit ‹_›
  split
  · rename_i hpoint
    simp only [Bool.and_eq_true, decide_eq_true_eq, bne_iff_ne] at hpoint
    exact .point hpoint.1 hpoint.2
  split
  · rename_i hcolons
    simp only [Bool.and_eq_true, decide_eq_true_eq] at hcolons
    exact .colons hcolons.1 hcolons.2
  · exact .symbol

/-- The character that a token of one character always is. -/
def Kind.spelling? : Kind → Option Char
  | leftParen => some '('
  | rightParen => some ')'
  | plus => some '+'
  | minus => some '-'
  | star => some '*'
  | slash => some '/'
  | _ => none

theorem Kind.plain_of_spelling {kind : Kind} {c : Char} (h : kind.spelling? = some c) :
    kind ≠ .whitespace ∧ kind ≠ .number := by
  cases kind <;> cases h <;> exact ⟨by decide, by decide⟩

/-- The character tells the kind. -/
theorem Kind.eq_of_spelling {first second : Kind} {c : Char} (hfirst : first.spelling? = some c)
    (hsecond : second.spelling? = some c) : first = second := by
  cases first <;> cases hfirst <;> cases second <;> cases hsecond <;> rfl

theorem symbol_of_spelling {c d : Char} (h : (symbol c).spelling? = some d) : c = d := by
  unfold symbol at h
  repeat' split at h
  all_goals cases h <;> assumption

theorem symbol_plain (c : Char) : symbol c ≠ .whitespace ∧ symbol c ≠ .number := by
  unfold symbol
  repeat' split
  all_goals exact ⟨by decide, by decide⟩

end Token

namespace Decimal

theorem drop_digits (cs : List Char) : cs.drop (Token.digits cs) = cs.dropWhile Char.isDigit := by
  have h : cs.takeWhile Char.isDigit ++ cs.dropWhile Char.isDigit = cs :=
    List.takeWhile_append_dropWhile
  calc cs.drop (Token.digits cs)
      = (cs.takeWhile Char.isDigit ++ cs.dropWhile Char.isDigit).drop (Token.digits cs) := by rw [h]
    _ = cs.dropWhile Char.isDigit := List.drop_left

theorem drop_sign (cs : List Char) : cs.drop (Token.sign cs) = (readSign cs).2 := by
  cases cs with
  | nil => rfl
  | cons c cs =>
    by_cases hc : c = '+' ∨ c = '-' <;> simp [Token.sign, readSign, hc]

theorem drop_exponent (cs : List Char) : cs.drop (Token.exponent cs) = (readExponent cs).2 := by
  cases cs with
  | nil => rfl
  | cons c cs =>
    simp only [Token.exponent, readExponent, drop_sign, Bool.or_eq_true, decide_eq_true_eq]
    split
    · by_cases hnone : (readSign cs).2.takeWhile Char.isDigit = []
      · have hdigits : Token.digits (readSign cs).2 = 0 := by rw [Token.digits, hnone]; rfl
        simp only [hnone, hdigits, if_true, List.drop_zero]
      · have hdigits : Token.digits (readSign cs).2 ≠ 0 := fun h =>
          hnone (List.eq_nil_of_length_eq_zero h)
        simp only [hnone, hdigits, if_false]
        rw [Nat.add_assoc, Nat.add_comm, List.drop_succ_cons, ← List.drop_drop, drop_sign,
          drop_digits]
    · rfl

theorem drop_decimals (cs : List Char) :
    cs.drop (Token.decimals cs) = (readExponent (cs.dropWhile Char.isDigit)).2 := by
  rw [Token.decimals, drop_digits, ← List.drop_drop, drop_digits, drop_exponent]

theorem drop_numberTail (cs : List Char) :
    cs.drop (Token.numberTail cs)
      = (readExponent (readFraction (cs.dropWhile Char.isDigit)).2).2 := by
  unfold Token.numberTail
  rw [drop_digits]
  split
  · rename_i rest hrest
    have hread : (readFraction (cs.dropWhile Char.isDigit)).2 = rest.dropWhile Char.isDigit := by
      rw [hrest]
      rfl
    rw [hread, Nat.add_assoc, ← List.drop_drop, drop_digits, hrest, Nat.add_comm 1,
      List.drop_succ_cons, drop_decimals]
  · rename_i hnone
    have hread : (readFraction (cs.dropWhile Char.isDigit)).2 = cs.dropWhile Char.isDigit := by
      unfold readFraction
      split
      · exact absurd ‹_› (hnone _)
      · rfl
    rw [hread, ← List.drop_drop, drop_digits, drop_exponent]

/-- The lexer takes the longest number. -/
theorem read_of_scans {c : Char} {cs : List Char} {length : Nat}
    (h : Token.Scans c cs (.number, length)) :
    Starts (c :: cs) ∧ (read (c :: cs)).1.chars = c :: cs.take length := by
  suffices hrest : Starts (c :: cs) ∧ (read (c :: cs)).2 = cs.drop length by
    refine ⟨hrest.1, List.append_cancel_right (?_ : _ = _ ++ cs.drop length)⟩
    have hchars := chars_read (c :: cs)
    rw [hrest.2] at hchars
    rw [hchars, List.cons_append, List.take_append_drop]
  generalize hkind : (Token.Kind.number, length) = found at h
  cases h with
  | blank _ => cases hkind
  | literal _ =>
    have hliteral := congrArg Prod.fst hkind
    simp only at hliteral
    split at hliteral <;> cases hliteral
  | name _ => cases hkind
  | digit hdigit =>
    cases hkind
    refine ⟨Or.inl hdigit, ?_⟩
    rw [drop_numberTail]
    simp only [read, List.dropWhile_cons_of_pos hdigit]
  | point hpoint hdigits =>
    cases hkind
    subst hpoint
    refine ⟨Or.inr ⟨rfl, ?_⟩, ?_⟩
    · cases cs with
      | nil => exact absurd rfl hdigits
      | cons d cs =>
        refine ⟨d, rfl, ?_⟩
        cases hd : d.isDigit with
        | true => rfl
        | false => simp [Token.digits, hd] at hdigits
    · rw [drop_decimals]
      rfl
  | colons _ _ => cases hkind
  | symbol => exact absurd (congrArg Prod.fst hkind).symm (Token.symbol_plain c).2

end Decimal

namespace Token

/-- The text is as the kind has it: blanks are blank, a number is one in decimal notation, and a
symbol is what it must be. -/
structure Spelled (token : Token) : Prop where
  nonempty : token.text ≠ ""
  blank : token.kind = .whitespace → ∀ c ∈ token.text.toList, isBlank c = true
  number : token.kind = .number → ∃ number : Decimal, number.Sound ∧
    token.text.toList = number.chars
  symbol : ∀ c, token.kind.spelling? = some c → token.text.toList = [c]

theorem Spelled.text_eq {token : Token} {c : Char} (h : token.Spelled)
    (hc : token.kind.spelling? = some c) : token.text = String.ofList [c] := by
  rw [← h.symbol c hc, String.ofList_toList]

/-- What the lexer takes is spelled as its kind says. -/
theorem spelled_of_scans {c : Char} {cs : List Char} {kind : Kind} {length : Nat}
    (h : Scans c cs (kind, length)) (span : Span) :
    Spelled ⟨kind, span, String.ofList (c :: cs.take length)⟩ := by
  have htext : (String.ofList (c :: cs.take length)).toList = c :: cs.take length :=
    String.toList_ofList
  have hnonempty : String.ofList (c :: cs.take length) ≠ "" := by
    intro hempty
    rw [hempty] at htext
    cases htext
  have hnumber (h : Scans c cs (.number, length)) : ∃ number : Decimal, number.Sound ∧
      (String.ofList (c :: cs.take length)).toList = number.chars := by
    obtain ⟨hstarts, hchars⟩ := Decimal.read_of_scans h
    exact ⟨_, Decimal.sound_read hstarts, htext.trans hchars.symm⟩
  -- a kind that says nothing about the text
  have hother (hblank : kind ≠ .whitespace) (hnumber : kind ≠ .number)
      (hsymbol : kind.spelling? = none) :
      Spelled ⟨kind, span, String.ofList (c :: cs.take length)⟩ :=
    ⟨hnonempty, fun h => absurd h hblank, fun h => absurd h hnumber,
      fun d h => by rw [hsymbol] at h; cases h⟩
  generalize hfound : (kind, length) = found at h
  cases h with
  | blank hc =>
    cases hfound
    refine ⟨hnonempty, fun _ => ?_, fun h => (by cases h), fun d h => (by cases h)⟩
    rw [htext]
    refine List.forall_mem_cons.2 ⟨hc, fun d hmem => ?_⟩
    have htake : cs.take (cs.takeWhile isBlank).length = cs.takeWhile isBlank :=
      (List.prefix_iff_eq_take.1 (List.takeWhile_prefix isBlank)).symm
    rw [htake] at hmem
    exact List.all_eq_true.1 List.all_takeWhile d hmem
  | literal _ =>
    have hkind := (Prod.mk.inj hfound).1
    split at hkind
    all_goals
      subst hkind
      exact hother (by decide) (by decide) rfl
  | name _ =>
    cases hfound
    exact hother (by decide) (by decide) rfl
  | digit hc =>
    cases hfound
    exact ⟨hnonempty, fun h => (by cases h), fun _ => hnumber (.digit hc), fun d h => (by cases h)⟩
  | point hc hdigits =>
    cases hfound
    exact ⟨hnonempty, fun h => (by cases h), fun _ => hnumber (.point hc hdigits),
      fun d h => (by cases h)⟩
  | colons _ _ =>
    cases hfound
    exact hother (by decide) (by decide) rfl
  | symbol =>
    cases hfound
    refine ⟨hnonempty, fun h => absurd h (symbol_plain c).1, fun h => absurd h (symbol_plain c).2,
      fun d h => ?_⟩
    rw [htext, symbol_of_spelling h]
    rfl

theorem spelled_of_mem_lexemesFrom {start : Nat} {cs : List Char} {token : Token}
    (h : token ∈ lexemesFrom start cs) : token.Spelled := by
  fun_induction lexemesFrom start cs with
  | case1 => cases h
  | case2 start c cs kind length hscan lexeme stop ih =>
    rcases List.mem_cons.1 h with rfl | h
    · have hscans := scans c cs
      rw [hscan] at hscans
      exact spelled_of_scans hscans _
    · exact ih h

end Token
end EventFormula
