import EventFormula.Proofs.Target.Atoms
import EventFormula.Proofs.Token.Runs
import Mathlib.Data.List.Forall2

/-!
# Tokens of the code

In the code of arithmetic a number may be longer than it was typed, by a point and a zero. That
this runs into nothing rests on the grammar: behind a complete term comes a blank, an operator or a
parenthesis, and none of these could go on with a number. So the lexer cuts the code where it cut
the formula. The main statement, `stable_of_arithmetic`, says that the tokens of the code are the
normal forms of the tokens typed, one behind the other.
-/

namespace EventFormula

namespace Fragment

theorem numberCode_cases (text : String) :
    numberCode text = text ∨ numberCode text = text ++ ".0" := by
  unfold numberCode
  split
  · exact Or.inl rfl
  · exact Or.inr rfl

/-- The code of a number has a point or an exponent in it. -/
theorem any_isMark_numberCode (text : String) :
    (numberCode text).toList.any Decimal.isMark = true := by
  unfold numberCode
  split
  · assumption
  · rw [String.toList_append, List.any_append]
    exact Bool.or_true _

theorem numberCode_numberCode (text : String) : numberCode (numberCode text) = numberCode text :=
  if_pos (any_isMark_numberCode text)

end Fragment

namespace Token

/-- The token as it stands in the code, but where it was typed. -/
def normal (token : Token) : Token := { token with text := token.code }

/-- What a token becomes: a number gets `.0` if it has neither point nor exponent, and keeps its
value. Any other token stays the same. -/
structure Normalises (token other : Token) : Prop where
  kind : other.kind = token.kind
  text : other.text = token.text ∨ (token.kind = .number ∧ other.text = token.text ++ ".0")
  mark : token.kind = .number → other.text.toList.any Decimal.isMark = true
  value : token.kind = .number →
    (Decimal.ofText other.text).value = (Decimal.ofText token.text).value

section Normal
variable {token : Token} {tokens : List Token} {start : Nat}

theorem code_normal (token : Token) : token.normal.code = token.code := by
  by_cases hkind : token.kind = .number
  · have hcode : token.code = Fragment.numberCode token.text := if_pos hkind
    calc token.normal.code = Fragment.numberCode token.code := if_pos hkind
      _ = token.code := by rw [hcode, Fragment.numberCode_numberCode]
  · exact if_neg hkind

theorem normalises (h : token.Spelled) (span : Span) :
    token.Normalises { token.normal with span := span } where
  kind := rfl
  text := by
    by_cases hkind : token.kind = .number
    · have hcode : token.code = Fragment.numberCode token.text := if_pos hkind
      change token.code = _ ∨ _ ∧ token.code = _
      rw [hcode]
      exact (Fragment.numberCode_cases token.text).imp_right fun htext => ⟨hkind, htext⟩
    · exact Or.inl (if_neg hkind)
  mark hkind := by
    have hcode : token.code = Fragment.numberCode token.text := if_pos hkind
    change token.code.toList.any Decimal.isMark = true
    rw [hcode]
    exact Fragment.any_isMark_numberCode token.text
  value hkind := by
    obtain ⟨found, hsound, hcode, hvalue, -⟩ := JavaScript.Atom.code_of_number h hkind
    change (Decimal.ofText token.code).value = _
    rw [Decimal.ofText_eq hsound hcode, hvalue]

theorem normalises_placed (h : ∀ token ∈ tokens, token.Spelled) :
    List.Forall₂ Normalises tokens (placed start (tokens.map normal)) := by
  induction tokens generalizing start with
  | nil => exact .nil
  | cons token tokens ih =>
    obtain ⟨htoken, hrest⟩ := List.forall_mem_cons.1 h
    exact .cons (normalises htoken _) (ih hrest)

theorem kinds_placed_normal :
    (placed start (tokens.map normal)).map Token.kind = tokens.map Token.kind := by
  induction tokens generalizing start with
  | nil => rfl
  | cons token tokens ih => exact congrArg (token.kind :: ·) ih

/-- The code of the code is the code. -/
theorem codes_placed_normal : codes (placed start (tokens.map normal)) = codes tokens := by
  induction tokens generalizing start with
  | nil => rfl
  | cons token tokens ih =>
    change token.normal.code.toList ++ codes _ = _
    rw [code_normal, ih, codes_cons]

/-- The code starts as the formula does. -/
theorem head?_codes (h : ∀ token ∈ tokens, token.Spelled) :
    (codes tokens).head? = (chars tokens).head? := by
  cases tokens with
  | nil => rfl
  | cons token tokens =>
    have hprefix : token.text.toList <+: token.code.toList := by
      unfold code
      split
      · rcases Fragment.numberCode_cases token.text with hcode | hcode <;> rw [hcode]
        rw [String.toList_append]
        exact List.prefix_append ..
      · exact List.prefix_rfl
    obtain ⟨more, hcode⟩ := hprefix
    have hne : token.text.toList ≠ [] := fun hnil =>
      (h token List.mem_cons_self).nonempty (String.toList_eq_nil_iff.1 hnil)
    rw [codes_cons, chars_cons, ← hcode, List.append_assoc, List.head?_append_of_ne_nil _ hne,
      List.head?_append_of_ne_nil _ hne]

end Normal

section Scan
variable {c : Char} {cs ds rest : List Char} {kind : Kind} {start : Nat}

theorem Front.longest (h : Front cs kind ds) (hkind : kind ≠ .invalid) : Longest cs kind ds := by
  cases h with
  | token h => exact h
  | invalid _ => exact absurd rfl hkind

/-- Whitespace goes on to the next character that is not blank. -/
theorem Longest.not_blank (h : Longest (ds ++ rest) .whitespace ds) :
    ∀ c ∈ rest.head?, isBlank c = false := by
  intro c hmem
  obtain ⟨others, rfl⟩ := List.head?_eq_some_iff.1 hmem
  refine Bool.eq_false_iff.2 fun hblank => ?_
  -- with one blank more it would fit the pattern, too
  obtain ⟨d, tail, hd, htail, rfl⟩ := mem_oneOf_mul.1 h.fits
  have hmore : d :: (tail ++ [c]) ∈ Kind.pattern .whitespace := by
    refine mem_oneOf_mul.2 ⟨d, tail ++ [c], hd, mem_kstar_oneOf.2 ?_, rfl⟩
    exact List.forall_mem_append.2
      ⟨mem_kstar_oneOf.1 htail, List.forall_mem_singleton.2 hblank⟩
  have hstarts : d :: (tail ++ [c]) <+: d :: tail ++ c :: others := ⟨others, by simp⟩
  have hlength := h.longest .whitespace _ hstarts hmore
  simp only [List.length_cons, List.length_append, List.length_nil] at hlength
  omega

theorem scan_blanks (hc : isBlank c = true) (hds : ∀ d ∈ ds, isBlank d = true)
    (hrest : ∀ d ∈ rest.head?, isBlank d = false) :
    scan c (ds ++ rest) = (.whitespace, ds.length) := by
  have hstop : rest.takeWhile isBlank = [] := by
    cases rest with
    | nil => rfl
    | cons d rest => exact List.takeWhile_cons_of_neg (by rw [hrest d rfl]; decide)
  rw [scan_of_isBlank hc, List.takeWhile_append_of_pos hds, hstop, List.append_nil]

/-- A number is taken up to where it could not go on. -/
theorem scan_number {found : Decimal} (h : found.Sound) (hchars : found.chars = c :: ds)
    (hrest : Decimal.Ends rest) : scan c (ds ++ rest) = (.number, ds.length) := by
  have hstarts := Decimal.starts_chars h rest
  have hread := Decimal.read_append h hrest
  rw [hchars, List.cons_append] at hstarts hread
  have hscans := scans c (ds ++ rest)
  have hkind := scan_of_starts hstarts
  have hle := scan_le (ds ++ rest) c
  generalize scan c (ds ++ rest) = found at hscans hkind hle ⊢
  obtain ⟨kind, length⟩ := found
  cases hkind
  have htaken := (Decimal.read_of_scans hscans).2
  rw [hread, hchars] at htaken
  have hlength := congrArg List.length (List.cons.inj htaken).2
  rw [List.length_take, Nat.min_eq_left hle] at hlength
  rw [hlength]

theorem scan_symbol (h : kind.spelling? = some c) : scan c cs = (kind, 0) := by
  cases kind <;> cases h <;> rfl

/-- What the lexer takes is the first token, and it goes on behind it. -/
theorem lexemesFrom_of_scan (h : scan c (ds ++ rest) = (kind, ds.length)) :
    lexemesFrom start (c :: ds ++ rest)
      = ⟨kind, .ofRange start (start + Text.size (c :: ds)), String.ofList (c :: ds)⟩
        :: lexemesFrom (start + Text.size (c :: ds)) rest := by
  have hfront := front_scan c (ds ++ rest)
  rw [h, List.take_left] at hfront
  exact lexemesFrom_append hfront start

end Scan

section Codes
variable {token : Token} {tokens : List Token}

/-- The lexer cuts the code where it cut the formula. -/
def Stable (tokens : List Token) : Prop :=
  ∀ start, lexemesFrom start (codes tokens) = placed start (tokens.map normal)

/-- If the lexer takes the code of a token by itself, that is the first token. -/
theorem stable_cons {c : Char} {ds : List Char} (hcode : token.code.toList = c :: ds)
    (hscan : scan c (ds ++ codes tokens) = (token.kind, ds.length)) (hrest : Stable tokens) :
    Stable (token :: tokens) := by
  intro start
  rw [codes_cons, hcode, lexemesFrom_of_scan hscan, hrest, ← hcode, String.ofList_toList]
  rfl

/-- The tokens are those of some text. -/
def Lexed (tokens : List Token) : Prop := ∃ start cs, lexemesFrom start cs = tokens

theorem Lexed.spelled (h : Lexed tokens) : ∀ token ∈ tokens, token.Spelled := by
  obtain ⟨start, cs, rfl⟩ := h
  exact fun _ => spelled_of_mem_lexemesFrom

theorem Lexed.head (h : Lexed (token :: tokens)) : token.Spelled := h.spelled _ List.mem_cons_self

theorem Lexed.tail (h : Lexed (token :: tokens)) : Lexed tokens := by
  obtain ⟨start, cs, h⟩ := h
  obtain ⟨rest, -, -, hbehind⟩ := front_of_lexemesFrom h
  exact ⟨_, rest, hbehind⟩

/-- Behind whitespace comes what came there when it was typed, and that is no blank. -/
theorem Lexed.head_behind_blank (h : Lexed (token :: tokens)) (hkind : token.kind = .whitespace) :
    ∀ c ∈ (codes tokens).head?, isBlank c = false := by
  rw [head?_codes h.tail.spelled]
  obtain ⟨start, cs, h⟩ := h
  obtain ⟨rest, rfl, hfront, hbehind⟩ := front_of_lexemesFrom h
  rw [hkind] at hfront
  rw [← hbehind, chars_lexemesFrom]
  exact (hfront.longest (by decide)).not_blank

theorem stable_blank (htoken : token.Spelled) (hkind : token.kind = .whitespace)
    (hstop : ∀ c ∈ (codes tokens).head?, isBlank c = false) (hrest : Stable tokens) :
    Stable (token :: tokens) := by
  cases htext : token.text.toList with
  | nil => exact absurd (String.toList_eq_nil_iff.1 htext) htoken.nonempty
  | cons c ds =>
    obtain ⟨hc, hds⟩ := List.forall_mem_cons.1 (htext ▸ htoken.blank hkind)
    have hcode : token.code.toList = c :: ds := by
      rw [JavaScript.Atom.code_of_blank hkind, htext]
    exact stable_cons hcode (hkind ▸ scan_blanks hc hds hstop) hrest

theorem stable_number (htoken : token.Spelled) (hkind : token.kind = .number)
    (hends : Decimal.Ends (codes tokens)) (hrest : Stable tokens) : Stable (token :: tokens) := by
  obtain ⟨found, hsound, hcode, -⟩ := JavaScript.Atom.code_of_number htoken hkind
  cases hchars : found.chars with
  | nil =>
    have hstarts := Decimal.starts_chars hsound []
    rw [hchars] at hstarts
    exact hstarts.elim
  | cons c ds =>
    exact stable_cons (hcode.trans hchars) (hkind ▸ scan_number hsound hchars hends) hrest

/-- A symbol is taken by itself, whatever follows. -/
theorem stable_symbol {c : Char} (htoken : token.Spelled) (hc : token.kind.spelling? = some c)
    (hrest : Stable tokens) : Stable (token :: tokens) :=
  stable_cons (JavaScript.Atom.code_of_spelling htoken hc) (scan_symbol hc) hrest

/-- The tokens of the code are those of the formula, the numbers with a point or an exponent. -/
theorem stable_of_arithmetic {complete : Bool} (h : Trace.Arithmetic complete tokens)
    (hlexed : Lexed tokens) : Stable tokens := by
  induction h with
  | done =>
    intro start
    rw [codes, List.flatMap_nil, lexemesFrom]
    rfl
  | blank hkind _ ih =>
    exact stable_blank hlexed.head hkind
      (hlexed.head_behind_blank hkind) (ih hlexed.tail)
  | number hkind h ih =>
    exact stable_number hlexed.head hkind
      (JavaScript.Atom.ends_number h hlexed.tail.spelled).1 (ih hlexed.tail)
  | sign hkind _ ih =>
    obtain ⟨c, -, hc⟩ :=
      JavaScript.Atom.symbol_of_operator (Trace.Reader.operator_of_sign hkind)
    exact stable_symbol hlexed.head hc (ih hlexed.tail)
  | operator hkind _ ih =>
    obtain ⟨c, -, hc⟩ := JavaScript.Atom.symbol_of_operator hkind
    exact stable_symbol hlexed.head hc (ih hlexed.tail)
  | @opening token _ hkind _ ih =>
    have hc : token.kind.spelling? = some '(' := by rw [hkind]; rfl
    exact stable_symbol hlexed.head hc (ih hlexed.tail)
  | @closing token _ hkind _ ih =>
    have hc : token.kind.spelling? = some ')' := by rw [hkind]; rfl
    exact stable_symbol hlexed.head hc (ih hlexed.tail)

end Codes

end Token
end EventFormula
