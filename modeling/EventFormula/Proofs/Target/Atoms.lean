import EventFormula.Proofs.Lowering.Reuse
import EventFormula.Proofs.Token.Spelling
import EventFormula.Proofs.Trace.Arithmetic

/-!
# How the target reads arithmetic

The code of a number formula without calls is text that the target cuts into numbers and punctuators
again, by rules of its own: `++` and `--` are one punctuator each, and a zero that leads a number
has no digit after it. So what the target reads is what the designer typed, provided that no two
equal signs touch and no number is padded with zeros, and not otherwise. The main statement is
`lower_arithmetic`. That the proviso is not always met is shown behind it.
-/

namespace EventFormula

namespace JavaScript

/-- What arithmetic is made of. -/
inductive Atom where
  | number (value : Rat)
  | punctuator (text : String)
deriving DecidableEq

namespace Atom

/-- Blanks and ends of lines. -/
def spaces : List Char :=
  ['\t', '\n', '\x0b', '\x0c', '\r', ' ', '\u00a0', '\u1680', '\u2000', '\u2001', '\u2002',
    '\u2003', '\u2004', '\u2005', '\u2006', '\u2007', '\u2008', '\u2009', '\u200a', '\u2028',
    '\u2029', '\u202f', '\u205f', '\u3000', '\ufeff']

/-- What a name can start with. -/
def startsName (c : Char) : Bool := c = '$' || c = '\\' || Token.isNameStart c

/-- What starts a comment. -/
def comments : List (List Char) := [['/', '/'], ['/', '*']]

/-- The punctuators of arithmetic that take more than one character, longer ones first. -/
def compounds : List (List Char) :=
  [['*', '*', '='], ['*', '*'], ['*', '='], ['+', '+'], ['+', '='], ['-', '-'], ['-', '='],
    ['/', '=']]

/-- The punctuators that take one character. -/
def symbols : List Char := ['(', ')', '*', '+', '-', '/']

/-- The longest atom that starts with `c`, and how many of the characters after `c` it takes. A
space is no atom. Nothing else is read: no name, no comment, and no number that is padded or runs
into a name. -/
def next? (c : Char) (cs : List Char) : Option (Option Atom × Nat) :=
  if c ∈ spaces then some (none, 0)
  else if Decimal.Starts (c :: cs) then
    let (found, rest) := Decimal.read (c :: cs)
    if found.padded || rest.head?.any startsName then none
    else some (some (.number found.value), found.chars.length - 1)
  else if comments.any fun text => text.isPrefixOf (c :: cs) then none
  else
    ((compounds ++ symbols.map ([·])).find? fun text => text.isPrefixOf (c :: cs)).map fun text =>
      (some (.punctuator (String.ofList text)), text.length - 1)

/-- The atoms of a text that is made of nothing else. -/
def atoms? : List Char → Option (List Atom)
  | [] => some []
  | c :: cs => do
    let (atom, length) ← next? c cs
    let atoms ← atoms? (cs.drop length)
    return atom.toList ++ atoms
termination_by cs => cs.length
decreasing_by
  simp only [List.length_drop, List.length_cons]
  omega

/-- The atoms of a code that is arithmetic. -/
def read? (code : String) : Option (List Atom) := atoms? code.toList

/-- What is meant by a token: whitespace is no atom. -/
def ofToken? (token : Token) : Option Atom :=
  match token.kind with
  | .whitespace => none
  | .number => some (.number (Decimal.ofText token.text).value)
  | _ => some (.punctuator token.text)

/-- What the designer typed: the numbers with their values, the signs, operators and parentheses. -/
def ofTokens (tokens : List Token) : List Atom := tokens.filterMap ofToken?

theorem atoms?_nil : atoms? [] = some [] := by
  rw [atoms?]

theorem atoms?_of_next {c : Char} {cs : List Char} {atom : Option Atom} {length : Nat}
    (h : next? c cs = some (atom, length)) :
    atoms? (c :: cs) = (atoms? (cs.drop length)).map (atom.toList ++ ·) := by
  rw [atoms?, h]
  cases hrest : atoms? (cs.drop length) with
  | none => simp [hrest]
  | some atoms => simp [hrest]

theorem atoms?_of_none {c : Char} {cs : List Char} (h : next? c cs = none) :
    atoms? (c :: cs) = none := by
  rw [atoms?, h]
  rfl

section Reading
variable {c : Char} {rest : List Char}

theorem mem_spaces_of_isBlank (h : Token.isBlank c = true) : c ∈ spaces := by
  simp only [Token.isBlank, Bool.or_eq_true, decide_eq_true_eq] at h
  rcases h with ((rfl | rfl) | rfl) | rfl <;> decide

/-- Blanks are skipped. -/
theorem atoms?_blanks {blanks : List Char} (h : ∀ c ∈ blanks, Token.isBlank c = true) :
    atoms? (blanks ++ rest) = atoms? rest := by
  induction blanks with
  | nil => rfl
  | cons c blanks ih =>
    obtain ⟨hc, hblanks⟩ := List.forall_mem_cons.1 h
    have hnext : next? c (blanks ++ rest) = some (none, 0) := if_pos (mem_spaces_of_isBlank hc)
    rw [List.cons_append, atoms?_of_next hnext, List.drop_zero, ih hblanks]
    exact Option.map_id'

/-- No space starts a number. -/
theorem not_mem_spaces (h : Decimal.Starts (c :: rest)) : c ∉ spaces := by
  have hspaces : ∀ c ∈ spaces, c.isDigit = false ∧ c ≠ '.' := by simp [spaces]
  intro hmem
  obtain ⟨hdigit, hpoint⟩ := hspaces c hmem
  rcases h with h | ⟨h, -⟩
  · rw [h] at hdigit
    cases hdigit
  · exact hpoint h

/-- A number is read up to where it could not go on, unless it is padded. -/
theorem atoms?_number {found : Decimal} (h : found.Sound) (hends : Decimal.Ends rest)
    (hname : ∀ c ∈ rest.head?, startsName c = false) :
    atoms? (found.chars ++ rest)
      = if found.padded then none else (atoms? rest).map (.number found.value :: ·) := by
  have hstarts := Decimal.starts_chars h rest
  have hread := Decimal.read_append h hends
  have hfree : rest.head?.any startsName = false := by
    cases hhead : rest.head? with
    | none => rfl
    | some c => exact hname c hhead
  cases hchars : found.chars with
  | nil =>
    have hnone := Decimal.starts_chars h []
    rw [hchars] at hnone
    exact hnone.elim
  | cons c cs =>
    rw [hchars, List.cons_append] at hstarts hread
    -- the number itself is what is read, so only what may refuse it is left
    have hnext : next? c (cs ++ rest)
        = if found.padded then none else some (some (.number found.value), cs.length) := by
      simp only [next?, not_mem_spaces hstarts, if_false, hstarts, if_true, hread, hfree,
        Bool.or_false, hchars, List.length_cons, Nat.add_sub_cancel]
    rw [List.cons_append]
    cases hpadded : found.padded with
    | true =>
      rw [hpadded] at hnext
      exact atoms?_of_none hnext
    | false =>
      rw [hpadded] at hnext
      rw [atoms?_of_next hnext, List.drop_left]
      rfl

/-- A comment or a punctuator starts with the two characters. -/
def joins (c d : Char) : Bool := (comments ++ compounds).any fun text => [c, d].isPrefixOf text

theorem joins_cases {d : Char} (h : joins c d = true) :
    c ∈ ['*', '+', '-', '/'] ∧ (d = '=' ∨ d = '*' ∨ d = c) := by
  simp only [joins, comments, compounds, List.cons_append, List.nil_append, List.any_cons,
    List.any_nil, List.isPrefixOf, Bool.and_true, Bool.or_false, Bool.or_eq_true,
    Bool.and_eq_true, beq_iff_eq] at h
  simp only [List.mem_cons, List.not_mem_nil, or_false]
  grind

theorem not_prefix_of_joins {text : List Char} (hrest : ∀ d ∈ rest.head?, joins c d = false)
    (hmem : text ∈ comments ++ compounds) : text.isPrefixOf (c :: rest) = false := by
  have hlength : ∀ text ∈ comments ++ compounds, 2 ≤ text.length := by decide
  have htwo := hlength text hmem
  match text, rest with
  | a :: b :: text, [] => simp [List.isPrefixOf]
  | a :: b :: text, d :: rest =>
    cases hprefix : (a :: b :: text).isPrefixOf (c :: d :: rest) with
    | false => rfl
    | true =>
      simp only [List.isPrefixOf, Bool.and_eq_true, beq_iff_eq] at hprefix
      obtain ⟨rfl, rfl, -⟩ := hprefix
      have hjoins : joins a b = true := List.any_eq_true.2 ⟨_, hmem, by simp [List.isPrefixOf]⟩
      rw [hrest b rfl] at hjoins
      cases hjoins

/-- A punctuator of one character is read if the next character does not belong to it. -/
theorem atoms?_symbol (h : c ∈ symbols) (hrest : ∀ d ∈ rest.head?, joins c d = false) :
    atoms? (c :: rest) = (atoms? rest).map (.punctuator (String.ofList [c]) :: ·) := by
  have hsymbols : ∀ c ∈ symbols, c ∉ spaces ∧ c.isDigit = false ∧ c ≠ '.' := by
    simp [symbols, spaces]
  obtain ⟨hspace, hdigit, hpoint⟩ := hsymbols c h
  have hstarts : ¬ Decimal.Starts (c :: rest) := by
    simp [Decimal.Starts, hdigit, hpoint]
  have hcomment : (comments.any fun text => text.isPrefixOf (c :: rest)) = false :=
    List.any_eq_false.2 fun text hmem =>
      Bool.not_eq_true _ ▸ not_prefix_of_joins hrest (List.mem_append_left _ hmem)
  have hcompound : (compounds.find? fun text => text.isPrefixOf (c :: rest)) = none :=
    List.find?_eq_none.2 fun text hmem =>
      Bool.not_eq_true _ ▸ not_prefix_of_joins hrest (List.mem_append_right _ hmem)
  have hfind : ((symbols.map ([·])).find? fun text => text.isPrefixOf (c :: rest)) = some [c] := by
    simp only [symbols, List.mem_cons, List.not_mem_nil, or_false] at h
    rcases h with rfl | rfl | rfl | rfl | rfl | rfl <;> rfl
  have hnext : next? c rest = some (some (.punctuator (String.ofList [c])), 0) := by
    simp only [next?, hspace, hstarts, hcomment, List.find?_append, hcompound, hfind, if_false,
      Bool.false_eq_true, Option.none_or, Option.map_some]
    rfl
  rw [atoms?_of_next hnext]
  rfl

/-- Two equal signs that touch are one punctuator. -/
theorem atoms?_doubled (h : c ∈ ['+', '-']) :
    atoms? (c :: c :: rest)
      = (atoms? rest).map (.punctuator (String.ofList [c, c]) :: ·) := by
  have hnext : next? c (c :: rest) = some (some (.punctuator (String.ofList [c, c])), 1) := by
    simp only [List.mem_cons, List.not_mem_nil, or_false] at h
    rcases h with rfl | rfl <;> rfl
  rw [atoms?_of_next hnext]
  rfl

end Reading

section Codes
variable {token : Token} {tokens : List Token} {c : Char}

theorem code_of_spelling (h : token.Spelled) (hc : token.kind.spelling? = some c) :
    token.code.toList = [c] := by
  rw [Token.code, if_neg (Token.Kind.plain_of_spelling hc).2, h.symbol c hc]

theorem code_of_blank (h : token.kind = .whitespace) : token.code = token.text := by
  rw [Token.code, h]
  rfl

/-- The code of a number means the same number, and is padded just if that is. -/
theorem code_of_number (h : token.Spelled) (hkind : token.kind = .number) :
    ∃ found : Decimal, found.Sound ∧ token.code.toList = found.chars ∧
      found.value = (Decimal.ofText token.text).value ∧
      found.padded = (Decimal.ofText token.text).padded := by
  obtain ⟨number, hsound, htext⟩ := h.number hkind
  have hcode : token.code.toList = number.pointed.chars := by
    rw [Token.code, if_pos hkind, Decimal.toList_numberCode hsound htext]
  rw [Decimal.ofText_eq hsound htext]
  exact ⟨number.pointed, Decimal.sound_pointed hsound, hcode, Decimal.value_pointed number,
    Decimal.padded_pointed number⟩

theorem head_of_blank (h : token.Spelled) (hkind : token.kind = .whitespace) :
    ∀ c ∈ (Token.codes (token :: tokens)).head?, Token.isBlank c = true := by
  intro c hmem
  rw [Token.codes_cons, code_of_blank hkind] at hmem
  cases htext : token.text.toList with
  | nil => exact absurd (String.toList_eq_nil_iff.1 htext) h.nonempty
  | cons d cs =>
    rw [htext] at hmem
    cases hmem
    exact h.blank hkind c (by rw [htext]; exact List.mem_cons_self)

theorem head_of_spelling (h : token.Spelled) {d : Char} (hd : token.kind.spelling? = some d) :
    ∀ c ∈ (Token.codes (token :: tokens)).head?, c = d := by
  intro c hmem
  rw [Token.codes_cons, code_of_spelling h hd] at hmem
  cases hmem
  rfl

theorem symbol_of_operator {kind : Token.Kind} (h : kind ∈ Expression.Kind.number.operators) :
    ∃ c ∈ symbols, kind.spelling? = some c := by
  simp only [Expression.Kind.operators, List.mem_cons, List.not_mem_nil, or_false] at h
  rcases h with rfl | rfl | rfl | rfl
  · exact ⟨'+', by decide, rfl⟩
  · exact ⟨'-', by decide, rfl⟩
  · exact ⟨'*', by decide, rfl⟩
  · exact ⟨'/', by decide, rfl⟩

/-- Where a term has to start, the code goes on with a blank, a number, a parenthesis, or the sign
that is the next token. -/
theorem head_operand (h : Trace.Arithmetic false tokens)
    (hspelled : ∀ token ∈ tokens, token.Spelled) :
    ∀ c ∈ (Token.codes tokens).head?, Token.isBlank c = true ∨ c.isDigit = true ∨ c = '.' ∨
      c = '(' ∨ ∃ first ∈ tokens.head?, first.kind.isSign = true ∧
        first.kind.spelling? = some c := by
  intro c hmem
  cases h with
  | blank hkind _ => exact Or.inl (head_of_blank (hspelled _ List.mem_cons_self) hkind c hmem)
  | @sign token tokens hkind _ =>
    obtain ⟨d, -, hd⟩ := symbol_of_operator (Trace.Reader.operator_of_sign hkind)
    have hsigns : ∀ kind ∈ Expression.Kind.number.signs, kind.isSign = true := by decide
    cases head_of_spelling (hspelled _ List.mem_cons_self) hd c hmem
    exact Or.inr (Or.inr (Or.inr (Or.inr ⟨token, rfl, hsigns _ hkind, hd⟩)))
  | @number token tokens hkind _ =>
    obtain ⟨found, hsound, hcode, -⟩ := code_of_number (hspelled _ List.mem_cons_self) hkind
    have hstarts := Decimal.starts_chars hsound (Token.codes tokens)
    rw [Token.codes_cons, hcode] at hmem
    cases hchars : found.chars ++ Token.codes tokens with
    | nil =>
      rw [hchars] at hmem
      cases hmem
    | cons d cs =>
      rw [hchars] at hmem hstarts
      cases hmem
      rcases hstarts with hdigit | ⟨hpoint, -⟩
      · exact Or.inr (Or.inl hdigit)
      · exact Or.inr (Or.inr (Or.inl hpoint))
  | opening hkind _ =>
    have hd : Token.Kind.leftParen.spelling? = some '(' := rfl
    rw [← hkind] at hd
    exact Or.inr (Or.inr (Or.inr (Or.inl
      (head_of_spelling (hspelled _ List.mem_cons_self) hd c hmem))))

/-- Behind a complete term, the code goes on with a blank, a parenthesis or an operator. -/
theorem head_operator (h : Trace.Arithmetic true tokens)
    (hspelled : ∀ token ∈ tokens, token.Spelled) :
    ∀ c ∈ (Token.codes tokens).head?, Token.isBlank c = true ∨ c ∈ symbols := by
  intro c hmem
  cases h with
  | done => cases hmem
  | blank hkind _ => exact Or.inl (head_of_blank (hspelled _ List.mem_cons_self) hkind c hmem)
  | operator hkind _ =>
    obtain ⟨d, hsymbol, hd⟩ := symbol_of_operator hkind
    cases head_of_spelling (hspelled _ List.mem_cons_self) hd c hmem
    exact Or.inr hsymbol
  | closing hkind _ =>
    have hd : Token.Kind.rightParen.spelling? = some ')' := rfl
    rw [← hkind] at hd
    cases head_of_spelling (hspelled _ List.mem_cons_self) hd c hmem
    exact Or.inr (by decide)

/-- So a number ends there. -/
theorem ends_number (h : Trace.Arithmetic true tokens)
    (hspelled : ∀ token ∈ tokens, token.Spelled) :
    Decimal.Ends (Token.codes tokens) ∧
      ∀ c ∈ (Token.codes tokens).head?, startsName c = false := by
  have hplain : ([' ', '\t', '\r', '\n'] ++ symbols).all (fun c =>
      (c.isDigit = false ∧ c ≠ '.' ∧ c ≠ 'e' ∧ c ≠ 'E') ∧ startsName c = false) = true := by
    decide +kernel
  have hends (c : Char) (hmem : c ∈ (Token.codes tokens).head?) :
      (c.isDigit = false ∧ c ≠ '.' ∧ c ≠ 'e' ∧ c ≠ 'E') ∧ startsName c = false := by
    refine of_decide_eq_true (List.all_eq_true.1 hplain c (List.mem_append.2 ?_))
    refine (head_operator h hspelled c hmem).imp_left fun hblank => ?_
    simpa [Token.isBlank, or_assoc] using hblank
  exact ⟨fun c hmem => (hends c hmem).1, fun c hmem => (hends c hmem).2⟩

end Codes

/-- No number is padded, and no two equal signs touch. -/
structure Separate (tokens : List Token) : Prop where
  number : ∀ token ∈ tokens, token.kind = .number → (Decimal.ofText token.text).padded = false
  sign : ∀ first second, [first, second] <:+: tokens → first.kind.isSign = true →
    first.kind ≠ second.kind

theorem separate_cons {token : Token} {tokens : List Token} :
    Separate (token :: tokens) ↔
      (token.kind = .number → (Decimal.ofText token.text).padded = false) ∧
        (∀ second ∈ tokens.head?, token.kind.isSign = true → token.kind ≠ second.kind) ∧
        Separate tokens := by
  constructor
  · intro h
    refine ⟨h.number token List.mem_cons_self, ?_, ?_, ?_⟩
    · intro second hmem
      obtain ⟨rest, rfl⟩ := List.head?_eq_some_iff.1 hmem
      exact h.sign token second ⟨[], rest, rfl⟩
    · exact fun other hmem => h.number other (List.mem_cons_of_mem _ hmem)
    · exact fun first second hpair => h.sign first second (hpair.trans ⟨[token], [], by simp⟩)
  · rintro ⟨hnumber, hsign, h⟩
    refine ⟨List.forall_mem_cons.2 ⟨hnumber, h.number⟩, fun first second hpair => ?_⟩
    rcases List.infix_cons_iff.1 hpair with ⟨rest, hprefix⟩ | hpair
    · cases hprefix
      exact hsign second rfl
    · exact h.sign first second hpair

section Steps
variable {token : Token} {tokens : List Token}

/-- Reading what follows yields what was typed just if that is separate. -/
def Faithful (tokens : List Token) : Prop :=
  atoms? (Token.codes tokens) = some (ofTokens tokens) ↔ Separate tokens

theorem faithful_blank (h : token.Spelled) (hkind : token.kind = .whitespace)
    (hrest : Faithful tokens) : Faithful (token :: tokens) := by
  have hread : atoms? (Token.codes (token :: tokens)) = atoms? (Token.codes tokens) := by
    rw [Token.codes_cons, code_of_blank hkind, atoms?_blanks (h.blank hkind)]
  have htyped : ofTokens (token :: tokens) = ofTokens tokens := by
    simp only [ofTokens, List.filterMap_cons, ofToken?, hkind]
  have hseparate : Separate (token :: tokens) ↔ Separate tokens := by
    rw [separate_cons, hkind]
    simp [Token.Kind.isSign]
  unfold Faithful
  rw [hread, htyped, hseparate]
  exact hrest

/-- A number is read as it was typed just if it is not padded. -/
theorem faithful_number (h : token.Spelled) (hkind : token.kind = .number)
    (hends : Decimal.Ends (Token.codes tokens) ∧
      ∀ c ∈ (Token.codes tokens).head?, startsName c = false)
    (hrest : Faithful tokens) : Faithful (token :: tokens) := by
  obtain ⟨found, hsound, hcode, hvalue, hpadded⟩ := code_of_number h hkind
  have htyped : ofTokens (token :: tokens) = .number found.value :: ofTokens tokens := by
    simp only [ofTokens, List.filterMap_cons, ofToken?, hkind, hvalue]
  have hseparate : Separate (token :: tokens) ↔ found.padded = false ∧ Separate tokens := by
    rw [separate_cons, hkind, hpadded]
    simp [Token.Kind.isSign]
  unfold Faithful
  rw [Token.codes_cons, hcode, atoms?_number hsound hends.1 hends.2, htyped, hseparate]
  cases found.padded with
  | true => simp
  | false => simpa [Faithful] using hrest

theorem ofToken?_of_spelling {c : Char} (h : token.Spelled) (hc : token.kind.spelling? = some c) :
    ofToken? token = some (.punctuator (String.ofList [c])) := by
  obtain ⟨hblank, hnumber⟩ := Token.Kind.plain_of_spelling hc
  rw [← h.text_eq hc]
  unfold ofToken?
  split
  · exact absurd ‹_› hblank
  · exact absurd ‹_› hnumber
  · rfl

theorem spelling_of_sign {kind : Token.Kind} {c : Char} (hsign : kind.isSign = true)
    (hc : kind.spelling? = some c) : c ∈ ['+', '-'] := by
  cases kind <;> cases hsign <;> cases hc <;> decide

/-- Two equal signs that touch are not read as they were typed. -/
theorem faithful_doubled {first : Token} {c : Char} (h : token.Spelled) (hfirst : first.Spelled)
    (hc : token.kind.spelling? = some c) (hsign : token.kind.isSign = true)
    (hkind : token.kind = first.kind) : Faithful (token :: first :: tokens) := by
  have hread : atoms? (Token.codes (token :: first :: tokens))
      = (atoms? (Token.codes tokens)).map (.punctuator (String.ofList [c, c]) :: ·) := by
    rw [Token.codes_cons, Token.codes_cons, code_of_spelling h hc,
      code_of_spelling hfirst (hkind ▸ hc)]
    exact atoms?_doubled (spelling_of_sign hsign hc)
  have hne : String.ofList [c, c] ≠ String.ofList [c] := by
    intro heq
    have hlist := congrArg String.toList heq
    rw [String.toList_ofList, String.toList_ofList] at hlist
    cases hlist
  have htyped : ofTokens (token :: first :: tokens)
      = .punctuator (String.ofList [c]) :: ofTokens (first :: tokens) := by
    simp only [ofTokens, List.filterMap_cons, ofToken?_of_spelling h hc]
  constructor
  · intro heq
    rw [hread, htyped, Option.map_eq_some_iff] at heq
    obtain ⟨atoms, -, heq⟩ := heq
    exact absurd (Atom.punctuator.inj (List.cons.inj heq).1) hne
  · intro hseparate
    exact absurd hkind ((separate_cons.1 hseparate).2.1 first rfl hsign)

/-- A punctuator is read as it was typed just if it is no sign that touches an equal one. -/
theorem faithful_symbol {c : Char} (h : token.Spelled) (hsymbol : c ∈ symbols)
    (hc : token.kind.spelling? = some c) (hspelled : ∀ token ∈ tokens, token.Spelled)
    (hjoins : ∀ d ∈ (Token.codes tokens).head?, joins c d = true →
      ∃ first ∈ tokens.head?, token.kind.isSign = true ∧ token.kind = first.kind)
    (hrest : Faithful tokens) : Faithful (token :: tokens) := by
  by_cases hdoubled : ∃ first ∈ tokens.head?, token.kind.isSign = true ∧ token.kind = first.kind
  · obtain ⟨first, hmem, hsign, hkind⟩ := hdoubled
    obtain ⟨rest, rfl⟩ := List.head?_eq_some_iff.1 hmem
    exact faithful_doubled h (hspelled first List.mem_cons_self) hc hsign hkind
  · -- otherwise it is read by itself, and what follows decides
    have hfree : ∀ d ∈ (Token.codes tokens).head?, joins c d = false := fun d hmem =>
      Bool.eq_false_iff.2 fun hjoin => hdoubled (hjoins d hmem hjoin)
    have htyped : ofTokens (token :: tokens)
        = .punctuator (String.ofList [c]) :: ofTokens tokens := by
      simp only [ofTokens, List.filterMap_cons, ofToken?_of_spelling h hc]
    have hseparate : Separate (token :: tokens) ↔ Separate tokens := by
      rw [separate_cons]
      constructor
      · exact fun h => h.2.2
      · exact fun h => ⟨fun hkind => absurd hkind (Token.Kind.plain_of_spelling hc).2,
          fun second hmem hsign hkind => hdoubled ⟨second, hmem, hsign, hkind⟩, h⟩
    unfold Faithful
    rw [Token.codes_cons, code_of_spelling h hc, List.singleton_append,
      atoms?_symbol hsymbol hfree, htyped, hseparate]
    simpa [Faithful] using hrest

/-- Only a sign belongs together with what a term can start with, and only with the same sign. -/
theorem joins_operand {c : Char} (hc : token.kind.spelling? = some c)
    (hspelled : ∀ token ∈ tokens, token.Spelled) (h : Trace.Arithmetic false tokens) :
    ∀ d ∈ (Token.codes tokens).head?, joins c d = true →
      ∃ first ∈ tokens.head?, token.kind.isSign = true ∧ token.kind = first.kind := by
  intro d hmem hjoin
  obtain ⟨hfirst, hsecond⟩ := joins_cases hjoin
  have hjoined : d ∈ ['=', '*', '+', '-', '/'] := by
    rcases hsecond with rfl | rfl | rfl
    · decide
    · decide
    · exact List.mem_cons_of_mem _ hfirst
  have hother : ∀ d ∈ ['=', '*', '+', '-', '/'],
      ¬ (Token.isBlank d = true ∨ d.isDigit = true ∨ d = '.' ∨ d = '(') := by
    simp [Token.isBlank]
  rcases head_operand h hspelled d hmem with hblank | hdigit | hpoint | hopening |
    ⟨first, hhead, hsign, hd⟩
  · exact absurd (Or.inl hblank) (hother d hjoined)
  · exact absurd (Or.inr (Or.inl hdigit)) (hother d hjoined)
  · exact absurd (Or.inr (Or.inr (Or.inl hpoint))) (hother d hjoined)
  · exact absurd (Or.inr (Or.inr (Or.inr hopening))) (hother d hjoined)
  · have hsigns : ∀ d ∈ ['+', '-'], d ≠ '=' ∧ d ≠ '*' := by simp
    obtain ⟨hequal, hstar⟩ := hsigns d (spelling_of_sign hsign hd)
    obtain rfl : d = c := (hsecond.resolve_left hequal).resolve_left hstar
    have hkind := Token.Kind.eq_of_spelling hc hd
    exact ⟨first, hhead, hkind ▸ hsign, hkind⟩

/-- What is read is what was typed, just if no number is padded and no two equal signs touch. -/
theorem faithful_of_arithmetic {complete : Bool} (h : Trace.Arithmetic complete tokens)
    (hspelled : ∀ token ∈ tokens, token.Spelled) : Faithful tokens := by
  induction h with
  | done =>
    refine ⟨fun _ => ⟨fun _ hmem => (by cases hmem), fun first second hpair => ?_⟩,
      fun _ => atoms?_nil⟩
    cases List.infix_nil.1 hpair
  | blank hkind _ ih =>
    obtain ⟨htoken, hrest⟩ := List.forall_mem_cons.1 hspelled
    exact faithful_blank htoken hkind (ih hrest)
  | sign hkind h ih =>
    obtain ⟨htoken, hrest⟩ := List.forall_mem_cons.1 hspelled
    obtain ⟨c, hsymbol, hc⟩ := symbol_of_operator (Trace.Reader.operator_of_sign hkind)
    exact faithful_symbol htoken hsymbol hc hrest (joins_operand hc hrest h) (ih hrest)
  | number hkind h ih =>
    obtain ⟨htoken, hrest⟩ := List.forall_mem_cons.1 hspelled
    exact faithful_number htoken hkind (ends_number h hrest) (ih hrest)
  | @opening token tokens hkind h ih =>
    obtain ⟨htoken, hrest⟩ := List.forall_mem_cons.1 hspelled
    have hc : token.kind.spelling? = some '(' := by rw [hkind]; rfl
    exact faithful_symbol htoken (by decide) hc hrest (joins_operand hc hrest h) (ih hrest)
  | operator hkind h ih =>
    obtain ⟨htoken, hrest⟩ := List.forall_mem_cons.1 hspelled
    obtain ⟨c, hsymbol, hc⟩ := symbol_of_operator hkind
    exact faithful_symbol htoken hsymbol hc hrest (joins_operand hc hrest h) (ih hrest)
  | @closing token tokens hkind h ih =>
    obtain ⟨htoken, hrest⟩ := List.forall_mem_cons.1 hspelled
    have hc : token.kind.spelling? = some ')' := by rw [hkind]; rfl
    refine faithful_symbol htoken (by decide) hc hrest (fun d _ hjoin => ?_) (ih hrest)
    exact absurd (joins_cases hjoin).1 (by decide)

end Steps

end Atom

/-- The code of a number formula that calls nothing is read as what the designer typed, just if no
number is padded and no two equal signs touch. -/
theorem lower_arithmetic (scope : Scope) (hooks : Table Hook) {e : Expression} {state : State}
    (hread : (Trace.ofExpression scope .number e).failure = none)
    (hfree : (Trace.ofExpression scope .number e).events.any Event.isCall = false)
    (hidle : state.context.Idle) (hlimit : 0 < state.context.maxDepth) :
    ∃ code, ((Generator.mk scope (target scope) hooks).lower .number e state).1 = .ok code ∧
      (Atom.read? code = some (Atom.ofTokens (Token.lexemes e.text)) ↔
        Atom.Separate (Token.lexemes e.text)) := by
  have hscript := (Generator.mk scope (target scope) hooks).script_arithmetic hread hfree
  refine ⟨_, congrArg Prod.fst (Generator.lower_of_done hscript hidle hlimit), ?_⟩
  rw [Atom.read?, String.toList_ofList]
  exact Atom.faithful_of_arithmetic (Trace.arithmetic_of_read hread hfree).1
    fun _ hmem => Token.spelled_of_mem_lexemesFrom hmem

/-- Signs apart, numbers of all shapes, and a group. -/
theorem lower_arithmetic_signs :
    (Trace.ofExpression .sample .number (.place "-.5*(1e2- -7)" 3)).failure = none ∧
      (Trace.ofExpression .sample .number (.place "-.5*(1e2- -7)" 3)).events.any Event.isCall
        = false ∧
      (State.initial 1).context.Idle ∧ 0 < (State.initial 1).context.maxDepth ∧
      ∃ code, ((generator .sample).lower .number (.place "-.5*(1e2- -7)" 3) (.initial 1)).1
          = .ok code ∧
        (Atom.read? code
            = some (Atom.ofTokens (Token.lexemes (Expression.place "-.5*(1e2- -7)" 3).text)) ↔
          Atom.Separate (Token.lexemes (Expression.place "-.5*(1e2- -7)" 3).text)) := by
  have hread : (Trace.ofExpression .sample .number (.place "-.5*(1e2- -7)" 3)).failure = none := by
    decide +kernel
  have hfree : (Trace.ofExpression .sample .number (.place "-.5*(1e2- -7)" 3)).events.any
      Event.isCall = false := by
    decide +kernel
  have hidle : (State.initial 1).context.Idle := Context.idle_fresh none (some 1)
  have hlimit : 0 < (State.initial 1).context.maxDepth := by decide
  exact ⟨hread, hfree, hidle, hlimit,
    lower_arithmetic .sample JavaScript.hooks hread hfree hidle hlimit⟩

/-- In `1--1` the two signs touch, and so they do in its code. -/
theorem not_read_of_touching :
    ¬ ∀ (scope : Scope) (hooks : Table Hook) (e : Expression) (state : State),
      (Trace.ofExpression scope .number e).failure = none →
      (Trace.ofExpression scope .number e).events.any Event.isCall = false →
      state.context.Idle → 0 < state.context.maxDepth →
      ∃ code, ((Generator.mk scope (target scope) hooks).lower .number e state).1 = .ok code ∧
        Atom.read? code = some (Atom.ofTokens (Token.lexemes e.text)) := by
  intro h
  obtain ⟨code, hcode, hread⟩ := h .sample JavaScript.hooks (.ofText "1--1") (.initial 1)
    (by decide +kernel) (by decide +kernel) (Context.idle_fresh none (some 1)) (by decide)
  have hdoubled : ((generator .sample).lower .number (.ofText "1--1") (.initial 1)).1
      = .ok "1.0--1.0" := Except.eq_ok_of_toOption (by decide +kernel)
  cases hdoubled.symm.trans hcode
  revert hread
  decide +kernel

/-- Its code is a number, a punctuator that arithmetic does not have, and a number. -/
example : Atom.read? "1.0--1.0" = some [.number 1, .punctuator "--", .number 1] := by
  decide +kernel

/-- Padded with zeros, a number is none for the target. -/
example : Atom.read? "007.0" = none := by decide +kernel

end JavaScript
end EventFormula
