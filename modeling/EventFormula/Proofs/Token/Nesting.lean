import EventFormula.Proofs.Token.Spelling

/-!
# Nested texts

Going through a text from the left one can tell how many parentheses are open and whether a string
literal is. A text is nested if behind it everything is as it was in front of it, and nested texts
stay so when they are put together. The main statement, `wellNested_of_nested`, is about the tokens
of a nested text: each literal is closed, and parentheses match.
-/

namespace EventFormula

namespace Token

/-- Where a character stands. -/
inductive Region where
  | code
  /-- Inside a string literal. -/
  | literal
  /-- Behind a backslash in a string literal. -/
  | escape
deriving DecidableEq

/-- Past one character, with so many parentheses open. There is no way past a parenthesis that
closes nothing, nor past a line feed behind a backslash, where the lexer gives the literal up. -/
def pass : Nat × Region → Char → Option (Nat × Region)
  | (depth, .code), c =>
    if c = '"' then some (depth, .literal)
    else if c = '(' then some (depth + 1, .code)
    else if c = ')' then if depth = 0 then none else some (depth - 1, .code)
    else some (depth, .code)
  | (depth, .literal), c =>
    if c = '"' then some (depth, .code)
    else if c = '\\' then some (depth, .escape)
    else some (depth, .literal)
  | (depth, .escape), c => if c = '\n' then none else some (depth, .literal)

/-- Past a text. -/
def passes (place : Nat × Region) (cs : List Char) : Option (Nat × Region) := cs.foldlM pass place

/-- Behind the text as many parentheses are open as in front of it, and no literal. -/
def Nested (cs : List Char) : Prop := ∀ depth, passes (depth, .code) cs = some (depth, .code)

/-- The text has neither parentheses nor quotes. -/
def Flat (cs : List Char) : Prop := ∀ c ∈ cs, c ∉ ['(', ')', '"']

instance (cs : List Char) : Decidable (Flat cs) := List.decidableBAll ..

variable {cs ds : List Char} {place next : Nat × Region}

theorem passes_cons {c : Char} (h : pass place c = some next) (cs : List Char) :
    passes place (c :: cs) = passes next cs := by
  rw [passes, List.foldlM_cons, h]
  rfl

theorem passes_append (place : Nat × Region) (cs ds : List Char) :
    passes place (cs ++ ds) = (passes place cs).bind fun next => passes next ds :=
  List.foldlM_append

theorem Nested.nil : Nested [] := fun _ => rfl

theorem Nested.append (hcs : Nested cs) (hds : Nested ds) : Nested (cs ++ ds) := by
  intro depth
  rw [passes_append, hcs depth]
  exact hds depth

theorem Nested.group (h : Nested cs) : Nested ('(' :: (cs ++ [')'])) := by
  intro depth
  have hopening : pass (depth, .code) '(' = some (depth + 1, .code) := rfl
  rw [passes_cons hopening, passes_append, h (depth + 1)]
  rfl

theorem pass_flat {c : Char} (h : c ∉ ['(', ')', '"']) (depth : Nat) :
    pass (depth, .code) c = some (depth, .code) := by
  simp only [List.mem_cons, List.not_mem_nil, or_false, not_or] at h
  obtain ⟨hopening, hclosing, hquote⟩ := h
  simp only [pass, if_neg hquote, if_neg hopening, if_neg hclosing]

theorem Flat.nested (h : Flat cs) : Nested cs := by
  intro depth
  induction cs with
  | nil => rfl
  | cons c cs ih =>
    obtain ⟨hc, hothers⟩ := List.forall_mem_cons.1 h
    rw [passes_cons (pass_flat hc depth)]
    exact ih hothers

section Literals
variable (depth : Nat)

theorem passes_escaped {c : Char} (h : c ≠ '\n') (cs : List Char) :
    passes (depth, .literal) ('\\' :: c :: cs) = passes (depth, .literal) cs := by
  have hbackslash : pass (depth, .literal) '\\' = some (depth, .escape) := rfl
  have hc : pass (depth, .escape) c = some (depth, .literal) := if_neg h
  rw [passes_cons hbackslash, passes_cons hc]

theorem pass_literal {c : Char} (hquote : c ≠ '"') (hbackslash : c ≠ '\\') :
    pass (depth, .literal) c = some (depth, .literal) := by
  simp only [pass, if_neg hquote, if_neg hbackslash]

theorem ne_backslash {c : Char} (hpair : ∀ d ds, c = '\\' → cs = d :: ds → False)
    (hlast : c = '\\' → cs = [] → False) : c ≠ '\\' := by
  intro heq
  cases cs with
  | nil => exact hlast heq rfl
  | cons d ds => exact hpair d ds heq rfl

/-- What is taken up to the closing quote leads out of the literal. -/
theorem passes_of_closed (h : (stringTail cs).2 = true) :
    passes (depth, .literal) (cs.take (stringTail cs).1) = some (depth, .code) := by
  fun_induction stringTail cs with
  | case1 cs => rfl
  | case2 cs => cases h
  | case3 c cs hc length closed htail ih =>
    rw [htail] at ih
    rw [Nat.add_comm]
    exact (passes_escaped depth hc _).trans (ih h)
  | case4 => cases h
  | case5 c cs hquote hbackslash hend length closed htail ih =>
    have hplain : c ≠ '\\' := ne_backslash hbackslash hend
    rw [htail] at ih
    rw [Nat.add_comm]
    exact (passes_cons (pass_literal depth hquote hplain) _).trans (ih h)
  | case6 => cases h

/-- There is no way out of a literal that is not closed. -/
theorem not_passes_of_open {after : Nat} (h : (stringTail cs).2 = false) :
    passes (depth, .literal) cs ≠ some (after, .code) := by
  fun_induction stringTail cs with
  | case1 cs => cases h
  | case2 cs =>
    have hfeed : passes (depth, .literal) ('\\' :: '\n' :: cs) = none := rfl
    rw [hfeed]
    exact nofun
  | case3 c cs hc length closed htail ih =>
    rw [htail] at ih
    rw [passes_escaped depth hc]
    exact ih h
  | case4 => exact nofun
  | case5 c cs hquote hbackslash hend length closed htail ih =>
    have hplain : c ≠ '\\' := ne_backslash hbackslash hend
    rw [htail] at ih
    rw [passes_cons (pass_literal depth hquote hplain)]
    exact ih h
  | case6 => exact nofun

end Literals

/-- Past a token of the kind, with so many parentheses open. -/
def Kind.shift (depth : Nat) : Kind → Option Nat
  | leftParen => some (depth + 1)
  | rightParen => if depth = 0 then none else some (depth - 1)
  | unterminatedString => none
  | _ => some depth

theorem flat_of_blank (h : ∀ c ∈ cs, isBlank c = true) : Flat cs := by
  rintro c hc hmem
  have hblank := h c hc
  simp only [List.mem_cons, List.not_mem_nil, or_false] at hmem
  rcases hmem with rfl | rfl | rfl <;> cases hblank

theorem flat_of_name (h : ∀ c ∈ cs, isNameRest c = true) : Flat cs := by
  rintro c hc hmem
  have hname := h c hc
  simp only [List.mem_cons, List.not_mem_nil, or_false] at hmem
  rcases hmem with rfl | rfl | rfl <;> exact absurd hname (by decide +kernel)

theorem flat_of_digit (h : ∀ c ∈ cs, c.isDigit = true) : Flat cs := by
  rintro c hc hmem
  have hdigit := h c hc
  simp only [List.mem_cons, List.not_mem_nil, or_false] at hmem
  rcases hmem with rfl | rfl | rfl <;> cases hdigit

theorem Flat.append (hcs : Flat cs) (hds : Flat ds) : Flat (cs ++ ds) := by
  rintro c hc
  rcases List.mem_append.1 hc with hc | hc
  · exact hcs c hc
  · exact hds c hc

theorem Flat.cons {c : Char} (hc : c ∉ ['(', ')', '"']) (hcs : Flat cs) : Flat (c :: cs) :=
  List.forall_mem_cons.2 ⟨hc, hcs⟩

end Token

theorem Decimal.flat_chars {number : Decimal} (h : number.Sound) : Token.Flat number.chars := by
  have hexponent : Token.Flat (number.exponent.elim [] Exponent.chars) := by
    cases hexp : number.exponent with
    | none => exact fun c hc => by cases hc
    | some exponent =>
      have hsound := h.exponent exponent hexp
      have hletter : exponent.letter ∉ ['(', ')', '"'] := by
        rcases hsound.letter with hletter | hletter <;> rw [hletter] <;> decide
      have hsign : Token.Flat exponent.sign.toList := by
        intro c hc
        rcases hsound.sign c (Option.mem_toList.1 hc) with rfl | rfl <;> decide
      exact .cons hletter (hsign.append (Token.flat_of_digit hsound.digits))
  have hfraction : Token.Flat (number.fraction.elim [] ('.' :: ·)) := by
    have hplaces := h.places
    unfold places at hplaces
    cases hfrac : number.fraction with
    | none => exact fun c hc => by cases hc
    | some fraction =>
      rw [hfrac] at hplaces
      exact .cons (by decide) (Token.flat_of_digit hplaces)
  exact (Token.flat_of_digit h.whole).append (hfraction.append hexponent)

namespace Token

variable {cs : List Char} {depth after : Nat}

theorem shift_of_ne {kind : Kind} (hopening : kind ≠ .leftParen) (hclosing : kind ≠ .rightParen)
    (hclosed : kind ≠ .unterminatedString) : kind.shift depth = some depth := by
  cases kind <;> first | rfl | contradiction

/-- Only a literal that is closed is passed, and a parenthesis counts for one. -/
theorem counts_of_shift {kind : Kind} (h : kind.shift depth = some after) :
    kind ≠ .unterminatedString ∧
      depth + [kind].count .leftParen = after + [kind].count .rightParen := by
  cases kind with
  | unterminatedString => cases h
  | rightParen =>
    simp only [Kind.shift, Option.ite_none_left_eq_some, Option.some.injEq] at h
    refine ⟨nofun, ?_⟩
    show depth + 0 = after + 1
    omega
  | _ =>
    cases h
    exact ⟨nofun, rfl⟩

theorem passes_symbol {c : Char} (hc : c ≠ '"') :
    passes (depth, .code) [c] = ((symbol c).shift depth).map (·, Region.code) := by
  by_cases hopening : c = '('
  · subst hopening
    rfl
  by_cases hclosing : c = ')'
  · subst hclosing
    cases depth <;> rfl
  have hflat : c ∉ ['(', ')', '"'] := by
    simp only [List.mem_cons, List.not_mem_nil, or_false, not_or]
    exact ⟨hopening, hclosing, hc⟩
  have hshift : (symbol c).shift depth = some depth := by
    unfold symbol
    rw [if_neg hopening, if_neg hclosing]
    repeat' split
    all_goals rfl
  rw [hshift, passes_cons (pass_flat hflat depth)]
  rfl

/-- A token that the lexer takes shifts the depth as its kind says, unless it is a literal that is
not closed. -/
theorem passes_scan {c : Char} (depth : Nat) (cs : List Char)
    (hclosed : (scan c cs).1 ≠ .unterminatedString) :
    passes (depth, .code) (c :: cs.take (scan c cs).2)
      = ((scan c cs).1.shift depth).map (·, Region.code) := by
  by_cases hquote : c = '"'
  · subst hquote
    have hscan : scan '"' cs
        = (if (stringTail cs).2 then .string else .unterminatedString, (stringTail cs).1) := rfl
    have hopening : pass (depth, .code) '"' = some (depth, .literal) := rfl
    rw [hscan] at hclosed ⊢
    cases htail : (stringTail cs).2 with
    | false =>
      rw [htail] at hclosed
      exact absurd rfl hclosed
    | true =>
      rw [passes_cons hopening, passes_of_closed depth htail]
      rfl
  have htake (p : Char → Bool) : cs.take (cs.takeWhile p).length = cs.takeWhile p :=
    (List.prefix_iff_eq_take.1 (List.takeWhile_prefix p)).symm
  have hall (p : Char → Bool) : ∀ d ∈ cs.takeWhile p, p d = true :=
    List.all_eq_true.1 List.all_takeWhile
  have hnumber {length : Nat} (h : Scans c cs (.number, length)) :
      passes (depth, .code) (c :: cs.take length) = some (depth, .code) := by
    obtain ⟨hstarts, hchars⟩ := Decimal.read_of_scans h
    rw [← hchars]
    exact (Decimal.flat_chars (Decimal.sound_read hstarts)).nested depth
  have hscans := scans c cs
  generalize scan c cs = found at hscans
  cases hscans with
  | blank hc =>
    refine (flat_of_blank (List.forall_mem_cons.2 ⟨hc, ?_⟩)).nested depth
    rw [htake]
    exact hall isBlank
  | literal hc => exact absurd hc hquote
  | name hc =>
    refine (flat_of_name (List.forall_mem_cons.2 ⟨?_, ?_⟩)).nested depth
    · rw [isNameRest, hc, Bool.true_or]
    · rw [htake]
      exact hall isNameRest
  | digit hc => exact hnumber (.digit hc)
  | point hc hdigits => exact hnumber (.point hc hdigits)
  | colons hc hnext =>
    cases cs with
    | nil => cases hnext
    | cons d cs =>
      cases hc
      cases hnext
      have hflat : Flat [':', ':'] := by decide
      exact hflat.nested depth
  | symbol => exact passes_symbol hquote

/-- There is no way past a literal that is not closed. -/
theorem not_passes_of_unterminated {c : Char} (h : (scan c cs).1 = .unterminatedString) :
    passes (depth, .code) (c :: cs) ≠ some (after, .code) := by
  by_cases hquote : c = '"'
  · subst hquote
    have hscan : scan '"' cs
        = (if (stringTail cs).2 then .string else .unterminatedString, (stringTail cs).1) := rfl
    have hopening : pass (depth, .code) '"' = some (depth, .literal) := rfl
    rw [hscan] at h
    cases htail : (stringTail cs).2 with
    | true =>
      rw [htail] at h
      cases h
    | false =>
      rw [passes_cons hopening]
      exact not_passes_of_open depth htail
  · have hscans := scans c cs
    generalize scan c cs = found at h hscans
    cases hscans with
    | literal hc => exact absurd hc hquote
    | symbol =>
      unfold symbol at h
      repeat' split at h
      all_goals cases h
    | _ => cases h

/-- Past tokens, with so many parentheses open. -/
def shiftAll (depth : Nat) (tokens : List Token) : Option Nat :=
  tokens.foldlM (fun depth token => token.kind.shift depth) depth

theorem shiftAll_cons {token : Token} {next : Nat} (h : token.kind.shift depth = some next)
    (tokens : List Token) : shiftAll depth (token :: tokens) = shiftAll next tokens := by
  rw [shiftAll, List.foldlM_cons, h]
  rfl

theorem next_of_shiftAll {token : Token} {tokens : List Token}
    (h : shiftAll depth (token :: tokens) = some after) :
    ∃ next, token.kind.shift depth = some next ∧ shiftAll next tokens = some after :=
  Option.bind_eq_some_iff.1 h

theorem shiftAll_append (depth : Nat) (first second : List Token) :
    shiftAll depth (first ++ second)
      = (shiftAll depth first).bind fun next => shiftAll next second :=
  List.foldlM_append

/-- If there is a way past a text, there is one past its tokens. -/
theorem shiftAll_lexemesFrom {start : Nat} (h : passes (depth, .code) cs = some (after, .code)) :
    shiftAll depth (lexemesFrom start cs) = some after := by
  fun_induction lexemesFrom start cs generalizing depth with
  | case1 =>
    cases h
    rfl
  | case2 start c cs kind length hscan lexeme stop =>
    rename_i ih
    have hclosed : (scan c cs).1 ≠ .unterminatedString :=
      fun hopen => not_passes_of_unterminated hopen h
    have htoken := passes_scan depth cs hclosed
    rw [hscan] at htoken
    have hsplit : c :: cs = (c :: cs.take length) ++ cs.drop length := by
      rw [List.cons_append, List.take_append_drop]
    rw [hsplit, passes_append, htoken] at h
    cases hshift : kind.shift depth with
    | none =>
      rw [hshift] at h
      cases h
    | some next =>
      rw [hshift] at h
      exact (shiftAll_cons hshift _).trans (ih h)

/-- A token of a text is passed as its kind says. -/
theorem passes_token {start : Nat} {token : Token} (h : token ∈ lexemesFrom start cs)
    (hclosed : token.kind ≠ .unterminatedString) (depth : Nat) :
    passes (depth, .code) token.text.toList = (token.kind.shift depth).map (·, Region.code) := by
  fun_induction lexemesFrom start cs with
  | case1 => cases h
  | case2 start c cs kind length hscan lexeme stop ih =>
    rcases List.mem_cons.1 h with rfl | h
    · have hkind : (scan c cs).1 = kind := by rw [hscan]
      have htoken := passes_scan depth cs (hkind ▸ hclosed)
      rw [hscan] at htoken
      rw [String.toList_ofList]
      exact htoken
    · exact ih h

/-- So is a run of tokens of a text. -/
theorem passes_run {start : Nat} {run : List Token}
    (h : ∀ token ∈ run, token ∈ lexemesFrom start cs)
    (hpast : shiftAll depth run = some after) :
    passes (depth, .code) (chars run) = some (after, .code) := by
  induction run generalizing depth with
  | nil =>
    cases hpast
    rfl
  | cons token run ih =>
    obtain ⟨htoken, hothers⟩ := List.forall_mem_cons.1 h
    obtain ⟨next, hshift, hrest⟩ := next_of_shiftAll hpast
    rw [chars_cons, passes_append, passes_token htoken (counts_of_shift hshift).1, hshift]
    exact ih hothers hrest

/-- Each literal of the text is closed, and its parentheses match. -/
structure WellNested (text : String) : Prop where
  closed : ∀ token ∈ lex text, token.kind ≠ .unterminatedString
  matched : ((lex text).map Token.kind).count .leftParen
    = ((lex text).map Token.kind).count .rightParen
  opened : ∀ before after, lex text = before ++ after →
    (before.map Token.kind).count .rightParen ≤ (before.map Token.kind).count .leftParen

/-- What it takes to get past tokens. -/
theorem count_of_shiftAll {tokens : List Token} (h : shiftAll depth tokens = some after) :
    (∀ token ∈ tokens, token.kind ≠ .unterminatedString) ∧
      depth + (tokens.map Token.kind).count .leftParen
        = after + (tokens.map Token.kind).count .rightParen := by
  induction tokens generalizing depth with
  | nil =>
    cases h
    exact ⟨fun token htoken => (by cases htoken), rfl⟩
  | cons token tokens ih =>
    obtain ⟨next, hshift, hrest⟩ := next_of_shiftAll h
    obtain ⟨htoken, hfirst⟩ := counts_of_shift hshift
    obtain ⟨hclosed, hcount⟩ := ih hrest
    refine ⟨List.forall_mem_cons.2 ⟨htoken, hclosed⟩, ?_⟩
    rw [List.map_cons, ← List.singleton_append, List.count_append, List.count_append]
    omega

/-- In a nested text literals are closed and parentheses match. -/
theorem wellNested_of_nested {text : String} (h : Nested text.toList) : WellNested text := by
  have hpast : shiftAll 0 (lex text) = some 0 := by
    have hlexemes : shiftAll 0 (lexemes text) = some 0 := shiftAll_lexemesFrom (h 0)
    rw [lex, shiftAll_append, hlexemes]
    rfl
  obtain ⟨hclosed, hmatched⟩ := count_of_shiftAll hpast
  refine ⟨hclosed, by omega, ?_⟩
  rintro before after hsplit
  rw [hsplit, shiftAll_append] at hpast
  obtain ⟨between, hbefore, -⟩ := Option.bind_eq_some_iff.1 hpast
  have hcount := (count_of_shiftAll hbefore).2
  omega

end Token
end EventFormula
