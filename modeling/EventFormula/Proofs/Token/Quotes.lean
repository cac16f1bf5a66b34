import EventFormula.Proofs.Token.Runs

/-!
# Quotes that close literals

Behind the quote that opens a literal, a closing quote is one that no backslash takes along when the
text is read from left to right. `Closable` says that there is one. The lexer takes a literal as
closed just if one is found before the text ends or a backslash stands in front of a line feed, as
`unterminated_iff` states. So a literal that is closed further on is still reported as unterminated
where a backslash takes a line feed along.
-/

namespace EventFormula

namespace Token

/-- Read from left to right there is a closing quote, where a backslash takes along one character of
those that it can take. -/
inductive Closable (takes : Char → Prop) : List Char → Prop where
  | quote (cs : List Char) : Closable takes ('"' :: cs)
  | pair {c : Char} {cs : List Char} (hc : takes c) (h : Closable takes cs) :
      Closable takes ('\\' :: c :: cs)
  | plain {c : Char} {cs : List Char} (hc : c ≠ '\\') (h : Closable takes cs) :
      Closable takes (c :: cs)

section Closable
variable {takes : Char → Prop} {c : Char} {cs : List Char}

theorem closable_pair : Closable takes ('\\' :: c :: cs) ↔ takes c ∧ Closable takes cs := by
  constructor
  · intro h
    cases h with
    | pair hc h => exact ⟨hc, h⟩
    | plain hc h => exact absurd rfl hc
  · exact fun h => .pair h.1 h.2

theorem closable_plain (hquote : c ≠ '"') (hbackslash : c ≠ '\\') :
    Closable takes (c :: cs) ↔ Closable takes cs := by
  constructor
  · intro h
    cases h with
    | quote => exact absurd rfl hquote
    | pair hc h => exact absurd rfl hbackslash
    | plain hc h => exact h
  · exact .plain hbackslash

theorem not_closable_nil : ¬ Closable takes [] := nofun

theorem not_closable_backslash : ¬ Closable takes ['\\'] := by
  intro h
  cases h with
  | plain hc h => exact hc rfl

/-- A literal is taken as closed just if it can be closed without taking a line feed along. -/
theorem stringTail_closed_iff (cs : List Char) :
    (stringTail cs).2 = true ↔ Closable (· ≠ '\n') cs := by
  fun_induction stringTail cs with
  | case1 cs => exact iff_of_true rfl (.quote cs)
  | case2 cs =>
    rw [closable_pair]
    exact iff_of_false Bool.false_ne_true fun h => h.1 rfl
  | case3 c cs hfeed length closed htail ih =>
    rw [htail] at ih
    rw [closable_pair, ← ih]
    exact (and_iff_right hfeed).symm
  | case4 => exact iff_of_false Bool.false_ne_true not_closable_backslash
  | case5 c cs hquote hbackslash hend length closed htail ih =>
    rw [htail] at ih
    rw [closable_plain hquote (ne_backslash hbackslash hend)]
    exact ih
  | case6 => exact iff_of_false Bool.false_ne_true not_closable_nil

/-- If it is not, it can be closed at all just if it ends in front of a backslash and a line feed,
and can be closed behind these. -/
theorem closable_of_open (h : (stringTail cs).2 = false) :
    Closable (fun _ => True) cs ↔
      ∃ rest, cs.drop (stringTail cs).1 = '\\' :: '\n' :: rest ∧ Closable (fun _ => True) rest := by
  fun_induction stringTail cs with
  | case1 cs => cases h
  | case2 cs =>
    rw [closable_pair, true_and, List.drop_zero]
    constructor
    · exact fun h => ⟨cs, rfl, h⟩
    · rintro ⟨rest, heq, h⟩
      cases heq
      exact h
  | case3 c cs hfeed length closed htail ih =>
    rw [htail] at ih
    rw [closable_pair, true_and, ih h, Nat.add_comm]
    rfl
  | case4 =>
    refine iff_of_false not_closable_backslash ?_
    rintro ⟨rest, heq, -⟩
    cases heq
  | case5 c cs hquote hbackslash hend length closed htail ih =>
    rw [htail] at ih
    rw [closable_plain hquote (ne_backslash hbackslash hend), ih h, Nat.add_comm]
    rfl
  | case6 =>
    refine iff_of_false not_closable_nil ?_
    rintro ⟨rest, heq, -⟩
    cases heq

end Closable

section Literal
variable {source : String} {token : Token} {c : Char} {cs : List Char}

/-- Only what starts with a quote is taken as a literal. -/
theorem quote_of_scan (h : (scan c cs).1 = .string ∨ (scan c cs).1 = .unterminatedString) :
    c = '"' := by
  have hscans := scans c cs
  generalize scan c cs = found at h hscans
  cases hscans with
  | literal hc => exact hc
  | symbol =>
    have hsymbol : symbol c ≠ .string ∧ symbol c ≠ .unterminatedString := by
      unfold symbol
      repeat' split
      all_goals exact ⟨nofun, nofun⟩
    exact (h.elim hsymbol.1 hsymbol.2).elim
  | _ => rcases h with h | h <;> cases h

/-- A token that covers something stands at its place in the text, at the front of what is left. -/
theorem front_of_mem_lex (hmem : token ∈ lex source) (hkind : token.kind ≠ .endOfText) :
    ∃ before after, source.toList = before ++ (token.text.toList ++ after) ∧
      token.span = .ofRange (Text.size before) (Text.size before + Text.size token.text.toList) ∧
      Front (token.text.toList ++ after) token.kind token.text.toList := by
  have hlexeme : token ∈ lexemes source := by
    rcases List.mem_append.1 hmem with hmem | hclosing
    · exact hmem
    · rw [List.mem_singleton.1 hclosing] at hkind
      exact absurd rfl hkind
  obtain ⟨first, last, hsplit⟩ := List.append_of_mem hlexeme
  have hbehind := lexemesFrom_behind hsplit
  obtain ⟨after, hafter, hfront, -⟩ := front_of_lexemesFrom hbehind
  rw [hafter] at hbehind hfront
  rw [lexemesFrom_append hfront, Nat.zero_add] at hbehind
  have hsource : source.toList = chars first ++ chars (token :: last) := by
    rw [← chars_append, ← hsplit]
    exact (chars_lexemesFrom 0 source.toList).symm
  rw [hafter] at hsource
  exact ⟨chars first, after, hsource, (congrArg span (List.cons.inj hbehind).1).symm, hfront⟩

/-- A literal is reported as unterminated just if no closing quote is found behind its opening one
before the text ends or a backslash takes a line feed along. Then there is a closing quote all the
same just if the token ends in front of such a backslash and there is one behind the line feed. -/
theorem unterminated_iff (hmem : token ∈ lex source)
    (hliteral : token.kind = .string ∨ token.kind = .unterminatedString) :
    ∃ before body after, token.text.toList = '"' :: body ∧
      source.toList = before ++ '"' :: (body ++ after) ∧
      token.span = .ofRange (Text.size before) (Text.size before + Text.size ('"' :: body)) ∧
      (token.kind = .unterminatedString ↔ ¬ Closable (· ≠ '\n') (body ++ after)) ∧
      (token.kind = .unterminatedString → (Closable (fun _ => True) (body ++ after) ↔
        ∃ rest, after = '\\' :: '\n' :: rest ∧ Closable (fun _ => True) rest)) := by
  have hkind : token.kind ≠ .endOfText := by
    rcases hliteral with h | h <;> rw [h] <;> decide
  obtain ⟨before, after, hsource, hspan, hfront⟩ := front_of_mem_lex hmem hkind
  cases htext : token.text.toList with
  | nil =>
    rw [htext] at hfront
    exact absurd rfl hfront.ne_nil
  | cons c body =>
    rw [htext] at hsource hspan hfront
    obtain ⟨hscan, htake⟩ := scan_of_front hfront
    have hquote : c = '"' := @quote_of_scan c (body ++ after) (hscan ▸ hliteral)
    subst hquote
    rw [scan_quote] at hscan htake
    -- the lexer takes the body and leaves what comes after it
    have hlength : (stringTail (body ++ after)).1 = body.length := by
      have hbody := congrArg List.length (List.cons.inj htake).2
      rw [List.length_take, Nat.min_eq_left (stringTail_le _)] at hbody
      exact hbody.symm
    have hclosed : token.kind = .unterminatedString ↔ (stringTail (body ++ after)).2 = false := by
      rw [hscan]
      cases (stringTail (body ++ after)).2 <;> simp
    refine ⟨before, body, after, rfl, hsource, hspan, ?_, fun hopen => ?_⟩
    · rw [hclosed, ← stringTail_closed_iff, Bool.not_eq_true]
    · rw [closable_of_open (hclosed.1 hopen), hlength, List.drop_left]

theorem unterminated_iff_escaped :
    (⟨.unterminatedString, ⟨2, 6⟩, "\"a\\\""⟩ : Token) ∈ lex "1+\"a\\\"\\\n\"" ∧
      ∃ before body after, "\"a\\\"".toList = '"' :: body ∧
        "1+\"a\\\"\\\n\"".toList = before ++ '"' :: (body ++ after) ∧
        (⟨2, 6⟩ : Span) = .ofRange (Text.size before) (Text.size before + Text.size ('"' :: body)) ∧
        ¬ Closable (· ≠ '\n') (body ++ after) ∧
        (Closable (fun _ => True) (body ++ after) ↔
          ∃ rest, after = '\\' :: '\n' :: rest ∧ Closable (fun _ => True) rest) := by
  have hmem : (⟨.unterminatedString, ⟨2, 6⟩, "\"a\\\""⟩ : Token)
      ∈ lex "1+\"a\\\"\\\n\"" := by decide +kernel
  obtain ⟨before, body, after, htext, hsource, hspan, hopen, hclosable⟩ :=
    unterminated_iff hmem (Or.inr rfl)
  exact ⟨hmem, before, body, after, htext, hsource, hspan, hopen.1 rfl, hclosable rfl⟩

/-- A literal that is closed behind a backslash and a line feed is reported as unterminated. -/
theorem closable_of_line_feed :
    ¬ ∀ (source : String) (token : Token) (before body after : List Char), token ∈ lex source →
      token.kind = .unterminatedString → token.text.toList = '"' :: body →
      source.toList = before ++ '"' :: (body ++ after) →
      token.span = .ofRange (Text.size before) (Text.size before + Text.size ('"' :: body)) →
      ¬ Closable (fun _ => True) (body ++ after) := by
  intro h
  have hclosable : Closable (fun _ => True) ['\\', '\n', '"'] := .pair trivial (.quote [])
  exact h "\"\\\n\"" ⟨.unterminatedString, ⟨0, 1⟩, "\""⟩ [] [] ['\\', '\n', '"']
    (by decide +kernel) rfl (by decide) (by decide) (by decide) hclosable

end Literal

end Token

end EventFormula
