import EventFormula.Proofs.Lowering.Reuse

/-!
# String literals

A string literal is lowered to a literal again. The lexer, the reading of escapes and the writing of
them agree on where a literal ends, so what is written stands for the same text, is one token
however the text looks, and is lowered to itself. The main statement is `lower_literal`.
-/

namespace EventFormula

namespace Token

/-- The text is one closed string literal. -/
def IsLiteral (text : String) : Prop := (lex text).map Token.kind = [.string, .endOfText]

instance (text : String) : Decidable (IsLiteral text) := inferInstanceAs (Decidable (_ = _))

/-- Its only token covers it. -/
theorem IsLiteral.lexemes {text : String} (h : IsLiteral text) :
    ∃ span, Token.lexemes text = [⟨.string, span, text⟩] := by
  have hcover := concat_lexemes text
  unfold IsLiteral lex at h
  match hlexemes : Token.lexemes text with
  | [] =>
    rw [hlexemes] at h
    cases h
  | [⟨kind, span, covered⟩] =>
    rw [hlexemes] at h hcover
    obtain ⟨rfl, -⟩ := List.cons.inj h
    refine ⟨span, ?_⟩
    rw [← hcover, concat, chars_cons, chars_nil, List.append_nil, String.ofList_toList]
  | _ :: _ :: _ =>
    rw [hlexemes] at h
    simp at h

/-- An escaped character is inside a literal, whatever follows. -/
theorem stringTail_escapeChar_append (c : Char) (cs : List Char) :
    stringTail (Text.escapeChar c ++ cs)
      = ((Text.escapeChar c).length + (stringTail cs).1, (stringTail cs).2) := by
  by_cases hq : c = '"'
  · subst hq; rfl
  by_cases hb : c = '\\'
  · subst hb; rfl
  by_cases hn : c = '\n'
  · subst hn; rfl
  by_cases hr : c = '\r'
  · subst hr; rfl
  by_cases ht : c = '\t'
  · subst ht; rfl
  simp [Text.escapeChar, hq, hb, hn, hr, ht, stringTail]

/-- The first quote that follows an escaped text closes it. -/
theorem stringTail_escapeChars (cs rest : List Char) :
    stringTail (Text.escapeChars cs ++ '"' :: rest)
      = ((Text.escapeChars cs).length + 1, true) := by
  induction cs with
  | nil => rfl
  | cons c cs ih =>
    have hcons : Text.escapeChars (c :: cs) = Text.escapeChar c ++ Text.escapeChars cs :=
      List.flatMap_cons
    rw [hcons, List.append_assoc, stringTail_escapeChar_append, ih, List.length_append,
      Nat.add_assoc]

end Token

namespace JavaScript

open Token (IsLiteral)

theorem toList_quote (text : String) :
    (quote text).toList = '"' :: (Text.escapeChars text.toList ++ ['"']) := by
  simp [quote, Text.escape]

/-- What is written for a text is one literal. -/
theorem isLiteral_quote (text : String) : IsLiteral (quote text) := by
  have hscan : Token.scan '"' (Text.escapeChars text.toList ++ ['"'])
      = (.string, (Text.escapeChars text.toList ++ ['"']).length) := by
    have htail := Token.stringTail_escapeChars text.toList []
    simp [Token.scan, Token.isBlank, htail]
  rw [IsLiteral, Token.lex, Token.lexemes, toList_quote, Token.lexemesFrom, hscan]
  simp [Token.lexemesFrom, Token.closing]

/-- An escaped character is written without a line feed, carriage return or tab. -/
theorem plain_of_mem_escapeChar {c d : Char} (h : d ∈ Text.escapeChar c) :
    d ≠ '\n' ∧ d ≠ '\r' ∧ d ≠ '\t' := by
  have hplain : (Text.escapeChar c).all (fun d => d ≠ '\n' ∧ d ≠ '\r' ∧ d ≠ '\t') = true := by
    unfold Text.escapeChar
    split
    · decide
    split
    · decide
    split
    · decide
    split
    · decide
    split
    · decide
    · simp only [List.all_cons, List.all_nil, Bool.and_true, decide_eq_true_eq]
      exact ⟨‹_›, ‹_›, ‹_›⟩
  exact of_decide_eq_true (List.all_eq_true.1 hplain d h)

theorem plain_of_mem_quote {text : String} {c : Char} (h : c ∈ (quote text).toList) :
    c ≠ '\n' ∧ c ≠ '\r' ∧ c ≠ '\t' := by
  rw [toList_quote, List.mem_cons, List.mem_append, List.mem_singleton] at h
  rcases h with rfl | h | rfl
  · decide
  · obtain ⟨d, -, hd⟩ := List.mem_flatMap.1 h
    exact plain_of_mem_escapeChar hd
  · decide

theorem unescape_quote (text : String) : Text.unescape (quote text) = text :=
  Text.unescape_quoted_escape text

variable (scope : Scope) (hooks : Table Hook)

/-- A literal is read as the call of the function without a name, and that becomes a literal. -/
theorem script_literal {e : Expression} (h : IsLiteral e.text) :
    (Generator.mk scope (target scope) hooks).script .text e
      = .done (.ok (quote (Text.unescape e.text))) := by
  obtain ⟨span, hlexemes⟩ := h.lexemes
  have htrace : Trace.ofExpression scope .text e
      = ⟨[.call ((Trace.Reader.ofExpression scope .text e).literal ⟨.string, span, e.text⟩)],
        none⟩ := by
    simp only [Trace.ofExpression, hlexemes]
    rfl
  show Fragment.ofTrace _ (Trace.ofExpression scope .text e) = _
  rw [htrace]
  have hempty : "" ++ quote (Text.unescape e.text) = quote (Text.unescape e.text) :=
    String.empty_append
  conv => rhs; rw [← hempty]
  rfl

/-- A literal is lowered to a literal that stands for the same text, shows no control character that
could be escaped, and is lowered to itself. Any text can be written as such a literal. -/
theorem lower_literal (text : String) {literal : String} {offset : Nat} {state : State}
    (hliteral : IsLiteral literal) (hidle : state.context.Idle)
    (hlimit : 0 < state.context.maxDepth) :
    (∃ code,
      ((Generator.mk scope (target scope) hooks).lower .text (.place literal offset) state).1
          = .ok code ∧
        IsLiteral code ∧ (∀ c ∈ code.toList, c ≠ '\n' ∧ c ≠ '\r' ∧ c ≠ '\t') ∧
        Text.unescape code = Text.unescape literal ∧
        ((Generator.mk scope (target scope) hooks).lower .text (.place code offset) state).1
          = .ok code) ∧
      IsLiteral ("\"" ++ Text.escape text ++ "\"") ∧
      Text.unescape ("\"" ++ Text.escape text ++ "\"") = text ∧
      ((Generator.mk scope (target scope) hooks).lower .text
        (.place ("\"" ++ Text.escape text ++ "\"") offset) state).1
          = .ok ("\"" ++ Text.escape text ++ "\"") := by
  have hlower {literal : String} (h : IsLiteral literal) :
      ((Generator.mk scope (target scope) hooks).lower .text (.place literal offset) state).1
        = .ok (quote (Text.unescape literal)) := by
    rw [Generator.lower_of_done (script_literal scope hooks h) hidle hlimit]
    rfl
  have hquote (text : String) :
      ((Generator.mk scope (target scope) hooks).lower .text (.place (quote text) offset) state).1
        = .ok (quote text) := by
    rw [hlower (isLiteral_quote text), unescape_quote]
  exact ⟨⟨quote (Text.unescape literal), hlower hliteral, isLiteral_quote _,
    fun c hmem => plain_of_mem_quote hmem, unescape_quote _, hquote _⟩,
    isLiteral_quote text, unescape_quote text, hquote text⟩

/-- A literal with a tab, an escape that is none, and an escaped quote before the closing one. -/
theorem lower_literal_escapes :
    IsLiteral "\"\té\\q\\\"\"" ∧ (State.initial 1).context.Idle ∧
      0 < (State.initial 1).context.maxDepth ∧
      (∃ code, ((generator .sample).lower .text (.place "\"\té\\q\\\"\"" 7) (.initial 1)).1
          = .ok code ∧
        IsLiteral code ∧ (∀ c ∈ code.toList, c ≠ '\n' ∧ c ≠ '\r' ∧ c ≠ '\t') ∧
        Text.unescape code = Text.unescape "\"\té\\q\\\"\"" ∧
        ((generator .sample).lower .text (.place code 7) (.initial 1)).1 = .ok code) ∧
      IsLiteral ("\"" ++ Text.escape "\\n" ++ "\"") ∧
      Text.unescape ("\"" ++ Text.escape "\\n" ++ "\"") = "\\n" ∧
      ((generator .sample).lower .text (.place ("\"" ++ Text.escape "\\n" ++ "\"") 7)
        (.initial 1)).1 = .ok ("\"" ++ Text.escape "\\n" ++ "\"") := by
  have hliteral : IsLiteral "\"\té\\q\\\"\"" := by decide +kernel
  have hidle : (State.initial 1).context.Idle := Context.idle_fresh none (some 1)
  have hlimit : 0 < (State.initial 1).context.maxDepth := by decide
  exact ⟨hliteral, hidle, hlimit,
    lower_literal .sample JavaScript.hooks "\\n" hliteral hidle hlimit⟩

end JavaScript
end EventFormula
