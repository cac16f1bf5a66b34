import EventFormula.Token.Lexer

/-!
# Where tokens stand

The tokens of a text follow each other without gaps: each starts where the one before it stops, and
takes as many bytes as its text. So a run of tokens that is cut out of them is laid out in the same
way. Offsets are those of the text as long as they can be stated.
-/

namespace EventFormula.Token

/-- The token starts at an offset and is not empty. -/
structure Covers (start : Nat) (token : Token) : Prop where
  start_eq : token.span.start = start
  stop_eq : token.span.stop = start + Text.size token.text.toList
  less : start < token.span.stop

/-- The tokens take the bytes between two offsets, in order and without gaps. -/
def Laid : (start : Nat) → List Token → (stop : Nat) → Prop
  | start, [], stop => start = stop
  | start, token :: tokens, stop => token.Covers start ∧ Laid token.span.stop tokens stop

variable {start stop : Nat} {token : Token} {tokens : List Token}

theorem Laid.le (h : Laid start tokens stop) : start ≤ stop := by
  induction tokens generalizing start with
  | nil => exact Nat.le_of_eq h
  | cons token tokens ih =>
    have hless := h.1.less
    have hle := ih h.2
    omega

theorem Laid.size (h : Laid start tokens stop) : stop = start + Text.size (chars tokens) := by
  induction tokens generalizing start with
  | nil => exact h.symm
  | cons token tokens ih =>
    have hstop := h.1.stop_eq
    have hsize := ih h.2
    rw [chars_cons, Text.size_append]
    omega

/-- Two runs make one if the second starts where the first stops, and not otherwise. -/
theorem laid_append {first second : List Token} :
    Laid start (first ++ second) stop ↔
      ∃ middle, Laid start first middle ∧ Laid middle second stop := by
  induction first generalizing start with
  | nil =>
    constructor
    · intro h
      exact ⟨start, rfl, h⟩
    · rintro ⟨middle, rfl, h⟩
      exact h
  | cons token first ih =>
    rw [List.cons_append]
    constructor
    · rintro ⟨hcovers, h⟩
      obtain ⟨middle, hfirst, hsecond⟩ := ih.1 h
      exact ⟨middle, ⟨hcovers, hfirst⟩, hsecond⟩
    · rintro ⟨middle, ⟨hcovers, hfirst⟩, hsecond⟩
      exact ⟨hcovers, ih.2 ⟨middle, hfirst, hsecond⟩⟩

/-- Every token of the run stands inside it. -/
theorem Laid.of_mem (h : Laid start tokens stop) (hmem : token ∈ tokens) :
    start ≤ token.span.start ∧ token.span.start < token.span.stop ∧ token.span.stop ≤ stop := by
  obtain ⟨first, second, rfl⟩ := List.append_of_mem hmem
  obtain ⟨middle, hfirst, hcovers, hsecond⟩ := laid_append.1 h
  have hbefore := hfirst.le
  have hafter := hsecond.le
  have hstart := hcovers.start_eq
  have hless := hcovers.less
  omega

/-- A token starts behind what comes before it, and stops behind itself. -/
theorem Laid.place {first second : List Token} (h : Laid 0 (first ++ token :: second) stop) :
    token.span.start = Text.size (chars first) ∧
      token.span.stop = Text.size (chars (first ++ [token])) := by
  obtain ⟨middle, hfirst, hcovers, -⟩ := laid_append.1 h
  have hmiddle : Text.size (chars first) = middle := by
    rw [hfirst.size, Nat.zero_add]
  constructor
  · rw [hmiddle, hcovers.start_eq]
  · rw [hcovers.stop_eq, chars_append, Text.size_append, hmiddle, chars_cons, chars_nil,
      List.append_nil]

/-- A run of tokens of a text covers what is cut out between its ends. -/
theorem slice_run {source : String} {first run last : List Token}
    (h : lexemes source = first ++ run ++ last) :
    Text.slice source (Text.size (chars first)) (Text.size (chars (first ++ run)))
      = concat run := by
  have hchars : source.toList = chars first ++ chars run ++ chars last := by
    rw [← concat_lexemes source, toList_concat, h, chars_append, chars_append]
  rw [Text.slice, hchars, chars_append, Text.slice?_append]
  rfl

/-- The tokens of a text are laid out in it. -/
theorem laid_lexemesFrom {start : Nat} {cs : List Char} (h : start + Text.size cs ≤ maxOffset) :
    Laid start (lexemesFrom start cs) (start + Text.size cs) := by
  fun_induction lexemesFrom start cs with
  | case1 start => exact (Nat.add_zero start).symm
  | case2 start c cs kind length hscan lexeme stop ih =>
    have hsize : Text.size (c :: cs) = Text.size lexeme + Text.size (cs.drop length) := by
      rw [← Text.size_append]
      simp only [lexeme, List.cons_append, List.take_append_drop]
    have hpos : 0 < Text.size lexeme := by
      have := Char.utf8Size_pos c
      simp only [lexeme, Text.size]
      omega
    have hfits : stop + Text.size (cs.drop length) ≤ maxOffset := by
      simp only [stop]
      omega
    have hstart : (Span.ofRange start stop).start = start := by
      simp only [Span.ofRange]
      omega
    have hstop : (Span.ofRange start stop).stop = stop := by
      simp only [Span.ofRange]
      omega
    have hrest := ih hfits
    rw [hsize, ← Nat.add_assoc]
    refine ⟨⟨hstart, ?_, ?_⟩, ?_⟩
    · simp only [hstop, String.toList_ofList, stop]
    · simp only [hstop, stop]
      omega
    · simp only [hstop]
      exact hrest

theorem laid_lexemes {source : String} (h : Text.size source.toList ≤ maxOffset) :
    Laid 0 (lexemes source) (Text.size source.toList) := by
  have hlaid : Laid 0 (lexemesFrom 0 source.toList) (0 + Text.size source.toList) :=
    laid_lexemesFrom (by omega)
  rwa [Nat.zero_add] at hlaid

end EventFormula.Token
