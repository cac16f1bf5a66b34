import EventFormula.Proofs.Token.Longest

/-!
# Tokens of a part of a text

A text may be cut wherever a token ends: nothing in front of the cut looks at what comes behind it,
as the longest token stays the longest when less follows. So a run of tokens of a text is what its
own text is cut into, some bytes earlier.
-/

namespace EventFormula

namespace Token

/-- The same token as many bytes to the front. -/
def back (base : Nat) (token : Token) : Token :=
  { token with span := ⟨token.span.start - base, token.span.stop - base⟩ }

/-- The tokens from the `i`-th to the `j`-th. -/
def run (tokens : List Token) (i j : Nat) : List Token := (tokens.take (j + 1)).drop i

/-- How many bytes the tokens in front of the `i`-th cover. -/
def offset (tokens : List Token) (i : Nat) : Nat := Text.size (chars (tokens.take i))

/-- The token `k` places behind the `i`-th, with the bytes counted from where the `i`-th starts. -/
def within (tokens : List Token) (i k : Nat) (token : Token) : Token :=
  { token with
    span := .ofRange (offset tokens (i + k) - offset tokens i)
      (offset tokens (i + k + 1) - offset tokens i) }

/-- The same tokens, one behind the other from `start` on. -/
def placed : (start : Nat) → List Token → List Token
  | _, [] => []
  | start, token :: tokens =>
    let stop := start + Text.size token.text.toList
    { token with span := .ofRange start stop } :: placed stop tokens

section Offset
variable {tokens : List Token} {i j k : Nat}

theorem offset_cons (token : Token) (tokens : List Token) (i : Nat) :
    offset (token :: tokens) (i + 1) = Text.size token.text.toList + offset tokens i := by
  rw [offset, List.take_succ_cons, chars_cons, Text.size_append, offset]

theorem offset_add (tokens : List Token) (i k : Nat) :
    offset tokens (i + k) = offset tokens i + offset (tokens.drop i) k := by
  rw [offset, List.take_add, chars_append, Text.size_append, offset, offset]

theorem offset_le (tokens : List Token) (h : i ≤ j) : offset tokens i ≤ offset tokens j := by
  obtain ⟨k, rfl⟩ := Nat.exists_eq_add_of_le h
  rw [offset_add]
  exact Nat.le_add_right ..

theorem take_append_run (tokens : List Token) (h : i ≤ j) :
    tokens.take i ++ run tokens i j = tokens.take (j + 1) := by
  have hall := List.take_append_drop i (tokens.take (j + 1))
  rwa [List.take_take, Nat.min_eq_left (by omega)] at hall

/-- A run of tokens ends as many bytes behind its first token as it covers. -/
theorem offset_stop (tokens : List Token) (h : i ≤ j) :
    offset tokens (j + 1) = offset tokens i + Text.size (chars (run tokens i j)) := by
  rw [offset, ← take_append_run tokens h, chars_append, Text.size_append, offset]

theorem offset_run (tokens : List Token) (h : i + k ≤ j + 1) :
    offset tokens (i + k) = offset tokens i + offset (run tokens i j) k := by
  have htake : (run tokens i j).take k = (tokens.drop i).take k := by
    rw [run, List.drop_take, List.take_take, Nat.min_eq_left (by omega)]
  rw [offset_add, offset, offset, offset, htake]

theorem getElem?_run {token : Token} (h : (run tokens i j)[k]? = some token) :
    i + k ≤ j ∧ tokens[i + k]? = some token := by
  rw [run, List.getElem?_drop, List.getElem?_take] at h
  split at h
  · exact ⟨by omega, h⟩
  · cases h

theorem getElem?_placed (start : Nat) (tokens : List Token) (i : Nat) :
    (placed start tokens)[i]? = tokens[i]?.map fun token =>
      { token with
        span := .ofRange (start + offset tokens i) (start + offset tokens (i + 1)) } := by
  induction tokens generalizing start i with
  | nil => rfl
  | cons token tokens ih =>
    cases i with
    | zero => rw [offset_cons]; rfl
    | succ i =>
      rw [placed, List.getElem?_cons_succ, List.getElem?_cons_succ, ih, offset_cons, offset_cons]
      simp only [Nat.add_assoc]

/-- In its own text, a run of tokens lies as far to the front as the first of them lay behind. -/
theorem placed_run (tokens : List Token) (i j : Nat) :
    placed 0 (run tokens i j) = (run tokens i j).mapIdx (within tokens i) := by
  refine List.ext_getElem? fun k => ?_
  rw [getElem?_placed, List.getElem?_mapIdx]
  cases hget : (run tokens i j)[k]? with
  | none => rfl
  | some token =>
    have hk := (getElem?_run hget).1
    have hstart := offset_run tokens (i := i) (j := j) (k := k) (by omega)
    have hstop := offset_run tokens (i := i) (j := j) (k := k + 1) (by omega)
    rw [← Nat.add_assoc] at hstop
    rw [Option.map_some, Option.map_some, within, hstart, hstop, Nat.add_sub_cancel_left,
      Nat.add_sub_cancel_left, Nat.zero_add, Nat.zero_add]

end Offset

section Cut
variable {cs whole text : List Char} {kind : Kind} {start : Nat} {token : Token}
  {first second : List Token}

/-- What stands at the front of a text stands at the front of every start of it that holds it. -/
theorem Front.of_prefix (h : Front whole kind text) (htext : text <+: cs) (hcs : cs <+: whole) :
    Front cs kind text := by
  cases h with
  | token h =>
    exact .token ⟨htext, h.fits, fun other start hstart => h.longest other start (hstart.trans hcs)⟩
  | invalid h =>
    obtain ⟨rest, rfl⟩ := htext
    exact .invalid fun kind start hstart => h kind start (hstart.trans hcs)

/-- The first token stands at the front, and the others are those of what is behind it. -/
theorem front_of_lexemesFrom (h : lexemesFrom start cs = token :: second) :
    ∃ rest, cs = token.text.toList ++ rest ∧ Front cs token.kind token.text.toList ∧
      lexemesFrom (start + Text.size token.text.toList) rest = second := by
  have hne : cs ≠ [] := by
    rintro rfl
    rw [lexemesFrom] at h
    cases h
  obtain ⟨kind, text, rest, rfl, hfront⟩ := exists_front hne
  rw [lexemesFrom_append hfront] at h
  obtain ⟨rfl, hsecond⟩ := List.cons.inj h
  rw [String.toList_ofList]
  exact ⟨rest, rfl, hfront, hsecond⟩

/-- The first tokens of a text are those of the text that they cover, wherever it stands. -/
theorem lexemesFrom_chars (h : lexemesFrom start cs = first ++ second) (other : Nat) :
    lexemesFrom other (chars first) = placed other first := by
  induction first generalizing start cs other with
  | nil => rw [chars_nil, lexemesFrom, placed]
  | cons token first ih =>
    rw [List.cons_append] at h
    obtain ⟨rest, rfl, hfront, hrest⟩ := front_of_lexemesFrom h
    have hchars : rest = chars first ++ chars second := by
      rw [← chars_append, ← hrest, chars_lexemesFrom]
    have hcut : Front (token.text.toList ++ chars first) token.kind token.text.toList := by
      refine hfront.of_prefix (List.prefix_append ..) ?_
      rw [hchars, ← List.append_assoc]
      exact List.prefix_append ..
    rw [chars_cons, lexemesFrom_append hcut, ih hrest, String.ofList_toList, placed]

/-- The last tokens of a text are those of the text that they cover, from where it stands. -/
theorem lexemesFrom_behind (h : lexemesFrom start cs = first ++ second) :
    lexemesFrom (start + Text.size (chars first)) (chars second) = second := by
  induction first generalizing start cs with
  | nil =>
    have hchars : chars second = cs := by
      rw [← List.nil_append second, ← h, chars_lexemesFrom]
    rw [hchars]
    exact h
  | cons token first ih =>
    obtain ⟨rest, rfl, -, hrest⟩ := front_of_lexemesFrom h
    rw [chars_cons, Text.size_append, ← Nat.add_assoc]
    exact ih hrest

end Cut

section Runs
variable {source : String} {before middle after : List Token} {i : Nat} {token : Token}

/-- A token of a text stands behind those in front of it. -/
theorem span_of_getElem? (h : (lexemes source)[i]? = some token) :
    token.span = .ofRange (offset (lexemes source) i) (offset (lexemes source) (i + 1)) := by
  have hall : lexemesFrom 0 source.toList = lexemes source ++ [] := (List.append_nil _).symm
  have hplaced := lexemesFrom_chars hall 0
  have hchars : chars (lexemes source) = source.toList := chars_lexemesFrom 0 source.toList
  have hget := getElem?_placed 0 (lexemes source) i
  rw [← hplaced, hchars] at hget
  change (lexemes source)[i]? = _ at hget
  rw [h, Option.map_some, Nat.zero_add, Nat.zero_add] at hget
  exact congrArg span (Option.some.inj hget)

/-- A run of tokens is what its own text is cut into. -/
theorem lexemes_concat (h : lexemes source = before ++ middle ++ after) :
    lexemes (concat middle) = placed 0 middle := by
  rw [List.append_assoc] at h
  rw [lexemes, toList_concat]
  exact lexemesFrom_chars (lexemesFrom_behind h) 0

/-- As long as no offset is clamped, the bytes can be counted in the spans. -/
theorem mapIdx_within {j : Nat} (hfits : offset (lexemes source) (j + 1) ≤ maxOffset) :
    (run (lexemes source) i j).mapIdx (within (lexemes source) i)
      = (run (lexemes source) i j).map (back (offset (lexemes source) i)) := by
  refine List.ext_getElem? fun k => ?_
  rw [List.getElem?_mapIdx, List.getElem?_map]
  cases hget : (run (lexemes source) i j)[k]? with
  | none => rfl
  | some token =>
    obtain ⟨hk, htoken⟩ := getElem?_run hget
    have hle := offset_le (lexemes source) (by omega : i + k ≤ i + k + 1)
    have hless := offset_le (lexemes source) (by omega : i + k + 1 ≤ j + 1)
    rw [Option.map_some, Option.map_some, within, back, span_of_getElem? htoken]
    simp only [Span.ofRange, Option.some.injEq, Token.mk.injEq, Span.mk.injEq, true_and, and_true]
    omega

end Runs

/-- The text from one token of a text to another has the same tokens, which stand as many bytes
earlier as the first of them does. A span keeps no offset beyond `maxOffset`, so that its own bounds
are those of the token, and can be moved, as long as the last of these tokens ends there. -/
theorem lex_slice {source : String} {i j : Nat} {first last : Token} (hle : i ≤ j)
    (hfirst : (lexemes source)[i]? = some first) (hlast : (lexemes source)[j]? = some last) :
    let tokens := lexemes source
    let start := offset tokens i
    let stop := offset tokens (j + 1)
    (∀ (k : Nat) (token : Token), tokens[k]? = some token →
        token.span = .ofRange (offset tokens k) (offset tokens (k + 1))) ∧
      lex (Text.slice source start stop)
        = (run tokens i j).mapIdx (within tokens i)
          ++ [⟨.endOfText, .ofRange (stop - start) (stop - start), ""⟩] ∧
      (stop ≤ maxOffset →
        lex (Text.slice source first.span.start last.span.stop)
          = (run tokens i j).map (back first.span.start)
            ++ [⟨.endOfText, .point (last.span.stop - first.span.start), ""⟩]) := by
  intro tokens start stop
  have hsplit : tokens = tokens.take i ++ run tokens i j ++ tokens.drop (j + 1) := by
    rw [take_append_run tokens hle, List.take_append_drop]
  have hstop : stop = start + Text.size (chars (run tokens i j)) := offset_stop tokens hle
  have hslice : Text.slice source start stop = concat (run tokens i j) := by
    have hrun := slice_run hsplit
    rwa [take_append_run tokens hle] at hrun
  have hclosing : closing (concat (run tokens i j))
      = ⟨.endOfText, .ofRange (stop - start) (stop - start), ""⟩ := by
    rw [closing, toList_concat, hstop, Nat.add_sub_cancel_left]
  have hpart : lex (Text.slice source start stop)
      = (run tokens i j).mapIdx (within tokens i)
        ++ [⟨.endOfText, .ofRange (stop - start) (stop - start), ""⟩] := by
    rw [hslice, lex, lexemes_concat hsplit, placed_run, hclosing]
  refine ⟨fun k token => span_of_getElem?, hpart, fun hfits => ?_⟩
  have hless : start ≤ maxOffset := Nat.le_trans (offset_le tokens (by omega)) hfits
  have hbounds : first.span.start = start ∧ last.span.stop = stop := by
    rw [span_of_getElem? hfirst, span_of_getElem? hlast]
    exact ⟨Nat.min_eq_left hless, Nat.min_eq_left hfits⟩
  rw [hbounds.1, hbounds.2, hpart, mapIdx_within hfits, Span.ofRange, Nat.min_eq_left (by omega)]
  rfl

theorem lex_slice_exponent :
    (lexemes "Max(2e+, 1)")[2]? = some ⟨.number, ⟨4, 5⟩, "2"⟩ ∧
      (lexemes "Max(2e+, 1)")[4]? = some ⟨.plus, ⟨6, 7⟩, "+"⟩ ∧
      lex (Text.slice "Max(2e+, 1)" 4 7)
        = [⟨.number, ⟨0, 1⟩, "2"⟩, ⟨.identifier, ⟨1, 2⟩, "e"⟩, ⟨.plus, ⟨2, 3⟩, "+"⟩,
          ⟨.endOfText, .point 3, ""⟩] := by
  have hfirst : (lexemes "Max(2e+, 1)")[2]? = some ⟨.number, ⟨4, 5⟩, "2"⟩ := by decide +kernel
  have hlast : (lexemes "Max(2e+, 1)")[4]? = some ⟨.plus, ⟨6, 7⟩, "+"⟩ := by decide +kernel
  have hpart := (lex_slice (by decide) hfirst hlast).2.2 (by decide +kernel)
  refine ⟨hfirst, hlast, hpart.trans ?_⟩
  decide +kernel

end Token

end EventFormula
