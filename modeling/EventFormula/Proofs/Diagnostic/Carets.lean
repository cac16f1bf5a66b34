import EventFormula.Diagnostic.Terminal
import EventFormula.Proofs.Expression.Parts

/-!
# Carets

A label is shown under the line in which its span starts. The characters of this line that lie in
the span are to be marked with carets, or else the place where the span starts. `Marked` says which
columns these are. The carets do start in the right column, but there are as many as the span has
bytes where the line has room for them. The main statement, `render_carets`, says so, and that the
carets mark what they should just if each character of the line in the span takes one byte or the
span goes on to the end of the line.
-/

namespace EventFormula

namespace Text

variable {cs : List Char} {m n : Nat}

/-- A longer part of a text has more bytes. -/
theorem size_take_le_iff (cs : List Char) (hm : m ≤ cs.length) :
    size (cs.take m) ≤ size (cs.take n) ↔ m ≤ n := by
  induction cs generalizing m n with
  | nil =>
    have hzero : m = 0 := Nat.le_zero.1 hm
    simp [hzero]
  | cons c cs ih =>
    have hpos := c.utf8Size_pos
    cases m with
    | zero => simp [size]
    | succ m =>
      cases n with
      | zero =>
        rw [List.take_succ_cons, List.take_zero, size, size]
        omega
      | succ n =>
        have hrest := ih (n := n) (Nat.le_of_succ_le_succ hm)
        rw [List.take_succ_cons, List.take_succ_cons, size, size]
        omega

/-- A text has as many bytes as characters just if each of them takes one. -/
theorem size_eq_length_iff : size cs = cs.length ↔ ∀ c ∈ cs, c.utf8Size = 1 := by
  induction cs with
  | nil => simp [size]
  | cons c cs ih =>
    have hpos := c.utf8Size_pos
    have hle := length_le_size cs
    rw [List.forall_mem_cons, ← ih, size, List.length_cons]
    omega

end Text

namespace Terminal

/-- A whole line of a text, between what comes before and what comes behind it. -/
structure IsLine (source lead line rest : List Char) : Prop where
  text : source = lead ++ (line ++ rest)
  single : '\n' ∉ line
  begins : ∀ c, lead.getLast? = some c → c = '\n'
  ends : ∀ c, rest.head? = some c → c = '\n'

/-- The line starts at byte `start` of the text, and the character in that column of it lies in the
span. -/
def Covered (span : Span) (start : Nat) (line : List Char) (column : Nat) : Prop :=
  column < line.length ∧ span.start ≤ start + Text.size (line.take column) ∧
    start + Text.size (line.take (column + 1)) ≤ span.stop

/-- A column that is to be marked: a character in it lies in the span, or no character of the line
does and the span starts there. -/
def Marked (span : Span) (start : Nat) (line : List Char) (column : Nat) : Prop :=
  Covered span start line column ∨
    (∀ other, ¬ Covered span start line other) ∧ column ≤ line.length ∧
      start + Text.size (line.take column) = span.start

section Columns
variable {lead head tail inside after rest : List Char}

/-- What is left of the line from the span's start on, and what the span takes, start the same text.
-/
theorem covered_iff (hrest : tail ++ rest = inside ++ after) {column : Nat} :
    Covered ⟨Text.size lead + Text.size head, Text.size lead + Text.size head + Text.size inside⟩
        (Text.size lead) (head ++ tail) column ↔
      head.length ≤ column ∧ column < head.length + min inside.length tail.length := by
  simp only [Covered, List.length_append]
  by_cases hcolumn : column < head.length + tail.length
  · have hhead : (head ++ tail).take head.length = head := List.take_left' rfl
    have hstart := Text.size_take_le_iff (head ++ tail) (m := head.length) (n := column)
      (by simp)
    have hstop := Text.size_take_le_iff (head ++ (inside ++ after)) (m := column + 1)
      (n := head.length + inside.length)
      (by
        have hlength := congrArg List.length hrest
        simp only [List.length_append] at hlength ⊢
        omega)
    have htext : head ++ (inside ++ after) = head ++ tail ++ rest := by
      rw [← hrest, List.append_assoc]
    have htake : (head ++ (inside ++ after)).take (column + 1)
        = (head ++ tail).take (column + 1) := by
      rw [htext, List.take_append_of_le_length]
      rw [List.length_append]
      omega
    have hinside : (head ++ (inside ++ after)).take (head.length + inside.length)
        = head ++ inside := by
      rw [← List.append_assoc, List.take_left' (List.length_append ..)]
    rw [hhead] at hstart
    rw [htake, hinside, Text.size_append] at hstop
    omega
  · omega

/-- The span starts in the column of its first character. -/
theorem start_iff {column : Nat} :
    (column ≤ (head ++ tail).length ∧
        Text.size lead + Text.size ((head ++ tail).take column)
          = Text.size lead + Text.size head) ↔ column = head.length := by
  have hhead : (head ++ tail).take head.length = head := List.take_left' rfl
  constructor
  · rintro ⟨hle, hsize⟩
    have hbelow := Text.size_take_le_iff (head ++ tail) (m := column) (n := head.length) hle
    have habove := Text.size_take_le_iff (head ++ tail) (m := head.length) (n := column)
      (by simp)
    rw [hhead] at hbelow habove
    omega
  · rintro rfl
    rw [hhead]
    exact ⟨by simp, rfl⟩

theorem marked_iff (hrest : tail ++ rest = inside ++ after) {column : Nat} :
    Marked ⟨Text.size lead + Text.size head, Text.size lead + Text.size head + Text.size inside⟩
        (Text.size lead) (head ++ tail) column ↔
      head.length ≤ column ∧ column < head.length + max 1 (min inside.length tail.length) := by
  simp only [Marked, start_iff, covered_iff hrest]
  constructor
  · rintro (hcovered | ⟨-, rfl⟩) <;> omega
  · intro h
    by_cases hnone : min inside.length tail.length = 0
    · exact Or.inr ⟨fun other => by omega, by omega⟩
    · exact Or.inl (by omega)

/-- Bytes may stand for the characters in the span just if they are as many or both reach the end of
the line. -/
theorem carets_eq_iff (hrest : tail ++ rest = inside ++ after) :
    max 1 (min (Text.size inside) tail.length) = max 1 (min inside.length tail.length) ↔
      (∀ column c, Covered ⟨Text.size lead + Text.size head,
            Text.size lead + Text.size head + Text.size inside⟩
          (Text.size lead) (head ++ tail) column →
        (head ++ tail)[column]? = some c → c.utf8Size = 1) ∨
      Text.size lead + Text.size (head ++ tail)
        ≤ Text.size lead + Text.size head + Text.size inside := by
  have hbytes := Text.length_le_size inside
  simp only [covered_iff hrest, Text.size_append]
  rcases List.append_eq_append_iff.1 hrest with ⟨more, rfl, -⟩ | ⟨more, rfl, -⟩
  · -- the span goes on behind the line
    simp only [List.length_append, Text.size_append] at hbytes ⊢
    refine iff_of_true (by omega) (Or.inr (by omega))
  · have hmore := Text.length_le_size more
    -- the characters of the line in the span are those of the span
    have hsingle : (∀ column c, head.length ≤ column ∧
          column < head.length + min inside.length (inside ++ more).length →
        (head ++ (inside ++ more))[column]? = some c → c.utf8Size = 1) ↔
        Text.size inside = inside.length := by
      rw [Text.size_eq_length_iff]
      constructor
      · intro h c hmem
        obtain ⟨i, hi, rfl⟩ := List.getElem_of_mem hmem
        refine h (head.length + i) inside[i] (by rw [List.length_append]; omega) ?_
        rw [List.getElem?_append_right (Nat.le_add_right ..), Nat.add_sub_cancel_left,
          List.getElem?_append_left hi, List.getElem?_eq_getElem hi]
      · intro h column c hcolumn hget
        rw [List.length_append] at hcolumn
        rw [List.getElem?_append_right hcolumn.1, List.getElem?_append_left (by omega)] at hget
        exact h c (List.mem_of_getElem? hget)
    rw [hsingle]
    simp only [List.length_append, Text.size_append]
    constructor
    · intro h
      by_cases hend : more = []
      · right
        rw [hend, Text.size]
        omega
      · left
        have hroom := List.length_pos_iff.2 hend
        by_cases hnone : inside = []
        · rw [hnone, Text.size, List.length_nil]
        · have hsome := List.length_pos_iff.2 hnone
          omega
    · rintro (h | h)
      · rw [h]
      · omega

end Columns

theorem isLineFeed_iff {c : Char} : isLineFeed c = true ↔ c = '\n' := decide_eq_true_iff

/-- Wherever a text is cut there is one line around the cut, and it is found. -/
theorem exists_line (source : String) {before behind : List Char}
    (hsource : source.toList = before ++ behind) :
    ∃ lead head tail rest, before = lead ++ head ∧ behind = tail ++ rest ∧
      IsLine source.toList lead (head ++ tail) rest ∧
      lineAt? source (Text.size before) = some (String.ofList (head ++ tail), head.length) := by
  have hplain {cs : List Char} : '\n' ∉ cs.takeWhile fun c => !isLineFeed c := by
    intro hmem
    have h := List.all_eq_true.1 List.all_takeWhile '\n' hmem
    revert h
    decide
  have hfeed {cs : List Char} {c : Char}
      (h : (cs.dropWhile fun c => !isLineFeed c).head? = some c) : c = '\n' := by
    have hstop := List.head?_dropWhile_not (fun c => !isLineFeed c) cs
    rw [h] at hstop
    exact isLineFeed_iff.1 (by simpa using hstop)
  refine ⟨(before.reverse.dropWhile fun c => !isLineFeed c).reverse,
    (before.reverse.takeWhile fun c => !isLineFeed c).reverse,
    behind.takeWhile fun c => !isLineFeed c, behind.dropWhile fun c => !isLineFeed c,
    ?_, ?_, ?_, ?_⟩
  · rw [← List.reverse_append, List.takeWhile_append_dropWhile, List.reverse_reverse]
  · exact List.takeWhile_append_dropWhile.symm
  · constructor
    · rw [List.append_assoc, List.takeWhile_append_dropWhile, ← List.append_assoc,
        ← List.reverse_append, List.takeWhile_append_dropWhile, List.reverse_reverse, hsource]
    · rw [List.mem_append, List.mem_reverse]
      exact not_or.2 ⟨hplain, hplain⟩
    · intro c hc
      rw [List.getLast?_reverse] at hc
      exact hfeed hc
    · exact fun c => hfeed
  · have hle : Text.size before ≤ Text.size source.toList := by
      rw [hsource, Text.size_append]
      exact Nat.le_add_right ..
    rw [lineAt?, Nat.min_eq_left hle, hsource, Text.splitAt?_append]
    rfl

/-- The row under a line. -/
def underline (column carets : Nat) : String := repeated ' ' column ++ repeated '^' carets

theorem caret_iff {column carets i : Nat} :
    (underline column carets).toList[i]? = some '^' ↔ column ≤ i ∧ i < column + carets := by
  have hblank : ' ' ≠ '^' := by decide
  simp only [underline, repeated, String.toList_append, String.toList_ofList,
    List.getElem?_append, List.length_replicate, List.getElem?_replicate]
  by_cases hi : i < column
  · simp only [hi, if_true, Option.some.injEq, hblank, false_iff]
    omega
  · by_cases hcarets : i - column < carets <;> simp [hi, hcarets] <;> omega

/-- What is shown of a label: its span, a line, a row of carets under that and the message. -/
def snippet (label : Label) (line : List Char) (row : String) : String :=
  "  --> " ++ label.span.render ++ "\n" ++ "   |\n   | " ++ String.ofList line ++ "\n   | " ++ row
    ++ " " ++ label.message ++ "\n"

/-- A label is shown under the line in which its span starts, with carets from the column on in
which it does, as many as it has bytes where the line has room for them, and one at least. -/
structure Shows (source : String) (label : Label) (shown : String) (lead line rest : List Char)
    (column carets : Nat) : Prop where
  isLine : IsLine source.toList lead line rest
  column_le : column ≤ line.length
  start : Text.size lead + Text.size (line.take column) = label.span.start
  count : carets = max 1 (min (label.span.stop - label.span.start) (line.length - column))
  text : ∃ above below, shown = above ++ snippet label line (underline column carets) ++ below

theorem renderLabel_of_line {source : String} {label : Label} {line : List Char} {column : Nat}
    (h : lineAt? source label.span.start = some (String.ofList line, column)) :
    renderLabel false (some source) label = snippet label line (underline column
      (max 1 (min (label.span.stop - label.span.start) (line.length - column)))) := by
  unfold snippet
  rw [renderLabel, Option.bind_some, h]
  simp only [paint, Bool.false_eq_true, if_false, underlineWidth, String.length_ofList, underline,
    String.append_assoc]

theorem exists_render (colors : Bool) (source : Option String) {diagnostic : Diagnostic}
    {label : Label} (hmem : label ∈ diagnostic.labels) :
    ∃ above below, render colors source diagnostic
      = above ++ renderLabel colors source label ++ below := by
  obtain ⟨first, last, hlabels⟩ := List.append_of_mem hmem
  have hmiddle (front before shown behind notes suggestions last : String) :
      ∃ above below, front ++ (before ++ (shown ++ behind)) ++ notes ++ suggestions ++ last
        = above ++ shown ++ below :=
    ⟨front ++ before, behind ++ notes ++ suggestions ++ last, by simp only [String.append_assoc]⟩
  rw [render, hlabels, List.map_append, List.map_cons, String.join_append, String.join_cons]
  exact hmiddle _ _ _ _ _ _ _

/-- A label whose span takes whole characters is shown under the line in which the span starts. The
carets under it stand from the right column on. They mark the characters of the line that lie in the
span, or the place where it starts if there are none, just if each of these takes one byte or the
span goes on to the end of the line. -/
theorem render_carets {source : String} {diagnostic : Diagnostic} {label : Label}
    (hmem : label ∈ diagnostic.labels) (hcuts : label.span.Cuts source.toList) :
    ∃ lead shown rest column carets,
      Shows source label (render false (some source) diagnostic) lead shown rest column carets ∧
        (∀ i, (underline column carets).toList[i]? = some '^' ↔ column ≤ i ∧ i < column + carets) ∧
        ((∀ i, (underline column carets).toList[i]? = some '^' ↔
            Marked label.span (Text.size lead) shown i) ↔
          (∀ i c, Covered label.span (Text.size lead) shown i → shown[i]? = some c →
              c.utf8Size = 1) ∨
            Text.size lead + Text.size shown ≤ label.span.stop) := by
  obtain ⟨⟨before, behind, hsource, hstart⟩, ⟨upto, after, hupto, hstop⟩, hle⟩ := hcuts
  obtain ⟨inside, rfl, rfl⟩ : ∃ inside, upto = before ++ inside ∧ behind = inside ++ after := by
    rcases List.append_eq_append_iff.1 (hsource.symm.trans hupto) with ⟨inside, h⟩ | ⟨more, h⟩
    · exact ⟨inside, h⟩
    · -- the span ends where it starts
      obtain ⟨rfl, rfl⟩ := h
      have hnone : more = [] := by
        have hmore := Text.length_le_size more
        rw [Text.size_append] at hstart
        exact List.length_eq_zero_iff.1 (by omega)
      subst hnone
      exact ⟨[], by simp, by simp⟩
  obtain ⟨lead, head, tail, rest, rfl, hrest, hline, hfound⟩ := exists_line source hsource
  have hspan : label.span = ⟨Text.size lead + Text.size head,
      Text.size lead + Text.size head + Text.size inside⟩ := by
    rw [← Text.size_append, ← Text.size_append, hstart, hstop]
  have hroom : (head ++ tail).length - head.length = tail.length := by
    rw [List.length_append, Nat.add_sub_cancel_left]
  have hbytes : label.span.stop - label.span.start = Text.size inside := by
    rw [hspan, Nat.add_sub_cancel_left]
  obtain ⟨above, below, htext⟩ := exists_render false (some source) hmem
  rw [hstart] at hfound
  rw [renderLabel_of_line hfound, hroom, hbytes] at htext
  refine ⟨lead, head ++ tail, rest, head.length, max 1 (min (Text.size inside) tail.length),
    ⟨hline, ?_, ?_, ?_, above, below, htext⟩, fun i => caret_iff, ?_⟩
  · simp
  · rw [List.take_left' rfl, hspan]
  · rw [hbytes, hroom]
  · simp only [caret_iff, hspan, marked_iff hrest.symm]
    rw [← carets_eq_iff hrest.symm]
    constructor
    · intro h
      have hlast := h (head.length + max 1 (min (Text.size inside) tail.length))
      have hother := h (head.length + max 1 (min inside.length tail.length))
      omega
    · intro h i
      rw [h]

/-- The second line of a formula, with a character of two bytes in front of the span. -/
theorem render_carets_sine :
    (⟨⟨9, 13⟩, "not found"⟩ : Label) ∈ [(⟨⟨9, 13⟩, "not found"⟩ : Label)] ∧
      Span.Cuts ⟨9, 13⟩ "1 +\né + Sine(3)".toList ∧
      ∃ lead shown rest column carets,
        Shows "1 +\né + Sine(3)" ⟨⟨9, 13⟩, "not found"⟩
          (render false (some "1 +\né + Sine(3)")
            ⟨.unknownFunction, "unknown function", [⟨⟨9, 13⟩, "not found"⟩], [], []⟩)
          lead shown rest column carets ∧
        ((∀ i, (underline column carets).toList[i]? = some '^' ↔
            Marked ⟨9, 13⟩ (Text.size lead) shown i) ↔
          (∀ i c, Covered ⟨9, 13⟩ (Text.size lead) shown i → shown[i]? = some c → c.utf8Size = 1) ∨
            Text.size lead + Text.size shown ≤ 13) := by
  have hmem : (⟨⟨9, 13⟩, "not found"⟩ : Label) ∈ [(⟨⟨9, 13⟩, "not found"⟩ : Label)] :=
    List.mem_singleton_self _
  have hcuts : Span.Cuts ⟨9, 13⟩ "1 +\né + Sine(3)".toList :=
    ⟨by decide +kernel, by decide +kernel, by decide⟩
  obtain ⟨lead, shown, rest, column, carets, hshows, -, hmarks⟩ :=
    @render_carets _ ⟨.unknownFunction, "unknown function", [⟨⟨9, 13⟩, "not found"⟩], [], []⟩ _
      hmem hcuts
  exact ⟨hmem, hcuts, lead, shown, rest, column, carets, hshows, hmarks⟩

/-- The name `Größe` has five characters and seven bytes, so seven carets stand under `Größe(1`. -/
theorem not_marked_of_wide :
    ¬ ∀ (source : String) (diagnostic : Diagnostic) (label : Label) (lead line rest : List Char)
        (column carets : Nat),
      label ∈ diagnostic.labels → label.span.Cuts source.toList →
      Shows source label (render false (some source) diagnostic) lead line rest column carets →
      ∀ i, (underline column carets).toList[i]? = some '^' ↔
        Marked label.span (Text.size lead) line i := by
  intro h
  have hcuts : Span.Cuts ⟨0, 7⟩ "Größe(1)".toList :=
    ⟨by decide +kernel, by decide +kernel, by decide⟩
  have hshows : Shows "Größe(1)" ⟨⟨0, 7⟩, "not found"⟩
      (render false (some "Größe(1)")
        ⟨.unknownFunction, "unknown function", [⟨⟨0, 7⟩, "not found"⟩], [], []⟩)
      [] ['G', 'r', 'ö', 'ß', 'e', '(', '1', ')'] [] 0 7 :=
    ⟨⟨by decide +kernel, by decide, nofun, nofun⟩, by decide, by decide, by decide,
      "error[E1004]: unknown function\n", "\n", by decide +kernel⟩
  have hmarked :=
    (h _ _ _ _ _ _ _ _ (List.mem_singleton_self _) hcuts hshows 5).1 (by decide +kernel)
  rcases hmarked with hcovered | ⟨hnone, -⟩
  · exact absurd hcovered.2.2 (by decide +kernel)
  · exact hnone 0 ⟨by decide, by decide, by decide +kernel⟩

end Terminal
end EventFormula
