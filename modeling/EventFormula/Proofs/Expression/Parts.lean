import EventFormula.Proofs.Call.Places
import EventFormula.Trace.Arguments

/-!
# Parts of an expression

A text can be cut between two of its characters and nowhere else. A span marks an expression if it
stands in it and the text can be cut at both ends. What marks a part of an expression marks the
expression too. The arguments between the parentheses of a call that are not blank are parts of the
formula around it, and a blank one stands where the text can be cut.
-/

namespace EventFormula

namespace Text

/-- The characters can be cut in two at byte `n`. -/
def IsCut (cs : List Char) (n : Nat) : Prop :=
  ∃ before after, cs = before ++ after ∧ size before = n

theorem isCut_iff {cs : List Char} {n : Nat} : IsCut cs n ↔ (splitAt? n cs).isSome = true := by
  constructor
  · rintro ⟨before, after, rfl, rfl⟩
    rw [splitAt?_append]
    rfl
  · intro h
    obtain ⟨⟨before, after⟩, hsplit⟩ := Option.isSome_iff_exists.1 h
    exact ⟨before, after, splitAt?_eq_some hsplit⟩

instance (cs : List Char) (n : Nat) : Decidable (IsCut cs n) := decidable_of_iff _ isCut_iff.symm

theorem isCut_zero (cs : List Char) : IsCut cs 0 := ⟨[], cs, rfl, rfl⟩

theorem isCut_size (cs : List Char) : IsCut cs (size cs) :=
  ⟨cs, [], (List.append_nil cs).symm, rfl⟩

theorem IsCut.le_size {cs : List Char} {n : Nat} (h : IsCut cs n) : n ≤ size cs := by
  obtain ⟨before, after, rfl, rfl⟩ := h
  rw [size_append]
  exact Nat.le_add_right ..

/-- Where a part of a text can be cut, so can the text. -/
theorem IsCut.around {cs : List Char} {n : Nat} (h : IsCut cs n) (front back : List Char) :
    IsCut (front ++ cs ++ back) (size front + n) := by
  obtain ⟨before, after, rfl, rfl⟩ := h
  exact ⟨front ++ before, after ++ back, by simp only [List.append_assoc], size_append ..⟩

end Text

namespace Span

/-- The span takes whole characters of a text, perhaps none. -/
structure Cuts (span : Span) (cs : List Char) : Prop where
  start : Text.IsCut cs span.start
  stop : Text.IsCut cs span.stop
  le : span.start ≤ span.stop

variable {first second : Span} {cs : List Char}

theorem cuts_point {offset : Nat} (h : Text.IsCut cs offset) : (point offset).Cuts cs :=
  ⟨h, h, Nat.le_refl offset⟩

theorem Cuts.merge (hfirst : first.Cuts cs) (hsecond : second.Cuts cs) :
    (first.merge second).Cuts cs where
  start := by
    rcases Nat.le_total first.start second.start with hle | hle
    · simpa only [Span.merge, Nat.min_eq_left hle] using hfirst.start
    · simpa only [Span.merge, Nat.min_eq_right hle] using hsecond.start
  stop := by
    rcases Nat.le_total first.stop second.stop with hle | hle
    · simpa only [Span.merge, Nat.max_eq_right hle] using hsecond.stop
    · simpa only [Span.merge, Nat.max_eq_left hle] using hfirst.stop
  le := Nat.le_trans (Nat.min_le_left ..) (Nat.le_trans hfirst.le (Nat.le_max_left ..))

theorem Cuts.around (h : first.Cuts cs) (front back : List Char) :
    Cuts ⟨Text.size front + first.start, Text.size front + first.stop⟩ (front ++ cs ++ back) :=
  ⟨h.start.around front back, h.stop.around front back, Nat.add_le_add_left h.le _⟩

end Span

namespace Token

/-- Every token takes whole characters of the text that the tokens cover. -/
theorem Laid.cuts {tokens : List Token} {stop : Nat} {token : Token} (h : Laid 0 tokens stop)
    (hmem : token ∈ tokens) : token.span.Cuts (chars tokens) := by
  obtain ⟨first, second, rfl⟩ := List.append_of_mem hmem
  obtain ⟨middle, hfirst, hcovers, -⟩ := laid_append.1 h
  have hmiddle : Text.size (chars first) = middle := by
    rw [hfirst.size, Nat.zero_add]
  have hstart : Text.size (chars first) = token.span.start := hmiddle.trans hcovers.start_eq.symm
  have hstop : Text.size (chars first ++ token.text.toList) = token.span.stop := by
    rw [Text.size_append, hmiddle, hcovers.stop_eq]
  refine ⟨⟨chars first, token.text.toList ++ chars second, ?_, hstart⟩,
    ⟨chars first ++ token.text.toList, chars second, ?_, hstop⟩, ?_⟩
  · rw [chars_append, chars_cons]
  · rw [chars_append, chars_cons, List.append_assoc]
  · have hless := hcovers.less
    have hcovered := hcovers.start_eq
    omega

end Token

namespace Expression

/-- The text of a part stands in that of the expression, where its base says. -/
def PartOf (part e : Expression) : Prop :=
  ∃ front back, e.text.toList = front ++ part.text.toList ++ back ∧
    part.base = e.base + Text.size front

/-- The span takes whole characters of the expression, perhaps none. -/
def Marked (e : Expression) (span : Span) : Prop :=
  ∃ place : Span, place.Cuts e.text.toList ∧ span = place.shifted e.base

variable {e part : Expression} {span : Span}

theorem PartOf.stop_le (h : part.PartOf e) : part.stop ≤ e.stop := by
  obtain ⟨front, back, htext, hbase⟩ := h
  simp only [stop, htext, hbase, Text.size_append]
  omega

theorem PartOf.marked (h : part.PartOf e) (hspan : part.Marked span) : e.Marked span := by
  obtain ⟨front, back, htext, hbase⟩ := h
  obtain ⟨place, hcuts, rfl⟩ := hspan
  refine ⟨_, htext ▸ hcuts.around front back, ?_⟩
  simp only [Span.shifted, hbase, Span.mk.injEq]
  omega

theorem marked_span (hfits : e.stop ≤ maxOffset) : e.Marked e.span := by
  refine ⟨⟨0, Text.size e.text.toList⟩,
    ⟨Text.isCut_zero _, Text.isCut_size _, Nat.zero_le _⟩, ?_⟩
  rw [span_of_fits hfits]
  simp only [stop] at hfits ⊢
  simp only [Span.shifted, Span.mk.injEq]
  omega

/-- As long as offsets can be stated, such a span stands between the ends of the expression. -/
theorem Marked.bounds (h : e.Marked span) (hfits : e.stop ≤ maxOffset) :
    e.base ≤ span.start ∧ span.start ≤ span.stop ∧ span.stop ≤ e.stop ∧
      Text.IsCut e.text.toList (span.start - e.base) ∧
      Text.IsCut e.text.toList (span.stop - e.base) := by
  obtain ⟨place, hcuts, rfl⟩ := h
  have hle := hcuts.le
  have hsize := hcuts.stop.le_size
  simp only [stop] at hfits ⊢
  have hstart : (place.shifted e.base).start = place.start + e.base :=
    Nat.min_eq_left (by omega)
  have hstop : (place.shifted e.base).stop = place.stop + e.base :=
    Nat.min_eq_left (by omega)
  rw [hstart, hstop, Nat.add_sub_cancel, Nat.add_sub_cancel]
  exact ⟨by omega, by omega, by omega, hcuts.start, hcuts.stop⟩

/-- An expression without text is the point at its base. -/
theorem span_of_isEmpty (h : e.isEmpty = true) : e.span = .point e.base := by
  have hbase := e.base_le
  have hsize : Text.size e.text.toList = 0 := by
    rw [beq_iff_eq.1 h]
    rfl
  simp only [span, hsize, Span.ofRange, Span.shifted, Span.point, Span.mk.injEq]
  omega

end Expression

namespace Call

open Token

variable {token : Token} {tokens slot : List Token} {e : Expression}

/-- The first run is where the tokens start, and the others are cut out of them. -/
def CutFrom (tokens : List Token) : List (List Token) → Prop
  | [] => True
  | first :: rest => first <+: tokens ∧ ∀ slot ∈ rest, slot <:+: tokens

theorem cutFrom_intoFirst {slots : List (List Token)} (h : CutFrom tokens slots) :
    CutFrom (token :: tokens) (intoFirst token slots) := by
  cases slots with
  | nil =>
    exact ⟨List.cons_prefix_cons.2 ⟨rfl, List.nil_prefix⟩,
      fun slot hmem => absurd hmem List.not_mem_nil⟩
  | cons first rest =>
    obtain ⟨hfirst, hrest⟩ := h
    exact ⟨List.cons_prefix_cons.2 ⟨rfl, hfirst⟩,
      fun slot hmem => (hrest slot hmem).trans (List.suffix_cons ..).isInfix⟩

theorem CutFrom.of_mem {slots : List (List Token)} (h : CutFrom tokens slots)
    (hmem : slot ∈ slots) : slot <:+: tokens := by
  cases slots with
  | nil => cases hmem
  | cons first rest =>
    rcases List.mem_cons.1 hmem with rfl | hmem
    · exact h.1.isInfix
    · exact h.2 slot hmem

theorem cutFrom_slots (depth : Nat) (tokens : List Token) :
    CutFrom tokens (slots depth tokens) := by
  induction tokens generalizing depth with
  | nil => exact ⟨List.nil_prefix, fun slot hmem => absurd hmem List.not_mem_nil⟩
  | cons token tokens ih =>
    have hinto (depth : Nat) : CutFrom (token :: tokens) (intoFirst token (slots depth tokens)) :=
      cutFrom_intoFirst (ih depth)
    rw [slots]
    split
    · split
      · refine ⟨List.nil_prefix, fun slot hmem => ?_⟩
        exact ((ih 0).of_mem hmem).trans (List.suffix_cons ..).isInfix
      · exact hinto depth
    · exact hinto (depth + 1)
    · exact hinto (depth - 1)
    · exact hinto depth

/-- An argument that is not blank is a run cut out of the tokens, placed as an expression. -/
theorem infix_of_mem_place {base last : Nat} {slots : List (List Token)}
    (hslots : ∀ slot ∈ slots, slot <:+: tokens) (h : e ∈ place base last slots)
    (hempty : e.isEmpty = false) :
    ∃ first rest, first :: rest <:+: tokens ∧
      e = .place (concat (first :: rest)) (base + first.span.start) := by
  induction slots generalizing last with
  | nil => cases h
  | cons slot slots ih =>
    obtain ⟨hslot, hothers⟩ := List.forall_mem_cons.1 hslots
    rw [place] at h
    split at h
    · rcases List.mem_cons.1 h with rfl | h
      · cases hempty
      · exact ih hothers h
    · rename_i first rest htrim
      rcases List.mem_cons.1 h with rfl | h
      · have hpart := trim_infix slot
        exact ⟨first, rest, htrim ▸ hpart.trans hslot, rfl⟩
      · exact ih hothers h

/-- It is part of any expression that has all these tokens in its text. -/
theorem partOf_of_mem_split {whole : Expression} {start : Nat} {inner : List Token}
    (hinner : inner <:+: lexemes whole.text) (hfits : whole.stop ≤ maxOffset)
    (h : e ∈ split whole.base start inner) (hempty : e.isEmpty = false) : e.PartOf whole := by
  rw [split] at h
  split at h
  · cases h
  · have hslots : ∀ slot ∈ slots 0 inner, slot <:+: inner :=
      fun slot hmem => (cutFrom_slots 0 inner).of_mem hmem
    obtain ⟨first, rest, hrun, rfl⟩ := infix_of_mem_place hslots h hempty
    obtain ⟨before, after, heq⟩ := hrun.trans hinner
    have htext : whole.text.toList = chars before ++ chars (first :: rest) ++ chars after := by
      rw [← chars_append, ← chars_append, heq, lexemes, chars_lexemesFrom]
    have hlaid := laid_lexemes (Nat.le_trans (Nat.le_add_left _ whole.base) hfits)
    rw [← heq, List.append_assoc] at hlaid
    obtain ⟨middle, hbefore, hcovers, -⟩ := laid_append.1 hlaid
    have hstart : first.span.start = Text.size (chars before) := by
      rw [hcovers.start_eq, hbefore.size, Nat.zero_add]
    refine ⟨chars before, chars after, ?_, ?_⟩
    · rw [Expression.place, toList_concat, htext]
    · rw [Expression.place, hstart]
      simp only [Expression.stop, htext, Text.size_append] at hfits
      exact Nat.min_eq_left (by omega)

/-- Every argument stands where the text can be cut, blank or not. -/
theorem base_of_mem_place {base last : Nat} {slots : List (List Token)} {cs : List Char}
    (hslots : ∀ slot ∈ slots, ∀ token ∈ slot, token.span.Cuts cs) (hlast : Text.IsCut cs last)
    (h : e ∈ place base last slots) :
    ∃ offset, Text.IsCut cs offset ∧ e.base = min (base + offset) maxOffset := by
  induction slots generalizing last with
  | nil => cases h
  | cons slot slots ih =>
    obtain ⟨hslot, hothers⟩ := List.forall_mem_cons.1 hslots
    rw [place] at h
    split at h
    · rcases List.mem_cons.1 h with rfl | h
      · cases slot with
        | nil => exact ⟨last, hlast, rfl⟩
        | cons token tokens => exact ⟨token.span.start, (hslot token List.mem_cons_self).start, rfl⟩
      · exact ih hothers hlast h
    · rename_i first rest htrim
      have htrimmed : ∀ token ∈ first :: rest, token.span.Cuts cs := fun token hmem =>
        hslot token ((trim_sublist slot).subset (htrim ▸ hmem))
      rcases List.mem_cons.1 h with rfl | h
      · exact ⟨first.span.start, (htrimmed first List.mem_cons_self).start, rfl⟩
      · refine ih hothers (htrimmed _ ?_).stop h
        rw [List.getLastD_cons]
        exact List.getLastD_mem_cons

/-- So a blank argument marks the text from which it is split off. -/
theorem marked_of_mem_split {whole : Expression} {start : Nat} {inner : List Token}
    (hinner : ∀ token ∈ inner, token.span.Cuts whole.text.toList)
    (hstart : Text.IsCut whole.text.toList start) (h : e ∈ split whole.base start inner)
    (hempty : e.isEmpty = true) : whole.Marked e.span := by
  rw [split] at h
  split at h
  · cases h
  · have hslots : ∀ slot ∈ slots 0 inner, ∀ token ∈ slot, token.span.Cuts whole.text.toList :=
      fun slot hslot token hmem => hinner token ((sublist_of_mem_slots hslot).subset hmem)
    obtain ⟨offset, hcut, hbase⟩ := base_of_mem_place hslots hstart h
    refine ⟨.point offset, Span.cuts_point hcut, ?_⟩
    rw [Expression.span_of_isEmpty hempty, hbase, Nat.add_comm]
    rfl

end Call
end EventFormula
