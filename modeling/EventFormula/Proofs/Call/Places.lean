import EventFormula.Call.Arguments
import EventFormula.Proofs.Token.Layout

/-!
# Where the arguments of a call stand

The slots between the parentheses of a call are cut out of them in order, so the arguments that are
not blank stand one behind the other, each where its text stands in the formula. A blank one is
placed nowhere behind the parentheses either.
-/

namespace EventFormula

namespace Expression

/-- The offset after the last byte, whether a span can state it or not. -/
def stop (e : Expression) : Nat := e.base + Text.size e.text.toList

theorem span_of_fits {e : Expression} (h : e.stop ≤ maxOffset) : e.span = ⟨e.base, e.stop⟩ := by
  simp only [stop] at h
  simp only [span, Span.ofRange, Span.shifted, stop, Span.mk.injEq]
  omega

/-- The expressions stand one behind the other between two offsets, and none of them is empty. -/
def Arranged : (start : Nat) → List Expression → (stop : Nat) → Prop
  | start, [], stop => start ≤ stop
  | start, e :: es, stop => start ≤ e.base ∧ e.base < e.stop ∧ Arranged e.stop es stop

variable {start middle stop : Nat} {e : Expression} {first second : List Expression}

theorem Arranged.of_le {earlier later : Nat} (h : Arranged start first stop)
    (hstart : earlier ≤ start) (hstop : stop ≤ later) : Arranged earlier first later := by
  induction first generalizing start earlier with
  | nil => exact Nat.le_trans hstart (Nat.le_trans h hstop)
  | cons e es ih => exact ⟨Nat.le_trans hstart h.1, h.2.1, ih h.2.2 (Nat.le_refl _)⟩

theorem Arranged.append (hfirst : Arranged start first middle)
    (hsecond : Arranged middle second stop) : Arranged start (first ++ second) stop := by
  induction first generalizing start with
  | nil => exact hsecond.of_le hfirst (Nat.le_refl _)
  | cons e es ih => exact ⟨hfirst.1, hfirst.2.1, ih hfirst.2.2⟩

theorem Arranged.sublist (h : Arranged start second stop) (hsub : first.Sublist second) :
    Arranged start first stop := by
  induction hsub generalizing start with
  | slnil => exact h
  | cons e _ ih =>
    have hlater := Nat.le_trans h.1 (Nat.le_of_lt h.2.1)
    exact ih (h.2.2.of_le hlater (Nat.le_refl _))
  | cons_cons e _ ih => exact ⟨h.1, h.2.1, ih h.2.2⟩

theorem Arranged.of_mem (h : Arranged start first stop) (hmem : e ∈ first) :
    start ≤ e.base ∧ e.base < e.stop ∧ e.stop ≤ stop := by
  have hone : Arranged start [e] stop := h.sublist (List.singleton_sublist.2 hmem)
  exact ⟨hone.1, hone.2.1, hone.2.2⟩

/-- What comes behind an expression starts behind it. -/
theorem Arranged.after (h : Arranged start (first ++ e :: second) stop) :
    Arranged e.stop second stop := by
  induction first generalizing start with
  | nil => exact h.2.2
  | cons other es ih => exact ih h.2.2

end Expression

namespace Call

open Token

/-- The slots are laid out one behind the other between two offsets. -/
def Slotted : (start : Nat) → List (List Token) → (stop : Nat) → Prop
  | start, [], stop => start ≤ stop
  | start, slot :: slots, stop =>
    ∃ middle next, Laid start slot middle ∧ middle ≤ next ∧ Slotted next slots stop

theorem Slotted.le {start stop : Nat} {slots : List (List Token)} (h : Slotted start slots stop) :
    start ≤ stop := by
  induction slots generalizing start with
  | nil => exact h
  | cons slot slots ih =>
    obtain ⟨middle, next, hslot, hle, hrest⟩ := h
    exact Nat.le_trans hslot.le (Nat.le_trans hle (ih hrest))

theorem slotted_intoFirst {start stop : Nat} {token : Token} {slots : List (List Token)}
    (hcovers : token.Covers start) (h : Slotted token.span.stop slots stop) :
    Slotted start (intoFirst token slots) stop := by
  cases slots with
  | nil => exact ⟨token.span.stop, stop, ⟨hcovers, rfl⟩, h, Nat.le_refl _⟩
  | cons slot slots =>
    obtain ⟨middle, next, hslot, hle, hrest⟩ := h
    exact ⟨middle, next, ⟨hcovers, hslot⟩, hle, hrest⟩

/-- Whatever parentheses are open, the slots of a run are laid out in it. -/
theorem slotted_slots {start stop : Nat} {tokens : List Token} (depth : Nat)
    (h : Laid start tokens stop) : Slotted start (slots depth tokens) stop := by
  induction tokens generalizing depth start with
  | nil => exact ⟨start, stop, rfl, Nat.le_of_eq h, Nat.le_refl _⟩
  | cons token tokens ih =>
    have hinto (depth : Nat) : Slotted start (intoFirst token (slots depth tokens)) stop :=
      slotted_intoFirst h.1 (ih depth h.2)
    rw [slots]
    split
    · split
      · exact ⟨start, token.span.stop, rfl, Nat.le_of_lt h.1.less, ih 0 h.2⟩
      · exact hinto depth
    · exact hinto (depth + 1)
    · exact hinto (depth - 1)
    · exact hinto depth

/-- Trimming cuts a run out of another. -/
theorem trim_infix (tokens : List Token) : trim tokens <:+: tokens := by
  have hback := (tokens.dropWhile isWhitespace).reverse.dropWhile_suffix isWhitespace
  have hfront : trim tokens <+: tokens.dropWhile isWhitespace := by
    rw [← List.reverse_suffix, trim, List.reverse_reverse]
    exact hback
  exact hfront.isInfix.trans (tokens.dropWhile_suffix isWhitespace).isInfix

/-- What trimming leaves of a run is laid out inside it. -/
theorem laid_trim {start stop : Nat} {slot : List Token} (h : Laid start slot stop) :
    ∃ first last, start ≤ first ∧ Laid first (trim slot) last ∧ last ≤ stop := by
  obtain ⟨before, after, heq⟩ := trim_infix slot
  rw [← heq] at h
  obtain ⟨last, hfront, hafter⟩ := laid_append.1 h
  obtain ⟨first, hbefore, htrim⟩ := laid_append.1 hfront
  exact ⟨first, last, hbefore.le, htrim, hafter.le⟩

theorem getLastD_stop {start stop : Nat} {first : Token} {rest : List Token}
    (h : Laid start (first :: rest) stop) :
    ((first :: rest).getLastD first).span.stop = stop := by
  induction rest generalizing start first with
  | nil => exact h.2
  | cons second rest ih => exact ih h.2

/-- A run placed as an expression stands where its tokens do. -/
theorem place_of_laid {base start stop : Nat} {first : Token} {rest : List Token}
    (h : Laid start (first :: rest) stop) (hfits : base + stop ≤ maxOffset) :
    (Expression.place (concat (first :: rest)) (base + first.span.start)).base = base + start ∧
      (Expression.place (concat (first :: rest)) (base + first.span.start)).stop = base + stop ∧
      (Expression.place (concat (first :: rest)) (base + first.span.start)).isEmpty = false := by
  have hsize := h.size
  have hstart := h.1.start_eq
  have hless := Nat.lt_of_lt_of_le h.1.less h.2.le
  have hbase : (Expression.place (concat (first :: rest)) (base + first.span.start)).base
      = base + start := by
    rw [Expression.place, hstart]
    exact Nat.min_eq_left (by omega)
  refine ⟨hbase, ?_, ?_⟩
  · rw [Expression.stop, hbase, Expression.place, toList_concat, hsize, Nat.add_assoc]
  · refine beq_eq_false_iff_ne.2 fun hempty => ?_
    have hchars : chars (first :: rest) = [] := by
      rw [← toList_concat]
      exact congrArg String.toList hempty
    rw [hchars] at hsize
    simp only [Text.size] at hsize
    omega

/-- The expressions in the slots: those with a text are arranged, and none starts behind the slots.
-/
theorem arranged_place {base start stop last : Nat} {slots : List (List Token)}
    (h : Slotted start slots stop) (hlast : last ≤ start) (hfits : base + stop ≤ maxOffset) :
    Expression.Arranged (base + start) ((place base last slots).filter fun e => !e.isEmpty)
        (base + stop) ∧
      ∀ e ∈ place base last slots, e.base ≤ base + stop := by
  induction slots generalizing start last with
  | nil => exact ⟨Nat.add_le_add_left h base, fun e hmem => absurd hmem List.not_mem_nil⟩
  | cons slot slots ih =>
    obtain ⟨middle, next, hslot, hle, hrest⟩ := h
    have hmiddle := hslot.le
    have hstop := hrest.le
    rw [place]
    split
    · -- a blank slot stands where its first token does, or where the argument before it ends
      have hplace : (slot.head?.elim last fun token => token.span.start) ≤ stop := by
        cases slot with
        | nil =>
          show last ≤ stop
          omega
        | cons token tokens =>
          have htoken := hslot.of_mem List.mem_cons_self
          show token.span.start ≤ stop
          omega
      have hnext : last ≤ next := by omega
      obtain ⟨harranged, hstarts⟩ := ih hrest hnext
      refine ⟨harranged.of_le (by omega) (Nat.le_refl _), ?_⟩
      intro e hmem
      rcases List.mem_cons.1 hmem with rfl | hmem
      · simp only [Expression.place]
        omega
      · exact hstarts e hmem
    · rename_i first rest htrim
      obtain ⟨start', stop', hstart', hlaid, hstop'⟩ := laid_trim hslot
      rw [htrim] at hlaid
      have hless := Nat.lt_of_lt_of_le hlaid.1.less hlaid.2.le
      obtain ⟨hbase, hend, hsome⟩ := place_of_laid hlaid (by omega : base + stop' ≤ maxOffset)
      have hnext : ((first :: rest).getLastD first).span.stop ≤ next := by
        rw [getLastD_stop hlaid]
        omega
      obtain ⟨harranged, hstarts⟩ := ih hrest hnext
      constructor
      · rw [List.filter_cons_of_pos (by rw [hsome]; rfl)]
        exact ⟨by omega, by omega, harranged.of_le (by omega) (Nat.le_refl _)⟩
      · intro e hmem
        rcases List.mem_cons.1 hmem with rfl | hmem
        · omega
        · exact hstarts e hmem

/-- So do the arguments written between the parentheses of a call. -/
theorem arranged_split {base start stop : Nat} {inner : List Token} (h : Laid start inner stop)
    (hfits : base + stop ≤ maxOffset) :
    Expression.Arranged (base + start) ((split base start inner).filter fun e => !e.isEmpty)
        (base + stop) ∧
      ∀ e ∈ split base start inner, e.base ≤ base + stop := by
  rw [split]
  split
  · exact ⟨Nat.add_le_add_left h.le base, fun e hmem => absurd hmem List.not_mem_nil⟩
  · exact arranged_place (slotted_slots 0 h) (Nat.le_refl start) hfits

end Call
end EventFormula
