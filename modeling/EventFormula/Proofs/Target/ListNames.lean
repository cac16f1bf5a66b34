import EventFormula.Target.JavaScript
import Mathlib.Data.List.Chain

/-!
# The names of lists

A letter or a digit stands for itself in the name of a list, and any other character for an
underscore and its number. Nothing ends that number, so digits of the object's name that follow it
can make it the number of another character. The main statement, `objectsList_ne`, is that names in
which this does not happen have different lists; where it happens, there is a shorter name with the
same list.
-/

namespace EventFormula.JavaScript

/-- A part of the name, of more than one character, is written as one other character is. -/
def RunsTogether (name : List Char) : Prop :=
  ∃ part, part <:+: name ∧ 2 ≤ part.length ∧ ∃ c, part.flatMap mangleChar = mangleChar c

variable {c d : Char} {name rest : List Char}

theorem mangleChar_plain (h : c.isAlphanum = true) : mangleChar c = [c] := if_pos h

theorem mangleChar_escaped (h : c.isAlphanum = false) :
    mangleChar c = '_' :: Nat.toDigits 10 c.toNat := if_neg (by rw [h]; decide)

theorem isDigit_of_mem_number {n : Nat} (h : d ∈ Nat.toDigits 10 n) : d.isDigit = true :=
  Nat.isDigit_of_mem_toDigits (by decide) (by decide) h

theorem isAlphanum_of_isDigit (h : c.isDigit = true) : c.isAlphanum = true := by
  rw [Char.isAlphanum, h, Bool.or_true]

theorem ne_underscore (h : c.isAlphanum = true) : c ≠ '_' := by
  rintro rfl
  cases h

/-- No two characters have one number. -/
theorem eq_of_number_eq (h : Nat.toDigits 10 c.toNat = Nat.toDigits 10 d.toNat) : c = d := by
  have hnumber : c.toNat = d.toNat := by
    calc c.toNat = Nat.ofDigitChars 10 (Nat.toDigits 10 c.toNat) 0 :=
          Nat.ofDigitChars_ten_toDigits.symm
      _ = Nat.ofDigitChars 10 (Nat.toDigits 10 d.toNat) 0 := by rw [h]
      _ = d.toNat := Nat.ofDigitChars_ten_toDigits
  exact Char.toNat_inj.1 hnumber

/-- Letters and digits stand for themselves. -/
theorem written_plain {plain : List Char} (h : ∀ c ∈ plain, c.isAlphanum = true) :
    plain.flatMap mangleChar = plain := by
  induction plain with
  | nil => rfl
  | cons c plain ih =>
    obtain ⟨hc, hothers⟩ := List.forall_mem_cons.1 h
    rw [List.flatMap_cons, mangleChar_plain hc, ih hothers]
    rfl

/-- Letters and digits at the start of what is written are those at the start of the name. -/
theorem exists_append_of_written {plain : List Char} (hplain : ∀ d ∈ plain, d.isAlphanum = true)
    (h : name.flatMap mangleChar = plain ++ rest) : ∃ after, name = plain ++ after := by
  induction plain generalizing name with
  | nil => exact ⟨name, rfl⟩
  | cons d plain ih =>
    obtain ⟨hd, hothers⟩ := List.forall_mem_cons.1 hplain
    cases name with
    | nil => cases h
    | cons c name =>
      rw [List.flatMap_cons] at h
      cases hc : c.isAlphanum with
      | false =>
        rw [mangleChar_escaped hc] at h
        exact absurd (List.cons.inj h).1.symm (ne_underscore hd)
      | true =>
        rw [mangleChar_plain hc] at h
        obtain ⟨rfl, htail⟩ := List.cons.inj h
        obtain ⟨after, rfl⟩ := ih hothers htail
        exact ⟨after, rfl⟩

theorem RunsTogether.cons (h : RunsTogether name) (c : Char) : RunsTogether (c :: name) := by
  obtain ⟨part, hpart, hwritten⟩ := h
  exact ⟨part, hpart.trans (List.suffix_cons c name).isInfix, hwritten⟩

/-- If what follows a character makes its number that of another character, the two run together. -/
theorem runsTogether_of_number {more : List Char} (hc : c.isAlphanum = false)
    (hd : d.isAlphanum = false) (hmore : more ≠ [])
    (hnumber : Nat.toDigits 10 d.toNat = Nat.toDigits 10 c.toNat ++ more)
    (h : name.flatMap mangleChar = more ++ rest) : RunsTogether (c :: name) := by
  have hplain : ∀ e ∈ more, e.isAlphanum = true := by
    intro e hmem
    have hdigit : e ∈ Nat.toDigits 10 d.toNat := hnumber ▸ List.mem_append_right _ hmem
    exact isAlphanum_of_isDigit (isDigit_of_mem_number hdigit)
  obtain ⟨after, rfl⟩ := exists_append_of_written hplain h
  refine ⟨c :: more, (List.prefix_append (c :: more) after).isInfix, ?_, d, ?_⟩
  · have hpos := List.length_pos_iff.2 hmore
    rw [List.length_cons]
    omega
  · rw [List.flatMap_cons, written_plain hplain, mangleChar_escaped hc, mangleChar_escaped hd,
      hnumber]
    rfl

/-- What is written can be read in one way only, unless a part of the name runs together. -/
theorem eq_of_written {other : List Char} (hname : ¬ RunsTogether name)
    (hother : ¬ RunsTogether other)
    (h : name.flatMap mangleChar = other.flatMap mangleChar) : name = other := by
  have written_ne_nil (c : Char) (cs : List Char) : (c :: cs).flatMap mangleChar ≠ [] := by
    rw [List.flatMap_cons]
    cases hc : c.isAlphanum with
    | true => rw [mangleChar_plain hc]; exact List.cons_ne_nil _ _
    | false => rw [mangleChar_escaped hc]; exact List.cons_ne_nil _ _
  induction name generalizing other with
  | nil =>
    cases other with
    | nil => rfl
    | cons d other => exact absurd h.symm (written_ne_nil d other)
  | cons c name ih =>
    cases other with
    | nil => exact absurd h (written_ne_nil c name)
    | cons d other =>
      have hrest (hwritten : name.flatMap mangleChar = other.flatMap mangleChar) : name = other :=
        ih (fun hruns => hname (hruns.cons c)) (fun hruns => hother (hruns.cons d)) hwritten
      rw [List.flatMap_cons, List.flatMap_cons] at h
      cases hc : c.isAlphanum with
      | true =>
        rw [mangleChar_plain hc] at h
        cases hd : d.isAlphanum with
        | true =>
          rw [mangleChar_plain hd] at h
          obtain ⟨rfl, htail⟩ := List.cons.inj h
          rw [hrest htail]
        | false =>
          rw [mangleChar_escaped hd] at h
          exact absurd (List.cons.inj h).1 (ne_underscore hc)
      | false =>
        rw [mangleChar_escaped hc] at h
        cases hd : d.isAlphanum with
        | true =>
          rw [mangleChar_plain hd] at h
          exact absurd (List.cons.inj h).1.symm (ne_underscore hd)
        | false =>
          rw [mangleChar_escaped hd] at h
          -- of the two numbers one starts with the other; what it has more belongs to the name
          rcases List.append_eq_append_iff.1 (List.cons.inj h).2 with
            ⟨more, hnumber, hwritten⟩ | ⟨more, hnumber, hwritten⟩
          · by_cases hmore : more = []
            · rw [hmore, List.append_nil] at hnumber
              rw [hmore] at hwritten
              rw [eq_of_number_eq hnumber, hrest hwritten]
            · exact absurd (runsTogether_of_number hc hd hmore hnumber hwritten) hname
          · by_cases hmore : more = []
            · rw [hmore, List.append_nil] at hnumber
              rw [hmore] at hwritten
              rw [eq_of_number_eq hnumber, hrest hwritten.symm]
            · exact absurd (runsTogether_of_number hd hc hmore hnumber hwritten) hother

theorem objectsList_eq_iff {a b : String} :
    objectsList a = objectsList b ↔ a.toList.flatMap mangleChar = b.toList.flatMap mangleChar := by
  rw [objectsList, objectsList, String.ofList_inj, List.append_left_inj]

/-- A part can only run together where a digit stands right behind a character that is escaped. -/
theorem not_runsTogether_of_isChain
    (h : name.IsChain fun c d => c.isAlphanum = true ∨ d.isDigit = false) :
    ¬ RunsTogether name := by
  rintro ⟨part, hpart, hlength, e, hwritten⟩
  match part, hlength with
  | c :: d :: part, _ =>
    have hchain := List.IsChain.infix h hpart
    have hpair : c.isAlphanum = true ∨ d.isDigit = false := hchain.rel
    rw [List.flatMap_cons, List.flatMap_cons] at hwritten
    cases he : e.isAlphanum with
    | true =>
      rw [mangleChar_plain he] at hwritten
      cases hc : c.isAlphanum <;> cases hd : d.isAlphanum <;>
        simp [mangleChar, hc, hd] at hwritten
    | false =>
      rw [mangleChar_escaped he] at hwritten
      cases hc : c.isAlphanum with
      | true =>
        rw [mangleChar_plain hc] at hwritten
        exact ne_underscore hc (List.cons.inj hwritten).1
      | false =>
        rw [mangleChar_escaped hc] at hwritten
        have hnumber := (List.cons.inj hwritten).2
        have hdigits : ∀ f ∈ mangleChar d, f.isDigit = true := by
          intro f hmem
          refine isDigit_of_mem_number (n := e.toNat) ?_
          rw [← hnumber]
          exact List.mem_append_right _ (List.mem_append_left _ hmem)
        have hdigit : d.isDigit = true := by
          cases hd : d.isAlphanum with
          | true => exact hdigits d (by rw [mangleChar_plain hd]; exact List.mem_cons_self)
          | false =>
            have hmark := hdigits '_' (by rw [mangleChar_escaped hd]; exact List.mem_cons_self)
            cases hmark
        rw [hc, hdigit] at hpair
        rcases hpair with h | h <;> cases h

/-- Names have different lists, unless a part of one of them is written as one other character is.
-/
theorem objectsList_ne {a b : String} (hne : a ≠ b) (ha : ¬ RunsTogether a.toList)
    (hb : ¬ RunsTogether b.toList) : objectsList a ≠ objectsList b := by
  intro h
  exact hne (String.toList_injective (eq_of_written ha hb (objectsList_eq_iff.1 h)))

/-- A space and an underscore are told apart. -/
theorem objectsList_ne_spaced :
    "My Obj" ≠ "My_Obj" ∧ ¬ RunsTogether "My Obj".toList ∧ ¬ RunsTogether "My_Obj".toList ∧
      objectsList "My Obj" ≠ objectsList "My_Obj" := by
  have hne : "My Obj" ≠ "My_Obj" := by decide
  have hspace : ¬ RunsTogether "My Obj".toList :=
    not_runsTogether_of_isChain (by decide +kernel)
  have hunderscore : ¬ RunsTogether "My_Obj".toList :=
    not_runsTogether_of_isChain (by decide +kernel)
  exact ⟨hne, hspace, hunderscore, objectsList_ne hne hspace hunderscore⟩

/-- The number of the space and the digit behind it make the number of another letter, so two boxes
share their list. -/
theorem objectsList_eq_of_boxes : "Box 1" ≠ "BoxŁ" ∧ objectsList "Box 1" = objectsList "BoxŁ" := by
  decide +kernel

/-- The character as which a part of a name is written can take its place. -/
theorem RunsTogether.exists_shorter {a : String} (h : RunsTogether a.toList) :
    ∃ b : String, b.length < a.length ∧ objectsList b = objectsList a := by
  obtain ⟨part, ⟨before, after, heq⟩, hlength, c, hwritten⟩ := h
  refine ⟨String.ofList (before ++ c :: after), ?_, objectsList_eq_iff.2 ?_⟩
  · rw [← String.length_toList, ← String.length_toList, String.toList_ofList, ← heq]
    simp only [List.length_append, List.length_cons]
    omega
  · rw [String.toList_ofList, ← heq]
    simp only [List.flatMap_append, List.flatMap_cons, hwritten, List.append_assoc]

/-- The condition is needed, too: of the names with one list all but the shortest have a part that
runs together. -/
theorem runsTogether_iff {a : String} :
    RunsTogether a.toList ↔ ∃ b : String, b.length < a.length ∧ objectsList b = objectsList a := by
  constructor
  · exact RunsTogether.exists_shorter
  · rintro ⟨b, hless, hlist⟩
    induction hb : b.length using Nat.strongRecOn generalizing b with
    | ind length ih =>
      by_cases hruns : RunsTogether b.toList
      · obtain ⟨c, hshorter, hsame⟩ := hruns.exists_shorter
        exact ih c.length (hb ▸ hshorter) c (hshorter.trans hless) (hsame.trans hlist) rfl
      · by_contra ha
        have heq := eq_of_written hruns ha (objectsList_eq_iff.1 hlist)
        rw [String.toList_injective heq] at hless
        exact Nat.lt_irrefl _ hless

end EventFormula.JavaScript
