import EventFormula.Json.Printer
import EventFormula.Json.Reader
import Mathlib.Data.List.Forall2
import Mathlib.Data.List.TakeWhile

/-!
# The lexemes of what is written

The text of a value consists of lexemes that are known from the value: its marks, its numbers and
its strings. A string is read character by character as it was written, and a number or a word ends
where a mark follows or nothing does. The main statement, `lexes_render`, says that the reader cuts
the text of a value into the lexemes of the value, whatever follows.
-/

namespace EventFormula.Json

/-- Every string in the value is a text, and every number has the form of one. -/
inductive Sound : Json → Prop where
  | null : Sound null
  | bool (value : Bool) : Sound (bool value)
  | number {text : String} (h : isNumber text.toList = true) : Sound (number text)
  | string (text : String) : Sound (string text)
  | array {items : List Json} (h : ∀ item ∈ items, Sound item) : Sound (array items)
  | object {members : List (String × Json)} (h : ∀ member ∈ members, Sound member.2) :
      Sound (object members)

/-- Parts with commas between them. -/
def separated : List (List Lexeme) → List Lexeme
  | [] => []
  | part :: parts => part ++ parts.flatMap (.comma :: ·)

mutual

/-- The lexemes of a value. -/
def lexed : Json → List Lexeme
  | array items => .openArray :: separated (lexedItems items) ++ [.closeArray]
  | object members => .openObject :: separated (lexedMembers members) ++ [.closeObject]
  | value => [.scalar value]

def lexedItems : List Json → List (List Lexeme)
  | [] => []
  | item :: items => lexed item :: lexedItems items

def lexedMembers : List (String × Json) → List (List Lexeme)
  | [] => []
  | (name, value) :: members =>
    (.scalar (.string name) :: .colon :: lexed value) :: lexedMembers members

end

/-- The lexemes of a member of an object. -/
def lexedMember (member : String × Json) : List Lexeme :=
  .scalar (.string member.1) :: .colon :: lexed member.2

section Strings
variable {rest : List Char}

theorem pieces?_char {c : Char} (hquote : c ≠ '"') (hescape : c ≠ '\\') (h : 0x20 ≤ c.toNat) :
    pieces? (c :: rest) = (pieces? rest).map fun found => (.char c :: found.1, found.2) := by
  rw [pieces?]
  · rw [if_neg (by omega)]
    cases pieces? rest <;> rfl
  · exact hquote
  · intro a b x y tail hc
    exact absurd hc hescape
  · intro x tail hc
    exact absurd hc hescape

theorem pieces?_escaped {e c : Char} (hunit : e ≠ 'u') (h : escaped? e = some c) :
    pieces? ('\\' :: e :: rest)
      = (pieces? rest).map fun found => (.char c :: found.1, found.2) := by
  rw [pieces?]
  · rw [h]
    cases pieces? rest <;> rfl
  · intro a b x y tail he
    exact absurd he hunit

theorem pieces?_unit {a b c d : Char} {n : Nat} (h : hexUnit? a b c d = some n) :
    pieces? ('\\' :: 'u' :: a :: b :: c :: d :: rest)
      = (pieces? rest).map fun found => (.unit n :: found.1, found.2) := by
  rw [pieces?, h]
  cases pieces? rest <;> rfl

/-- What a character becomes in a string: a control character that has no name is a unit. -/
def pieceOf (c : Char) : Piece :=
  if c ≠ '\n' ∧ c.toNat < 0x20 then .unit c.toNat else .char c

/-- The digits of a control character are read as its number. -/
theorem hexDigits_control : ∀ n < 0x20,
    hexDigits n = ['0', '0', Nat.digitChar (n / 16), Nat.digitChar (n % 16)] ∧
      hexUnit? '0' '0' (Nat.digitChar (n / 16)) (Nat.digitChar (n % 16)) = some n := by
  decide +kernel

theorem pieces?_stringChar (c : Char) : pieces? (stringChar c ++ rest)
    = (pieces? rest).map fun found => (pieceOf c :: found.1, found.2) := by
  by_cases hquote : c = '"'
  · subst hquote
    exact pieces?_escaped (by decide) rfl
  by_cases hescape : c = '\\'
  · subst hescape
    exact pieces?_escaped (by decide) rfl
  by_cases hline : c = '\n'
  · subst hline
    exact pieces?_escaped (by decide) rfl
  rw [stringChar, if_neg hquote, if_neg hescape, if_neg hline, pieceOf]
  by_cases hcontrol : c.toNat < 0x20
  · rw [if_pos hcontrol, if_pos ⟨hline, hcontrol⟩]
    obtain ⟨hdigits, hunit⟩ := hexDigits_control c.toNat hcontrol
    rw [hdigits]
    exact pieces?_unit hunit
  · rw [if_neg hcontrol, if_neg fun h => hcontrol h.2]
    exact pieces?_char hquote hescape (Nat.le_of_not_lt hcontrol)

theorem pieces?_text (text : List Char) :
    pieces? (text.flatMap stringChar ++ '"' :: rest) = some (text.map pieceOf, rest) := by
  induction text with
  | nil => rw [List.flatMap_nil, List.nil_append, pieces?, List.map_nil]
  | cons c text ih =>
    rw [List.flatMap_cons, List.append_assoc, pieces?_stringChar, ih]
    rfl

/-- A unit below the surrogates is a character of its own, whatever follows. -/
theorem joinPieces?_unit {pieces : List Piece} {value : Nat} (h : value < 0xd800) :
    joinPieces? (.unit value :: pieces) = (joinPieces? pieces).map (Char.ofNat value :: ·) := by
  have halone : ¬ (0xd800 ≤ value ∧ value < 0xe000) := fun hrange => by omega
  cases pieces with
  | nil => exact if_neg halone
  | cons piece pieces =>
    cases piece with
    | char c => exact if_neg halone
    | unit low => rw [joinPieces?, if_neg (by omega), if_neg halone]

theorem joinPieces?_text (text : List Char) : joinPieces? (text.map pieceOf) = some text := by
  induction text with
  | nil => rfl
  | cons c text ih =>
    rw [List.map_cons, pieceOf]
    by_cases h : c ≠ '\n' ∧ c.toNat < 0x20
    · rw [if_pos h, joinPieces?_unit (by omega), ih, Char.ofNat_toNat]
      rfl
    · rw [if_neg h, joinPieces?, ih]
      rfl

end Strings

section Numbers
variable {cs : List Char}

theorem all_of_digitsThen {next : List Char → Bool} (h : digitsThen next cs = true)
    (hnext : ∀ cs, next cs = true → ∀ c ∈ cs, isNumberChar c = true) :
    ∀ c ∈ cs, isNumberChar c = true := by
  obtain ⟨-, hrest⟩ := Bool.and_eq_true_iff.1 h
  intro c hc
  rw [← List.takeWhile_append_dropWhile (p := Char.isDigit) (l := cs), List.mem_append] at hc
  rcases hc with hc | hc
  · simp [isNumberChar, List.mem_takeWhile_imp hc]
  · exact hnext _ hrest c hc

theorem all_of_exponentEnds (h : exponentEnds cs = true) : ∀ c ∈ cs, isNumberChar c = true := by
  have hempty : ∀ cs : List Char, cs.isEmpty = true → ∀ c ∈ cs, isNumberChar c = true := by
    intro cs hcs
    rw [List.isEmpty_iff.1 hcs]
    nofun
  unfold exponentEnds at h
  split at h
  · nofun
  · next e cs =>
    obtain ⟨he, hdigits⟩ := Bool.and_eq_true_iff.1 h
    have hmark : isNumberChar e = true := by
      rcases Bool.or_eq_true_iff.1 he with he | he
      · rw [of_decide_eq_true he]
        rfl
      · rw [of_decide_eq_true he]
        rfl
    rw [List.forall_mem_cons]
    refine ⟨hmark, ?_⟩
    split at hdigits
    · exact List.forall_mem_cons.2 ⟨rfl, all_of_digitsThen hdigits hempty⟩
    · exact List.forall_mem_cons.2 ⟨rfl, all_of_digitsThen hdigits hempty⟩
    · exact all_of_digitsThen hdigits hempty

theorem all_of_fractionEnds (h : fractionEnds cs = true) : ∀ c ∈ cs, isNumberChar c = true := by
  unfold fractionEnds at h
  split at h
  · exact List.forall_mem_cons.2 ⟨rfl, all_of_digitsThen h fun _ => all_of_exponentEnds⟩
  · exact all_of_exponentEnds h

/-- A number is written with no other characters than these. -/
theorem all_of_isNumber (h : isNumber cs = true) : ∀ c ∈ cs, isNumberChar c = true := by
  have hunsigned : ∀ c ∈ (if cs.head? = some '-' then cs.tail else cs), isNumberChar c = true := by
    -- what is left behind a sign starts with its only zero, or with another digit
    unfold isNumber at h
    split at h
    · next heq =>
      rw [heq]
      exact List.forall_mem_cons.2 ⟨rfl, all_of_fractionEnds h⟩
    · exact all_of_digitsThen h fun _ => all_of_fractionEnds
  by_cases hminus : cs.head? = some '-'
  · rw [if_pos hminus] at hunsigned
    obtain ⟨cs, rfl⟩ := List.head?_eq_some_iff.1 hminus
    exact List.forall_mem_cons.2 ⟨rfl, hunsigned⟩
  · rwa [if_neg hminus] at hunsigned

end Numbers

/-- What follows does not go on with a number or a word. -/
def Ends (rest : List Char) : Prop :=
  ∀ c, rest.head? = some c → isNumberChar c = false ∧ c.isAlpha = false

/-- The text has these lexemes, whatever follows it. -/
def Lexes (text : String) (lexemes : List Lexeme) : Prop :=
  ∀ rest, Ends rest →
    lexemes? (text.toList ++ rest) = (lexemes? rest).map (lexemes ++ ·)

theorem plain_of_mark {c : Char} {mark : Lexeme} (h : mark? c = some mark) :
    isBlank c = false ∧ c ≠ '"' ∧ isNumberChar c = false ∧ c.isAlpha = false := by
  have hc : c = '[' ∨ c = ']' ∨ c = '\x7b' ∨ c = '\x7d' ∨ c = ',' ∨ c = ':' := by
    by_contra hnone
    push Not at hnone
    simp [mark?, hnone] at h
  rcases hc with rfl | rfl | rfl | rfl | rfl | rfl <;> decide

theorem ends_mark {c : Char} {mark : Lexeme} (h : mark? c = some mark) (rest : List Char) :
    Ends (c :: rest) := by
  rintro d hd
  obtain rfl := Option.some.inj hd
  exact (plain_of_mark h).2.2

theorem lexemes?_mark {c : Char} {mark : Lexeme} (h : mark? c = some mark) (rest : List Char) :
    lexemes? (c :: rest) = (lexemes? rest).map (mark :: ·) := by
  obtain ⟨hblank, hquote, hnumber, halpha⟩ := plain_of_mark h
  rw [lexemes?]
  simp [hblank, hquote, hnumber, halpha, h]

theorem takeWhile_of_ends {p : Char → Bool} {cs rest : List Char} (hcs : ∀ c ∈ cs, p c = true)
    (hrest : ∀ c, rest.head? = some c → p c = false) :
    (cs ++ rest).takeWhile p = cs := by
  rw [List.takeWhile_append_of_pos hcs]
  cases rest with
  | nil => rw [List.takeWhile_nil, List.append_nil]
  | cons c rest => rw [List.takeWhile_cons_of_neg (by simp [hrest c rfl]), List.append_nil]

theorem lexes_string (text : String) : Lexes (renderString text) [.scalar (.string text)] := by
  intro rest hrest
  rw [renderString, String.toList_ofList, List.append_assoc, List.cons_append,
    List.singleton_append, lexemes?, if_neg (by decide), if_pos rfl]
  split
  · next hnone =>
    rw [pieces?_text] at hnone
    cases hnone
  · next hsome =>
    rw [pieces?_text] at hsome
    cases hsome
    simp only [joinPieces?_text, String.ofList_toList, List.singleton_append]

theorem lexes_word {c : Char} {cs : List Char} {value : Json} (hword : word? (c :: cs) = some value)
    (hc : isBlank c = false ∧ c ≠ '"' ∧ isNumberChar c = false)
    (hcs : ∀ d ∈ c :: cs, d.isAlpha = true) :
    Lexes (String.ofList (c :: cs)) [.scalar value] := by
  intro rest hrest
  obtain ⟨hblank, hquote, hnumber⟩ := hc
  obtain ⟨halpha, htail⟩ := List.forall_mem_cons.1 hcs
  rw [String.toList_ofList, List.cons_append, lexemes?,
    takeWhile_of_ends htail fun d hd => (hrest d hd).2]
  simp [hblank, hquote, hnumber, halpha, hword]

theorem lexes_number {text : String} (h : isNumber text.toList = true) :
    Lexes text [.scalar (.number text)] := by
  intro rest hrest
  have hall := all_of_isNumber h
  obtain ⟨c, cs, hcs⟩ : ∃ c cs, text.toList = c :: cs := by
    refine List.exists_cons_of_ne_nil ?_
    intro hnil
    rw [hnil] at h
    cases h
  rw [hcs] at h hall
  obtain ⟨hc, htail⟩ := List.forall_mem_cons.1 hall
  have hquote : c ≠ '"' := by
    rintro rfl
    cases hc
  have hblank : ¬ isBlank c = true := by
    intro hblank
    simp only [isBlank, Bool.or_eq_true, decide_eq_true_eq] at hblank
    rcases hblank with ((rfl | rfl) | rfl) | rfl <;> cases hc
  rw [hcs, List.cons_append, lexemes?, takeWhile_of_ends htail fun d hd => (hrest d hd).1,
    if_neg hblank, if_neg hquote, if_pos hc, if_pos h, List.drop_left, ← hcs, String.ofList_toList]
  rfl

section Parts
variable {text first second sign before after : String} {lexemes behind : List Lexeme}
  {c d : Char} {mark opening closing : Lexeme}

/-- Two texts with a mark between them. -/
theorem Lexes.joined (hsign : sign.toList = [c]) (hmark : mark? c = some mark)
    (hfirst : Lexes first lexemes) (hsecond : Lexes second behind) :
    Lexes (first ++ sign ++ second) (lexemes ++ mark :: behind) := by
  intro rest hrest
  rw [String.toList_append, String.toList_append, hsign, List.append_assoc, List.append_assoc,
    List.singleton_append, hfirst _ (ends_mark hmark _), lexemes?_mark hmark, hsecond rest hrest]
  simp [Function.comp_def]

/-- A text between two marks. -/
theorem Lexes.enclosed (hbefore : before.toList = [c]) (hopening : mark? c = some opening)
    (h : Lexes text lexemes) (hafter : after.toList = [d]) (hclosing : mark? d = some closing) :
    Lexes (before ++ text ++ after) (opening :: lexemes ++ [closing]) := by
  intro rest hrest
  rw [String.toList_append, String.toList_append, hbefore, hafter, List.append_assoc,
    List.append_assoc, List.singleton_append, List.singleton_append, lexemes?_mark hopening,
    h _ (ends_mark hclosing _), lexemes?_mark hclosing]
  simp [Function.comp_def]

theorem lexes_separated {texts : List String} {parts : List (List Lexeme)}
    (h : List.Forall₂ Lexes texts parts) : Lexes (",".intercalate texts) (separated parts) := by
  induction h with
  | nil =>
    intro rest hrest
    simp [separated]
  | @cons text part texts parts hpart hparts ih =>
    -- a comma comes only before one more part
    cases hparts with
    | nil => simpa [separated] using hpart
    | @cons other next texts parts hnext hparts =>
      rw [String.intercalate_cons_cons]
      exact Lexes.joined rfl rfl hpart ih

end Parts

theorem renderItems_eq (items : List Json) : renderItems items = items.map render := by
  induction items with
  | nil => rfl
  | cons item items ih => rw [renderItems, List.map_cons, ih]

theorem lexedItems_eq (items : List Json) : lexedItems items = items.map lexed := by
  induction items with
  | nil => rfl
  | cons item items ih => rw [lexedItems, List.map_cons, ih]

theorem renderMembers_eq (members : List (String × Json)) : renderMembers members
    = members.map fun member => renderString member.1 ++ ":" ++ render member.2 := by
  induction members with
  | nil => rfl
  | cons member members ih => rw [renderMembers, List.map_cons, ih]

theorem lexedMembers_eq (members : List (String × Json)) :
    lexedMembers members = members.map lexedMember := by
  induction members with
  | nil => rfl
  | cons member members ih => rw [lexedMembers, List.map_cons, ih, lexedMember]

/-- What is written of a value has its lexemes. -/
theorem lexes_render {json : Json} (h : Sound json) : Lexes json.render json.lexed := by
  induction h with
  | null => exact lexes_word rfl (by decide) (by simp)
  | bool value =>
    cases value with
    | false => exact lexes_word rfl (by decide) (by simp)
    | true => exact lexes_word rfl (by decide) (by simp)
  | number h => exact lexes_number h
  | string text => exact lexes_string text
  | @array items h ih =>
    rw [render, lexed]
    refine Lexes.enclosed rfl rfl (lexes_separated ?_) rfl rfl
    rw [renderItems_eq, lexedItems_eq, List.forall₂_map_left_iff, List.forall₂_map_right_iff,
      List.forall₂_same]
    exact ih
  | @object members h ih =>
    rw [render, lexed]
    refine Lexes.enclosed rfl rfl (lexes_separated ?_) rfl rfl
    rw [renderMembers_eq, lexedMembers_eq, List.forall₂_map_left_iff, List.forall₂_map_right_iff,
      List.forall₂_same]
    intro member hmem
    exact Lexes.joined rfl rfl (lexes_string member.1) (ih member hmem)

end EventFormula.Json
