import EventFormula.Proofs.Call.Places
import EventFormula.Proofs.Token.Runs
import Mathlib.Data.List.Forall2

/-!
# The segments between the commas of a call

Between the parentheses of a call a comma separates two arguments unless parentheses hold it; one in
a string literal is part of that token. `Separated` says so of a run of tokens in which parentheses
match, without counting how many are open. The main statement, `split_separated`, is that there is
one argument for each segment, which takes the tokens of the segment but for the whitespace around
them, where they stand in the source.
-/

namespace EventFormula.Call

open Token (lexemes concat chars placed)

/-- Runs of tokens in which parentheses match. Outside of them there is nothing of the kinds
`apart`. -/
inductive Matched : (apart : List Token.Kind) → List Token → Prop where
  | nil {apart : List Token.Kind} : Matched apart []
  | token {apart : List Token.Kind} {token : Token} {tokens : List Token}
      (hkind : token.kind ∉ .leftParen :: .rightParen :: apart) (htokens : Matched apart tokens) :
      Matched apart (token :: tokens)
  | group {apart : List Token.Kind} {opening closing : Token} {inner tokens : List Token}
      (hopening : opening.kind = .leftParen) (hinner : Matched [] inner)
      (hclosing : closing.kind = .rightParen) (htokens : Matched apart tokens) :
      Matched apart (opening :: inner ++ closing :: tokens)

/-- Tokens between two commas, or between a comma and a parenthesis of the call, and the offsets
where the one ends and the other starts. -/
structure Slot where
  start : Nat
  tokens : List Token
  stop : Nat

/-- The commas that no parenthesis holds cut the tokens between two offsets into these slots. -/
inductive Separated : (start : Nat) → List Token → (stop : Nat) → List Slot → Prop where
  | last {start stop : Nat} {tokens : List Token} (htokens : Matched [.comma] tokens) :
      Separated start tokens stop [⟨start, tokens, stop⟩]
  | comma {start stop : Nat} {tokens rest : List Token} {comma : Token} {slots : List Slot}
      (htokens : Matched [.comma] tokens) (hcomma : comma.kind = .comma)
      (hrest : Separated comma.span.stop rest stop slots) :
      Separated start (tokens ++ comma :: rest) stop (⟨start, tokens, comma.span.start⟩ :: slots)

/-- What is left of tokens when the whitespace at either end is taken away. -/
structure Trimmed (tokens core : List Token) : Prop where
  around : ∃ front back, tokens = front ++ core ++ back ∧
    (∀ token ∈ front, token.isWhitespace = true) ∧ ∀ token ∈ back, token.isWhitespace = true
  first : ∀ token ∈ core.head?, token.isWhitespace = false
  last : ∀ token ∈ core.getLast?, token.isWhitespace = false

/-- The argument has the text of these tokens of a source, cut out of it, and stands where they do.
On its own it is cut into tokens among which parentheses match and nothing separates. Offsets are
those of the source as long as they can be stated. -/
structure ArgumentOf (source : String) (base : Nat) (core : List Token) (argument : Expression) :
    Prop where
  text : argument.text = concat core
  base : ∀ first ∈ core.head?, base + first.span.start ≤ maxOffset →
    argument.base = base + first.span.start
  slice : ∀ first ∈ core.head?, ∀ last ∈ core.getLast?, Text.size source.toList ≤ maxOffset →
    Text.slice source first.span.start last.span.stop = argument.text
  tokens : Matched [.comma] core
  lexemes : Matched [.comma] (lexemes argument.text)

section Matching
variable {apart : List Token.Kind} {first second tokens : List Token} {token : Token}

theorem Matched.append (hfirst : Matched apart first) (hsecond : Matched apart second) :
    Matched apart (first ++ second) := by
  induction hfirst with
  | nil => exact hsecond
  | token hkind _ ih => exact .token hkind (ih hsecond)
  | group hopening hinner hclosing _ _ ih =>
    rw [List.append_assoc, List.cons_append, List.cons_append]
    exact .group hopening hinner hclosing (ih hsecond)

/-- Whitespace in front is of no account. -/
theorem Matched.dropBlanks (h : Matched apart tokens) :
    Matched apart (tokens.dropWhile Token.isWhitespace) := by
  induction h with
  | nil => exact .nil
  | @token _ token tokens hkind htokens ih =>
    by_cases hblank : token.isWhitespace = true
    · rw [List.dropWhile_cons_of_pos hblank]
      exact ih
    · rw [List.dropWhile_cons_of_neg hblank]
      exact .token hkind htokens
  | @group _ opening _ _ _ hopening hinner hclosing htokens =>
    have hsolid : ¬ opening.isWhitespace = true := by
      simp [Token.isWhitespace, hopening]
    rw [List.cons_append, List.dropWhile_cons_of_neg hsolid]
    exact .group hopening hinner hclosing htokens

/-- A blank at the end closes nothing. -/
theorem Matched.of_append_blank (hblank : token.isWhitespace = true)
    (h : Matched apart (tokens ++ [token])) : Matched apart tokens := by
  generalize hall : tokens ++ [token] = all at h
  induction h generalizing tokens with
  | nil => simp at hall
  | token hkind _ ih =>
    cases tokens with
    | nil => exact .nil
    | cons first tokens =>
      obtain ⟨rfl, hrest⟩ := List.cons.inj hall
      exact .token hkind (ih hrest)
  | @group _ opening closing inner rest hopening hinner hclosing _ _ ih =>
    rcases List.eq_nil_or_concat rest with rfl | ⟨rest, last, rfl⟩
    · obtain ⟨-, hlast⟩ := List.append_inj' hall rfl
      cases hlast
      simp [Token.isWhitespace, hclosing] at hblank
    · rw [List.concat_eq_append, ← List.cons_append, ← List.append_assoc] at hall
      obtain ⟨rfl, hlast⟩ := List.append_inj' hall rfl
      cases hlast
      exact .group hopening hinner hclosing (ih (List.concat_eq_append ..).symm)

theorem Matched.trim (h : Matched apart tokens) : Matched apart (trim tokens) := by
  have hfront := h.dropBlanks
  rw [Call.trim]
  generalize tokens.dropWhile Token.isWhitespace = tokens at hfront
  induction tokens using List.reverseRecOn with
  | nil => exact .nil
  | append_singleton tokens token ih =>
    rw [List.reverse_append, List.reverse_singleton, List.singleton_append]
    by_cases hblank : token.isWhitespace = true
    · rw [List.dropWhile_cons_of_pos hblank]
      exact ih (.of_append_blank hblank hfront)
    · rw [List.dropWhile_cons_of_neg hblank, List.reverse_cons, List.reverse_reverse]
      exact hfront

theorem placed_append (start : Nat) (first second : List Token) :
    placed start (first ++ second)
      = placed start first ++ placed (start + Text.size (chars first)) second := by
  induction first generalizing start with
  | nil => rfl
  | cons token first ih =>
    rw [List.cons_append, placed, placed, ih, Token.chars_cons, Text.size_append, Nat.add_assoc]
    rfl

/-- It does not matter where the tokens stand. -/
theorem Matched.placed (h : Matched apart tokens) (start : Nat) :
    Matched apart (placed start tokens) := by
  induction h generalizing start with
  | nil => exact .nil
  | token hkind _ ih => exact .token hkind (ih _)
  | group hopening _ hclosing _ ihinner ih =>
    rw [List.cons_append, Token.placed, placed_append, Token.placed]
    exact .group hopening (ihinner _) hclosing (ih _)

end Matching

theorem trimmed_trim (tokens : List Token) : Trimmed tokens (trim tokens) := by
  have hall (tokens : List Token) :
      ∀ token ∈ tokens.takeWhile Token.isWhitespace, token.isWhitespace = true :=
    List.all_eq_true.1 List.all_takeWhile
  have hhead (tokens : List Token) :
      ∀ token ∈ (tokens.dropWhile Token.isWhitespace).head?, token.isWhitespace = false := by
    intro token htoken
    have hnot := List.head?_dropWhile_not Token.isWhitespace tokens
    rw [Option.mem_def.1 htoken] at hnot
    exact hnot
  obtain ⟨front, hfront⟩ : ∃ front, front = tokens.takeWhile Token.isWhitespace := ⟨_, rfl⟩
  obtain ⟨behind, hbehind⟩ : ∃ behind, behind = tokens.dropWhile Token.isWhitespace := ⟨_, rfl⟩
  have hsplit : tokens = front ++ behind := by
    rw [hfront, hbehind, List.takeWhile_append_dropWhile]
  have htrim : behind = trim tokens ++ (behind.reverse.takeWhile Token.isWhitespace).reverse := by
    rw [trim, ← hbehind, ← List.reverse_append, List.takeWhile_append_dropWhile,
      List.reverse_reverse]
  constructor
  · refine ⟨front, (behind.reverse.takeWhile Token.isWhitespace).reverse, ?_, ?_, ?_⟩
    · rw [List.append_assoc, ← htrim, hsplit]
    · rw [hfront]
      exact hall tokens
    · intro token hmem
      exact hall behind.reverse token (List.mem_reverse.1 hmem)
  · intro token htoken
    refine hhead tokens token ?_
    rw [← hbehind, htrim]
    exact List.mem_head?_append_of_mem_head? htoken
  · intro token htoken
    refine hhead behind.reverse token ?_
    rw [trim, List.getLast?_reverse, ← hbehind] at htoken
    exact htoken

section Slots
variable {apart : List Token.Kind} {token : Token} {tokens : List Token} {depth : Nat}

/-- A token that neither opens nor closes anything stays in its slot, unless it is a comma that no
parenthesis holds. -/
theorem slots_cons (hkind : token.kind ∉ [.leftParen, .rightParen])
    (hstays : token.kind = .comma → depth ≠ 0) (tokens : List Token) :
    slots depth (token :: tokens) = intoFirst token (slots depth tokens) := by
  rw [slots]
  split
  · rename_i hcomma
    rw [if_neg (hstays hcomma)]
  · rename_i hopening
    simp [hopening] at hkind
  · rename_i hclosing
    simp [hclosing] at hkind
  · rfl

/-- Tokens in which parentheses match stay in one slot if something holds them, or if there is no
comma outside of their parentheses. -/
theorem slots_append (h : Matched apart tokens) (hstays : depth ≠ 0 ∨ .comma ∈ apart)
    (rest : List Token) :
    slots depth (tokens ++ rest) = tokens.foldr intoFirst (slots depth rest) := by
  induction h generalizing depth rest with
  | nil => rfl
  | @token apart token tokens hkind _ ih =>
    have hplain : token.kind ∉ [.leftParen, .rightParen] := by
      intro hmem
      exact hkind (List.mem_append_left apart hmem)
    have hcomma : token.kind = .comma → depth ≠ 0 := by
      rintro hcomma
      rcases hstays with hdepth | hapart
      · exact hdepth
      · exact absurd (List.mem_append_right [.leftParen, .rightParen] (hcomma ▸ hapart)) hkind
    rw [List.cons_append, slots_cons hplain hcomma, ih hstays, List.foldr_cons]
  | @group apart opening closing inner tokens hopening _ hclosing _ ihinner ih =>
    have hopens (rest : List Token) :
        slots depth (opening :: rest) = intoFirst opening (slots (depth + 1) rest) := by
      rw [slots, hopening]
    have hcloses (rest : List Token) :
        slots (depth + 1) (closing :: rest) = intoFirst closing (slots depth rest) := by
      rw [slots, hclosing]
      rfl
    rw [List.append_assoc, List.cons_append, List.cons_append, hopens,
      ihinner (Or.inl (Nat.succ_ne_zero depth)), hcloses, ih hstays, List.foldr_append]
    rfl

theorem foldr_intoFirst (tokens slot : List Token) (slots : List (List Token)) :
    tokens.foldr intoFirst (slot :: slots) = (tokens ++ slot) :: slots := by
  induction tokens with
  | nil => rfl
  | cons token tokens ih =>
    rw [List.foldr_cons, ih]
    rfl

end Slots

section Separating
variable {start stop : Nat} {front inner tokens : List Token} {found other : List Slot}

/-- Counting open parentheses comes to the same slots. -/
theorem Separated.slots_eq (h : Separated start inner stop found) :
    slots 0 inner = found.map Slot.tokens := by
  have hcomma : Token.Kind.comma ∈ [Token.Kind.comma] := List.mem_singleton_self _
  induction h with
  | @last start stop tokens htokens =>
    have hslots : slots 0 (tokens ++ []) = tokens.foldr intoFirst (slots 0 []) :=
      slots_append htokens (Or.inr hcomma) []
    rw [List.append_nil, slots, foldr_intoFirst, List.append_nil] at hslots
    exact hslots
  | @comma start stop tokens rest comma found htokens hkind _ ih =>
    have hcut : slots 0 (comma :: rest) = [] :: slots 0 rest := by
      rw [slots, hkind]
      rfl
    rw [slots_append htokens (Or.inr hcomma), hcut, foldr_intoFirst, List.append_nil, ih]
    rfl

/-- Unless nothing is written, there is an argument for each slot. -/
theorem Separated.split_eq (h : Separated start inner stop found)
    (hsolid : ¬ inner.all Token.isWhitespace = true) (base : Nat) :
    split base start inner = place base start (found.map Slot.tokens) := by
  rw [split, if_neg hsolid, h.slots_eq]

/-- There is one way to cut tokens into slots. -/
theorem Separated.unique (h : Separated start inner stop found)
    (hother : Separated start inner stop other) : other = found := by
  have hslots := h.slots_eq.symm.trans hother.slots_eq
  induction h generalizing other with
  | last htokens =>
    cases hother with
    | last => rfl
    | comma _ _ hrest =>
      -- a comma makes two slots at least
      have hlength := congrArg List.length hslots
      cases hrest <;> simp at hlength
  | @comma start stop tokens rest comma found htokens hkind hrest ih =>
    generalize hinner : tokens ++ comma :: rest = inner at hother
    cases hother with
    | last =>
      have hlength := congrArg List.length hslots
      cases hrest <;> simp at hlength
    | comma _ _ hlater =>
      obtain ⟨hfirst, hothers⟩ := List.cons.inj hslots
      dsimp only at hfirst
      rw [← hfirst] at hinner ⊢
      obtain ⟨rfl, rfl⟩ := List.cons.inj (List.append_cancel_left hinner)
      rw [ih hlater hothers]

/-- Tokens without a comma of their own go into the first slot. -/
theorem Separated.push (hfront : Matched [.comma] front) (h : Separated start tokens stop found) :
    ∃ slots, Separated start (front ++ tokens) stop slots := by
  cases h with
  | last htokens => exact ⟨_, .last (hfront.append htokens)⟩
  | comma htokens hcomma hrest =>
    rw [← List.append_assoc]
    exact ⟨_, .comma (hfront.append htokens) hcomma hrest⟩

theorem exists_separated {apart : List Token.Kind} (h : Matched apart inner) (start stop : Nat) :
    ∃ slots, Separated start inner stop slots := by
  induction h generalizing start with
  | nil => exact ⟨_, .last .nil⟩
  | @token apart token tokens hkind _ ih =>
    by_cases hcomma : token.kind = .comma
    · obtain ⟨slots, hslots⟩ := ih token.span.stop
      exact ⟨_, .comma .nil hcomma hslots⟩
    · obtain ⟨slots, hslots⟩ := ih start
      have hfront : Matched [.comma] [token] := by
        refine .token ?_ .nil
        simp only [List.mem_cons, not_or] at hkind ⊢
        exact ⟨hkind.1, hkind.2.1, hcomma, List.not_mem_nil⟩
      exact hslots.push hfront
  | @group apart opening closing inner tokens hopening hinner hclosing _ _ ih =>
    obtain ⟨slots, hslots⟩ := ih start
    have hpushed := hslots.push (.group hopening hinner hclosing .nil)
    rwa [List.append_assoc, List.cons_append, List.cons_append, List.nil_append] at hpushed

/-- The tokens of a slot are cut out of the others, and nothing separates them. -/
theorem Separated.of_mem (h : Separated start inner stop found) {slot : Slot}
    (hslot : slot ∈ found) : slot.tokens <:+: inner ∧ Matched [.comma] slot.tokens := by
  induction h with
  | last htokens =>
    obtain rfl := List.mem_singleton.1 hslot
    exact ⟨List.infix_refl _, htokens⟩
  | comma htokens _ _ ih =>
    rcases List.mem_cons.1 hslot with rfl | hslot
    · exact ⟨(List.prefix_append _ _).isInfix, htokens⟩
    · obtain ⟨hcut, hmatched⟩ := ih hslot
      refine ⟨hcut.trans ?_, hmatched⟩
      exact ((List.suffix_cons _ _).trans (List.suffix_append _ _)).isInfix

end Separating

section Arguments
variable {source : String} {base last : Nat} {tokens : List Token}

/-- Tokens of a source in which nothing separates, placed as an expression. -/
theorem argumentOf_place {first : Token} {rest : List Token}
    (hcut : first :: rest <:+: lexemes source) (hmatched : Matched [.comma] (first :: rest)) :
    ArgumentOf source base (first :: rest)
      (.place (concat (first :: rest)) (base + first.span.start)) := by
  obtain ⟨before, after, hsource⟩ := hcut
  have hsource := hsource.symm
  refine ⟨rfl, ?_, ?_, hmatched, ?_⟩
  · intro token htoken hfits
    cases htoken
    exact Nat.min_eq_left hfits
  · intro token htoken final hfinal hfits
    cases htoken
    have hlaid := Token.laid_lexemes hfits
    rw [hsource, List.append_assoc] at hlaid
    obtain ⟨start, hbefore, hlaid⟩ := Token.laid_append.1 hlaid
    obtain ⟨stop, hrun, -⟩ := Token.laid_append.1 hlaid
    have hstart := hbefore.size
    have hstop := hrun.size
    have hlast : final.span.stop = stop := by
      have hget := getLastD_stop hrun
      rw [List.getLastD_eq_getLast?, Option.mem_def.1 hfinal] at hget
      exact hget
    have hslice := Token.slice_run hsource
    rw [Token.chars_append, Text.size_append] at hslice
    rw [hrun.1.start_eq, hlast, hstop, hstart, Nat.zero_add]
    exact hslice
  · show Matched [.comma] (lexemes (concat (first :: rest)))
    rw [Token.lexemes_concat hsource]
    exact hmatched.placed 0

theorem argumentOf_blank (source : String) (base offset : Nat) :
    ArgumentOf source base [] (.place "" offset) := by
  refine ⟨rfl, ?_, ?_, .nil, ?_⟩
  · intro first hfirst
    cases hfirst
  · intro first hfirst
    cases hfirst
  · have hnone : lexemes (Expression.place "" offset).text = [] := by
      show lexemes "" = []
      rw [lexemes, String.toList_empty, Token.lexemesFrom]
    rw [hnone]
    exact .nil

/-- There is one expression for each slot. -/
theorem forall₂_place {found : List Slot}
    (hcut : ∀ slot ∈ found, slot.tokens <:+: lexemes source)
    (hmatched : ∀ slot ∈ found, Matched [.comma] slot.tokens) :
    List.Forall₂ (fun slot argument => ∃ core, Trimmed slot.tokens core ∧
        ArgumentOf source base core argument) found
      (place base last (found.map Slot.tokens)) := by
  induction found generalizing last with
  | nil => exact .nil
  | cons slot found ih =>
    obtain ⟨hfirst, hothers⟩ := List.forall_mem_cons.1 hcut
    obtain ⟨hmatch, hmatches⟩ := List.forall_mem_cons.1 hmatched
    have htrimmed := trimmed_trim slot.tokens
    rw [List.map_cons, place]
    split
    · rename_i htrim
      rw [htrim] at htrimmed
      exact .cons ⟨[], htrimmed, argumentOf_blank source base _⟩ (ih hothers hmatches)
    · rename_i first rest htrim
      have hshort := trim_infix slot.tokens
      have hcore := hshort.trans hfirst
      have hkept := hmatch.trim
      rw [htrim] at htrimmed hcore hkept
      exact .cons ⟨_, htrimmed, argumentOf_place hcore hkept⟩ (ih hothers hmatches)

end Arguments

/-- Nothing but whitespace between the parentheses of a call means no arguments. Otherwise there is
one for each segment that the commas make which no parenthesis holds: it takes the tokens of the
segment but for the whitespace at either end. -/
theorem split_separated (base : Nat) {source : String} {opening closing : Token}
    {before inner after : List Token}
    (hsource : lexemes source = before ++ opening :: (inner ++ closing :: after))
    (hinner : Matched [] inner) :
    let arguments := split base opening.span.stop inner
    (arguments = [] ↔ ∀ token ∈ inner, token.isWhitespace = true) ∧
      ∃ slots, Separated opening.span.stop inner closing.span.start slots ∧
        (∀ other, Separated opening.span.stop inner closing.span.start other → other = slots) ∧
        (arguments ≠ [] → List.Forall₂ (fun slot argument => ∃ core, Trimmed slot.tokens core ∧
          ArgumentOf source base core argument) slots arguments) := by
  intro arguments
  obtain ⟨slots, hslots⟩ :=
    exists_separated hinner opening.span.stop closing.span.start
  have hcut : inner <:+: lexemes source := by
    refine ⟨before ++ [opening], closing :: after, ?_⟩
    rw [hsource]
    simp only [List.append_assoc, List.cons_append, List.nil_append]
  have hpieces : List.Forall₂ (fun slot argument => ∃ core, Trimmed slot.tokens core ∧
      ArgumentOf source base core argument) slots
        (place base opening.span.stop (slots.map Slot.tokens)) :=
    forall₂_place (fun slot hslot => (hslots.of_mem hslot).1.trans hcut)
      (fun slot hslot => (hslots.of_mem hslot).2)
  by_cases hblank : inner.all Token.isWhitespace = true
  · have hnone : arguments = [] := if_pos hblank
    refine ⟨?_, slots, hslots, fun other => hslots.unique, fun hsome => absurd hnone hsome⟩
    exact iff_of_true hnone (List.all_eq_true.1 hblank)
  · have hplaced : arguments = place base opening.span.stop (slots.map Slot.tokens) :=
      hslots.split_eq hblank base
    rw [hplaced]
    refine ⟨?_, slots, hslots, fun other => hslots.unique, fun _ => hpieces⟩
    constructor
    · intro hnone
      rw [hnone] at hpieces
      cases hpieces
      cases hslots
    · intro hall
      exact absurd (List.all_eq_true.2 hall) hblank

/-- What stands between the outer parentheses of `F(G(1,2), "a,b", )`. -/
def innerOfNested : List Token :=
  [⟨.identifier, ⟨2, 3⟩, "G"⟩, ⟨.leftParen, ⟨3, 4⟩, "("⟩, ⟨.number, ⟨4, 5⟩, "1"⟩,
    ⟨.comma, ⟨5, 6⟩, ","⟩, ⟨.number, ⟨6, 7⟩, "2"⟩, ⟨.rightParen, ⟨7, 8⟩, ")"⟩,
    ⟨.comma, ⟨8, 9⟩, ","⟩, ⟨.whitespace, ⟨9, 10⟩, " "⟩, ⟨.string, ⟨10, 15⟩, "\"a,b\""⟩,
    ⟨.comma, ⟨15, 16⟩, ","⟩, ⟨.whitespace, ⟨16, 17⟩, " "⟩]

/-- Of the four commas two separate, so there are three arguments, the last of them blank. -/
theorem split_separated_nested :
    lexemes "F(G(1,2), \"a,b\", )" = [⟨.identifier, ⟨0, 1⟩, "F"⟩]
        ++ ⟨.leftParen, ⟨1, 2⟩, "("⟩ :: (innerOfNested ++ ⟨.rightParen, ⟨17, 18⟩, ")"⟩ :: []) ∧
      Matched [] innerOfNested ∧
      ∃ slots, Separated 2 innerOfNested 17 slots ∧
        (∀ other, Separated 2 innerOfNested 17 other → other = slots) ∧
        List.Forall₂ (fun slot argument => ∃ core, Trimmed slot.tokens core ∧
            ArgumentOf "F(G(1,2), \"a,b\", )" 10 core argument) slots
          [.place "G(1,2)" 12, .place "\"a,b\"" 20, .place "" 26] := by
  have hsource : lexemes "F(G(1,2), \"a,b\", )" = [⟨.identifier, ⟨0, 1⟩, "F"⟩]
      ++ ⟨.leftParen, ⟨1, 2⟩, "("⟩ :: (innerOfNested ++ ⟨.rightParen, ⟨17, 18⟩, ")"⟩ :: []) := by
    decide +kernel
  have htail : Matched [] (innerOfNested.drop 6) :=
    .token (by decide) (.token (by decide) (.token (by decide) (.token (by decide)
      (.token (by decide) .nil))))
  have hheld : Matched [] ((innerOfNested.drop 2).take 3) :=
    .token (by decide) (.token (by decide) (.token (by decide) .nil))
  have hinner : Matched [] innerOfNested :=
    .token (by decide) (Matched.group rfl hheld rfl htail)
  obtain ⟨-, slots, hslots, hunique, harguments⟩ := split_separated 10 hsource hinner
  have hsplit : split 10 2 innerOfNested
      = [.place "G(1,2)" 12, .place "\"a,b\"" 20, .place "" 26] := by
    decide +kernel
  rw [hsplit] at harguments
  exact ⟨hsource, hinner, slots, hslots, hunique, harguments (by decide +kernel)⟩

end EventFormula.Call
