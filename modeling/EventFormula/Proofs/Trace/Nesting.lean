import EventFormula.Proofs.Token.Nesting
import EventFormula.Proofs.Trace.Blocks
import EventFormula.Proofs.Trace.Reading
import Mathlib.Data.List.Forall2

/-!
# How formulas nest

A designer may write anything between the parentheses of a call as long as literals are closed and
parentheses match, and then each argument is a nested text. Where an argument is left out, the
default of its parameter stands in for it. The main statement is `wellNested_ofExpression`: in a
formula that is in order the parentheses that are copied match, nothing else that is copied has
parentheses or quotes, and each argument that is taken as code is nested, provided that the
platform's own texts have neither.
-/

namespace EventFormula

namespace Table

variable {α : Type}

def values (table : Table α) : List α := table.entries.map Prod.snd

theorem mem_values_of_get? {table : Table α} {name : String} {value : α}
    (h : table.get? name = some value) : value ∈ table.values := by
  obtain ⟨entry, hentry, rfl⟩ := Option.map_eq_some_iff.1 h
  exact List.mem_map_of_mem (List.mem_of_find?_eq_some hentry)

end Table

/-- The functions themselves, whatever they return. -/
def Functions.values (functions : Functions) : List Callable :=
  functions.numeric.values ++ functions.text.values

theorem Functions.mem_values_of_get? {functions : Functions} {returns : Expression.Kind}
    {name : String} {callable : Callable} (h : functions.get? returns name = some callable) :
    callable ∈ functions.values := by
  cases returns with
  | number => exact List.mem_append_left _ (Table.mem_values_of_get? h)
  | text => exact List.mem_append_right _ (Table.mem_values_of_get? h)

/-- What is called, and the code that stands in for arguments, have neither parentheses nor quotes.
-/
structure Callable.Flat (callable : Callable) : Prop where
  callName : Token.Flat callable.callName.toList
  defaults : ∀ parameter ∈ callable.parameters, parameter.kind = .code →
    Token.Flat parameter.defaultValue.toList

instance (callable : Callable) : Decidable callable.Flat :=
  decidable_of_iff (Token.Flat callable.callName.toList ∧
      ∀ parameter ∈ callable.parameters, parameter.kind = .code →
        Token.Flat parameter.defaultValue.toList)
    ⟨fun h => ⟨h.1, h.2⟩, fun h => ⟨h.callName, h.defaults⟩⟩

namespace Platform

/-- All functions: the free ones, and those of the types of objects and behaviors. -/
def callables (platform : Platform) : List Callable :=
  platform.functions.values
    ++ (platform.objects.values ++ platform.behaviors.values).flatMap fun info =>
      info.functions.values

/-- So it is for all functions of the platform. -/
def Flat (platform : Platform) : Prop := ∀ callable ∈ platform.callables, callable.Flat

instance (platform : Platform) : Decidable platform.Flat := List.decidableBAll ..

section Lookups
variable {platform : Platform} {returns : Expression.Kind} {type name : String} {info : TypeInfo}
  {callable : Callable}

theorem mem_callables_of_free (h : platform.freeFunction? returns name = some callable) :
    callable ∈ platform.callables :=
  List.mem_append_left _ (Functions.mem_values_of_get? h)

theorem mem_callables_of_type (hinfo : info ∈ platform.objects.values ++ platform.behaviors.values)
    (h : info.functions.get? returns name = some callable) : callable ∈ platform.callables :=
  List.mem_append_right _ (List.mem_flatMap.2 ⟨info, hinfo, Functions.mem_values_of_get? h⟩)

theorem mem_callables_of_object (h : platform.objectFunction? returns type name = some callable) :
    callable ∈ platform.callables := by
  rcases Option.or_eq_some_iff.1 h with h | ⟨-, h⟩
  all_goals
    obtain ⟨info, hinfo, h⟩ := Option.bind_eq_some_iff.1 h
    exact mem_callables_of_type (List.mem_append_left _ (Table.mem_values_of_get? hinfo)) h

theorem mem_callables_of_behavior
    (h : platform.behaviorFunction? returns type name = some callable) :
    callable ∈ platform.callables := by
  obtain ⟨info, hinfo, h⟩ := Option.bind_eq_some_iff.1 h
  exact mem_callables_of_type (List.mem_append_right _ (Table.mem_values_of_get? hinfo)) h

end Lookups

end Platform

open Token (Nested shiftAll shiftAll_cons shiftAll_append next_of_shiftAll)

theorem Trace.Balanced.shiftAll {tokens : List Token} (h : Balanced tokens) (depth : Nat) :
    Token.shiftAll depth tokens = some depth := by
  induction h generalizing depth with
  | nil => rfl
  | token hkind _ ih =>
    simp only [List.mem_cons, List.not_mem_nil, or_false, not_or] at hkind
    obtain ⟨hopening, hclosing, hclosed⟩ := hkind
    rw [shiftAll_cons (Token.shift_of_ne hopening hclosing hclosed), ih]
  | @group opening closing inner tokens hopening _ hclosing _ ihinner ihtokens =>
    have hopens : opening.kind.shift depth = some (depth + 1) := by
      rw [hopening]
      rfl
    have hcloses : closing.kind.shift (depth + 1) = some depth := by
      rw [hclosing]
      rfl
    rw [List.cons_append, shiftAll_cons hopens, shiftAll_append, ihinner, Option.bind_some,
      shiftAll_cons hcloses, ihtokens]

namespace Call

/-- The tokens close so many parentheses more than they open, whatever else is open. -/
def Closes (depth : Nat) (tokens : List Token) : Prop :=
  ∀ base, Token.shiftAll (base + depth) tokens = some base

/-- The first slot closes so many, and nothing is left open in any other. -/
def AllClose (depth : Nat) : List (List Token) → Prop
  | [] => False
  | first :: others => Closes depth first ∧ ∀ slot ∈ others, Closes 0 slot

theorem AllClose.of_mem {slots : List (List Token)} (h : AllClose 0 slots) :
    ∀ slot ∈ slots, Closes 0 slot := by
  cases slots with
  | nil => exact h.elim
  | cons first others => exact List.forall_mem_cons.2 h

theorem AllClose.intoFirst {token : Token} {depth next : Nat} {slots : List (List Token)}
    (hshift : ∀ base, token.kind.shift (base + depth) = some (base + next))
    (h : AllClose next slots) : AllClose depth (intoFirst token slots) := by
  cases slots with
  | nil => exact h.elim
  | cons first others =>
    refine ⟨fun base => ?_, h.2⟩
    rw [shiftAll_cons (hshift base)]
    exact h.1 base

/-- Cut at the commas that no parenthesis holds, tokens close in the first slot what they close, and
nothing is left open in any other. -/
theorem allClose_slots {depth : Nat} {tokens : List Token} (h : Closes depth tokens) :
    AllClose depth (slots depth tokens) := by
  induction tokens generalizing depth with
  | nil => exact ⟨h, fun slot hslot => by cases hslot⟩
  | cons token tokens ih =>
    -- a token that leads from `depth` to `next` and stays in its slot
    have stays {next : Nat}
        (hshift : ∀ base, token.kind.shift (base + depth) = some (base + next)) :
        AllClose depth (intoFirst token (slots next tokens)) := by
      refine (ih fun base => ?_).intoFirst hshift
      obtain ⟨found, hfound, hrest⟩ := next_of_shiftAll (h base)
      rw [hshift base] at hfound
      cases hfound
      exact hrest
    rw [slots]
    split
    · rename_i hcomma
      have hshift (base : Nat) : token.kind.shift (base + depth) = some (base + depth) := by
        rw [hcomma]
        rfl
      split
      · rename_i hdepth
        subst hdepth
        have hrest : Closes 0 tokens := fun base => by
          rw [← shiftAll_cons (hshift base)]
          exact h base
        exact ⟨fun base => rfl, (ih hrest).of_mem⟩
      · exact stays hshift
    · rename_i hopening
      refine stays fun base => ?_
      rw [hopening]
      rfl
    · rename_i hclosing
      obtain ⟨found, hfound, -⟩ := next_of_shiftAll (h 0)
      have hopen : depth ≠ 0 := by
        rintro rfl
        rw [hclosing] at hfound
        cases hfound
      refine stays fun base => ?_
      rw [hclosing, Token.Kind.shift, if_neg (by omega)]
      congr 1
      omega
    · rename_i hcomma hopening hclosing
      refine stays fun base => Token.shift_of_ne hopening hclosing ?_
      obtain ⟨found, hfound, -⟩ := next_of_shiftAll (h base)
      exact (Token.counts_of_shift hfound).1

theorem shiftAll_blank {blanks : List Token} (h : ∀ token ∈ blanks, token.isWhitespace = true)
    (depth : Nat) : Token.shiftAll depth blanks = some depth := by
  induction blanks with
  | nil => rfl
  | cons token blanks ih =>
    obtain ⟨htoken, hothers⟩ := List.forall_mem_cons.1 h
    have hkind : token.kind = .whitespace := beq_iff_eq.1 htoken
    have hshift : token.kind.shift depth = some depth := by
      rw [hkind]
      rfl
    rw [shiftAll_cons hshift]
    exact ih hothers

/-- Whitespace around tokens is of no account. -/
theorem Closes.trim {depth : Nat} {tokens : List Token} (h : Closes depth tokens) :
    Closes depth (trim tokens) := by
  have hall (tokens : List Token) :
      ∀ token ∈ tokens.takeWhile Token.isWhitespace, token.isWhitespace = true :=
    List.all_eq_true.1 List.all_takeWhile
  have hsplit (tokens : List Token) :
      tokens.takeWhile Token.isWhitespace ++ tokens.dropWhile Token.isWhitespace = tokens :=
    List.takeWhile_append_dropWhile
  intro base
  have hback := congrArg List.reverse (hsplit (tokens.dropWhile Token.isWhitespace).reverse)
  rw [List.reverse_append, List.reverse_reverse] at hback
  have htokens := h base
  rw [← hsplit tokens, shiftAll_append, shiftAll_blank (hall tokens), Option.bind_some, ← hback,
    shiftAll_append] at htokens
  obtain ⟨between, htrim, hblanks⟩ := Option.bind_eq_some_iff.1 htokens
  rw [shiftAll_blank fun token hmem => hall _ token (List.mem_reverse.1 hmem)] at hblanks
  cases hblanks
  exact htrim

theorem text_of_mem_place {base last : Nat} {slots : List (List Token)} {e : Expression}
    (h : e ∈ place base last slots) :
    ∃ slot ∈ slots, e.text.toList = Token.chars (Call.trim slot) := by
  induction slots generalizing last with
  | nil => cases h
  | cons slot slots ih =>
    have behind {last : Nat} (h : e ∈ place base last slots) :
        ∃ other ∈ slot :: slots, e.text.toList = Token.chars (Call.trim other) := by
      obtain ⟨other, hmem, htext⟩ := ih h
      exact ⟨other, List.mem_cons_of_mem _ hmem, htext⟩
    rw [place] at h
    split at h
    · rename_i htrim
      rcases List.mem_cons.1 h with rfl | h
      · exact ⟨slot, List.mem_cons_self, by rw [htrim]; rfl⟩
      · exact behind h
    · rename_i first rest htrim
      rcases List.mem_cons.1 h with rfl | h
      · exact ⟨slot, List.mem_cons_self, by rw [htrim]; exact Token.toList_concat _⟩
      · exact behind h

section Arguments
variable {start : Nat} {cs : List Char}

/-- Each argument that is written between the parentheses of a call is nested. -/
theorem nested_of_mem_split {base offset : Nat} {inner : List Token} {e : Expression}
    (hinner : Trace.Balanced inner) (htokens : ∀ token ∈ inner, token ∈ Token.lexemesFrom start cs)
    (h : e ∈ split base offset inner) : Nested e.text.toList := by
  rw [split] at h
  split at h
  · cases h
  · obtain ⟨slot, hslot, htext⟩ := text_of_mem_place h
    have hclosed : Closes 0 inner := hinner.shiftAll
    have hcloses : Closes 0 slot := (allClose_slots hclosed).of_mem slot hslot
    have hsub : (trim slot).Sublist inner :=
      (trim_sublist slot).trans (sublist_of_mem_slots hslot)
    intro depth
    rw [htext]
    exact Token.passes_run (fun token hmem => htokens token (hsub.subset hmem)) (hcloses.trim depth)

end Arguments

/-- If the parameter asks for code, the argument is nested. -/
def Suits (parameter : Parameter) (argument : Expression) : Prop :=
  parameter.kind = .code → Nested argument.text.toList

theorem suits_of_fill {function : String} {stop : Nat} {parameters : List Parameter}
    {written : List Expression} {arguments : List Argument}
    (hwritten : ∀ e ∈ written, Nested e.text.toList)
    (hdefaults : ∀ parameter ∈ parameters, parameter.kind = .code →
      Token.Flat parameter.defaultValue.toList)
    (h : fill function stop parameters written = .ok arguments) :
    List.Forall₂ Suits parameters (arguments.map Argument.expression) := by
  fun_induction fill function stop parameters written generalizing arguments with
  | case1 =>
    cases h
    exact .nil
  | case2 written parameter parameters _ ih =>
    obtain ⟨hdefault, hothers⟩ := List.forall_mem_cons.1 hdefaults
    obtain ⟨others, hfilled, rfl⟩ := map_ok h
    exact .cons (fun hcode => (hdefault hcode).nested) (ih hwritten hothers hfilled)
  | case3 parameter parameters _ ih =>
    obtain ⟨hdefault, hothers⟩ := List.forall_mem_cons.1 hdefaults
    obtain ⟨others, hfilled, rfl⟩ := map_ok h
    exact .cons (fun hcode => (hdefault hcode).nested) (ih hwritten hothers hfilled)
  | case4 parameter parameters _ argument rest _ ih =>
    obtain ⟨hargument, hrest⟩ := List.forall_mem_cons.1 hwritten
    obtain ⟨others, hfilled, rfl⟩ := map_ok h
    exact .cons (fun _ => hargument) (ih hrest (List.forall_mem_cons.1 hdefaults).2 hfilled)
  | case5 parameter parameters _ argument rest _ _ ih =>
    obtain ⟨hdefault, hothers⟩ := List.forall_mem_cons.1 hdefaults
    obtain ⟨others, hfilled, rfl⟩ := map_ok h
    exact .cons (fun hcode => (hdefault hcode).nested)
      (ih (List.forall_mem_cons.1 hwritten).2 hothers hfilled)
  | case6 => cases h

theorem suits_of_align {function : String} {callable : Callable} {given written : List Expression}
    {span : Span} {arguments : List Argument} (hwritten : ∀ e ∈ written, Nested e.text.toList)
    (hcallable : callable.Flat)
    (h : align function callable given written span = .ok arguments) :
    ∃ rest, arguments.map Argument.expression = given ++ rest ∧
      List.Forall₂ Suits (callable.parameters.drop given.length) rest := by
  rw [align] at h
  split at h
  · cases h
  · obtain ⟨filled, hfilled, rfl⟩ := map_ok h
    refine ⟨filled.map Argument.expression, ?_, suits_of_fill hwritten ?_ hfilled⟩
    · rw [List.map_append, List.map_map]
      exact congrArg (· ++ _) (List.map_id given)
    · intro parameter hmem
      exact hcallable.defaults parameter (List.mem_of_mem_drop hmem)

/-- What is called has no parentheses and quotes, and each argument between the parentheses of the
call suits its parameter. -/
structure Enclosed (call : Call) : Prop where
  callName : Token.Flat call.callable.callName.toList
  suits : List.Forall₂ Suits (call.callable.parameters.drop call.form.taken)
    (call.arguments.drop call.form.taken)

theorem Enclosed.suits_rest {call : Call} {given rest : List Expression} (h : call.Enclosed)
    (hgiven : call.form.Takes given) (harguments : call.arguments = given ++ rest) :
    List.Forall₂ Suits (call.callable.parameters.drop given.length) rest := by
  have hsuits := h.suits
  rw [← Form.length_of_takes hgiven, harguments, List.drop_left] at hsuits
  exact hsuits

end Call

namespace Event

/-- A constant is a parenthesis or has none, nothing else that is copied has any, and the arguments
of a call suit its parameters. -/
def Enclosed : Event → Prop
  | constant text => text = "(" ∨ text = ")" ∨ Token.Flat text.toList
  | operator text | number text => Token.Flat text.toList
  | argument .. => True
  | call made => made.Enclosed

/-- Past the code of an event, with so many parentheses open. -/
def shift (depth : Nat) : Event → Option Nat
  | constant text =>
    if text = "(" then Token.Kind.leftParen.shift depth
    else if text = ")" then Token.Kind.rightParen.shift depth
    else some depth
  | _ => some depth

/-- Past the code of events. -/
def shiftAll (depth : Nat) (events : List Event) : Option Nat := events.foldlM shift depth

theorem shiftAll_append (depth : Nat) (first second : List Event) :
    shiftAll depth (first ++ second)
      = (shiftAll depth first).bind fun next => shiftAll next second :=
  List.foldlM_append

theorem shift_flat {text : String} (h : Token.Flat text.toList) (depth : Nat) :
    (constant text).shift depth = some depth := by
  have hopening : text ≠ "(" := by
    rintro rfl
    exact h '(' (by decide) (by decide)
  have hclosing : text ≠ ")" := by
    rintro rfl
    exact h ')' (by decide) (by decide)
  rw [shift, if_neg hopening, if_neg hclosing]

end Event

namespace Trace

/-- Nothing comes out of one of the events, and the parentheses among them match. -/
structure WellNested (events : List Event) : Prop where
  each : ∀ event ∈ events, event.Enclosed
  matched : ∀ depth, Event.shiftAll depth events = some depth

theorem WellNested.append {first second : List Event} (hfirst : WellNested first)
    (hsecond : WellNested second) : WellNested (first ++ second) where
  each event hmem := (List.mem_append.1 hmem).elim (hfirst.each event) (hsecond.each event)
  matched depth := by
    rw [Event.shiftAll_append, hfirst.matched]
    exact hsecond.matched depth

/-- An event that is no parenthesis. -/
theorem wellNested_singleton {event : Event} (h : event.Enclosed)
    (hshift : ∀ depth, event.shift depth = some depth) : WellNested [event] where
  each other hmem := List.mem_singleton.1 hmem ▸ h
  matched depth := by
    rw [Event.shiftAll, List.foldlM_cons, hshift]
    rfl

theorem wellNested_group {events : List Event} (h : WellNested events) :
    WellNested (.constant "(" :: events ++ [.constant ")"]) where
  each event hmem := by
    rcases List.mem_append.1 hmem with hmem | hmem
    · rcases List.mem_cons.1 hmem with rfl | hmem
      · exact Or.inl rfl
      · exact h.each event hmem
    · rw [List.mem_singleton.1 hmem]
      exact Or.inr (Or.inl rfl)
  matched depth := by
    rw [Event.shiftAll_append]
    show (Event.shiftAll (depth + 1) events).bind _ = _
    rw [h.matched]
    rfl

/-- Arguments that are announced add no code. -/
theorem wellNested_checks (callable : Callable) (arguments : List Call.Argument) :
    WellNested (Call.checks callable arguments) := by
  have hannounced : ∀ event ∈ Call.checks callable arguments,
      ∃ kind e, event = .argument kind e := by
    intro event hmem
    obtain ⟨⟨parameter, argument⟩, -, hevent⟩ := List.mem_filterMap.1 hmem
    simp only [Option.ite_none_right_eq_some, Option.map_eq_some_iff] at hevent
    obtain ⟨-, kind, -, rfl⟩ := hevent
    exact ⟨kind, argument.expression, rfl⟩
  generalize Call.checks callable arguments = events at hannounced
  induction events with
  | nil => exact ⟨fun event hmem => (by cases hmem), fun depth => rfl⟩
  | cons event events ih =>
    obtain ⟨⟨kind, e, rfl⟩, hothers⟩ := List.forall_mem_cons.1 hannounced
    have hannounced : Event.Enclosed (.argument kind e) := trivial
    exact (wellNested_singleton hannounced fun depth => rfl).append (ih hothers)

namespace Reader

variable {reader : Reader}

theorem flat_of_names {name : List Token} {head : Head} (hplatform : reader.scope.platform.Flat)
    (h : reader.Names name head) : head.callable.Flat ∧ head.form.Takes head.given := by
  cases h with
  | free _ hcallable => exact ⟨hplatform _ (Platform.mem_callables_of_free hcallable), rfl⟩
  | object _ _ _ hcallable =>
    exact ⟨hplatform _ (Platform.mem_callables_of_object hcallable), _, rfl⟩
  | behavior _ _ _ _ _ _ hcallable =>
    exact ⟨hplatform _ (Platform.mem_callables_of_behavior hcallable), _, _, rfl⟩

theorem flat_of_operator {kind : Expression.Kind} {token : Token} (hspelled : token.Spelled)
    (h : token.kind ∈ kind.operators) : Token.Flat token.text.toList := by
  have hsymbol : ∃ c, token.kind.spelling? = some c ∧ Token.Flat [c] := by
    generalize token.kind = symbol at h
    cases kind with
    | number =>
      simp only [Expression.Kind.operators, List.mem_cons, List.not_mem_nil, or_false] at h
      rcases h with rfl | rfl | rfl | rfl <;> exact ⟨_, rfl, by decide⟩
    | text =>
      rw [List.mem_singleton.1 h]
      exact ⟨_, rfl, by decide⟩
  obtain ⟨c, hc, hflat⟩ := hsymbol
  rw [hspelled.symbol c hc]
  exact hflat

/-- A string literal is one argument that is asked for as text. -/
theorem enclosed_literal (token : Token) : (reader.literal token).Enclosed where
  callName _ hmem := by cases hmem
  suits := .cons nofun .nil

section Derived
variable {start : Nat} {cs : List Char}

/-- The tokens of such a part are tokens of a text, so what is copied of them is spelled right, and
what stands between the parentheses of a call is nested. -/
theorem wellNested_of_derives {part : Part} {groups : Nat} {tokens : List Token}
    {events : List Event} (hplatform : reader.scope.platform.Flat)
    (h : reader.Derives part groups tokens events)
    (htokens : ∀ token ∈ tokens, token ∈ Token.lexemesFrom start cs) : WellNested events := by
  have spelled {token : Token} (h : token ∈ Token.lexemesFrom start cs) : token.Spelled :=
    Token.spelled_of_mem_lexemesFrom h
  have operator {kind : Expression.Kind} {token : Token} (h : token ∈ Token.lexemesFrom start cs)
      (hkind : token.kind ∈ kind.operators) : WellNested [.operator token.text] :=
    wellNested_singleton (flat_of_operator (spelled h) hkind) fun depth => rfl
  have blank {token : Token} (h : token ∈ Token.lexemesFrom start cs)
      (hkind : token.kind = .whitespace) : WellNested [.constant token.text] := by
    have hflat := Token.flat_of_blank ((spelled h).blank hkind)
    exact wellNested_singleton (Or.inr (Or.inr hflat)) (Event.shift_flat hflat)
  induction h with
  | @number _ token _ hkind =>
    obtain ⟨number, hsound, hchars⟩ :=
      (spelled (htokens token List.mem_cons_self)).number hkind
    have hflat : Token.Flat token.text.toList := hchars ▸ Decimal.flat_chars hsound
    exact wellNested_singleton hflat fun depth => rfl
  | string => exact wellNested_singleton (enclosed_literal _) fun depth => rfl
  | @group _ opening closing tokens events hopening _ hclosing ih =>
    obtain ⟨hinner, hlast⟩ := List.forall_mem_append.1 htokens
    obtain ⟨hfirst, hinner⟩ := List.forall_mem_cons.1 hinner
    have hopens : opening.text = "(" :=
      (spelled hfirst).text_eq (congrArg Token.Kind.spelling? hopening)
    have hcloses : closing.text = ")" :=
      (spelled (List.forall_mem_singleton.1 hlast)).text_eq
        (congrArg Token.Kind.spelling? hclosing)
    rw [hopens, hcloses]
    exact wellNested_group (ih hinner)
  | @call _ name inner head opening closing arguments hname haligns =>
    obtain ⟨hfront, -⟩ := List.forall_mem_append.1 htokens
    obtain ⟨-, hinner⟩ := List.forall_mem_append.1 hfront
    obtain ⟨-, hinner⟩ := List.forall_mem_cons.1 hinner
    obtain ⟨hflat, hgiven⟩ := flat_of_names hplatform hname
    obtain ⟨rest, harguments, hsuits⟩ := Call.suits_of_align
      (fun e hmem => Call.nested_of_mem_split haligns.hinner hinner hmem) hflat haligns.halign
    have hcall : (reader.call head arguments).Enclosed := by
      refine ⟨hflat.callName, ?_⟩
      show List.Forall₂ _ (head.callable.parameters.drop head.form.taken)
        ((arguments.map Call.Argument.expression).drop head.form.taken)
      rw [← Call.Form.length_of_takes hgiven, harguments, List.drop_left]
      exact hsuits
    exact (wellNested_checks _ _).append (wellNested_singleton hcall fun depth => rfl)
  | primary _ ih => exact ih htokens
  | sign hsign _ ih =>
    obtain ⟨hfirst, hrest⟩ := List.forall_mem_cons.1 htokens
    exact (operator hfirst (operator_of_sign hsign)).append (ih hrest)
  | blankBefore hblank _ ih =>
    obtain ⟨hfirst, hrest⟩ := List.forall_mem_cons.1 htokens
    exact (blank hfirst hblank).append (ih hrest)
  | blankAfter _ hblank ih =>
    obtain ⟨hfront, hlast⟩ := List.forall_mem_append.1 htokens
    exact (ih hfront).append (blank (List.forall_mem_singleton.1 hlast) hblank)
  | term _ ih => exact ih htokens
  | join _ hoperator _ ihfirst ihrest =>
    obtain ⟨hfirst, hrest⟩ := List.forall_mem_append.1 htokens
    obtain ⟨htoken, hrest⟩ := List.forall_mem_cons.1 hrest
    exact (ihfirst hfirst).append ((operator htoken hoperator).append (ihrest hrest))

end Derived

end Reader

/-- In a formula that is in order parentheses match, and each argument suits its parameter. -/
theorem wellNested_ofExpression {scope : Scope} {kind : Expression.Kind} {e : Expression}
    (hplatform : scope.platform.Flat) (h : (ofExpression scope kind e).failure = none) :
    WellNested (ofExpression scope kind e).events := by
  have htokens : ∀ token ∈ Token.lexemes e.text, token ∈ Token.lexemesFrom 0 e.text.toList :=
    fun token hmem => hmem
  exact Reader.wellNested_of_derives hplatform (derives_of_ofExpression h) htokens

end Trace
end EventFormula
