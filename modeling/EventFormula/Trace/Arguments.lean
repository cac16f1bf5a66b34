import EventFormula.Trace.Reader

/-! An argument stands between parentheses of the expression around it, so it is the shorter one. -/

namespace EventFormula

namespace Call

theorem sublist_of_mem_intoFirst {token : Token} {tokens slot : List Token}
    {slots : List (List Token)} (h : ∀ slot ∈ slots, slot.Sublist tokens)
    (hslot : slot ∈ intoFirst token slots) : slot.Sublist (token :: tokens) := by
  cases slots with
  | nil =>
    rcases List.mem_singleton.1 hslot with rfl
    exact (List.nil_sublist tokens).cons_cons token
  | cons first rest =>
    rcases List.mem_cons.1 hslot with rfl | hslot
    · exact (h first List.mem_cons_self).cons_cons token
    · exact (h slot (List.mem_cons_of_mem _ hslot)).cons token

theorem sublist_of_mem_slots {depth : Nat} {tokens slot : List Token}
    (h : slot ∈ slots depth tokens) : slot.Sublist tokens := by
  induction tokens generalizing depth slot with
  | nil =>
    rcases List.mem_singleton.1 h with rfl
    exact .slnil
  | cons token tokens ih =>
    have into (depth : Nat) (h : slot ∈ intoFirst token (slots depth tokens)) :
        slot.Sublist (token :: tokens) :=
      sublist_of_mem_intoFirst (fun _ hs => ih hs) h
    rw [slots] at h
    split at h
    · split at h
      · rcases List.mem_cons.1 h with rfl | h
        · exact List.nil_sublist _
        · exact (ih h).cons token
      · exact into _ h
    · exact into _ h
    · exact into _ h
    · exact into _ h

theorem trim_sublist (tokens : List Token) : (trim tokens).Sublist tokens := by
  have h := ((tokens.dropWhile Token.isWhitespace).reverse.dropWhile_sublist Token.isWhitespace)
  have := List.reverse_sublist.2 h
  rw [List.reverse_reverse] at this
  exact this.trans (tokens.dropWhile_sublist Token.isWhitespace)

theorem length_chars_le {short long : List Token} (h : short.Sublist long) :
    (Token.chars short).length ≤ (Token.chars long).length := by
  induction h with
  | slnil => exact Nat.le_refl _
  | cons token _ ih => simp only [Token.chars_cons, List.length_append]; omega
  | cons_cons token _ ih => simp only [Token.chars_cons, List.length_append]; omega

theorem length_of_mem_place {base last : Nat} {slots : List (List Token)} {e : Expression}
    (h : e ∈ place base last slots) :
    ∃ slot ∈ slots, e.text.toList.length ≤ (Token.chars slot).length := by
  induction slots generalizing last with
  | nil => cases h
  | cons slot slots ih =>
    rw [place] at h
    split at h
    · rcases List.mem_cons.1 h with rfl | h
      · exact ⟨slot, List.mem_cons_self, by simp [Expression.place]⟩
      · rcases ih h with ⟨other, hm, hl⟩
        exact ⟨other, List.mem_cons_of_mem _ hm, hl⟩
    · rename_i first rest htrim
      rcases List.mem_cons.1 h with rfl | h
      · refine ⟨slot, List.mem_cons_self, ?_⟩
        rw [Expression.place, Token.toList_concat, ← htrim]
        exact length_chars_le (trim_sublist slot)
      · rcases ih h with ⟨other, hm, hl⟩
        exact ⟨other, List.mem_cons_of_mem _ hm, hl⟩

theorem length_of_mem_split {base start : Nat} {inner : List Token} {e : Expression}
    (h : e ∈ split base start inner) : e.text.toList.length ≤ (Token.chars inner).length := by
  rw [split] at h
  split at h
  · cases h
  · rcases length_of_mem_place h with ⟨slot, hm, hl⟩
    exact Nat.le_trans hl (length_chars_le (sublist_of_mem_slots hm))

theorem mem_of_map_cons {rest : Except Failure (List Argument)} {first argument : Argument}
    {arguments : List Argument} (h : rest.map (first :: ·) = .ok arguments)
    (hm : argument ∈ arguments) :
    argument = first ∨ ∃ tail, rest = .ok tail ∧ argument ∈ tail := by
  cases rest with
  | error failure => cases h
  | ok tail =>
    cases h
    rcases List.mem_cons.1 hm with rfl | hm
    · exact Or.inl rfl
    · exact Or.inr ⟨tail, rfl, hm⟩

theorem mem_of_mem_fill {function : String} {stop : Nat} {parameters : List Parameter}
    {written : List Expression} {arguments : List Argument} {argument : Argument}
    (h : fill function stop parameters written = .ok arguments) (hm : argument ∈ arguments)
    (hw : argument.written = true) : argument.expression ∈ written := by
  fun_induction fill function stop parameters written generalizing arguments with
  | case1 => cases h; cases hm
  | case2 _ _ _ _ ih =>
    rcases mem_of_map_cons h hm with rfl | ⟨tail, ht, hm⟩
    · cases hw
    · exact ih ht hm
  | case3 _ _ _ ih =>
    rcases mem_of_map_cons h hm with rfl | ⟨tail, ht, hm⟩
    · cases hw
    · exact ih ht hm
  | case4 _ _ _ _ _ _ ih =>
    rcases mem_of_map_cons h hm with rfl | ⟨tail, ht, hm⟩
    · exact List.mem_cons_self
    · exact List.mem_cons_of_mem _ (ih ht hm)
  | case5 _ _ _ _ _ _ _ ih =>
    rcases mem_of_map_cons h hm with rfl | ⟨tail, ht, hm⟩
    · cases hw
    · exact List.mem_cons_of_mem _ (ih ht hm)
  | case6 => cases h

theorem mem_of_mem_align {function : String} {callable : Callable}
    {given written : List Expression} {place : Span} {arguments : List Argument}
    {argument : Argument} (h : align function callable given written place = .ok arguments)
    (hm : argument ∈ arguments) (hw : argument.written = true) :
    argument.expression ∈ written := by
  rw [align] at h
  split at h
  · cases h
  · cases hf : fill function place.stop (callable.parameters.drop given.length) written with
    | error failure => rw [hf] at h; cases h
    | ok rest =>
      rw [hf] at h
      cases h
      rcases List.mem_append.1 hm with hm | hm
      · rcases List.mem_map.1 hm with ⟨e, _, rfl⟩
        cases hw
      · exact mem_of_mem_fill hf hm hw

theorem mem_of_mem_checks {callable : Callable} {arguments : List Argument}
    {kind : Expression.Kind} {e : Expression} (h : .argument kind e ∈ checks callable arguments) :
    ∃ argument ∈ arguments, argument.written = true ∧ argument.expression = e := by
  rcases List.mem_filterMap.1 h with ⟨⟨parameter, argument⟩, hm, he⟩
  refine ⟨argument, (List.of_mem_zip hm).2, ?_⟩
  cases hw : argument.written with
  | false => simp [hw] at he
  | true =>
    simp only [hw, if_true, Option.map_eq_some_iff] at he
    rcases he with ⟨_, _, he⟩
    cases he
    exact ⟨rfl, rfl⟩

end Call

namespace Trace.Reader

variable (reader : Reader)

theorem length_of_mem_callEvents {head : Head} {opening closing : Token} {inner : List Token}
    {events : List Event} {kind : Expression.Kind} {e : Expression}
    (h : reader.callEvents head opening closing inner = .ok events)
    (hm : .argument kind e ∈ events) : e.text.toList.length ≤ (Token.chars inner).length := by
  rw [callEvents] at h
  cases ha : Call.align head.function head.callable head.given
      (Call.split reader.base opening.span.stop inner)
      (reader.placeOf (head.span.merge closing.span)) with
  | error failure => rw [ha] at h; cases h
  | ok arguments =>
    rw [ha] at h
    cases h
    rcases List.mem_append.1 hm with hm | hm
    · rcases Call.mem_of_mem_checks hm with ⟨argument, hmem, hw, rfl⟩
      exact Call.length_of_mem_split (Call.mem_of_mem_align ha hmem hw)
    · cases List.mem_singleton.1 hm

/-- The characters of a call in progress and of the tokens to come are fewer than `bound`; without
such a call they are at most that many. -/
def Fits (bound : Nat) (tokens : List Token) : Stage → Prop
  | .arguments _ _ _ inner => (Token.chars inner).length + (Token.chars tokens).length < bound
  | _ => (Token.chars tokens).length ≤ bound

def Bounded (bound : Nat) (tokens : List Token) : Step → Prop
  | .next events stage _ =>
    (∀ kind e, .argument kind e ∈ events → e.text.toList.length < bound) ∧
      Fits bound tokens stage
  | .stop _ => True

theorem bounded_openCall {bound : Nat} {head : Except Failure Head} {opening : Token}
    {tokens groups : List Token} (ht : opening.text.toList.length ≠ 0)
    (h : (Token.chars (opening :: tokens)).length ≤ bound) :
    Bounded bound tokens (openCall head opening groups) := by
  cases head with
  | error failure => trivial
  | ok head =>
    refine ⟨by simp, ?_⟩
    simp only [Fits, Token.chars_nil, List.length_nil, Token.chars_cons, List.length_append] at h ⊢
    omega

theorem bounded_next {bound : Nat} {events : List Event} {stage : Stage}
    {groups tokens : List Token} {token : Token}
    (he : ∀ kind e, .argument kind e ∉ events) (hs : ∀ head opening depth inner,
      stage ≠ .arguments head opening depth inner)
    (h : (Token.chars (token :: tokens)).length ≤ bound) :
    Bounded bound tokens (.next events stage groups) := by
  have hle : (Token.chars tokens).length ≤ bound := by
    rw [Token.chars_cons, List.length_append] at h
    omega
  refine ⟨fun kind e hm => absurd hm (he kind e), ?_⟩
  cases stage with
  | arguments head opening depth inner => exact absurd rfl (hs head opening depth inner)
  | _ => exact hle

theorem bounded_stepOperand {bound : Nat} {groups tokens : List Token} {token : Token}
    (h : (Token.chars (token :: tokens)).length ≤ bound) :
    Bounded bound tokens (reader.stepOperand groups token) := by
  unfold stepOperand
  repeat' split
  · exact bounded_next (by simp) (by simp) h
  · exact bounded_next (by simp) (by simp) h
  · exact bounded_next (by simp) (by simp) h
  · trivial
  · exact bounded_next (by simp) (by simp) h
  · trivial
  · exact bounded_next (by simp) (by simp) h
  · trivial
  · exact bounded_next (by simp) (by simp) h
  · trivial

theorem bounded_stepOperator {bound : Nat} {groups tokens : List Token} {token : Token}
    (h : (Token.chars (token :: tokens)).length ≤ bound) :
    Bounded bound tokens (reader.stepOperator groups token) := by
  unfold stepOperator
  repeat' split
  · exact bounded_next (by simp) (by simp) h
  · exact bounded_next (by simp) (by simp) h
  · exact bounded_next (by simp) (by simp) h
  · trivial
  · trivial
  · trivial

theorem bounded_stepArguments {bound depth : Nat} {head : Head} {opening token : Token}
    {inner groups tokens : List Token}
    (h : (Token.chars inner).length + (Token.chars (token :: tokens)).length < bound) :
    Bounded bound tokens (reader.stepArguments head opening depth inner groups token) := by
  rw [Token.chars_cons, List.length_append] at h
  have collect (depth : Nat) :
      Bounded bound tokens (.next [] (.arguments head opening depth (token :: inner)) groups) := by
    refine ⟨by simp, ?_⟩
    simp only [Fits, Token.chars_cons, List.length_append]
    omega
  unfold stepArguments
  split
  · exact collect _
  · exact collect _
  · split
    · rename_i events hevents
      refine ⟨fun kind e hm => ?_, ?_⟩
      · have hle := reader.length_of_mem_callEvents hevents hm
        have hrev : (Token.chars inner.reverse).length = (Token.chars inner).length := by
          simp [Token.chars]
        omega
      · simp only [Fits]
        omega
    · trivial
  · trivial
  · exact collect _

theorem bounded_step {bound : Nat} {stage : Stage} {groups tokens : List Token} {token : Token}
    (ht : token.text.toList.length ≠ 0) (h : Fits bound (token :: tokens) stage) :
    Bounded bound tokens (reader.step stage groups token) := by
  cases stage with
  | operand => exact reader.bounded_stepOperand h
  | operator => exact reader.bounded_stepOperator h
  | arguments head opening depth inner => exact reader.bounded_stepArguments h
  | name head =>
    simp only [step]
    split
    · exact bounded_openCall ht h
    · exact bounded_next (by simp) (by simp) h
    · trivial
  | member head =>
    simp only [step]
    split
    · exact bounded_next (by simp) (by simp) h
    · trivial
  | memberName head member =>
    simp only [step]
    split
    · exact bounded_openCall ht h
    · exact bounded_next (by simp) (by simp) h
    · trivial
  | function head member =>
    simp only [step]
    split
    · exact bounded_next (by simp) (by simp) h
    · trivial
  | functionName head member function =>
    simp only [step]
    split
    · exact bounded_openCall ht h
    · trivial

theorem length_of_mem_walk {bound : Nat} {stage : Stage} {groups tokens : List Token}
    {kind : Expression.Kind} {e : Expression}
    (ht : ∀ token ∈ tokens, token.text.toList.length ≠ 0) (h : Fits bound tokens stage)
    (hm : .argument kind e ∈ (reader.walk stage groups tokens).events) :
    e.text.toList.length < bound := by
  induction tokens generalizing stage groups with
  | nil => cases hm
  | cons token tokens ih =>
    have hb : Bounded bound tokens (reader.step stage groups token) :=
      reader.bounded_step (ht token List.mem_cons_self) h
    rw [walk] at hm
    split at hm
    · rename_i events stage' groups' hstep
      rw [hstep] at hb
      rcases List.mem_append.1 hm with hm | hm
      · exact hb.1 kind e hm
      · exact ih (fun token hmem => ht token (List.mem_cons_of_mem _ hmem)) hb.2 hm
    · cases hm

end Trace.Reader

theorem Trace.length_of_mem_ofExpression {scope : Scope} {kind inner : Expression.Kind}
    {e argument : Expression}
    (h : .argument inner argument ∈ (Trace.ofExpression scope kind e).events) :
    argument.text.length < e.text.length := by
  rw [Trace.ofExpression] at h
  split at h
  · cases h
  · rw [← String.length_toList, ← String.length_toList]
    refine Reader.length_of_mem_walk _ (fun token hm => ?_) ?_ h
    · intro hlen
      apply Token.text_ne_empty_of_mem_lexemesFrom hm
      exact String.toList_eq_nil_iff.1 (List.eq_nil_of_length_eq_zero hlen)
    · show (Token.chars (Token.lexemes e.text)).length ≤ e.text.toList.length
      exact Nat.le_of_eq (by rw [Token.lexemes, Token.chars_lexemesFrom])

end EventFormula
