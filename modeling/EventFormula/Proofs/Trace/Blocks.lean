import EventFormula.Proofs.Call.Alignment
import EventFormula.Proofs.Trace.Grammar

/-!
# The blocks of a trace

Whether a formula is in order or not, its events come in blocks: a parenthesis, whitespace, an
operator, a number or a string literal alone, and a call with the announcements of its arguments
before it. The main statement is `blocks_ofExpression`.
-/

namespace EventFormula

namespace Call

/-- The arguments that the head of such a call gives. -/
def Form.Takes : Form → List Expression → Prop
  | free, given => given = []
  | object, given => ∃ object, given = [object]
  | behavior, given => ∃ object behavior, given = [object, behavior]

/-- How many arguments the head gives. -/
def Form.taken : Form → Nat
  | free => 0
  | object => 1
  | behavior => 2

theorem Form.length_of_takes {form : Form} {given : List Expression} (h : form.Takes given) :
    given.length = form.taken := by
  cases form with
  | free =>
    obtain rfl := h
    rfl
  | object =>
    obtain ⟨object, rfl⟩ := h
    rfl
  | behavior =>
    obtain ⟨object, behavior, rfl⟩ := h
    rfl

theorem Form.free_of_takes {form : Form} (h : form.Takes []) : form = .free := by
  cases form with
  | free => rfl
  | object =>
    obtain ⟨object, hobject⟩ := h
    cases hobject
  | behavior =>
    obtain ⟨object, behavior, hobject⟩ := h
    cases hobject

/-- The arguments that the head gives come first. -/
def Headed (call : Call) : Prop :=
  ∃ given rest, call.form.Takes given ∧ call.arguments = given ++ rest

end Call

namespace Trace

/-- The head gives what its form takes, and a free function has a name. -/
structure Head.Fits (head : Head) : Prop where
  takes : head.form.Takes head.given
  named : head.form = .free → head.function ≠ ""

namespace Reader

variable (reader : Reader)

/-- Events that belong together. -/
inductive Block : List Event → Prop where
  | constant (text : String) : Block [.constant text]
  | operator (text : String) : Block [.operator text]
  | number (text : String) : Block [.number text]
  | literal (token : Token) : Block [.call (reader.literal token)]
  | call {head : Head} {written : List Expression} {place : Span} {arguments : List Call.Argument}
      (hfits : head.Fits)
      (halign : Call.align head.function head.callable head.given written place = .ok arguments) :
      Block (Call.checks head.callable arguments ++ [.call (reader.call head arguments)])

/-- Events that are blocks one after the other. -/
inductive Blocks : List Event → Prop where
  | nil : Blocks []
  | block {block rest : List Event} (hblock : reader.Block block) (hrest : Blocks rest) :
      Blocks (block ++ rest)

/-- The name that a call has begun with is not empty, and its head fits. -/
def Sound : Stage → Prop
  | .name head => head.text ≠ ""
  | .arguments head _ _ _ => head.Fits
  | _ => True

/-- A step yields a block or nothing, and leaves a stage in order. -/
def YieldsBlock : Step → Prop
  | .next events stage _ => (events = [] ∨ reader.Block events) ∧ Sound stage
  | .stop _ => True

variable {reader} {groups : List Token} {token : Token}

theorem fits_freeHead {name : Token} {head : Head} (hname : name.text ≠ "")
    (h : reader.freeHead name = .ok head) : head.Fits := by
  unfold freeHead at h
  split at h
  · cases h
    exact ⟨rfl, fun _ => hname⟩
  · cases h

theorem fits_objectHead {name member : Token} {head : Head}
    (h : reader.objectHead name member = .ok head) : head.Fits := by
  simp only [objectHead] at h
  split at h
  · cases h
    exact ⟨⟨_, rfl⟩, fun hform => by cases hform⟩
  · cases h

theorem fits_behaviorHead {name member function : Token} {head : Head}
    (h : reader.behaviorHead name member function = .ok head) : head.Fits := by
  simp only [behaviorHead] at h
  split at h
  · cases h
  · split at h
    · cases h
      exact ⟨⟨_, _, rfl⟩, fun hform => by cases hform⟩
    · cases h

theorem yieldsBlock_openCall {found : Except Failure Head}
    (h : ∀ {head}, found = .ok head → head.Fits) :
    reader.YieldsBlock (openCall found token groups) := by
  cases found with
  | ok head => exact ⟨Or.inl rfl, h rfl⟩
  | error failure => exact trivial

theorem yieldsBlock_stepOperand (htoken : token.text ≠ "") :
    reader.YieldsBlock (reader.stepOperand groups token) := by
  unfold stepOperand
  repeat' split
  · exact ⟨Or.inr (.constant _), trivial⟩
  · exact ⟨Or.inr (.operator _), trivial⟩
  · exact ⟨Or.inr (.number _), trivial⟩
  · exact trivial
  · exact ⟨Or.inr (.literal token), trivial⟩
  · exact trivial
  · exact ⟨Or.inr (.constant _), trivial⟩
  · exact trivial
  · exact ⟨Or.inl rfl, htoken⟩
  · exact trivial

theorem yieldsBlock_stepOperator : reader.YieldsBlock (reader.stepOperator groups token) := by
  unfold stepOperator
  repeat' split
  · exact ⟨Or.inr (.constant _), trivial⟩
  · exact ⟨Or.inr (.operator _), trivial⟩
  · exact ⟨Or.inr (.constant _), trivial⟩
  · exact trivial
  · exact trivial
  · exact trivial

theorem block_callEvents {head : Head} {opening closing : Token} {inner : List Token}
    {events : List Event} (hfits : head.Fits)
    (h : reader.callEvents head opening closing inner = .ok events) : reader.Block events := by
  obtain ⟨arguments, halign, rfl⟩ := Call.map_ok h
  exact .call hfits halign

theorem yieldsBlock_stepArguments {head : Head} {opening : Token} {depth : Nat}
    {inner : List Token} (hfits : head.Fits) :
    reader.YieldsBlock (reader.stepArguments head opening depth inner groups token) := by
  unfold stepArguments
  split
  · exact ⟨Or.inl rfl, hfits⟩
  · exact ⟨Or.inl rfl, hfits⟩
  · split
    · rename_i events hevents
      exact ⟨Or.inr (block_callEvents hfits hevents), trivial⟩
    · exact trivial
  · exact trivial
  · exact ⟨Or.inl rfl, hfits⟩

theorem yieldsBlock_step {stage : Stage} (htoken : token.text ≠ "") (h : Sound stage) :
    reader.YieldsBlock (reader.step stage groups token) := by
  cases stage with
  | operand => exact yieldsBlock_stepOperand htoken
  | operator => exact yieldsBlock_stepOperator
  | arguments head opening depth inner => exact yieldsBlock_stepArguments h
  | name head =>
    simp only [step]
    split
    · exact yieldsBlock_openCall (fits_freeHead h)
    · exact ⟨Or.inl rfl, trivial⟩
    · exact trivial
  | member head =>
    simp only [step]
    split
    · exact ⟨Or.inl rfl, trivial⟩
    · exact trivial
  | memberName head member =>
    simp only [step]
    split
    · exact yieldsBlock_openCall fits_objectHead
    · exact ⟨Or.inl rfl, trivial⟩
    · exact trivial
  | function head member =>
    simp only [step]
    split
    · exact ⟨Or.inl rfl, trivial⟩
    · exact trivial
  | functionName head member function =>
    simp only [step]
    split
    · exact yieldsBlock_openCall fits_behaviorHead
    · exact trivial

theorem blocks_walk {stage : Stage} {tokens : List Token}
    (htokens : ∀ token ∈ tokens, token.text ≠ "") (h : Sound stage) :
    reader.Blocks (reader.walk stage groups tokens).events := by
  induction tokens generalizing stage groups with
  | nil => exact .nil
  | cons token tokens ih =>
    have hyields : reader.YieldsBlock (reader.step stage groups token) :=
      yieldsBlock_step (htokens token List.mem_cons_self) h
    have hrest {next : Stage} {left : List Token} (hnext : Sound next) :
        reader.Blocks (reader.walk next left tokens).events :=
      ih (fun other hmem => htokens other (List.mem_cons_of_mem _ hmem)) hnext
    cases hstep : reader.step stage groups token with
    | next events next left =>
      rw [hstep] at hyields
      rw [walk_next hstep]
      obtain ⟨rfl | hblock, hnext⟩ := hyields
      · exact hrest hnext
      · exact .block hblock (hrest hnext)
    | stop failure =>
      simp only [walk, hstep]
      exact .nil

end Reader

/-- Every trace is made of blocks. -/
theorem blocks_ofExpression (scope : Scope) (kind : Expression.Kind) (e : Expression) :
    (Reader.ofExpression scope kind e).Blocks (ofExpression scope kind e).events := by
  unfold ofExpression
  simp only
  split
  · exact .nil
  · exact Reader.blocks_walk (fun token hmem => Token.text_ne_empty_of_mem_lexemesFrom hmem) trivial

namespace Reader

variable {reader : Reader}

theorem headed_of_block {call : Call} {block : List Event} (hblock : reader.Block block)
    (hmem : .call call ∈ block) : call.Headed := by
  cases hblock with
  | constant text | operator text | number text => cases List.mem_singleton.1 hmem
  | literal token =>
    cases List.mem_singleton.1 hmem
    exact ⟨[], _, rfl, rfl⟩
  | @call head written place arguments hfits halign =>
    rcases List.mem_append.1 hmem with hmem | hmem
    · obtain ⟨⟨parameter, argument⟩, -, hevent⟩ := List.mem_filterMap.1 hmem
      dsimp only at hevent
      split at hevent
      · obtain ⟨kind, -, hannounced⟩ := Option.map_eq_some_iff.1 hevent
        cases hannounced
      · cases hevent
    · cases List.mem_singleton.1 hmem
      obtain ⟨filled, hfilled, -, -⟩ := Call.align_spec halign
      refine ⟨head.given, filled.map Call.Argument.expression, hfits.takes, ?_⟩
      rw [Reader.call, hfilled, List.map_append, List.map_map]
      exact congrArg (· ++ _) (List.map_id head.given)

theorem headed_of_blocks {call : Call} {events : List Event} (hblocks : reader.Blocks events)
    (hmem : .call call ∈ events) : call.Headed := by
  induction hblocks with
  | nil => cases hmem
  | block hblock hrest ih =>
    rcases List.mem_append.1 hmem with hmem | hmem
    · exact headed_of_block hblock hmem
    · exact ih hmem

end Reader

/-- Each call that is read has the arguments of its head. -/
theorem headed_of_mem_ofExpression {scope : Scope} {kind : Expression.Kind} {e : Expression}
    {call : Call} (h : .call call ∈ (ofExpression scope kind e).events) : call.Headed :=
  Reader.headed_of_blocks (blocks_ofExpression scope kind e) h

end Trace
end EventFormula
