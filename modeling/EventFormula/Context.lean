import EventFormula.Script

/-! The context of the lowerings for one event. It remembers the fragments of the arguments that
were lowered since the outermost lowering began. Of two fragments for one kind and span the later
counts, and it is only used for the text that it was made from. -/

namespace EventFormula

structure Lowered where
  kind : Expression.Kind
  span : Span
  text : String
  code : String

structure Context where
  current : Option String := none
  /-- In order of first use. -/
  needed : List String := []
  depth : Nat := 0
  maxDepth : Nat := 64
  /-- The latest first. -/
  lowered : List Lowered := []

namespace Context

def defaultMaxDepth : Nat := 64

def fresh (current : Option String) (maxDepth : Option Nat) : Context where
  current := current.filter (· != "")
  maxDepth := maxDepth.getD defaultMaxDepth

def view (context : Context) : View :=
  ⟨context.current, context.needed, context.depth, context.maxDepth⟩

/-- An empty name means no object. -/
def setCurrent (context : Context) (object : Option String) : Context :=
  { context with current := object.filter (· != "") }

def isCurrent (context : Context) (object : String) : Bool := context.current == some object

def need (context : Context) (object : String) : Context :=
  if object ∈ context.needed then context
  else { context with needed := context.needed ++ [object] }

def enter (context : Context) : Context := { context with depth := context.depth + 1 }

def leave (context : Context) : Context := { context with depth := context.depth - 1 }

/-- How many levels are left below the lowerings that are going on. -/
def levels (context : Context) : Nat := context.maxDepth - context.depth

/-- The fragment that the expression was lowered to, if it is remembered. -/
def remembered? (context : Context) (kind : Expression.Kind) (e : Expression) : Option String :=
  match context.lowered.find? fun entry => entry.kind == kind && entry.span == e.span with
  | some entry => if entry.text = e.text then some entry.code else none
  | none => none

def remember (context : Context) (kind : Expression.Kind) (e : Expression) (code : String) :
    Context :=
  { context with lowered := ⟨kind, e.span, e.text, code⟩ :: context.lowered }

def forget (context : Context) : Context := { context with lowered := [] }

/-- A lowering has ended: the outermost one forgets all fragments, any other leaves its own. -/
def settle (context : Context) (kind : Expression.Kind) (e : Expression)
    (result : Except Failure String) : Context :=
  if context.depth = 0 then context.forget
  else
    match result with
    | .ok code => context.remember kind e code
    | .error _ => context

theorem need_eq (context : Context) (object : String) :
    context.need object = { context with
      needed := if object ∈ context.needed then context.needed
        else context.needed ++ [object] } := by
  unfold need
  split <;> rfl

theorem need_nodup {context : Context} (object : String) (h : context.needed.Nodup) :
    (context.need object).needed.Nodup := by
  unfold need
  split
  · exact h
  · rename_i hn
    simp only [List.nodup_append, h, List.nodup_cons, List.not_mem_nil, not_false_eq_true,
      List.nodup_nil, and_self, List.mem_singleton, true_and]
    rintro a ha b rfl rfl
    exact hn ha

theorem mem_need {context : Context} {object name : String} :
    name ∈ (context.need object).needed ↔ name ∈ context.needed ∨ name = object := by
  unfold need
  split
  · constructor
    · exact Or.inl
    · rintro (h | rfl) <;> assumption
  · simp

theorem leave_enter (context : Context) : context.enter.leave = context := by
  simp [enter, leave]

/-- Remembering a fragment leaves those of other expressions that can still be found. -/
theorem remembered?_remember_cases {context : Context} {kind other : Expression.Kind}
    {e f : Expression} {code found : String}
    (h : (context.remember kind e code).remembered? other f = some found) :
    (other = kind ∧ f = e ∧ found = code) ∨ context.remembered? other f = some found := by
  simp only [remembered?, remember, List.find?_cons] at h ⊢
  by_cases hkey : (kind == other && e.span == f.span) = true
  · obtain ⟨hkind, hspan⟩ := Bool.and_eq_true_iff.1 hkey
    simp only [hkey, Option.ite_none_right_eq_some, Option.some.injEq] at h
    obtain ⟨htext, hcode⟩ := h
    exact Or.inl ⟨(beq_iff_eq.1 hkind).symm,
      (Expression.eq_of_span_eq htext (beq_iff_eq.1 hspan)).symm, hcode.symm⟩
  · rw [Bool.eq_false_iff.2 hkey] at h
    exact Or.inr h

end Context
end EventFormula
