import EventFormula.Proofs.Lowering.Pieces

/-!
# Calls on whichever object there is

In JavaScript a call on all objects that a name stands for is one expression: a choice between lists
that may be empty at run time. `Dispatch` is the syntax of such expressions, `render` their text and
`evaluate` their meaning for lists of any lengths; a text is that of one dispatch only. The main
statement, `callCode_dispatches`, says what the code of such a call does: it makes one call on the
current object if the name can stand for that, else one on the first instance of the last object
that has any, and without such an object it is the fallback.
-/

namespace EventFormula.JavaScript

/-- The characters that the names of lists are made of. -/
def isListChar (c : Char) : Bool := c.isAlphanum || c == '_'

/-- The array of the instances of an object. -/
structure RuntimeList where
  name : String
  plain : ∀ c ∈ name.toList, isListChar c = true
deriving DecidableEq

inductive Index where
  /-- The instance that the event goes through. -/
  | loop
  | first
deriving DecidableEq

def Index.render : Index → String
  | loop => "[i]"
  | first => "[0]"

structure Element where
  list : RuntimeList
  index : Index
deriving DecidableEq

/-- A choice between calls on elements. -/
inductive Dispatch where
  /-- The fallback of what the call returns. -/
  | fallback
  | call (element : Element)
  | ifEmpty (list : RuntimeList) (yes no : Dispatch)

/-- What a dispatch comes to. -/
inductive Value where
  | fallback
  /-- What the call on the element returns. -/
  | result (element : Element)

theorem isListChar_of_mem_mangleChar {c d : Char} (h : d ∈ mangleChar c) : isListChar d = true := by
  unfold mangleChar at h
  split at h
  · rename_i hc
    rw [List.mem_singleton.1 h, isListChar, hc, Bool.true_or]
  · rcases List.mem_cons.1 h with rfl | h
    · rfl
    · have hdigit : d.isDigit = true := Nat.isDigit_of_mem_toDigits (by decide) (by decide) h
      rw [isListChar, Char.isAlphanum, hdigit, Bool.or_true, Bool.true_or]

/-- The list of the instances of an object. -/
def RuntimeList.of (object : String) : RuntimeList where
  name := objectsList object
  plain c h := by
    rw [objectsList, String.toList_ofList] at h
    rcases List.mem_append.1 h with h | h
    · obtain ⟨d, -, hd⟩ := List.mem_flatMap.1 h
      exact isListChar_of_mem_mangleChar hd
    · have hword : ∀ c ∈ "Objects".toList, isListChar c = true :=
        List.all_eq_true.1 (by decide +kernel)
      exact hword c h

namespace Element

def render (element : Element) : String := element.list.name ++ element.index.render

/-- The element at which the event is, of the list of an object. -/
def loop (object : String) : Element := ⟨.of object, .loop⟩

/-- The first instance of an object. -/
def first (object : String) : Element := ⟨.of object, .first⟩

end Element

namespace Dispatch

/-- The text of a dispatch. What a call returns settles the fallback; `member` is what follows the
element in each call. -/
def render (returns : Expression.Kind) (member : String) : Dispatch → String
  | fallback => returns.fallback
  | call element => element.render ++ member
  | ifEmpty list yes no =>
    "((" ++ list.name ++ ".length === 0) ? " ++ yes.render returns member ++ " : "
      ++ no.render returns member ++ ")"

/-- The calls that are made, in order, and what the dispatch comes to. -/
def evaluate (length : RuntimeList → Nat) : Dispatch → List Element × Value
  | fallback => ([], .fallback)
  | call element => ([element], .result element)
  | ifEmpty list yes no => if length list = 0 then yes.evaluate length else no.evaluate length

/-- The elements on which a dispatch can make a call. -/
def elements : Dispatch → List Element
  | fallback => []
  | call element => [element]
  | ifEmpty _ yes no => yes.elements ++ no.elements

end Dispatch

section Reading
variable {returns : Expression.Kind} {member : String}

/-- What can follow a dispatch in the text of another. -/
def Stops (rest : List Char) : Prop := ∀ c ∈ rest.head?, c = ' ' ∨ c = ')'

theorem isListChar_of_stops {rest : List Char} (h : Stops rest) :
    ∀ c ∈ rest.head?, isListChar c = false := by
  intro c hc
  rcases h c hc with rfl | rfl <;> decide

/-- A run of characters of one sort ends where another begins. -/
theorem run_unique {α : Type} {p : α → Bool} {first second rest other : List α}
    (hfirst : ∀ a ∈ first, p a = true) (hsecond : ∀ a ∈ second, p a = true)
    (hrest : ∀ a ∈ rest.head?, p a = false) (hother : ∀ a ∈ other.head?, p a = false)
    (h : first ++ rest = second ++ other) : first = second ∧ rest = other := by
  have stops {tail : List α} (htail : ∀ a ∈ tail.head?, p a = false) : tail.takeWhile p = [] := by
    cases tail with
    | nil => rfl
    | cons a tail => exact List.takeWhile_cons_of_neg (by simp [htail a rfl])
  have htake := congrArg (List.takeWhile p) h
  rw [List.takeWhile_append_of_pos hfirst, List.takeWhile_append_of_pos hsecond, stops hrest,
    stops hother, List.append_nil, List.append_nil] at htake
  subst htake
  exact ⟨rfl, List.append_cancel_left h⟩

/-- Where the name of a list ends, another name has to end. -/
theorem RuntimeList.name_unique {first second : RuntimeList} {rest other : List Char}
    (hrest : ∀ c ∈ rest.head?, isListChar c = false)
    (hother : ∀ c ∈ other.head?, isListChar c = false)
    (h : first.name.toList ++ rest = second.name.toList ++ other) :
    first = second ∧ rest = other := by
  obtain ⟨hname, htail⟩ := run_unique first.plain second.plain hrest hother h
  refine ⟨?_, htail⟩
  cases first
  cases second
  cases String.toList_injective hname
  rfl

theorem Index.toList_render (index : Index) :
    ∃ c, index.render.toList = ['[', c, ']'] ∧ (c = 'i' ↔ index = .loop) := by
  cases index
  · exact ⟨'i', rfl, by decide⟩
  · exact ⟨'0', rfl, by decide⟩

theorem Index.not_plain (index : Index) (tail : List Char) :
    ∀ c ∈ (index.render.toList ++ tail).head?, isListChar c = false := by
  intro c hc
  obtain ⟨d, hd, -⟩ := index.toList_render
  rw [hd] at hc
  cases hc
  decide

theorem Element.toList_render (element : Element) (tail : List Char) :
    element.render.toList ++ tail
      = element.list.name.toList ++ (element.index.render.toList ++ tail) := by
  rw [render, String.toList_append, List.append_assoc]

theorem Element.render_unique {first second : Element} {rest other : List Char}
    (h : first.render.toList ++ rest = second.render.toList ++ other) :
    first = second ∧ rest = other := by
  rw [toList_render, toList_render] at h
  obtain ⟨hlist, htail⟩ :=
    RuntimeList.name_unique (Index.not_plain _ _) (Index.not_plain _ _) h
  obtain ⟨c, hc, hloop⟩ := first.index.toList_render
  obtain ⟨d, hd, hother⟩ := second.index.toList_render
  rw [hc, hd] at htail
  cases htail
  refine ⟨?_, rfl⟩
  obtain ⟨list, index⟩ := first
  obtain ⟨list', index'⟩ := second
  cases hlist
  cases index <;> cases index' <;> simp_all

/-- A call does not start like a choice. -/
theorem Element.render_ne_choice (element : Element) (tail rest : List Char) :
    element.render.toList ++ tail ≠ '(' :: rest := by
  intro h
  rw [toList_render] at h
  have hrest : ∀ c ∈ ('(' :: rest).head?, isListChar c = false := by
    intro c hc
    cases hc
    decide
  obtain ⟨-, htail⟩ := run_unique element.list.plain (fun c hc => absurd hc List.not_mem_nil)
    (element.index.not_plain tail) hrest h
  obtain ⟨d, hd, -⟩ := element.index.toList_render
  rw [hd] at htail
  cases htail

/-- Nor can what starts with a fallback be a call, whatever stops there. -/
theorem Element.render_ne_fallback (element : Element) (tail : List Char) {rest : List Char}
    (hrest : Stops rest) : element.render.toList ++ tail ≠ returns.fallback.toList ++ rest := by
  intro h
  rw [toList_render] at h
  obtain ⟨d, hd, -⟩ := element.index.toList_render
  cases returns with
  | number =>
    have hzero : ∀ c ∈ ['0'], isListChar c = true := List.forall_mem_singleton.2 rfl
    obtain ⟨-, htail⟩ := run_unique element.list.plain hzero (element.index.not_plain tail)
      (isListChar_of_stops hrest) h
    rw [← htail, hd] at hrest
    rcases hrest '[' rfl with h | h <;> exact absurd h (by decide)
  | text =>
    have hquote : ∀ c ∈ ('"' :: '"' :: rest).head?, isListChar c = false := by
      intro c hc
      cases hc
      decide
    obtain ⟨-, htail⟩ := run_unique element.list.plain (fun c hc => absurd hc List.not_mem_nil)
      (element.index.not_plain tail) hquote h
    rw [hd] at htail
    cases htail

namespace Dispatch

theorem toList_ifEmpty (list : RuntimeList) (yes no : Dispatch) (rest : List Char) :
    ((ifEmpty list yes no).render returns member).toList ++ rest
      = '(' :: '(' :: (list.name.toList ++ (".length === 0) ? ".toList
        ++ ((yes.render returns member).toList ++ (" : ".toList
          ++ ((no.render returns member).toList ++ ')' :: rest))))) := by
  simp only [render, String.toList_append, List.append_assoc]
  rfl

/-- A text is that of one dispatch only. -/
theorem render_unique {first second : Dispatch} {rest other : List Char} (hrest : Stops rest)
    (hother : Stops other)
    (h : (first.render returns member).toList ++ rest
      = (second.render returns member).toList ++ other) : first = second ∧ rest = other := by
  have hcall (element : Element) (tail : List Char) :
      ((call element).render returns member).toList ++ tail
        = element.render.toList ++ (member.toList ++ tail) := by
    rw [render, String.toList_append, List.append_assoc]
  have hchoice {tail tail' : List Char} : returns.fallback.toList ++ tail ≠ '(' :: tail' := by
    cases returns <;> exact fun h => absurd (List.cons.inj h).1 (by decide)
  induction first generalizing second rest other with
  | fallback =>
    cases second with
    | fallback => exact ⟨rfl, List.append_cancel_left h⟩
    | call element =>
      rw [hcall] at h
      exact absurd h.symm (element.render_ne_fallback _ hrest)
    | ifEmpty list yes no =>
      rw [toList_ifEmpty] at h
      exact absurd h hchoice
  | call element =>
    rw [hcall] at h
    cases second with
    | fallback => exact absurd h (element.render_ne_fallback _ hother)
    | call element' =>
      rw [hcall] at h
      obtain ⟨rfl, htail⟩ := Element.render_unique h
      exact ⟨rfl, List.append_cancel_left htail⟩
    | ifEmpty list yes no =>
      rw [toList_ifEmpty] at h
      exact absurd h (element.render_ne_choice _ _)
  | ifEmpty list yes no ihyes ihno =>
    rw [toList_ifEmpty] at h
    cases second with
    | fallback => exact absurd h.symm hchoice
    | call element =>
      rw [hcall] at h
      exact absurd h.symm (element.render_ne_choice _ _)
    | ifEmpty list' yes' no' =>
      rw [toList_ifEmpty] at h
      have hdot (tail : List Char) :
          ∀ c ∈ (".length === 0) ? ".toList ++ tail).head?, isListChar c = false := by
        intro c hc
        cases hc
        decide
      have hcolon (tail : List Char) : Stops (" : ".toList ++ tail) := by
        intro c hc
        cases hc
        exact Or.inl rfl
      have hclose (tail : List Char) : Stops (')' :: tail) := by
        intro c hc
        cases hc
        exact Or.inr rfl
      obtain ⟨rfl, hlist⟩ := RuntimeList.name_unique (hdot _) (hdot _)
        (List.cons.inj (List.cons.inj h).2).2
      obtain ⟨rfl, hyes⟩ := ihyes (hcolon _) (hcolon _) (List.append_cancel_left hlist)
      obtain ⟨rfl, hno⟩ := ihno (hclose _) (hclose _) (List.append_cancel_left hyes)
      exact ⟨rfl, (List.cons.inj hno).2⟩

theorem render_injective (returns : Expression.Kind) (member : String) :
    Function.Injective (render returns member) := by
  intro first second h
  have hnil : Stops [] := fun c hc => by cases hc
  exact (render_unique hnil hnil (congrArg (·.toList ++ []) h)).1

end Dispatch

end Reading

section Choices
variable {scope : Scope} {current : Option String} {objects : List String} {otherwise : Dispatch}

variable (current) in
/-- The choice between calls on objects, each with the one before it as its alternative. The call on
the current object leaves no choice. -/
def choices (objects : List String) (otherwise : Dispatch) : Dispatch :=
  objects.foldl (fun otherwise object =>
    if current = some object then .call (.loop object)
    else .ifEmpty (.of object) otherwise (.call (.first object))) otherwise

theorem callOn_eq (element : String) (access : Access) :
    callOn element access = element ++ callOn "" access := by
  simp only [callOn, String.empty_append, String.append_assoc]

/-- Calls that differ in their objects alone are one dispatch. -/
theorem alternatives_render {returns : Expression.Kind} {member : String} {accesses : List Access}
    (hmember : ∀ access ∈ accesses, callOn "" access = member) (otherwise : Dispatch) :
    alternatives current accesses (otherwise.render returns member)
      = (choices current (accesses.map Access.object) otherwise).render returns member := by
  induction accesses generalizing otherwise with
  | nil => rfl
  | cons access accesses ih =>
    obtain ⟨hfirst, hrest⟩ := List.forall_mem_cons.1 hmember
    have hcurrent : currentCall access
        = (Dispatch.call (.loop access.object)).render returns member := by
      rw [currentCall, callOn_eq, hfirst]
      rfl
    have hother : otherCall access (otherwise.render returns member)
        = (Dispatch.ifEmpty (.of access.object) otherwise
          (.call (.first access.object))).render returns member := by
      rw [otherCall, callOn_eq, hfirst]
      rfl
    rw [alternatives, List.foldl_cons, List.map_cons, choices, List.foldl_cons]
    split
    · rw [hcurrent]
      exact ih hrest _
    · rw [hother]
      exact ih hrest _

theorem alternatives_eq_render {returns : Expression.Kind} {member : String}
    {access : String → Access} (hobject : ∀ object, (access object).object = object)
    (hmember : ∀ object, callOn "" (access object) = member) (objects : List String)
    (otherwise : Dispatch) :
    alternatives current (objects.map access) (otherwise.render returns member)
      = (choices current objects otherwise).render returns member := by
  have hobjects : (objects.map access).map Access.object = objects := by
    rw [List.map_map]
    exact (List.map_congr_left fun object _ => hobject object).trans (List.map_id objects)
  have hmembers : ∀ made ∈ objects.map access, callOn "" made = member := by
    intro made hmem
    obtain ⟨object, -, rfl⟩ := List.mem_map.1 hmem
    exact hmember object
  rw [alternatives_render hmembers otherwise, hobjects]

/-- Objects without instances leave the alternative. -/
theorem evaluate_choices_of_empty {length : RuntimeList → Nat}
    (hcurrent : ∀ object ∈ objects, current ≠ some object)
    (hempty : ∀ object ∈ objects, length (.of object) = 0) :
    (choices current objects otherwise).evaluate length = otherwise.evaluate length := by
  induction objects generalizing otherwise with
  | nil => rfl
  | cons object objects ih =>
    obtain ⟨hother, hothers⟩ := List.forall_mem_cons.1 hcurrent
    obtain ⟨hfirst, hrest⟩ := List.forall_mem_cons.1 hempty
    rw [choices, List.foldl_cons, if_neg hother]
    refine (ih hothers hrest).trans ?_
    rw [Dispatch.evaluate, if_pos hfirst]

/-- Of the objects with instances the last one is called. -/
theorem evaluate_choices_of_last {length : RuntimeList → Nat} {before after : List String}
    {object : String} (hcurrent : ∀ other ∈ object :: after, current ≠ some other)
    (hlast : length (.of object) ≠ 0) (hempty : ∀ other ∈ after, length (.of other) = 0) :
    (choices current (before ++ object :: after) otherwise).evaluate length
      = ([.first object], .result (.first object)) := by
  obtain ⟨hother, hothers⟩ := List.forall_mem_cons.1 hcurrent
  rw [choices, List.foldl_append, List.foldl_cons, if_neg hother]
  refine (evaluate_choices_of_empty hothers hempty).trans ?_
  rw [Dispatch.evaluate, if_neg hlast]
  rfl

theorem mem_elements_choices {element : Element}
    (h : element ∈ (choices current objects otherwise).elements) :
    element ∈ otherwise.elements ∨ ∃ object ∈ objects,
      element = .first object ∨ (current = some object ∧ element = .loop object) := by
  induction objects generalizing otherwise with
  | nil => exact Or.inl h
  | cons object objects ih =>
    rw [choices, List.foldl_cons] at h
    rcases ih h with h | ⟨other, hmem, hother⟩
    · split at h
      · rename_i hcurrent
        refine Or.inr ⟨object, List.mem_cons_self, Or.inr ⟨hcurrent, ?_⟩⟩
        exact List.mem_singleton.1 h
      · rcases List.mem_append.1 h with h | h
        · exact Or.inl h
        · exact Or.inr ⟨object, List.mem_cons_self, Or.inl (List.mem_singleton.1 h)⟩
    · exact Or.inr ⟨other, List.mem_cons_of_mem _ hmem, hother⟩

variable (scope current) in
/-- What a call on the objects that `name` stands for has to do at run time, whatever the lengths of
the lists are. -/
structure Dispatches (name : String) (dispatch : Dispatch) : Prop where
  /-- The current object is called where the event is, if it is a candidate. -/
  picked : ∀ object length, current = some object → object ∈ candidates scope name →
    dispatch.evaluate length = ([.loop object], .result (.loop object))
  /-- Else it is the last object with instances. -/
  last : ∀ before object after length, (∀ object ∈ candidates scope name, current ≠ some object) →
    expand scope name current = before ++ object :: after → length (.of object) ≠ 0 →
    (∀ other ∈ after, length (.of other) = 0) →
    dispatch.evaluate length = ([.first object], .result (.first object))
  /-- Without instances nothing is called. -/
  fallback : ∀ length, (∀ object ∈ candidates scope name, current ≠ some object) →
    (∀ object ∈ expand scope name current, length (.of object) = 0) →
    dispatch.evaluate length = ([], .fallback)
  /-- No other object is ever called where the event is. -/
  loop : ∀ element ∈ dispatch.elements, element.index = .loop →
    ∃ object ∈ candidates scope name, current = some object ∧ element.list = .of object

theorem expand_of_current {name object : String} (h : object ∈ candidates scope name) :
    expand scope name (some object) = [object] := by
  simp only [expand, h, if_true]

theorem candidate_of_mem_expand {name object : String} (h : object ∈ expand scope name current) :
    object ∈ candidates scope name := by
  have hdeclared (h : object ∈ ((candidates scope name).filter scope.hasObject).eraseDups) :
      object ∈ candidates scope name := (List.mem_filter.1 (List.mem_eraseDups.1 h)).1
  cases current with
  | none => exact hdeclared h
  | some other =>
    simp only [expand] at h
    split at h
    · rename_i hother
      rwa [List.mem_singleton.1 h]
    · exact hdeclared h

/-- The choice between the objects that a name stands for does what it has to. -/
theorem dispatches_choices (scope : Scope) (current : Option String) (name : String) :
    Dispatches scope current name (choices current (expand scope name current) .fallback) where
  picked object length hcurrent hcandidate := by
    rw [hcurrent, expand_of_current hcandidate, choices, List.foldl_cons, if_pos rfl]
    rfl
  last before object after length hcurrent hexpand hlast hempty := by
    have hothers : ∀ other ∈ object :: after, current ≠ some other := by
      intro other hmem
      have hexpanded : other ∈ expand scope name current := by
        rw [hexpand]
        exact List.mem_append_right _ hmem
      exact hcurrent other (candidate_of_mem_expand hexpanded)
    rw [hexpand]
    exact evaluate_choices_of_last hothers hlast hempty
  fallback length hcurrent hempty :=
    evaluate_choices_of_empty (fun _ hmem => hcurrent _ (candidate_of_mem_expand hmem)) hempty
  loop element hmem hindex := by
    rcases mem_elements_choices hmem with hnone | ⟨object, hexpanded, rfl | ⟨hcurrent, rfl⟩⟩
    · cases hnone
    · cases hindex
    · exact ⟨object, candidate_of_mem_expand hexpanded, hcurrent, rfl⟩

end Choices

section Runs
variable {scope : Scope} {hooks : Table Hook}
  {lower : Expression.Kind → Expression → StateM State (Except Failure String)}

/-- The generator for JavaScript with hooks of any kind. -/
def generatorWith (scope : Scope) (hooks : Table Hook) : Generator := ⟨scope, target scope, hooks⟩

/-- Including a file leaves the context alone. -/
theorem context_requireFile (generator : Generator) (file : Option String) (state : State) :
    ((Generator.requireFile file).run (generator.handler lower) state).2.context
      = state.context := by
  unfold Generator.requireFile
  split
  · split <;> rfl
  · rfl

theorem run_foldAccesses (output : String) (accesses : List Access) (state : State) :
    (((generatorWith scope hooks).foldAccesses output accesses).run
        ((generatorWith scope hooks).handler lower) state).1
      = alternatives state.context.current accesses output := by
  induction accesses generalizing output state with
  | nil => rfl
  | cons access accesses ih =>
    rw [Generator.foldAccesses, Script.run_then, Script.run_then, Script.run_then]
    -- what is needed and included for the access leaves the current object as it is
    generalize hmiddle : ((Generator.requireFile (access.info.bind TypeInfo.includeFile)).run
      ((generatorWith scope hooks).handler lower) ((Script.need access.object).run
        ((generatorWith scope hooks).handler lower) state).2).2 = middle
    have hcurrent : middle.context.current = state.context.current := by
      rw [← hmiddle, context_requireFile]
      show (state.context.need access.object).current = _
      rw [Context.need_eq]
    have hview : Script.view.run ((generatorWith scope hooks).handler lower) middle
        = (middle.context.view, middle) := rfl
    rw [hview]
    simp only [Context.view, hcurrent, alternatives, List.foldl_cons]
    split
    · exact (ih (currentCall access) middle).trans (by rw [hcurrent]; rfl)
    · exact (ih (otherCall access output) middle).trans (by rw [hcurrent]; rfl)

theorem run_accessCode (name : String) (access : String → Access) (returns : Expression.Kind)
    (state : State) :
    (((generatorWith scope hooks).accessCode name access returns).run
        ((generatorWith scope hooks).handler lower) state).1
      = alternatives state.context.current
        ((expand scope name state.context.current).map access) returns.fallback := by
  have hview : Script.view.run ((generatorWith scope hooks).handler lower) state
      = (state.context.view, state) := rfl
  rw [Generator.accessCode, Script.run_then, hview, run_foldAccesses]
  rfl

/-- What is carried out before the calls on objects: a file is included and the parameters get their
codes. The head of the call gives `taken` of its arguments, and `rest` are the others. -/
def preparation (generator : Generator) (callable : Callable) (taken : Nat)
    (rest : List Expression) : Script String := do
  Generator.requireFile callable.includeFile
  generator.parametersCode rest (callable.parameters.drop taken)

/-- What follows the object in a call on it, or on one of its behaviors. -/
def memberCall (behavior : Option String) (callName parameters : String) : String :=
  callOn "" ⟨"", behavior, none, callName, parameters⟩

/-- Calls on objects and on behaviors go the same way: after the preparation comes one access for
each object. -/
theorem callCode_eq {generator : Generator} {call : Call} {object : Expression}
    {given rest : List Expression} (hgiven : call.form.Takes (object :: given))
    (harguments : call.arguments = object :: given ++ rest)
    (hhook : generator.hookOf call.callable = none) :
    ∃ access : String → String → Access,
      generator.callCode call = (preparation generator call.callable (given.length + 1) rest >>=
          fun parameters => generator.accessCode object.text (access parameters) call.returns) ∧
        (∀ parameters target, (access parameters target).object = target) ∧
        ∀ parameters target, callOn "" (access parameters target)
          = memberCall (given.head?.map Expression.text) call.callable.callName parameters := by
  let scope := generator.scope
  cases hform : call.form with
  | free =>
    rw [hform] at hgiven
    cases hgiven
  | object =>
    rw [hform] at hgiven
    obtain ⟨_, heq⟩ := hgiven
    cases heq
    refine ⟨fun parameters target =>
      ⟨target, none, scope.platform.objectType? (scope.typeOfObject target),
        call.callable.callName, parameters⟩, ?_, fun _ _ => rfl, fun _ _ => rfl⟩
    simp only [Generator.callCode, hform, Generator.objectCall, harguments, List.cons_append,
      List.nil_append, hhook]
    exact (Script.bind_assoc ..).symm
  | behavior =>
    rw [hform] at hgiven
    obtain ⟨_, behavior, heq⟩ := hgiven
    cases heq
    refine ⟨fun parameters target =>
      ⟨target, some behavior.text,
        scope.platform.behaviorType? (scope.typeOfBehavior behavior.text),
        call.callable.callName, parameters⟩, ?_, fun _ _ => rfl, fun _ _ => rfl⟩
    simp only [Generator.callCode, hform, Generator.behaviorCall, harguments, List.cons_append,
      List.nil_append, hhook]
    exact (Script.bind_assoc ..).symm

/-- The code of a call on an object or a group, or on a behavior of it, is the text of one dispatch,
which does what it has to for the object that is current once the parameters have their codes. -/
theorem callCode_dispatches (scope : Scope) (hooks : Table Hook)
    (lower : Expression.Kind → Expression → StateM State (Except Failure String)) (state : State)
    {call : Call} {object : Expression} {given rest : List Expression}
    (hgiven : call.form.Takes (object :: given))
    (harguments : call.arguments = object :: given ++ rest)
    (hhook : (generatorWith scope hooks).hookOf call.callable = none) :
    let handler := (generatorWith scope hooks).handler lower
    let prepared := (preparation (generatorWith scope hooks) call.callable (given.length + 1)
      rest).run handler state
    let member := memberCall (given.head?.map Expression.text) call.callable.callName prepared.1
    ∃ dispatch : Dispatch,
      (((generatorWith scope hooks).callCode call).run handler state).1
          = dispatch.render call.returns member ∧
        (∀ other : Dispatch, other.render call.returns member
            = dispatch.render call.returns member → other = dispatch) ∧
        Dispatches scope prepared.2.context.current object.text dispatch := by
  intro handler prepared member
  refine ⟨choices prepared.2.context.current
    (expand scope object.text prepared.2.context.current) .fallback, ?_,
    fun other h => Dispatch.render_injective _ _ h, dispatches_choices ..⟩
  obtain ⟨access, hcode, hobject, hmember⟩ := callCode_eq hgiven harguments hhook
  rw [hcode, Script.run_then, run_accessCode]
  exact alternatives_eq_render (hobject _) (hmember _) _ .fallback

end Runs

/-- A group `G` of the objects `A` and `B`. -/
def scopeOfGroup : Scope where
  platform := {}
  project.objects := [⟨"A", "", []⟩, ⟨"B", "", []⟩]
  project.groups := [⟨"G", ["A", "B"]⟩]
  layout := {}

/-- The call `G.X(7)`. -/
def callOnGroup : Call where
  form := .object
  returns := .number
  function := "X"
  arguments := [.ofText "G", .ofText "7"]
  callable := { parameters := [{ kind := .object }, { kind := .number }], callName := "getX" }

/-- Nothing has picked an object of the group, so `B` is called if it has an instance. -/
theorem callCode_dispatches_group :
    callOnGroup.form.Takes [.ofText "G"] ∧
      callOnGroup.arguments = [.ofText "G"] ++ [.ofText "7"] ∧
      (generator scopeOfGroup).hookOf callOnGroup.callable = none ∧
      ((generator scopeOfGroup).perform ((generator scopeOfGroup).callCode callOnGroup) {}).1
        = "((BObjects.length === 0) ? ((AObjects.length === 0) ? 0 : AObjects[0].getX(7.0)) : "
          ++ "BObjects[0].getX(7.0))" ∧
      ∃ dispatch : Dispatch,
        ((generator scopeOfGroup).perform ((generator scopeOfGroup).callCode callOnGroup) {}).1
          = dispatch.render .number ".getX(7.0)" ∧
        ∀ length, length (.of "B") ≠ 0 →
          dispatch.evaluate length = ([.first "B"], .result (.first "B")) := by
  have hgiven : callOnGroup.form.Takes [.ofText "G"] := ⟨_, rfl⟩
  have harguments : callOnGroup.arguments = [.ofText "G"] ++ [.ofText "7"] := rfl
  have hhook : (generator scopeOfGroup).hookOf callOnGroup.callable = none := rfl
  obtain ⟨dispatch, hcode, -, hdispatch⟩ := callCode_dispatches scopeOfGroup hooks
    (generator scopeOfGroup).lower {} hgiven harguments hhook
  have hparameters : ((preparation (generatorWith scopeOfGroup hooks) callOnGroup.callable 1
      [.ofText "7"]).run ((generatorWith scopeOfGroup hooks).handler
        (generator scopeOfGroup).lower) {}).1 = "7.0" := by
    decide +kernel
  have hcurrent : ((preparation (generatorWith scopeOfGroup hooks) callOnGroup.callable 1
      [.ofText "7"]).run ((generatorWith scopeOfGroup hooks).handler
        (generator scopeOfGroup).lower) {}).2.context.current = none := by
    decide +kernel
  simp only [List.length_nil, Nat.zero_add, hparameters, hcurrent] at hcode hdispatch
  refine ⟨hgiven, harguments, hhook, by decide +kernel, dispatch, hcode, ?_⟩
  intro length hlength
  refine hdispatch.last ["A"] "B" [] length (fun _ _ h => by cases h) rfl hlength ?_
  intro other hmem
  cases hmem

end EventFormula.JavaScript
