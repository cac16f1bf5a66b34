import EventFormula.Proofs.Target.Literals
import EventFormula.Proofs.Target.Recording
import EventFormula.Proofs.Trace.Nesting

/-!
# The code of a formula nests

The code is put together from parts of the formula as they were typed, names of the platform, quoted
names, and code that was lowered before. None of these opens what it does not close, so however the
calls are made, no quote of one part swallows the next. The main statement is `lower_wellNested`: in
the code of any formula literals are closed and parentheses match, provided that what the platform
brings in has neither parentheses nor quotes.
-/

namespace EventFormula.JavaScript

open Token (Nested Flat passes)

section Texts

theorem nested_append {first second : String} (hfirst : Nested first.toList)
    (hsecond : Nested second.toList) : Nested (first ++ second).toList := by
  rw [String.toList_append]
  exact hfirst.append hsecond

theorem nested_group {text : String} (h : Nested text.toList) :
    Nested ("(" ++ text ++ ")").toList := by
  simpa [String.toList_append] using h.group

/-- Text in parentheses behind other text, as in a call. -/
theorem nested_behind {opening text : String} {front : List Char}
    (hopening : opening.toList = front ++ ['(']) (hfront : Nested front)
    (htext : Nested text.toList) : Nested (opening ++ text ++ ")").toList := by
  have hshape : (opening ++ text ++ ")").toList = front ++ '(' :: (text.toList ++ [')']) := by
    rw [String.toList_append, String.toList_append, hopening, List.append_assoc, List.append_assoc]
    rfl
  rw [hshape]
  exact hfront.append htext.group

/-- A quoted text ends where its literal does. -/
theorem nested_quote (text : String) : Nested (quote text).toList := by
  intro depth
  have htail := Token.stringTail_escapeChars text.toList []
  have hliteral := Token.passes_of_closed depth (congrArg Prod.snd htail)
  have hlength : (Text.escapeChars text.toList ++ ['"']).length
      = (Text.escapeChars text.toList).length + 1 := List.length_append
  rw [htail, ← hlength, List.take_length] at hliteral
  have hopening : Token.pass (depth, .code) '"' = some (depth, .literal) := rfl
  rw [toList_quote, Token.passes_cons hopening]
  exact hliteral

/-- Codes of parameters with commas between them. -/
theorem nested_codes {codes : List String} (h : ∀ code ∈ codes, Nested code.toList) :
    Nested (", ".intercalate codes).toList := by
  induction codes with
  | nil => exact .nil
  | cons code codes ih =>
    obtain ⟨hcode, hothers⟩ := List.forall_mem_cons.1 h
    cases codes with
    | nil => exact hcode
    | cons next codes =>
      have hcomma : Flat ", ".toList := by decide
      rw [String.intercalate_cons_cons]
      exact nested_append (nested_append hcode hcomma.nested) (ih hothers)

theorem flat_numberCode {text : String} (h : Flat text.toList) :
    Flat (Fragment.numberCode text).toList := by
  unfold Fragment.numberCode
  split
  · exact h
  · rw [String.toList_append]
    exact h.append (by decide)

theorem nested_fallback (kind : Expression.Kind) : Nested kind.fallback.toList := by
  cases kind with
  | number =>
    have hflat : Flat "0".toList := by decide
    exact hflat.nested
  | text => exact nested_quote ""

theorem RuntimeList.flat_name (list : RuntimeList) : Flat list.name.toList := by
  rintro c hc hmem
  have hplain := list.plain c hc
  simp only [List.mem_cons, List.not_mem_nil, or_false] at hmem
  rcases hmem with rfl | rfl | rfl <;> cases hplain

theorem nested_toText {code : String} (h : Nested code.toList) :
    Nested ("(\"\" + (" ++ code ++ "))").toList := by
  have hshape : "(\"\" + (" ++ code ++ "))"
      = "(" ++ (quote "" ++ " + " ++ ("(" ++ code ++ ")")) ++ ")" := by
    apply String.toList_inj.1
    simp [String.toList_append, toList_quote, Text.escapeChars]
  have hplus : Flat " + ".toList := by decide
  rw [hshape]
  exact nested_group (nested_append (nested_append (nested_quote "") hplus.nested) (nested_group h))

theorem nested_toNumber {code : String} (h : Nested code.toList) :
    Nested ("parseFloat(" ++ code ++ ")").toList := by
  have hopening : "parseFloat(".toList = "parseFloat".toList ++ ['('] := by decide
  have hfront : Flat "parseFloat".toList := by decide
  exact nested_behind hopening hfront.nested h

/-- What follows the object in a call. -/
theorem nested_memberCall {behavior : Option String} {callName parameters : String}
    (hname : Flat callName.toList) (hparameters : Nested parameters.toList) :
    Nested (memberCall behavior callName parameters).toList := by
  have hbehavior : Nested (behavior.elim "" fun name =>
      ".getBehavior(" ++ quote name ++ ")").toList := by
    cases behavior with
    | none => exact .nil
    | some name =>
      have hopening : ".getBehavior(".toList = ".getBehavior".toList ++ ['('] := by decide
      have hfront : Flat ".getBehavior".toList := by decide
      exact nested_behind hopening hfront.nested (nested_quote name)
  have hpoint : Flat ".".toList := by decide
  have hempty : Nested "".toList := .nil
  exact nested_behind String.toList_append
    (nested_append (nested_append (nested_append hempty hbehavior) hpoint.nested) hname.nested)
    hparameters

/-- However the choice between calls is made, nothing is left open. -/
theorem Dispatch.nested_render {returns : Expression.Kind} {member : String}
    (hmember : Nested member.toList) (dispatch : Dispatch) :
    Nested (dispatch.render returns member).toList := by
  induction dispatch with
  | fallback => exact nested_fallback returns
  | call element =>
    have hindex : Flat element.index.render.toList := by
      cases element.index with
      | loop => decide
      | first => decide
    exact nested_append (nested_append element.list.flat_name.nested hindex.nested) hmember
  | ifEmpty list yes no ihyes ihno =>
    have hlength : Flat ".length === 0".toList := by decide
    have hthen : Flat " ? ".toList := by decide
    have helse : Flat " : ".toList := by decide
    have htest : Nested ("(" ++ (list.name ++ ".length === 0") ++ ")").toList :=
      nested_group (nested_append list.flat_name.nested hlength.nested)
    have hshape : (ifEmpty list yes no).render returns member
        = "(" ++ ("(" ++ (list.name ++ ".length === 0") ++ ")" ++ " ? "
          ++ yes.render returns member ++ " : " ++ no.render returns member) ++ ")" := by
      apply String.toList_inj.1
      simp [render, String.toList_append]
    rw [hshape]
    exact nested_group (nested_append (nested_append (nested_append (nested_append htest
      hthen.nested) ihyes) helse.nested) ihno)

end Texts

/-- If the events are in order, their code shifts the depth as they do. -/
def Shifts (events : List Event) (code : String) : Prop :=
  (∀ event ∈ events, event.Enclosed) →
    ∀ depth, passes (depth, .code) code.toList
      = (Event.shiftAll depth events).map (·, Token.Region.code)

theorem Shifts.cons {event : Event} {events : List Event} {piece code : String}
    (hpiece : event.Enclosed → ∀ depth, passes (depth, .code) piece.toList
      = (event.shift depth).map (·, Token.Region.code))
    (hcode : Shifts events code) : Shifts (event :: events) (piece ++ code) := by
  intro heach depth
  obtain ⟨hevent, hothers⟩ := List.forall_mem_cons.1 heach
  rw [String.toList_append, Token.passes_append, hpiece hevent, Event.shiftAll, List.foldlM_cons]
  cases event.shift depth with
  | none => rfl
  | some next => exact hcode hothers next

theorem passes_constant {text : String} (h : (Event.constant text).Enclosed) (depth : Nat) :
    passes (depth, .code) text.toList
      = ((Event.constant text).shift depth).map (·, Token.Region.code) := by
  rcases h with rfl | rfl | hflat
  · rfl
  · cases depth <;> rfl
  · rw [Event.shift_flat hflat]
    exact hflat.nested depth

/-- If the arguments suit the parameters, each of their codes is nested. -/
def AllNested (arguments : List Expression) (parameters : List Parameter) (codes : List String) :
    Prop :=
  List.Forall₂ Call.Suits parameters arguments → ∀ code ∈ codes, Nested code.toList

theorem AllNested.cons {argument : Expression} {arguments : List Expression}
    {parameters : List Parameter} {code : String} {codes : List String}
    (hfirst : (parameters.head?.elim .code Parameter.kind = .code → Nested argument.text.toList) →
      Nested code.toList)
    (hrest : AllNested arguments parameters.tail codes) :
    AllNested (argument :: arguments) parameters (code :: codes) := by
  rintro (_ | ⟨hargument, hothers⟩)
  exact List.forall_mem_cons.2 ⟨hfirst hargument, hrest hothers⟩

section Calls
variable {call : Call} {codes : List String}

theorem nested_free (hform : call.form = .free) (h : call.Enclosed)
    (hcodes : AllNested call.arguments call.callable.parameters codes) :
    Nested (call.callable.callName ++ "(" ++ ", ".intercalate codes ++ ")").toList := by
  have hgiven : call.form.Takes [] := by
    rw [hform]
    rfl
  exact nested_behind String.toList_append h.callName.nested
    (nested_codes (hcodes (h.suits_rest hgiven rfl)))

theorem nested_objects {object : Expression} {given rest : List Expression} (dispatch : Dispatch)
    (hgiven : call.form.Takes (object :: given))
    (harguments : call.arguments = object :: given ++ rest) (h : call.Enclosed)
    (hcodes : AllNested rest (call.callable.parameters.drop (given.length + 1)) codes) :
    Nested (dispatch.render call.returns (memberCall (given.head?.map Expression.text)
      call.callable.callName (", ".intercalate codes))).toList :=
  dispatch.nested_render (nested_memberCall h.callName
    (nested_codes (hcodes (h.suits_rest hgiven harguments))))

theorem nested_literal (argument : Option Expression) :
    Nested ((argument.map fun argument => quote argument.text).getD "").toList := by
  cases argument with
  | none => exact .nil
  | some argument => exact nested_quote argument.text

end Calls

variable {scope : Scope}

/-- The code of a formula is nested. -/
theorem Reads.Formula.nested (hplatform : scope.platform.Flat) {kind : Expression.Kind}
    {e : Expression} {code : String} {lists : List RuntimeList}
    (h : Reads.Formula scope kind e code lists) : Nested code.toList := by
  -- what is known of each part: events, calls, parameters and single arguments
  refine @Reads.Formula.rec scope (fun _ _ code _ _ => Nested code.toList)
    (fun events code _ _ => Shifts events code)
    (fun call code _ _ => call.Enclosed → Nested code.toList)
    (fun arguments parameters codes _ _ => AllNested arguments parameters codes)
    (fun argument kind code _ _ => (kind = .code → Nested argument.text.toList) →
      Nested code.toList)
    (fun _ _ code _ _ => Nested code.toList)
    ?read ?nil ?constant ?operator ?number ?argument ?call ?literal ?free ?objects ?toText
    ?toNumber ?none ?parameter ?formula ?name ?verbatim ?lowered ?fallback _ _ _ _ h
  case read =>
    intro kind e code lists hread _ hcode depth
    have htrace := Trace.wellNested_ofExpression hplatform hread
    rw [hcode htrace.each, htrace.matched]
    rfl
  case nil => exact fun _ depth => rfl
  case constant => exact fun text _ hcode => .cons passes_constant hcode
  case operator => exact fun text _ hcode => .cons (fun hevent => Flat.nested hevent) hcode
  case number =>
    exact fun text _ hcode => .cons (fun hevent => (flat_numberCode hevent).nested) hcode
  case argument =>
    exact fun kind e _ hcode heach => hcode (List.forall_mem_cons.1 heach).2
  case call => exact fun _ _ hcall hcode => .cons (fun hevent => hcall hevent) hcode
  case literal => exact fun _ _ _ _ _ => nested_literal _
  case free => exact fun hform _ _ hcodes hcall => nested_free hform hcall hcodes
  case objects =>
    exact fun dispatch hgiven harguments _ _ hcodes hcall =>
      nested_objects dispatch hgiven harguments hcall hcodes
  case toText => exact fun _ _ hvalue _ => nested_toText hvalue
  case toNumber => exact fun _ _ hvalue _ => nested_toNumber hvalue
  case none => exact fun _ _ code hmem => by cases hmem
  case parameter => exact fun _ _ hfirst hrest => .cons hfirst hrest
  case formula => exact fun _ _ hvalue _ => hvalue
  case name => exact fun _ _ => nested_quote _
  case verbatim => exact fun _ hsuits => hsuits rfl
  case lowered => exact fun _ hcode => hcode
  case fallback => exact fun kind _ => nested_fallback kind

/-- When a lowering succeeds, each literal of the code is closed, and its parentheses match: code
that the designer wrote for an argument stays between the parentheses of its call, and no quote of
one part swallows the next. -/
theorem lower_wellNested (scope : Scope) {kind : Expression.Kind} {e : Expression} {state : State}
    {code : String} (hplatform : scope.platform.Flat) (hidle : state.context.Idle)
    (hcode : ((generator scope).lower kind e state).1 = .ok code) : Token.WellNested code := by
  have hlower : Establishes (Generator.Kept (Accounted scope))
      ((generator scope).lowerWithin Context.remembered? state.context.levels kind e)
      (Generator.Owed (Accounted scope) kind e) :=
    Generator.establishes_lowerWithin (fun lower hlower => establishes_script hlower) _ kind e
  obtain ⟨-, -, howed⟩ := hlower state (Generator.kept_of_idle hidle)
  obtain ⟨-, lists, hreads, -⟩ :=
    howed ((generator scope).lower kind e state).2 (.refl _) code hcode
  exact Token.wellNested_of_nested (hreads.nested hplatform)

/-- `Run` takes code and more code, which is `here` if it is left out. `Foes` are an orc and an elf.
-/
def scopeOfCode : Scope where
  platform.functions.numeric := .ofList [("Run", {
    parameters := [{ kind := .code }, { kind := .code, optional := true, defaultValue := "here" }]
    callName := "run" })]
  platform.objects := .ofList [("Sprite", {
    functions.numeric := .ofList [("X", { callName := "getX" })] })]
  project.objects := [⟨"Orc", "Sprite", []⟩, ⟨"Elf", "Sprite", []⟩]
  project.groups := [⟨"Foes", ["Orc", "Elf"]⟩]
  layout := {}

/-- In `(Run(f(a, ")(")) + Foes.X()) * 2` an argument has parentheses of its own, and a literal with
parentheses that do not match. -/
theorem lower_wellNested_code :
    let formula := "(Run(f(a, \")(\")) + Foes.X()) * 2"
    let code := "(run(f(a, \")(\"), here) + ((ElfObjects.length === 0) ? ((OrcObjects.length === 0)"
      ++ " ? 0 : OrcObjects[0].getX()) : ElfObjects[0].getX())) * 2.0"
    scopeOfCode.platform.Flat ∧ (State.initial 3).context.Idle ∧
      ((generator scopeOfCode).lower .number (.ofText formula) (.initial 3)).1 = .ok code ∧
      Token.WellNested code := by
  intro formula code
  have hplatform : scopeOfCode.platform.Flat := by decide +kernel
  have hidle : (State.initial 3).context.Idle := Context.idle_fresh none (some 3)
  have hcode : ((generator scopeOfCode).lower .number (.ofText formula) (.initial 3)).1
      = .ok code :=
    Except.eq_ok_of_toOption (by decide +kernel)
  exact ⟨hplatform, hidle, hcode, lower_wellNested scopeOfCode hplatform hidle hcode⟩

end EventFormula.JavaScript
