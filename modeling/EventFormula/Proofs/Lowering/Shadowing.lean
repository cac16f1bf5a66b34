import EventFormula.Proofs.Target.Dispatch

/-!
# Hidden declarations

What a layout declares hides the project's objects and groups of the same name. A formula sees a
scope through few lookups, so scopes in which these agree lower it alike. The main statement,
`lower_of_removes`, takes a hidden declaration away: every lookup of an object or a group and every
expansion stays, and so does each lowering, provided that the behaviors of a hidden object have
their types without it. That has to be asked for, since the lookup of a behavior goes through all
objects, hidden ones too.
-/

namespace EventFormula

/-- One project is the other without an object or a group that the layout hides; with it go the
behaviors `lost`. -/
inductive Layout.Removes (layout : Layout) :
    (project smaller : Project) → (lost : List BehaviorDecl) → Prop
  | object {project : Project} {before after : List ObjectDecl} {hidden : ObjectDecl}
      (hobjects : project.objects = before ++ hidden :: after)
      (hhidden : (layout.object? hidden.name).isSome) :
      layout.Removes project { project with objects := before ++ after } hidden.behaviors
  | group {project : Project} {before after : List ObjectGroup} {hidden : ObjectGroup}
      (hgroups : project.groups = before ++ hidden :: after)
      (hhidden : (layout.group? hidden.name).isSome) :
      layout.Removes project { project with groups := before ++ after } []

/-- Scopes that a formula cannot tell apart. -/
structure Scope.Alike (first second : Scope) : Prop where
  platform : first.platform = second.platform
  object? : first.object? = second.object?
  group? : first.group? = second.group?
  typeOfBehavior : first.typeOfBehavior = second.typeOfBehavior

section Lookups
variable {layout : Layout} {project smaller : Project} {lost : List BehaviorDecl}

/-- A hidden entry is not what a lookup finds behind the one that hides it. -/
theorem or_find?_of_hidden {α : Type} {p : α → Bool} {found : Option α} {before after : List α}
    {hidden : α} (h : p hidden → found.isSome) :
    found.or ((before ++ hidden :: after).find? p) = found.or ((before ++ after).find? p) := by
  cases hp : p hidden with
  | true =>
    obtain ⟨value, rfl⟩ := Option.isSome_iff_exists.1 (h hp)
    rfl
  | false =>
    rw [List.find?_append, List.find?_append, List.find?_cons_of_neg (by rw [hp]; exact nofun)]

variable (platform : Platform)

theorem object?_of_removes (h : layout.Removes project smaller lost) :
    Scope.object? ⟨platform, project, layout⟩ = Scope.object? ⟨platform, smaller, layout⟩ := by
  funext name
  cases h with
  | @object before after hidden hobjects hhidden =>
    rw [Scope.object?, Scope.object?, Project.object?, hobjects]
    refine or_find?_of_hidden fun hname => ?_
    rwa [← beq_iff_eq.1 hname]
  | group hgroups hhidden => rfl

theorem group?_of_removes (h : layout.Removes project smaller lost) :
    Scope.group? ⟨platform, project, layout⟩ = Scope.group? ⟨platform, smaller, layout⟩ := by
  funext name
  cases h with
  | object hobjects hhidden => rfl
  | @group before after hidden hgroups hhidden =>
    rw [Scope.group?, Scope.group?, Project.group?, hgroups]
    refine or_find?_of_hidden fun hname => ?_
    rwa [← beq_iff_eq.1 hname]

/-- A name that no lost behavior has keeps its type. -/
theorem typeOfBehavior_of_removes (h : layout.Removes project smaller lost) {name : String}
    (hname : ∀ behavior ∈ lost, behavior.name ≠ name) :
    Scope.typeOfBehavior ⟨platform, project, layout⟩ name
      = Scope.typeOfBehavior ⟨platform, smaller, layout⟩ name := by
  cases h with
  | @object before after hidden hobjects hhidden =>
    have hnone : hidden.behaviors.find? (fun behavior => behavior.name == name) = none :=
      List.find?_eq_none.2 fun behavior hmem => by
        rw [beq_iff_eq]
        exact hname behavior hmem
    simp only [Scope.typeOfBehavior, hobjects, List.flatMap_append, List.flatMap_cons,
      List.find?_append, hnone, Option.none_or]
  | group hgroups hhidden => rfl

/-- Nothing else is lost if each lost behavior is declared with the same type elsewhere. -/
theorem alike_of_removes (h : layout.Removes project smaller lost)
    (hlost : ∀ behavior ∈ lost,
      Scope.typeOfBehavior ⟨platform, project, layout⟩ behavior.name
        = Scope.typeOfBehavior ⟨platform, smaller, layout⟩ behavior.name) :
    Scope.Alike ⟨platform, project, layout⟩ ⟨platform, smaller, layout⟩ where
  platform := rfl
  object? := object?_of_removes platform h
  group? := group?_of_removes platform h
  typeOfBehavior := by
    funext name
    by_cases hname : ∃ behavior ∈ lost, behavior.name = name
    · obtain ⟨behavior, hmem, rfl⟩ := hname
      exact hlost behavior hmem
    · refine typeOfBehavior_of_removes platform h fun behavior hmem heq => ?_
      exact hname ⟨behavior, hmem, heq⟩

end Lookups

section Objects
variable {first second : Scope}

theorem Scope.typeOfObject_congr (hobject : first.object? = second.object?)
    (hgroup : first.group? = second.group?) : first.typeOfObject = second.typeOfObject := by
  funext name
  simp only [typeOfObject, hobject, hgroup]

theorem JavaScript.expand_congr (hobject : first.object? = second.object?)
    (hgroup : first.group? = second.group?) : expand first = expand second := by
  have hcandidates : candidates first = candidates second := by
    funext name
    simp only [candidates, hgroup]
  have hdeclared : first.hasObject = second.hasObject := by
    funext name
    rw [Scope.hasObject, Scope.hasObject, hobject]
  funext name current
  simp only [expand, hcandidates, hdeclared]

end Objects

section Reading
variable {first second : Scope} {kind : Expression.Kind} {base : Nat} {closing : Token}

/-- Readers use the scope for the heads of calls alone. -/
theorem Trace.Reader.step_of_alike (h : first.Alike second) (stage : Stage) (groups : List Token)
    (token : Token) :
    step ⟨first, kind, base, closing⟩ stage groups token
      = step ⟨second, kind, base, closing⟩ stage groups token := by
  cases stage with
  | operand | operator | member | function | arguments => rfl
  | name head =>
    have hhead : freeHead ⟨first, kind, base, closing⟩ head
        = freeHead ⟨second, kind, base, closing⟩ head := by
      simp only [freeHead, h.platform]
      rfl
    simp only [step, hhead]
    rfl
  | memberName head member =>
    have hhead : objectHead ⟨first, kind, base, closing⟩ head member
        = objectHead ⟨second, kind, base, closing⟩ head member := by
      simp only [objectHead, h.platform, Scope.typeOfObject_congr h.object? h.group?]
      rfl
    simp only [step, hhead]
    rfl
  | functionName head member function =>
    have hhead : behaviorHead ⟨first, kind, base, closing⟩ head member function
        = behaviorHead ⟨second, kind, base, closing⟩ head member function := by
      simp only [behaviorHead, h.platform, h.typeOfBehavior]
      rfl
    simp only [step, hhead]
    rfl

theorem Trace.Reader.walk_of_alike (h : first.Alike second) (stage : Stage) (groups : List Token)
    (tokens : List Token) :
    walk ⟨first, kind, base, closing⟩ stage groups tokens
      = walk ⟨second, kind, base, closing⟩ stage groups tokens := by
  induction tokens generalizing stage groups with
  | nil => cases stage <;> rfl
  | cons token tokens ih => simp only [walk, step_of_alike h, ih]

theorem Trace.ofExpression_of_alike (h : first.Alike second) (e : Expression) :
    Trace.ofExpression first kind e = Trace.ofExpression second kind e := by
  simp only [Trace.ofExpression, Reader.ofExpression, Reader.walk_of_alike h]

end Reading

section Code
variable {first second : Generator}

/-- Only the code of calls is up to the generator. -/
theorem Fragment.ofTrace_congr (h : first.callCode = second.callCode) (trace : Trace) :
    ofTrace first trace = ofTrace second trace := by
  have hvisit (fragment : Fragment) (event : Event) :
      visit first fragment event = visit second fragment event := by
    cases event with
    | call call => simp only [visit, h]
    | constant | operator | number | argument => rfl
  simp only [ofTrace, hvisit]

/-- For the code of a call the scope says what is known about types. -/
theorem Generator.callCode_congr {first second : Scope} {target : Target} {hooks : Table Hook}
    (hplatform : first.platform = second.platform)
    (hobject : first.typeOfObject = second.typeOfObject)
    (hbehavior : first.typeOfBehavior = second.typeOfBehavior) (call : Call) :
    callCode ⟨first, target, hooks⟩ call = callCode ⟨second, target, hooks⟩ call := by
  have hfold (output : String) (accesses : List Access) :
      foldAccesses ⟨first, target, hooks⟩ output accesses
        = foldAccesses ⟨second, target, hooks⟩ output accesses := by
    induction accesses generalizing output with
    | nil => rfl
    | cons access accesses ih => simp only [foldAccesses, ih]
  have haccess : accessCode ⟨first, target, hooks⟩ = accessCode ⟨second, target, hooks⟩ := by
    funext name access returns
    simp only [accessCode, hfold]
  rw [callCode, callCode]
  cases call.form with
  | free => rfl
  | object =>
    simp only [objectCall, haccess, hplatform, hobject]
    rfl
  | behavior =>
    simp only [behaviorCall, haccess, hplatform, hbehavior]
    rfl

/-- Generators that read alike, lower calls alike and record files alike lower alike. -/
theorem Generator.lower_congr (hscript : first.script = second.script)
    (htarget : first.target = second.target) : first.lower = second.lower := by
  have hhandler : first.handler = second.handler := by
    funext lower
    simp only [handler, htarget]
  have hwithin (levels : Nat) : first.lowerWithin Context.remembered? levels
      = second.lowerWithin Context.remembered? levels := by
    induction levels with
    | zero => rfl
    | succ levels ih =>
      funext kind e
      simp only [lowerWithin, hscript, hhandler, ih]
  funext kind e
  simp only [lower, lowerWith, hwithin]

end Code

namespace JavaScript

variable {first second : Scope} (hooks : Table Hook)

theorem target_of_alike (h : first.Alike second) : target first = target second := by
  simp only [target, expand_congr h.object? h.group?]

theorem callCode_of_alike (h : first.Alike second) :
    (generatorWith first hooks).callCode = (generatorWith second hooks).callCode := by
  funext call
  simp only [generatorWith, target_of_alike h]
  exact Generator.callCode_congr h.platform (Scope.typeOfObject_congr h.object? h.group?)
    h.typeOfBehavior call

theorem lower_of_alike (h : first.Alike second) :
    (generatorWith first hooks).lower = (generatorWith second hooks).lower := by
  refine Generator.lower_congr ?_ (target_of_alike h)
  funext kind e
  refine (Fragment.ofTrace_congr (callCode_of_alike hooks h) _).trans ?_
  exact congrArg _ (Trace.ofExpression_of_alike h e)

/-- A hidden declaration is not to be seen, but for the behaviors that only a hidden object has or
has with another type. -/
theorem lower_of_removes (platform : Platform) {layout : Layout} {project smaller : Project}
    {lost : List BehaviorDecl} (h : layout.Removes project smaller lost) :
    let scope : Scope := ⟨platform, project, layout⟩
    let other : Scope := ⟨platform, smaller, layout⟩
    scope.object? = other.object? ∧ scope.group? = other.group? ∧
      scope.typeOfObject = other.typeOfObject ∧ expand scope = expand other ∧
      (∀ name, (∀ behavior ∈ lost, behavior.name ≠ name) →
        scope.typeOfBehavior name = other.typeOfBehavior name) ∧
      ((∀ behavior ∈ lost,
          scope.typeOfBehavior behavior.name = other.typeOfBehavior behavior.name) →
        scope.typeOfBehavior = other.typeOfBehavior ∧
          (generatorWith scope hooks).lower = (generatorWith other hooks).lower) := by
  intro scope other
  have hobject : scope.object? = other.object? := object?_of_removes platform h
  have hgroup : scope.group? = other.group? := group?_of_removes platform h
  refine ⟨hobject, hgroup, Scope.typeOfObject_congr hobject hgroup, expand_congr hobject hgroup,
    fun name hname => typeOfBehavior_of_removes platform h hname, fun hlost => ?_⟩
  have halike := alike_of_removes platform h hlost
  exact ⟨halike.typeOfBehavior, lower_of_alike hooks halike⟩

/-- A behavior type with the function `Speed`. -/
def platformOfBody : Platform where
  behaviors :=
    .ofList [("Body", { functions.numeric := .ofList [("Speed", { callName := "getSpeed" })] })]

/-- A project whose only object is a player with the behavior `Physics`. -/
def projectOfPlayer : Project where
  objects := [⟨"Player", "Sprite", [⟨"Physics", "Body"⟩]⟩]

/-- A layout with a player of its own. -/
def layoutOfPlayer (behaviors : List BehaviorDecl) : Layout where
  objects := [⟨"Player", "Sprite", behaviors⟩]

theorem removes_player (behaviors : List BehaviorDecl) :
    (layoutOfPlayer behaviors).Removes projectOfPlayer { projectOfPlayer with objects := [] }
      [⟨"Physics", "Body"⟩] := by
  have hobjects : projectOfPlayer.objects
      = [] ++ ⟨"Player", "Sprite", [⟨"Physics", "Body"⟩]⟩ :: [] := rfl
  exact .object hobjects rfl

/-- If the player of the layout has the behavior too, the other player can go. -/
theorem lower_of_removes_player :
    let layout := layoutOfPlayer [⟨"Physics", "Body"⟩]
    let smaller : Project := { projectOfPlayer with objects := [] }
    layout.Removes projectOfPlayer smaller [⟨"Physics", "Body"⟩] ∧
      (generator ⟨platformOfBody, projectOfPlayer, layout⟩).lower
        = (generator ⟨platformOfBody, smaller, layout⟩).lower ∧
      ((generator ⟨platformOfBody, smaller, layout⟩).lower .number
          (.ofText "Player.Physics::Speed()") {}).1
        = .ok ("((PlayerObjects.length === 0) ? 0 : "
          ++ "PlayerObjects[0].getBehavior(\"Physics\").getSpeed())") := by
  intro layout smaller
  have h : layout.Removes projectOfPlayer smaller [⟨"Physics", "Body"⟩] := removes_player _
  have hlost : ∀ behavior ∈ [(⟨"Physics", "Body"⟩ : BehaviorDecl)],
      Scope.typeOfBehavior ⟨platformOfBody, projectOfPlayer, layout⟩ behavior.name
        = Scope.typeOfBehavior ⟨platformOfBody, smaller, layout⟩ behavior.name := by
    decide +kernel
  obtain ⟨-, -, -, -, -, hlower⟩ := lower_of_removes hooks platformOfBody h
  exact ⟨h, (hlower hlost).2, Except.eq_ok_of_toOption (by decide +kernel)⟩

/-- If it has not, `Physics` is the behavior of the hidden player only, and the call can be read as
long as that is there. -/
theorem lower_ne_of_removes :
    ¬ ∀ (platform : Platform) (layout : Layout) (project smaller : Project)
        (lost : List BehaviorDecl), layout.Removes project smaller lost →
      (generator ⟨platform, project, layout⟩).lower
        = (generator ⟨platform, smaller, layout⟩).lower := by
  intro h
  have hlower := h platformOfBody (layoutOfPlayer []) projectOfPlayer
    { projectOfPlayer with objects := [] } _ (removes_player [])
  have hcode : ((generator ⟨platformOfBody, projectOfPlayer, layoutOfPlayer []⟩).lower .number
      (.ofText "Player.Physics::Speed()") {}).1.toOption.isSome := by
    decide +kernel
  have hnone : ((generator ⟨platformOfBody, { projectOfPlayer with objects := [] },
      layoutOfPlayer []⟩).lower .number (.ofText "Player.Physics::Speed()") {}).1.toOption
        = none := by
    decide +kernel
  rw [hlower, hnone] at hcode
  cases hcode

end JavaScript
end EventFormula
