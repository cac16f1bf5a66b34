import EventFormula.Proofs.Target.Dispatch

/-!
# Receivers

Reading a formula checks a call against the type of the name that it is made on. The calls in the
code are made on the objects that this name stands for, and those are looked up on their own. The
main statement, `exposes_of_mem_expand`, says that the two agree: an object that is called has the
function. It needs that a group does not share its name with an object, which reading prefers and
the code does not, and that a member of the group which is called is declared. Without either of the
two there are calls that their receiver knows nothing of.
-/

namespace EventFormula

/-- An object of that type has the function, of its own or because every object has it. -/
def Platform.Exposes (platform : Platform) (type : String) (returns : Expression.Kind)
    (function : String) (callable : Callable) : Prop :=
  ∃ info, (platform.objectType? type = some info ∨
      platform.objectType? Platform.baseObjectType = some info) ∧
    info.functions.get? returns function = some callable

namespace Platform

variable {platform : Platform} {type function : String} {returns : Expression.Kind}
  {callable : Callable}

theorem exposes_of_objectFunction (h : platform.objectFunction? returns type function
    = some callable) : platform.Exposes type returns function callable := by
  rw [objectFunction?, Option.or_eq_some_iff] at h
  rcases h with h | ⟨-, h⟩
  · obtain ⟨info, hinfo, hfunction⟩ := Option.bind_eq_some_iff.1 h
    exact ⟨info, Or.inl hinfo, hfunction⟩
  · obtain ⟨info, hinfo, hfunction⟩ := Option.bind_eq_some_iff.1 h
    exact ⟨info, Or.inr hinfo, hfunction⟩

/-- What the base type has every type exposes. -/
theorem exposes_of_base (h : platform.objectFunction? returns baseObjectType function
    = some callable) (type : String) : platform.Exposes type returns function callable := by
  obtain ⟨info, hinfo, hfunction⟩ := exposes_of_objectFunction h
  exact ⟨info, Or.inr (hinfo.elim id id), hfunction⟩

/-- Where a function is exposed the lookup finds one, if not the same. -/
theorem objectFunction_of_exposes (h : platform.Exposes type returns function callable) :
    ∃ own, platform.objectFunction? returns type function = some own := by
  obtain ⟨info, hinfo, hfunction⟩ := h
  rw [← Option.isSome_iff_exists, objectFunction?, Option.isSome_or, Bool.or_eq_true]
  rcases hinfo with hinfo | hinfo
  · left
    rw [hinfo, Option.bind_some, hfunction, Option.isSome_some]
  · right
    rw [hinfo, Option.bind_some, hfunction, Option.isSome_some]

end Platform

namespace Scope

theorem commonType_of_mem {type : String} {types : List String} (h : type ∈ types) :
    commonType types = type ∨ commonType types = Platform.baseObjectType := by
  cases types with
  | nil => cases h
  | cons first types =>
    by_cases hall : types.all (· == first)
    · left
      rw [commonType, if_pos hall]
      rcases List.mem_cons.1 h with rfl | h
      · rfl
      · exact (beq_iff_eq.1 (List.all_eq_true.1 hall type h)).symm
    · right
      rw [commonType, if_neg hall]

/-- A group has the type of each of its declared members, or the base type. -/
theorem typeOfObject_of_member {scope : Scope} {name member : String} {group : ObjectGroup}
    (hobject : scope.object? name = none) (hgroup : scope.group? name = some group)
    (hmember : member ∈ group.objects) (hdeclared : scope.hasObject member) :
    scope.typeOfObject name = scope.typeOfObject member ∨
      scope.typeOfObject name = Platform.baseObjectType := by
  obtain ⟨object, hfound⟩ := Option.isSome_iff_exists.1 hdeclared
  have htype : scope.typeOfObject member = object.type := by
    rw [typeOfObject, hfound]
  have hmem : object.type ∈ group.objects.filterMap fun member =>
      (scope.object? member).map ObjectDecl.type := by
    refine List.mem_filterMap.2 ⟨member, hmember, ?_⟩
    rw [hfound, Option.map_some]
  have hname : scope.typeOfObject name = commonType (group.objects.filterMap fun member =>
      (scope.object? member).map ObjectDecl.type) := by
    rw [typeOfObject, hobject, hgroup]
  rw [htype, hname]
  exact commonType_of_mem hmem

end Scope

namespace Generator

variable (generator : Generator)

/-- The objects that a call is made on, each with what the platform says about its type; if the call
is on a behavior, about the type of that. -/
def receivers (view : View) (call : Call) : List (String × Option TypeInfo) :=
  match call.form, call.arguments with
  | .object, object :: _ =>
    (generator.target.expand object.text view).map fun target =>
      (target, generator.scope.platform.objectType? (generator.scope.typeOfObject target))
  | .behavior, object :: behavior :: _ =>
    (generator.target.expand object.text view).map fun target =>
      (target,
        generator.scope.platform.behaviorType? (generator.scope.typeOfBehavior behavior.text))
  | _, _ => []

/-- The calls on the receivers, each with the same parameters. -/
def accesses (view : View) (call : Call) (behavior : Option String) (parameters : String) :
    List Access :=
  (generator.receivers view call).map fun receiver =>
    ⟨receiver.1, behavior, receiver.2, call.callable.callName, parameters⟩

variable {generator}

theorem receivers_congr {v w : View}
    (h : ∀ name, generator.target.expand name v = generator.target.expand name w) (call : Call) :
    generator.receivers v call = generator.receivers w call := by
  simp only [receivers, h]

/-- A call that is made as it stands includes its file, has codes made for its parameters, and is
then made on each receiver. -/
theorem callCode_eq_accesses {call : Call} {object : Expression} {given rest : List Expression}
    (hgiven : call.form.Takes (object :: given))
    (harguments : call.arguments = object :: given ++ rest)
    (hhook : generator.hookOf call.callable = none) :
    generator.callCode call = requireFile call.callable.includeFile >>= fun _ =>
      generator.parametersCode rest (call.callable.parameters.drop (given.length + 1)) >>=
        fun parameters => Script.view >>= fun view =>
          generator.foldAccesses call.returns.fallback
            (generator.accesses view call (given.head?.map Expression.text) parameters) := by
  cases hform : call.form with
  | free =>
    rw [hform] at hgiven
    cases hgiven
  | object =>
    rw [hform] at hgiven
    obtain ⟨_, heq⟩ := hgiven
    cases heq
    simp only [callCode, hform, objectCall, harguments, List.cons_append, List.nil_append, hhook,
      accesses, receivers, List.map_map]
    rfl
  | behavior =>
    rw [hform] at hgiven
    obtain ⟨_, behavior, heq⟩ := hgiven
    cases heq
    simp only [callCode, hform, behaviorCall, harguments, List.cons_append, List.nil_append, hhook,
      accesses, receivers, List.map_map]
    rfl

/-- A call that a hook takes over includes its file all the same. -/
theorem callCode_of_hook {call : Call} {hook : Hook} (hheaded : call.Headed)
    (hhook : generator.hookOf call.callable = some hook) :
    generator.callCode call
      = requireFile call.callable.includeFile >>= fun _ => hook call.arguments := by
  obtain ⟨given, rest, hgiven, harguments⟩ := hheaded
  cases hform : call.form with
  | free => simp only [callCode, hform, freeCall, hhook]
  | object =>
    rw [hform] at hgiven
    obtain ⟨object, rfl⟩ := hgiven
    simp only [callCode, hform, objectCall, harguments, List.cons_append, hhook]
  | behavior =>
    rw [hform] at hgiven
    obtain ⟨object, behavior, rfl⟩ := hgiven
    simp only [callCode, hform, behaviorCall, harguments, List.cons_append, hhook]

end Generator

namespace JavaScript

/-- An object that is called has the function that the call was read as, so the lookup by its own
type succeeds as well. -/
theorem exposes_of_mem_expand (scope : Scope) (name function : String) (returns : Expression.Kind)
    (current : Option String) {target : String} {callable : Callable}
    (hread : scope.platform.objectFunction? returns (scope.typeOfObject name) function
      = some callable)
    (htarget : target ∈ expand scope name current)
    (hgroup : (scope.group? name).isSome → scope.object? name = none ∧ scope.hasObject target) :
    (∃ own, scope.platform.objectFunction? returns (scope.typeOfObject target) function
        = some own) ∧
      scope.platform.Exposes (scope.typeOfObject target) returns function callable := by
  have hexposes : scope.platform.Exposes (scope.typeOfObject target) returns function
      callable := by
    have hcandidate := candidate_of_mem_expand htarget
    rw [candidates] at hcandidate
    cases hmembers : scope.group? name with
    | none =>
      rw [hmembers] at hcandidate
      rw [List.mem_singleton.1 hcandidate]
      exact Platform.exposes_of_objectFunction hread
    | some group =>
      rw [hmembers] at hcandidate
      obtain ⟨hobject, hdeclared⟩ := hgroup (by rw [hmembers, Option.isSome_some])
      rcases Scope.typeOfObject_of_member hobject hmembers hcandidate hdeclared with htype | htype
      · rw [← htype]
        exact Platform.exposes_of_objectFunction hread
      · rw [htype] at hread
        exact Platform.exposes_of_base hread _
  exact ⟨Platform.objectFunction_of_exposes hexposes, hexposes⟩

/-- Fighters have `Armor`. The group `Guard` has a knight, which is a fighter, and a ghost, which is
nothing that is declared. A group with the name of the knight has the squire, no fighter. -/
def scopeOfGuard : Scope where
  platform.objects :=
    .ofList [("Fighter", { functions.numeric := .ofList [("Armor", { callName := "getArmor" })] })]
  project.objects := [⟨"Knight", "Fighter", []⟩, ⟨"Squire", "Helper", []⟩]
  project.groups := [⟨"Guard", ["Ghost", "Knight"]⟩, ⟨"Knight", ["Squire"]⟩]
  layout := {}

/-- The call `Guard.Armor()` is made on the knight. -/
theorem exposes_of_mem_expand_guard :
    ∃ callable,
      scopeOfGuard.platform.objectFunction? .number (scopeOfGuard.typeOfObject "Guard") "Armor"
          = some callable ∧
        "Knight" ∈ expand scopeOfGuard "Guard" none ∧
        ((scopeOfGuard.group? "Guard").isSome →
          scopeOfGuard.object? "Guard" = none ∧ scopeOfGuard.hasObject "Knight") ∧
        scopeOfGuard.platform.Exposes (scopeOfGuard.typeOfObject "Knight") .number "Armor"
          callable := by
  obtain ⟨callable, hread⟩ : ∃ callable, scopeOfGuard.platform.objectFunction? .number
      (scopeOfGuard.typeOfObject "Guard") "Armor" = some callable :=
    Option.isSome_iff_exists.1 (by decide +kernel)
  have htarget : "Knight" ∈ expand scopeOfGuard "Guard" none := by decide +kernel
  have hgroup : (scopeOfGuard.group? "Guard").isSome →
      scopeOfGuard.object? "Guard" = none ∧ scopeOfGuard.hasObject "Knight" :=
    fun _ => ⟨rfl, by decide +kernel⟩
  exact ⟨callable, hread, htarget, hgroup,
    (exposes_of_mem_expand scopeOfGuard "Guard" "Armor" .number none hread htarget hgroup).2⟩

/-- The call `Knight.Armor()` is read as one on the knight and made on the squire. -/
theorem not_exposes_of_clash :
    ¬ ∀ (scope : Scope) (name function : String) (returns : Expression.Kind)
        (current : Option String),
      (scope.platform.objectFunction? returns (scope.typeOfObject name) function).isSome →
      ∀ target ∈ expand scope name current,
        (scope.platform.objectFunction? returns (scope.typeOfObject target) function).isSome := by
  intro h
  have hsquire := h scopeOfGuard "Knight" "Armor" .number none (by decide +kernel) "Squire"
    (by decide +kernel)
  exact absurd hsquire (by decide +kernel)

/-- An event that goes through the ghost has `Guard.Armor()` made on it. -/
theorem not_exposes_of_undeclared :
    (scopeOfGuard.platform.objectFunction? .number (scopeOfGuard.typeOfObject "Guard")
        "Armor").isSome ∧
      expand scopeOfGuard "Guard" (some "Ghost") = ["Ghost"] ∧
      scopeOfGuard.platform.objectFunction? .number (scopeOfGuard.typeOfObject "Ghost")
        "Armor" = none :=
  ⟨by decide +kernel, by decide +kernel, Option.not_isSome_iff_eq_none.1 (by decide +kernel)⟩

end JavaScript
end EventFormula
