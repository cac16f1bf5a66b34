import EventFormula.Scope

/-!
# The type of a group

Calls are made on a group as on an object, so a name that only a group has is given a type: the one
that all declared members of the group have. `Shares` says which type that is, without saying in
what order the members are looked at. The main statement, `typeOfObject_group`, says that a group
has the type that its members share and the base type if they share none, and that nothing else
about the members matters: neither their order, nor how often one of them is listed, nor which names
are listed that nothing declares.
-/

namespace EventFormula

namespace Scope

/-- Some of the names are declared, and all that are declared have that type. -/
structure Shares (scope : Scope) (names : List String) (type : String) : Prop where
  declared : ∃ name ∈ names, scope.hasObject name
  same : ∀ name ∈ names, ∀ object, scope.object? name = some object → object.type = type

/-- The types of those of the names that are declared. -/
def declaredTypes (scope : Scope) (names : List String) : List String :=
  names.filterMap fun name => (scope.object? name).map ObjectDecl.type

section CommonType
variable {type : String} {types : List String}

theorem commonType_of_same (hne : types ≠ []) (hsame : ∀ other ∈ types, other = type) :
    commonType types = type := by
  cases types with
  | nil => exact absurd rfl hne
  | cons first types =>
    obtain rfl : first = type := hsame first List.mem_cons_self
    have hall : types.all (· == first) = true := by
      rw [List.all_eq_true]
      intro other hmem
      rw [beq_iff_eq]
      exact hsame other (List.mem_cons_of_mem first hmem)
    rw [commonType, if_pos hall]

theorem commonType_of_mixed (h : ∀ type, types ≠ [] → ¬ ∀ other ∈ types, other = type) :
    commonType types = Platform.baseObjectType := by
  cases types with
  | nil => rfl
  | cons first types =>
    have hmixed : ¬ types.all (· == first) = true := by
      intro hall
      apply h first (List.cons_ne_nil first types)
      intro other hmem
      rcases List.mem_cons.1 hmem with rfl | hmem
      · rfl
      · exact beq_iff_eq.1 (List.all_eq_true.1 hall other hmem)
    rw [commonType, if_neg hmixed]

end CommonType

variable {scope : Scope} {names : List String} {name type : String} {group : ObjectGroup}

theorem mem_declaredTypes : type ∈ scope.declaredTypes names ↔
    ∃ name ∈ names, ∃ object, scope.object? name = some object ∧ object.type = type := by
  simp only [declaredTypes, List.mem_filterMap, Option.map_eq_some_iff]

theorem shares_iff : scope.Shares names type ↔
    scope.declaredTypes names ≠ [] ∧ ∀ other ∈ scope.declaredTypes names, other = type := by
  constructor
  · rintro ⟨⟨name, hmem, hdeclared⟩, hsame⟩
    constructor
    · obtain ⟨object, hobject⟩ := Option.isSome_iff_exists.1 hdeclared
      exact List.ne_nil_of_mem (mem_declaredTypes.2 ⟨name, hmem, object, hobject, rfl⟩)
    · intro other hother
      obtain ⟨name, hmem, object, hobject, rfl⟩ := mem_declaredTypes.1 hother
      exact hsame name hmem object hobject
  · rintro ⟨hne, hsame⟩
    constructor
    · obtain ⟨other, hother⟩ := List.exists_mem_of_ne_nil _ hne
      obtain ⟨name, hmem, object, hobject, -⟩ := mem_declaredTypes.1 hother
      exact ⟨name, hmem, Option.isSome_iff_exists.2 ⟨object, hobject⟩⟩
    · intro name hmem object hobject
      exact hsame object.type (mem_declaredTypes.2 ⟨name, hmem, object, hobject, rfl⟩)

/-- Which type is shared depends on nothing but which declared names there are. -/
theorem Shares.of_mem_iff {other : Scope} {others : List String}
    (hobject : ∀ name, other.object? name = scope.object? name)
    (hmem : ∀ name, scope.hasObject name → (name ∈ others ↔ name ∈ names))
    (h : scope.Shares names type) : other.Shares others type := by
  have hdeclared (name : String) : other.hasObject name = scope.hasObject name := by
    rw [hasObject, hobject, hasObject]
  constructor
  · obtain ⟨name, hname, hsome⟩ := h.declared
    exact ⟨name, (hmem name hsome).2 hname, (hdeclared name).trans hsome⟩
  · intro name hname object hfound
    rw [hobject] at hfound
    have hsome : scope.hasObject name := Option.isSome_iff_exists.2 ⟨object, hfound⟩
    exact h.same name ((hmem name hsome).1 hname) object hfound

theorem typeOfObject_of_group (hobject : scope.object? name = none)
    (hgroup : scope.group? name = some group) :
    scope.typeOfObject name = commonType (scope.declaredTypes group.objects) := by
  rw [typeOfObject, hobject, hgroup]
  rfl

theorem typeOfObject_of_shares (hobject : scope.object? name = none)
    (hgroup : scope.group? name = some group) (h : scope.Shares group.objects type) :
    scope.typeOfObject name = type := by
  obtain ⟨hne, hsame⟩ := shares_iff.1 h
  rw [typeOfObject_of_group hobject hgroup]
  exact commonType_of_same hne hsame

theorem typeOfObject_of_not_shares (hobject : scope.object? name = none)
    (hgroup : scope.group? name = some group) (h : ∀ type, ¬ scope.Shares group.objects type) :
    scope.typeOfObject name = Platform.baseObjectType := by
  rw [typeOfObject_of_group hobject hgroup]
  apply commonType_of_mixed
  intro type hne hsame
  exact h type (shares_iff.2 ⟨hne, hsame⟩)

/-- A group has the type that its declared members share, and the base type if they share none. So
it keeps its type as long as the same declared names are among its members, in whatever order,
however often and beside whatever undeclared ones. -/
theorem typeOfObject_group (hobject : scope.object? name = none)
    (hgroup : scope.group? name = some group) :
    (∀ type, scope.Shares group.objects type → scope.typeOfObject name = type) ∧
      ((∀ type, ¬ scope.Shares group.objects type) →
        scope.typeOfObject name = Platform.baseObjectType) ∧
      ∀ (other : Scope) (regrouped : ObjectGroup),
        (∀ member, other.object? member = scope.object? member) →
        other.group? name = some regrouped →
        (∀ member, scope.hasObject member →
          (member ∈ regrouped.objects ↔ member ∈ group.objects)) →
        other.typeOfObject name = scope.typeOfObject name := by
  refine ⟨fun type => typeOfObject_of_shares hobject hgroup,
    typeOfObject_of_not_shares hobject hgroup, ?_⟩
  intro other regrouped hsame hregrouped hmem
  have hother : other.object? name = none := (hsame name).trans hobject
  by_cases h : ∃ type, scope.Shares group.objects type
  · obtain ⟨type, h⟩ := h
    rw [typeOfObject_of_shares hobject hgroup h,
      typeOfObject_of_shares hother hregrouped (h.of_mem_iff hsame hmem)]
  · have hnone : ∀ type, ¬ other.Shares regrouped.objects type := by
      intro type hshares
      refine h ⟨type, hshares.of_mem_iff (fun member => (hsame member).symm) ?_⟩
      intro member hdeclared
      rw [hasObject, hsame] at hdeclared
      exact (hmem member hdeclared).symm
    rw [typeOfObject_of_not_shares hobject hgroup fun type hshares => h ⟨type, hshares⟩,
      typeOfObject_of_not_shares hother hregrouped hnone]

/-- The layout has a hero and a guard of its own, which hide those of the project. Nothing declares
a ghost. -/
def scopeOfLevel (guard : List String) : Scope where
  platform := {}
  project := {
    objects := [⟨"Hero", "Text", []⟩, ⟨"Scout", "Sprite", []⟩]
    groups := [⟨"Guard", ["Label"]⟩] }
  layout := {
    objects := [⟨"Hero", "Sprite", []⟩, ⟨"Label", "Text", []⟩]
    groups := [⟨"Guard", guard⟩] }

theorem typeOfObject_group_guard :
    (scopeOfLevel ["Ghost", "Hero", "Scout"]).object? "Guard" = none ∧
      (scopeOfLevel ["Ghost", "Hero", "Scout"]).group? "Guard"
        = some ⟨"Guard", ["Ghost", "Hero", "Scout"]⟩ ∧
      (scopeOfLevel ["Ghost", "Hero", "Scout"]).typeOfObject "Guard" = "Sprite" ∧
      (scopeOfLevel ["Scout", "Hero", "Scout"]).typeOfObject "Guard" = "Sprite" := by
  have hshares : (scopeOfLevel ["Ghost", "Hero", "Scout"]).Shares ["Ghost", "Hero", "Scout"]
      "Sprite" :=
    shares_iff.2 ⟨by decide +kernel, by decide +kernel⟩
  obtain ⟨hcommon, -, hregrouped⟩ :=
    @typeOfObject_group (scopeOfLevel ["Ghost", "Hero", "Scout"]) "Guard"
      ⟨"Guard", ["Ghost", "Hero", "Scout"]⟩ rfl rfl
  have htype := hcommon "Sprite" hshares
  refine ⟨rfl, rfl, htype, ?_⟩
  rw [← htype]
  refine hregrouped (scopeOfLevel ["Scout", "Hero", "Scout"]) _ (fun _ => rfl) rfl ?_
  intro member hdeclared
  have hghost : member ≠ "Ghost" := by
    rintro rfl
    revert hdeclared
    decide +kernel
  simp only [List.mem_cons, List.not_mem_nil, or_false, hghost, false_or]
  grind

end Scope

end EventFormula
