import EventFormula.Proofs.Target.Receivers
import Mathlib.Data.List.Induction
import Mathlib.Data.List.Sort

/-!
# What a name expands to

The name of a group stands for the members of the group, any other name for itself. Of the names
that it stands for the declared ones are called, each once and in the order in which they first
occur, or the current object alone if it is one of these. `Expands` says so without saying how it is
done. The main statement, `expand_eq_firstOccurrences`, says what a name comes to in every case, and
that this is as `Expands` has it unless the event goes through an object that nothing declares and
that the group still lists. Such an object is called all the same.
-/

namespace EventFormula

/-- The names of a list that have a property, each where it occurs first. -/
structure FirstOccurrences (p : String → Bool) (names firsts : List String) : Prop where
  sublist : firsts.Sublist names
  mem : ∀ name, name ∈ firsts ↔ name ∈ names ∧ p name = true
  order : firsts.Pairwise fun a b => names.idxOf a < names.idxOf b

namespace FirstOccurrences

variable {p : String → Bool} {names firsts : List String} {name : String}

theorem nodup (h : FirstOccurrences p names firsts) : firsts.Nodup :=
  h.order.imp Nat.ne_of_lt |>.imp fun hne heq => hne (congrArg names.idxOf heq)

/-- There is one such list. -/
theorem unique {others : List String} (h : FirstOccurrences p names firsts)
    (hothers : FirstOccurrences p names others) : firsts = others := by
  have hperm : firsts.Perm others :=
    (List.perm_ext_iff_of_nodup h.nodup hothers.nodup).2 fun name =>
      (h.mem name).trans (hothers.mem name).symm
  exact hperm.eq_of_pairwise
    (fun _ _ _ _ hless hgreater => absurd hless (Nat.lt_asymm hgreater)) h.order hothers.order

/-- A name that is new and has the property is one more. -/
theorem append (h : FirstOccurrences p names firsts) (hname : p name = true)
    (hnew : name ∉ names) : FirstOccurrences p (names ++ [name]) (firsts ++ [name]) where
  sublist := h.sublist.append_right [name]
  mem other := by
    rw [List.mem_append, List.mem_append, h.mem, List.mem_singleton, or_and_right]
    exact or_congr_right ⟨fun heq => ⟨heq, heq ▸ hname⟩, And.left⟩
  order := by
    have hindex {a : String} (ha : a ∈ firsts) : (names ++ [name]).idxOf a = names.idxOf a :=
      List.idxOf_append_of_mem ((h.mem a).1 ha).1
    refine List.pairwise_append.2 ⟨h.order.imp_of_mem fun ha hb hless => ?_,
      List.pairwise_singleton _ _, fun a ha b hb => ?_⟩
    · rwa [hindex ha, hindex hb]
    · obtain rfl := List.mem_singleton.1 hb
      rw [hindex ha, List.idxOf_append_of_notMem hnew]
      exact Nat.lt_of_lt_of_le (List.idxOf_lt_length_of_mem ((h.mem a).1 ha).1)
        (Nat.le_add_right ..)

/-- Any other name changes nothing. -/
theorem skip (h : FirstOccurrences p names firsts) (hold : p name = true → name ∈ names) :
    FirstOccurrences p (names ++ [name]) firsts where
  sublist := h.sublist.trans (List.sublist_append_left names [name])
  mem other := by
    rw [h.mem, List.mem_append, List.mem_singleton]
    refine and_congr_left fun hother => ⟨Or.inl, ?_⟩
    rintro (hmem | rfl)
    · exact hmem
    · exact hold hother
  order := by
    refine h.order.imp_of_mem fun ha hb hless => ?_
    rwa [List.idxOf_append_of_mem ((h.mem _).1 ha).1, List.idxOf_append_of_mem ((h.mem _).1 hb).1]

/-- To drop what has not the property, and then what is repeated, leaves the first occurrences. -/
theorem eraseDups (p : String → Bool) (names : List String) :
    FirstOccurrences p names (names.filter p).eraseDups := by
  induction names using List.reverseRecOn with
  | nil => exact ⟨List.Sublist.refl [], by simp, List.Pairwise.nil⟩
  | append_singleton names name ih =>
    have hmem : name ∈ names.filter p ↔ name ∈ names ∧ p name = true := List.mem_filter
    rw [List.filter_append, List.eraseDups_append]
    by_cases hname : p name = true
    · by_cases hnew : name ∈ names
      · have hrest : ([name].filter p).removeAll (names.filter p) = [] := by
          simp [List.removeAll, hname, hnew]
        rw [hrest, List.eraseDups_nil, List.append_nil]
        exact ih.skip fun _ => hnew
      · have hrest : ([name].filter p).removeAll (names.filter p) = [name] := by
          simp [List.removeAll, hname, hnew]
        rw [hrest]
        exact ih.append hname hnew
    · have hrest : ([name].filter p).removeAll (names.filter p) = [] := by
        simp [List.removeAll, hname]
      rw [hrest, List.eraseDups_nil, List.append_nil]
      exact ih.skip fun h => absurd h hname

end FirstOccurrences

/-- What a name stands for: the members of the group that is seen under it, where the layout hides
the project, or the name itself. -/
inductive Scope.Denotes (scope : Scope) (name : String) : List String → Prop where
  | layout {group : ObjectGroup} (h : scope.layout.group? name = some group) :
      Denotes scope name group.objects
  | project {group : ObjectGroup} (hlayout : scope.layout.group? name = none)
      (h : scope.project.group? name = some group) : Denotes scope name group.objects
  | itself (hlayout : scope.layout.group? name = none)
      (hproject : scope.project.group? name = none) : Denotes scope name [name]

namespace JavaScript

theorem denotes_iff {scope : Scope} {name : String} {names : List String} :
    scope.Denotes name names ↔ names = candidates scope name := by
  unfold candidates Scope.group?
  constructor
  · intro h
    cases h with
    | layout h => rw [h]; rfl
    | project hlayout h => rw [hlayout, h]; rfl
    | itself hlayout hproject => rw [hlayout, hproject]; rfl
  · rintro rfl
    cases hlayout : scope.layout.group? name with
    | some group => exact .layout hlayout
    | none =>
      cases hproject : scope.project.group? name with
      | some group => exact .project hlayout hproject
      | none => exact .itself hlayout hproject

/-- What a name comes to when it stands for `names`: declared objects only, each once, which are the
first occurrences of the declared names, except that the current object stands alone if it is one of
these. -/
structure Expands (scope : Scope) (names : List String) (current : Option String)
    (objects : List String) : Prop where
  declared : ∀ object ∈ objects, scope.hasObject object = true
  nodup : objects.Nodup
  picked : ∀ object ∈ names, scope.hasObject object = true → current = some object →
    objects = [object]
  others : (∀ object ∈ names, scope.hasObject object = true → current ≠ some object) →
    FirstOccurrences scope.hasObject names objects

section Expand
variable {scope : Scope} {name : String} {current : Option String}

theorem expand_of_others (h : ∀ object ∈ candidates scope name, current ≠ some object) :
    FirstOccurrences scope.hasObject (candidates scope name) (expand scope name current) := by
  have hexpand : expand scope name current
      = ((candidates scope name).filter scope.hasObject).eraseDups := by
    cases current with
    | none => rfl
    | some object => exact if_neg fun hmem => h object hmem rfl
  rw [hexpand]
  exact .eraseDups ..

/-- The current object is one of the names and is called alone, or it does not matter. -/
theorem expand_cases (scope : Scope) (name : String) (current : Option String) :
    (∃ object ∈ candidates scope name, current = some object ∧
      expand scope name current = [object]) ∨
    (∀ object ∈ candidates scope name, current ≠ some object) ∧
      FirstOccurrences scope.hasObject (candidates scope name) (expand scope name current) := by
  by_cases h : ∃ object ∈ candidates scope name, current = some object
  · obtain ⟨object, hmem, rfl⟩ := h
    exact Or.inl ⟨object, hmem, rfl, expand_of_current hmem⟩
  · have hothers : ∀ object ∈ candidates scope name, current ≠ some object :=
      fun object hmem hcurrent => h ⟨object, hmem, hcurrent⟩
    exact Or.inr ⟨hothers, expand_of_others hothers⟩

/-- All is as it has to be just if the current object is no undeclared one of the names. -/
theorem expands_iff : Expands scope (candidates scope name) current (expand scope name current) ↔
    ∀ object ∈ candidates scope name, current = some object → scope.hasObject object = true := by
  rcases expand_cases scope name current with ⟨object, hmem, rfl, hexpand⟩ | ⟨hothers, hfirst⟩
  · rw [hexpand]
    constructor
    · rintro h other - heq
      cases heq
      exact h.declared object List.mem_cons_self
    · intro h
      have hdeclared := h object hmem rfl
      refine ⟨List.forall_mem_singleton.2 hdeclared, List.nodup_singleton object, ?_,
        fun hothers => absurd rfl (hothers object hmem hdeclared)⟩
      rintro other - - heq
      cases heq
      rfl
  · refine ⟨fun _ object hmem hcurrent => absurd hcurrent (hothers object hmem), fun _ => ?_⟩
    exact ⟨fun object hobject => ((hfirst.mem object).1 hobject).2, hfirst.nodup,
      fun object hmem _ hcurrent => absurd hcurrent (hothers object hmem), fun _ => hfirst⟩

end Expand

/-- What a name comes to in any context. It stands for some names. If the current object is one of
them it is called alone. Otherwise the declared ones of them are called, each where it occurs first.
So nothing is called twice, and nothing but the current object without being declared. All is as it
has to be just if the current object is declared or not among the names. -/
theorem expand_eq_firstOccurrences (scope : Scope) (name : String) (context : Context) :
    ∃ names, (∀ others, scope.Denotes name others ↔ others = names) ∧
      let objects := (target scope).expand name context.view
      objects.Nodup ∧
        (∀ object ∈ objects, scope.hasObject object = true ∨ context.current = some object) ∧
        (∀ object ∈ names, context.current = some object → objects = [object]) ∧
        ((∀ object ∈ names, context.current ≠ some object) →
          ∀ others, FirstOccurrences scope.hasObject names others ↔ others = objects) ∧
        (Expands scope names context.current objects ↔
          ∀ object ∈ names, context.current = some object → scope.hasObject object = true) := by
  refine ⟨candidates scope name, fun others => denotes_iff, ?_⟩
  intro objects
  have hiff := @expands_iff scope name context.current
  rcases expand_cases scope name context.current with
    ⟨object, hmem, hcurrent, hexpand⟩ | ⟨hothers, hfirst⟩
  · have hobjects : objects = [object] := hexpand
    refine ⟨?_, ?_, ?_, fun hothers => absurd hcurrent (hothers object hmem), hiff⟩
    · rw [hobjects]
      exact List.nodup_singleton object
    · rw [hobjects]
      exact List.forall_mem_singleton.2 (Or.inr hcurrent)
    · intro other _ hother
      cases hcurrent.symm.trans hother
      exact hobjects
  · refine ⟨hfirst.nodup, fun object hobject => Or.inl ((hfirst.mem object).1 hobject).2,
      fun object hmem hcurrent => absurd hcurrent (hothers object hmem), fun _ others => ?_, hiff⟩
    exact ⟨fun h => h.unique hfirst, fun h => h ▸ hfirst⟩

/-- Nothing declares the ghost, and still the guard comes to it if the event goes through it. -/
theorem not_expands_of_undeclared :
    ¬ ∀ (scope : Scope) (name : String) (names : List String) (context : Context),
      scope.Denotes name names →
      Expands scope names context.current ((target scope).expand name context.view) := by
  intro h
  have hgroup : scopeOfGuard.project.group? "Guard" = some ⟨"Guard", ["Ghost", "Knight"]⟩ := by rfl
  have hnames : scopeOfGuard.Denotes "Guard" ["Ghost", "Knight"] := .project rfl hgroup
  have hghost := (h _ _ _ (.fresh (some "Ghost") none) hnames).declared "Ghost" (by decide +kernel)
  revert hghost
  decide +kernel

end JavaScript
end EventFormula
