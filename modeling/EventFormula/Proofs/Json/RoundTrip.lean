import EventFormula.Proofs.Json.Lexemes

/-!
# Reading what was written

The reader puts a value together from its lexemes on a stack of what is still open. Whatever is
open, the lexemes of a value add just this value to it: that is shown for the items of an array and
the members of an object one by one. With `parse?_render` a value comes back from its text.
-/

namespace EventFormula.Json

/-- From its lexemes the value is built, whatever is open. -/
def Builds (json : Json) : Prop :=
  ∀ frames, json.lexed.foldlM step (frames, .value) = some (settle json frames)

section Builds
variable {json : Json} {frames : List Frame}

theorem step_value (lexeme : Lexeme) : step (frames, .value) lexeme = beginValue lexeme frames := by
  match frames with
  | [] | .array _ :: _ | .object _ _ _ :: _ => rfl

/-- Only the end of an array is not the beginning of a value. -/
theorem step_firstItem {frame : Frame} {lexeme : Lexeme} (h : lexeme ≠ .closeArray) :
    step (frame :: frames, .firstItem) lexeme = step (frame :: frames, .value) lexeme := by
  cases lexeme <;> first | rfl | exact absurd rfl h

theorem head_lexed (json : Json) :
    ∃ lexeme lexemes, json.lexed = lexeme :: lexemes ∧ lexeme ≠ .closeArray := by
  cases json with
  | array items => exact ⟨_, _, rfl, nofun⟩
  | object members => exact ⟨_, _, rfl, nofun⟩
  | null | bool | number | string | unreadable => exact ⟨_, _, rfl, nofun⟩

theorem Builds.first (h : Builds json) {frame : Frame} :
    json.lexed.foldlM step (frame :: frames, .firstItem)
      = some (settle json (frame :: frames)) := by
  obtain ⟨lexeme, lexemes, hlexed, hne⟩ := head_lexed json
  rw [← h (frame :: frames), hlexed, List.foldlM_cons, List.foldlM_cons, step_firstItem hne]

theorem builds_scalar (h : json.lexed = [.scalar json]) : Builds json := by
  intro frames
  rw [h, List.foldlM_cons, step_value]
  rfl

/-- The items behind the first one. -/
theorem foldlM_items {items : List Json} (h : ∀ item ∈ items, Builds item) (before : List Json) :
    ((items.map lexed).flatMap (.comma :: ·)).foldlM step (.array before :: frames, .next)
      = some (.array (items.reverse ++ before) :: frames, .next) := by
  induction items generalizing before with
  | nil => rfl
  | cons item items ih =>
    obtain ⟨hitem, hrest⟩ := List.forall_mem_cons.1 h
    rw [List.map_cons, List.flatMap_cons, List.cons_append, List.foldlM_cons]
    -- behind the comma an item has to come, and it settles on the array
    change (lexed item ++ _).foldlM step (.array before :: frames, .value) = _
    rw [List.foldlM_append, hitem]
    change List.foldlM step (.array (item :: before) :: frames, .next) _ = _
    rw [ih hrest, List.reverse_cons, List.append_assoc, List.singleton_append]

theorem builds_array {items : List Json} (h : ∀ item ∈ items, Builds item) :
    Builds (array items) := by
  intro frames
  rw [lexed, lexedItems_eq, List.cons_append, List.foldlM_cons, step_value]
  change (separated (items.map lexed) ++ _).foldlM step (.array [] :: frames, .firstItem) = _
  cases items with
  | nil => rfl
  | cons item items =>
    obtain ⟨hitem, hrest⟩ := List.forall_mem_cons.1 h
    rw [List.map_cons, separated, List.append_assoc, List.foldlM_append, hitem.first]
    change List.foldlM step (.array [item] :: frames, .next) _ = _
    rw [List.foldlM_append, foldlM_items hrest]
    change some (settle (.array (items.reverse ++ [item]).reverse) frames) = _
    rw [List.reverse_append, List.reverse_reverse, List.reverse_singleton, List.singleton_append]

theorem foldlM_member {member : String × Json} (h : Builds member.2) {stage : Stage}
    (hstage : stage = .firstName ∨ stage = .name) (before : List (String × Json)) (last : String) :
    (lexedMember member).foldlM step (.object true before last :: frames, stage)
      = some (.object true (member :: before) member.1 :: frames, .next) := by
  have hvalue := h (.object true before member.1 :: frames)
  rcases hstage with rfl | rfl
  · exact hvalue
  · exact hvalue

/-- The members behind the first one. -/
theorem foldlM_members {members : List (String × Json)} (h : ∀ member ∈ members, Builds member.2)
    (before : List (String × Json)) (last : String) :
    ∃ latest, ((members.map lexedMember).flatMap (.comma :: ·)).foldlM step
        (.object true before last :: frames, .next)
      = some (.object true (members.reverse ++ before) latest :: frames, .next) := by
  induction members generalizing before last with
  | nil => exact ⟨last, rfl⟩
  | cons member members ih =>
    obtain ⟨hmember, hrest⟩ := List.forall_mem_cons.1 h
    -- the frame keeps the name of the last member, which nothing reads any more
    obtain ⟨latest, hlatest⟩ := ih hrest (member :: before) member.1
    refine ⟨latest, ?_⟩
    rw [List.map_cons, List.flatMap_cons, List.cons_append, List.foldlM_cons]
    change (lexedMember member ++ _).foldlM step (.object true before last :: frames, .name) = _
    rw [List.foldlM_append, foldlM_member hmember (Or.inr rfl)]
    change List.foldlM step (.object true (member :: before) member.1 :: frames, .next) _ = _
    rw [hlatest, List.reverse_cons, List.append_assoc, List.singleton_append]

theorem builds_object {members : List (String × Json)} (h : ∀ member ∈ members, Builds member.2) :
    Builds (object members) := by
  intro frames
  rw [lexed, lexedMembers_eq, List.cons_append, List.foldlM_cons, step_value]
  change (separated (members.map lexedMember) ++ _).foldlM step
    (.object true [] "" :: frames, .firstName) = _
  cases members with
  | nil => rfl
  | cons member members =>
    obtain ⟨hmember, hrest⟩ := List.forall_mem_cons.1 h
    rw [List.map_cons, separated, List.append_assoc, List.foldlM_append,
      foldlM_member hmember (Or.inl rfl)]
    change List.foldlM step (.object true [member] member.1 :: frames, .next) _ = _
    obtain ⟨latest, hlatest⟩ := foldlM_members hrest [member] member.1
    rw [List.foldlM_append, hlatest]
    change some (settle (.object (members.reverse ++ [member]).reverse) frames) = _
    rw [List.reverse_append, List.reverse_reverse, List.reverse_singleton, List.singleton_append]

theorem builds_of_sound (h : Sound json) : Builds json := by
  induction h with
  | null | bool | number | string => exact builds_scalar rfl
  | array h ih => exact builds_array ih
  | object h ih => exact builds_object ih

end Builds

/-- What is written of a value is read as the value. -/
theorem parse?_render {json : Json} (h : Sound json) : parse? json.render = some json := by
  have hlexes := lexes_render h [] nofun
  rw [List.append_nil, lexemes?, Option.map_some, List.append_nil] at hlexes
  rw [parse?, hlexes]
  change (json.lexed.foldlM step ([], .value) >>= _) = _
  rw [builds_of_sound h]
  rfl

end EventFormula.Json
