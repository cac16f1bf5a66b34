import EventFormula.Platform.Json
import EventFormula.Proofs.Json.Lexemes

/-!
# What is written for a record

A record is written as an object with one member for each field, in order, where a field whose value
is its default may be left out. `Kept` says which members that can be. If the names of the fields
differ, each field is found under its name or found to be missing, and its decoder gives back the
value. Arrays and tables are written item by item. `Lossless` says that what is written for a value
decodes to it, and is kept by arrays and tables.
-/

namespace EventFormula

namespace Json

/-- A field of a record, with what can be written for its value. -/
structure Field where
  name : String
  /-- What states the value of the field. -/
  States : Json → Prop
  /-- The field has a default, which is its value. -/
  Spare : Prop

/-- A field that has to be there. -/
def Field.needed {α : Type} (name : String) (States : α → Json → Prop) (value : α) : Field :=
  ⟨name, States value, False⟩

/-- A field that can be left out if its value is the default. -/
def Field.spared {α : Type} (name : String) (States : α → Json → Prop) (value default : α) :
    Field :=
  ⟨name, States value, value = default⟩

/-- Members that state the fields in order, some of those left out that can be. -/
inductive Kept : List Field → List (String × Json) → Prop where
  | nil : Kept [] []
  | keep {field : Field} {json : Json} {fields : List Field} {members : List (String × Json)}
      (h : field.States json) (hrest : Kept fields members) :
      Kept (field :: fields) ((field.name, json) :: members)
  | leave {field : Field} {fields : List Field} {members : List (String × Json)}
      (h : field.Spare) (hrest : Kept fields members) : Kept (field :: fields) members

/-- What is written in one way only. -/
def Plain {α : Type} (encode : α → Json) (value : α) (json : Json) : Prop := json = encode value

/-- An object that states the fields. -/
def StatesRecord (fields : List Field) (json : Json) : Prop :=
  ∃ members, json = object members ∧ Kept fields members

/-- An array that states the values one by one. -/
def StatesList {α : Type} (States : α → Json → Prop) (values : List α) (json : Json) : Prop :=
  ∃ items, json = array items ∧ List.Forall₂ States values items

/-- An object that states the entries of a table one by one. -/
def StatesTable {α : Type} (States : α → Json → Prop) (table : Table α) (json : Json) : Prop :=
  ∃ members, json = object members ∧
    List.Forall₂ (fun entry member => entry.1 = member.1 ∧ States entry.2 member.2)
      table.entries members

/-- What is found of a field: something that states its value, or nothing if it can be left out. -/
def Field.Found (field : Field) : Option Json → Prop
  | some json => field.States json
  | none => field.Spare

section Fields
variable {field : Field} {fields : List Field} {members : List (String × Json)}

theorem mem_of_kept (h : Kept fields members) {member : String × Json} (hmem : member ∈ members) :
    ∃ field ∈ fields, field.name = member.1 ∧ field.States member.2 := by
  induction h with
  | nil => cases hmem
  | @keep field json fields members hstates hrest ih =>
    rcases List.mem_cons.1 hmem with rfl | hmem
    · exact ⟨field, List.mem_cons_self, rfl, hstates⟩
    · obtain ⟨other, hother, h⟩ := ih hmem
      exact ⟨other, List.mem_cons_of_mem field hother, h⟩
  | leave hspare hrest ih =>
    obtain ⟨other, hother, h⟩ := ih hmem
    exact ⟨other, List.mem_cons_of_mem _ hother, h⟩

theorem uniqueMember?_of_ne {name : String} (h : ∀ member ∈ members, member.1 ≠ name) :
    uniqueMember? members name = some none := by
  have hnone : (members.filter fun member => member.1 == name) = [] :=
    List.filter_eq_nil_iff.2 fun member hmem => by simpa using h member hmem
  rw [uniqueMember?, hnone]

theorem uniqueMember?_cons_self {name : String} {json : Json}
    (h : ∀ member ∈ members, member.1 ≠ name) :
    uniqueMember? ((name, json) :: members) name = some (some json) := by
  have hnone : (members.filter fun member => member.1 == name) = [] :=
    List.filter_eq_nil_iff.2 fun member hmem => by simpa using h member hmem
  rw [uniqueMember?, List.filter_cons_of_pos (by simp), hnone]

theorem uniqueMember?_cons_of_ne {name other : String} {json : Json} (h : other ≠ name) :
    uniqueMember? ((other, json) :: members) name = uniqueMember? members name := by
  rw [uniqueMember?, List.filter_cons_of_neg (by simpa using h), uniqueMember?]

theorem ne_of_kept (h : Kept fields members) {name : String} (hname : name ∉ fields.map Field.name)
    {member : String × Json} (hmem : member ∈ members) : member.1 ≠ name := by
  rintro rfl
  obtain ⟨field, hfield, heq, -⟩ := mem_of_kept h hmem
  exact hname (List.mem_map.2 ⟨field, hfield, heq⟩)

/-- Whatever other members there are, each field is found under its name. -/
theorem found_among (h : Kept fields members) (hnames : (fields.map Field.name).Nodup)
    (all : List (String × Json))
    (hall : ∀ field ∈ fields, uniqueMember? all field.name = uniqueMember? members field.name) :
    ∃ values, (fields.map Field.name).mapM (uniqueMember? all) = some values ∧
      List.Forall₂ Field.Found fields values := by
  induction h with
  | nil => exact ⟨[], rfl, .nil⟩
  | @keep field json fields members hstates hrest ih =>
    rw [List.map_cons, List.nodup_cons] at hnames
    have hfield := hall field List.mem_cons_self
    rw [uniqueMember?_cons_self fun member hmem => ne_of_kept hrest hnames.1 hmem] at hfield
    -- the names differ, so no other field is found at this member
    obtain ⟨values, hvalues, hfound⟩ := ih hnames.2 fun other hother => by
      rw [hall other (List.mem_cons_of_mem field hother)]
      refine uniqueMember?_cons_of_ne fun heq => hnames.1 ?_
      exact List.mem_map.2 ⟨other, hother, heq.symm⟩
    refine ⟨some json :: values, ?_, .cons hstates hfound⟩
    rw [List.map_cons, List.mapM_cons, hfield, hvalues]
    rfl
  | @leave field fields members hspare hrest ih =>
    rw [List.map_cons, List.nodup_cons] at hnames
    have hfield := hall field List.mem_cons_self
    rw [uniqueMember?_of_ne fun member hmem => ne_of_kept hrest hnames.1 hmem] at hfield
    obtain ⟨values, hvalues, hfound⟩ := ih hnames.2 fun other hother =>
      hall other (List.mem_cons_of_mem field hother)
    refine ⟨none :: values, ?_, .cons hspare hfound⟩
    rw [List.map_cons, List.mapM_cons, hfield, hvalues]
    rfl

/-- Of what states a record each field is found or known to be left out. -/
theorem found_of_states {json : Json} (h : StatesRecord fields json)
    (hnames : (fields.map Field.name).Nodup) :
    ∃ values, fields? (fields.map Field.name) json = some values ∧
      List.Forall₂ Field.Found fields values := by
  obtain ⟨members, rfl, hkept⟩ := h
  exact found_among hkept hnames members fun _ _ => rfl

end Fields

end Json

namespace Table

variable {α : Type}

theorem foldl_insert (table : Table α) (entries : List (String × α))
    (h : (table.entries ++ entries |>.map Prod.fst).Nodup) :
    (entries.foldl (fun table entry => table.insert entry.1 entry.2) table).entries
      = table.entries ++ entries := by
  induction entries generalizing table with
  | nil => rw [List.foldl_nil, List.append_nil]
  | cons entry entries ih =>
    have hkept : table.entries.filter (fun other => other.1 != entry.1) = table.entries := by
      rw [List.filter_eq_self]
      intro other hmem
      rw [List.map_append, List.map_cons, List.nodup_append] at h
      exact bne_iff_ne.2 (h.2.2 other.1 (List.mem_map_of_mem hmem) entry.1 List.mem_cons_self)
    have hinsert : (table.insert entry.1 entry.2).entries = table.entries ++ [entry] := by
      show table.entries.filter (fun other => other.1 != entry.1) ++ [entry] = _
      rw [hkept]
    rw [List.foldl_cons, ih, hinsert, List.append_assoc, List.singleton_append]
    rw [hinsert, List.append_assoc, List.singleton_append]
    exact h

/-- A table is made of its entries. -/
theorem ofList_entries (table : Table α) : ofList table.entries = table := by
  have h : (ofList table.entries).entries = table.entries := foldl_insert empty _ table.distinct
  cases table
  cases hmade : ofList _
  rw [hmade] at h
  cases h
  rfl

end Table

namespace Json

/-- What states a value can be written down and decodes to the value. One such thing is what is
encoded. -/
structure Lossless {α : Type} (States : α → Json → Prop) (encode : α → Json)
    (decode : Json → Option α) : Prop where
  stated : ∀ value, States value (encode value)
  sound : ∀ {value json}, States value json → json.Sound
  decoded : ∀ {value json}, States value json → decode json = some value

section Lossless
variable {α : Type} {States : α → Json → Prop} {encode : α → Json} {decode : Json → Option α}
  {name : String} {value : α} {found : Option Json}

theorem Lossless.plain (hsound : ∀ value, (encode value).Sound)
    (hdecode : ∀ value, decode (encode value) = some value) :
    Lossless (Plain encode) encode decode where
  stated _ := rfl
  sound := by
    rintro value json rfl
    exact hsound value
  decoded := by
    rintro value json rfl
    exact hdecode value

theorem lossless_bool : Lossless (Plain .bool) .bool bool? :=
  .plain .bool fun _ => rfl

theorem lossless_string : Lossless (Plain .string) .string string? :=
  .plain .string fun _ => rfl

/-- A text that may be missing. -/
theorem lossless_nullable :
    Lossless (Plain (ofOption .string)) (ofOption .string) (nullable? string?) := by
  refine .plain ?_ ?_
  · intro value
    cases value with
    | none => exact .null
    | some text => exact .string text
  · intro value
    cases value <;> rfl

theorem mapM_eq {β : Type} {f : β → Option α} {items : List β} {values : List α}
    (h : List.Forall₂ (fun value item => f item = some value) values items) :
    items.mapM f = some values := by
  induction h with
  | nil => rfl
  | cons hitem hrest ih =>
    rw [List.mapM_cons, hitem, ih]
    rfl

theorem exists_of_forall₂ {β γ : Type} {R : β → γ → Prop} {values : List β} {items : List γ}
    (h : List.Forall₂ R values items) {item : γ} (hmem : item ∈ items) : ∃ value, R value item := by
  induction h with
  | nil => cases hmem
  | @cons value item values items hitem hrest ih =>
    rcases List.mem_cons.1 hmem with rfl | hmem
    · exact ⟨value, hitem⟩
    · exact ih hmem

theorem Lossless.list (h : Lossless States encode decode) :
    Lossless (StatesList States) (fun values => .array (values.map encode)) (listOf? decode) where
  stated values := by
    refine ⟨_, rfl, ?_⟩
    rw [List.forall₂_map_right_iff, List.forall₂_same]
    exact fun value _ => h.stated value
  sound := by
    rintro values json ⟨items, rfl, hitems⟩
    refine .array fun item hmem => ?_
    obtain ⟨value, hvalue⟩ := exists_of_forall₂ hitems hmem
    exact h.sound hvalue
  decoded := by
    rintro values json ⟨items, rfl, hitems⟩
    exact mapM_eq (hitems.imp fun value item => h.decoded)

theorem Lossless.table (h : Lossless States encode decode) :
    Lossless (StatesTable States) (Table.toJson encode) (Table.ofJson? decode) where
  stated table := by
    refine ⟨_, rfl, ?_⟩
    rw [List.forall₂_map_right_iff, List.forall₂_same]
    exact fun entry _ => ⟨rfl, h.stated entry.2⟩
  sound := by
    rintro table json ⟨members, rfl, hmembers⟩
    refine .object fun member hmem => ?_
    obtain ⟨entry, -, hentry⟩ := exists_of_forall₂ hmembers hmem
    exact h.sound hentry
  decoded := by
    rintro table json ⟨members, rfl, hmembers⟩
    have hentries : members.mapM (fun member => (decode member.2).map (member.1, ·))
        = some table.entries := by
      refine mapM_eq (hmembers.imp ?_)
      rintro ⟨name, value⟩ ⟨other, json⟩ ⟨rfl, hvalue⟩
      simp only [h.decoded hvalue, Option.map_some]
    rw [Table.ofJson?, hentries]
    exact congrArg some (Table.ofList_entries table)

theorem Lossless.needed (h : Lossless States encode decode)
    (hfound : (Field.needed name States value).Found found) :
    required decode found = some value := by
  cases found with
  | none => exact hfound.elim
  | some json => exact h.decoded hfound

theorem Lossless.spared {default : α} (h : Lossless States encode decode)
    (hfound : (Field.spared name States value default).Found found) :
    defaulted decode default found = some value := by
  cases found with
  | none =>
    have hspare : value = default := hfound
    rw [hspare]
    rfl
  | some json => exact h.decoded hfound

end Lossless

section Record
variable {fields : List Field} {json : Json}

theorem StatesRecord.sound (h : StatesRecord fields json)
    (hfields : fields.Forall fun field => ∀ json, field.States json → json.Sound) : json.Sound := by
  obtain ⟨members, rfl, hkept⟩ := h
  refine .object fun member hmem => ?_
  obtain ⟨field, hfield, -, hstates⟩ := mem_of_kept hkept hmem
  exact List.forall_iff_forall_mem.1 hfields field hfield _ hstates

/-- A record is decoded if that is so however much of it is found. -/
theorem StatesRecord.decoded {α : Type} {names : List String} {value : α}
    {decode : List (Option Json) → Option α} (h : StatesRecord fields json)
    (hnames : fields.map Field.name = names) (hdistinct : names.Nodup)
    (hdecode : ∀ found, List.Forall₂ Field.Found fields found → decode found = some value) :
    (json.fields? names).bind decode = some value := by
  subst hnames
  obtain ⟨found, hfound, hfields⟩ := found_of_states h hdistinct
  rw [hfound, Option.bind_some, hdecode found hfields]

end Record

end Json
end EventFormula
