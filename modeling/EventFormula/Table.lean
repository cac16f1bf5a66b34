/-! Tables keyed by name: each name has at most one entry, and entering a name again replaces it. -/

namespace EventFormula

structure Table (α : Type) where
  entries : List (String × α)
  distinct : (entries.map Prod.fst).Nodup

namespace Table

variable {α β : Type}

def empty : Table α := ⟨[], List.nodup_nil⟩

instance : Inhabited (Table α) := ⟨empty⟩

def get? (table : Table α) (name : String) : Option α :=
  (table.entries.find? fun entry => entry.1 == name).map Prod.snd

def contains (table : Table α) (name : String) : Bool := (table.get? name).isSome

def isEmpty (table : Table α) : Bool := table.entries.isEmpty

def size (table : Table α) : Nat := table.entries.length

theorem distinct_insert {entries : List (String × α)} (h : (entries.map Prod.fst).Nodup)
    (name : String) (value : α) :
    ((entries.filter (fun entry => entry.1 != name) ++ [(name, value)]).map Prod.fst).Nodup := by
  rw [List.map_append, List.nodup_append]
  refine ⟨(List.filter_sublist.map _).nodup h, List.pairwise_singleton .., ?_⟩
  simp +contextual

def insert (table : Table α) (name : String) (value : α) : Table α :=
  ⟨table.entries.filter (fun entry => entry.1 != name) ++ [(name, value)],
    distinct_insert table.distinct name value⟩

/-- The entries in order; of two with one name the later stays. -/
def ofList (entries : List (String × α)) : Table α :=
  entries.foldl (fun table entry => table.insert entry.1 entry.2) empty

def orderedInsert (name : String) : List String → List String
  | [] => [name]
  | head :: rest => if name ≤ head then name :: head :: rest else head :: orderedInsert name rest

def sortedNames (table : Table α) : List String :=
  (table.entries.map Prod.fst).foldr orderedInsert []

theorem get?_insert_self (table : Table α) (name : String) (value : α) :
    (table.insert name value).get? name = some value := by
  have h : (table.entries.filter fun entry => entry.1 != name).find?
      (fun entry => entry.1 == name) = none := by
    simp
  simp [get?, insert, List.find?_append, h]

theorem get?_insert_of_ne (table : Table α) {name other : String} (value : α)
    (h : other ≠ name) : (table.insert name value).get? other = table.get? other := by
  have hfilter : (table.entries.filter fun entry => entry.1 != name).find?
      (fun entry => entry.1 == other) = table.entries.find? fun entry => entry.1 == other := by
    rw [List.find?_filter]
    congr
    funext entry
    by_cases he : entry.1 = other <;> simp_all
  have hname : (name == other) = false := by simp [Ne.symm h]
  simp [get?, insert, List.find?_append, hfilter, hname]

end Table
end EventFormula
