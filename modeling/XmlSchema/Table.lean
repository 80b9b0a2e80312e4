/-!
# Insertion-ordered tables

A table maps text keys to values and remembers the order in which keys were first entered. Each key
occurs once, which the type itself records. Replacing a value keeps the place of its key, so the
keys of a table are its history of first entries.

The laws read a table after a write: `find?_insert`, `find?_insertNew`, `find?_mapValues` for the
values, `keys_insert`, `keys_insertNew`, `keys_mapValues` for the order.
-/

namespace XmlSchema

/-- A table from text to `α`, in the order of first insertion. -/
structure Table (α : Type) where
  entries : List (String × α)
  nodup_keys : (entries.map Prod.fst).Nodup
deriving DecidableEq

namespace Table

variable {α : Type}

/-- The table without entries. -/
def empty : Table α := ⟨[], List.nodup_nil⟩

instance : Inhabited (Table α) := ⟨empty⟩

instance : EmptyCollection (Table α) := ⟨empty⟩

/-- The keys, in order of first insertion. -/
def keys (table : Table α) : List String := table.entries.map Prod.fst

/-- The values, in the order of their keys. -/
def values (table : Table α) : List α := table.entries.map Prod.snd

/-- The value entered under `key`. -/
def find? (table : Table α) (key : String) : Option α := table.entries.lookup key

/-- Whether something is entered under `key`. -/
def contains (table : Table α) (key : String) : Bool := (table.find? key).isSome

/-- Whether the table has no entries. -/
def isEmpty (table : Table α) : Bool := table.entries.isEmpty

def size (table : Table α) : Nat := table.entries.length

/-- Entries with `value` under `key`: in place of the old value, or else at the end. -/
def putEntry (key : String) (value : α) : List (String × α) → List (String × α)
  | [] => [(key, value)]
  | entry :: rest =>
      if entry.1 = key then (key, value) :: rest else entry :: putEntry key value rest

theorem map_fst_putEntry (key : String) (value : α) (entries : List (String × α)) :
    (putEntry key value entries).map Prod.fst =
      if key ∈ entries.map Prod.fst then entries.map Prod.fst
      else entries.map Prod.fst ++ [key] := by
  induction entries with
  | nil => simp [putEntry]
  | cons entry rest inductionHypothesis =>
      by_cases same : entry.1 = key
      · simp [putEntry, same]
      · have different : key ≠ entry.1 := fun equal => same equal.symm
        simp only [putEntry, same, if_false, List.map_cons, inductionHypothesis,
          List.mem_cons, different, false_or]
        split <;> simp

theorem nodup_putEntry (key : String) (value : α) {entries : List (String × α)}
    (nodup : (entries.map Prod.fst).Nodup) :
    ((putEntry key value entries).map Prod.fst).Nodup := by
  rw [map_fst_putEntry]
  split
  · exact nodup
  · rename_i fresh
    refine List.nodup_append.2 ⟨nodup, by simp, ?_⟩
    intro left leftMember right rightMember equal
    simp only [List.mem_singleton] at rightMember
    exact fresh (rightMember ▸ equal ▸ leftMember)

/-- Enters `value` under `key`. An old value is replaced and its key keeps its place. -/
def insert (table : Table α) (key : String) (value : α) : Table α :=
  ⟨putEntry key value table.entries, nodup_putEntry key value table.nodup_keys⟩

/-- Enters `value` under `key` unless the key is taken: the first registration wins. -/
def insertNew (table : Table α) (key : String) (value : α) : Table α :=
  if table.contains key then table else table.insert key value

/-- Enters every entry of `other`, in order. -/
def insertAll (table other : Table α) : Table α :=
  other.entries.foldl (fun extended entry => extended.insert entry.1 entry.2) table

/-- The table of a list of pairs, entered in order. -/
def ofList (pairs : List (String × α)) : Table α :=
  pairs.foldl (fun table pair => table.insert pair.1 pair.2) empty

/-- Changes every value and no key. -/
def mapValues {β : Type} (table : Table α) (change : String → α → β) : Table β :=
  ⟨table.entries.map fun entry => (entry.1, change entry.1 entry.2), by
    rw [List.map_map]; exact table.nodup_keys⟩

/-- Changes the value under `key`, if there is one. -/
def modify (table : Table α) (key : String) (change : α → α) : Table α :=
  table.mapValues fun name value => if name = key then change value else value

/-! ## What a table holds after a write -/

/-- The first entry decides about its key, and the others about all other keys. -/
theorem lookup_cons (entry : String × α) (rest : List (String × α)) (key : String) :
    (entry :: rest).lookup key = if key = entry.1 then some entry.2 else rest.lookup key := by
  obtain ⟨name, value⟩ := entry
  rw [List.lookup_cons]
  by_cases same : key = name
  · simp [same]
  · simp [beq_false_of_ne same, same]

theorem lookup_putEntry (key other : String) (value : α) (entries : List (String × α)) :
    (putEntry key value entries).lookup other =
      if other = key then some value else entries.lookup other := by
  induction entries with
  | nil =>
      by_cases same : other = key
      · simp [putEntry, same]
      · simp [putEntry, same, lookup_cons]
  | cons entry rest inductionHypothesis =>
      by_cases atKey : entry.1 = key
      · by_cases same : other = key
        · simp [putEntry, atKey, same]
        · simp [putEntry, atKey, same, lookup_cons]
      · by_cases atOther : other = entry.1
        · have different : other ≠ key := fun equal => atKey (atOther ▸ equal)
          simp [putEntry, atKey, lookup_cons, atOther]
        · simp [putEntry, atKey, lookup_cons, atOther, inductionHypothesis]

theorem find?_insert (table : Table α) (key other : String) (value : α) :
    (table.insert key value).find? other =
      if other = key then some value else table.find? other :=
  lookup_putEntry key other value table.entries

theorem find?_insertNew (table : Table α) (key other : String) (value : α) :
    (table.insertNew key value).find? other =
      if other = key then some ((table.find? key).getD value) else table.find? other := by
  unfold insertNew contains
  by_cases taken : (table.find? key).isSome
  · obtain ⟨old, found⟩ := Option.isSome_iff_exists.1 taken
    by_cases same : other = key <;> simp [found, same]
  · have absent : table.find? key = none := by simpa using taken
    simp [absent, find?_insert]

theorem keys_insert (table : Table α) (key : String) (value : α) :
    (table.insert key value).keys =
      if key ∈ table.keys then table.keys else table.keys ++ [key] :=
  map_fst_putEntry key value table.entries

theorem eq_of_entries {left right : Table α} (same : left.entries = right.entries) :
    left = right := by
  cases left
  cases right
  cases same
  rfl

theorem putEntry_of_not_mem {key : String} (value : α) {entries : List (String × α)}
    (fresh : key ∉ entries.map Prod.fst) :
    putEntry key value entries = entries ++ [(key, value)] := by
  induction entries with
  | nil => rfl
  | cons entry rest inductionHypothesis =>
      rw [List.map_cons, List.mem_cons, not_or] at fresh
      rw [putEntry, if_neg (Ne.symm fresh.1), inductionHypothesis fresh.2, List.cons_append]

/-- What is entered under a new key comes behind everything else. -/
theorem entries_insert_of_not_mem {table : Table α} {key : String} (fresh : key ∉ table.keys)
    (value : α) : (table.insert key value).entries = table.entries ++ [(key, value)] :=
  putEntry_of_not_mem value fresh

@[simp] theorem keys_mapValues {β : Type} (table : Table α) (change : String → α → β) :
    (table.mapValues change).keys = table.keys := by
  simp [keys, mapValues]

@[simp] theorem keys_modify (table : Table α) (key : String) (change : α → α) :
    (table.modify key change).keys = table.keys :=
  keys_mapValues _ _

theorem find?_mapValues {β : Type} (table : Table α) (change : String → α → β) (key : String) :
    (table.mapValues change).find? key = (table.find? key).map (change key) := by
  show (table.entries.map fun entry => (entry.1, change entry.1 entry.2)).lookup key =
    (table.entries.lookup key).map (change key)
  induction table.entries with
  | nil => rfl
  | cons entry rest inductionHypothesis =>
      by_cases same : key = entry.1
      · subst same
        simp [lookup_cons]
      · simp [lookup_cons, same, inductionHypothesis]

theorem find?_modify (table : Table α) (key other : String) (change : α → α) :
    (table.modify key change).find? other =
      if other = key then (table.find? other).map change else table.find? other := by
  unfold modify
  rw [find?_mapValues]
  split
  · rfl
  · exact Option.map_id'

theorem contains_iff_mem_keys (table : Table α) (key : String) :
    table.contains key = true ↔ key ∈ table.keys := by
  unfold contains find? keys
  induction table.entries with
  | nil => simp
  | cons entry rest inductionHypothesis =>
      by_cases same : key = entry.1
      · subst same
        simp [lookup_cons]
      · simp [lookup_cons, same, inductionHypothesis]

theorem keys_insertNew (table : Table α) (key : String) (value : α) :
    (table.insertNew key value).keys =
      if key ∈ table.keys then table.keys else table.keys ++ [key] := by
  unfold insertNew
  by_cases taken : table.contains key = true
  · simp [taken, (contains_iff_mem_keys table key).1 taken]
  · have fresh : key ∉ table.keys := fun member =>
      taken ((contains_iff_mem_keys table key).2 member)
    simp [taken, keys_insert, fresh]

theorem mem_entries_of_find? {table : Table α} {key : String} {value : α}
    (found : table.find? key = some value) : (key, value) ∈ table.entries := by
  unfold find? at found
  obtain ⟨before, after, split, -⟩ := List.lookup_eq_some_iff.1 found
  rw [split]
  simp

/-- Each key occurs once, so what is entered is found. -/
theorem find?_eq_some_iff {table : Table α} {key : String} {value : α} :
    table.find? key = some value ↔ (key, value) ∈ table.entries := by
  refine ⟨mem_entries_of_find?, fun member => ?_⟩
  obtain ⟨entries, nodup⟩ := table
  induction entries with
  | nil => cases member
  | cons entry rest inductionHypothesis =>
      obtain ⟨fresh, nodupRest⟩ := List.nodup_cons.1 nodup
      show (entry :: rest).lookup key = some value
      rw [lookup_cons]
      rcases List.mem_cons.1 member with rfl | later
      · exact if_pos rfl
      · have different : key ≠ entry.1 := fun same =>
          fresh (same ▸ List.mem_map.2 ⟨(key, value), later, rfl⟩)
        rw [if_neg different]
        exact inductionHypothesis nodupRest later

/-- The order of the entries makes no difference to what is found. -/
theorem find?_eq_of_perm {left right : Table α} (perm : left.entries.Perm right.entries)
    (key : String) : left.find? key = right.find? key :=
  Option.ext fun _ => by rw [find?_eq_some_iff, find?_eq_some_iff, perm.mem_iff]

theorem mem_values_of_find? {table : Table α} {key : String} {value : α}
    (found : table.find? key = some value) : value ∈ table.values :=
  List.mem_map.2 ⟨(key, value), mem_entries_of_find? found, rfl⟩

theorem contains_of_find? {table : Table α} {key : String} {value : α}
    (found : table.find? key = some value) : table.contains key = true := by
  simp [contains, found]

@[simp] theorem isEmpty_mapValues {β : Type} (table : Table α) (change : String → α → β) :
    (table.mapValues change).isEmpty = table.isEmpty := by
  simp [isEmpty, mapValues]

@[simp] theorem isEmpty_modify (table : Table α) (key : String) (change : α → α) :
    (table.modify key change).isEmpty = table.isEmpty :=
  isEmpty_mapValues table _

@[simp] theorem isEmpty_insert (table : Table α) (key : String) (value : α) :
    (table.insert key value).isEmpty = false := by
  show (putEntry key value table.entries).isEmpty = false
  cases table.entries with
  | nil => rfl
  | cons entry rest =>
      unfold putEntry
      split <;> rfl

/-- Entries are only added. -/
theorem isEmpty_of_isEmpty_insertAll {table other : Table α}
    (empty : (table.insertAll other).isEmpty = true) : table.isEmpty = true := by
  have kept : ∀ (entries : List (String × α)) (table : Table α),
      (entries.foldl (fun extended entry => extended.insert entry.1 entry.2) table).isEmpty = true →
        table.isEmpty = true := by
    intro entries
    induction entries with
    | nil => exact fun table empty => empty
    | cons entry rest inductionHypothesis =>
        intro table empty
        have nonempty := inductionHypothesis _ empty
        rw [isEmpty_insert] at nonempty
        cases nonempty
  exact kept other.entries table empty

@[simp] theorem find?_empty (key : String) : (empty : Table α).find? key = none := rfl

end Table

end XmlSchema
