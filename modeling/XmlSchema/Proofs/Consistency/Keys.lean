import XmlSchema.Annotation.AttributeTypes
import XmlSchema.Annotation.Declarations
import XmlSchema.Annotation.DistinctNames
import XmlSchema.Element

/-!
# Keys that are names

What every entry of a table fits, it still fits after each kind of write: `Table.Every` with a lemma
for each operation. Tables of attributes are `Named`, with every attribute under its own name, and
stay so when attributes are merged, completed, renamed and resolved.
-/

namespace XmlSchema

namespace Table

variable {α β : Type} {fits : String → α → Prop} {table other : Table α}

/-- A table of which every value fits the key under which it stands. -/
structure Every (table : Table α) (fits : String → α → Prop) : Prop where
  fits : ∀ {key value}, table.find? key = some value → fits key value

theorem every_empty (fits : String → α → Prop) : (empty : Table α).Every fits :=
  ⟨fun found => by cases found⟩

theorem Every.mono {wider : String → α → Prop} (every : table.Every fits)
    (implies : ∀ {key value}, fits key value → wider key value) : table.Every wider :=
  ⟨fun found => implies (every.fits found)⟩

theorem Every.insert (every : table.Every fits) {key : String} {value : α}
    (new : fits key value) : (table.insert key value).Every fits := by
  refine ⟨fun found => ?_⟩
  rw [find?_insert] at found
  split at found
  · rename_i same
    cases found
    exact same ▸ new
  · exact every.fits found

theorem Every.insertNew (every : table.Every fits) {key : String} {value : α}
    (new : fits key value) : (table.insertNew key value).Every fits := by
  unfold Table.insertNew
  split
  · exact every
  · exact every.insert new

theorem Every.of_mem_entries (every : table.Every fits) {entry : String × α}
    (member : entry ∈ table.entries) : fits entry.1 entry.2 :=
  every.fits (find?_eq_some_iff.2 member)

theorem Every.insertAll (every : table.Every fits) (others : other.Every fits) :
    (table.insertAll other).Every fits := by
  have inserted : ∀ (entries : List (String × α)) (table : Table α), table.Every fits →
      (∀ entry ∈ entries, fits entry.1 entry.2) →
      (entries.foldl (fun extended entry => extended.insert entry.1 entry.2) table).Every fits := by
    intro entries
    induction entries with
    | nil => exact fun table every _ => every
    | cons entry rest inductionHypothesis =>
        intro table every fitting
        obtain ⟨first, later⟩ := List.forall_mem_cons.1 fitting
        exact inductionHypothesis _ (every.insert first) later
  exact inserted other.entries table every fun _ member => others.of_mem_entries member

theorem Every.mapValues {wider : String → β → Prop} {change : String → α → β}
    (every : table.Every fits)
    (carries : ∀ {key value}, fits key value → wider key (change key value)) :
    (table.mapValues change).Every wider := by
  refine ⟨fun found => ?_⟩
  rw [find?_mapValues] at found
  obtain ⟨original, present, rfl⟩ := Option.map_eq_some_iff.1 found
  exact carries (every.fits present)

/-- Whether every attribute of a table stands under its own name. -/
def Named (table : Table Attribute) : Prop := table.Every fun key declaration =>
  declaration.name = key

theorem named_empty : (empty : Table Attribute).Named := every_empty _

theorem Named.insert {table : Table Attribute} (named : table.Named) (declaration : Attribute) :
    (table.insert declaration.name declaration).Named :=
  Every.insert named rfl

theorem Named.insertAll {table other : Table Attribute} (named : table.Named)
    (others : other.Named) : (table.insertAll other).Named :=
  Every.insertAll named others

theorem Named.mapValues {table : Table Attribute} (named : table.Named)
    {change : String → Attribute → Attribute}
    (keeps : ∀ key declaration, (change key declaration).name = declaration.name) :
    (table.mapValues change).Named :=
  Every.mapValues named fun {key value} same => (keeps key value).trans same

theorem Named.modify {table : Table Attribute} (named : table.Named) (key : String)
    {change : Attribute → Attribute}
    (keeps : ∀ declaration, (change declaration).name = declaration.name) :
    (table.modify key change).Named := by
  refine named.mapValues fun name declaration => ?_
  split
  · exact keeps declaration
  · rfl

end Table

/-! ## Attributes under their names -/

/-- A declaration whose attributes stand under their names, also those of an open group. -/
structure Element.Keyed (element : Element) : Prop where
  attributes : element.attributes.Named
  openGroup? : ∀ {group}, element.openGroup? = some group → group.attributes.Named

/-- Renamed attributes stand under their new names and all others under their old ones. -/
theorem named_separateNames {attributes : Table Attribute} (named : attributes.Named)
    (identifiers : List String) : (separateNames identifiers attributes).Named := by
  have separated : ∀ (entries : List (String × Attribute)) (table : Table Attribute),
      table.Named → (∀ entry ∈ entries, entry.2.name = entry.1) →
      (entries.foldl (fun separated (entry : String × Attribute) =>
        if entry.2.cleanName ∈ identifiers then
          let name := freshName identifiers (attributes.keys ++ separated.keys)
            (entry.2.name ++ attributeSuffix)
          separated.insert name (entry.2.rename name)
        else separated.insert entry.1 entry.2) table).Named := by
    intro entries
    induction entries with
    | nil => exact fun table named _ => named
    | cons entry rest inductionHypothesis =>
        intro table tableNamed fitting
        obtain ⟨first, later⟩ := List.forall_mem_cons.1 fitting
        refine inductionHypothesis _ ?_ later
        dsimp only
        split
        · exact Table.Named.insert tableNamed (entry.2.rename _)
        · exact Table.Every.insert tableNamed first
  exact separated attributes.entries .empty Table.named_empty
    fun _ member => Table.Every.of_mem_entries named member

theorem name_inheritGlobal (globals : Table Attribute) (declaration : Attribute) :
    (declaration.inheritGlobal globals).name = declaration.name := by
  unfold Attribute.inheritGlobal
  split <;> rfl

/-! ## Merges -/

/-- What every step of a merge for a declaration keeps. -/
structure KeptByMerge (groups : Table AttributeGroup) (owner : String)
    (Holds : AttributeMerge → Prop) : Prop where
  undefined : ∀ {merge}, Holds merge → ∀ reference,
    Holds (merge.warn (.undefinedAttributeGroup reference owner))
  circular : ∀ {merge}, Holds merge → ∀ name, Holds (merge.warn (.circularAttributeGroup name))
  merges : ∀ {merge}, Holds merge → ∀ {name group}, groups.find? name = some group →
    Holds { merge with attributes := merge.attributes.insertAll group.attributes }

variable {groups : Table AttributeGroup} {owner : String} {Holds : AttributeMerge → Prop}

mutual

theorem KeptByMerge.mergeGroup {path : List String} {merge : AttributeMerge}
    (kept : KeptByMerge groups owner Holds) (reference : String) (held : Holds merge) :
    Holds (mergeGroup groups owner path reference merge) := by
  rw [XmlSchema.mergeGroup]
  dsimp only
  split
  · exact kept.undefined held reference
  · rename_i group found
    split
    · exact kept.circular held _
    · exact kept.merges (kept.mergeGroups group.references held) found
termination_by mergeWork groups path
decreasing_by exact mergeWork_cons (by assumption) (by assumption)

theorem KeptByMerge.mergeGroups {path : List String} {merge : AttributeMerge}
    (kept : KeptByMerge groups owner Holds) (references : List String) (held : Holds merge) :
    Holds (mergeGroups groups owner path references merge) := by
  cases references with
  | nil =>
      rw [XmlSchema.mergeGroups]
      exact held
  | cons reference rest =>
      rw [XmlSchema.mergeGroups]
      exact kept.mergeGroups rest (kept.mergeGroup reference held)
termination_by mergeWork groups path + references.length
decreasing_by
  · simp
  · simp

end

/-- What is merged from groups whose attributes are named is named. -/
theorem named_mergeGroups (named : groups.Every fun _ group => group.attributes.Named)
    (path references : List String) :
    (mergeGroups groups owner path references .empty).attributes.Named := by
  have kept : KeptByMerge groups owner fun merge => merge.attributes.Named :=
    { undefined := fun held _ => held
      circular := fun held _ => held
      merges := fun held _ _ found => Table.Named.insertAll held (named.fits found) }
  exact kept.mergeGroups references Table.named_empty

end XmlSchema
