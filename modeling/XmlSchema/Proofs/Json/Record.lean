import XmlSchema.Json.Record
import XmlSchema.Proofs.Json.RoundTrip
import XmlSchema.Table

/-!
# Fields that are read back

A record is written with the names of its fields in their order, so that no field comes twice:
`fields?_object`. How a field was left out says what its absence means: `optional?_unlessNone`,
`defaulted?_unlessFalse` and `defaulted?_unlessEmpty` read exactly what was left out, and
`optional?_orNull` reads a null.
-/

namespace XmlSchema.Json

/-- The members of an object. -/
def members : Json → Members
  | .object members => members
  | _ => []

variable {α : Type} {read : Json → Option α} {write : α → Json} {record others : Members}
  {names more : List String} {key name : String}

/-! ## Names in order -/

/-- Members whose names are some of the given ones, in their order. -/
def Ordered (record : Members) (names : List String) : Prop :=
  (record.map Prod.fst).Sublist names

theorem ordered_of_names (same : record.map Prod.fst = names) : Ordered record names := by
  subst same
  exact List.Sublist.refl _

theorem Ordered.append (first : Ordered record names) (second : Ordered others more) :
    Ordered (record ++ others) (names ++ more) := by
  unfold Ordered
  rw [List.map_append]
  exact List.Sublist.append first second

theorem ordered_unlessNone (name : String) (write : α → Json) (value? : Option α) :
    Ordered (unlessNone name write value?) [name] := by
  cases value? with
  | none => exact List.nil_sublist _
  | some value => exact List.Sublist.refl _

theorem ordered_unlessFalse (name : String) (value : Bool) :
    Ordered (unlessFalse name value) [name] := by
  cases value with
  | false => exact List.nil_sublist _
  | true => exact List.Sublist.refl _

theorem ordered_unlessEmpty (name : String) (write : α → Json) (items : List α) :
    Ordered (unlessEmpty name write items) [name] := by
  cases items with
  | nil => exact List.nil_sublist _
  | cons item items => exact List.Sublist.refl _

/-- Where the names of fields come in their order, no field comes twice. -/
theorem fields?_object (positional : Nat) (distinct : names.Nodup)
    (ordered : Ordered record names) :
    fields? names positional (.object record) = some record := by
  have once : ∀ name, (record.filter (·.1 == name)).length ≤ 1 := by
    intro name
    calc (record.filter (·.1 == name)).length
        = (record.map Prod.fst).count name := by
          rw [← List.countP_eq_length_filter, List.count, List.countP_map]
          rfl
      _ ≤ names.count name := ordered.count_le name
      _ ≤ 1 := List.nodup_iff_count.1 distinct name
  unfold fields?
  simp [once]

/-! ## Members of a segment -/

attribute [simp] Plain.null Plain.bool Plain.integer Plain.string

@[simp] theorem plain_natural (value : Nat) : (natural value).Plain := .integer _

@[simp] theorem plain_stringOrNull (text? : Option String) : (stringOrNull text?).Plain := by
  cases text? with
  | none => exact .null
  | some text => exact .string text

@[simp] theorem plain_word32OrNull (value? : Option UInt32) : (word32OrNull value?).Plain := by
  cases value? with
  | none => exact .null
  | some value => exact plain_natural value.toNat

theorem plain_array (each : ∀ item, (write item).Plain) (items : List α) :
    (array (items.map write)).Plain := by
  refine .array fun value member => ?_
  obtain ⟨item, -, rfl⟩ := List.mem_map.1 member
  exact each item

@[simp] theorem plain_strings (texts : List String) : (strings texts).Plain :=
  plain_array .string texts

theorem plain_unlessNone (each : ∀ value, (write value).Plain) {value? : Option α}
    {member : String × Json} (written : member ∈ unlessNone name write value?) :
    member.2.Plain := by
  cases value? with
  | none => cases written
  | some value =>
      rw [List.mem_singleton.1 written]
      exact each value

theorem plain_unlessFalse {value : Bool} {member : String × Json}
    (written : member ∈ unlessFalse name value) : member.2.Plain := by
  cases value with
  | false => cases written
  | true =>
      rw [List.mem_singleton.1 written]
      exact .bool true

theorem plain_unlessEmpty (each : ∀ item, (write item).Plain) {items : List α}
    {member : String × Json} (written : member ∈ unlessEmpty name write items) :
    member.2.Plain := by
  cases items with
  | nil => cases written
  | cons item items =>
      rw [List.mem_singleton.1 written]
      exact plain_array each (item :: items)

@[simp] theorem lookup_unlessNone (value? : Option α) :
    (unlessNone name write value?).lookup key = if key = name then value?.map write else none := by
  cases value? <;> simp [unlessNone, Table.lookup_cons]

@[simp] theorem lookup_unlessFalse (value : Bool) :
    (unlessFalse name value).lookup key =
      if key = name then (if value then some (.bool true) else none) else none := by
  cases value <;> simp [unlessFalse, Table.lookup_cons]

@[simp] theorem lookup_unlessEmpty (items : List α) :
    (unlessEmpty name write items).lookup key =
      if key = name then (if items.isEmpty then none else some (.array (items.map write)))
      else none := by
  cases items <;> simp [unlessEmpty, Table.lookup_cons]

/-! ## Reading a field -/

theorem required?_of_lookup {json : Json} {value : α} (found : record.lookup name = some json)
    (reads : read json = some value) : required? record name read = some value := by
  unfold required?
  rw [found]
  exact reads

section Values

variable (reads : ∀ value, read (write value) = some value)

include reads in
theorem asList?_map (items : List α) : asList? read (.array (items.map write)) = some items := by
  show (items.map write).mapM read = some items
  rw [List.mapM_map]
  induction items with
  | nil => rfl
  | cons item items inductionHypothesis =>
      rw [List.mapM_cons, inductionHypothesis, Function.comp_apply, reads]
      rfl

variable (present : ∀ value, write value ≠ .null)

include reads present in
/-- What is not null is there. -/
theorem optional?_of_lookup {value : α} (found : record.lookup name = some (write value)) :
    optional? record name read = some (some value) := by
  unfold optional?
  rw [found]
  split
  · rename_i absent
    cases absent
  · rename_i null
    exact absurd (Option.some.inj null) (present value)
  · rename_i same
    cases same
    rw [reads]
    rfl

include reads present in
theorem optional?_unlessNone {value? : Option α} (found : record.lookup name = value?.map write) :
    optional? record name read = some value? := by
  cases value? with
  | none =>
      unfold optional?
      rw [found]
      rfl
  | some value => exact optional?_of_lookup reads present found

include reads present in
theorem optional?_orNull {value? : Option α}
    (found : record.lookup name = some (value?.elim .null write)) :
    optional? record name read = some value? := by
  cases value? with
  | none =>
      unfold optional?
      rw [found]
      rfl
  | some value => exact optional?_of_lookup reads present found

include reads in
theorem defaulted?_unlessEmpty {items : List α}
    (found : record.lookup name =
      if items.isEmpty then none else some (.array (items.map write))) :
    defaulted? record name [] (asList? read) = some items := by
  unfold defaulted?
  rw [found]
  cases items with
  | nil => rfl
  | cons item items => exact asList?_map reads (item :: items)

end Values

theorem defaulted?_unlessFalse {value : Bool}
    (found : record.lookup name = if value then some (.bool true) else none) :
    defaulted? record name false asBool? = some value := by
  unfold defaulted?
  rw [found]
  cases value <;> rfl

/-- A field that is read is passed on to what is read after it. -/
theorem bind_of_read {α β : Type} {outcome : Option α} {value : α} (read : outcome = some value)
    (rest : α → Option β) : (outcome >>= rest) = rest value := by
  rw [read]
  rfl

/-! ## Fields of one kind -/

theorem required?_text {text : String} (found : record.lookup name = some (.string text)) :
    required? record name asText? = some text :=
  required?_of_lookup found rfl

theorem required?_bool {value : Bool} (found : record.lookup name = some (.bool value)) :
    required? record name asBool? = some value :=
  required?_of_lookup found rfl

theorem asWord32?_natural (value : UInt32) : asWord32? (natural value.toNat) = some value := by
  have fits : 0 ≤ (value.toNat : Int) ∧ (value.toNat : Int).toNat < UInt32.size :=
    ⟨Int.natCast_nonneg _, value.toNat_lt⟩
  show (if 0 ≤ (value.toNat : Int) ∧ (value.toNat : Int).toNat < UInt32.size then
    some (UInt32.ofNat (value.toNat : Int).toNat) else none) = some value
  rw [if_pos fits]
  simp

theorem required?_word32 {value : UInt32}
    (found : record.lookup name = some (natural value.toNat)) :
    required? record name asWord32? = some value :=
  required?_of_lookup found (asWord32?_natural value)

theorem required?_list (reads : ∀ value, read (write value) = some value) {items : List α}
    (found : record.lookup name = some (.array (items.map write))) :
    required? record name (asList? read) = some items :=
  required?_of_lookup found (asList?_map reads items)

theorem asText?_string (text : String) : asText? (string text) = some text := rfl

theorem asList?_strings (texts : List String) : asList? asText? (strings texts) = some texts :=
  asList?_map asText?_string texts

theorem optional?_stringOrNull {text? : Option String}
    (found : record.lookup name = some (stringOrNull text?)) :
    optional? record name asText? = some text? := by
  have found' : record.lookup name = some (text?.elim .null string) := by
    cases text? <;> exact found
  exact optional?_orNull asText?_string (fun _ same => Json.noConfusion same) found'

theorem optional?_word32OrNull {value? : Option UInt32}
    (found : record.lookup name = some (word32OrNull value?)) :
    optional? record name asWord32? = some value? := by
  have found' : record.lookup name =
      some (value?.elim .null fun value : UInt32 => natural value.toNat) := by
    cases value? <;> exact found
  exact optional?_orNull asWord32?_natural (fun _ same => Json.noConfusion same) found'

end XmlSchema.Json
