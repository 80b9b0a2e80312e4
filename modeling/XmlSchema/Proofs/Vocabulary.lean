import Mathlib.Data.List.Basic
import XmlSchema.Element

/-!
# Names of built-in types

A name is built in when it is the qualifier followed by the local name of a built-in type,
`isBuiltin_iff`. A built-in name is the same after normalization, so a tag that refers to a built-in
type keeps its name as written, `ofTag_type?_of_isBuiltin`, and it is never taken for a wildcard.
-/

namespace XmlSchema

theorem afterLead?_eq_some_iff {lead text rest : String} :
    afterLead? lead text = some rest ↔ text = lead ++ rest := by
  unfold afterLead?
  rw [Option.map_eq_some_iff]
  constructor
  · rintro ⟨chars, after, rfl⟩
    rw [List.isPrefixOf?_eq_some_iff_append_eq] at after
    apply String.toList_injective
    rw [String.toList_append, String.toList_ofList, after]
  · rintro rfl
    refine ⟨rest.toList, ?_, String.ofList_toList⟩
    rw [List.isPrefixOf?_eq_some_iff_append_eq, String.toList_append]

/-- A local part has no namespace. -/
theorem Namespace.not_mem_localPart (name : String) : ':' ∉ (localPart name).toList := by
  unfold localPart
  rw [String.toList_ofList, List.mem_reverse]
  intro member
  have taken := List.all_eq_true.1 List.all_takeWhile ':' member
  cases taken

namespace Vocabulary

variable {vocabulary : Vocabulary} {name : String}

theorem builtin?_eq_some_iff {type : Builtin} :
    vocabulary.builtin? name = some type ↔ name = vocabulary.qualify type := by
  unfold builtin? qualify
  rw [Option.bind_eq_some_iff]
  constructor
  · rintro ⟨localName, after, found⟩
    rw [afterLead?_eq_some_iff.1 after, Builtin.localName_of_ofLocalName? found]
  · rintro rfl
    exact ⟨type.localName, afterLead?_eq_some_iff.2 rfl, Builtin.ofLocalName?_localName type⟩

theorem isBuiltin_iff :
    vocabulary.isBuiltin name = true ↔ ∃ type, name = vocabulary.qualify type := by
  unfold isBuiltin
  rw [Option.isSome_iff_exists]
  exact exists_congr fun type => builtin?_eq_some_iff

theorem isBuiltin_stringType (vocabulary : Vocabulary) :
    vocabulary.isBuiltin vocabulary.stringType = true :=
  isBuiltin_iff.2 ⟨.string, rfl⟩

/-- A type as the declaration of a tag refers to it: under the qualifier as it is, and any other
without its namespace. -/
def normalize (vocabulary : Vocabulary) (type : String) : String :=
  if vocabulary.qualifies type then type else Namespace.localPart type

theorem localPart_localName (type : Builtin) :
    Namespace.localPart type.localName = type.localName := by
  cases type <;> decide +kernel

theorem normalize_of_isBuiltin (builtin : vocabulary.isBuiltin name = true) :
    vocabulary.normalize name = name := by
  obtain ⟨type, rfl⟩ := isBuiltin_iff.1 builtin
  unfold normalize
  by_cases unqualified : vocabulary.qualifier = ""
  · have localName : vocabulary.qualify type = type.localName := by
      unfold qualify
      rw [unqualified, String.empty_append]
    rw [localName, localPart_localName, ite_self]
  · have after : afterLead? vocabulary.qualifier (vocabulary.qualify type) = some type.localName :=
      afterLead?_eq_some_iff.2 rfl
    have qualifies : vocabulary.qualifies (vocabulary.qualify type) = true := by
      unfold Vocabulary.qualifies
      rw [after]
      simpa using unqualified
    rw [if_pos qualifies]

theorem not_suffix_wildcardType (type : Builtin) :
    ¬ type.localName.toList <:+ wildcardType.toList := by
  cases type <;> decide +kernel

/-- The type of wildcards is not built in, whatever the qualifier. -/
theorem isBuiltin_wildcardType (vocabulary : Vocabulary) :
    vocabulary.isBuiltin wildcardType = false := by
  rw [Bool.eq_false_iff]
  intro builtin
  obtain ⟨type, same⟩ := isBuiltin_iff.1 builtin
  refine not_suffix_wildcardType type ⟨vocabulary.qualifier.toList, ?_⟩
  rw [same]
  exact String.toList_append.symm

end Vocabulary

end XmlSchema
