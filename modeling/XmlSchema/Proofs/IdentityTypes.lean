import XmlSchema.Proofs.AttributeTypes

/-!
# Attributes of the types of identifiers

The types of identifiers and of references to them should be exposed for no attribute: they become
the string type. They do wherever the resolved type is built in. But a chain of simple types may
leave the table at a name that no type bears, and that may be the name of a type of identifiers
without its qualifier. So such a name is left only where it is stray, `isStray_of_namesIdentity`.
-/

namespace XmlSchema

/-! ## Names of the types -/

namespace Builtin

/-- Whether the local part of a name is that of the type of identifiers, or of one of the types of
references to them. -/
def NamesIdentity (name : String) : Prop :=
  ∃ type, isIdentity type = true ∧ Namespace.localPart name = localName type

/-- No type of identifiers has a name that ends in that of another type. -/
theorem not_suffix_of_isIdentity (type identity : Builtin) (plain : type.isIdentity = false)
    (isIdentity : identity.isIdentity = true) :
    ¬ type.localName.toList <:+ identity.localName.toList := by
  have checked : (all.filter (!·.isIdentity)).all (fun type =>
      (all.filter Builtin.isIdentity).all fun identity =>
        !type.localName.toList.isSuffixOf identity.localName.toList) = true := by
    decide +kernel
  have isPlain : type ∈ all.filter (!·.isIdentity) :=
    List.mem_filter.2 ⟨mem_all type, by rw [plain]; rfl⟩
  have differs := List.all_eq_true.1 (List.all_eq_true.1 checked type isPlain) identity
    (List.mem_filter.2 ⟨mem_all identity, isIdentity⟩)
  intro suffix
  rw [List.isSuffixOf_iff_suffix.2 suffix] at differs
  cases differs

end Builtin

/-- A qualifier leaves the name of a built-in type whole. -/
theorem Vocabulary.suffix_localPart_qualify (vocabulary : Vocabulary) (type : Builtin) :
    type.localName.toList <:+ (Namespace.localPart (vocabulary.qualify type)).toList := by
  have unqualified : ':' ∉ type.localName.toList :=
    localPart_localName type ▸ Namespace.not_mem_localPart type.localName
  have noColon : ∀ c ∈ type.localName.toList.reverse, (c != ':') = true := by
    intro c member
    rw [bne_iff_ne]
    rintro rfl
    exact unqualified (List.mem_reverse.1 member)
  unfold Namespace.localPart qualify
  rw [String.toList_ofList, String.toList_append, List.reverse_append,
    List.takeWhile_append_of_pos noColon, List.reverse_append, List.reverse_reverse]
  exact List.suffix_append _ _

theorem Vocabulary.not_namesIdentity_of_builtin? {vocabulary : Vocabulary} {name : String}
    {type : Builtin} (found : vocabulary.builtin? name = some type)
    (plain : type.isIdentity = false) : ¬ Builtin.NamesIdentity name := by
  rintro ⟨identity, isIdentity, same⟩
  rw [builtin?_eq_some_iff.1 found] at same
  have suffix := vocabulary.suffix_localPart_qualify type
  rw [same] at suffix
  exact Builtin.not_suffix_of_isIdentity type identity plain isIdentity suffix

/-! ## Attributes -/

section AttributeTypes

variable {context : Context} {before after : Attribute}
  (resolved : AttributeResolved context before after)

include resolved in
/-- A type of identifiers becomes the string type. -/
theorem AttributeResolved.isIdentity_eq_false {type : Builtin}
    (builtin : context.vocabulary.builtin? after.typeName = some type) :
    type.isIdentity = false := by
  obtain ⟨target, place, current, frame, resolvedType, rfl⟩ := resolved
  have typeName : (before.resolved context.vocabulary target).typeName =
      if (context.vocabulary.builtin? target.name).any Builtin.isIdentity then
        context.vocabulary.stringType
      else target.name := rfl
  rw [typeName] at builtin
  split at builtin
  · have isString : context.vocabulary.builtin? context.vocabulary.stringType = some .string :=
      Vocabulary.builtin?_eq_some_iff.2 rfl
    cases builtin.symm.trans isString
    rfl
  · rename_i plain
    rw [builtin] at plain
    exact Bool.eq_false_iff.2 plain

include resolved in
/-- A type of identifiers is left only where its name is stray. -/
theorem AttributeResolved.isStray_of_namesIdentity (known : context.SimpleTypesKnown)
    (names : Builtin.NamesIdentity after.typeName) : context.IsStray after.typeName := by
  obtain ⟨type, given, either⟩ := resolved.isBuiltin_or_isStray known
  have typeName : after.typeName = type := congrArg (·.getD after.dataType) given
  rw [← typeName] at either
  rcases either with builtin | stray
  · obtain ⟨found, isFound⟩ := Option.isSome_iff_exists.1 builtin
    have plain := resolved.isIdentity_eq_false isFound
    exact absurd names (Vocabulary.not_namesIdentity_of_builtin? isFound plain)
  · exact stray

end AttributeTypes

end XmlSchema
