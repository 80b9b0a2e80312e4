import XmlSchema.Dump.Codec
import XmlSchema.Proofs.Json.Record

/-!
# Dumps survive JSON

Every dump is read back from its JSON text as it was, whatever is in its entries:
`ofJson?_parse_render`. For each kind of entry, what is written is plain, which is why its text is
read as the value; the names of the fields come in their order; and each field is read back from its
own member or from the lack of one.
-/

namespace XmlSchema.Dump

open Json (Ordered Plain fields? required? optional? defaulted? asText? asBool? asWord32? asList?
  members)

attribute [local simp] List.lookup_append Table.lookup_cons members

/-! ## Restrictions -/

namespace RestrictionEntry

variable (entry : RestrictionEntry)

theorem plain_toJson : entry.toJson.Plain := by
  refine .object ?_
  simp only [List.forall_mem_append, List.forall_mem_singleton]
  exact ⟨⟨⟨.string _, fun _ => Json.plain_unlessNone .string⟩,
    fun _ => Json.plain_unlessNone .string⟩, fun _ => Json.plain_unlessNone Json.plain_strings⟩

theorem fields?_toJson :
    fields? ["kind", "minimum", "maximum", "values"] 4 entry.toJson =
      some entry.toJson.members := by
  have ordered : Ordered entry.toJson.members
      (["kind"] ++ ["minimum"] ++ ["maximum"] ++ ["values"]) :=
    (((Json.ordered_of_names rfl).append (Json.ordered_unlessNone ..)).append
      (Json.ordered_unlessNone ..)).append (Json.ordered_unlessNone ..)
  exact Json.fields?_object 4 (by decide) ordered

theorem ofJson?_toJson : ofJson? entry.toJson = some entry := by
  have kind : required? entry.toJson.members "kind" asText? = some entry.kind :=
    Json.required?_text (by simp [toJson])
  have minimum : optional? entry.toJson.members "minimum" asText? = some entry.minimum? :=
    Json.optional?_unlessNone Json.asText?_string nofun (by simp [toJson])
  have maximum : optional? entry.toJson.members "maximum" asText? = some entry.maximum? :=
    Json.optional?_unlessNone Json.asText?_string nofun (by simp [toJson])
  have values :
      optional? entry.toJson.members "values" (asList? asText?) = some entry.values? :=
    Json.optional?_unlessNone Json.asList?_strings nofun (by simp [toJson])
  unfold ofJson?
  rw [Json.bind_of_read (fields?_toJson entry), Json.bind_of_read kind, Json.bind_of_read minimum,
    Json.bind_of_read maximum, Json.bind_of_read values]

end RestrictionEntry

/-! ## Children -/

namespace ChildEntry

variable (entry : ChildEntry)

theorem plain_toJson : entry.toJson.Plain := by
  refine .object ?_
  simp

theorem fields?_toJson :
    fields? ["name", "type", "min_occurs", "max_occurs"] 4 entry.toJson =
      some entry.toJson.members :=
  Json.fields?_object 4 (by decide) (Json.ordered_of_names rfl)

theorem ofJson?_toJson : ofJson? entry.toJson = some entry := by
  have name : required? entry.toJson.members "name" asText? = some entry.name :=
    Json.required?_text (by simp [toJson])
  have type : required? entry.toJson.members "type" asText? = some entry.type :=
    Json.required?_text (by simp [toJson])
  have minOccurs :
      required? entry.toJson.members "min_occurs" asWord32? = some entry.minOccurs :=
    Json.required?_word32 (by simp [toJson])
  have maxOccurs :
      optional? entry.toJson.members "max_occurs" asWord32? = some entry.maxOccurs? :=
    Json.optional?_word32OrNull (by simp [toJson])
  unfold ofJson?
  rw [Json.bind_of_read (fields?_toJson entry), Json.bind_of_read name, Json.bind_of_read type,
    Json.bind_of_read minOccurs, Json.bind_of_read maxOccurs]

end ChildEntry

/-! ## Attributes -/

namespace AttributeEntry

variable (entry : AttributeEntry)

theorem plain_toJson : entry.toJson.Plain := by
  refine .object ?_
  simp only [List.forall_mem_append]
  refine ⟨by simp, fun _ => Json.plain_unlessNone RestrictionEntry.plain_toJson⟩

theorem fields?_toJson :
    fields? ["name", "type", "use", "default", "restriction"] 5 entry.toJson =
      some entry.toJson.members := by
  have ordered : Ordered entry.toJson.members
      (["name", "type", "use", "default"] ++ ["restriction"]) :=
    (Json.ordered_of_names rfl).append (Json.ordered_unlessNone ..)
  exact Json.fields?_object 5 (by decide) ordered

theorem ofJson?_toJson : ofJson? entry.toJson = some entry := by
  have name : required? entry.toJson.members "name" asText? = some entry.name :=
    Json.required?_text (by simp [toJson])
  have type : required? entry.toJson.members "type" asText? = some entry.type :=
    Json.required?_text (by simp [toJson])
  have usage : required? entry.toJson.members "use" asText? = some entry.usage :=
    Json.required?_text (by simp [toJson])
  have default : optional? entry.toJson.members "default" asText? = some entry.default? :=
    Json.optional?_stringOrNull (by simp [toJson])
  have restriction :
      optional? entry.toJson.members "restriction" RestrictionEntry.ofJson? =
        some entry.restriction? :=
    Json.optional?_unlessNone RestrictionEntry.ofJson?_toJson nofun (by simp [toJson])
  unfold ofJson?
  rw [Json.bind_of_read (fields?_toJson entry), Json.bind_of_read name, Json.bind_of_read type,
    Json.bind_of_read usage, Json.bind_of_read default, Json.bind_of_read restriction]

end AttributeEntry

/-! ## Declarations -/

namespace ElementEntry

variable (entry : ElementEntry)

theorem plain_toJson : entry.toJson.Plain := by
  refine .object ?_
  simp only [List.forall_mem_append]
  refine ⟨⟨⟨⟨⟨⟨⟨⟨by simp, ?base⟩, by simp⟩, ?mismatch⟩, ?abstract⟩, by simp⟩, ?restriction⟩,
    ?attributes⟩, ?children⟩
  case base => exact fun _ => Json.plain_unlessNone .string
  case mismatch => exact fun _ => Json.plain_unlessFalse
  case abstract => exact fun _ => Json.plain_unlessFalse
  case restriction => exact fun _ => Json.plain_unlessNone RestrictionEntry.plain_toJson
  case attributes => exact fun _ => Json.plain_unlessEmpty AttributeEntry.plain_toJson
  case children => exact fun _ => Json.plain_unlessEmpty ChildEntry.plain_toJson

theorem fields?_toJson : fields? fieldNames 13 entry.toJson = some entry.toJson.members := by
  have ordered : Ordered entry.toJson.members
      (["name", "qualified_name", "clean_name", "type", "is_complex"] ++ ["base"] ++
        ["min_occurs", "max_occurs", "mixed"] ++ ["mixed_extension_error"] ++ ["is_abstract"] ++
        ["extended"] ++ ["restriction"] ++ ["attributes"] ++ ["child_elements"]) :=
    ((((((((Json.ordered_of_names rfl).append (Json.ordered_unlessNone ..)).append
      (Json.ordered_of_names rfl)).append (Json.ordered_unlessFalse ..)).append
      (Json.ordered_unlessFalse ..)).append (Json.ordered_of_names rfl)).append
      (Json.ordered_unlessNone ..)).append (Json.ordered_unlessEmpty ..)).append
      (Json.ordered_unlessEmpty ..)
  exact Json.fields?_object 13 (by decide) ordered

theorem ofJson?_toJson : ofJson? entry.toJson = some entry := by
  have name : required? entry.toJson.members "name" asText? = some entry.name :=
    Json.required?_text (by simp [toJson])
  have qualifiedName :
      required? entry.toJson.members "qualified_name" asText? = some entry.qualifiedName :=
    Json.required?_text (by simp [toJson])
  have cleanName :
      required? entry.toJson.members "clean_name" asText? = some entry.cleanName :=
    Json.required?_text (by simp [toJson])
  have type : optional? entry.toJson.members "type" asText? = some entry.type? :=
    Json.optional?_stringOrNull (by simp [toJson])
  have complex :
      required? entry.toJson.members "is_complex" asBool? = some entry.isComplex :=
    Json.required?_bool (by simp [toJson])
  have base : optional? entry.toJson.members "base" asText? = some entry.base? :=
    Json.optional?_unlessNone Json.asText?_string nofun (by simp [toJson])
  have minOccurs :
      required? entry.toJson.members "min_occurs" asWord32? = some entry.minOccurs :=
    Json.required?_word32 (by simp [toJson])
  have maxOccurs :
      optional? entry.toJson.members "max_occurs" asWord32? = some entry.maxOccurs? :=
    Json.optional?_word32OrNull (by simp [toJson])
  have mixed : required? entry.toJson.members "mixed" asBool? = some entry.isMixed :=
    Json.required?_bool (by simp [toJson])
  have mismatch :
      defaulted? entry.toJson.members "mixed_extension_error" false asBool? =
        some entry.mixedMismatch :=
    Json.defaulted?_unlessFalse (by simp [toJson])
  have abstract :
      defaulted? entry.toJson.members "is_abstract" false asBool? = some entry.isAbstract :=
    Json.defaulted?_unlessFalse (by simp [toJson])
  have extended : required? entry.toJson.members "extended" asBool? = some entry.isExtended :=
    Json.required?_bool (by simp [toJson])
  have restriction :
      optional? entry.toJson.members "restriction" RestrictionEntry.ofJson? =
        some entry.restriction? :=
    Json.optional?_unlessNone RestrictionEntry.ofJson?_toJson nofun (by simp [toJson])
  have attributes :
      defaulted? entry.toJson.members "attributes" [] (asList? AttributeEntry.ofJson?) =
        some entry.attributes :=
    Json.defaulted?_unlessEmpty AttributeEntry.ofJson?_toJson (by simp [toJson])
  have children :
      defaulted? entry.toJson.members "child_elements" [] (asList? ChildEntry.ofJson?) =
        some entry.children :=
    Json.defaulted?_unlessEmpty ChildEntry.ofJson?_toJson (by simp [toJson])
  unfold ofJson?
  rw [Json.bind_of_read (fields?_toJson entry), Json.bind_of_read name,
    Json.bind_of_read qualifiedName, Json.bind_of_read cleanName, Json.bind_of_read type,
    Json.bind_of_read complex, Json.bind_of_read base, Json.bind_of_read minOccurs,
    Json.bind_of_read maxOccurs, Json.bind_of_read mixed, Json.bind_of_read mismatch,
    Json.bind_of_read abstract, Json.bind_of_read extended, Json.bind_of_read restriction,
    Json.bind_of_read attributes, Json.bind_of_read children]

end ElementEntry

/-! ## Simple types -/

namespace SimpleTypeEntry

variable (entry : SimpleTypeEntry)

theorem plain_toJson : entry.toJson.Plain := by
  refine .object ?_
  simp only [List.forall_mem_append]
  refine ⟨⟨⟨⟨by simp, ?list⟩, ?union⟩, ?space⟩, ?restriction⟩
  case list => exact fun _ => Json.plain_unlessFalse
  case union => exact fun _ => Json.plain_unlessEmpty .string
  case space => exact fun _ => Json.plain_unlessFalse
  case restriction => exact fun _ => Json.plain_unlessNone RestrictionEntry.plain_toJson

theorem fields?_toJson :
    fields? ["name", "base_type", "is_list", "union_members", "collapse_whitespace", "restriction"] 6
      entry.toJson = some entry.toJson.members := by
  have ordered : Ordered entry.toJson.members
      (["name", "base_type"] ++ ["is_list"] ++ ["union_members"] ++ ["collapse_whitespace"] ++
        ["restriction"]) :=
    ((((Json.ordered_of_names rfl).append (Json.ordered_unlessFalse ..)).append
      (Json.ordered_unlessEmpty ..)).append (Json.ordered_unlessFalse ..)).append
      (Json.ordered_unlessNone ..)
  exact Json.fields?_object 6 (by decide) ordered

theorem ofJson?_toJson : ofJson? entry.toJson = some entry := by
  have name : required? entry.toJson.members "name" asText? = some entry.name :=
    Json.required?_text (by simp [toJson])
  have base : optional? entry.toJson.members "base_type" asText? = some entry.base? :=
    Json.optional?_stringOrNull (by simp [toJson])
  have list :
      defaulted? entry.toJson.members "is_list" false asBool? = some entry.isList :=
    Json.defaulted?_unlessFalse (by simp [toJson])
  have union :
      defaulted? entry.toJson.members "union_members" [] (asList? asText?) =
        some entry.members :=
    Json.defaulted?_unlessEmpty Json.asText?_string (by simp [toJson])
  have space :
      defaulted? entry.toJson.members "collapse_whitespace" false asBool? =
        some entry.collapsesSpace :=
    Json.defaulted?_unlessFalse (by simp [toJson])
  have restriction :
      optional? entry.toJson.members "restriction" RestrictionEntry.ofJson? =
        some entry.restriction? :=
    Json.optional?_unlessNone RestrictionEntry.ofJson?_toJson nofun (by simp [toJson])
  unfold ofJson?
  rw [Json.bind_of_read (fields?_toJson entry), Json.bind_of_read name, Json.bind_of_read base,
    Json.bind_of_read list, Json.bind_of_read union, Json.bind_of_read space,
    Json.bind_of_read restriction]

end SimpleTypeEntry

/-! ## Substitution groups -/

namespace SubstitutionEntry

variable (entry : SubstitutionEntry)

theorem plain_toJson : entry.toJson.Plain := by
  refine .object ?_
  simp

theorem fields?_toJson :
    fields? ["head", "members"] 2 entry.toJson = some entry.toJson.members :=
  Json.fields?_object 2 (by decide) (Json.ordered_of_names rfl)

theorem ofJson?_toJson : ofJson? entry.toJson = some entry := by
  have head : required? entry.toJson.members "head" asText? = some entry.head :=
    Json.required?_text (by simp [toJson])
  have substitutes :
      required? entry.toJson.members "members" (asList? asText?) = some entry.members :=
    Json.required?_list Json.asText?_string (by simp [toJson, Json.strings])
  unfold ofJson?
  rw [Json.bind_of_read (fields?_toJson entry), Json.bind_of_read head,
    Json.bind_of_read substitutes]

end SubstitutionEntry

/-! ## Dumps -/

variable (dump : Dump)

theorem plain_toJson : dump.toJson.Plain := by
  refine .object ?_
  simp [Json.plain_array ElementEntry.plain_toJson, Json.plain_array SimpleTypeEntry.plain_toJson,
    Json.plain_array SubstitutionEntry.plain_toJson]

theorem fields?_toJson :
    fields? ["target_namespace", "xsd_prefix", "elements", "simple_types", "substitution_groups",
      "warnings"] 6 dump.toJson = some dump.toJson.members :=
  Json.fields?_object 6 (by decide) (Json.ordered_of_names rfl)

theorem ofJson?_toJson : ofJson? dump.toJson = some dump := by
  have targetNamespace :
      optional? dump.toJson.members "target_namespace" asText? = some dump.targetNamespace? :=
    Json.optional?_stringOrNull (by simp [toJson])
  have qualifier :
      required? dump.toJson.members "xsd_prefix" asText? = some dump.qualifier :=
    Json.required?_text (by simp [toJson])
  have elements :
      required? dump.toJson.members "elements" (asList? ElementEntry.ofJson?) =
        some dump.elements :=
    Json.required?_list ElementEntry.ofJson?_toJson (by simp [toJson])
  have simpleTypes :
      required? dump.toJson.members "simple_types" (asList? SimpleTypeEntry.ofJson?) =
        some dump.simpleTypes :=
    Json.required?_list SimpleTypeEntry.ofJson?_toJson (by simp [toJson])
  have substitutionGroups :
      required? dump.toJson.members "substitution_groups" (asList? SubstitutionEntry.ofJson?) =
        some dump.substitutionGroups :=
    Json.required?_list SubstitutionEntry.ofJson?_toJson (by simp [toJson])
  have warnings :
      required? dump.toJson.members "warnings" (asList? asText?) = some dump.warnings :=
    Json.required?_list Json.asText?_string (by simp [toJson, Json.strings])
  unfold ofJson?
  rw [Json.bind_of_read (fields?_toJson dump), Json.bind_of_read targetNamespace,
    Json.bind_of_read qualifier, Json.bind_of_read elements, Json.bind_of_read simpleTypes,
    Json.bind_of_read substitutionGroups, Json.bind_of_read warnings]

/-- A dump is read back as it was, from its value and from its text in every layout. So no two dumps
have one text: what is left out is never taken for what is written. -/
theorem ofJson?_parse_render (dump : Dump) :
    ofJson? dump.toJson = some dump ∧
      (∀ layout, (Json.parse (dump.toJson.render layout)).bind ofJson? = some dump) ∧
      parse? dump.render = some dump ∧
      ∀ other layout otherLayout,
        other.toJson.render otherLayout = dump.toJson.render layout → other = dump := by
  have readBack : ∀ (dump : Dump) layout,
      (Json.parse (dump.toJson.render layout)).bind ofJson? = some dump := by
    intro dump layout
    rw [Json.parse_render dump.plain_toJson, Option.bind_some, ofJson?_toJson]
  refine ⟨dump.ofJson?_toJson, readBack dump, readBack dump .lines, ?_⟩
  intro other layout otherLayout same
  apply Option.some.inj
  calc some other
      = (Json.parse (other.toJson.render otherLayout)).bind ofJson? :=
        (readBack other otherLayout).symm
    _ = (Json.parse (dump.toJson.render layout)).bind ofJson? := by rw [same]
    _ = some dump := readBack dump layout

end XmlSchema.Dump
