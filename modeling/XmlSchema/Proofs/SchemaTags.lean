import XmlSchema.Proofs.FlatTrees
import XmlSchema.Proofs.Vocabulary

/-!
# Which tags are recognized as a schema

A document may give several qualifiers to the schema language, and its first tag may bear any of
them or none. Of the qualifiers that the tag binds the first is adopted, whichever of them it bears
itself: `detectQualifier?_eq`. So a tag that is a schema by its own binding is recognized exactly
where that is the binding adopted, `classify_firstTag`.
-/

namespace XmlSchema

/-! ## Qualified names -/

namespace Namespace

/-- What stands before the last colon of a name. -/
def qualifier? (name : String) : Option String :=
  match name.toList.reverse.dropWhile (· != ':') with
  | [] => none
  | _ :: rest => some (String.ofList rest.reverse)

/-- What a qualifier puts in front of a local part. -/
def lead : Option String → String
  | none => ""
  | some qualifier => qualifier ++ ":"

/-- The attribute that binds a qualifier, or the namespace of names that have none. -/
def bindingKey : Option String → String
  | none => "xmlns"
  | some qualifier => "xmlns:" ++ qualifier

/-- The qualifiers that attributes bind to the schema language, in order. -/
def schemaQualifiers (attributes : List (String × String)) : List String :=
  attributes.filterMap fun (key, value) => if isSchema value then afterLead? "xmlns:" key else none

theorem qualifier?_lead_append (qualifier? : Option String) {part : String}
    (unqualified : ':' ∉ part.toList) : Namespace.qualifier? (lead qualifier? ++ part) = qualifier? := by
  have passed : ∀ letter ∈ part.toList.reverse, (letter != ':') = true := by
    intro letter member
    rw [bne_iff_ne]
    rintro rfl
    exact unqualified (List.mem_reverse.1 member)
  unfold Namespace.qualifier?
  rw [String.toList_append, List.reverse_append, List.dropWhile_append_of_pos passed]
  cases qualifier? with
  | none => rfl
  | some qualifier =>
      have turned : (lead (some qualifier)).toList.reverse = ':' :: qualifier.toList.reverse := by
        unfold lead
        rw [String.toList_append, List.reverse_append]
        rfl
      rw [turned, List.dropWhile_cons_of_neg (by decide)]
      dsimp only
      rw [List.reverse_reverse, String.ofList_toList]

/-- A name is its local part behind its qualifier. -/
theorem lead_qualifier?_append_localPart (name : String) :
    lead (qualifier? name) ++ localPart name = name := by
  have parts : name.toList = (name.toList.reverse.dropWhile (· != ':')).reverse ++
      (name.toList.reverse.takeWhile (· != ':')).reverse := by
    rw [← List.reverse_append, List.takeWhile_append_dropWhile, List.reverse_reverse]
  apply String.toList_injective
  rw [String.toList_append, localPart, String.toList_ofList]
  refine Eq.trans (congrArg (· ++ _) ?_) parts.symm
  unfold qualifier?
  cases behind : name.toList.reverse.dropWhile (· != ':') with
  | nil => rfl
  | cons last rest =>
      have nonempty : name.toList.reverse.dropWhile (· != ':') ≠ [] :=
        behind ▸ List.cons_ne_nil last rest
      have colon : last = ':' := by
        have stopped := List.head_dropWhile_not (· != ':') nonempty
        simpa [behind] using stopped
      rw [colon, List.reverse_cons]
      unfold lead
      rw [String.toList_append, String.toList_ofList]
      rfl

theorem detectQualifier?_eq (tag : String) (attributes : List (String × String)) :
    detectQualifier? tag attributes =
      match (schemaQualifiers attributes).head? with
      | some qualifier => some (lead (some qualifier))
      | none => if isQualified tag then none else some (lead none) := by
  unfold detectQualifier? schemaQualifiers
  dsimp only
  rw [List.head?_filterMap]
  rfl

theorem mem_schemaQualifiers {attributes : Xml.Attributes} {qualifier uri : String}
    (bound : attributes.find? (bindingKey (some qualifier)) = some uri)
    (schema : isSchema uri = true) : qualifier ∈ schemaQualifiers attributes.entries := by
  refine List.mem_filterMap.2 ⟨_, Table.mem_entries_of_find? bound, ?_⟩
  dsimp only
  rw [if_pos schema]
  exact afterLead?_eq_some_iff.2 rfl

end Namespace

/-! ## Recognition -/

/-- Under an adopted qualifier a tag of a schema is one if it bears that qualifier, and else no
construct at all. -/
theorem Vocabulary.classify_schemaTag (adopted? own? : Option String) :
    (⟨Namespace.lead adopted?⟩ : Vocabulary).classify (Namespace.lead own? ++ "schema") =
      if adopted? = own? then .schema else .other := by
  unfold classify
  dsimp only
  by_cases same : adopted? = own?
  · have after : afterLead? (Namespace.lead adopted?) (Namespace.lead own? ++ "schema") =
        some "schema" := afterLead?_eq_some_iff.2 (by rw [same])
    rw [after, if_pos same]
    rfl
  · rw [if_neg same]
    cases after : afterLead? (Namespace.lead adopted?) (Namespace.lead own? ++ "schema") with
    | none => rfl
    | some rest =>
        dsimp only
        cases isQualified : Namespace.isQualified rest with
        | true => rfl
        | false =>
            -- A name has one qualifier only, so what is left would be the local part.
            have unqualified : ':' ∉ rest.toList := by simpa [Namespace.isQualified] using isQualified
            have names := afterLead?_eq_some_iff.1 after
            have qualifiers := congrArg Namespace.qualifier? names
            rw [Namespace.qualifier?_lead_append own? (by decide),
              Namespace.qualifier?_lead_append adopted? unqualified] at qualifiers
            exact absurd qualifiers.symm same

theorem Assembly.vocabulary_adoptQualifier {assembly : Assembly} {tag : String}
    {attributes : Xml.Attributes} (first : assembly.awaitsFirstTag = true) {qualifier : String}
    (detected : Namespace.detectQualifier? tag attributes.entries = some qualifier) :
    (assembly.adoptQualifier tag attributes).context.vocabulary = ⟨qualifier⟩ := by
  unfold adoptQualifier
  rw [if_pos first]
  dsimp only
  rw [detected]
  rfl

/-- A first tag that is a schema by the binding of its own qualifier, or by that of the namespace for
names without one, is recognized as a schema if no other qualifier is bound to the schema language
before its own. Any other such tag is taken for no construct. -/
theorem classify_firstTag {assembly : Assembly} (first : assembly.awaitsFirstTag = true)
    {tag uri : String} {attributes : Xml.Attributes} (named : Namespace.localPart tag = "schema")
    (bound : attributes.find? (Namespace.bindingKey (Namespace.qualifier? tag)) = some uri)
    (schema : Namespace.isSchema uri = true) :
    (assembly.adoptQualifier tag attributes).context.vocabulary.classify tag =
      if (Namespace.schemaQualifiers attributes.entries).head? = Namespace.qualifier? tag then
        .schema
      else .other := by
  have whole := Namespace.lead_qualifier?_append_localPart tag
  rw [named] at whole
  have detected : Namespace.detectQualifier? tag attributes.entries =
      some (Namespace.lead (Namespace.schemaQualifiers attributes.entries).head?) := by
    rw [Namespace.detectQualifier?_eq]
    cases adopted : (Namespace.schemaQualifiers attributes.entries).head? with
    | some qualifier => rfl
    | none =>
        -- The tag bears no qualifier, since its own would have been adopted.
        cases own : Namespace.qualifier? tag with
        | none =>
            rw [own] at whole
            have plain : tag = "schema" := whole.symm
            rw [plain]
            rfl
        | some qualifier =>
            rw [own] at bound
            have member := Namespace.mem_schemaQualifiers bound schema
            rw [List.head?_eq_none_iff.1 adopted] at member
            cases member
  rw [Assembly.vocabulary_adoptQualifier first detected]
  conv_lhs => rw [← whole]
  exact Vocabulary.classify_schemaTag _ _

/-- The attributes of a tag that binds unqualified names and two qualifiers. -/
def bindings (unqualified first second : String) : Xml.Attributes :=
  .ofList [("xmlns", unqualified), ("xmlns:s", first), ("xmlns:t", second)]

/-- A tag whose qualifier is the first to be bound to the schema language. -/
theorem classify_firstTag_first :
    (Assembly.start (.initial .standard)).awaitsFirstTag = true ∧
      Namespace.localPart "s:schema" = "schema" ∧
      (bindings "urn:x" Namespace.version11 Namespace.version10).find?
        (Namespace.bindingKey (Namespace.qualifier? "s:schema")) = some Namespace.version11 ∧
      Namespace.isSchema Namespace.version11 = true ∧
      ((Assembly.start (.initial .standard)).adoptQualifier "s:schema"
        (bindings "urn:x" Namespace.version11 Namespace.version10)).context.vocabulary.classify
          "s:schema" = .schema := by
  have named : Namespace.localPart "s:schema" = "schema" := by decide +kernel
  have bound : (bindings "urn:x" Namespace.version11 Namespace.version10).find?
      (Namespace.bindingKey (Namespace.qualifier? "s:schema")) = some Namespace.version11 := by
    decide +kernel
  have schema : Namespace.isSchema Namespace.version11 = true := by decide +kernel
  have adopted : (Namespace.schemaQualifiers
      (bindings "urn:x" Namespace.version11 Namespace.version10).entries).head? =
        Namespace.qualifier? "s:schema" := by decide +kernel
  refine ⟨rfl, named, bound, schema, ?_⟩
  rw [classify_firstTag rfl named bound schema, if_pos adopted]

/-- A schema whose tag bears no qualifier and binds one to the schema language as well. -/
def doublyBoundSchema : Bytes :=
  Text.Utf8.encode ("<schema xmlns='http://www.w3.org/2001/XMLSchema' " ++
    "xmlns:s='http://www.w3.org/2001/XMLSchema'><element name='e' type='string'/></schema>")

/-- A schema whose tag bears no qualifier is not recognized where a qualifier is bound to the schema
language as well, and neither is one whose qualifier is the second. The document is refused for want
of a schema. -/
theorem firstTag_not_recognized :
    ((bindings Namespace.version10 Namespace.version10 "urn:x").find?
        (Namespace.bindingKey (Namespace.qualifier? "schema")) = some Namespace.version10 ∧
      ((Assembly.start (.initial .standard)).adoptQualifier "schema"
        (bindings Namespace.version10 Namespace.version10 "urn:x")).context.vocabulary.classify
          "schema" = .other) ∧
    ((bindings "urn:x" Namespace.version10 Namespace.version10).find?
        (Namespace.bindingKey (Namespace.qualifier? "t:schema")) = some Namespace.version10 ∧
      ((Assembly.start (.initial .standard)).adoptQualifier "t:schema"
        (bindings "urn:x" Namespace.version10 Namespace.version10)).context.vocabulary.classify
          "t:schema" = .other) ∧
    compileBytes .standard doublyBoundSchema =
      .error (.malformed ⟨"schema", .noSchema, none⟩) := by
  have refused : (match readTree (.initial .standard) doublyBoundSchema with
      | .ok _ => false
      | .error halt => decide (halt.cause = .malformed ⟨"schema", .noSchema, none⟩)) = true := by
    decide +kernel
  have sized : Options.standard.limits.checkSize doublyBoundSchema.length = .ok () := by
    decide +kernel
  refine ⟨⟨by decide +kernel, by decide +kernel⟩, ⟨by decide +kernel, by decide +kernel⟩, ?_⟩
  unfold compileBytes
  rw [sized]
  dsimp only
  split at refused
  · cases refused
  · rename_i halt halted
    rw [halted]
    exact congrArg Except.error (of_decide_eq_true refused)

end XmlSchema
