import XmlSchema.Proofs.FlatTrees
import XmlSchema.Proofs.Policy.Compilation

/-!
# The strict policy refines the lenient one

What compiles under the strict policy compiles under the lenient one to the same model. The lenient
policy alone adds documents, and the two passes that resolve types refuse none of them.
-/

namespace XmlSchema

/-! ## Under the lenient policy every type is resolved -/

section Lenient

variable {context : Context} (lenient : context.options.fallback = .lenient)

include lenient in
theorem fallBack_total (node : String) (cause : SemanticCause) :
    ∃ name, context.fallBack node cause = .ok name := by
  unfold Context.fallBack
  rw [lenient]
  exact ⟨_, rfl⟩

include lenient in
theorem resolveSimple_total (node start : String) :
    ∃ type, context.resolveSimple node start = .ok type := by
  have settled : ∀ ending, ∃ name, context.settleChain node start ending = .ok name := by
    intro ending
    cases ending with
    | leaves name => exact ⟨name, rfl⟩
    | union => exact ⟨_, rfl⟩
    | noBase name => exact fallBack_total lenient node (.noBase name)
    | endless => exact fallBack_total lenient node (.endlessChain start)
  unfold Context.resolveSimple
  dsimp only
  obtain ⟨name, given⟩ := settled
    (context.simpleChain context.options.limits.simpleTypeHops start).ending
  rw [given]
  exact ⟨_, rfl⟩

include lenient in
theorem resolveAlias_total (nominals : Nominals) (node name : String) :
    ∃ resolution, context.resolveAlias nominals node name = .ok resolution := by
  unfold Context.resolveAlias
  dsimp only
  split
  · rename_i simple _
    obtain ⟨type, resolved⟩ := resolveSimple_total lenient node simple
    rw [resolved]
    exact ⟨_, rfl⟩
  · exact ⟨_, rfl⟩
  · exact ⟨_, rfl⟩

include lenient in
theorem resolve_total (nominals : Nominals) (node : String) (nominal : Nominal) :
    ∃ resolution, context.resolve nominals node nominal = .ok resolution := by
  unfold Context.resolve
  dsimp only
  split
  · exact resolveAlias_total lenient nominals node nominal.name
  · split
    · obtain ⟨type, resolved⟩ := resolveSimple_total lenient node nominal.name
      rw [resolved]
      exact ⟨_, rfl⟩
    · split
      · exact ⟨_, rfl⟩
      · split
        · exact ⟨_, rfl⟩
        · obtain ⟨name, given⟩ := fallBack_total lenient node (.unknownType nominal.name)
          rw [given]
          exact ⟨_, rfl⟩

include lenient in
theorem resolveAttributeType_total (place dataType : String) :
    ∃ type, context.resolveAttributeType place dataType = .ok type := by
  unfold Context.resolveAttributeType
  dsimp only
  split
  · exact ⟨_, rfl⟩
  · split
    · exact resolveSimple_total lenient place _
    · obtain ⟨name, given⟩ := fallBack_total lenient place (.unknownAttributeType dataType)
      rw [given]
      exact ⟨_, rfl⟩

include lenient in
theorem resolveElement_total (nominals : Nominals) (id : NodeId) :
    ∃ next, resolveElement nominals context id = .ok next ∧
      next.options.fallback = .lenient := by
  have completed : ∃ next, resolveElement nominals context id = .ok next := by
    unfold resolveElement
    split
    · exact ⟨_, rfl⟩
    · rename_i element _
      split
      · exact ⟨_, rfl⟩
      · split
        · exact ⟨_, rfl⟩
        · rename_i nominal _
          have noted : Frame .any context (context.noteSimpleType id nominal) :=
            frame_noteSimpleType (by intros; trivial) context id nominal
          obtain ⟨resolution, found⟩ :=
            resolve_total (noted.options ▸ lenient) nominals element.name nominal
          dsimp only
          rw [found]
          exact ⟨_, rfl⟩
  obtain ⟨next, taken⟩ := completed
  have frame : Frame .any context (endContext (resolveElement nominals context id)) :=
    frame_resolveElement (by intros; trivial) (by intros; trivial) nominals context id
  rw [taken] at frame
  exact ⟨next, taken, frame.options ▸ lenient⟩

include lenient in
/-- Under the lenient policy the types of declarations are always resolved. -/
theorem resolveTypes_total (root : NodeId) : ∃ next, resolveTypes root context = .ok next :=
  foldlM_total (fun _ id lenient => resolveElement_total lenient _ id) _ lenient

include lenient in
theorem resolveAttribute_total (id : NodeId) (owner : String) (entry : String × Attribute) :
    ∃ next, resolveAttribute id owner context entry = .ok next ∧
      next.options.fallback = .lenient := by
  obtain ⟨type, found⟩ :=
    resolveAttributeType_total lenient s!"{owner}@{entry.1}" entry.2.dataType
  unfold resolveAttribute
  rw [found]
  exact ⟨_, rfl, lenient⟩

include lenient in
theorem resolveElementAttributes_total (id : NodeId) :
    ∃ next, resolveElementAttributes context id = .ok next ∧
      next.options.fallback = .lenient := by
  have completed : ∃ next, resolveElementAttributes context id = .ok next := by
    unfold resolveElementAttributes
    split
    · exact foldlM_total (fun _ entry lenient => resolveAttribute_total lenient id _ entry) _
        lenient
    · exact ⟨context, rfl⟩
  obtain ⟨next, taken⟩ := completed
  have frame : Frame .any context (endContext (resolveElementAttributes context id)) :=
    frame_resolveElementAttributes (by intros; trivial) context id
  rw [taken] at frame
  exact ⟨next, taken, frame.options ▸ lenient⟩

include lenient in
/-- Under the lenient policy the types of attributes are always resolved. -/
theorem resolveAttributeTypes_total (root : NodeId) :
    ∃ next, resolveAttributeTypes root context = .ok next :=
  foldlM_total (fun _ id lenient => resolveElementAttributes_total lenient id) _ lenient

end Lenient

/-! ## Refinement -/

/-- The survey goes through under one policy if it does under another. -/
theorem survey_withFallback {limits : Limits} {renames : Renames} {document : Bytes}
    {before after : Fallback} {surveyed : Context} {root : NodeId}
    (found : survey ⟨limits, before, renames⟩ document = .ok (surveyed, root)) :
    survey ⟨limits, after, renames⟩ document = .ok (surveyed.withFallback after, root) := by
  have relaxed : survey ((Relaxation.policy after).apply ⟨limits, before, renames⟩) document =
    .ok (surveyed.relax (.policy after), root) := survey_relax found
  exact relaxed

theorem compileBytes_lenient {limits : Limits} {renames : Renames} {document : Bytes}
    {model : Model} (compiled : compileBytes ⟨limits, .strict, renames⟩ document = .ok model) :
    compileBytes ⟨limits, .lenient, renames⟩ document =
      .ok ⟨model.context.withFallback .lenient, model.root⟩ :=
  compileBytes_relax Relaxation.keepsLenient_lenient compiled

/-- What compiles under the strict policy compiles under the lenient one, to the same model but for
the policy that it keeps. Under the lenient policy the two passes that resolve types go through,
whatever the tree. -/
theorem strict_refines_lenient (limits : Limits) (renames : Renames) (document : Bytes) :
    (∀ model, compileBytes ⟨limits, .strict, renames⟩ document = .ok model →
      compileBytes ⟨limits, .lenient, renames⟩ document =
        .ok ⟨model.context.withFallback .lenient, model.root⟩) ∧
    (∀ (context : Context) (root : NodeId), context.options.fallback = .lenient →
      (∃ next, resolveTypes root context = .ok next) ∧
        ∃ next, resolveAttributeTypes root context = .ok next) := by
  constructor
  · intro model compiled
    exact compileBytes_lenient compiled
  · intro context root lenient
    exact ⟨resolveTypes_total lenient root, resolveAttributeTypes_total lenient root⟩

/-- An element whose type leads to a built-in one through two simple types, an alias of it, and a
type that has both a reference to the alias and an attribute. -/
def layeredSchema : Bytes :=
  schemaDocument [
    "<s:simpleType name='T'><s:restriction base='U'/></s:simpleType>",
    "<s:simpleType name='U'><s:restriction base='s:int'/></s:simpleType>",
    "<s:element name='a' type='T'/><s:element name='b' type='a'/>",
    "<s:complexType name='C'><s:sequence><s:element ref='b'/></s:sequence>",
    "<s:attribute name='k' type='T'/></s:complexType>"]

/-- A simple type in a cycle, an alias of an element of that type, and an attribute of a type that
nobody declares. -/
def unresolvedSchema : Bytes :=
  schemaDocument [
    "<s:simpleType name='T'><s:restriction base='U'/></s:simpleType>",
    "<s:simpleType name='U'><s:restriction base='T'/></s:simpleType>",
    "<s:element name='a' type='T'/><s:element name='b' type='a'/>",
    "<s:complexType name='C'><s:attribute name='k' type='Nowhere'/></s:complexType>"]

/-- What compiles under the strict policy compiles under the lenient one, which also gets through
the tree of a schema that the strict one refuses. -/
theorem strict_refines_lenient_layered :
    (∃ model, compileBytes ⟨.standard, .strict, .standard⟩ layeredSchema = .ok model ∧
      compileBytes ⟨.standard, .lenient, .standard⟩ layeredSchema =
        .ok ⟨model.context.withFallback .lenient, model.root⟩) ∧
    (∃ cause, compileBytes ⟨.standard, .strict, .standard⟩ unresolvedSchema = .error cause) ∧
    ∃ surveyed root, survey .standard unresolvedSchema = .ok (surveyed, root) ∧
      surveyed.options.fallback = .lenient ∧
      (∃ next, resolveTypes root surveyed = .ok next) ∧
      ∃ next, resolveAttributeTypes root surveyed = .ok next := by
  have computed : compilesFlat ⟨.standard, .strict, .standard⟩ layeredSchema (fun _ => true) =
      true := by decide +kernel
  have refused : refusesFlat ⟨.standard, .strict, .standard⟩ unresolvedSchema
      (.semantic ⟨"a", .endlessChain "T"⟩) = true := by decide +kernel
  have surveys : surveysFlat .standard unresolvedSchema (fun surveyed _ =>
      decide (surveyed.options.fallback = .lenient)) = true := by decide +kernel
  obtain ⟨model, compiled, -⟩ := exists_of_compilesFlat computed
  obtain ⟨surveyed, root, found, checked⟩ := exists_of_surveysFlat surveys
  have lenient := of_decide_eq_true checked
  obtain ⟨refines, -⟩ := strict_refines_lenient .standard .standard layeredSchema
  obtain ⟨-, goesThrough⟩ := strict_refines_lenient .standard .standard unresolvedSchema
  exact ⟨⟨model, compiled, refines model compiled⟩, ⟨_, compileBytes_of_refusesFlat refused⟩,
    surveyed, root, found, lenient, goesThrough surveyed root lenient⟩

end XmlSchema
