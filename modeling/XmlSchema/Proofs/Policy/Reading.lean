import XmlSchema.Proofs.Policy.Relaxation
import XmlSchema.Tree.Reading

/-!
# Reading under relaxed options

Reading looks at the options only to bound how deep tags are nested. What an opening tag, a closing
or a text does, it does under relaxed options too, so a document that is read is read under them to
the same tree and tables: `readTree_relax`.
-/

namespace XmlSchema

/-- The assembly of a compilation under relaxed options. -/
def Assembly.relax (assembly : Assembly) (relaxation : Relaxation) : Assembly :=
  assembly.mapContext (·.relax relaxation)

namespace Assembly

variable {assembly : Assembly} {relaxation : Relaxation} {attributes : Xml.Attributes}

/-! ## Looking at an assembly -/

theorem top?_relax : (assembly.relax relaxation).top? = assembly.top? := rfl

theorem depth_relax : (assembly.relax relaxation).depth = assembly.depth := rfl

theorem within_relax (construct : Construct) :
    (assembly.relax relaxation).within construct = assembly.within construct := rfl

theorem element?_relax (id : NodeId) :
    (assembly.relax relaxation).context.element? id = assembly.context.element? id := rfl

/-! ## Changing the innermost open node -/

theorem modifyTop_relax (change : Node → Node) :
    (assembly.relax relaxation).modifyTop change =
      (assembly.modifyTop change).relax relaxation := by
  unfold modifyTop
  rw [top?_relax]
  cases assembly.top? <;> rfl

theorem modifyTopElement_relax (change : Element → Element) :
    (assembly.relax relaxation).modifyTopElement change =
      (assembly.modifyTopElement change).relax relaxation :=
  modifyTop_relax _

theorem modifyTopSimpleType_relax (change : SimpleType → SimpleType) :
    (assembly.relax relaxation).modifyTopSimpleType change =
      (assembly.modifyTopSimpleType change).relax relaxation :=
  modifyTop_relax _

/-! ## Opening tags -/

theorem bindNamespace_relax (context : Context) (key value : String) :
    bindNamespace (context.relax relaxation) key value =
      (bindNamespace context key value).relax relaxation := by
  unfold bindNamespace
  by_cases atDefault : key = "xmlns"
  · rw [if_pos atDefault, if_pos atDefault]
    rfl
  · rw [if_neg atDefault, if_neg atDefault]
    cases afterLead? "xmlns:" key with
    | some name => rfl
    | none =>
        dsimp only
        split <;> rfl

theorem bindNamespaces_relax (entries : List (String × String)) (context : Context) :
    entries.foldl (fun context entry => bindNamespace context entry.1 entry.2)
        (context.relax relaxation) =
      (entries.foldl (fun context entry => bindNamespace context entry.1 entry.2)
        context).relax relaxation :=
  List.foldl_hom (Context.relax · relaxation) fun context entry =>
    bindNamespace_relax context entry.1 entry.2

theorem openSchema_relax :
    (assembly.relax relaxation).openSchema attributes =
      (assembly.openSchema attributes).relax relaxation := by
  let schema := Node.declaration (.ofTag .schema attributes assembly.context.vocabulary)
  exact congrArg (fun context => ({ assembly with context } : Assembly).openNode schema)
    (bindNamespaces_relax attributes.entries assembly.context)

theorem openElement_relax (kind : ElementKind) :
    (assembly.relax relaxation).openElement kind attributes =
      (assembly.openElement kind attributes).relax relaxation := by
  unfold openElement
  cases attributes.find? "substitutionGroup" <;> cases attributes.find? "name" <;> rfl

theorem openInnerComplexType_relax :
    (assembly.relax relaxation).openInnerComplexType attributes =
      (assembly.openInnerComplexType attributes).relax relaxation := by
  unfold openInnerComplexType
  rw [depth_relax, modifyTopElement_relax]
  split <;> rfl

theorem openAttribute_relax :
    (assembly.relax relaxation).openAttribute attributes =
      (assembly.openAttribute attributes).relax relaxation := by
  unfold openAttribute
  rw [top?_relax]
  cases assembly.top? with
  | none => rfl
  | some owner =>
      dsimp only
      rw [element?_relax]
      cases assembly.context.element? owner with
      | none => rfl
      | some element =>
          dsimp only
          split
          · rfl
          · cases element.openGroup? <;> rfl

theorem openAttributeGroup_relax :
    (assembly.relax relaxation).openAttributeGroup attributes =
      ((assembly.openAttributeGroup attributes).1.relax relaxation,
        (assembly.openAttributeGroup attributes).2) := by
  unfold openAttributeGroup
  cases attributes.find? "name" with
  | none =>
      cases attributes.find? "ref" with
      | none => rfl
      | some reference => exact congrArg (·, false) (modifyTopElement_relax _)
  | some name => cases attributes.find? "ref" <;> rfl

theorem openExtension_relax :
    (assembly.relax relaxation).openExtension attributes =
      (assembly.openExtension attributes).relax relaxation := by
  unfold openExtension
  cases attributes.find? "base" with
  | none => rfl
  | some base =>
      dsimp only
      rw [modifyTopElement_relax, modifyTopElement_relax]
      show (if assembly.context.vocabulary.isBuiltin base then _ else _) = _
      split <;> rfl

theorem openSimpleType_relax :
    (assembly.relax relaxation).openSimpleType attributes =
      ((assembly.openSimpleType attributes).1.relax relaxation,
        (assembly.openSimpleType attributes).2) := by
  have marked : ∀ change, (assembly.relax relaxation).modifyTopElement change =
      (assembly.modifyTopElement change).relax relaxation :=
    fun change => modifyTopElement_relax change
  unfold openSimpleType
  rw [marked]
  show (if (assembly.within .attribute || assembly.insideSimpleType) = true then _ else _) = _
  split
  · rfl
  · cases attributes.find? "name" with
    | some name =>
        dsimp only
        split <;> rfl
    | none =>
        show (if (assembly.top?.map assembly.context.nodeName).getD "" = "" then _ else _) = _
        dsimp only
        split <;> rfl

theorem openRestriction_relax :
    (assembly.relax relaxation).openRestriction attributes =
      (assembly.openRestriction attributes).relax relaxation := by
  unfold openRestriction
  dsimp only
  rw [within_relax, within_relax, within_relax, modifyTop_relax]
  split
  · have slotSame : (assembly.relax relaxation).lastAttribute? = assembly.lastAttribute? := rfl
    rw [slotSame]
    cases attributes.find? "base" with
    | none => rfl
    | some base =>
        cases assembly.lastAttribute? with
        | none => rfl
        | some slot => cases slot <;> rfl
  · rfl

theorem openUnion_relax :
    (assembly.relax relaxation).openUnion attributes =
      (assembly.openUnion attributes).relax relaxation := by
  unfold openUnion
  cases attributes.find? "memberTypes" with
  | none => rfl
  | some members => exact modifyTopSimpleType_relax _

theorem openList_relax :
    (assembly.relax relaxation).openList attributes =
      (assembly.openList attributes).relax relaxation := by
  unfold openList
  rw [within_relax, modifyTopSimpleType_relax]
  split <;> rfl

theorem openFacet_relax (construct : Construct) :
    (assembly.relax relaxation).openFacet construct attributes =
      (assembly.openFacet construct attributes).relax relaxation := by
  unfold openFacet
  cases attributes.find? "value" with
  | none => rfl
  | some value =>
      dsimp only
      cases facetValue? construct value with
      | none => rfl
      | some facet =>
          have ownerSame : (assembly.relax relaxation).facetOwner? = assembly.facetOwner? :=
            rfl
          dsimp only
          rw [ownerSame]
          cases assembly.facetOwner? with
          | none => rfl
          | some owner =>
              cases owner with
              | node id => rfl
              | declaredAttribute slot => cases slot <;> rfl

theorem openWhiteSpace_relax :
    (assembly.relax relaxation).openWhiteSpace attributes =
      (assembly.openWhiteSpace attributes).relax relaxation := by
  unfold openWhiteSpace
  rw [within_relax, modifyTop_relax]
  split <;> rfl

theorem openTag_relax (construct : Construct) :
    (assembly.relax relaxation).openTag construct attributes =
      ((assembly.openTag construct attributes).1.relax relaxation,
        (assembly.openTag construct attributes).2) := by
  cases construct
  case schema => exact congrArg (·, true) openSchema_relax
  case element => exact congrArg (·, true) (openElement_relax .element)
  case complexType =>
    unfold openTag
    dsimp only
    rw [depth_relax, openElement_relax, openInnerComplexType_relax]
    split <;> rfl
  case «attribute» => exact congrArg (·, false) openAttribute_relax
  case attributeGroup => exact openAttributeGroup_relax
  case anyAttribute => exact congrArg (·, false) (modifyTopElement_relax _)
  case simpleContent => exact congrArg (·, false) (modifyTopElement_relax _)
  case complexContent =>
    unfold openTag
    dsimp only
    rw [modifyTopElement_relax]
    split <;> rfl
  case extension => exact congrArg (·, false) openExtension_relax
  case simpleType => exact openSimpleType_relax
  case restriction => exact congrArg (·, false) openRestriction_relax
  case enumeration => exact congrArg (·, false) (openFacet_relax _)
  case minInclusive => exact congrArg (·, false) (openFacet_relax _)
  case maxInclusive => exact congrArg (·, false) (openFacet_relax _)
  case whiteSpace => exact congrArg (·, false) openWhiteSpace_relax
  case union => exact congrArg (·, false) openUnion_relax
  case list => exact congrArg (·, false) openList_relax
  all_goals rfl

/-! ## Closings and text -/

theorem linkChild_relax (child : NodeId) :
    (assembly.relax relaxation).linkChild child =
      (assembly.linkChild child).relax relaxation :=
  modifyTopElement_relax _

theorem dropNode_relax :
    (assembly.relax relaxation).dropNode = assembly.dropNode.relax relaxation := rfl

theorem closeChild_relax :
    (assembly.relax relaxation).closeChild = assembly.closeChild.relax relaxation := by
  have openNodes : (assembly.relax relaxation).openNodes = assembly.openNodes := rfl
  unfold closeChild
  rw [openNodes, dropNode_relax]
  split
  · exact linkChild_relax _
  · rfl

theorem closeGroup_relax :
    (assembly.relax relaxation).closeGroup = assembly.closeGroup.relax relaxation := by
  unfold closeGroup
  rw [top?_relax, dropNode_relax]
  cases assembly.top? with
  | none => rfl
  | some id =>
      dsimp only
      rw [element?_relax, linkChild_relax, depth_relax]
      cases assembly.context.element? id with
      | none => rfl
      | some element =>
          dsimp only
          split <;> split <;> rfl

theorem closeAttributeGroup_relax :
    (assembly.relax relaxation).closeAttributeGroup =
      assembly.closeAttributeGroup.relax relaxation := by
  unfold closeAttributeGroup
  rw [top?_relax]
  cases assembly.top? with
  | none => rfl
  | some id =>
      dsimp only
      rw [element?_relax]
      cases (assembly.context.element? id).bind Element.openGroup? <;> rfl

theorem closeTag_relax (assembly : Assembly) (tag : OpenTag) :
    (assembly.relax relaxation).closeTag tag =
      (assembly.closeTag tag).relax relaxation := by
  unfold closeTag
  rw [closeChild_relax, closeGroup_relax, closeAttributeGroup_relax]
  cases tag.construct
  all_goals first
    | rfl
    | (dsimp only; split <;> rfl)

theorem stepText_relax (text : String) :
    (assembly.relax relaxation).stepText text =
      (assembly.stepText text).relax relaxation := by
  unfold stepText
  dsimp only
  rw [within_relax, depth_relax, modifyTop_relax]
  split
  · split <;> rfl
  · rfl

/-! ## Events -/

theorem adoptQualifier_relax (tag : String) :
    (assembly.relax relaxation).adoptQualifier tag attributes =
      (assembly.adoptQualifier tag attributes).relax relaxation := by
  unfold adoptQualifier
  show (if assembly.awaitsFirstTag = true then _ else _) = _
  split
  · cases Namespace.detectQualifier? tag attributes.entries <;> rfl
  · rfl

theorem stepOpening_relax {tag : String} {next : Assembly}
    (taken : assembly.stepOpening tag attributes = .ok next) :
    (assembly.relax relaxation).stepOpening tag attributes =
      .ok (next.relax relaxation) := by
  unfold stepOpening at taken ⊢
  rw [adoptQualifier_relax]
  generalize assembly.adoptQualifier tag attributes = adopted at taken ⊢
  dsimp only at taken ⊢
  split at taken
  · cases taken
  · rename_i checked
    cases taken
    have checkedToo : (adopted.relax relaxation).context.options.limits.checkDepth
        ((adopted.relax relaxation).openTags.length + 1) = .ok () :=
      (relaxation.within adopted.context.options).checkDepth checked
    have vocabulary : (adopted.relax relaxation).context.vocabulary =
      adopted.context.vocabulary := rfl
    rw [checkedToo, vocabulary, openTag_relax]
    rfl

theorem stepClosing_relax {next : Assembly} (taken : assembly.stepClosing = .ok next) :
    (assembly.relax relaxation).stepClosing = .ok (next.relax relaxation) := by
  have openTags : (assembly.relax relaxation).openTags = assembly.openTags := rfl
  unfold stepClosing at taken ⊢
  rw [openTags]
  cases opened : assembly.openTags with
  | nil =>
      rw [opened] at taken
      cases taken
  | cons tag outer =>
      rw [opened] at taken
      dsimp only at taken ⊢
      by_cases closesSchema : tag.construct = .schema
      · rw [if_pos closesSchema] at taken ⊢
        have openNodes : (assembly.relax relaxation).openNodes = assembly.openNodes := rfl
        rw [openNodes]
        split at taken
        · cases taken
          rfl
        · cases taken
      · rw [if_neg closesSchema] at taken ⊢
        cases taken
        exact congrArg Except.ok (closeTag_relax { assembly with openTags := outer } tag)

theorem step_relax {event : Xml.Event} {next : Assembly}
    (taken : assembly.step event = .ok next) :
    (assembly.relax relaxation).step event = .ok (next.relax relaxation) := by
  cases event with
  | opening tag attributes => exact stepOpening_relax taken
  | closing => exact stepClosing_relax taken
  | text content =>
      cases taken
      exact congrArg Except.ok (stepText_relax content)
  | empty tag attributes =>
      unfold step at taken ⊢
      dsimp only at taken ⊢
      cases opening : assembly.stepOpening tag attributes with
      | error halt =>
          rw [opening] at taken
          cases taken
      | ok opened =>
          rw [opening] at taken
          rw [stepOpening_relax opening]
          exact stepClosing_relax taken

theorem run_relax {document : Bytes} {events : List (Xml.Located Xml.Event)}
    {next : Assembly} (completed : assembly.run document events = .ok next) :
    (assembly.relax relaxation).run document events = .ok (next.relax relaxation) := by
  induction events generalizing assembly with
  | nil =>
      cases completed
      rfl
  | cons event rest inductionHypothesis =>
      unfold run at completed ⊢
      cases taken : assembly.step event.value with
      | error halt =>
          rw [taken] at completed
          cases completed
      | ok between =>
          rw [taken] at completed
          rw [step_relax taken]
          exact inductionHypothesis completed

end Assembly

/-- A document that is read is read under relaxed options, to the same tree and tables. -/
theorem readTree_relax {context next : Context} {document : Bytes} {root : NodeId}
    {relaxation : Relaxation} (read : readTree context document = .ok (next, root)) :
    readTree (context.relax relaxation) document =
      .ok (next.relax relaxation, root) := by
  unfold readTree at read ⊢
  dsimp only at read ⊢
  split at read
  · cases read
  · rename_i assembly completed
    split at read
    · cases read
    · rename_i noFault
      split at read
      · cases read
      · rename_i finished
        cases read
        have begun : Assembly.start (context.relax relaxation) =
          (Assembly.start context).relax relaxation := rfl
        have ended : (assembly.relax relaxation).finish document = .ok root := finished
        rw [begun, Assembly.run_relax completed]
        dsimp only
        rw [ended]
        rfl

end XmlSchema
