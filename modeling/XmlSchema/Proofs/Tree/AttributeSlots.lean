import XmlSchema.Proofs.Tree.Enclosures

/-!
# Where attributes are kept

An attribute is kept under the schema, in a declaration, or in the attribute group that is being
defined. What its tag says stays as it is while other tags open and close,
`attributePart?_stepOpening` and `attributePart?_stepClosing`: only its type and its facets can come
from inside. The exceptions are the tag of another attribute, which can take its place, and the
closing of the group in which it is kept.
-/

namespace XmlSchema

/-- What the tag of an attribute says. Its type and its facets can come from inside. -/
def Attribute.tagPart (declared : Attribute) : Attribute :=
  { declared with dataType := "", facets := .empty }

/-- The attributes of a table by what their tags say. -/
def Table.tagParts (table : Table Attribute) : Table Attribute :=
  table.mapValues fun _ => Attribute.tagPart

theorem Table.find?_tagParts (table : Table Attribute) (name : String) :
    table.tagParts.find? name = (table.find? name).map Attribute.tagPart :=
  find?_mapValues table _ name

theorem Table.tagParts_modify {change : Attribute → Attribute}
    (keeps : ∀ declared, (change declared).tagPart = declared.tagPart) (table : Table Attribute)
    (name : String) : (table.modify name change).tagParts = table.tagParts := by
  apply eq_of_entries
  refine List.map_map.trans (List.map_congr_left fun entry _ => ?_)
  show (entry.1, (if entry.1 = name then change entry.2 else entry.2).tagPart) = _
  split
  · rw [keeps]
  · rfl

/-- The attributes of a declaration, and those of the group that it defines. -/
def Element.attributePart (element : Element) : Table Attribute × Option (Table Attribute) :=
  (element.attributes.tagParts, element.openGroup?.map (·.attributes.tagParts))

def Node.attributePart? (node : Node) : Option (Table Attribute × Option (Table Attribute)) :=
  node.element?.map Element.attributePart

namespace Context

variable {context before after : Context} {id : NodeId} {owner? : Option NodeId}

/-- The attributes that are kept in a declaration, or else under the schema. -/
def attributePart? (context : Context) :
    Option NodeId → Option (Table Attribute × Option (Table Attribute))
  | none => some (context.globalAttributes.tagParts, none)
  | some id => (context.element? id).map Element.attributePart

/-- Whether a node is the definition of an attribute group that is being read. -/
def definesGroup (context : Context) (id : NodeId) : Bool :=
  ((context.element? id).bind Element.openGroup?).isSome

theorem definesGroup_eq (context : Context) (id : NodeId) :
    context.definesGroup id = ((context.attributePart? (some id)).bind Prod.snd).isSome := by
  show _ = (((context.element? id).map Element.attributePart).bind Prod.snd).isSome
  unfold definesGroup
  cases context.element? id with
  | none => rfl
  | some element => exact (Option.isSome_map ..).symm

theorem attributePart?_of_node? (same : (after.node? id).bind Node.attributePart? =
      (before.node? id).bind Node.attributePart?) :
    after.attributePart? (some id) = before.attributePart? (some id) := by
  have read : ∀ context : Context, context.attributePart? (some id) =
      (context.node? id).bind Node.attributePart? := by
    intro context
    show (context.element? id).map Element.attributePart = _
    unfold Context.element? Context.node? Arena.element?
    cases context.arena.node? id <;> rfl
  rw [read, read, same]

theorem attributePart?_modifyNode {change : Node → Node}
    (keeps : ∀ node, (change node).attributePart? = node.attributePart?) :
    (context.modifyNode id change).attributePart? owner? = context.attributePart? owner? := by
  cases owner? with
  | none => rfl
  | some other =>
      apply attributePart?_of_node?
      have read : (context.modifyNode id change).node? other = _ :=
        Arena.node?_modify context.arena id other change
      rw [read]
      split
      · rename_i same
        subst same
        show ((context.node? other).map change).bind _ = _
        cases context.node? other with
        | none => rfl
        | some node => exact keeps node
      · rfl

theorem attributePart?_modifyElement {change : Element → Element}
    (keeps : ∀ element, (change element).attributePart = element.attributePart) :
    (context.modifyElement id change).attributePart? owner? = context.attributePart? owner? := by
  apply attributePart?_modifyNode
  intro node
  cases node with
  | declaration element => exact congrArg some (keeps element)
  | simple simpleType => rfl

theorem attributePart?_modifyElement_of_ne (elsewhere : owner? ≠ some id)
    (change : Element → Element) :
    (context.modifyElement id change).attributePart? owner? = context.attributePart? owner? := by
  cases owner? with
  | none => rfl
  | some other =>
      have different : other ≠ id := fun same => elsewhere (congrArg some same)
      exact congrArg (Option.map Element.attributePart)
        (element?_modifyElement_other different change)

theorem attributePart?_addNode (old : owner? ≠ some context.arena.nextId) (node : Node) :
    (context.addNode node).attributePart? owner? = context.attributePart? owner? := by
  cases owner? with
  | none => rfl
  | some other =>
      have different : other ≠ context.arena.nextId := fun same => old (congrArg some same)
      have read := element?_addNode context node other
      rw [if_neg different] at read
      exact congrArg (Option.map Element.attributePart) read

theorem definesGroup_addNode (context : Context) (node : Node) :
    (context.addNode node).definesGroup context.arena.nextId =
      (node.element?.bind Element.openGroup?).isSome := by
  unfold definesGroup
  rw [element?_addNode, if_pos rfl]

theorem attributePart?_slotModify {change : Attribute → Attribute}
    (keeps : ∀ declared, (change declared).tagPart = declared.tagPart) (slot : AttributeSlot) :
    (slot.modify context change).attributePart? owner? = context.attributePart? owner? := by
  cases slot with
  | global name =>
      cases owner? with
      | none =>
          exact congrArg (fun table => some (table, none))
            (Table.tagParts_modify keeps context.globalAttributes name)
      | some other => rfl
  | grouped owner name =>
      apply attributePart?_modifyElement
      intro element
      unfold Element.attributePart
      rw [Option.map_map]
      cases element.openGroup? with
      | none => rfl
      | some group =>
          exact congrArg (fun table => (_, some table))
            (Table.tagParts_modify keeps group.attributes name)
  | owned owner name =>
      apply attributePart?_modifyElement
      intro element
      exact congrArg (fun table => (table, _)) (Table.tagParts_modify keeps element.attributes name)

end Context

namespace AttributeSlot

/-- What is kept under a slot, in its place. -/
def tagPart? (part : Table Attribute × Option (Table Attribute)) : AttributeSlot → Option Attribute
  | .global name | .owned _ name => part.1.find? name
  | .grouped _ name => part.2.bind (·.find? name)

theorem map_tagPart (context : Context) (slot : AttributeSlot) :
    (slot.attribute? context).map Attribute.tagPart =
      (context.attributePart? slot.owner?).bind slot.tagPart? := by
  cases slot with
  | global name => exact (Table.find?_tagParts context.globalAttributes name).symm
  | grouped owner name =>
      show (((context.element? owner).bind Element.openGroup?).bind _).map _ =
        ((context.element? owner).map Element.attributePart).bind _
      cases context.element? owner with
      | none => rfl
      | some element =>
          show (element.openGroup?.bind _).map _ = (element.openGroup?.map _).bind _
          cases element.openGroup? with
          | none => rfl
          | some group => exact (Table.find?_tagParts group.attributes name).symm
  | owned owner name =>
      show ((context.element? owner).bind _).map _ =
        ((context.element? owner).map Element.attributePart).bind _
      cases context.element? owner with
      | none => rfl
      | some element => exact (Table.find?_tagParts element.attributes name).symm

end AttributeSlot

namespace Assembly

variable {assembly before after next : Assembly} {construct : Construct}
  {attributes : Xml.Attributes} {owner? : Option NodeId}

/-! ## Openings -/

theorem attributePart?_modifyTop {change : Node → Node}
    (keeps : ∀ node, (change node).attributePart? = node.attributePart?) :
    (assembly.modifyTop change).context.attributePart? owner? =
      assembly.context.attributePart? owner? := by
  unfold modifyTop
  split
  · exact Context.attributePart?_modifyNode keeps
  · rfl

theorem attributePart?_modifyTopElement {change : Element → Element}
    (keeps : ∀ element, (change element).attributePart = element.attributePart) :
    (assembly.modifyTopElement change).context.attributePart? owner? =
      assembly.context.attributePart? owner? := by
  apply attributePart?_modifyTop
  intro node
  cases node with
  | declaration element => exact congrArg some (keeps element)
  | simple simpleType => rfl

theorem attributePart?_modifyTopSimpleType {change : SimpleType → SimpleType} :
    (assembly.modifyTopSimpleType change).context.attributePart? owner? =
      assembly.context.attributePart? owner? := by
  apply attributePart?_modifyTop
  intro node
  cases node <;> rfl

theorem attributePart?_bindNamespaces (entries : List (String × String)) (context : Context) :
    (entries.foldl (fun context (key, value) => bindNamespace context key value)
      context).attributePart? owner? = context.attributePart? owner? := by
  induction entries generalizing context with
  | nil => rfl
  | cons entry rest inductionHypothesis =>
      have first : (bindNamespace context entry.1 entry.2).attributePart? owner? =
          context.attributePart? owner? := by
        unfold bindNamespace
        split
        · cases owner? <;> rfl
        · split
          · cases owner? <;> rfl
          · split <;> cases owner? <;> rfl
      exact (inductionHypothesis _).trans first

theorem attributePart?_openSchema (old : owner? ≠ some assembly.context.arena.nextId) :
    (assembly.openSchema attributes).context.attributePart? owner? =
      assembly.context.attributePart? owner? := by
  refine (Context.attributePart?_addNode ?_ _).trans (attributePart?_bindNamespaces _ _)
  have size := (quiet_bindNamespaces attributes.entries assembly.context).nextId
  exact fun same => old (same.trans (congrArg some size))

theorem attributePart?_openElement (old : owner? ≠ some assembly.context.arena.nextId)
    (kind : ElementKind) :
    (assembly.openElement kind attributes).context.attributePart? owner? =
      assembly.context.attributePart? owner? := by
  unfold openElement
  dsimp only
  split
  · rename_i head member _ _
    have stillOld : owner? ≠ some (assembly.context.addSubstitution (Namespace.localPart head)
        member).arena.nextId := old
    refine (Context.attributePart?_addNode stillOld _).trans ?_
    cases owner? <;> rfl
  · exact Context.attributePart?_addNode old _

theorem attributePart_mergeAttributes (attributes : Xml.Attributes) (element : Element) :
    (mergeAttributes attributes element).attributePart = element.attributePart := by
  unfold mergeAttributes
  generalize attributes.entries = entries
  induction entries generalizing element with
  | nil => rfl
  | cons entry rest inductionHypothesis =>
      rw [List.foldl_cons, inductionHypothesis]
      dsimp only
      split <;> rfl

theorem attributePart_referToAttributeGroup (reference : String) (defining : Bool)
    (element : Element) :
    (referToAttributeGroup reference defining element).attributePart = element.attributePart := by
  unfold referToAttributeGroup
  split
  · rename_i group opened
    unfold Element.attributePart
    rw [opened]
    rfl
  · rfl

theorem attributePart?_openAttributeGroup (old : owner? ≠ some assembly.context.arena.nextId) :
    (assembly.openAttributeGroup attributes).1.context.attributePart? owner? =
      assembly.context.attributePart? owner? := by
  unfold openAttributeGroup
  cases attributes.find? "name" with
  | none =>
      dsimp only
      split
      · exact attributePart?_modifyTopElement (attributePart_referToAttributeGroup _ _)
      · rfl
  | some name =>
      dsimp only
      split
      · exact (attributePart?_modifyTopElement (attributePart_referToAttributeGroup _ _)).trans
          (Context.attributePart?_addNode old _)
      · exact Context.attributePart?_addNode old _

theorem attributePart?_openSimpleType (old : owner? ≠ some assembly.context.arena.nextId) :
    (assembly.openSimpleType attributes).1.context.attributePart? owner? =
      assembly.context.attributePart? owner? := by
  unfold openSimpleType
  split
  · rfl
  · extract_lets name marked entered simpleType opened
    have marking : marked.context.attributePart? owner? =
        assembly.context.attributePart? owner? := by
      apply attributePart?_modifyTopElement
      intro element
      split <;> rfl
    have stillOld : owner? ≠ some marked.context.arena.nextId := by
      have size : marked.context.arena.nextId = assembly.context.arena.nextId :=
        (Quiet.modifyTopElement assembly fun element => by split <;> rfl).context.nextId
      rw [size]
      exact old
    have opening : opened.context.attributePart? owner? = assembly.context.attributePart? owner? :=
      (Context.attributePart?_addNode stillOld _).trans marking
    split
    · exact opening
    · refine Eq.trans ?_ opening
      cases owner? <;> rfl

theorem attributePart?_openExtension :
    (assembly.openExtension attributes).context.attributePart? owner? =
      assembly.context.attributePart? owner? := by
  unfold openExtension
  split
  · rfl
  · split
    · apply attributePart?_modifyTopElement
      intro element
      unfold Element.addSimpleBase
      split <;> rfl
    · exact attributePart?_modifyTopElement fun _ => rfl

theorem attributePart?_openRestriction :
    (assembly.openRestriction attributes).context.attributePart? owner? =
      assembly.context.attributePart? owner? := by
  unfold openRestriction
  dsimp only
  split
  · split
    · rename_i base slot _ _
      refine Context.attributePart?_slotModify ?_ slot
      exact fun _ => rfl
    · rfl
  · apply attributePart?_modifyTop
    intro node
    cases node with
    | simple simpleType => rfl
    | declaration element =>
        dsimp only
        split
        · rfl
        · split <;> rfl

theorem attributePart?_addFacet (context : Context) (facet : FacetValue) (owner : FacetOwner) :
    (addFacet context facet owner).attributePart? owner? = context.attributePart? owner? := by
  cases owner with
  | declaredAttribute slot =>
      apply Context.attributePart?_slotModify
      exact fun _ => rfl
  | node id =>
      apply Context.attributePart?_modifyNode
      intro node
      cases node <;> rfl

theorem attributePart?_openFacet (construct : Construct) :
    (assembly.openFacet construct attributes).context.attributePart? owner? =
      assembly.context.attributePart? owner? := by
  have warning : ∀ warning, (assembly.warn warning).context.attributePart? owner? =
      assembly.context.attributePart? owner? := fun _ => by cases owner? <;> rfl
  unfold openFacet
  split
  · exact warning _
  · split
    · exact warning _
    · split
      · exact attributePart?_addFacet _ _ _
      · exact warning _

/-- No tag but that of an attribute changes what the tags of attributes say. -/
theorem attributePart?_openTag (assembly : Assembly) (attributes : Xml.Attributes)
    (old : owner? ≠ some assembly.context.arena.nextId) (notAttribute : construct ≠ .attribute) :
    (assembly.openTag construct attributes).1.context.attributePart? owner? =
      assembly.context.attributePart? owner? := by
  cases construct
  case schema => exact attributePart?_openSchema old
  case element => exact attributePart?_openElement old _
  case complexType =>
    unfold openTag
    dsimp only
    split
    · exact attributePart?_openElement old _
    · show (assembly.openInnerComplexType attributes).context.attributePart? owner? = _
      unfold openInnerComplexType
      split
      · rfl
      · exact attributePart?_modifyTopElement (attributePart_mergeAttributes attributes)
  case any => exact Context.attributePart?_addNode old _
  case group => exact Context.attributePart?_addNode old _
  case «attribute» => exact absurd rfl notAttribute
  case attributeGroup => exact attributePart?_openAttributeGroup old
  case anyAttribute => exact attributePart?_modifyTopElement fun _ => rfl
  case simpleContent => exact attributePart?_modifyTopElement fun _ => rfl
  case complexContent =>
    unfold openTag
    dsimp only
    split
    · exact attributePart?_modifyTopElement fun _ => rfl
    · rfl
  case extension => exact attributePart?_openExtension
  case simpleType => exact attributePart?_openSimpleType old
  case restriction => exact attributePart?_openRestriction
  case enumeration =>
    show (assembly.openFacet .enumeration attributes).context.attributePart? owner? = _
    exact attributePart?_openFacet .enumeration
  case minInclusive =>
    show (assembly.openFacet .minInclusive attributes).context.attributePart? owner? = _
    exact attributePart?_openFacet .minInclusive
  case maxInclusive =>
    show (assembly.openFacet .maxInclusive attributes).context.attributePart? owner? = _
    exact attributePart?_openFacet .maxInclusive
  case whiteSpace =>
    show (assembly.openWhiteSpace attributes).context.attributePart? owner? = _
    unfold openWhiteSpace
    split
    · apply attributePart?_modifyTop
      intro node
      cases node <;> rfl
    · rfl
  case union =>
    show (assembly.openUnion attributes).context.attributePart? owner? = _
    unfold openUnion
    split
    · exact attributePart?_modifyTopSimpleType
    · rfl
  case list =>
    show (assembly.openList attributes).context.attributePart? owner? = _
    unfold openList
    split
    · exact attributePart?_modifyTopSimpleType
    · rfl
  all_goals rfl

theorem attributePart?_stepOpening {name : String}
    (taken : assembly.stepOpening name attributes = .ok next)
    (old : owner? ≠ some assembly.context.arena.nextId)
    (notAttribute : next.context.vocabulary.classify name ≠ .attribute) :
    next.context.attributePart? owner? = assembly.context.attributePart? owner? := by
  rw [(enters_of_stepOpening taken).vocabulary] at notAttribute
  have sameId : (assembly.adoptQualifier name attributes).context.arena = assembly.context.arena :=
    (stacks_adoptQualifier assembly name attributes).1
  have adopting : (assembly.adoptQualifier name attributes).context.attributePart? owner? =
      assembly.context.attributePart? owner? := by
    unfold adoptQualifier
    split
    · dsimp only
      split
      · cases owner? <;> rfl
      · rfl
    · rfl
  obtain ⟨construct, rfl, rfl⟩ := exists_openTag_of_stepOpening taken
  rw [← adopting]
  rw [← sameId] at old
  exact attributePart?_openTag _ attributes old notAttribute

/-! ## Closings and text -/

/-- A closing takes the group that a node defines from it, and no other attributes. -/
theorem attributePart?_closeTag (assembly : Assembly) (tag : OpenTag)
    (elsewhere : tag.construct = .attributeGroup → tag.opensNode = true →
      ∀ id, assembly.top? = some id → owner? ≠ some id) :
    (assembly.closeTag tag).context.attributePart? owner? =
      assembly.context.attributePart? owner? := by
  have links : ∀ (assembly : Assembly) (child : NodeId),
      (assembly.linkChild child).context.attributePart? owner? =
        assembly.context.attributePart? owner? :=
    fun _ _ => attributePart?_modifyTopElement fun _ => rfl
  have closesChild : assembly.closeChild.context.attributePart? owner? =
      assembly.context.attributePart? owner? := by
    unfold closeChild
    split
    · exact links assembly.dropNode _
    · rfl
  have closesGroup : assembly.closeGroup.context.attributePart? owner? =
      assembly.context.attributePart? owner? := by
    unfold closeGroup
    split
    · rfl
    · dsimp only
      split
      · rfl
      · split
        · split
          · cases owner? <;> rfl
          · rfl
        · split
          · exact links assembly.dropNode _
          · rfl
  have closesAttributeGroup : (∀ id, assembly.top? = some id → owner? ≠ some id) →
      assembly.closeAttributeGroup.context.attributePart? owner? =
        assembly.context.attributePart? owner? := by
    intro elsewhere
    unfold closeAttributeGroup
    split
    · rfl
    · rename_i id isTop
      split
      · rfl
      · refine Eq.trans ?_ (Context.attributePart?_modifyElement_of_ne (elsewhere id isTop)
          ({ · with openGroup? := none }))
        cases owner? <;> rfl
  obtain ⟨construct, name, opensNode⟩ := tag
  unfold closeTag
  cases construct
  all_goals cases opensNode
  all_goals first
    | rfl
    | exact closesChild
    | exact closesGroup
    | exact closesAttributeGroup (elsewhere rfl rfl)

theorem attributePart?_stepClosing (taken : assembly.stepClosing = .ok next)
    (elsewhere : ∀ tag, assembly.openTags.head? = some tag → tag.construct = .attributeGroup →
      tag.opensNode = true → ∀ id, assembly.top? = some id → owner? ≠ some id) :
    next.context.attributePart? owner? = assembly.context.attributePart? owner? := by
  obtain ⟨tag, outer, opened, ⟨-, root, -, rfl⟩ | ⟨-, rfl⟩⟩ := cases_of_stepClosing taken
  · rfl
  · rw [opened] at elsewhere
    exact attributePart?_closeTag { assembly with openTags := outer } tag (elsewhere tag rfl)

theorem attributePart?_stepText (text : String) :
    (assembly.stepText text).context.attributePart? owner? =
      assembly.context.attributePart? owner? := by
  unfold stepText
  dsimp only
  split
  · split
    · rfl
    · apply attributePart?_modifyTop
      intro node
      cases node <;> rfl
  · rfl

/-! ## Definitions of groups -/

/-- Among new nodes, those of attribute groups define a group. -/
theorem definesGroup_openTag (makes : (assembly.openTag construct attributes).2 = true) :
    (assembly.openTag construct attributes).1.context.definesGroup assembly.context.arena.nextId =
      decide (construct = .attributeGroup) := by
  have declares : ∀ kind, (assembly.openElement kind attributes).context.definesGroup
      assembly.context.arena.nextId = false := by
    intro kind
    unfold openElement
    dsimp only
    split
    · rename_i head member _ _
      exact Context.definesGroup_addNode (assembly.context.addSubstitution
        (Namespace.localPart head) member) _
    · exact Context.definesGroup_addNode assembly.context _
  cases construct
  case schema =>
    have size := (quiet_bindNamespaces attributes.entries assembly.context).nextId
    rw [← size]
    exact Context.definesGroup_addNode _ _
  case element => exact declares .element
  case complexType =>
    unfold openTag at makes ⊢
    dsimp only at makes ⊢
    split
    · exact declares .complexType
    · rename_i inner
      rw [if_neg inner] at makes
      cases makes
  case any => exact Context.definesGroup_addNode assembly.context _
  case group => exact Context.definesGroup_addNode assembly.context _
  case attributeGroup =>
    show (assembly.openAttributeGroup attributes).1.context.definesGroup _ = true
    have makes : (assembly.openAttributeGroup attributes).2 = true := makes
    unfold openAttributeGroup at makes ⊢
    cases named : attributes.find? "name" with
    | none =>
        rw [named] at makes
        dsimp only at makes
        split at makes <;> cases makes
    | some name =>
        dsimp only
        split
        · rw [Context.definesGroup_eq,
            attributePart?_modifyTopElement (attributePart_referToAttributeGroup _ _),
            ← Context.definesGroup_eq]
          exact Context.definesGroup_addNode assembly.context _
        · exact Context.definesGroup_addNode assembly.context _
  case simpleType =>
    show (assembly.openSimpleType attributes).1.context.definesGroup _ = false
    have makes : (assembly.openSimpleType attributes).2 = true := makes
    unfold openSimpleType at makes ⊢
    split
    · rename_i inside
      rw [if_pos inside] at makes
      cases makes
    · extract_lets name marked entered simpleType opened
      have size : marked.context.arena.nextId = assembly.context.arena.nextId :=
        (Quiet.modifyTopElement assembly fun element => by split <;> rfl).context.nextId
      rw [← size]
      have opening : opened.context.definesGroup marked.context.arena.nextId = false :=
        Context.definesGroup_addNode marked.context _
      split
      · exact opening
      · exact opening
  -- No other tag makes a node.
  all_goals
    rw [snd_openTag] at makes
    cases makes

theorem definesGroup_openAttribute (id : NodeId) :
    (assembly.openAttribute attributes).context.definesGroup id =
      assembly.context.definesGroup id := by
  have edits : ∀ (owner : NodeId) (element : Element) (change : Element → Element),
      assembly.context.element? owner = some element →
      (change element).openGroup?.isSome = element.openGroup?.isSome →
      (assembly.context.modifyElement owner change).definesGroup id =
        assembly.context.definesGroup id := by
    intro owner element change found keeps
    unfold Context.definesGroup
    by_cases same : id = owner
    · rw [same, element?_modifyElement_self found, found]
      exact keeps
    · rw [element?_modifyElement_other same]
  unfold openAttribute
  dsimp only
  split
  · rfl
  · split
    · rfl
    · rename_i element found
      split
      · rfl
      · split
        · rename_i group opened
          exact edits _ element _ found (by rw [opened]; rfl)
        · exact edits _ element _ found rfl

end Assembly

/-- Where the tag of a construct keeps an attribute of a name that stands right in its node. -/
def Construct.slot? (owner : NodeId) (name : String) : Construct → Option AttributeSlot
  | .schema => some (.global name)
  | .attributeGroup => some (.grouped owner name)
  | .simpleType => none
  | _ => some (.owned owner name)

namespace Assembly

/-- Whether an attribute is the last one that has been stored, and its place holds it. -/
structure Stores (assembly : Assembly) (slot : AttributeSlot) (declared : Attribute) : Prop where
  lastAttribute? : assembly.lastAttribute? = some slot
  attribute? : slot.attribute? assembly.context = some declared

section OpenAttribute

variable {assembly : Assembly} {construct : Construct} {owner : NodeId} {element : Element}
  (attributes : Xml.Attributes)

theorem openAttribute_of_simpleType {simpleType : SimpleType} (isTop : assembly.top? = some owner)
    (found : assembly.context.arena.simpleType? owner = some simpleType) :
    assembly.openAttribute attributes = assembly := by
  unfold openAttribute
  rw [isTop]
  dsimp only
  rw [Context.element?_eq_none_of_simpleType? found]

theorem stores_openAttribute_global (isTop : assembly.top? = some owner)
    (found : assembly.context.element? owner = some element) (isSchema : element.kind = .schema) :
    (assembly.openAttribute attributes).Stores
      (.global (declaredAttribute assembly.context.vocabulary attributes).name)
      (declaredAttribute assembly.context.vocabulary attributes) := by
  unfold openAttribute
  rw [isTop]
  dsimp only
  rw [found]
  dsimp only
  rw [if_pos isSchema]
  exact ⟨rfl, (Table.find?_insert ..).trans (if_pos rfl)⟩

theorem stores_openAttribute_grouped {group : AttributeGroup} (isTop : assembly.top? = some owner)
    (found : assembly.context.element? owner = some element) (inside : element.kind ≠ .schema)
    (defines : element.openGroup? = some group) :
    (assembly.openAttribute attributes).Stores
      (.grouped owner (declaredAttribute assembly.context.vocabulary attributes).name)
      (declaredAttribute assembly.context.vocabulary attributes) := by
  unfold openAttribute
  rw [isTop]
  dsimp only
  rw [found]
  dsimp only
  rw [if_neg inside, defines]
  refine ⟨rfl, ?_⟩
  unfold AttributeSlot.attribute?
  refine (congrArg (fun read => (Option.bind read Element.openGroup?).bind _)
    (element?_modifyElement_self found _)).trans ?_
  exact (Table.find?_insert ..).trans (if_pos rfl)

theorem stores_openAttribute_owned (isTop : assembly.top? = some owner)
    (found : assembly.context.element? owner = some element) (inside : element.kind ≠ .schema)
    (alone : element.openGroup? = none) :
    (assembly.openAttribute attributes).Stores
      (.owned owner (declaredAttribute assembly.context.vocabulary attributes).name)
      (declaredAttribute assembly.context.vocabulary attributes) := by
  unfold openAttribute
  rw [isTop]
  dsimp only
  rw [found]
  dsimp only
  rw [if_neg inside, alone]
  refine ⟨rfl, ?_⟩
  unfold AttributeSlot.attribute?
  refine (congrArg (Option.bind · _) (element?_modifyElement_self found _)).trans ?_
  exact (Table.find?_insert ..).trans (if_pos rfl)

/-- An attribute is stored in the innermost open node, unless this is a simple type. -/
theorem stores_openAttribute (isTop : assembly.top? = some owner)
    (makes : construct.Makes assembly.context owner)
    (defines : assembly.context.definesGroup owner = decide (construct = .attributeGroup)) :
    (construct.slot? owner (declaredAttribute assembly.context.vocabulary attributes).name = none ∧
        assembly.openAttribute attributes = assembly) ∨
      ∃ slot, construct.slot? owner
          (declaredAttribute assembly.context.vocabulary attributes).name = some slot ∧
        (assembly.openAttribute attributes).Stores slot
          (declaredAttribute assembly.context.vocabulary attributes) := by
  cases makes with
  | simpleType found => exact .inl ⟨rfl, openAttribute_of_simpleType attributes isTop found⟩
  | @declaration _ element found isKind =>
      refine .inr ?_
      have isGroup : element.openGroup?.isSome = decide (construct = .attributeGroup) := by
        rw [← defines]
        unfold Context.definesGroup
        rw [found]
        rfl
      by_cases isSchema : construct = .schema
      · subst isSchema
        exact ⟨_, rfl,
          stores_openAttribute_global attributes isTop found (Option.some.inj isKind).symm⟩
      · have inside : element.kind ≠ .schema := by
          intro contradiction
          rw [contradiction] at isKind
          cases construct
          all_goals first
            | exact isSchema rfl
            | cases isKind
        cases defined : element.openGroup? with
        | some group =>
            rw [defined] at isGroup
            rw [of_decide_eq_true isGroup.symm]
            exact ⟨_, rfl, stores_openAttribute_grouped attributes isTop found inside defined⟩
        | none =>
            rw [defined] at isGroup
            refine ⟨_, ?_, stores_openAttribute_owned attributes isTop found inside defined⟩
            cases construct
            case schema => exact absurd rfl isSchema
            case attributeGroup => cases isGroup
            case simpleType => cases isKind
            all_goals rfl

end OpenAttribute

end Assembly

end XmlSchema
