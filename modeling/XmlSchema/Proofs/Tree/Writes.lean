import Mathlib.Logic.Relation
import XmlSchema.Proofs.Consistency.Keys
import XmlSchema.Proofs.Tree.Effects

/-!
# What reading writes

A `Write` is one change that reading makes to a context: a new node, an edit of a node, a link
between two nodes, an entry in one of the tables, or a warning. What an opening tag does is a series
of writes, `written_openTag`, and an invariant of reading follows from what each kind of write
keeps. The first of these invariants is that every node stays what it is: `Write.extends`.
-/

namespace XmlSchema

/-! ## Nodes stay what they are -/

/-- What a node is, whatever is done to it. -/
inductive NodeIdentity where
  | declaration (kind : ElementKind) (name : String) (groupRef? : Option String)
      (choice? : Option ChoiceBounds)
  | simple (name : String)

def Element.identity (element : Element) : NodeIdentity :=
  .declaration element.kind element.name element.groupRef? element.choice?

theorem Element.of_identity {before after : Element} (same : after.identity = before.identity) :
    after.kind = before.kind ∧ after.name = before.name ∧ after.groupRef? = before.groupRef? := by
  obtain ⟨kind, name, groupRef, -⟩ := NodeIdentity.declaration.inj same
  exact ⟨kind, name, groupRef⟩

theorem Element.choice?_of_identity {before after : Element}
    (same : after.identity = before.identity) : after.choice? = before.choice? :=
  (NodeIdentity.declaration.inj same).2.2.2

def Node.identity : Node → NodeIdentity
  | .declaration element => element.identity
  | .simple simpleType => .simple simpleType.name

theorem Node.name_of_identity {before after : Node} (same : after.identity = before.identity) :
    after.name = before.name := by
  cases before with
  | declaration element =>
      cases after with
      | declaration later => exact (Element.of_identity same).2.1
      | simple later => cases same
  | simple simpleType =>
      cases after with
      | declaration later => cases same
      | simple later => exact NodeIdentity.simple.inj same

namespace Context

variable {first second third before after context : Context} {id : NodeId}

theorem node?_eq_declaration_iff {element : Element} :
    context.node? id = some (.declaration element) ↔ context.element? id = some element := by
  unfold Context.element? Arena.element? Context.node?
  cases context.arena.node? id with
  | none => simp
  | some node => cases node <;> simp [Node.element?]

theorem node?_eq_simple_iff {simpleType : SimpleType} :
    context.node? id = some (.simple simpleType) ↔
      context.arena.simpleType? id = some simpleType := by
  unfold Arena.simpleType? Context.node?
  cases context.arena.node? id with
  | none => simp
  | some node => cases node <;> simp [Node.simpleType?]

theorem element?_eq_none_of_simpleType? {simpleType : SimpleType}
    (found : context.arena.simpleType? id = some simpleType) : context.element? id = none := by
  cases present : context.element? id with
  | none => rfl
  | some element =>
      rw [← node?_eq_simple_iff, node?_eq_declaration_iff.2 present] at found
      cases found

theorem simpleType?_eq_none_of_element? {element : Element}
    (found : context.element? id = some element) : context.arena.simpleType? id = none := by
  cases present : context.arena.simpleType? id with
  | none => rfl
  | some simpleType =>
      rw [element?_eq_none_of_simpleType? present] at found
      cases found

theorem node?_addNode_of_node? {node : Node} (present : context.node? id = some node)
    (new : Node) : (context.addNode new).node? id = some node := by
  have read := Arena.node?_add context.arena new id
  have different : id ≠ context.arena.nextId := by
    rintro rfl
    rw [node?_nextId] at present
    cases present
  rw [if_neg different] at read
  exact read.trans present

/-- A later context, in which every node is still what it was. -/
structure Extends (before after : Context) : Prop where
  node? : ∀ {id node}, before.node? id = some node →
    ∃ later, after.node? id = some later ∧ later.identity = node.identity

namespace Extends

theorem refl (context : Context) : Extends context context :=
  ⟨fun found => ⟨_, found, rfl⟩⟩

theorem trans (left : Extends first second) (right : Extends second third) :
    Extends first third := by
  refine ⟨fun found => ?_⟩
  obtain ⟨between, foundBetween, sameLeft⟩ := left.node? found
  obtain ⟨later, foundLater, sameRight⟩ := right.node? foundBetween
  exact ⟨later, foundLater, sameRight.trans sameLeft⟩

/-- A change outside the nodes. -/
theorem of_arena (same : after.arena = before.arena) : Extends before after := by
  refine ⟨fun found => ⟨_, ?_, rfl⟩⟩
  unfold Context.node? at found ⊢
  rw [same]
  exact found

theorem addNode (context : Context) (node : Node) : Extends context (context.addNode node) :=
  ⟨fun found => ⟨_, node?_addNode_of_node? found node, rfl⟩⟩

theorem modifyNode (context : Context) (id : NodeId) {change : Node → Node}
    (keeps : ∀ node, context.node? id = some node → (change node).identity = node.identity) :
    Extends context (context.modifyNode id change) := by
  refine ⟨fun {other node} found => ?_⟩
  have read : (context.modifyNode id change).node? other = _ :=
    Arena.node?_modify context.arena id other change
  rw [read]
  split
  · rename_i same
    subst same
    have foundThere : context.arena.node? other = some node := found
    rw [foundThere]
    exact ⟨change node, rfl, keeps node found⟩
  · exact ⟨node, found, rfl⟩

theorem modifyElement (context : Context) (id : NodeId) {change : Element → Element}
    (keeps : ∀ element, (change element).identity = element.identity) :
    Extends context (context.modifyElement id change) := by
  refine modifyNode context id fun node _ => ?_
  cases node with
  | declaration element => exact keeps element
  | simple simpleType => rfl

/-- A pass that keeps what declarations are. -/
theorem of_frame (frame : Frame (.keeping Element.identity) before after) :
    Extends before after := by
  refine ⟨fun {id node} found => ?_⟩
  cases node with
  | declaration element =>
      obtain ⟨later, present, same⟩ := frame.of_element? (node?_eq_declaration_iff.1 found)
      exact ⟨_, node?_eq_declaration_iff.2 present, same⟩
  | simple simpleType =>
      have present := node?_eq_simple_iff.1 found
      rw [← frame.simpleType?] at present
      exact ⟨_, node?_eq_simple_iff.2 present, rfl⟩

theorem isSome_node? (extension : Extends before after)
    (present : (before.node? id).isSome = true) : (after.node? id).isSome = true := by
  obtain ⟨node, found⟩ := Option.isSome_iff_exists.1 present
  obtain ⟨later, foundLater, -⟩ := extension.node? found
  rw [foundLater]
  rfl

theorem nodeName (extension : Extends before after)
    (present : (before.node? id).isSome = true) : after.nodeName id = before.nodeName id := by
  obtain ⟨node, found⟩ := Option.isSome_iff_exists.1 present
  obtain ⟨later, foundLater, same⟩ := extension.node? found
  unfold Context.nodeName
  rw [found, foundLater]
  exact Node.name_of_identity same

theorem element? (extension : Extends before after) {element : Element}
    (found : before.element? id = some element) :
    ∃ later, after.element? id = some later ∧ later.identity = element.identity := by
  obtain ⟨later, present, same⟩ := extension.node? (node?_eq_declaration_iff.2 found)
  cases later with
  | declaration later => exact ⟨later, node?_eq_declaration_iff.1 present, same⟩
  | simple _ => cases same

theorem simpleType? (extension : Extends before after) {simpleType : SimpleType}
    (found : before.arena.simpleType? id = some simpleType) :
    ∃ later, after.arena.simpleType? id = some later ∧ later.name = simpleType.name := by
  obtain ⟨later, present, same⟩ := extension.node? (node?_eq_simple_iff.2 found)
  cases later with
  | declaration _ => cases same
  | simple later => exact ⟨later, node?_eq_simple_iff.1 present, NodeIdentity.simple.inj same⟩

end Extends

end Context

/-! ## Writes -/

/-- The parts of a declaration that no tag inside it writes. Its children are linked to it when they
close. -/
structure Element.Fixed where
  identity : NodeIdentity
  children : List NodeId
  isExtended : Bool
  mixedMismatch : Bool

def Element.fixed (element : Element) : Fixed :=
  ⟨element.identity, element.children, element.isExtended, element.mixedMismatch⟩

/-- An edit of a node by a tag inside it. -/
inductive Node.Edited : Node → Node → Prop where
  | declaration {before after : Element} (fixed : after.fixed = before.fixed)
      (keyed : before.Keyed → after.Keyed) : Edited (.declaration before) (.declaration after)
  | simple {before after : SimpleType} (name : after.name = before.name) :
      Edited (.simple before) (.simple after)

/-- All that most tags leave alone: besides the fixed parts, the attributes declared so far. -/
def Element.stable (element : Element) : Fixed × Table Attribute × Option AttributeGroup :=
  (element.fixed, element.attributes, element.openGroup?)

theorem Node.Edited.of_stable {before after : Element} (same : after.stable = before.stable) :
    Edited (.declaration before) (.declaration after) := by
  obtain ⟨fixed, rest⟩ := Prod.mk.inj same
  obtain ⟨attributes, openGroup⟩ := Prod.mk.inj rest
  refine .declaration fixed fun keyed => ⟨?_, fun opened => ?_⟩
  · rw [attributes]
    exact keyed.attributes
  · rw [openGroup] at opened
    exact keyed.openGroup? opened

theorem Node.Edited.identity {before after : Node} (edited : before.Edited after) :
    after.identity = before.identity := by
  cases edited with
  | declaration fixed _ => exact congrArg Element.Fixed.identity fixed
  | simple name => exact congrArg NodeIdentity.simple name

namespace Context

/-- Whether a handle is that of a declaration that can be a child: a group can be one as a reference
only. -/
def Linkable (context : Context) (id : NodeId) : Prop :=
  ∃ element, context.element? id = some element ∧
    (element.kind = .group → element.groupRef?.isSome = true)

/-- Whether a handle is that of a declaration of the kind of a group. -/
def IsGroup (context : Context) (id : NodeId) : Prop :=
  ∃ element, context.element? id = some element ∧ element.kind = .group

/-- One change that reading makes to a context. -/
inductive Write (before : Context) : Context → Prop where
  | header (vocabulary : Vocabulary) (namespaces : Namespaces) (targetNamespace? : Option String)
      (substitutionGroups : Table (List String)) :
      Write before
        { before with vocabulary, namespaces, targetNamespace?, substitutionGroups }
  | warning {warning : Warning} (other : warning.kind ≠ .mixedContentMismatch) :
      Write before (before.warn warning)
  | declares {element : Element} (childless : element.children = [])
      (unmarked : element.isExtended = false) (unflagged : element.mixedMismatch = false)
      (keyed : element.Keyed) : Write before (before.addNode (.declaration element))
  | types (simpleType : SimpleType) : Write before (before.addNode (.simple simpleType))
  | namesType {id : NodeId} {simpleType : SimpleType}
      (found : before.arena.simpleType? id = some simpleType) :
      Write before
        { before with simpleTypes := before.simpleTypes.insertNew simpleType.name id }
  | edits {id : NodeId} {change : Node → Node}
      (edited : ∀ node, before.node? id = some node → node.Edited (change node)) :
      Write before (before.modifyNode id change)
  | links (parent : NodeId) {child : NodeId} (linkable : before.Linkable child) :
      Write before (before.modifyElement parent fun element =>
        { element with children := element.children ++ [child] })
  | globals {globalAttributes : Table Attribute}
      (named : before.globalAttributes.Named → globalAttributes.Named) :
      Write before { before with globalAttributes }
  | group {id : NodeId} {element : Element} (found : before.element? id = some element)
      (isGroup : element.kind = .group) :
      Write before
        { before with
          elementGroups := before.elementGroups.insertNew element.name ⟨element.name, id⟩ }
  | attributeGroup {id : NodeId} {element : Element} {group : AttributeGroup}
      (found : before.element? id = some element) (opened : element.openGroup? = some group) :
      Write before
        { before with attributeGroups := before.attributeGroups.insertNew group.name group }

/-- A series of writes. -/
abbrev Written : Context → Context → Prop := Relation.ReflTransGen Write

variable {before after : Context}

theorem Linkable.mono (extension : Extends before after) {id : NodeId}
    (linkable : before.Linkable id) : after.Linkable id := by
  obtain ⟨element, found, refers⟩ := linkable
  obtain ⟨later, present, same⟩ := extension.element? found
  obtain ⟨kind, -, groupRef⟩ := Element.of_identity same
  exact ⟨later, present, by rwa [kind, groupRef]⟩

theorem Write.extends (write : Write before after) : Extends before after := by
  cases write
  case declares => exact .addNode before _
  case types => exact .addNode before _
  case edits id change edited => exact .modifyNode before id fun node found => (edited node found).identity
  case links parent child linkable => exact .modifyElement before parent fun _ => rfl
  all_goals exact .of_arena rfl

/-- A series of writes leaves every node what it is. -/
theorem Written.extends (written : Written before after) : Extends before after := by
  induction written with
  | refl => exact .refl before
  | tail _ write inductionHypothesis => exact inductionHypothesis.trans write.extends

/-- What is entered for the name of a simple type is never replaced. -/
theorem Write.find?_simpleTypes (write : Write before after) {name : String} {id : NodeId}
    (entered : before.simpleTypes.find? name = some id) :
    after.simpleTypes.find? name = some id := by
  cases write
  case namesType other simpleType found =>
    refine (Table.find?_insertNew before.simpleTypes simpleType.name name other).trans ?_
    split
    · rename_i same
      rw [← same, entered]
      rfl
    · exact entered
  all_goals exact entered

theorem Written.find?_simpleTypes (written : Written before after) {name : String} {id : NodeId}
    (entered : before.simpleTypes.find? name = some id) :
    after.simpleTypes.find? name = some id := by
  induction written with
  | refl => exact entered
  | tail _ write inductionHypothesis => exact write.find?_simpleTypes inductionHypothesis

theorem IsGroup.mono (extension : Extends before after) {id : NodeId}
    (isGroup : before.IsGroup id) : after.IsGroup id := by
  obtain ⟨element, found, kind⟩ := isGroup
  obtain ⟨later, present, same⟩ := extension.element? found
  exact ⟨later, present, (Element.of_identity same).1.trans kind⟩

/-- A single write. -/
theorem Write.written (write : Write before after) : Written before after :=
  Relation.ReflTransGen.single write

end Context

/-- After an edit, every declaration is an earlier one with the same fixed parts. -/
theorem Context.exists_of_edited {before : Context} {id other : NodeId} {change : Node → Node}
    {element : Element}
    (edited : ∀ node, before.node? id = some node → node.Edited (change node))
    (found : (before.modifyNode id change).element? other = some element) :
    ∃ original, before.element? other = some original ∧ element.fixed = original.fixed ∧
      (original.Keyed → element.Keyed) := by
  have after := Context.node?_eq_declaration_iff.2 found
  have read := (Arena.node?_modify before.arena id other change).symm.trans after
  split at read
  · rename_i same
    obtain ⟨node, present, changed⟩ := Option.map_eq_some_iff.1 read
    have edit := edited node present
    rw [changed] at edit
    cases edit with
    | declaration fixed keyed =>
        subst same
        exact ⟨_, Context.node?_eq_declaration_iff.1 present, fixed, keyed⟩
  · exact ⟨element, Context.node?_eq_declaration_iff.1 read, rfl, fun keyed => keyed⟩

namespace Assembly

open Context (Write Written)

variable {assembly : Assembly} {construct : Construct} {attributes : Xml.Attributes}

/-! ## Edits of the innermost node -/

theorem written_modifyTop {change : Node → Node} (edited : ∀ node : Node, node.Edited (change node)) :
    Written assembly.context (assembly.modifyTop change).context := by
  unfold modifyTop
  split
  · exact (Write.edits fun node _ => edited node).written
  · exact .refl

theorem written_modifyTopElement {change : Element → Element}
    (stable : ∀ element, (change element).stable = element.stable) :
    Written assembly.context (assembly.modifyTopElement change).context := by
  refine written_modifyTop fun node => ?_
  cases node with
  | declaration element => exact .of_stable (stable element)
  | simple simpleType => exact .simple rfl

theorem written_modifyTopSimpleType {change : SimpleType → SimpleType}
    (name : ∀ simpleType, (change simpleType).name = simpleType.name) :
    Written assembly.context (assembly.modifyTopSimpleType change).context := by
  refine written_modifyTop fun node => ?_
  cases node with
  | declaration element => exact .of_stable rfl
  | simple simpleType => exact .simple (name simpleType)

/-- An edit of one declaration. -/
theorem written_modifyElement {context : Context} {owner : NodeId} {change : Element → Element}
    (fixed : ∀ element, (change element).fixed = element.fixed)
    (keyed : ∀ element, context.element? owner = some element → element.Keyed →
      (change element).Keyed) :
    Written context (context.modifyElement owner change) := by
  refine (Write.edits fun node found => ?_).written
  cases node with
  | declaration element =>
      exact .declaration (fixed element) (keyed element (Context.node?_eq_declaration_iff.1 found))
  | simple simpleType => exact .simple rfl

/-- An edit of the attribute of a slot keeps it under its name. -/
theorem written_slotModify (context : Context) {change : Attribute → Attribute}
    (name : ∀ declaration, (change declaration).name = declaration.name) (slot : AttributeSlot) :
    Written context (slot.modify context change) := by
  cases slot with
  | global key => exact (Write.globals fun named => named.modify key name).written
  | grouped owner key =>
      refine written_modifyElement (fun _ => rfl) fun element _ keyed => ?_
      refine ⟨keyed.attributes, fun {group} opened => ?_⟩
      obtain ⟨original, wasOpen, rfl⟩ := Option.map_eq_some_iff.1 opened
      exact (keyed.openGroup? wasOpen).modify key name
  | owned owner key =>
      refine written_modifyElement (fun _ => rfl) fun element _ keyed => ?_
      exact ⟨keyed.attributes.modify key name, keyed.openGroup?⟩

/-! ## Openings -/

/-- A declaration as its tag makes it is still to be filled. -/
theorem written_addNode {context : Context} {element : Element} (childless : element.children = [])
    (unmarked : element.isExtended = false) (unflagged : element.mixedMismatch = false)
    (bare : element.attributes = .empty)
    (openGroup? : ∀ group, element.openGroup? = some group → group.attributes = .empty) :
    Written context (context.addNode (.declaration element)) := by
  refine (Write.declares childless unmarked unflagged ⟨?_, fun {group} opened => ?_⟩).written
  · rw [bare]
    exact Table.named_empty
  · rw [openGroup? group opened]
    exact Table.named_empty

theorem written_bindNamespace (context : Context) (key value : String) :
    Written context (bindNamespace context key value) := by
  unfold bindNamespace
  split
  · exact (Write.header context.vocabulary _ context.targetNamespace? _).written
  · split
    · exact (Write.header context.vocabulary _ context.targetNamespace? _).written
    · split
      · exact (Write.header context.vocabulary context.namespaces _ _).written
      · exact .refl

theorem written_bindNamespaces (entries : List (String × String)) (context : Context) :
    Written context (entries.foldl (fun context (key, value) => bindNamespace context key value)
      context) := by
  induction entries generalizing context with
  | nil => exact .refl
  | cons entry rest inductionHypothesis =>
      exact (written_bindNamespace context entry.1 entry.2).trans (inductionHypothesis _)

theorem written_openSchema : Written assembly.context (assembly.openSchema attributes).context := by
  refine (written_bindNamespaces attributes.entries assembly.context).trans ?_
  exact written_addNode rfl rfl rfl rfl nofun

theorem written_openElement (kind : ElementKind) :
    Written assembly.context (assembly.openElement kind attributes).context := by
  unfold openElement
  dsimp only
  split
  · rename_i head member _ _
    have recorded : Written assembly.context
        (assembly.context.addSubstitution (Namespace.localPart head) member) :=
      (Write.header assembly.context.vocabulary assembly.context.namespaces
        assembly.context.targetNamespace? _).written
    exact recorded.trans (written_addNode rfl rfl rfl rfl nofun)
  · exact written_addNode rfl rfl rfl rfl nofun

theorem stable_mergeAttributes (attributes : Xml.Attributes) (element : Element) :
    (mergeAttributes attributes element).stable = element.stable := by
  unfold mergeAttributes
  generalize attributes.entries = entries
  induction entries generalizing element with
  | nil => rfl
  | cons entry rest inductionHypothesis =>
      rw [List.foldl_cons, inductionHypothesis]
      dsimp only
      split <;> rfl

theorem written_openInnerComplexType :
    Written assembly.context (assembly.openInnerComplexType attributes).context := by
  unfold openInnerComplexType
  split
  · exact .refl
  · exact written_modifyTopElement (stable_mergeAttributes attributes)

theorem written_openAttribute :
    Written assembly.context (assembly.openAttribute attributes).context := by
  unfold openAttribute
  dsimp only
  split
  · exact .refl
  · split
    · exact .refl
    · rename_i element found
      split
      · exact (Write.globals fun named => named.insert _).written
      · split
        · rename_i group opened
          refine written_modifyElement (fun _ => rfl) fun other present keyed => ?_
          cases found.symm.trans present
          refine ⟨keyed.attributes, fun {group} isOpen => ?_⟩
          cases isOpen
          exact (keyed.openGroup? opened).insert _
        · refine written_modifyElement (fun _ => rfl) fun other present keyed => ?_
          cases found.symm.trans present
          exact ⟨keyed.attributes.insert _, keyed.openGroup?⟩

theorem written_referToAttributeGroup (assembly : Assembly) (reference : String)
    (defining : Bool) :
    Written assembly.context
      (assembly.modifyTopElement (referToAttributeGroup reference defining)).context := by
  refine written_modifyTop fun node => ?_
  cases node with
  | simple simpleType => exact .simple rfl
  | declaration element =>
      unfold Node.mapElement referToAttributeGroup
      dsimp only
      split
      · rename_i group opened
        refine .declaration rfl fun keyed => ⟨keyed.attributes, fun isOpen => ?_⟩
        cases isOpen
        have named : group.attributes.Named := keyed.openGroup? opened
        exact named
      · exact .of_stable rfl

theorem written_openAttributeGroup :
    Written assembly.context (assembly.openAttributeGroup attributes).1.context := by
  unfold openAttributeGroup
  cases attributes.find? "name" with
  | none =>
      dsimp only
      split
      · exact written_referToAttributeGroup assembly _ _
      · exact .refl
  | some name =>
      have opened : Written assembly.context (assembly.openNode (.declaration
          { Element.ofTag .attributeGroup attributes assembly.context.vocabulary with
            isTopLevel := assembly.depth == 1
            openGroup? := some (.ofName (Namespace.localPart name)) })).context := by
        refine written_addNode rfl rfl rfl rfl fun group isOpen => ?_
        cases isOpen
        rfl
      dsimp only
      split
      · exact opened.trans (written_referToAttributeGroup _ _ _)
      · exact opened

theorem stable_addSimpleBase (element : Element) (name : String) :
    (element.addSimpleBase name).stable = element.stable :=
  part_addSimpleBase Element.stable (fun _ _ => rfl) element name

theorem written_openExtension :
    Written assembly.context (assembly.openExtension attributes).context := by
  unfold openExtension
  split
  · exact .refl
  · split
    · exact written_modifyTopElement fun element => stable_addSimpleBase element _
    · exact written_modifyTopElement fun _ => rfl

theorem written_openSimpleType :
    Written assembly.context (assembly.openSimpleType attributes).1.context := by
  unfold openSimpleType
  split
  · exact .refl
  · extract_lets name marked id simpleType opened
    have marking : Written assembly.context marked.context := by
      refine written_modifyTopElement fun element => ?_
      split <;> rfl
    have opening : Written assembly.context opened.context := marking.tail (.types _)
    split
    · exact opening
    · have found : opened.context.arena.simpleType? id = some
          { SimpleType.ofName name with default? := attributes.find? "default" } :=
        (Context.simpleType?_addNode marked.context _ id).trans (if_pos rfl)
      exact opening.tail (.namesType found)

theorem written_openRestriction :
    Written assembly.context (assembly.openRestriction attributes).context := by
  unfold openRestriction
  dsimp only
  split
  · split
    · refine written_slotModify _ (fun _ => ?_) _
      rfl
    · exact .refl
  · refine written_modifyTop fun node => ?_
    cases node with
    | simple simpleType => exact .simple rfl
    | declaration element =>
        dsimp only
        split
        · exact .of_stable rfl
        · split
          · exact .of_stable rfl
          · exact .of_stable rfl

theorem written_addFacet (context : Context) (facet : FacetValue) (owner : FacetOwner) :
    Written context (addFacet context facet owner) := by
  cases owner with
  | declaredAttribute slot =>
      refine written_slotModify _ (fun _ => ?_) _
      rfl
  | node id =>
      refine (Write.edits fun node _ => ?_).written
      cases node with
      | simple simpleType => exact .simple rfl
      | declaration element => exact .of_stable rfl

theorem written_openFacet (construct : Construct) :
    Written assembly.context (assembly.openFacet construct attributes).context := by
  unfold openFacet
  split
  · exact (Write.warning (by simp [Warning.missingFacetValue])).written
  · split
    · exact (Write.warning (by simp [Warning.invalidFacetValue])).written
    · split
      · exact written_addFacet _ _ _
      · exact (Write.warning (by simp [Warning.detachedFacet])).written

theorem written_openWhiteSpace :
    Written assembly.context (assembly.openWhiteSpace attributes).context := by
  unfold openWhiteSpace
  split
  · refine written_modifyTop fun node => ?_
    cases node with
    | simple simpleType => exact .simple rfl
    | declaration element => exact .of_stable rfl
  · exact .refl

theorem written_openTag (assembly : Assembly) (construct : Construct)
    (attributes : Xml.Attributes) :
    Written assembly.context (assembly.openTag construct attributes).1.context := by
  cases construct
  case schema => exact written_openSchema
  case element => exact written_openElement _
  case complexType =>
    unfold openTag
    dsimp only
    split
    · exact written_openElement _
    · exact written_openInnerComplexType
  case any => exact written_addNode rfl rfl rfl rfl nofun
  case group => exact written_addNode rfl rfl rfl rfl nofun
  case «attribute» => exact written_openAttribute
  case attributeGroup => exact written_openAttributeGroup
  case anyAttribute => exact written_modifyTopElement fun _ => rfl
  case simpleContent => exact written_modifyTopElement fun _ => rfl
  case complexContent =>
    unfold openTag
    dsimp only
    split
    · exact written_modifyTopElement fun _ => rfl
    · exact .refl
  case extension => exact written_openExtension
  case simpleType => exact written_openSimpleType
  case restriction => exact written_openRestriction
  case enumeration => exact written_openFacet .enumeration
  case minInclusive => exact written_openFacet .minInclusive
  case maxInclusive => exact written_openFacet .maxInclusive
  case whiteSpace => exact written_openWhiteSpace
  case union =>
    unfold openTag openUnion
    dsimp only
    split
    · exact written_modifyTopSimpleType fun _ => rfl
    · exact .refl
  case list =>
    unfold openTag openList
    dsimp only
    split
    · exact written_modifyTopSimpleType fun _ => rfl
    · exact .refl
  all_goals exact .refl

theorem written_adoptQualifier (tag : String) :
    Written assembly.context (assembly.adoptQualifier tag attributes).context := by
  unfold adoptQualifier
  split
  · dsimp only
    split
    · exact (Write.header _ assembly.context.namespaces assembly.context.targetNamespace?
        assembly.context.substitutionGroups).written
    · exact .refl
  · exact .refl

theorem written_stepText (text : String) :
    Written assembly.context (assembly.stepText text).context := by
  unfold stepText
  dsimp only
  split
  · split
    · exact .refl
    · refine written_modifyTop fun node => ?_
      cases node with
      | simple simpleType => exact .simple rfl
      | declaration element => exact .of_stable rfl
  · exact .refl

end Assembly

end XmlSchema
