import XmlSchema.Proofs.Tree.Writes

/-!
# What a reading leaves, wherever it ends

A reading can start from any context and can halt at any event. Whether or not it does, it is a
series of writes, `written_readTree`, and a reading that goes through ends with a schema as its
root, `isSchema_readTree`.

A closing tag links a node, so the stacks have to be accounted for: every open tag that made a node
has it on the stack of open nodes, and the node is what the construct makes, `Stacked`. All handles
that are in use between two events are those of nodes: `isSome_node?_of_run`.
-/

namespace XmlSchema

open Context (Extends Write Written)

/-- Whether a node is what a tag of a construct makes. -/
inductive Construct.Makes (context : Context) (id : NodeId) : Construct → Prop where
  | declaration {construct : Construct} {element : Element}
      (found : context.element? id = some element) (kind : construct.kind? = some element.kind) :
      Makes context id construct
  | simpleType {simpleType : SimpleType} (found : context.arena.simpleType? id = some simpleType) :
      Makes context id .simpleType

namespace Construct.Makes

variable {before after : Context} {id : NodeId} {construct : Construct}

theorem mono (extension : Extends before after) (makes : construct.Makes before id) :
    construct.Makes after id := by
  cases makes with
  | declaration found kind =>
      obtain ⟨later, present, same⟩ := extension.element? found
      exact .declaration present (kind.trans (congrArg some (Element.of_identity same).1.symm))
  | simpleType found =>
      obtain ⟨later, present, -⟩ := extension.simpleType? found
      exact .simpleType present

theorem makesNode (makes : construct.Makes before id) : construct.MakesNode := by
  cases makes with
  | declaration found kind => exact .inl (by rw [kind]; rfl)
  | simpleType found => exact .inr rfl

/-- What is made by a tag other than that of a group can be linked. -/
theorem linkable {kind : ElementKind} (makes : construct.Makes before id)
    (isKind : construct.kind? = some kind) (notGroup : kind ≠ .group) : before.Linkable id := by
  cases makes with
  | declaration found ofKind =>
      rw [isKind] at ofKind
      cases ofKind
      exact ⟨_, found, fun isGroup => absurd isGroup notGroup⟩
  | simpleType _ => cases isKind

theorem isSome_node? (makes : construct.Makes before id) : (before.node? id).isSome = true := by
  cases makes with
  | declaration found kind => rw [Context.node?_eq_declaration_iff.2 found]; rfl
  | simpleType found => rw [Context.node?_eq_simple_iff.2 found]; rfl

end Construct.Makes

/-- Whether tags of a construct arrange the declarations inside them. -/
def Construct.composes : Construct → Bool
  | .sequence | .choice | .all => true
  | _ => false

/-- Whether a handle is that of a schema. -/
def Context.IsSchema (context : Context) (id : NodeId) : Prop :=
  ∃ element, context.element? id = some element ∧ element.kind = .schema

theorem Context.IsSchema.mono {before after : Context} {id : NodeId}
    (extension : Extends before after) (schema : before.IsSchema id) : after.IsSchema id := by
  obtain ⟨element, found, kind⟩ := schema
  obtain ⟨later, present, same⟩ := extension.element? found
  exact ⟨later, present, (Element.of_identity same).1.trans kind⟩

/-- The declaration in which the attribute of a slot is kept. -/
def AttributeSlot.owner? : AttributeSlot → Option NodeId
  | .global _ => none
  | .grouped owner _ => some owner
  | .owned owner _ => some owner

namespace Assembly

/-- The open nodes are those of the open tags that made nodes, in order. Below the last tag, nodes
may be left over from tags outside any schema. -/
inductive Stacked (context : Context) : List OpenTag → List NodeId → Prop where
  | outside {leftover : List NodeId}
      (inside : ∀ id ∈ leftover, (context.node? id).isSome = true) : Stacked context [] leftover
  | passing {tag : OpenTag} {tags : List OpenTag} {nodes : List NodeId}
      (passes : tag.opensNode = false) (inside : tag.construct ≠ .schema)
      (rest : Stacked context tags nodes) : Stacked context (tag :: tags) nodes
  | opening {tag : OpenTag} {tags : List OpenTag} {id : NodeId} {nodes : List NodeId}
      (opens : tag.opensNode = true) (makes : tag.construct.Makes context id)
      (rest : Stacked context tags nodes) : Stacked context (tag :: tags) (id :: nodes)

variable {assembly before after : Assembly} {construct : Construct} {attributes : Xml.Attributes}
  {tag : OpenTag} {outer : List OpenTag}

namespace Stacked

variable {context later : Context} {tags : List OpenTag} {nodes : List NodeId}

theorem mono (extension : Extends context later) (stacked : Stacked context tags nodes) :
    Stacked later tags nodes := by
  induction stacked with
  | outside inside =>
      refine .outside fun id member => ?_
      exact extension.isSome_node? (inside id member)
  | passing passes inside _ inductionHypothesis => exact .passing passes inside inductionHypothesis
  | opening opens makes _ inductionHypothesis =>
      exact .opening opens (makes.mono extension) inductionHypothesis

/-- Where no node is open, a node left over changes nothing. -/
theorem of_nil (stacked : Stacked context tags nodes) (none : nodes = []) {leftover : List NodeId}
    (inside : ∀ id ∈ leftover, (context.node? id).isSome = true) :
    Stacked context tags leftover := by
  induction stacked with
  | outside _ => exact .outside inside
  | passing passes notSchema _ inductionHypothesis =>
      exact .passing passes notSchema (inductionHypothesis none)
  | opening _ _ _ => cases none

/-- Every open node is a node of the context. -/
theorem isSome_node? (stacked : Stacked context tags nodes) :
    ∀ id ∈ nodes, (context.node? id).isSome = true := by
  induction stacked with
  | outside inside => exact inside
  | passing _ _ _ inductionHypothesis => exact inductionHypothesis
  | opening _ makes _ inductionHypothesis =>
      exact List.forall_mem_cons.2 ⟨makes.isSome_node?, inductionHypothesis⟩

/-- The innermost open node is that of the innermost tag, if that tag made one. -/
theorem exists_of_opensNode (stacked : Stacked context (tag :: tags) nodes)
    (opens : tag.opensNode = true) :
    ∃ id rest, nodes = id :: rest ∧ tag.construct.Makes context id ∧ Stacked context tags rest := by
  cases stacked with
  | passing passes _ _ =>
      rw [passes] at opens
      cases opens
  | opening _ makes rest => exact ⟨_, _, rfl, makes, rest⟩

/-- Only a tag that can make a node has made one. -/
theorem makesNode (stacked : Stacked context (tag :: tags) nodes) (opens : tag.opensNode = true) :
    tag.construct.MakesNode := by
  obtain ⟨_, _, _, makes, _⟩ := stacked.exists_of_opensNode opens
  exact makes.makesNode

/-- The tag of a schema has made a node. -/
theorem opensNode_of_schema (stacked : Stacked context (tag :: tags) nodes)
    (isSchema : tag.construct = .schema) : tag.opensNode = true := by
  cases stacked with
  | passing _ inside _ => exact absurd isSchema inside
  | opening opens _ _ => exact opens

end Stacked

/-- An opening puts the node that it makes on the stack. -/
theorem Effect.stacked {result : Assembly × Bool}
    (effect : Effect construct attributes before result)
    (extension : Extends before.context result.1.context)
    (stacked : Stacked before.context before.openTags before.openNodes) (name : String) :
    Stacked result.1.context (⟨construct, name, result.2⟩ :: result.1.openTags)
      result.1.openNodes := by
  have kept := stacked.mono extension
  cases effect with
  | passes inside quiet =>
      rw [quiet.openTags, quiet.openNodes]
      exact .passing rfl inside kept
  | @declares middle after element early declared late =>
      have new : (middle.openNode (.declaration element)).context.element?
          middle.context.arena.nextId = some element :=
        (Context.element?_addNode middle.context _ _).trans (if_pos rfl)
      obtain ⟨later, present, same⟩ := late.context.of_element? new
      have sameKind : later.kind = element.kind := congrArg (·.type.1) same
      have tags : after.openTags = before.openTags := late.openTags.trans early.openTags
      have nodes : after.openNodes = middle.context.arena.nextId :: before.openNodes :=
        late.openNodes.trans (congrArg (_ :: ·) early.openNodes)
      show Stacked after.context (_ :: after.openTags) after.openNodes
      rw [tags, nodes]
      exact .opening rfl (.declaration present (declared.kind.trans (congrArg some sameKind.symm)))
        kept
  | @types middle simpleType name? isType early =>
      have new : (middle.openSimpleNode simpleType name?).context.arena.simpleType?
          middle.context.arena.nextId = some simpleType := by
        have added : (middle.context.addNode (.simple simpleType)).arena.simpleType?
            middle.context.arena.nextId = some simpleType :=
          (Context.simpleType?_addNode middle.context _ _).trans (if_pos rfl)
        cases name? <;> exact added
      have tags : (middle.openSimpleNode simpleType name?).openTags = before.openTags :=
        early.openTags
      have nodes : (middle.openSimpleNode simpleType name?).openNodes =
          middle.context.arena.nextId :: before.openNodes :=
        congrArg (_ :: ·) early.openNodes
      show Stacked _ (_ :: (middle.openSimpleNode simpleType name?).openTags) _
      rw [tags, nodes]
      subst isType
      exact .opening rfl (.simpleType new) kept

/-- A closing takes the node of its tag from the stack, or leaves it there as the only one. -/
theorem ClosingEffect.stacked (effect : ClosingEffect tag before after)
    (extension : Extends before.context after.context)
    (stacked : Stacked before.context (tag :: outer) before.openNodes) :
    Stacked after.context outer after.openNodes := by
  have kept := stacked.mono extension
  cases effect with
  | passes stays quiet =>
      rw [quiet.openNodes]
      have present := kept.isSome_node?
      generalize before.openNodes = nodes at kept stays present
      cases kept with
      | passing _ _ rest => exact rest
      | opening opens _ rest => exact rest.of_nil (stays opens) present
  | drops opens _ quiet =>
      obtain ⟨id, rest, open_eq, -, below⟩ := kept.exists_of_opensNode opens
      have nodes : after.openNodes = rest :=
        quiet.openNodes.trans (congrArg List.tail open_eq)
      rw [nodes]
      exact below
  | links opens _ _ =>
      obtain ⟨id, rest, open_eq, -, below⟩ := kept.exists_of_opensNode opens
      rw [(stacks_linkChild before.dropNode _).1]
      show Stacked _ outer before.openNodes.tail
      rw [open_eq]
      exact below

/-! ## What closings write -/

theorem written_linkChild (assembly : Assembly) {child : NodeId}
    (linkable : assembly.context.Linkable child) :
    Written assembly.context (assembly.linkChild child).context := by
  unfold linkChild modifyTopElement modifyTop
  split
  · exact (Write.links _ linkable).written
  · exact .refl

theorem written_closeChild
    (linkable : ∀ id, assembly.top? = some id → assembly.context.Linkable id) :
    Written assembly.context assembly.closeChild.context := by
  unfold closeChild
  split
  · rename_i child parent rest open_eq
    refine written_linkChild assembly.dropNode (linkable child ?_)
    unfold top?
    rw [open_eq]
    rfl
  · exact .refl

theorem written_closeGroup
    (isGroup : ∀ id, assembly.top? = some id → assembly.context.IsGroup id) :
    Written assembly.context assembly.closeGroup.context := by
  unfold closeGroup
  split
  · exact .refl
  · rename_i id isTop
    dsimp only
    split
    · exact .refl
    · rename_i element found
      split
      · split
        · obtain ⟨same, present, kind⟩ := isGroup id isTop
          cases found.symm.trans present
          exact (Write.group found kind).written
        · exact .refl
      · rename_i refers
        split
        · refine written_linkChild assembly.dropNode ⟨element, found, fun _ => ?_⟩
          simpa [Option.isSome_iff_ne_none] using refers
        · exact .refl

theorem written_closeAttributeGroup :
    Written assembly.context assembly.closeAttributeGroup.context := by
  unfold closeAttributeGroup
  split
  · exact .refl
  · rename_i id _
    split
    · exact .refl
    · rename_i group opened
      obtain ⟨element, found, isOpen⟩ := Option.bind_eq_some_iff.1 opened
      -- The group enters its table first and then leaves its declaration.
      refine (Write.attributeGroup found isOpen).written.trans ?_
      exact written_modifyElement (fun _ => rfl)
        fun element _ keyed => ⟨keyed.attributes, fun contradiction => by cases contradiction⟩

/-- What a closing tag does to the context is a series of writes. -/
theorem written_closeTag (before : Assembly)
    (stacked : Stacked before.context (tag :: outer) before.openNodes) :
    Written before.context (before.closeTag tag).context := by
  have closesChild : ∀ kind, tag.construct.kind? = some kind → kind ≠ .group →
      Written before.context
        (if tag.opensNode = true then before.closeChild else before).context := by
    intro kind isKind notGroup
    split
    · rename_i opens
      obtain ⟨first, rest, open_eq, makes, -⟩ := stacked.exists_of_opensNode opens
      refine written_closeChild fun id isTop => ?_
      unfold top? at isTop
      rw [open_eq] at isTop
      cases isTop
      exact makes.linkable isKind notGroup
    · exact .refl
  obtain ⟨construct, name, opensNode⟩ := tag
  unfold closeTag
  cases construct
  case element => exact closesChild .element rfl (by decide)
  case complexType => exact closesChild .complexType rfl (by decide)
  case any => exact closesChild .any rfl (by decide)
  case group =>
    dsimp only
    split
    · rename_i opens
      obtain ⟨first, rest, open_eq, makes, -⟩ := stacked.exists_of_opensNode opens
      refine written_closeGroup fun id isTop => ?_
      unfold top? at isTop
      rw [open_eq] at isTop
      cases isTop
      cases makes with
      | declaration found kind => exact ⟨_, found, (Option.some.inj kind).symm⟩
    · exact .refl
  case attributeGroup =>
    dsimp only
    split
    · exact written_closeAttributeGroup
    · exact .refl
  case simpleType =>
    dsimp only
    split <;> exact .refl
  all_goals exact .refl

/-! ## The attribute declared last and the compositors -/

/-- What is noted beside the tree: the attribute declared last and the open compositors. -/
def marks (assembly : Assembly) : Option AttributeSlot × List Compositor :=
  (assembly.lastAttribute?, assembly.compositors)

@[simp] theorem marks_modifyTop (assembly : Assembly) (change : Node → Node) :
    (assembly.modifyTop change).marks = assembly.marks := by
  unfold modifyTop
  split <;> rfl

@[simp] theorem marks_modifyTopElement (assembly : Assembly)
    (change : Element → Element) :
    (assembly.modifyTopElement change).marks = assembly.marks :=
  marks_modifyTop assembly _

@[simp] theorem marks_modifyTopSimpleType (assembly : Assembly)
    (change : SimpleType → SimpleType) :
    (assembly.modifyTopSimpleType change).marks = assembly.marks :=
  marks_modifyTop assembly _

@[simp] theorem marks_openNode (assembly : Assembly) (node : Node) :
    (assembly.openNode node).marks = assembly.marks := rfl

@[simp] theorem marks_mapContext (assembly : Assembly) (change : Context → Context) :
    (assembly.mapContext change).marks = assembly.marks := rfl

@[simp] theorem marks_openFacet (construct : Construct) :
    (assembly.openFacet construct attributes).marks = assembly.marks := by
  unfold openFacet
  split
  · rfl
  · split
    · rfl
    · split <;> rfl

/-- Tags other than those of attributes and compositors note nothing. -/
theorem marks_openTag (assembly : Assembly) (attributes : Xml.Attributes)
    (notAttribute : construct ≠ .attribute) (notComposing : construct.composes = false) :
    (assembly.openTag construct attributes).1.marks = assembly.marks := by
  cases construct
  case «attribute» => exact absurd rfl notAttribute
  case sequence | choice | all => cases notComposing
  case element =>
    simp only [openTag, openElement]
    split <;> simp
  case complexType =>
    simp only [openTag, openElement, openInnerComplexType]
    split
    · dsimp only
      split <;> simp
    · dsimp only
      split <;> simp
  case anyAttribute => exact marks_modifyTopElement assembly _
  case simpleContent => exact marks_modifyTopElement assembly _
  case attributeGroup =>
    unfold openTag openAttributeGroup
    cases attributes.find? "name" with
    | none =>
        dsimp only
        split
        · exact marks_modifyTopElement assembly _
        · rfl
    | some name =>
        dsimp only
        split
        · exact marks_modifyTopElement (assembly.openNode _) _
        · rfl
  case complexContent =>
    simp only [openTag]
    split <;> simp
  case extension =>
    simp only [openTag, openExtension]
    split
    · rfl
    · split <;> simp
  case simpleType =>
    show (assembly.openSimpleType attributes).1.marks = _
    unfold openSimpleType
    split
    · rfl
    · extract_lets name marked id simpleType opened
      have marking : marked.marks = assembly.marks :=
        marks_modifyTopElement assembly _
      split
      · exact marking
      · exact marking
  case restriction =>
    unfold openTag openRestriction
    dsimp only
    split
    · split <;> rfl
    · exact marks_modifyTop assembly _
  case enumeration | minInclusive | maxInclusive =>
    simp only [openTag, marks_openFacet]
  case whiteSpace =>
    simp only [openTag, openWhiteSpace]
    split <;> simp
  case union =>
    simp only [openTag, openUnion]
    split <;> simp
  case list =>
    simp only [openTag, openList]
    split <;> simp
  all_goals rfl

/-- No other tag than that of an attribute declares one. -/
theorem lastAttribute?_openTag (assembly : Assembly) (attributes : Xml.Attributes)
    (notAttribute : construct ≠ .attribute) :
    (assembly.openTag construct attributes).1.lastAttribute? = assembly.lastAttribute? := by
  cases composes : construct.composes with
  | false => exact congrArg Prod.fst (marks_openTag assembly attributes notAttribute composes)
  | true =>
      cases construct
      case sequence | choice | all => rfl
      all_goals cases composes

/-- The declaration that has the attribute declared last. -/
def slotOwner? (assembly : Assembly) : Option NodeId :=
  assembly.lastAttribute?.bind AttributeSlot.owner?

/-- An attribute is declared in a node of the context. -/
theorem slotOwner?_openAttribute {owner : NodeId}
    (owned : (assembly.openAttribute attributes).slotOwner? = some owner) :
    assembly.slotOwner? = some owner ∨ (assembly.context.node? owner).isSome = true := by
  unfold openAttribute at owned
  dsimp only at owned
  split at owned
  · exact .inl owned
  · split at owned
    · exact .inl owned
    · rename_i top _ _ element found
      have present : (assembly.context.node? top).isSome = true := by
        rw [Context.node?_eq_declaration_iff.2 found]
        rfl
      split at owned
      · cases owned
      · split at owned
        · cases owned
          exact .inr present
        · cases owned
          exact .inr present

/-- Closings of tags other than those of attributes and compositors note nothing. -/
theorem marks_closeTag (assembly : Assembly) (tag : OpenTag)
    (notAttribute : tag.construct ≠ .attribute) (notComposing : tag.construct.composes = false) :
    (assembly.closeTag tag).marks = assembly.marks := by
  have closesChild : assembly.closeChild.marks = assembly.marks := by
    unfold closeChild
    split
    · exact marks_modifyTopElement assembly.dropNode _
    · rfl
  have closesGroup : assembly.closeGroup.marks = assembly.marks := by
    unfold closeGroup
    split
    · rfl
    · dsimp only
      split
      · rfl
      · split
        · split <;> rfl
        · split
          · exact marks_modifyTopElement assembly.dropNode _
          · rfl
  have closesAttributeGroup : assembly.closeAttributeGroup.marks = assembly.marks := by
    unfold closeAttributeGroup
    split
    · rfl
    · split <;> rfl
  obtain ⟨construct, name, opensNode⟩ := tag
  unfold closeTag
  cases construct
  case «attribute» => exact absurd rfl notAttribute
  case sequence | choice | all => cases notComposing
  all_goals cases opensNode
  all_goals first
    | rfl
    | exact closesChild
    | exact closesGroup
    | exact closesAttributeGroup

/-- The closing of an attribute forgets it. -/
theorem lastAttribute?_closeTag (assembly : Assembly) (tag : OpenTag) :
    (assembly.closeTag tag).lastAttribute? =
      if tag.construct = .attribute then none else assembly.lastAttribute? := by
  split
  · rename_i isAttribute
    unfold closeTag
    rw [isAttribute]
  · rename_i notAttribute
    cases composes : tag.construct.composes with
    | false => exact congrArg Prod.fst (marks_closeTag assembly tag notAttribute composes)
    | true =>
        obtain ⟨construct, name, opensNode⟩ := tag
        cases construct
        case sequence | choice | all => rfl
        all_goals cases composes

/-! ## Events -/

/-- An assembly in which the stacks are accounted for, the attribute declared last belongs to a node,
and the root is a schema. -/
structure Standing (assembly : Assembly) : Prop where
  stacked : Stacked assembly.context assembly.openTags assembly.openNodes
  slotOwner? : ∀ {owner}, assembly.slotOwner? = some owner →
    (assembly.context.node? owner).isSome = true
  root? : ∀ {root}, assembly.root? = some root → assembly.context.IsSchema root

theorem standing_start (context : Context) : (start context).Standing where
  stacked := .outside fun _ member => absurd member List.not_mem_nil
  slotOwner? owned := by cases owned
  root? found := by cases found

/-- The handles through which an event reaches nodes. -/
def handles (assembly : Assembly) : List NodeId :=
  assembly.openNodes ++ assembly.slotOwner?.toList

theorem Standing.isSome_node? (standing : assembly.Standing) :
    ∀ id ∈ assembly.handles, (assembly.context.node? id).isSome = true := by
  refine List.forall_mem_append.2 ⟨standing.stacked.isSome_node?, fun id member => ?_⟩
  exact standing.slotOwner? (Option.mem_toList.1 member)

/-- An outcome of reading: what is written up to its end, and how it stands if it did not halt. -/
structure Reads {ε : Type} (before : Assembly) (outcome : Except (Halt ε) Assembly) : Prop where
  written : Written before.context (endContext (outcome.map Assembly.context))
  standing : ∀ {after}, outcome = .ok after → after.Standing

variable {next : Assembly}

theorem Effect.root? {result : Assembly × Bool}
    (effect : Effect construct attributes before result) : result.1.root? = before.root? := by
  cases effect with
  | passes _ quiet => exact quiet.root?
  | declares early _ late => exact late.root?.trans early.root?
  | types _ _ early => exact early.root?

theorem ClosingEffect.root? (effect : ClosingEffect tag before after) :
    after.root? = before.root? := by
  cases effect with
  | passes _ quiet => exact quiet.root?
  | drops _ _ quiet => exact quiet.root?
  | links _ _ _ => exact (stacks_linkChild before.dropNode _).2.2

/-- What does not touch the attribute declared last leaves it in its node. -/
theorem Standing.slotOwner_after (standing : before.Standing)
    (extension : Extends before.context after.context)
    (same : after.lastAttribute? = before.lastAttribute? ∨ after.lastAttribute? = none)
    {owner : NodeId} (owned : after.slotOwner? = some owner) :
    (after.context.node? owner).isSome = true := by
  unfold Assembly.slotOwner? at owned
  rcases same with same | none
  · rw [same] at owned
    exact extension.isSome_node? (standing.slotOwner? owned)
  · rw [none] at owned
    cases owned

theorem standing_adoptQualifier (standing : assembly.Standing) (name : String)
    (attributes : Xml.Attributes) :
    (assembly.adoptQualifier name attributes).Standing := by
  have extension : Extends assembly.context (assembly.adoptQualifier name attributes).context :=
    (written_adoptQualifier name).extends
  obtain ⟨-, nodes, tags, -, slot, root⟩ := stacks_adoptQualifier assembly name attributes
  refine ⟨?_, standing.slotOwner_after extension (.inl slot), fun found => ?_⟩
  · rw [tags, nodes]
    exact standing.stacked.mono extension
  · rw [root] at found
    exact (standing.root? found).mono extension

theorem reads_stepOpening (standing : assembly.Standing) (name : String)
    (attributes : Xml.Attributes) : Reads assembly (assembly.stepOpening name attributes) := by
  have adopting := standing_adoptQualifier standing name attributes
  have adopted : Written assembly.context (assembly.adoptQualifier name attributes).context :=
    written_adoptQualifier name
  unfold stepOpening
  dsimp only
  split
  · exact ⟨adopted, fun taken => by cases taken⟩
  · generalize (assembly.adoptQualifier name attributes).context.vocabulary.classify name =
      construct
    have written := written_openTag (assembly.adoptQualifier name attributes) construct attributes
    refine ⟨adopted.trans written, fun taken => ?_⟩
    cases taken
    have effect := effect_openTag (assembly.adoptQualifier name attributes) construct attributes
    refine ⟨effect.stacked written.extends adopting.stacked name, fun {owner} owned => ?_,
      fun found => ?_⟩
    · by_cases isAttribute : construct = .attribute
      · subst isAttribute
        have present : (((assembly.adoptQualifier name attributes).context.node? owner).isSome =
            true) := (slotOwner?_openAttribute owned).elim adopting.slotOwner? id
        exact written.extends.isSome_node? present
      · exact adopting.slotOwner_after written.extends
          (.inl (lastAttribute?_openTag _ attributes isAttribute)) owned
    have earlier := effect.root?.symm.trans found
    exact (adopting.root? earlier).mono written.extends

/-- A closing that is taken closes the schema as the only open node, or has the effect of its tag. -/
theorem Standing.cases_of_stepClosing (standing : assembly.Standing)
    (taken : assembly.stepClosing = .ok next) :
    ∃ tag outer, assembly.openTags = tag :: outer ∧
      ((tag.construct = .schema ∧ ∃ root, assembly.openNodes = [root] ∧
          next = { assembly with openTags := outer, openNodes := [], root? := some root }) ∨
        ClosingEffect tag { assembly with openTags := outer } next) := by
  obtain ⟨tag, outer, opened, closesSchema | ⟨inside, rfl⟩⟩ := Assembly.cases_of_stepClosing taken
  · exact ⟨tag, outer, opened, .inl closesSchema⟩
  · have stacked := standing.stacked
    rw [opened] at stacked
    exact ⟨tag, outer, opened, .inr (effect_closeTag inside stacked.makesNode)⟩

theorem reads_stepClosing (standing : assembly.Standing) : Reads assembly assembly.stepClosing := by
  refine ⟨?_, fun taken => ?_⟩
  · have stacked := standing.stacked
    unfold stepClosing
    split
    · exact .refl
    · rename_i tag outer opened
      rw [opened] at stacked
      dsimp only
      split
      · split <;> exact .refl
      · exact written_closeTag { assembly with openTags := outer } stacked
  · obtain ⟨tag, outer, opened, closed⟩ := cases_of_stepClosing taken
    have stacked := standing.stacked
    rw [opened] at stacked
    rcases closed with ⟨closesSchema, root, single, rfl⟩ | ⟨inside, rfl⟩
    · rw [single] at stacked
      cases stacked with
      | passing _ inside _ => exact absurd closesSchema inside
      | opening _ makes rest =>
          refine ⟨rest, standing.slotOwner?, fun found => ?_⟩
          cases found
          rw [closesSchema] at makes
          cases makes with
          | declaration found kind => exact ⟨_, found, (Option.some.inj kind).symm⟩
    · have written := written_closeTag { assembly with openTags := outer } stacked
      have effect : ClosingEffect tag { assembly with openTags := outer }
          (closeTag { assembly with openTags := outer } tag) :=
        effect_closeTag inside stacked.makesNode
      refine ⟨?_, fun owned => ?_, fun found => ?_⟩
      · rw [effect.openTags]
        exact effect.stacked written.extends stacked
      · refine standing.slotOwner_after written.extends ?_ owned
        rw [lastAttribute?_closeTag]
        split
        · exact .inr rfl
        · exact .inl rfl
      · have earlier : assembly.root? = some _ := effect.root?.symm.trans found
        exact (standing.root? earlier).mono written.extends

theorem marks_stepText (assembly : Assembly) (text : String) :
    (assembly.stepText text).marks = assembly.marks := by
  unfold stepText
  dsimp only
  split
  · split
    · rfl
    · exact marks_modifyTop assembly _
  · rfl

theorem reads_stepText (standing : assembly.Standing) (text : String) :
    Reads assembly (.ok (assembly.stepText text) : Except (Halt Refusal) Assembly) := by
  have written : Written assembly.context (assembly.stepText text).context := written_stepText text
  have quiet := quiet_stepText assembly text
  refine ⟨written, fun same => ?_⟩
  cases same
  have slot : (assembly.stepText text).lastAttribute? = assembly.lastAttribute? :=
    congrArg Prod.fst (marks_stepText assembly text)
  refine ⟨?_, standing.slotOwner_after written.extends (.inl slot), fun found => ?_⟩
  · rw [quiet.openTags, quiet.openNodes]
    exact standing.stacked.mono written.extends
  · rw [quiet.root?] at found
    exact (standing.root? found).mono written.extends

theorem Standing.stepOpening (standing : assembly.Standing) {name : String}
    {attributes : Xml.Attributes} (taken : assembly.stepOpening name attributes = .ok next) :
    next.Standing :=
  (reads_stepOpening standing name attributes).standing taken

theorem Standing.stepClosing (standing : assembly.Standing)
    (taken : assembly.stepClosing = .ok next) : next.Standing :=
  (reads_stepClosing standing).standing taken

theorem Standing.stepText (standing : assembly.Standing) (text : String) :
    (assembly.stepText text).Standing :=
  (reads_stepText standing text).standing rfl

/-- One event. -/
theorem reads_step (standing : assembly.Standing) (event : Xml.Event) :
    Reads assembly (assembly.step event) := by
  cases event with
  | opening name attributes => exact reads_stepOpening standing name attributes
  | closing => exact reads_stepClosing standing
  | text content => exact reads_stepText standing content
  | empty name attributes =>
      have opening := reads_stepOpening standing name attributes
      unfold step
      dsimp only
      split
      · rename_i halted
        rw [halted] at opening
        exact ⟨opening.written, fun taken => by cases taken⟩
      · rename_i opened taken
        rw [taken] at opening
        have closing := reads_stepClosing (opening.standing rfl)
        exact ⟨opening.written.trans closing.written, closing.standing⟩

/-- Events in a row that are all taken write what each of them writes. -/
theorem written_foldlM {events : List Xml.Event} (standing : assembly.Standing)
    (completed : events.foldlM step assembly = .ok after) :
    Written assembly.context after.context ∧ after.Standing := by
  induction events generalizing assembly with
  | nil =>
      cases foldlM_nil_eq_ok_iff.1 completed
      exact ⟨.refl, standing⟩
  | cons event rest inductionHypothesis =>
      obtain ⟨next, taken, later⟩ := foldlM_cons_eq_ok_iff.1 completed
      have first := reads_step standing event
      rw [taken] at first
      obtain ⟨written, standingAfter⟩ := inductionHypothesis (first.standing rfl) later
      exact ⟨first.written.trans written, standingAfter⟩

/-- A run of events writes what its events write, up to the one at which it halts. -/
theorem reads_run (document : Bytes) (events : List (Xml.Located Xml.Event))
    (standing : assembly.Standing) : Reads assembly (assembly.run document events) := by
  induction events generalizing assembly with
  | nil => exact ⟨.refl, fun same => by cases same; exact standing⟩
  | cons event rest inductionHypothesis =>
      have first := reads_step standing event.value
      rw [run]
      split
      · rename_i halted
        rw [halted] at first
        exact ⟨first.written, fun taken => by cases taken⟩
      · rename_i next taken
        rw [taken] at first
        have later := inductionHypothesis (first.standing rfl)
        exact ⟨first.written.trans later.written, later.standing⟩

end Assembly

/-! ## What only annotation writes -/

/-- A context in which no declaration is marked or flagged by annotation yet. -/
structure Context.Unannotated (context : Context) : Prop where
  unmarked : ∀ {id element}, context.element? id = some element → element.isExtended = false
  unflagged : ∀ {id element}, context.element? id = some element → element.mixedMismatch = false
  unwarned : ∀ warning ∈ context.warnings, warning.kind ≠ .mixedContentMismatch

namespace Context.Unannotated

variable {before after : Context} (unannotated : before.Unannotated)

theorem initial (options : Options) : (Context.initial options).Unannotated where
  unmarked found := by cases found
  unflagged found := by cases found
  unwarned _ member := absurd member List.not_mem_nil

include unannotated in
/-- New declarations are unmarked and old ones stay so. -/
theorem withArena {arena : Arena}
    (nodes : ∀ {id element}, arena.element? id = some element →
      (element.isExtended = false ∧ element.mixedMismatch = false) ∨
        ∃ original, before.element? id = some original ∧
          element.isExtended = original.isExtended ∧
          element.mixedMismatch = original.mixedMismatch) :
    Unannotated { before with arena } where
  unmarked found := by
    rcases nodes found with ⟨unmarked, -⟩ | ⟨original, present, same, -⟩
    · exact unmarked
    · exact same.trans (unannotated.unmarked present)
  unflagged found := by
    rcases nodes found with ⟨-, unflagged⟩ | ⟨original, present, -, same⟩
    · exact unflagged
    · exact same.trans (unannotated.unflagged present)
  unwarned := unannotated.unwarned

include unannotated in
/-- A declaration changed otherwise than by annotation. -/
theorem modifyElement (id : NodeId) {change : Element → Element}
    (same : ∀ element, (change element).isExtended = element.isExtended ∧
      (change element).mixedMismatch = element.mixedMismatch) :
    (before.modifyElement id change).Unannotated := by
  refine unannotated.withArena fun {other element} found => ?_
  rw [Arena.element?_modifyElement] at found
  split at found
  · rename_i isChanged
    obtain ⟨original, present, rfl⟩ := Option.map_eq_some_iff.1 found
    exact .inr ⟨original, isChanged ▸ present, same original⟩
  · exact .inr ⟨element, found, rfl, rfl⟩

include unannotated in
theorem warn {warning : Warning} (other : warning.kind ≠ .mixedContentMismatch) :
    (before.warn warning).Unannotated :=
  { unannotated with
    unwarned := List.forall_mem_append.2
      ⟨unannotated.unwarned, List.forall_mem_singleton.2 other⟩ }

include unannotated in
theorem write (write : Write before after) : after.Unannotated := by
  cases write with
  | header _ _ _ _ => exact { unannotated with }
  | warning other => exact unannotated.warn other
  | declares _ unmarked unflagged _ =>
      refine unannotated.withArena fun {id element} found => ?_
      have read := (element?_addNode before _ id).symm.trans found
      split at read
      · cases read
        exact .inl ⟨unmarked, unflagged⟩
      · exact .inr ⟨element, read, rfl, rfl⟩
  | types simpleType =>
      refine unannotated.withArena fun {id element} found => ?_
      have read := (element?_addNode before _ id).symm.trans found
      split at read
      · cases read
      · exact .inr ⟨element, read, rfl, rfl⟩
  | namesType _ => exact { unannotated with }
  | edits edited =>
      refine unannotated.withArena fun {id element} found => ?_
      obtain ⟨original, present, fixed, -⟩ := exists_of_edited edited found
      exact .inr ⟨original, present, congrArg Element.Fixed.isExtended fixed,
        congrArg Element.Fixed.mixedMismatch fixed⟩
  | links parent _ => exact unannotated.modifyElement parent fun _ => ⟨rfl, rfl⟩
  | globals _ => exact { unannotated with }
  | group _ _ => exact { unannotated with }
  | attributeGroup _ _ => exact { unannotated with }

include unannotated in
theorem written (written : Written before after) : after.Unannotated := by
  induction written with
  | refl => exact unannotated
  | tail _ write inductionHypothesis => exact inductionHypothesis.write write

end Context.Unannotated

/-! ## Documents -/

section Documents

variable {context : Context} {document : Bytes}

/-- A reading writes to the context from which it starts, whether or not it halts. -/
theorem written_readTree (context : Context) (document : Bytes) :
    Written context (endContext ((readTree context document).map Prod.fst)) := by
  have reading := Assembly.reads_run document (Xml.read document).events
    (Assembly.standing_start context)
  unfold readTree
  dsimp only
  split
  · rename_i halted
    rw [halted] at reading
    exact reading.written
  · rename_i assembly completed
    rw [completed] at reading
    split
    · exact reading.written
    · split <;> exact reading.written

/-- All handles in use between two events of a reading are those of nodes. -/
theorem isSome_node?_of_run {events : List (Xml.Located Xml.Event)} {assembly : Assembly}
    (taken : (Assembly.start context).run document events = .ok assembly) :
    ∀ id ∈ assembly.handles, (assembly.context.node? id).isSome = true := by
  have reading := Assembly.reads_run document events (Assembly.standing_start context)
  exact (reading.standing taken).isSome_node?

/-- The root of a reading that goes through is a schema. -/
theorem isSchema_readTree {after : Context} {root : NodeId}
    (read : readTree context document = .ok (after, root)) : after.IsSchema root := by
  obtain ⟨assembly, completed, finished, rfl⟩ := exists_run_of_readTree read
  have reading := Assembly.reads_run document (Xml.read document).events
    (Assembly.standing_start context)
  refine (reading.standing completed).root? ?_
  unfold Assembly.finish at finished
  split at finished
  · split at finished
    · rename_i isRoot
      cases finished
      exact isRoot
    · cases finished
  · cases finished

/-- What is read into a new context is not annotated. -/
theorem unannotated_readTree {options : Options} {after : Context} {root : NodeId}
    (read : readTree (.initial options) document = .ok (after, root)) : after.Unannotated := by
  have written := written_readTree (.initial options) document
  rw [read] at written
  exact (Context.Unannotated.initial options).written written

end Documents

end XmlSchema
