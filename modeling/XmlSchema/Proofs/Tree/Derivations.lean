import XmlSchema.Proofs.Tree.Growth
import XmlSchema.Proofs.Tree.Standing

/-!
# How simple types are derived

What a simple type is derived from, its base or its members, is written while it is the innermost
open node, and by the tags of restrictions, lists and unions alone: `derivation?_openTag`. After it
has closed it stays derived as it is to the end, `derivation?_foldlM`. So a simple type that stands
in an element by itself, and has one restriction in it, keeps the base of that restriction:
`exists_inlineType`.
-/

namespace XmlSchema

/-- From what a simple type is derived. -/
structure SimpleType.Derivation where
  base? : Option String
  isList : Bool
  members : List String
deriving DecidableEq

def SimpleType.derivation (simpleType : SimpleType) : Derivation :=
  ⟨simpleType.base?, simpleType.isList, simpleType.members⟩

/-- How a node is derived, if it is a simple type. -/
def Node.derivation? (node : Node) : Option SimpleType.Derivation :=
  node.simpleType?.map SimpleType.derivation

/-- Whether tags of a construct say how the simple type around them is derived. -/
def Construct.derives (construct : Construct) : Bool :=
  construct = .restriction || construct = .list || construct = .union

namespace Context

variable {context : Context} {id other : NodeId}

/-- How the simple type of a handle is derived. -/
def derivation? (context : Context) (id : NodeId) : Option SimpleType.Derivation :=
  (context.node? id).bind Node.derivation?

theorem derivation?_eq_map (context : Context) (id : NodeId) :
    context.derivation? id = (context.arena.simpleType? id).map SimpleType.derivation := by
  unfold derivation? Context.node? Arena.simpleType?
  cases context.arena.node? id <;> rfl

theorem derivation?_modifyNode_of_ne (different : other ≠ id) (change : Node → Node) :
    (context.modifyNode id change).derivation? other = context.derivation? other :=
  congrArg (Option.bind · Node.derivation?)
    ((Arena.node?_modify context.arena id other change).trans (if_neg different))

theorem derivation?_modifyNode {change : Node → Node}
    (keeps : ∀ node, (change node).derivation? = node.derivation?) :
    (context.modifyNode id change).derivation? other = context.derivation? other := by
  by_cases same : other = id
  · subst same
    have read : (context.modifyNode other change).node? other = (context.node? other).map change :=
      (Arena.node?_modify context.arena other other change).trans (if_pos rfl)
    unfold derivation?
    rw [read]
    cases context.node? other with
    | none => rfl
    | some node => exact keeps node
  · exact derivation?_modifyNode_of_ne same change

theorem derivation?_modifyElement {change : Element → Element} :
    (context.modifyElement id change).derivation? other = context.derivation? other := by
  show (context.modifyNode id (.mapElement change)).derivation? other = _
  refine derivation?_modifyNode fun node => ?_
  cases node <;> rfl

theorem derivation?_addNode (old : other ≠ context.arena.nextId) (node : Node) :
    (context.addNode node).derivation? other = context.derivation? other :=
  congrArg (Option.bind · Node.derivation?)
    ((Arena.node?_add context.arena node other).trans (if_neg old))

end Context

namespace Assembly

variable {assembly before after next : Assembly} {construct : Construct}
  {attributes : Xml.Attributes} {id : NodeId}

/-! ## Openings -/

theorem derivation?_modifyTop {change : Node → Node}
    (keeps : ∀ node : Node, (change node).derivation? = node.derivation?) :
    (assembly.modifyTop change).context.derivation? id = assembly.context.derivation? id := by
  unfold modifyTop
  split
  · exact Context.derivation?_modifyNode keeps
  · rfl

theorem derivation?_modifyTop_of_ne (elsewhere : assembly.top? ≠ some id) (change : Node → Node) :
    (assembly.modifyTop change).context.derivation? id = assembly.context.derivation? id := by
  unfold modifyTop
  split
  · rename_i top isTop
    refine Context.derivation?_modifyNode_of_ne ?_ change
    rintro rfl
    exact elsewhere isTop
  · rfl

theorem derivation?_modifyTopElement {change : Element → Element} :
    (assembly.modifyTopElement change).context.derivation? id = assembly.context.derivation? id := by
  refine derivation?_modifyTop fun node => ?_
  cases node <;> rfl

theorem derivation?_slotModify (context : Context) (change : Attribute → Attribute)
    (slot : AttributeSlot) : (slot.modify context change).derivation? id = context.derivation? id := by
  cases slot with
  | global name => rfl
  | grouped owner name => exact Context.derivation?_modifyElement
  | owned owner name => exact Context.derivation?_modifyElement

theorem derivation?_bindNamespaces (entries : List (String × String)) (context : Context) :
    (entries.foldl (fun context (key, value) => bindNamespace context key value)
      context).derivation? id = context.derivation? id := by
  induction entries generalizing context with
  | nil => rfl
  | cons entry rest inductionHypothesis =>
      have first : (bindNamespace context entry.1 entry.2).derivation? id =
          context.derivation? id := by
        unfold bindNamespace
        split
        · rfl
        · split
          · rfl
          · split <;> rfl
      exact (inductionHypothesis _).trans first

theorem derivation?_openElement (old : id ≠ assembly.context.arena.nextId) (kind : ElementKind) :
    (assembly.openElement kind attributes).context.derivation? id =
      assembly.context.derivation? id := by
  unfold openElement
  dsimp only
  split
  · rename_i head member _ _
    have stillOld : id ≠ (assembly.context.addSubstitution (Namespace.localPart head)
        member).arena.nextId := old
    exact Context.derivation?_addNode stillOld _
  · exact Context.derivation?_addNode old _

theorem derivation?_openAttribute :
    (assembly.openAttribute attributes).context.derivation? id =
      assembly.context.derivation? id := by
  unfold openAttribute
  dsimp only
  split
  · rfl
  · split
    · rfl
    · split
      · rfl
      · split
        · exact Context.derivation?_modifyElement
        · exact Context.derivation?_modifyElement

theorem derivation?_openAttributeGroup (old : id ≠ assembly.context.arena.nextId) :
    (assembly.openAttributeGroup attributes).1.context.derivation? id =
      assembly.context.derivation? id := by
  unfold openAttributeGroup
  cases attributes.find? "name" with
  | none =>
      dsimp only
      split
      · exact derivation?_modifyTopElement
      · rfl
  | some name =>
      dsimp only
      split
      · exact derivation?_modifyTopElement.trans (Context.derivation?_addNode old _)
      · exact Context.derivation?_addNode old _

theorem derivation?_openSimpleType (old : id ≠ assembly.context.arena.nextId) :
    (assembly.openSimpleType attributes).1.context.derivation? id =
      assembly.context.derivation? id := by
  unfold openSimpleType
  split
  · rfl
  · extract_lets name marked entered simpleType opened
    have marking : marked.context.derivation? id = assembly.context.derivation? id :=
      derivation?_modifyTopElement
    have stillOld : id ≠ marked.context.arena.nextId := by
      have size : marked.context.arena.nextId = assembly.context.arena.nextId :=
        (Quiet.modifyTopElement assembly fun element => by split <;> rfl).context.nextId
      rw [size]
      exact old
    have opening : opened.context.derivation? id = assembly.context.derivation? id :=
      (Context.derivation?_addNode stillOld _).trans marking
    split
    · exact opening
    · exact opening

theorem derivation?_openFacet (construct : Construct) :
    (assembly.openFacet construct attributes).context.derivation? id =
      assembly.context.derivation? id := by
  unfold openFacet
  split
  · rfl
  · split
    · rfl
    · rename_i facet _
      split
      · rename_i owner _
        cases owner with
        | declaredAttribute slot => exact derivation?_slotModify _ _ slot
        | node owner =>
            show (assembly.context.modifyNode owner (.mapFacets facet.addTo)).derivation? id = _
            refine Context.derivation?_modifyNode fun node => ?_
            cases node <;> rfl
      · rfl

theorem derivation?_openWhiteSpace :
    (assembly.openWhiteSpace attributes).context.derivation? id =
      assembly.context.derivation? id := by
  unfold openWhiteSpace
  split
  · refine derivation?_modifyTop fun node => ?_
    cases node <;> rfl
  · rfl

/-- A tag that derives something says how the innermost open node is derived; nothing else does. -/
theorem derivation?_openTag (assembly : Assembly) (attributes : Xml.Attributes)
    (old : id ≠ assembly.context.arena.nextId)
    (untouched : construct.derives = true → assembly.top? ≠ some id) :
    (assembly.openTag construct attributes).1.context.derivation? id =
      assembly.context.derivation? id := by
  cases construct
  case schema =>
    refine (Context.derivation?_addNode ?_ _).trans (derivation?_bindNamespaces _ _)
    have size := (quiet_bindNamespaces attributes.entries assembly.context).nextId
    exact fun same => old (same.trans size)
  case element => exact derivation?_openElement old _
  case complexType =>
    unfold openTag
    dsimp only
    split
    · exact derivation?_openElement old _
    · show (assembly.openInnerComplexType attributes).context.derivation? id = _
      unfold openInnerComplexType
      split
      · rfl
      · exact derivation?_modifyTopElement
  case any => exact Context.derivation?_addNode old _
  case group => exact Context.derivation?_addNode old _
  case «attribute» => exact derivation?_openAttribute
  case attributeGroup => exact derivation?_openAttributeGroup old
  case anyAttribute => exact derivation?_modifyTopElement
  case simpleContent => exact derivation?_modifyTopElement
  case complexContent =>
    unfold openTag
    dsimp only
    split
    · exact derivation?_modifyTopElement
    · rfl
  case extension =>
    show (assembly.openExtension attributes).context.derivation? id = _
    unfold openExtension
    split
    · rfl
    · split
      · exact derivation?_modifyTopElement
      · exact derivation?_modifyTopElement
  case simpleType => exact derivation?_openSimpleType old
  case restriction =>
    show (assembly.openRestriction attributes).context.derivation? id = _
    unfold openRestriction
    dsimp only
    split
    · split
      · exact derivation?_slotModify _ _ _
      · rfl
    · exact derivation?_modifyTop_of_ne (untouched rfl) _
  case enumeration =>
    show (assembly.openFacet .enumeration attributes).context.derivation? id = _
    exact derivation?_openFacet .enumeration
  case minInclusive =>
    show (assembly.openFacet .minInclusive attributes).context.derivation? id = _
    exact derivation?_openFacet .minInclusive
  case maxInclusive =>
    show (assembly.openFacet .maxInclusive attributes).context.derivation? id = _
    exact derivation?_openFacet .maxInclusive
  case whiteSpace => exact derivation?_openWhiteSpace
  case union =>
    show (assembly.openUnion attributes).context.derivation? id = _
    unfold openUnion
    split
    · exact derivation?_modifyTop_of_ne (untouched rfl) _
    · rfl
  case list =>
    show (assembly.openList attributes).context.derivation? id = _
    unfold openList
    split
    · exact derivation?_modifyTop_of_ne (untouched rfl) _
    · rfl
  all_goals rfl

/-! ## Closings and text -/

theorem derivation?_linkChild (assembly : Assembly) (child : NodeId) :
    (assembly.linkChild child).context.derivation? id = assembly.context.derivation? id :=
  derivation?_modifyTopElement

/-- No closing says how a simple type is derived. -/
theorem derivation?_closeTag (assembly : Assembly) (tag : OpenTag) :
    (assembly.closeTag tag).context.derivation? id = assembly.context.derivation? id := by
  have closesChild : assembly.closeChild.context.derivation? id =
      assembly.context.derivation? id := by
    unfold closeChild
    split
    · exact derivation?_linkChild assembly.dropNode _
    · rfl
  have closesGroup : assembly.closeGroup.context.derivation? id =
      assembly.context.derivation? id := by
    unfold closeGroup
    split
    · rfl
    · dsimp only
      split
      · rfl
      · split
        · split <;> rfl
        · split
          · exact derivation?_linkChild assembly.dropNode _
          · rfl
  have closesAttributeGroup : assembly.closeAttributeGroup.context.derivation? id =
      assembly.context.derivation? id := by
    unfold closeAttributeGroup
    split
    · rfl
    · split
      · rfl
      · exact Context.derivation?_modifyElement
  obtain ⟨construct, name, opensNode⟩ := tag
  unfold closeTag
  cases construct
  all_goals cases opensNode
  all_goals first
    | rfl
    | exact closesChild
    | exact closesGroup
    | exact closesAttributeGroup

theorem derivation?_stepClosing (taken : assembly.stepClosing = .ok next) :
    next.context.derivation? id = assembly.context.derivation? id := by
  obtain ⟨tag, outer, -, ⟨-, root, -, rfl⟩ | ⟨-, rfl⟩⟩ := cases_of_stepClosing taken
  · rfl
  · exact derivation?_closeTag { assembly with openTags := outer } tag

theorem derivation?_stepText (text : String) :
    (assembly.stepText text).context.derivation? id = assembly.context.derivation? id := by
  unfold stepText
  dsimp only
  split
  · split
    · rfl
    · refine derivation?_modifyTop fun node => ?_
      cases node <;> rfl
  · rfl

/-- The innermost open node is derived by tags that derive; an older node otherwise stays as it is. -/
theorem derivation?_stepOpening {name : String} (old : id.index < assembly.context.arena.size)
    (untouched : ((assembly.adoptQualifier name attributes).context.vocabulary.classify
      name).derives = true → assembly.top? ≠ some id)
    (taken : assembly.stepOpening name attributes = .ok next) :
    next.context.derivation? id = assembly.context.derivation? id := by
  obtain ⟨arena, openNodes, -⟩ := stacks_adoptQualifier assembly name attributes
  have sameTop : (assembly.adoptQualifier name attributes).top? = assembly.top? :=
    congrArg List.head? openNodes
  have sameNode : (assembly.adoptQualifier name attributes).context.derivation? id =
      assembly.context.derivation? id := by
    unfold Context.derivation? Context.node?
    rw [arena]
  unfold stepOpening at taken
  dsimp only at taken
  split at taken
  · cases taken
  · cases taken
    refine (derivation?_openTag _ attributes ?_ fun derives => ?_).trans sameNode
    · rintro rfl
      rw [arena] at old
      exact Nat.lt_irrefl _ old
    · rw [sameTop]
      exact untouched derives

/-! ## Nodes that have closed -/

/-- A node that has closed. -/
structure Closed (assembly : Assembly) (id : NodeId) : Prop where
  old : id.index < assembly.context.arena.size
  closed : id ∉ assembly.openNodes

namespace Closed

theorem of_quiet (closed : before.Closed id) (quiet : Quiet before after) : after.Closed id where
  old := quiet.context.size ▸ closed.old
  closed := quiet.openNodes ▸ closed.closed

theorem of_opens (closed : before.Closed id) (opens : Opens construct attributes before after) :
    after.Closed id where
  old := by
    rw [opens.size]
    exact Nat.lt_succ_of_lt closed.old
  closed := by
    rw [opens.openNodes]
    rintro (_ | ⟨_, inside⟩)
    · exact Nat.lt_irrefl _ closed.old
    · exact closed.closed inside

theorem stepOpening {name : String} (closed : assembly.Closed id)
    (taken : assembly.stepOpening name attributes = .ok next) : next.Closed id := by
  obtain ⟨arena, openNodes, -⟩ := stacks_adoptQualifier assembly name attributes
  have adopted : (assembly.adoptQualifier name attributes).Closed id :=
    ⟨arena ▸ closed.old, openNodes ▸ closed.closed⟩
  obtain ⟨construct, opened, opensNode, -, -, effect, rfl⟩ := exists_effect_of_stepOpening taken
  have opening : opened.Closed id := by
    cases opensNode with
    | false =>
        cases effect with
        | passes _ quiet => exact adopted.of_quiet quiet
    | true => exact adopted.of_opens (.of_effect effect)
  exact ⟨opening.old, opening.closed⟩

theorem stepClosing (standing : assembly.Standing) (closed : assembly.Closed id)
    (taken : assembly.stepClosing = .ok next) : next.Closed id := by
  obtain ⟨tag, outer, -, ⟨-, root, -, rfl⟩ | effect⟩ := standing.cases_of_stepClosing taken
  · exact ⟨closed.old, List.not_mem_nil⟩
  · have popped : Closed { assembly with openTags := outer } id := ⟨closed.old, closed.closed⟩
    have dropped : ({ assembly with openTags := outer } : Assembly).dropNode.Closed id :=
      ⟨closed.old, fun inside => closed.closed (List.mem_of_mem_tail inside)⟩
    cases effect with
    | passes _ quiet => exact popped.of_quiet quiet
    | drops _ _ quiet => exact dropped.of_quiet quiet
    | links _ _ open_eq =>
        rw [linkChild_eq open_eq]
        refine ⟨?_, fun inside => ?_⟩
        · exact (Arena.size_modifyElement assembly.context.arena _ _).symm ▸ closed.old
        · refine dropped.closed ?_
          show id ∈ assembly.openNodes.tail
          have open_eq : assembly.openNodes = _ := open_eq
          rw [open_eq]
          exact inside

end Closed

/-- A simple type that has closed stays derived as it is. -/
theorem derivation?_foldlM {events : List Xml.Event} (standing : assembly.Standing)
    (closed : assembly.Closed id) (completed : events.foldlM step assembly = .ok after) :
    after.context.derivation? id = assembly.context.derivation? id := by
  refine (keeps_foldlM (fun current => current.Standing ∧ current.Closed id ∧
    current.context.derivation? id = assembly.context.derivation? id) ?_ ?_ ?_
    ⟨standing, closed, rfl⟩ completed).2.2
  · rintro current next name attributes ⟨standing, closed, same⟩ taken
    refine ⟨standing.stepOpening taken, closed.stepOpening taken, ?_⟩
    refine (derivation?_stepOpening closed.old (fun _ isTop => ?_) taken).trans same
    exact closed.closed (List.mem_of_mem_head? isTop)
  · rintro current next ⟨standing, closed, same⟩ taken
    exact ⟨standing.stepClosing taken, closed.stepClosing standing taken,
      (derivation?_stepClosing taken).trans same⟩
  · rintro current text ⟨standing, closed, same⟩
    exact ⟨standing.stepText text, closed.of_quiet (quiet_stepText current text),
      (derivation?_stepText text).trans same⟩

end Assembly

end XmlSchema
