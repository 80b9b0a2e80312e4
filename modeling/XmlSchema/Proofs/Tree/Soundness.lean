import XmlSchema.Proofs.Frame
import XmlSchema.Proofs.Vocabulary
import XmlSchema.Tree.Assembly

/-!
# Sound trees

In a sound context each declaration has the type to which its tag refers, only declarations other
than a schema stand inside others, and the table of simple types holds simple types. What reading
does to nodes is of three kinds: changes that leave the tree as it is, `Quiet`; new nodes,
`Context.Sound.addNode`; and links from a node to its parent, `Context.Sound.link`.
-/

namespace XmlSchema

/-- The type of a declaration is that to which its tag refers, and nothing is resolved yet. -/
structure Element.FollowsTag (vocabulary : Vocabulary) (element : Element) : Prop where
  type : element.kind ≠ .any → ∀ written, element.writtenType? = some written →
    element.type? = some (vocabulary.normalize written)
  reference : element.kind ≠ .any → element.writtenType? = none → element.type? = element.reference?
  unresolved : element.isComplex = false
  single : element.isList = false

/-- What decides whether a declaration follows its tag. -/
def Element.typePart (element : Element) :
    ElementKind × Option String × Option String × Bool × Bool × Option String :=
  (element.kind, element.writtenType?, element.type?, element.isComplex, element.isList,
    element.reference?)

theorem Element.FollowsTag.of_typePart {vocabulary : Vocabulary} {before after : Element}
    (follows : before.FollowsTag vocabulary) (same : after.typePart = before.typePart) :
    after.FollowsTag vocabulary := by
  unfold Element.typePart at same
  simp only [Prod.mk.injEq] at same
  obtain ⟨kind, written, type, isComplex, isList, reference⟩ := same
  refine ⟨?_, ?_, isComplex.trans follows.unresolved, isList.trans follows.single⟩
  · rw [kind, written, type]
    exact follows.type
  · rw [kind, written, type, reference]
    exact follows.reference

/-- What a declaration is in the tree: what follows from its tag, the declarations inside it and the
group to which it refers. -/
structure Element.TreePart where
  type : ElementKind × Option String × Option String × Bool × Bool × Option String
  children : List NodeId
  groupRef? : Option String

def Element.treePart (element : Element) : TreePart :=
  ⟨element.typePart, element.children, element.groupRef?⟩

/-- What a node is in the tree. A simple type is no part of it. -/
def Node.treePart? (node : Node) : Option Element.TreePart := node.element?.map Element.treePart

namespace Context

/-- Whether a handle is that of a declaration that can stand inside another one. -/
def IsInner (context : Context) (id : NodeId) : Prop :=
  ∃ element, context.element? id = some element ∧ element.kind ≠ .schema

structure Sound (context : Context) : Prop where
  followsTag : ∀ {id element}, context.element? id = some element →
    element.FollowsTag context.vocabulary
  children : ∀ {id element}, context.element? id = some element →
    ∀ child ∈ element.children, context.IsInner child
  simpleTypes : ∀ {name id}, context.simpleTypes.find? name = some id →
    (context.arena.simpleType? id).isSome

theorem sound_initial (options : Options) : (initial options).Sound where
  followsTag found := by cases found
  children found := by cases found
  simpleTypes found := by cases found

/-- The parts of a context that reading never writes. -/
def unread (context : Context) : Options × Table NodeId × Table NodeId :=
  (context.options, context.elementIndex, context.simpleElements)

/-- Two contexts with the same tree and the same names of simple types. -/
structure Quiet (before after : Context) : Prop where
  vocabulary : after.vocabulary = before.vocabulary
  simpleTypes : after.simpleTypes = before.simpleTypes
  unread : after.unread = before.unread
  nextId : after.arena.nextId = before.arena.nextId
  nodes : ∀ id, (after.node? id).map Node.treePart? = (before.node? id).map Node.treePart?

namespace Quiet

variable {first second third before after : Context}

theorem refl (context : Context) : Quiet context context := ⟨rfl, rfl, rfl, rfl, fun _ => rfl⟩

theorem trans (left : Quiet first second) (right : Quiet second third) : Quiet first third where
  vocabulary := right.vocabulary.trans left.vocabulary
  simpleTypes := right.simpleTypes.trans left.simpleTypes
  unread := right.unread.trans left.unread
  nextId := right.nextId.trans left.nextId
  nodes id := (right.nodes id).trans (left.nodes id)

/-- A change of other parts of the context. -/
theorem of_arena (vocabulary : after.vocabulary = before.vocabulary)
    (simpleTypes : after.simpleTypes = before.simpleTypes) (unread : after.unread = before.unread)
    (arena : after.arena = before.arena) : Quiet before after where
  vocabulary := vocabulary
  simpleTypes := simpleTypes
  unread := unread
  nextId := congrArg Arena.nextId arena
  nodes id := congrArg (fun arena : Arena => (arena.node? id).map Node.treePart?) arena

/-- A change of one node that keeps what soundness looks at. -/
theorem modifyNode (context : Context) (id : NodeId) {change : Node → Node}
    (keeps : ∀ node, (change node).treePart? = node.treePart?) :
    Quiet context (context.modifyNode id change) where
  vocabulary := rfl
  simpleTypes := rfl
  unread := rfl
  nextId := congrArg NodeId.mk (Arena.size_modify context.arena id change)
  nodes other := by
    have read := Arena.node?_modify context.arena id other change
    show ((context.arena.modify id change).node? other).map Node.treePart? = _
    rw [read]
    split
    · rename_i same
      subst same
      rw [Option.map_map]
      exact congrArg (Option.map · (context.arena.node? other)) (funext keeps)
    · rfl

theorem modifyElement (context : Context) (id : NodeId) {change : Element → Element}
    (keeps : ∀ element, (change element).treePart = element.treePart) :
    Quiet context (context.modifyElement id change) := by
  refine modifyNode context id fun node => ?_
  cases node with
  | declaration element => exact congrArg some (keeps element)
  | simple simpleType => rfl

theorem element? (quiet : Quiet before after) (id : NodeId) :
    (after.element? id).map Element.treePart = (before.element? id).map Element.treePart := by
  have joined : ∀ context : Context, (context.element? id).map Element.treePart =
      ((context.node? id).map Node.treePart?).join := by
    intro context
    unfold Context.element? Context.node? Arena.element?
    cases context.arena.node? id <;> rfl
  rw [joined, joined, quiet.nodes]

theorem simpleType? (quiet : Quiet before after) (id : NodeId) :
    (after.arena.simpleType? id).isSome = (before.arena.simpleType? id).isSome := by
  have read : ∀ context : Context, (context.arena.simpleType? id).isSome =
      (((context.node? id).map Node.treePart?).map Option.isNone).getD false := by
    intro context
    unfold Context.node? Arena.simpleType?
    cases context.arena.node? id with
    | none => rfl
    | some node => cases node <;> rfl
  rw [read, read, quiet.nodes]

theorem of_element?_after (quiet : Quiet before after) {id : NodeId} {element : Element}
    (found : after.element? id = some element) :
    ∃ original, before.element? id = some original ∧ original.treePart = element.treePart := by
  have same := quiet.element? id
  rw [found] at same
  exact Option.map_eq_some_iff.1 same.symm

theorem of_element? (quiet : Quiet before after) {id : NodeId} {element : Element}
    (found : before.element? id = some element) :
    ∃ changed, after.element? id = some changed ∧ changed.treePart = element.treePart := by
  have same := quiet.element? id
  rw [found] at same
  exact Option.map_eq_some_iff.1 same

theorem isInner (quiet : Quiet before after) {id : NodeId} (inner : before.IsInner id) :
    after.IsInner id := by
  obtain ⟨element, found, below⟩ := inner
  obtain ⟨changed, present, same⟩ := quiet.of_element? found
  have sameKind : changed.kind = element.kind := congrArg (·.type.1) same
  exact ⟨changed, present, sameKind ▸ below⟩

end Quiet

namespace Sound

variable {before after context : Context}

theorem of_quiet (sound : before.Sound) (quiet : Quiet before after) : after.Sound where
  followsTag found := by
    obtain ⟨original, present, same⟩ := quiet.of_element?_after found
    rw [quiet.vocabulary]
    exact (sound.followsTag present).of_typePart (congrArg Element.TreePart.type same).symm
  children := by
    intro id element found child member
    obtain ⟨original, present, same⟩ := quiet.of_element?_after found
    have sameChildren : original.children = element.children :=
      congrArg Element.TreePart.children same
    rw [← sameChildren] at member
    exact quiet.isInner (sound.children present child member)
  simpleTypes found := by
    rw [quiet.simpleTypes] at found
    rw [quiet.simpleType?]
    exact sound.simpleTypes found

end Sound

/-! ## New nodes -/

theorem node?_nextId (context : Context) : context.node? context.arena.nextId = none := by
  unfold Context.node? Arena.node? Arena.nextId Arena.size
  exact Array.getElem?_eq_none (Nat.le_refl _)

theorem element?_addNode (context : Context) (node : Node) (id : NodeId) :
    (context.addNode node).element? id =
      if id = context.arena.nextId then node.element? else context.element? id := by
  show ((context.arena.add node).node? id).bind Node.element? = _
  rw [Arena.node?_add]
  split <;> rfl

theorem simpleType?_addNode (context : Context) (node : Node) (id : NodeId) :
    (context.addNode node).arena.simpleType? id =
      if id = context.arena.nextId then node.simpleType? else context.arena.simpleType? id := by
  show ((context.arena.add node).node? id).bind Node.simpleType? = _
  rw [Arena.node?_add]
  split <;> rfl

theorem element?_addNode_of_element? {context : Context} {id : NodeId} {element : Element}
    (found : context.element? id = some element) (node : Node) :
    (context.addNode node).element? id = some element := by
  rw [element?_addNode, if_neg, found]
  rintro rfl
  obtain ⟨node, present, -⟩ := Option.bind_eq_some_iff.1 found
  have absent : context.arena.node? context.arena.nextId = none := node?_nextId context
  rw [absent] at present
  cases present

theorem IsInner.addNode {context : Context} {id : NodeId} (inner : context.IsInner id)
    (node : Node) : (context.addNode node).IsInner id := by
  obtain ⟨element, found, below⟩ := inner
  exact ⟨element, element?_addNode_of_element? found node, below⟩

theorem IsInner.modifyElement {context : Context} {id : NodeId} (inner : context.IsInner id)
    (changed : NodeId) {change : Element → Element}
    (keeps : ∀ element, (change element).kind = element.kind) :
    (context.modifyElement changed change).IsInner id := by
  obtain ⟨element, found, below⟩ := inner
  have frame : Frame (.keeping Element.kind) context (context.modifyElement changed change) :=
    .modifyElement context changed fun element _ => keeps element
  obtain ⟨after, present, same⟩ := frame.of_element? found
  have sameKind : after.kind = element.kind := same
  exact ⟨after, present, sameKind ▸ below⟩

namespace Sound

variable {context : Context} (sound : context.Sound)

include sound in
theorem addNode {node : Node} (fits : ∀ element, node.element? = some element →
      element.FollowsTag context.vocabulary ∧ element.children = []) :
    (context.addNode node).Sound where
  followsTag := by
    intro id element found
    rw [element?_addNode] at found
    split at found
    · exact (fits element found).1
    · exact sound.followsTag found
  children := by
    intro id element found child member
    rw [element?_addNode] at found
    split at found
    · rw [(fits element found).2] at member
      cases member
    · exact (sound.children found child member).addNode node
  simpleTypes := by
    intro name id found
    rw [simpleType?_addNode]
    have known := sound.simpleTypes found
    split
    · rename_i same
      subst same
      obtain ⟨simple, present⟩ := Option.isSome_iff_exists.1 known
      obtain ⟨existing, presentNode, -⟩ := Option.bind_eq_some_iff.1 present
      have absent : context.arena.node? context.arena.nextId = none := node?_nextId context
      rw [absent] at presentNode
      cases presentNode
    · exact known

include sound in
/-- A name for a simple type. -/
theorem nameSimpleType {id : NodeId} (simple : (context.arena.simpleType? id).isSome)
    (name : String) :
    Sound { context with simpleTypes := context.simpleTypes.insertNew name id } where
  followsTag := sound.followsTag
  children := sound.children
  simpleTypes := by
    intro other target found
    rw [Table.find?_insertNew] at found
    split at found
    · cases taken : context.simpleTypes.find? name with
      | none =>
          rw [taken] at found
          cases found
          exact simple
      | some earlier =>
          rw [taken] at found
          cases found
          exact sound.simpleTypes taken
    · exact sound.simpleTypes found

include sound in
/-- A link from a declaration to one inside it. -/
theorem link {child : NodeId} (inner : context.IsInner child) (parent : NodeId) :
    (context.modifyElement parent fun element =>
      { element with children := element.children ++ [child] }).Sound := by
  have frame : Frame (.keeping Element.typePart) context (context.modifyElement parent
      fun element => { element with children := element.children ++ [child] }) :=
    .modifyElement context parent fun _ _ => rfl
  have stillInner : ∀ {id}, context.IsInner id → (context.modifyElement parent fun element =>
      { element with children := element.children ++ [child] }).IsInner id :=
    fun inner => inner.modifyElement parent fun _ => rfl
  refine ⟨?_, ?_, ?_⟩
  · intro id element found
    obtain ⟨original, present, same⟩ := frame.of_element?_after found
    rw [frame.vocabulary]
    exact (sound.followsTag present).of_typePart same
  · intro id element found inside member
    have read := Arena.element?_modifyElement context.arena parent id fun element =>
      { element with children := element.children ++ [child] }
    have readAfter := read.symm.trans found
    split at readAfter
    · obtain ⟨original, present, rfl⟩ := Option.map_eq_some_iff.1 readAfter
      rcases List.mem_append.1 member with earlier | last
      · exact stillInner (sound.children present inside earlier)
      · rw [List.mem_singleton.1 last]
        exact stillInner inner
    · exact stillInner (sound.children readAfter inside member)
  · intro name id found
    rw [frame.simpleType?]
    exact sound.simpleTypes found

end Sound

end Context

end XmlSchema
