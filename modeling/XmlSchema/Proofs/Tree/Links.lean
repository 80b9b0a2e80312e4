import XmlSchema.Proofs.Tree.Reading

/-!
# Links between nodes

A node is linked to its parent once, after everything inside it has been linked. So no node has two
parents, and parents are older than their children: `branching_readTree`. The invariant of the
assembly is that the open nodes are still unlinked and that inner ones are younger: `Branching`.
-/

namespace XmlSchema

namespace Context

/-- The declarations inside a node. A simple type has none. -/
def children (context : Context) (id : NodeId) : List NodeId :=
  ((context.element? id).map Element.children).getD []

/-- Every node has one parent at most, which is older, and stands there once. -/
structure Branching (context : Context) : Prop where
  later : ∀ {parent child}, child ∈ context.children parent → parent.index < child.index
  bounded : ∀ {parent child}, child ∈ context.children parent → child.index < context.arena.size
  nodup : ∀ parent, (context.children parent).Nodup
  unique : ∀ {left right child}, child ∈ context.children left → child ∈ context.children right →
    left = right

variable {before after context : Context}

theorem children_of_element? {id : NodeId} {element : Element}
    (found : context.element? id = some element) : context.children id = element.children := by
  unfold children
  rw [found]
  rfl

theorem Quiet.children (quiet : Quiet before after) (id : NodeId) :
    after.children id = before.children id := by
  have parts := congrArg (Option.map Element.TreePart.children) (quiet.element? id)
  rw [Option.map_map, Option.map_map] at parts
  unfold Context.children
  exact congrArg (Option.getD · []) parts

theorem Quiet.size (quiet : Quiet before after) : after.arena.size = before.arena.size :=
  congrArg NodeId.index quiet.nextId

theorem size_addNode (context : Context) (node : Node) :
    (context.addNode node).arena.size = context.arena.size + 1 := by
  show (context.arena.nodes.push node).size = _
  exact Array.size_push _

theorem children_addNode {node : Node}
    (childless : ∀ element, node.element? = some element → element.children = []) (id : NodeId) :
    (context.addNode node).children id = context.children id := by
  unfold children
  rw [element?_addNode]
  by_cases new : id = context.arena.nextId
  · have absent : context.element? id = none := by
      have noNode : context.node? context.arena.nextId = none := node?_nextId context
      subst new
      exact congrArg (Option.bind · Node.element?) noNode
    rw [if_pos new, absent]
    cases declared : node.element? with
    | none => rfl
    | some element => exact childless element declared
  · rw [if_neg new]

/-- Children at the end of those of a declaration. -/
theorem children_modifyElement (context : Context) (parent : NodeId) (last : List NodeId)
    (id : NodeId) :
    (context.modifyElement parent fun element =>
        { element with children := element.children ++ last }).children id =
      if id = parent ∧ (context.element? parent).isSome then context.children parent ++ last
      else context.children id := by
  unfold children
  have read := Arena.element?_modifyElement context.arena parent id fun element =>
    { element with children := element.children ++ last }
  have readAfter : (context.modifyElement parent fun element =>
      { element with children := element.children ++ last }).element? id =
      if id = parent then (context.element? parent).map fun element =>
        { element with children := element.children ++ last } else context.element? id := read
  rw [readAfter]
  by_cases same : id = parent
  · subst same
    cases context.element? id <;> simp
  · simp [same]

namespace Branching

theorem of_same (branching : before.Branching)
    (children : ∀ id, after.children id = before.children id)
    (size : before.arena.size ≤ after.arena.size) : after.Branching where
  later member := by
    rw [children] at member
    exact branching.later member
  bounded member := by
    rw [children] at member
    exact Nat.lt_of_lt_of_le (branching.bounded member) size
  nodup parent := by
    rw [children]
    exact branching.nodup parent
  unique left right := by
    rw [children] at left right
    exact branching.unique left right

/-- A link to a node that has no parent yet. -/
theorem link (branching : context.Branching) {parent child : NodeId}
    (later : parent.index < child.index) (bounded : child.index < context.arena.size)
    (unlinked : ∀ other, child ∉ context.children other) :
    (context.modifyElement parent fun element =>
      { element with children := element.children ++ [child] }).Branching := by
  -- A child is one that was there before, or the new one under its parent.
  have earlier_or_new : ∀ {id member}, member ∈ (context.modifyElement parent fun element =>
      { element with children := element.children ++ [child] }).children id →
      member ∈ context.children id ∨ (id = parent ∧ member = child) := by
    intro id member inside
    rw [children_modifyElement] at inside
    split at inside
    · rename_i condition
      rw [condition.1]
      rcases List.mem_append.1 inside with before | last
      · exact .inl before
      · exact .inr ⟨rfl, List.mem_singleton.1 last⟩
    · exact .inl inside
  refine ⟨?_, ?_, ?_, ?_⟩
  · intro id member inside
    rcases earlier_or_new inside with before | ⟨rfl, rfl⟩
    · exact branching.later before
    · exact later
  · intro id member inside
    have size : (context.modifyElement parent fun element =>
        { element with children := element.children ++ [child] }).arena.size =
        context.arena.size := Arena.size_modifyElement context.arena parent _
    rw [size]
    rcases earlier_or_new inside with before | ⟨rfl, rfl⟩
    · exact branching.bounded before
    · exact bounded
  · intro id
    rw [children_modifyElement]
    split
    · refine List.nodup_append.2 ⟨branching.nodup parent, List.pairwise_singleton _ child, ?_⟩
      intro member inside other last equal
      rw [List.mem_singleton.1 last] at equal
      exact unlinked parent (equal ▸ inside)
    · exact branching.nodup id
  · intro left right member inLeft inRight
    rcases earlier_or_new inLeft with before | ⟨rfl, rfl⟩
    · rcases earlier_or_new inRight with beforeToo | ⟨rfl, rfl⟩
      · exact branching.unique before beforeToo
      · exact absurd before (unlinked left)
    · rcases earlier_or_new inRight with before | ⟨rfl, -⟩
      · exact absurd before (unlinked right)
      · rfl

end Branching

theorem branching_initial (options : Options) : (initial options).Branching where
  later member := by cases member
  bounded member := by cases member
  nodup _ := List.nodup_nil
  unique member := by cases member

end Context

namespace Assembly

variable {assembly before after next : Assembly}

/-- The open nodes have no parents yet, and inner ones are younger. -/
structure Branching (assembly : Assembly) : Prop where
  context : assembly.context.Branching
  decreasing : assembly.openNodes.Pairwise fun inner outer => outer.index < inner.index
  bounded : ∀ id ∈ assembly.openNodes, id.index < assembly.context.arena.size
  unlinked : ∀ id ∈ assembly.openNodes, ∀ parent, id ∉ assembly.context.children parent

/-- The last child of the node around the innermost one. -/
theorem linkChild_eq {child parent : NodeId} {rest : List NodeId}
    (open_eq : before.openNodes = child :: parent :: rest) :
    before.dropNode.linkChild child =
      { before with
        openNodes := parent :: rest
        context := before.context.modifyElement parent fun element =>
          { element with children := element.children ++ [child] } } := by
  unfold linkChild modifyTopElement modifyTop dropNode top?
  rw [open_eq]
  rfl

namespace Branching

theorem of_quiet (branching : before.Branching) (quiet : Quiet before after) :
    after.Branching where
  context := branching.context.of_same quiet.context.children (Nat.le_of_eq quiet.context.size.symm)
  decreasing := quiet.openNodes ▸ branching.decreasing
  bounded id member := by
    rw [quiet.context.size]
    exact branching.bounded id (quiet.openNodes ▸ member)
  unlinked id member parent := by
    rw [quiet.context.children]
    exact branching.unlinked id (quiet.openNodes ▸ member) parent

theorem openNode (branching : assembly.Branching) {node : Node}
    (childless : ∀ element, node.element? = some element → element.children = []) :
    (assembly.openNode node).Branching where
  context := by
    refine branching.context.of_same (Context.children_addNode childless) ?_
    have size : (assembly.openNode node).context.arena.size = assembly.context.arena.size + 1 :=
      Context.size_addNode assembly.context node
    omega
  decreasing := List.pairwise_cons.2 ⟨branching.bounded, branching.decreasing⟩
  bounded id member := by
    have size : (assembly.openNode node).context.arena.size = assembly.context.arena.size + 1 :=
      Context.size_addNode assembly.context node
    rw [size]
    rcases List.mem_cons.1 member with rfl | older
    · exact Nat.lt_succ_self _
    · exact Nat.lt_succ_of_lt (branching.bounded id older)
  unlinked id member parent := by
    have same : (assembly.openNode node).context.children parent =
        assembly.context.children parent := Context.children_addNode childless parent
    rw [same]
    rcases List.mem_cons.1 member with rfl | older
    · exact fun inside => Nat.lt_irrefl _ (branching.context.bounded inside)
    · exact branching.unlinked id older parent

theorem dropNode (branching : assembly.Branching) : assembly.dropNode.Branching where
  context := branching.context
  decreasing := branching.decreasing.sublist (List.tail_sublist _)
  bounded id member := branching.bounded id (List.mem_of_mem_tail member)
  unlinked id member := branching.unlinked id (List.mem_of_mem_tail member)

theorem linkChild (branching : assembly.Branching) {child parent : NodeId} {rest : List NodeId}
    (open_eq : assembly.openNodes = child :: parent :: rest) :
    (assembly.dropNode.linkChild child).Branching := by
  obtain ⟨context, decreasing, bounded, unlinked⟩ := branching
  rw [open_eq] at decreasing bounded unlinked
  obtain ⟨younger, decreasingRest⟩ := List.pairwise_cons.1 decreasing
  have childOpen : child ∈ child :: parent :: rest := List.mem_cons_self ..
  rw [linkChild_eq open_eq]
  refine ⟨context.link (younger parent (List.mem_cons_self ..)) (bounded child childOpen)
    (unlinked child childOpen), decreasingRest, ?_, ?_⟩
  · intro id member
    have size : (assembly.context.modifyElement parent fun element =>
        { element with children := element.children ++ [child] }).arena.size =
        assembly.context.arena.size := Arena.size_modifyElement assembly.context.arena parent _
    rw [size]
    exact bounded id (List.mem_cons_of_mem _ member)
  · intro id member other
    rw [Context.children_modifyElement]
    have stillOpen : id ∈ child :: parent :: rest := List.mem_cons_of_mem _ member
    split
    · intro inside
      rcases List.mem_append.1 inside with earlier | last
      · exact unlinked id stillOpen parent earlier
      · have older : id.index < child.index := younger id member
        rw [List.mem_singleton.1 last] at older
        exact Nat.lt_irrefl _ older
    · exact unlinked id stillOpen other

theorem adoptQualifier (branching : assembly.Branching) (tag : String)
    (attributes : Xml.Attributes) : (assembly.adoptQualifier tag attributes).Branching := by
  obtain ⟨context, decreasing, bounded, unlinked⟩ := branching
  unfold Assembly.adoptQualifier
  split
  · dsimp only
    split
    · exact ⟨context.of_same (fun _ => rfl) (Nat.le_refl _), decreasing, bounded, unlinked⟩
    · exact ⟨context, decreasing, bounded, unlinked⟩
  · exact ⟨context, decreasing, bounded, unlinked⟩

theorem of_effect {construct : Construct} {attributes : Xml.Attributes} {result : Assembly × Bool}
    (branching : before.Branching) (effect : Effect construct attributes before result) :
    result.1.Branching := by
  cases effect with
  | passes _ quiet => exact branching.of_quiet quiet
  | declares early declared late =>
      refine ((branching.of_quiet early).openNode fun element same => ?_).of_quiet late
      cases same
      exact declared.childless
  | @types middle simpleType name? _ early =>
      have opened : (middle.openNode (.simple simpleType)).Branching :=
        (branching.of_quiet early).openNode fun element same => by cases same
      obtain ⟨context, decreasing, bounded, unlinked⟩ := opened
      cases name? with
      | none => exact ⟨context, decreasing, bounded, unlinked⟩
      | some name =>
          exact ⟨context.of_same (fun _ => rfl) (Nat.le_refl _), decreasing, bounded, unlinked⟩

theorem of_closingEffect {tag : OpenTag} (branching : before.Branching)
    (effect : ClosingEffect tag before after) : after.Branching := by
  cases effect with
  | passes _ quiet => exact branching.of_quiet quiet
  | drops _ _ quiet => exact branching.dropNode.of_quiet quiet
  | links _ _ open_eq => exact branching.linkChild open_eq

theorem stepOpening (branching : assembly.Branching) {tag : String} {attributes : Xml.Attributes}
    (taken : assembly.stepOpening tag attributes = .ok next) : next.Branching := by
  obtain ⟨construct, opened, opensNode, -, -, effect, rfl⟩ := exists_effect_of_stepOpening taken
  obtain ⟨context, decreasing, bounded, unlinked⟩ :=
    (branching.adoptQualifier tag attributes).of_effect effect
  exact ⟨context, decreasing, bounded, unlinked⟩

theorem stepClosing (sound : assembly.Sound) (branching : assembly.Branching)
    (taken : assembly.stepClosing = .ok next) : next.Branching := by
  obtain ⟨context, decreasing, bounded, unlinked⟩ := branching
  obtain ⟨tag, outer, opened, closed⟩ := cases_of_stepClosing taken
  rcases closed with ⟨-, root, -, rfl⟩ | ⟨inside, rfl⟩
  · exact ⟨context, List.Pairwise.nil, fun _ member => absurd member List.not_mem_nil,
      fun _ member => absurd member List.not_mem_nil⟩
  · have aligned : Aligned assembly.context (tag :: outer) assembly.openNodes :=
      opened ▸ sound.aligned
    have effect : ClosingEffect tag { assembly with openTags := outer }
        (closeTag { assembly with openTags := outer } tag) :=
      effect_closeTag inside aligned.makesNode
    have popped : ({ assembly with openTags := outer } : Assembly).Branching :=
      ⟨context, decreasing, bounded, unlinked⟩
    exact popped.of_closingEffect effect

end Branching

/-- Events in a row link every node once at most. -/
theorem branching_foldlM {options : Options} {events : List Xml.Event}
    (completed : events.foldlM step (start (.initial options)) = .ok assembly) :
    assembly.Branching := by
  have initially : (start (.initial options)).Branching :=
    ⟨Context.branching_initial options, List.Pairwise.nil,
      fun _ member => absurd member List.not_mem_nil,
      fun _ member => absurd member List.not_mem_nil⟩
  have kept : assembly.Sound ∧ assembly.Branching := by
    refine keeps_foldlM (fun assembly => assembly.Sound ∧ assembly.Branching)
      ?_ ?_ ?_ ⟨sound_start options, initially⟩ completed
    · exact fun kept taken => ⟨sound_stepOpening kept.1 taken, kept.2.stepOpening taken⟩
    · exact fun kept taken => ⟨sound_stepClosing kept.1 taken, .stepClosing kept.1 kept.2 taken⟩
    · exact fun text kept =>
        ⟨sound_stepText kept.1 text, kept.2.of_quiet (quiet_stepText _ text)⟩
  exact kept.2

theorem branching_run {options : Options} {document : Bytes}
    {events : List (Xml.Located Xml.Event)}
    (completed : (start (.initial options)).run document events = .ok assembly) :
    assembly.Branching :=
  branching_foldlM (foldlM_step_of_run completed)

end Assembly

/-- In the tree of a document, every node has one parent at most, which is older. -/
theorem branching_readTree {options : Options} {document : Bytes} {context : Context}
    {root : NodeId} (read : readTree (.initial options) document = .ok (context, root)) :
    context.Branching := by
  obtain ⟨assembly, completed, -, rfl⟩ := exists_run_of_readTree read
  exact (Assembly.branching_run completed).context

end XmlSchema
