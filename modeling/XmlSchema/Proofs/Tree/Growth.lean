import XmlSchema.Proofs.Tree.Content
import XmlSchema.Proofs.Tree.Links

/-!
# Content inside an open node

Inside an open node, content that is taken grows the tree by the nodes of its outline. The linked
ones in the row become the last children of that node, and nothing else of the older tree changes:
`grows_of_spelled`. One tag with what is inside it is the step of the induction, `grows_of_tag`; it
opens a node or leaves the tree as it is, `Ready.cases_of_stepOpening`.
-/

namespace XmlSchema

/-- A declaration in the tree with more children behind those it has. -/
def Element.TreePart.link (part : TreePart) (last : List NodeId) : TreePart :=
  { part with children := part.children ++ last }

theorem Element.map_link_nil (part? : Option TreePart) : part?.map (·.link []) = part? := by
  cases part? with
  | none => rfl
  | some part =>
      unfold TreePart.link
      rw [Option.map_some, List.append_nil]

namespace Context

variable {before after context : Context} {id : NodeId} {construct : Construct} {below : Outline}

/-- What a node is in the tree. -/
def treePart? (context : Context) (id : NodeId) : Option Element.TreePart :=
  (context.element? id).map Element.treePart

/-- Whether a node is as a tag of a construct makes it, with the linked nodes of an outline as its
children. -/
def Holds (context : Context) (id : NodeId) (construct : Construct) (below : Outline) : Prop :=
  (context.treePart? id).map (fun part => (part.type.1, part.children)) =
    construct.kind?.map fun kind => (kind, below.links)

theorem Holds.of_treePart? (holds : before.Holds id construct below)
    (same : after.treePart? id = before.treePart? id) : after.Holds id construct below := by
  unfold Holds
  rw [same]
  exact holds

theorem Holds.of_element? (holds : context.Holds id construct below) {element : Element}
    (found : context.element? id = some element) :
    construct.kind? = some element.kind ∧ element.children = below.links := by
  unfold Holds treePart? at holds
  rw [found] at holds
  obtain ⟨kind, isKind, same⟩ := Option.map_eq_some_iff.1 holds.symm
  have parts : (kind, below.links) = (element.kind, element.children) := same
  rw [Prod.mk.injEq] at parts
  exact ⟨isKind.trans (congrArg some parts.1), parts.2.symm⟩

theorem treePart?_addNode (context : Context) (node : Node) (id : NodeId) :
    (context.addNode node).treePart? id =
      if id = context.arena.nextId then node.element?.map Element.treePart
      else context.treePart? id := by
  unfold treePart?
  rw [element?_addNode]
  split <;> rfl

theorem treePart?_link (context : Context) (parent child id : NodeId) :
    (context.modifyElement parent fun element =>
        { element with children := element.children ++ [child] }).treePart? id =
      if id = parent then (context.treePart? id).map (·.link [child])
      else context.treePart? id := by
  have read := Arena.element?_modifyElement context.arena parent id fun element =>
    { element with children := element.children ++ [child] }
  have readAfter : (context.modifyElement parent fun element =>
      { element with children := element.children ++ [child] }).element? id =
      if id = parent then (context.element? parent).map fun element =>
        { element with children := element.children ++ [child] } else context.element? id := read
  unfold treePart?
  rw [readAfter]
  by_cases same : id = parent
  · subst same
    rw [if_pos rfl, if_pos rfl, Option.map_map, Option.map_map]
    rfl
  · rw [if_neg same, if_neg same]

end Context

namespace Assembly

variable {before between middle opened after : Assembly} {construct : Construct}
  {attributes : Xml.Attributes} {outline early late : Outline}

/-! ## Growth inside an open node -/

/-- What an assembly with an open node becomes when content adds the nodes of an outline. The
linked ones become children of the innermost open node. -/
structure Grows (outline : Outline) (before after : Assembly) : Prop where
  openNodes : after.openNodes = before.openNodes
  awaitsFirstTag : after.awaitsFirstTag = before.awaitsFirstTag
  root? : after.root? = before.root?
  vocabulary : after.context.vocabulary = before.context.vocabulary
  size : after.context.arena.size = before.context.arena.size + outline.count
  top : ∀ id, before.top? = some id →
    after.context.treePart? id = (before.context.treePart? id).map (·.link outline.links)
  others : ∀ id, id.index < before.context.arena.size → before.top? ≠ some id →
    after.context.treePart? id = before.context.treePart? id
  made : ∀ id construct below, outline.Has id construct below →
    before.context.arena.size ≤ id.index ∧ id.index < after.context.arena.size ∧
      after.context.Holds id construct below

theorem Quiet.treePart? (quiet : Quiet before after) (id : NodeId) :
    after.context.treePart? id = before.context.treePart? id :=
  quiet.context.element? id

namespace Grows

theorem of_quiet (quiet : Quiet before after) : Grows .nothing before after where
  openNodes := quiet.openNodes
  awaitsFirstTag := quiet.awaitsFirstTag
  root? := quiet.root?
  vocabulary := quiet.context.vocabulary
  size := quiet.context.size
  top id _ := (quiet.treePart? id).trans (Element.map_link_nil _).symm
  others id _ _ := quiet.treePart? id
  made _ _ _ has := has.elim

theorem trans (first : Grows early before between) (second : Grows late between after)
    (bounded : ∀ id ∈ before.openNodes, id.index < before.context.arena.size) :
    Grows (early.append late) before after := by
  have sameTop : between.top? = before.top? := congrArg List.head? first.openNodes
  have size := first.size
  refine ⟨second.openNodes.trans first.openNodes,
    second.awaitsFirstTag.trans first.awaitsFirstTag, second.root?.trans first.root?,
    second.vocabulary.trans first.vocabulary, ?_, ?_, ?_, ?_⟩
  · rw [second.size, first.size, Outline.count_append, Nat.add_assoc]
  · intro id isTop
    rw [second.top id (sameTop.trans isTop), first.top id isTop, Outline.links_append,
      Option.map_map]
    refine congrArg (Option.map · (before.context.treePart? id)) (funext fun part => ?_)
    unfold Element.TreePart.link
    dsimp only [Function.comp]
    rw [List.append_assoc]
  · intro id old notTop
    rw [second.others id (by omega) (sameTop ▸ notTop), first.others id old notTop]
  · intro id construct below has
    rcases Outline.has_append.1 has with has | has
    · obtain ⟨lower, upper, holds⟩ := first.made id construct below has
      have notTop : between.top? ≠ some id := by
        rw [sameTop]
        intro isTop
        have older := bounded id (List.mem_of_mem_head? isTop)
        omega
      refine ⟨lower, ?_, holds.of_treePart? (second.others id upper notTop)⟩
      rw [second.size]
      omega
    · obtain ⟨lower, upper, holds⟩ := second.made id construct below has
      exact ⟨by omega, upper, holds⟩

end Grows

namespace Grows

/-- Open tags are no part of the tree. -/
theorem retag (grown : Grows outline before after) (earlier later : List OpenTag) :
    Grows outline { before with openTags := earlier } { after with openTags := later } where
  openNodes := grown.openNodes
  awaitsFirstTag := grown.awaitsFirstTag
  root? := grown.root?
  vocabulary := grown.vocabulary
  size := grown.size
  top := grown.top
  others := grown.others
  made := grown.made

end Grows

/-! ## One tag -/

/-- An assembly between tags: what decides which nodes the next tags make. -/
structure Ready (vocabulary : Vocabulary) (around : List Construct) (depth first : Nat)
    (assembly : Assembly) : Prop where
  awaitsFirstTag : assembly.awaitsFirstTag = false
  vocabulary : assembly.context.vocabulary = vocabulary
  around : assembly.around = around
  depth : assembly.depth = depth
  first : assembly.context.arena.size = first
  bounded : ∀ id ∈ assembly.openNodes, id.index < assembly.context.arena.size

/-- What the opening of a node does. -/
structure Opens (construct : Construct) (attributes : Xml.Attributes) (before after : Assembly) :
    Prop where
  openNodes : after.openNodes = before.context.arena.nextId :: before.openNodes
  openTags : after.openTags = before.openTags
  awaitsFirstTag : after.awaitsFirstTag = before.awaitsFirstTag
  root? : after.root? = before.root?
  vocabulary : after.context.vocabulary = before.context.vocabulary
  size : after.context.arena.size = before.context.arena.size + 1
  others : ∀ id, id ≠ before.context.arena.nextId →
    after.context.treePart? id = before.context.treePart? id
  holds : after.context.Holds before.context.arena.nextId construct .nothing
  groupRef? : construct = .group →
    (after.context.treePart? before.context.arena.nextId).bind Element.TreePart.groupRef? =
      attributes.find? "ref"

theorem Opens.of_effect (effect : Effect construct attributes before (after, true)) :
    Opens construct attributes before after := by
  cases effect with
  | @declares middle _ element early declared late =>
      have nextId : middle.context.arena.nextId = before.context.arena.nextId :=
        early.context.nextId
      have parts : ∀ id, after.context.treePart? id =
          if id = before.context.arena.nextId then some element.treePart
          else before.context.treePart? id := by
        intro id
        have added : (middle.openNode (.declaration element)).context.treePart? id =
            if id = middle.context.arena.nextId then some element.treePart
            else middle.context.treePart? id := Context.treePart?_addNode _ _ id
        rw [late.treePart?, added, nextId, early.treePart?]
      have new : after.context.treePart? before.context.arena.nextId = some element.treePart := by
        rw [parts, if_pos rfl]
      refine ⟨?_, ?_, late.awaitsFirstTag.trans early.awaitsFirstTag,
        late.root?.trans early.root?, late.context.vocabulary.trans early.context.vocabulary,
        ?_, ?_, ?_, ?_⟩
      · rw [late.openNodes, ← nextId, ← early.openNodes]
        rfl
      · exact late.openTags.trans early.openTags
      · rw [late.context.size, ← early.context.size]
        exact Context.size_addNode middle.context _
      · intro id other
        rw [parts, if_neg other]
      · unfold Context.Holds
        rw [new, declared.kind]
        exact congrArg (fun children => some (element.kind, children)) declared.childless
      · intro isGroup
        rw [new]
        exact declared.groupRef?.trans (if_pos isGroup)
  | @types middle simpleType name? isType early =>
      have nextId : middle.context.arena.nextId = before.context.arena.nextId :=
        early.context.nextId
      have parts : ∀ id, (middle.openSimpleNode simpleType name?).context.treePart? id =
          if id = before.context.arena.nextId then none else before.context.treePart? id := by
        intro id
        have added : (middle.openNode (.simple simpleType)).context.treePart? id =
            if id = middle.context.arena.nextId then none else middle.context.treePart? id :=
          Context.treePart?_addNode _ _ id
        rw [← nextId, ← early.treePart?, ← added]
        cases name? <;> rfl
      refine ⟨?_, early.openTags, early.awaitsFirstTag, early.root?, ?_, ?_, ?_, ?_, ?_⟩
      · rw [← nextId, ← early.openNodes]
        rfl
      · rw [← early.context.vocabulary]
        cases name? <;> rfl
      · rw [← early.context.size, ← Context.size_addNode middle.context (.simple simpleType)]
        cases name? <;> rfl
      · intro id other
        rw [parts, if_neg other]
      · unfold Context.Holds
        rw [parts, if_pos rfl, isType]
        rfl
      · intro isGroup
        rw [isType] at isGroup
        cases isGroup

/-- An opening in an assembly between tags either opens a node or does nothing to the tree. -/
theorem Ready.cases_of_stepOpening {vocabulary : Vocabulary} {around : List Construct}
    {depth first : Nat} {name : String} (ready : Ready vocabulary around depth first before)
    (taken : before.stepOpening name attributes = .ok opened) :
    ∃ within : Assembly,
      opened = { within with openTags :=
        ⟨vocabulary.classify name, name,
          (vocabulary.classify name).opensNode attributes around depth⟩ :: before.openTags } ∧
      (((vocabulary.classify name).opensNode attributes around depth = true ∧
          Opens (vocabulary.classify name) attributes before within) ∨
        ((vocabulary.classify name).opensNode attributes around depth = false ∧
          vocabulary.classify name ≠ .schema ∧ Quiet before within)) := by
  obtain ⟨construct, within, opensNode, isConstruct, makes, effect, rfl⟩ :=
    exists_effect_of_stepOpening taken
  have adopted : before.adoptQualifier name attributes = before :=
    adoptQualifier_of_adopted ready.awaitsFirstTag name attributes
  rw [adopted] at isConstruct makes effect
  rw [ready.vocabulary] at isConstruct
  rw [ready.around, ready.depth] at makes
  subst isConstruct
  refine ⟨within, ?_, ?_⟩
  · rw [← makes, effect.opening.openTags]
  · rw [← makes]
    cases opensNode with
    | true => exact .inl ⟨rfl, .of_effect effect⟩
    | false =>
        cases effect with
        | passes inside quiet => exact .inr ⟨rfl, inside, quiet⟩

theorem makesNode_of_opensNode {around : List Construct} {depth : Nat}
    (opens : construct.opensNode attributes around depth = true) : construct.MakesNode := by
  cases construct
  all_goals first
    | exact .inl rfl
    | exact .inr rfl
    | cases opens

/-- Whether a closing tag links its node is known from the tag and from what is around it. -/
theorem linksTop_eq_linksNode {within middle : Assembly} {below : Outline} {tags : List OpenTag}
    (opens : Opens construct attributes before within)
    (grown : Grows below { within with openTags := tags } middle) (outer : List OpenTag) :
    linksTop { middle with openTags := outer } construct =
      construct.linksNode attributes before.depth := by
  have openNodes : middle.openNodes = before.context.arena.nextId :: before.openNodes :=
    grown.openNodes.trans opens.openNodes
  have grownTop : middle.context.treePart? before.context.arena.nextId =
      (within.context.treePart? before.context.arena.nextId).map (·.link below.links) :=
    grown.top _ (congrArg List.head? opens.openNodes)
  cases construct
  case group =>
    have reference : (middle.context.element? before.context.arena.nextId).bind Element.groupRef? =
        attributes.find? "ref" := by
      rw [← opens.groupRef? rfl]
      have kept : (middle.context.treePart? before.context.arena.nextId).bind
          Element.TreePart.groupRef? =
          (within.context.treePart? before.context.arena.nextId).bind
            Element.TreePart.groupRef? := by
        rw [grownTop]
        cases within.context.treePart? before.context.arena.nextId <;> rfl
      rw [← kept]
      unfold Context.treePart?
      cases middle.context.element? before.context.arena.nextId <;> rfl
    unfold linksTop Construct.linksNode top? depth
    dsimp only
    rw [openNodes, List.head?_cons, Option.bind_some, reference, List.length_cons]
    congr 1
    exact decide_eq_decide.2 ⟨fun deep => by omega, fun deep => by omega⟩
  all_goals rfl

section Node

variable {within middle : Assembly} {below : Outline} {tags : List OpenTag}
  (opens : Opens construct attributes before within)
  (grown : Grows below { within with openTags := tags } middle)

include opens grown

/-- Nodes older than one that has been opened and filled are as they were. -/
theorem treePart?_of_opens {id : NodeId} (older : id.index < before.context.arena.size) :
    middle.context.treePart? id = before.context.treePart? id := by
  have notNew : id ≠ before.context.arena.nextId := by
    rintro rfl
    exact Nat.lt_irrefl _ older
  have opened : ({ within with openTags := tags } : Assembly).top? =
      some before.context.arena.nextId := congrArg List.head? opens.openNodes
  have notTop : ({ within with openTags := tags } : Assembly).top? ≠ some id := by
    rw [opened]
    exact fun same => notNew (Option.some.inj same).symm
  have inside : id.index < within.context.arena.size := by
    rw [opens.size]
    exact Nat.lt_succ_of_lt older
  rw [grown.others id inside notTop]
  exact opens.others id notNew

/-- A node that has been opened and filled holds what is inside it. -/
theorem holds_of_opens : middle.context.Holds before.context.arena.nextId construct below := by
  have fresh := opens.holds
  have grownTop := grown.top _ (congrArg List.head? opens.openNodes)
  unfold Context.Holds at fresh ⊢
  rw [grownTop, Option.map_map]
  have linkedTo := congrArg (Option.map fun part : ElementKind × List NodeId =>
    (part.1, part.2 ++ below.links)) fresh
  rw [Option.map_map, Option.map_map] at linkedTo
  exact linkedTo

theorem size_of_opens :
    middle.context.arena.size = before.context.arena.size + 1 + below.count := by
  have size : middle.context.arena.size = within.context.arena.size + below.count := grown.size
  rw [size, opens.size]

/-- A node with its content. It becomes the last child of the innermost open node if it is linked. -/
theorem Grows.node {linked : Bool}
    (bounded : ∀ id ∈ before.openNodes, id.index < before.context.arena.size)
    (openNodes : after.openNodes = before.openNodes)
    (awaitsFirstTag : after.awaitsFirstTag = middle.awaitsFirstTag)
    (root? : after.root? = middle.root?)
    (vocabulary : after.context.vocabulary = middle.context.vocabulary)
    (size : after.context.arena.size = middle.context.arena.size)
    (parts : ∀ id, after.context.treePart? id =
      if linked = true ∧ before.top? = some id then
        (middle.context.treePart? id).map (·.link [before.context.arena.nextId])
      else middle.context.treePart? id) :
    Grows (.node before.context.arena.nextId construct linked below .nothing) before after := by
  have sizeWithin : within.context.arena.size = before.context.arena.size + 1 := opens.size
  have sizeMiddle := size_of_opens opens grown
  have young : ∀ id : NodeId, before.context.arena.size ≤ id.index →
      after.context.treePart? id = middle.context.treePart? id := by
    intro id younger
    rw [parts, if_neg]
    rintro ⟨-, isTop⟩
    have older := bounded id (List.mem_of_mem_head? isTop)
    omega
  refine ⟨openNodes, ?_, ?_, ?_, ?_, ?_, ?_, ?_⟩
  · exact awaitsFirstTag.trans (grown.awaitsFirstTag.trans opens.awaitsFirstTag)
  · exact root?.trans (grown.root?.trans opens.root?)
  · exact vocabulary.trans (grown.vocabulary.trans opens.vocabulary)
  · show _ = _ + (below.count + 1 + 0)
    omega
  · intro id isTop
    rw [parts, treePart?_of_opens opens grown (bounded id (List.mem_of_mem_head? isTop))]
    cases linked with
    | false =>
        rw [if_neg fun both => Bool.false_ne_true both.1]
        exact (Element.map_link_nil _).symm
    | true =>
        rw [if_pos ⟨rfl, isTop⟩]
        rfl
  · intro id older notTop
    rw [parts, if_neg fun both => notTop both.2, treePart?_of_opens opens grown older]
  · intro id made inside has
    rcases has with ⟨rfl, rfl, rfl⟩ | deeper | contradiction
    · refine ⟨Nat.le_refl _, ?_,
        (holds_of_opens opens grown).of_treePart? (young _ (Nat.le_refl _))⟩
      show before.context.arena.size < _
      omega
    · obtain ⟨lower, upper, stands⟩ := grown.made id made inside deeper
      have younger : before.context.arena.size + 1 ≤ id.index := sizeWithin ▸ lower
      exact ⟨by omega, by omega, stands.of_treePart? (young id (by omega))⟩
    · exact contradiction.elim

end Node

/-- The closing of a tag that has opened a node inside an open node. -/
theorem grows_of_stepClosing {within middle : Assembly} {below : Outline} {name : String}
    (opens : Opens construct attributes before within) (makes : construct.MakesNode)
    (inside : before.openNodes ≠ [])
    (bounded : ∀ id ∈ before.openNodes, id.index < before.context.arena.size)
    (grown : Grows below
      { within with openTags := ⟨construct, name, true⟩ :: before.openTags } middle)
    (tags : middle.openTags = ⟨construct, name, true⟩ :: before.openTags)
    (closed : middle.stepClosing = .ok after) :
    Grows (.node before.context.arena.nextId construct (construct.linksNode attributes before.depth)
        below .nothing) before after := by
  have openNodes : middle.openNodes = before.context.arena.nextId :: before.openNodes :=
    grown.openNodes.trans opens.openNodes
  obtain ⟨parent, rest, around⟩ := List.exists_cons_of_ne_nil inside
  obtain ⟨tag, outer, opened, outcome⟩ := cases_of_stepClosing closed
  obtain ⟨rfl, rfl⟩ := List.cons.inj (tags.symm.trans opened)
  rcases outcome with ⟨-, root, single, -⟩ | ⟨notSchema, isClosed⟩
  · rw [openNodes, around] at single
    cases single
  · have effect : ClosingEffect ⟨construct, name, true⟩
        { middle with openTags := before.openTags } after := by
      rw [isClosed]
      exact effect_closeTag notSchema fun _ => makes
    have linked := linksTop_eq_linksNode opens grown before.openTags
    cases effect with
    | passes stays _ =>
        have alone : middle.openNodes.tail = [] := stays rfl
        rw [openNodes, around] at alone
        cases alone
    | drops _ unlinked quiet =>
        have unlinked : construct.linksNode attributes before.depth = false :=
          linked.symm.trans unlinked
        rw [unlinked]
        refine .node opens grown bounded ?_ quiet.awaitsFirstTag quiet.root?
          quiet.context.vocabulary quiet.context.size fun id => ?_
        · rw [quiet.openNodes]
          show middle.openNodes.tail = _
          rw [openNodes]
          rfl
        · rw [if_neg fun both => Bool.false_ne_true both.1]
          exact quiet.treePart? id
    | links _ links open_eq =>
        have links : construct.linksNode attributes before.depth = true := linked.symm.trans links
        have stack : middle.openNodes = _ :: _ :: _ := open_eq
        rw [openNodes, around] at stack
        cases stack
        rw [links, linkChild_eq open_eq]
        refine .node opens grown bounded around.symm rfl rfl rfl (Arena.size_modifyElement _ _ _)
          fun id => ?_
        refine (Context.treePart?_link middle.context parent _ id).trans ?_
        have isTop : before.top? = some id ↔ id = parent := by
          unfold top?
          rw [around]
          exact ⟨fun same => (Option.some.inj same).symm, fun same => congrArg some same.symm⟩
        simp only [isTop, true_and]

theorem openTags_of_stepClosing {tag : OpenTag} {outer : List OpenTag}
    (tags : before.openTags = tag :: outer)
    (makes : tag.opensNode = true → tag.construct.MakesNode)
    (closed : before.stepClosing = .ok after) : after.openTags = outer := by
  obtain ⟨other, others, opened, outcome⟩ := cases_of_stepClosing closed
  obtain ⟨rfl, rfl⟩ := List.cons.inj (tags.symm.trans opened)
  rcases outcome with ⟨-, root, -, rfl⟩ | ⟨notSchema, rfl⟩
  · rfl
  · exact (effect_closeTag notSchema makes).openTags

/-- The closing of a tag that has opened no node. -/
theorem quiet_of_stepClosing {tag : OpenTag} {outer : List OpenTag}
    (tags : before.openTags = tag :: outer) (passes : tag.opensNode = false)
    (inside : tag.construct ≠ .schema) (closed : before.stepClosing = .ok after) :
    Quiet { before with openTags := outer } after := by
  obtain ⟨other, others, opened, outcome⟩ := cases_of_stepClosing closed
  obtain ⟨rfl, rfl⟩ := List.cons.inj (tags.symm.trans opened)
  rcases outcome with ⟨isSchema, -⟩ | ⟨-, isClosed⟩
  · exact absurd isSchema inside
  · have contradiction : tag.opensNode = true → False := fun opens => by
      rw [passes] at opens
      cases opens
    have effect : ClosingEffect tag { before with openTags := outer } after := by
      rw [isClosed]
      exact effect_closeTag inside fun opens => (contradiction opens).elim
    cases effect with
    | passes _ quiet => exact quiet
    | drops opens _ _ => exact (contradiction opens).elim
    | links opens _ _ => exact (contradiction opens).elim

/-! ## Content inside an open node -/

section Ready

variable {vocabulary : Vocabulary} {around : List Construct} {depth first : Nat}
  (ready : Ready vocabulary around depth first before)

include ready

theorem Ready.of_grows (grown : Grows outline before after)
    (tags : after.openTags = before.openTags) :
    Ready vocabulary around depth (first + outline.count) after where
  awaitsFirstTag := grown.awaitsFirstTag.trans ready.awaitsFirstTag
  vocabulary := grown.vocabulary.trans ready.vocabulary
  around := (congrArg (List.map OpenTag.construct) tags).trans ready.around
  depth := (congrArg List.length grown.openNodes).trans ready.depth
  first := by rw [grown.size, ready.first]
  bounded id member := by
    have older := ready.bounded id (grown.openNodes ▸ member)
    have size := grown.size
    omega

/-- Inside the tag of a node that has just been opened. -/
theorem Ready.of_opens {within : Assembly} (opens : Opens construct attributes before within)
    (tag : OpenTag) :
    Ready vocabulary (tag.construct :: around) (depth + 1) (first + 1)
      { within with openTags := tag :: before.openTags } where
  awaitsFirstTag := opens.awaitsFirstTag.trans ready.awaitsFirstTag
  vocabulary := opens.vocabulary.trans ready.vocabulary
  around := congrArg (tag.construct :: ·) ready.around
  depth := by
    rw [← ready.depth]
    exact congrArg List.length opens.openNodes
  first := by
    rw [← ready.first]
    exact opens.size
  bounded id member := by
    have size : within.context.arena.size = before.context.arena.size + 1 := opens.size
    show id.index < within.context.arena.size
    have inside : id ∈ within.openNodes := member
    rw [opens.openNodes] at inside
    rcases List.mem_cons.1 inside with rfl | outer
    · show before.context.arena.size < _
      omega
    · have older := ready.bounded id outer
      omega

/-- Inside a tag without a node. -/
theorem Ready.of_quiet {within : Assembly} (quiet : Quiet before within) (tag : OpenTag) :
    Ready vocabulary (tag.construct :: around) depth first
      { within with openTags := tag :: before.openTags } where
  awaitsFirstTag := quiet.awaitsFirstTag.trans ready.awaitsFirstTag
  vocabulary := quiet.context.vocabulary.trans ready.vocabulary
  around := congrArg (tag.construct :: ·) ready.around
  depth := (congrArg List.length quiet.openNodes).trans ready.depth
  first := quiet.context.size.trans ready.first
  bounded id member := by
    rw [quiet.context.size]
    exact ready.bounded id (quiet.openNodes ▸ member)

/-- A tag and its content inside an open node, where the content grows the tree by its outline. -/
theorem grows_of_tag {name : String} (inner : Content) (inside : before.openNodes ≠ [])
    (openedTag : before.stepOpening name attributes = .ok opened)
    (grown : ∀ {around depth first}, Ready vocabulary around depth first opened →
      opened.openNodes ≠ [] → Grows (inner.outline vocabulary around depth first) opened middle ∧
        middle.openTags = opened.openTags)
    (closed : middle.stepClosing = .ok after) (rest : Content) :
    ∃ outline, Grows outline before after ∧ after.openTags = before.openTags ∧
      (Content.tag name attributes inner rest).outline vocabulary around depth first =
        outline.append (rest.outline vocabulary around depth (first + outline.count)) := by
  obtain ⟨within, rfl, ⟨makes, opens⟩ | ⟨passes, notSchema, quiet⟩⟩ :=
    ready.cases_of_stepOpening openedTag
  · obtain ⟨grown, tags⟩ := grown (ready.of_opens opens _) (by
      show within.openNodes ≠ []
      rw [opens.openNodes]
      exact List.cons_ne_nil _ _)
    rw [makes] at grown tags
    have isNode : (vocabulary.classify name).MakesNode := makesNode_of_opensNode makes
    refine ⟨_, grows_of_stepClosing opens isNode inside ready.bounded grown tags closed,
      openTags_of_stepClosing tags (fun _ => isNode) closed, ?_⟩
    have number : before.context.arena.nextId = ⟨first⟩ := congrArg NodeId.mk ready.first
    rw [number, ready.depth]
    rw [Content.outline_tag, if_pos makes]
    have next : ∀ count, first + 1 + count = first + (count + 1 + 0) := fun count => by omega
    rw [next]
    rfl
  · obtain ⟨grown, tags⟩ := grown (ready.of_quiet quiet _) (by
      show within.openNodes ≠ []
      rw [quiet.openNodes]
      exact inside)
    rw [passes] at grown tags
    have openingPart := (Grows.of_quiet quiet).retag before.openTags
      (⟨vocabulary.classify name, name, false⟩ :: before.openTags)
    have closing : Quiet { middle with openTags := before.openTags } after :=
      quiet_of_stepClosing tags rfl notSchema closed
    have closingPart := (Grows.of_quiet closing).retag middle.openTags after.openTags
    have bounded : ∀ id ∈ before.openNodes, id.index < before.context.arena.size := ready.bounded
    have whole := (openingPart.trans grown bounded).trans closingPart bounded
    rw [Outline.append_nothing] at whole
    refine ⟨_, whole, closing.openTags, ?_⟩
    rw [Content.outline_tag, if_neg (by rw [passes]; decide)]
    rfl

end Ready

/-- Inside an open node, content grows the tree by its outline. -/
theorem grows_of_spelled {vocabulary : Vocabulary} {content : Content} {events : List Xml.Event}
    (spelled : content.Spelled events) {around : List Construct} {depth first : Nat}
    (ready : Ready vocabulary around depth first before) (inside : before.openNodes ≠ [])
    (completed : events.foldlM step before = .ok after) :
    Grows (content.outline vocabulary around depth first) before after ∧
      after.openTags = before.openTags := by
  induction spelled generalizing around depth first before after with
  | nothing =>
      cases foldlM_nil_eq_ok_iff.1 completed
      exact ⟨.of_quiet (.refl before), rfl⟩
  | text text rest inductionHypothesis =>
      obtain ⟨next, taken, later⟩ := foldlM_cons_eq_ok_iff.1 completed
      cases taken
      have quiet := quiet_stepText before text
      have grown := Grows.of_quiet quiet
      have nextReady : Ready vocabulary around depth first (before.stepText text) :=
        ready.of_grows grown quiet.openTags
      obtain ⟨rest, tags⟩ := inductionHypothesis nextReady (quiet.openNodes ▸ inside) later
      exact ⟨grown.trans rest ready.bounded, tags.trans quiet.openTags⟩
  | @empty remaining events name attributes rest inductionHypothesis =>
      obtain ⟨next, taken, later⟩ := foldlM_cons_eq_ok_iff.1 completed
      obtain ⟨opened, openedTag, closedTag⟩ := exists_opened_of_step_empty taken
      obtain ⟨outline, grown, tags, whole⟩ := grows_of_tag ready .nothing inside
        openedTag (fun _ _ => ⟨.of_quiet (.refl opened), rfl⟩) closedTag remaining
      obtain ⟨rest, restTags⟩ :=
        inductionHypothesis (ready.of_grows grown tags) (grown.openNodes ▸ inside) later
      rw [whole]
      exact ⟨grown.trans rest ready.bounded, restTags.trans tags⟩
  | @tag inner remaining within events name attributes inner rest innerHypothesis
      inductionHypothesis =>
      obtain ⟨opened, openedTag, later⟩ := foldlM_cons_eq_ok_iff.1 completed
      obtain ⟨middle, grownInside, later⟩ := foldlM_append_eq_ok_iff.1 later
      obtain ⟨next, closedTag, later⟩ := foldlM_cons_eq_ok_iff.1 later
      obtain ⟨outline, grown, tags, whole⟩ := grows_of_tag ready _ inside openedTag
        (fun ready inside => innerHypothesis ready inside grownInside) closedTag remaining
      obtain ⟨rest, restTags⟩ :=
        inductionHypothesis (ready.of_grows grown tags) (grown.openNodes ▸ inside) later
      rw [whole]
      exact ⟨grown.trans rest ready.bounded, restTags.trans tags⟩

end Assembly

end XmlSchema
