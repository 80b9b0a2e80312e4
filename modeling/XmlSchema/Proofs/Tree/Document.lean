import XmlSchema.Proofs.FlatTrees
import XmlSchema.Proofs.Tree.Growth

/-!
# A document and its tree

Reading makes the tree that the outline of the document's content describes: each node reached from
the root has the linked nodes right inside it as its children, `children_of_run`. Outside any node a
schema ends as the root, and a node that stays open keeps later schemas from closing:
`settles_of_spelled`.
-/

namespace XmlSchema

/-! ## Content outside any node -/

/-- The tree of a schema is as an outline says, with the nodes numbered in a row. -/
structure Context.Stands (context : Context) (root : NodeId) (below : Outline) : Prop where
  schema : context.Holds root .schema below
  inside : ∀ id construct deeper, below.Has id construct deeper →
    root.index < id.index ∧ id.index ≤ root.index + below.count ∧
      context.Holds id construct deeper

theorem Context.Stands.of_treePart? {before after : Context} {root : NodeId} {below : Outline}
    (stands : before.Stands root below)
    (same : ∀ id : NodeId, id.index ≤ root.index + below.count →
      after.treePart? id = before.treePart? id) : after.Stands root below where
  schema := stands.schema.of_treePart? (same root (Nat.le_add_right _ _))
  inside id construct deeper has := by
    obtain ⟨lower, upper, holds⟩ := stands.inside id construct deeper has
    exact ⟨lower, upper, holds.of_treePart? (same id upper)⟩

namespace Assembly

variable {before between middle opened after : Assembly} {attributes : Xml.Attributes}
  {outline early late : Outline}

/-- What an assembly without open nodes becomes when content outside any node has been taken. The
root is the last schema that has closed. A node that stays open is younger than it. -/
structure Settles (outline : Outline) (before after : Assembly) : Prop where
  awaitsFirstTag : after.awaitsFirstTag = before.awaitsFirstTag
  vocabulary : after.context.vocabulary = before.context.vocabulary
  size_le : before.context.arena.size ≤ after.context.arena.size
  size : after.openNodes = [] →
    after.context.arena.size = before.context.arena.size + outline.count
  bounded : ∀ id ∈ after.openNodes,
    before.context.arena.size ≤ id.index ∧ id.index < after.context.arena.size
  old : ∀ id : NodeId, id.index < before.context.arena.size →
    after.context.treePart? id = before.context.treePart? id
  root? : after.root? = before.root? ∨ ∃ root below, after.root? = some root ∧
    outline.Has root .schema below ∧ after.context.Stands root below ∧
    before.context.arena.size ≤ root.index ∧
    root.index + below.count < after.context.arena.size ∧
    ∀ id ∈ after.openNodes, root.index + below.count < id.index

namespace Settles

theorem of_quiet (quiet : Quiet before after) (outside : before.openNodes = []) :
    Settles .nothing before after where
  awaitsFirstTag := quiet.awaitsFirstTag
  vocabulary := quiet.context.vocabulary
  size_le := Nat.le_of_eq quiet.context.size.symm
  size _ := quiet.context.size
  bounded id member := by
    rw [quiet.openNodes, outside] at member
    cases member
  old id _ := quiet.treePart? id
  root? := .inl quiet.root?

theorem retag (settled : Settles outline before after) (earlier later : List OpenTag) :
    Settles outline { before with openTags := earlier } { after with openTags := later } where
  awaitsFirstTag := settled.awaitsFirstTag
  vocabulary := settled.vocabulary
  size_le := settled.size_le
  size := settled.size
  bounded := settled.bounded
  old := settled.old
  root? := settled.root?

theorem trans (first : Settles early before between) (outside : between.openNodes = [])
    (second : Settles late between after) : Settles (early.append late) before after := by
  have sizeBetween := first.size outside
  have sizeAfter := second.size_le
  refine ⟨second.awaitsFirstTag.trans first.awaitsFirstTag,
    second.vocabulary.trans first.vocabulary, by omega, ?_, ?_, ?_, ?_⟩
  · intro closed
    rw [second.size closed, sizeBetween, Outline.count_append, Nat.add_assoc]
  · intro id member
    have bounds := second.bounded id member
    omega
  · intro id older
    rw [second.old id (by omega), first.old id older]
  · rcases second.root? with same | ⟨root, below, isRoot, has, stands, lower, upper, younger⟩
    · rcases first.root? with unchanged | ⟨root, below, isRoot, has, stands, lower, upper, -⟩
      · exact .inl (same.trans unchanged)
      · refine .inr ⟨root, below, same.trans isRoot, Outline.has_append.2 (.inl has),
          stands.of_treePart? fun id bound => second.old id (by omega), lower, by omega, ?_⟩
        intro id member
        have bounds := second.bounded id member
        omega
    · exact .inr ⟨root, below, isRoot, Outline.has_append.2 (.inr has), stands, by omega, upper,
        younger⟩

/-- Once a node stays open, what follows stands inside it, and the root stays as it is. -/
theorem then_grows (first : Settles early before between) (inside : between.openNodes ≠ [])
    (second : Grows outline between after) (late : Outline) :
    Settles (early.append late) before after := by
  have size := second.size
  have sizeBetween := first.size_le
  have notTop : ∀ id : NodeId, (∀ other ∈ between.openNodes, id.index < other.index) →
      between.top? ≠ some id := by
    intro id older isTop
    exact Nat.lt_irrefl _ (older id (List.mem_of_mem_head? isTop))
  refine ⟨second.awaitsFirstTag.trans first.awaitsFirstTag,
    second.vocabulary.trans first.vocabulary, by omega, ?_, ?_, ?_, ?_⟩
  · intro closed
    exact absurd (second.openNodes ▸ closed) inside
  · intro id member
    have bounds := first.bounded id (second.openNodes ▸ member)
    omega
  · intro id older
    rw [second.others id (by omega) (notTop id fun other member => by
      have bounds := first.bounded other member
      omega), first.old id older]
  · rcases first.root? with unchanged | ⟨root, below, isRoot, has, stands, lower, upper, younger⟩
    · exact .inl (second.root?.trans unchanged)
    · refine .inr ⟨root, below, second.root?.trans isRoot, Outline.has_append.2 (.inl has),
        stands.of_treePart? fun id bound => ?_, lower, by omega, ?_⟩
      · refine second.others id (by omega) (notTop id fun other member => ?_)
        have bounds := younger other member
        omega
      · exact fun id member => younger id (second.openNodes ▸ member)

end Settles

/-- The closing of a tag that has opened a node outside any node. -/
theorem settles_of_stepClosing {construct : Construct} {within : Assembly} {below : Outline}
    {name : String} (outside : before.openNodes = [])
    (opens : Opens construct attributes before within) (makes : construct.MakesNode)
    (grown : Grows below
      { within with openTags := ⟨construct, name, true⟩ :: before.openTags } middle)
    (tags : middle.openTags = ⟨construct, name, true⟩ :: before.openTags)
    (closed : middle.stepClosing = .ok after) (linked : Bool) :
    Settles (.node before.context.arena.nextId construct linked below .nothing) before after := by
  have openNodes : middle.openNodes = [before.context.arena.nextId] := by
    rw [grown.openNodes, ← outside]
    exact opens.openNodes
  have size := size_of_opens opens grown
  have count : (Outline.node before.context.arena.nextId construct linked below .nothing).count =
      below.count + 1 + 0 := rfl
  have awaitsFirstTag := grown.awaitsFirstTag.trans opens.awaitsFirstTag
  have vocabulary := grown.vocabulary.trans opens.vocabulary
  have root? : middle.root? = before.root? := grown.root?.trans opens.root?
  obtain ⟨tag, outer, opened, outcome⟩ := cases_of_stepClosing closed
  obtain ⟨rfl, rfl⟩ := List.cons.inj (tags.symm.trans opened)
  rcases outcome with ⟨isSchema, root, single, rfl⟩ | ⟨notSchema, isClosed⟩
  · obtain rfl : before.context.arena.nextId = root := List.singleton_inj.1 (openNodes ▸ single)
    refine ⟨awaitsFirstTag, vocabulary, ?_, fun _ => ?_, fun _ member => absurd member
      List.not_mem_nil, fun id older => treePart?_of_opens opens grown older, .inr ?_⟩
    · show _ ≤ middle.context.arena.size
      omega
    · show middle.context.arena.size = _
      omega
    · have isSchema : construct = .schema := isSchema
      have root := holds_of_opens opens grown
      rw [isSchema] at root
      refine ⟨_, below, rfl, .inl ⟨rfl, isSchema.symm, rfl⟩, ⟨root, ?_⟩, Nat.le_refl _, ?_,
        fun _ member => absurd member List.not_mem_nil⟩
      · intro id made deeper has
        obtain ⟨lower, upper, holds⟩ := grown.made id made deeper has
        have younger : within.context.arena.size ≤ id.index := lower
        have sizeWithin := opens.size
        refine ⟨?_, ?_, holds⟩
        · show before.context.arena.size < id.index
          omega
        · show id.index ≤ before.context.arena.size + below.count
          omega
      · show before.context.arena.size + below.count < middle.context.arena.size
        omega
  · have effect : ClosingEffect ⟨construct, name, true⟩
        { middle with openTags := before.openTags } after := by
      rw [isClosed]
      exact effect_closeTag notSchema fun _ => makes
    -- The node is dropped or stays open; there is none around it to which it could be linked.
    cases effect with
    | passes _ quiet =>
        have sizeAfter : after.context.arena.size = middle.context.arena.size := quiet.context.size
        have stays : after.openNodes = [before.context.arena.nextId] :=
          quiet.openNodes.trans openNodes
        refine ⟨quiet.awaitsFirstTag.trans awaitsFirstTag,
          quiet.context.vocabulary.trans vocabulary, by omega, fun empty => ?_, fun id member => ?_,
          fun id older => ?_, .inl (quiet.root?.trans root?)⟩
        · rw [stays] at empty
          cases empty
        · rw [stays] at member
          rw [List.mem_singleton.1 member]
          refine ⟨Nat.le_refl _, ?_⟩
          show before.context.arena.size < _
          omega
        · exact (quiet.treePart? id).trans (treePart?_of_opens opens grown older)
    | drops _ _ quiet =>
        have sizeAfter : after.context.arena.size = middle.context.arena.size := quiet.context.size
        have dropped : after.openNodes = [] := by
          rw [quiet.openNodes]
          show middle.openNodes.tail = []
          rw [openNodes]
          rfl
        refine ⟨quiet.awaitsFirstTag.trans awaitsFirstTag,
          quiet.context.vocabulary.trans vocabulary, by omega, fun _ => by omega,
          fun id member => ?_, fun id older => ?_, .inl (quiet.root?.trans root?)⟩
        · rw [dropped] at member
          cases member
        · exact (quiet.treePart? id).trans (treePart?_of_opens opens grown older)
    | links _ _ open_eq =>
        have stack : middle.openNodes = _ :: _ :: _ := open_eq
        rw [openNodes] at stack
        cases stack

/-- An assembly with an open node, whatever is around it, is between tags. -/
theorem ready_of_bounded {vocabulary : Vocabulary} (awaits : before.awaitsFirstTag = false)
    (same : before.context.vocabulary = vocabulary)
    (bounded : ∀ id ∈ before.openNodes, id.index < before.context.arena.size) :
    Ready vocabulary before.around before.depth before.context.arena.size before :=
  ⟨awaits, same, rfl, rfl, rfl, bounded⟩

section Outside

variable {vocabulary : Vocabulary} {around : List Construct} {first : Nat}
  (ready : Ready vocabulary around 0 first before)

include ready

/-- A tag and its content outside any node. -/
theorem settles_of_tag {name : String} (inner : Content) (outside : before.openNodes = [])
    (openedTag : before.stepOpening name attributes = .ok opened)
    (grown : ∀ {around depth first}, Ready vocabulary around depth first opened →
      opened.openNodes ≠ [] → Grows (inner.outline vocabulary around depth first) opened middle ∧
        middle.openTags = opened.openTags)
    (settled : ∀ {around first}, Ready vocabulary around 0 first opened →
      opened.openNodes = [] → Settles (inner.outline vocabulary around 0 first) opened middle ∧
        middle.openTags = opened.openTags)
    (closed : middle.stepClosing = .ok after) (rest : Content) :
    ∃ outline, Settles outline before after ∧ after.openTags = before.openTags ∧
      (Content.tag name attributes inner rest).outline vocabulary around 0 first =
        outline.append (rest.outline vocabulary around 0 (first + outline.count)) := by
  obtain ⟨within, rfl, ⟨makes, opens⟩ | ⟨passes, notSchema, quiet⟩⟩ :=
    ready.cases_of_stepOpening openedTag
  · obtain ⟨grown, tags⟩ := grown (ready.of_opens opens _) (by
      show within.openNodes ≠ []
      rw [opens.openNodes]
      exact List.cons_ne_nil _ _)
    rw [makes] at grown tags
    have isNode : (vocabulary.classify name).MakesNode := makesNode_of_opensNode makes
    refine ⟨_, settles_of_stepClosing outside opens isNode grown tags closed
      ((vocabulary.classify name).linksNode attributes 0),
      openTags_of_stepClosing tags (fun _ => isNode) closed, ?_⟩
    have number : before.context.arena.nextId = ⟨first⟩ := congrArg NodeId.mk ready.first
    rw [number, Content.outline_tag, if_pos makes]
    have next : ∀ count, first + 1 + count = first + (count + 1 + 0) := fun count => by omega
    rw [next]
    rfl
  · obtain ⟨settled, tags⟩ := settled (ready.of_quiet quiet _) (by
      show within.openNodes = []
      rw [quiet.openNodes]
      exact outside)
    rw [passes] at settled tags
    have openingPart := (Settles.of_quiet quiet outside).retag before.openTags
      (⟨vocabulary.classify name, name, false⟩ :: before.openTags)
    have inside := openingPart.trans (quiet.openNodes.trans outside) settled
    have closing : Quiet { middle with openTags := before.openTags } after :=
      quiet_of_stepClosing tags rfl notSchema closed
    refine ⟨inner.outline vocabulary (vocabulary.classify name :: around) 0 first, ?_,
      closing.openTags, ?_⟩
    · by_cases none : middle.openNodes = []
      · have closingPart := (Settles.of_quiet closing none).retag middle.openTags after.openTags
        have whole := inside.trans none closingPart
        rw [Outline.append_nothing] at whole
        exact whole
      · have closingPart := (Grows.of_quiet closing).retag middle.openTags after.openTags
        have whole := inside.then_grows none closingPart .nothing
        rw [Outline.append_nothing] at whole
        exact whole
    · rw [Content.outline_tag, if_neg (by rw [passes]; decide)]

/-- The rest of a row is outside any node or inside one that has stayed open. -/
theorem settles_of_rest {rest : Content} {events : List Xml.Event}
    (settled : Settles outline before between) (tags : between.openTags = before.openTags)
    (spelled : rest.Spelled events) (completed : events.foldlM step between = .ok after)
    (settles : Ready vocabulary around 0 (first + outline.count) between → between.openNodes = [] →
      Settles (rest.outline vocabulary around 0 (first + outline.count)) between after ∧
        after.openTags = between.openTags) :
    Settles (outline.append (rest.outline vocabulary around 0 (first + outline.count))) before
        after ∧
      after.openTags = before.openTags := by
  have awaits := settled.awaitsFirstTag.trans ready.awaitsFirstTag
  have same := settled.vocabulary.trans ready.vocabulary
  by_cases none : between.openNodes = []
  · have restReady : Ready vocabulary around 0 (first + outline.count) between := by
      refine ⟨awaits, same, (congrArg (List.map OpenTag.construct) tags).trans ready.around,
        congrArg List.length none, ?_, fun id member => (settled.bounded id member).2⟩
      rw [settled.size none, ready.first]
    obtain ⟨rest, restTags⟩ := settles restReady none
    exact ⟨settled.trans none rest, restTags.trans tags⟩
  · have restReady := ready_of_bounded awaits same fun id member => (settled.bounded id member).2
    obtain ⟨grown, restTags⟩ := grows_of_spelled spelled restReady none completed
    exact ⟨settled.then_grows none grown _, restTags.trans tags⟩

end Outside

/-- Outside any node, content that is taken settles which schema is the root. -/
theorem settles_of_spelled {vocabulary : Vocabulary} {content : Content} {events : List Xml.Event}
    (spelled : content.Spelled events) {around : List Construct} {first : Nat}
    (ready : Ready vocabulary around 0 first before) (outside : before.openNodes = [])
    (completed : events.foldlM step before = .ok after) :
    Settles (content.outline vocabulary around 0 first) before after ∧
      after.openTags = before.openTags := by
  induction spelled generalizing around first before after with
  | nothing =>
      cases foldlM_nil_eq_ok_iff.1 completed
      exact ⟨.of_quiet (.refl before) outside, rfl⟩
  | text text spelled inductionHypothesis =>
      obtain ⟨next, taken, later⟩ := foldlM_cons_eq_ok_iff.1 completed
      cases taken
      have quiet := quiet_stepText before text
      have settled := Settles.of_quiet quiet outside
      exact settles_of_rest ready settled quiet.openTags spelled later fun ready outside =>
        inductionHypothesis ready outside later
  | @empty remaining events name attributes spelled inductionHypothesis =>
      obtain ⟨next, taken, later⟩ := foldlM_cons_eq_ok_iff.1 completed
      obtain ⟨opened, openedTag, closedTag⟩ := exists_opened_of_step_empty taken
      obtain ⟨outline, settled, tags, whole⟩ := settles_of_tag ready .nothing outside
        openedTag (fun _ _ => ⟨.of_quiet (.refl opened), rfl⟩)
        (fun _ outside => ⟨.of_quiet (.refl opened) outside, rfl⟩) closedTag remaining
      rw [whole]
      exact settles_of_rest ready settled tags spelled later fun ready outside =>
        inductionHypothesis ready outside later
  | @tag inner remaining within events name attributes innerSpelled spelled innerHypothesis
      inductionHypothesis =>
      obtain ⟨opened, openedTag, later⟩ := foldlM_cons_eq_ok_iff.1 completed
      obtain ⟨middle, takenInside, later⟩ := foldlM_append_eq_ok_iff.1 later
      obtain ⟨next, closedTag, later⟩ := foldlM_cons_eq_ok_iff.1 later
      obtain ⟨outline, settled, tags, whole⟩ := settles_of_tag ready _ outside openedTag
        (fun ready inside => grows_of_spelled innerSpelled ready inside takenInside)
        (fun ready outside => innerHypothesis ready outside takenInside) closedTag remaining
      rw [whole]
      exact settles_of_rest ready settled tags spelled later fun ready outside =>
        inductionHypothesis ready outside later

/-! ## Whole documents -/

theorem stepText_of_noTags (noTags : before.openTags = []) (text : String) :
    before.stepText text = before := by
  unfold stepText within
  rw [noTags]
  rfl

theorem adoptQualifier_start (context : Context) (tag : String) (attributes : Xml.Attributes) :
    ((start context).adoptQualifier tag attributes).awaitsFirstTag = false ∧
      ((start context).adoptQualifier tag attributes).openTags = [] ∧
      ((start context).adoptQualifier tag attributes).openNodes = [] ∧
      ((start context).adoptQualifier tag attributes).root? = none ∧
      ((start context).adoptQualifier tag attributes).context.arena = context.arena := by
  have awaits : (start context).awaitsFirstTag = true := rfl
  unfold adoptQualifier
  rw [if_pos awaits]
  dsimp only
  split
  · exact ⟨rfl, rfl, rfl, rfl, rfl⟩
  · exact ⟨rfl, rfl, rfl, rfl, rfl⟩

theorem stepOpening_of_adopted {tag : String} {attributes : Xml.Attributes}
    (adopted : (before.adoptQualifier tag attributes).awaitsFirstTag = false) :
    (before.adoptQualifier tag attributes).stepOpening tag attributes =
      before.stepOpening tag attributes := by
  have again : (before.adoptQualifier tag attributes).adoptQualifier tag attributes =
      before.adoptQualifier tag attributes := adoptQualifier_of_adopted adopted tag attributes
  unfold stepOpening
  rw [again]

/-- The steps of a document with a root could as well begin after the first tag has decided about
the vocabulary. -/
theorem exists_adopted {context : Context} {events : List Xml.Event}
    (completed : events.foldlM step (start context) = .ok after) (rooted : after.root?.isSome) :
    ∃ adopted : Assembly, (adopted.awaitsFirstTag = false ∧ adopted.openTags = [] ∧
      adopted.openNodes = [] ∧ adopted.root? = none ∧ adopted.context.arena = context.arena) ∧
      events.foldlM step adopted = .ok after := by
  induction events with
  | nil =>
      cases foldlM_nil_eq_ok_iff.1 completed
      cases rooted
  | cons event rest inductionHypothesis =>
      obtain ⟨next, taken, later⟩ := foldlM_cons_eq_ok_iff.1 completed
      cases event with
      | text text =>
          rw [step, stepText_of_noTags rfl] at taken
          cases taken
          obtain ⟨adopted, facts, later⟩ := inductionHypothesis later
          refine ⟨adopted, facts, foldlM_cons_eq_ok_iff.2 ⟨adopted, ?_, later⟩⟩
          rw [step, stepText_of_noTags facts.2.1]
      | closing => cases taken
      | opening tag attributes =>
          have facts := adoptQualifier_start context tag attributes
          refine ⟨_, facts, foldlM_cons_eq_ok_iff.2 ⟨next, ?_, later⟩⟩
          rw [← taken, step, step, stepOpening_of_adopted facts.1]
      | empty tag attributes =>
          have facts := adoptQualifier_start context tag attributes
          refine ⟨_, facts, foldlM_cons_eq_ok_iff.2 ⟨next, ?_, later⟩⟩
          rw [← taken, step, step, stepOpening_of_adopted facts.1]

theorem finish_eq_ok {document : Bytes} {root : NodeId}
    (finished : before.finish document = .ok root) :
    before.openTags = [] ∧ before.root? = some root := by
  unfold finish at finished
  split at finished
  · rename_i noTags
    split at finished
    · rename_i isRoot
      cases finished
      exact ⟨List.isEmpty_iff.1 noTags, isRoot⟩
    · cases finished
  · cases finished

/-- The tree of the schema in which a document ends is as the outline of its content says. -/
theorem exists_stands {options : Options} {content : Content} {events : List Xml.Event}
    {root : NodeId} (spelled : content.Spelled events)
    (completed : events.foldlM step (start (.initial options)) = .ok after)
    (rooted : after.root? = some root) :
    ∃ below, (content.outline after.context.vocabulary [] 0 0).Has root .schema below ∧
      after.context.Stands root below := by
  obtain ⟨adopted, ⟨awaits, noTags, noNodes, noRoot, sameArena⟩, completed⟩ :=
    exists_adopted completed (rooted ▸ rfl)
  have ready : Ready adopted.context.vocabulary [] 0 0 adopted := by
    refine ⟨awaits, rfl, ?_, congrArg List.length noNodes, congrArg Arena.size sameArena,
      fun id member => ?_⟩
    · unfold around
      rw [noTags]
      rfl
    · rw [noNodes] at member
      cases member
  obtain ⟨settled, -⟩ := settles_of_spelled spelled ready noNodes completed
  rw [settled.vocabulary]
  rcases settled.root? with unchanged | ⟨other, below, isRoot, has, stands, -⟩
  · rw [rooted, noRoot] at unchanged
    cases unchanged
  · cases rooted.symm.trans isRoot
    exact ⟨below, has, stands⟩

end Assembly

/-- Events that are taken to the end spell some content, and each node reached from the root is in
the outline of that content, once. Its children are the linked nodes right inside it, in document
order and each once, and it is the only parent of each of them and older. -/
theorem children_of_run {options : Options} {document : Bytes}
    {events : List (Xml.Located Xml.Event)} {assembly : Assembly} {root : NodeId}
    (completed : (Assembly.start (.initial options)).run document events = .ok assembly)
    (finished : assembly.finish document = .ok root) :
    (∃ content, Content.Spelled content (events.map Xml.Located.value)) ∧
      ∀ content, Content.Spelled content (events.map Xml.Located.value) →
        ∀ id, assembly.context.arena.Reaches root id → ∃ element construct below,
          assembly.context.element? id = some element ∧
          (content.outline assembly.context.vocabulary [] 0 0).Has id construct below ∧
          (∀ made deeper,
            (content.outline assembly.context.vocabulary [] 0 0).Has id made deeper →
              made = construct ∧ deeper = below) ∧
          (id = root → construct = .schema) ∧ construct.kind? = some element.kind ∧
          element.children = below.links ∧ element.children.Nodup ∧
          ∀ child ∈ element.children, id.index < child.index ∧
            ∀ other, child ∈ assembly.context.children other → other = id := by
  obtain ⟨noTags, rooted⟩ := Assembly.finish_eq_ok finished
  have sound := Assembly.sound_run (Assembly.sound_start options) completed
  have branching := (Assembly.branching_run completed).context
  have taken := Assembly.foldlM_step_of_run completed
  refine ⟨Assembly.exists_spelled (Assembly.sound_start options) rfl taken noTags, ?_⟩
  intro content spelled
  obtain ⟨top, hasRoot, stands⟩ := Assembly.exists_stands spelled taken rooted
  intro id reached
  -- A reached node is the root or inside it, and what is there stands as the outline says.
  have placed : ∃ element construct below, assembly.context.element? id = some element ∧
      ((id = root ∧ construct = .schema ∧ below = top) ∨
        (root.index < id.index ∧ top.Has id construct below)) ∧
      construct.kind? = some element.kind ∧ element.children = below.links := by
    induction reached with
    | root =>
        have holds := stands.schema
        obtain ⟨part, found, -⟩ := Option.map_eq_some_iff.1 holds
        obtain ⟨element, present, -⟩ := Option.map_eq_some_iff.1 found
        obtain ⟨kind, children⟩ := holds.of_element? present
        exact ⟨element, .schema, top, present, .inl ⟨rfl, rfl, rfl⟩, kind, children⟩
    | @child parent child parentElement reached found member inductionHypothesis =>
        obtain ⟨element, construct, below, present, place, -, children⟩ := inductionHypothesis
        cases found.symm.trans present
        rw [children] at member
        obtain ⟨made, deeper, hasChild⟩ := Outline.exists_has_of_mem_links member
        have inTop : top.Has child made deeper := by
          rcases place with ⟨-, -, rfl⟩ | ⟨-, place⟩
          · exact hasChild
          · exact place.trans hasChild
        obtain ⟨childElement, childPresent, -⟩ :=
          sound.context.children found child (children ▸ member)
        obtain ⟨later, -, holds⟩ := stands.inside child made deeper inTop
        obtain ⟨kind, children⟩ := holds.of_element? childPresent
        exact ⟨childElement, made, deeper, childPresent, .inr ⟨later, inTop⟩, kind, children⟩
  obtain ⟨element, construct, below, present, place, kind, children⟩ := placed
  have has : (content.outline assembly.context.vocabulary [] 0 0).Has id construct below := by
    rcases place with ⟨rfl, rfl, rfl⟩ | ⟨-, inside⟩
    · exact hasRoot
    · exact hasRoot.trans inside
  have isSchema : id = root → construct = .schema := by
    rintro rfl
    rcases place with ⟨-, isSchema, -⟩ | ⟨later, -⟩
    · exact isSchema
    · exact absurd later (Nat.lt_irrefl _)
  have same := Context.children_of_element? present
  refine ⟨element, construct, below, present, has, fun made deeper again =>
    Content.eq_of_has again has, isSchema, kind, children, same ▸ branching.nodup id,
    fun child member => ?_⟩
  rw [← same] at member
  exact ⟨branching.later member, fun other inOther => branching.unique inOther member⟩

/-- A group, and a type with a reference to it and an element. -/
def groupReferenceSchema : Bytes :=
  schemaDocument [
    "<s:group name='G'><s:element name='a'/></s:group>",
    "<s:complexType name='T'><s:sequence><s:group ref='G'/><s:element name='b'/></s:sequence>",
    "</s:complexType>"]

/-- The reference to a group inside a type is a child, and the definition of the group is none. -/
theorem children_of_run_group :
    ∃ (document : Bytes) (events : List (Xml.Located Xml.Event)) (assembly : Assembly)
      (root type reference member : NodeId) (content : Content) (element : Element)
      (construct : Construct) (below : Outline),
      document = groupReferenceSchema ∧
      (Assembly.start (.initial .standard)).run document events = .ok assembly ∧
      assembly.finish document = .ok root ∧
      Content.Spelled content (events.map Xml.Located.value) ∧
      assembly.context.arena.Reaches root type ∧ assembly.context.element? type = some element ∧
      (content.outline assembly.context.vocabulary [] 0 0).Has type construct below ∧
      element.children = below.links ∧ below.links = [reference, member] ∧
      assembly.context.groupReference? reference = some "G" ∧
      assembly.context.children root = [type] := by
  have computed : readsTree .standard groupReferenceSchema (fun context root =>
      (context.children root).any fun type => decide (type ∈ context.walk root ∧
        context.children root = [type] ∧ ∃ reference ∈ context.children type,
          ∃ member ∈ context.children type, context.children type = [reference, member] ∧
            context.groupReference? reference = some "G")) = true := by
    decide +kernel
  obtain ⟨context, root, read, checked⟩ := exists_of_readsTree computed
  obtain ⟨type, -, facts⟩ := List.any_eq_true.1 checked
  obtain ⟨inWalk, outer, reference, -, member, -, inner, refers⟩ := of_decide_eq_true facts
  obtain ⟨assembly, completed, finished, rfl⟩ := exists_run_of_readTree read
  have reached := (Arena.mem_walk_iff.1 inWalk).1
  obtain ⟨⟨content, spelled⟩, all⟩ := children_of_run completed finished
  obtain ⟨element, construct, below, present, has, -, -, -, children, -⟩ :=
    all content spelled type reached
  have linked : element.children = [reference, member] :=
    (Context.children_of_element? present).symm.trans inner
  exact ⟨_, _, assembly, root, type, reference, member, content, element, construct, below, rfl,
    completed, finished, spelled, reached, present, has, children, children ▸ linked, refers, outer⟩

end XmlSchema
