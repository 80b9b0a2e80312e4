import XmlSchema.Proofs.Occurrence.Compositors
import XmlSchema.Proofs.Tree.InlineTypes

/-!
# The tags around a place

`Assembly.trace` takes events and keeps account of the tags around, each with the node that it has
made. The stacks of the assembly agree with this account but for a node that has been left open
outside all tags, `Enclosed`. A schema closes only as the only open node. So in a document that is
read to its end no node is left over where a schema is around: `Enclosed.accounted`.
-/

namespace XmlSchema

/-- A tag around others, with the node that it has made if it has made one. -/
structure Enclosure where
  name : String
  attributes : Xml.Attributes
  node? : Option NodeId

namespace Enclosure

variable (vocabulary : Vocabulary) (enclosure : Enclosure)

def construct : Construct := vocabulary.classify enclosure.name

/-- The tag as the stack of open tags has it. -/
def openTag : OpenTag := ⟨enclosure.construct vocabulary, enclosure.name, enclosure.node?.isSome⟩

/-- The tag as the document has it. -/
def tag : String × Xml.Attributes := (enclosure.name, enclosure.attributes)

/-- Whether each tag has made a node just if its construct does so in its place: below the tags
outside it, and below as many nodes as these have made. -/
def OpenNodes (around : List Enclosure) : Prop :=
  ∀ tag outer, tag :: outer <:+ around →
    tag.node?.isSome = (tag.construct vocabulary).opensNode tag.attributes
      (outer.map (·.construct vocabulary)) (outer.filterMap Enclosure.node?).length

end Enclosure

/-- The tags around what comes behind an event, the innermost first. -/
def Xml.Event.enclose (made? : Option NodeId) (around : List Enclosure) :
    Xml.Event → List Enclosure
  | .opening name attributes => ⟨name, attributes, made?⟩ :: around
  | .closing => around.tail
  | .empty _ _ | .text _ => around

namespace Assembly

/-- The node that an event has made and left open. -/
def madeNode? (before after : Assembly) : Option NodeId :=
  if before.depth < after.depth then some before.context.arena.nextId else none

/-- Takes an event and keeps account of the tags around. -/
def traceStep (state : Assembly × List Enclosure) (event : Xml.Event) :
    Except (Halt Refusal) (Assembly × List Enclosure) :=
  (state.1.step event).map fun after => (after, event.enclose (madeNode? state.1 after) state.2)

/-- Takes events from the start and keeps account of the tags around. -/
def trace (context : Context) (events : List Xml.Event) :
    Except (Halt Refusal) (Assembly × List Enclosure) :=
  events.foldlM traceStep (start context, [])

variable {context : Context} {assembly before opened after final : Assembly}
  {around later : List Enclosure} {events : List Xml.Event} {event : Xml.Event} {name : String}
  {attributes : Xml.Attributes} {vocabulary : Vocabulary}

/-! ## Traces -/

theorem traceStep_eq_ok_iff :
    traceStep (before, around) event = .ok (after, later) ↔
      before.step event = .ok after ∧ later = event.enclose (madeNode? before after) around := by
  unfold traceStep
  rw [map_eq_ok_iff]
  constructor
  · rintro ⟨next, taken, same⟩
    cases same
    exact ⟨taken, rfl⟩
  · rintro ⟨taken, rfl⟩
    exact ⟨after, taken, rfl⟩

/-- The account changes nothing about what is taken. -/
theorem foldlM_step_of_trace (traced : trace context events = .ok (after, around)) :
    events.foldlM step (start context) = .ok after := by
  refine foldlM_image Prod.fst (fun {state item next} taken => ?_) traced
  obtain ⟨assembly, enclosures⟩ := state
  obtain ⟨reached, others⟩ := next
  exact (traceStep_eq_ok_iff.1 taken).1

/-- Whatever is taken can be traced. -/
theorem exists_trace (completed : events.foldlM step (start context) = .ok after) :
    ∃ around, trace context events = .ok (after, around) := by
  have traces : ∀ (events : List Xml.Event) (assembly : Assembly) (earlier : List Enclosure),
      events.foldlM step assembly = .ok after →
        ∃ around, events.foldlM traceStep (assembly, earlier) = .ok (after, around) := by
    intro events
    induction events with
    | nil =>
        intro assembly earlier completed
        cases foldlM_nil_eq_ok_iff.1 completed
        exact ⟨earlier, rfl⟩
    | cons event rest inductionHypothesis =>
        intro assembly earlier completed
        obtain ⟨next, taken, later⟩ := foldlM_cons_eq_ok_iff.1 completed
        obtain ⟨around, traced⟩ := inductionHypothesis next _ later
        exact ⟨around, foldlM_cons_eq_ok_iff.2 ⟨_, traceStep_eq_ok_iff.2 ⟨taken, rfl⟩, traced⟩⟩
  exact traces events (start context) [] completed

/-- What holds at the start and is kept by each event holds of every trace. A tag without content is
an opening and a closing. -/
theorem trace_induction (Keeps : List Xml.Event → Assembly → List Enclosure → Prop)
    (start : Keeps [] (start context) [])
    (opening : ∀ {events before around name attributes opened},
      trace context events = .ok (before, around) → Keeps events before around →
      before.stepOpening name attributes = .ok opened →
        Keeps (events ++ [.opening name attributes]) opened
          (⟨name, attributes, madeNode? before opened⟩ :: around))
    (closing : ∀ {events before around after},
      trace context events = .ok (before, around) → Keeps events before around →
      before.stepClosing = .ok after → Keeps (events ++ [.closing]) after around.tail)
    (empty : ∀ {events before around name attributes opened after},
      trace context events = .ok (before, around) → Keeps events before around →
      before.stepOpening name attributes = .ok opened → opened.stepClosing = .ok after →
        Keeps (events ++ [.empty name attributes]) after around)
    (text : ∀ {events before around} (content : String),
      trace context events = .ok (before, around) → Keeps events before around →
        Keeps (events ++ [.text content]) (before.stepText content) around)
    (traced : trace context events = .ok (after, around)) : Keeps events after around := by
  induction events using List.reverseRecOn generalizing after around with
  | nil =>
      cases foldlM_nil_eq_ok_iff.1 traced
      exact start
  | append_singleton events event inductionHypothesis =>
      obtain ⟨⟨before, earlier⟩, reached, last⟩ := foldlM_append_eq_ok_iff.1 traced
      obtain ⟨⟨next, enclosures⟩, taken, rest⟩ := foldlM_cons_eq_ok_iff.1 last
      cases foldlM_nil_eq_ok_iff.1 rest
      obtain ⟨step, rfl⟩ := traceStep_eq_ok_iff.1 taken
      have kept := inductionHypothesis reached
      cases event with
      | opening name attributes => exact opening reached kept step
      | closing => exact closing reached kept step
      | empty name attributes =>
          obtain ⟨opened, openedTag, closed⟩ := exists_opened_of_step_empty step
          exact empty reached kept openedTag closed
      | text content =>
          cases step
          exact text content reached kept

/-- The tags around are those that the document has open. -/
theorem map_tag_of_trace (traced : trace context events = .ok (after, around)) :
    around.map Enclosure.tag = Xml.openTags events := by
  refine trace_induction (fun events _ around => around.map Enclosure.tag = Xml.openTags events)
    rfl ?_ ?_ ?_ ?_ traced
  · intro events before around name attributes opened _ named _
    rw [Xml.openTags, List.foldl_append, ← Xml.openTags, ← named]
    rfl
  · intro events before around after _ named _
    rw [Xml.openTags, List.foldl_append, ← Xml.openTags, ← named]
    exact List.map_tail
  · intro events before around name attributes opened after _ named _ _
    rw [Xml.openTags, List.foldl_append, ← Xml.openTags, ← named]
    rfl
  · intro events before around content _ named
    rw [Xml.openTags, List.foldl_append, ← Xml.openTags, ← named]
    rfl

/-! ## The vocabulary -/

/-- What an opening that is taken does to the stacks. -/
structure Enters (name : String) (attributes : Xml.Attributes) (before opened : Assembly) :
    Prop where
  openTags : opened.openTags =
    ⟨opened.context.vocabulary.classify name, name, (madeNode? before opened).isSome⟩ ::
      before.openTags
  openNodes : opened.openNodes = (madeNode? before opened).toList ++ before.openNodes
  awaitsFirstTag : opened.awaitsFirstTag = false
  vocabulary : opened.context.vocabulary =
    (before.adoptQualifier name attributes).context.vocabulary
  opensNode : (madeNode? before opened).isSome =
    (opened.context.vocabulary.classify name).opensNode attributes before.around before.depth

theorem enters_of_stepOpening (taken : before.stepOpening name attributes = .ok opened) :
    Enters name attributes before opened := by
  obtain ⟨construct, within, opensNode, rfl, makes, effect, rfl⟩ :=
    exists_effect_of_stepOpening taken
  obtain ⟨arena, openNodes, openTags, -⟩ := stacks_adoptQualifier before name attributes
  have kept := Adopted.of_effect ⟨awaitsFirstTag_adoptQualifier before name attributes, rfl⟩ effect
  have entered : within.openTags = before.openTags ∧ within.openNodes =
      (if opensNode then some before.context.arena.nextId else none).toList ++ before.openNodes := by
    cases opensNode with
    | true =>
        have opens := Opens.of_effect effect
        refine ⟨opens.openTags.trans openTags, ?_⟩
        rw [opens.openNodes, arena, openNodes]
        rfl
    | false =>
        cases effect with
        | passes _ quiet =>
            exact ⟨quiet.openTags.trans openTags, quiet.openNodes.trans openNodes⟩
  have made : madeNode? before { within with
      openTags := ⟨(before.adoptQualifier name attributes).context.vocabulary.classify name, name,
        opensNode⟩ :: within.openTags } =
      if opensNode then some before.context.arena.nextId else none := by
    unfold madeNode? depth
    rw [entered.2]
    cases opensNode <;> simp
  refine ⟨?_, ?_, kept.awaitsFirstTag, kept.vocabulary, ?_⟩
  · rw [made, ← entered.1, kept.vocabulary]
    cases opensNode <;> rfl
  · rw [made]
    exact entered.2
  · show _ = Construct.opensNode (within.context.vocabulary.classify name) attributes _ _
    unfold Assembly.around depth at makes ⊢
    rw [made, kept.vocabulary, ← openTags, ← openNodes, ← makes]
    cases opensNode <;> rfl

/-! ## The stacks -/

/-- All open nodes have been made by the tags around. -/
def Accounted (assembly : Assembly) (around : List Enclosure) : Prop :=
  assembly.openNodes = around.filterMap Enclosure.node?

/-- The stacks of an assembly are those of the tags around, but for nodes left over. -/
structure Enclosed (assembly : Assembly) (around : List Enclosure) : Prop where
  standing : assembly.Standing
  openTags : assembly.openTags = around.map (·.openTag assembly.context.vocabulary)
  openNodes : ∃ left, assembly.openNodes = around.filterMap Enclosure.node? ++ left
  begins : assembly.awaitsFirstTag = true → around = []
  opensNode : assembly.Accounted around → Enclosure.OpenNodes assembly.context.vocabulary around

namespace Enclosed

theorem start (context : Context) : (start context).Enclosed [] where
  standing := standing_start context
  openTags := rfl
  openNodes := ⟨[], rfl⟩
  begins _ := rfl
  opensNode _ tag outer suffix := by cases List.suffix_nil.1 suffix

/-- Where the vocabulary is only now decided, nothing is around. -/
theorem vocabulary_stepOpening (enclosed : before.Enclosed around)
    (taken : before.stepOpening name attributes = .ok opened) :
    around = [] ∨ opened.context.vocabulary = before.context.vocabulary := by
  cases awaits : before.awaitsFirstTag with
  | true => exact .inl (enclosed.begins awaits)
  | false =>
      rw [(enters_of_stepOpening taken).vocabulary, adoptQualifier_of_adopted awaits]
      exact .inr rfl

theorem accounted_of_stepOpening (taken : before.stepOpening name attributes = .ok opened)
    (accounted : opened.Accounted (⟨name, attributes, madeNode? before opened⟩ :: around)) :
    before.Accounted around := by
  unfold Accounted at accounted ⊢
  rw [(enters_of_stepOpening taken).openNodes] at accounted
  cases made : madeNode? before opened with
  | none => simpa [made] using accounted
  | some id => simpa [made] using accounted

theorem stepOpening (enclosed : before.Enclosed around)
    (taken : before.stepOpening name attributes = .ok opened) :
    opened.Enclosed (⟨name, attributes, madeNode? before opened⟩ :: around) where
  standing := enclosed.standing.stepOpening taken
  openTags := by
    have outer : before.openTags = around.map (·.openTag opened.context.vocabulary) := by
      rw [enclosed.openTags]
      rcases enclosed.vocabulary_stepOpening taken with rfl | same
      · rfl
      · rw [same]
    rw [(enters_of_stepOpening taken).openTags, outer]
    rfl
  openNodes := by
    obtain ⟨left, openNodes⟩ := enclosed.openNodes
    refine ⟨left, ?_⟩
    rw [(enters_of_stepOpening taken).openNodes, openNodes]
    cases made : madeNode? before opened <;> simp
  begins awaits := by
    rw [(enters_of_stepOpening taken).awaitsFirstTag] at awaits
    cases awaits
  opensNode accounted tag outer suffix := by
    have earlier := accounted_of_stepOpening taken accounted
    rcases List.suffix_cons_iff.1 suffix with same | inside
    · obtain ⟨rfl, rfl⟩ := List.cons.inj same
      have opens := (enters_of_stepOpening taken).opensNode
      have tags : before.around = outer.map (·.construct opened.context.vocabulary) := by
        unfold Assembly.around
        rw [enclosed.openTags, List.map_map]
        rcases enclosed.vocabulary_stepOpening taken with rfl | same
        · rfl
        · rw [same]
          rfl
      unfold depth at opens
      rw [tags, earlier] at opens
      exact opens
    · rcases enclosed.vocabulary_stepOpening taken with rfl | same
      · cases List.suffix_nil.1 inside
      · rw [same]
        exact enclosed.opensNode earlier tag outer inside

theorem accounted_of_stepText (text : String) (accounted : (before.stepText text).Accounted around) :
    before.Accounted around := by
  unfold Accounted at accounted ⊢
  rwa [(quiet_stepText before text).openNodes] at accounted

theorem stepText (enclosed : before.Enclosed around) (text : String) :
    (before.stepText text).Enclosed around := by
  have quiet := quiet_stepText before text
  refine ⟨enclosed.standing.stepText text, ?_, ?_, ?_, ?_⟩
  · rw [quiet.openTags, quiet.context.vocabulary]
    exact enclosed.openTags
  · rw [quiet.openNodes]
    exact enclosed.openNodes
  · rw [quiet.awaitsFirstTag]
    exact enclosed.begins
  · rw [quiet.context.vocabulary]
    exact fun accounted => enclosed.opensNode (accounted_of_stepText text accounted)

end Enclosed

/-- The open nodes when a tag has closed: its own is off the stack, or stays as the only one. -/
theorem ClosingEffect.openNodes_eq {tag : OpenTag} (effect : ClosingEffect tag before after) :
    (tag.opensNode = false → after.openNodes = before.openNodes) ∧
      (tag.opensNode = true → after.openNodes = before.openNodes.tail ∨
        before.openNodes.tail = [] ∧ after.openNodes = before.openNodes) := by
  cases effect with
  | passes stays quiet =>
      exact ⟨fun _ => quiet.openNodes, fun opens => .inr ⟨stays opens, quiet.openNodes⟩⟩
  | drops opens _ quiet =>
      exact ⟨fun passes => absurd (opens.symm.trans passes) (by decide),
        fun _ => .inl quiet.openNodes⟩
  | links opens _ _ =>
      exact ⟨fun passes => absurd (opens.symm.trans passes) (by decide),
        fun _ => .inl (stacks_linkChild before.dropNode _).1⟩

/-- What a closing that is taken does to the stacks: the innermost tag is off, and its node is off
or stays as the only one. -/
theorem stacks_stepClosing (standing : before.Standing) (taken : before.stepClosing = .ok after) :
    ∃ tag, before.openTags = tag :: after.openTags ∧
      (tag.construct = .schema → tag.opensNode = true ∧ before.depth = 1) ∧
      (tag.opensNode = false → after.openNodes = before.openNodes) ∧
      (tag.opensNode = true → after.openNodes = before.openNodes.tail ∨
        before.openNodes.tail = [] ∧ after.openNodes = before.openNodes) := by
  obtain ⟨tag, outer, opened, closed⟩ := cases_of_stepClosing taken
  have stacked := standing.stacked
  rw [opened] at stacked
  refine ⟨tag, ?_⟩
  rcases closed with ⟨isSchema, root, single, rfl⟩ | ⟨inside, rfl⟩
  · have opens := stacked.opensNode_of_schema isSchema
    refine ⟨opened, fun _ => ⟨opens, congrArg List.length single⟩, fun passes => ?_,
      fun _ => .inl ?_⟩
    · rw [opens] at passes
      cases passes
    · rw [single]
      rfl
  · have effect : ClosingEffect tag { before with openTags := outer }
        (closeTag { before with openTags := outer } tag) :=
      effect_closeTag inside stacked.makesNode
    refine ⟨?_, fun isSchema => absurd isSchema inside, effect.openNodes_eq.1,
      effect.openNodes_eq.2⟩
    rw [effect.openTags]
    exact opened

theorem vocabulary_stepClosing (standing : before.Standing)
    (taken : before.stepClosing = .ok after) :
    after.context.vocabulary = before.context.vocabulary ∧
      after.awaitsFirstTag = before.awaitsFirstTag := by
  obtain ⟨tag, outer, -, ⟨-, root, -, rfl⟩ | effect⟩ := standing.cases_of_stepClosing taken
  · exact ⟨rfl, rfl⟩
  · cases effect with
    | passes _ quiet => exact ⟨quiet.context.vocabulary, quiet.awaitsFirstTag⟩
    | drops _ _ quiet => exact ⟨quiet.context.vocabulary, quiet.awaitsFirstTag⟩
    | links _ _ open_eq =>
        rw [linkChild_eq open_eq]
        exact ⟨rfl, rfl⟩

namespace Enclosed

/-- A closing takes the innermost tag from those around. Its node is left over if it stays open. -/
theorem exists_of_stepClosing (enclosed : before.Enclosed around)
    (taken : before.stepClosing = .ok after) :
    ∃ first outer, around = first :: outer ∧ after.Enclosed outer ∧
      (after.Accounted outer → before.Accounted around) := by
  obtain ⟨tag, opened, -, passing, opening⟩ := stacks_stepClosing enclosed.standing taken
  obtain ⟨vocabulary, awaits⟩ := vocabulary_stepClosing enclosed.standing taken
  have tags := enclosed.openTags
  obtain ⟨left, openNodes⟩ := enclosed.openNodes
  rw [opened] at tags
  cases around with
  | nil => cases tags
  | cons first outer =>
      obtain ⟨rfl, outerTags⟩ := List.cons.inj tags
      have nodes : (∃ left, after.openNodes = outer.filterMap Enclosure.node? ++ left) ∧
          (after.Accounted outer → before.Accounted (first :: outer)) := by
        unfold Accounted
        cases made : first.node? with
        | none =>
            have same := passing (by simp [Enclosure.openTag, made])
            rw [same, openNodes, List.filterMap_cons_none made]
            exact ⟨⟨left, rfl⟩, id⟩
        | some id =>
            rw [List.filterMap_cons_some made, List.cons_append] at openNodes
            rw [List.filterMap_cons_some made, openNodes]
            rcases opening (by simp [Enclosure.openTag, made]) with dropped | ⟨alone, stays⟩
            · rw [openNodes, List.tail_cons] at dropped
              rw [dropped]
              exact ⟨⟨left, rfl⟩, congrArg (id :: ·)⟩
            · rw [openNodes, List.tail_cons] at alone
              obtain ⟨noneOutside, rfl⟩ := List.append_eq_nil_iff.1 alone
              rw [openNodes, noneOutside] at stays
              rw [stays, noneOutside]
              exact ⟨⟨[id], rfl⟩, fun contradiction => by cases contradiction⟩
      refine ⟨first, outer, rfl, ⟨enclosed.standing.stepClosing taken, ?_, nodes.1, ?_, ?_⟩,
        nodes.2⟩
      · rw [vocabulary]
        exact outerTags
      · rw [awaits]
        exact fun first => absurd (enclosed.begins first) (List.cons_ne_nil _ _)
      · rw [vocabulary]
        exact fun accounted tag inner suffix => enclosed.opensNode (nodes.2 accounted) tag inner
          (suffix.trans (List.suffix_cons first outer))

end Enclosed

theorem enclosed_of_trace (traced : trace context events = .ok (after, around)) :
    after.Enclosed around := by
  have closes : ∀ {before after : Assembly} {around : List Enclosure}, before.Enclosed around →
      before.stepClosing = .ok after → after.Enclosed around.tail := by
    intro before after around enclosed taken
    obtain ⟨first, outer, rfl, inner, -⟩ := enclosed.exists_of_stepClosing taken
    exact inner
  refine trace_induction (fun _ assembly around => assembly.Enclosed around) (.start context)
    ?_ (fun _ => closes) ?_ ?_ traced
  · exact fun _ enclosed taken => enclosed.stepOpening taken
  · exact fun _ enclosed openedTag closed => closes (enclosed.stepOpening openedTag) closed
  · exact fun content _ enclosed => enclosed.stepText content

namespace Enclosed

/-- The node of a tag around is one that its construct makes. -/
theorem makes (enclosed : assembly.Enclosed around) :
    ∀ tag ∈ around, ∀ id, tag.node? = some id →
      (tag.construct assembly.context.vocabulary).Makes assembly.context id := by
  have stacked := enclosed.standing.stacked
  obtain ⟨left, openNodes⟩ := enclosed.openNodes
  rw [enclosed.openTags, openNodes] at stacked
  clear openNodes enclosed
  induction around with
  | nil => exact fun tag member => absurd member List.not_mem_nil
  | cons first outer inductionHypothesis =>
      refine List.forall_mem_cons.2 ?_
      cases made : first.node? with
      | none =>
          rw [List.filterMap_cons_none made] at stacked
          refine ⟨fun id contradiction => (by cases contradiction), inductionHypothesis ?_⟩
          generalize outer.filterMap Enclosure.node? ++ left = nodes at stacked ⊢
          cases stacked with
          | passing _ _ rest => exact rest
          | opening opens _ _ =>
              have opens : first.node?.isSome = true := opens
              rw [made] at opens
              cases opens
      | some node =>
          rw [List.filterMap_cons_some made] at stacked
          cases stacked with
          | passing passes _ _ =>
              have passes : first.node?.isSome = false := passes
              rw [made] at passes
              cases passes
          | opening _ makes rest =>
              exact ⟨fun id found => Option.some.inj found ▸ makes, inductionHypothesis rest⟩

/-- The nodes of the tags around are nodes of the context. -/
theorem isSome_node? (enclosed : assembly.Enclosed around) {tag : Enclosure} {id : NodeId}
    (member : tag ∈ around) (made : tag.node? = some id) :
    (assembly.context.node? id).isSome = true :=
  (enclosed.makes tag member id made).isSome_node?

/-- The nodes of inner tags are younger. -/
theorem decreasing (enclosed : assembly.Enclosed around) (branching : assembly.Branching) :
    (around.filterMap Enclosure.node?).Pairwise fun inner outer => outer.index < inner.index := by
  obtain ⟨left, openNodes⟩ := enclosed.openNodes
  have nodes := branching.decreasing
  rw [openNodes] at nodes
  exact (List.pairwise_append.1 nodes).1

/-- The innermost tag has made the innermost open node, if it has made one. -/
theorem top?_eq {first : Enclosure} {outer : List Enclosure} {id : NodeId}
    (enclosed : assembly.Enclosed (first :: outer)) (made : first.node? = some id) :
    assembly.top? = some id := by
  obtain ⟨left, openNodes⟩ := enclosed.openNodes
  unfold top?
  rw [openNodes, List.filterMap_cons_some made]
  rfl

end Enclosed

theorem branching_of_trace {options : Options}
    (traced : trace (.initial options) events = .ok (after, around)) : after.Branching :=
  branching_foldlM (foldlM_step_of_trace traced)

/-! ## Inside a schema -/

/-- Inside each open schema no more nodes are open than its own and those of the tags inside it. -/
def SchemasClose (assembly : Assembly) : Prop :=
  ∀ inner schema outer, assembly.openTags = inner ++ schema :: outer →
    schema.construct = .schema → assembly.depth ≤ inner.countP OpenTag.opensNode + 1

namespace SchemasClose

theorem of_stepOpening (taken : before.stepOpening name attributes = .ok opened)
    (closes : opened.SchemasClose) : before.SchemasClose := by
  intro inner schema outer split isSchema
  have enters := enters_of_stepOpening taken
  have bound := closes (_ :: inner) schema outer (enters.openTags.trans (congrArg _ split)) isSchema
  have depths := congrArg List.length enters.openNodes
  unfold depth at bound ⊢
  rw [depths] at bound
  cases made : madeNode? before opened with
  | none => simpa [made] using bound
  | some id => simpa [made] using bound

/-- The schema itself closes as the only open node. -/
theorem of_stepClosing (standing : before.Standing) (taken : before.stepClosing = .ok after)
    (closes : after.SchemasClose) : before.SchemasClose := by
  intro inner schema outer split isSchema
  obtain ⟨tag, opened, closesSchema, passing, opening⟩ := stacks_stepClosing standing taken
  rw [opened] at split
  cases inner with
  | nil =>
      obtain ⟨rfl, -⟩ := List.cons.inj split
      rw [(closesSchema isSchema).2]
      exact Nat.le_add_left 1 _
  | cons first inner =>
      obtain ⟨rfl, rest⟩ := List.cons.inj split
      have bound := closes inner schema outer rest isSchema
      unfold depth at bound ⊢
      cases makes : tag.opensNode with
      | false =>
          rw [passing makes] at bound
          simpa [makes] using bound
      | true =>
          rw [List.countP_cons_of_pos makes]
          rcases opening makes with dropped | ⟨alone, -⟩
          · rw [dropped, List.length_tail] at bound
            omega
          · have single := congrArg List.length alone
            rw [List.length_tail, List.length_nil] at single
            omega

theorem of_stepText (text : String) (closes : (before.stepText text).SchemasClose) :
    before.SchemasClose := by
  have quiet := quiet_stepText before text
  unfold SchemasClose depth at closes ⊢
  rwa [quiet.openTags, quiet.openNodes] at closes

/-- Events that leave no tag open close all schemas. -/
theorem of_foldlM (standing : before.Standing) (completed : events.foldlM step before = .ok final)
    (closed : final.openTags = []) : before.SchemasClose := by
  induction events generalizing before with
  | nil =>
      cases foldlM_nil_eq_ok_iff.1 completed
      intro inner schema outer split
      rw [closed] at split
      exact absurd split.symm (by simp)
  | cons event rest inductionHypothesis =>
      obtain ⟨next, taken, later⟩ := foldlM_cons_eq_ok_iff.1 completed
      cases event with
      | opening name attributes =>
          exact of_stepOpening taken (inductionHypothesis (standing.stepOpening taken) later)
      | closing =>
          exact of_stepClosing standing taken
            (inductionHypothesis (standing.stepClosing taken) later)
      | text content =>
          cases taken
          exact of_stepText content (inductionHypothesis (standing.stepText content) later)
      | empty name attributes =>
          obtain ⟨opened, openedTag, closedTag⟩ := exists_opened_of_step_empty taken
          have inner := standing.stepOpening openedTag
          exact of_stepOpening openedTag (of_stepClosing inner closedTag
            (inductionHypothesis (inner.stepClosing closedTag) later))

end SchemasClose

/-- The tag of an open schema has made a node. -/
theorem Stacked.opensNode_of_mem {tags : List OpenTag} {nodes : List NodeId}
    (stacked : Stacked context tags nodes) :
    ∀ tag ∈ tags, tag.construct = .schema → tag.opensNode = true := by
  induction stacked with
  | outside _ => exact fun tag member => absurd member List.not_mem_nil
  | passing _ inside _ inductionHypothesis =>
      exact List.forall_mem_cons.2
        ⟨fun isSchema => absurd isSchema inside, inductionHypothesis⟩
  | opening opens _ _ inductionHypothesis =>
      exact List.forall_mem_cons.2 ⟨fun _ => opens, inductionHypothesis⟩

/-- Where a schema is around that closes, all open nodes have been made by the tags around. -/
theorem Enclosed.accounted (enclosed : assembly.Enclosed around) (closes : assembly.SchemasClose)
    (inside : ∃ schema ∈ around, schema.construct assembly.context.vocabulary = .schema) :
    assembly.Accounted around := by
  obtain ⟨schema, member, isSchema⟩ := inside
  have tags := enclosed.openTags
  have opens := enclosed.standing.stacked.opensNode_of_mem
    (schema.openTag assembly.context.vocabulary) (tags ▸ List.mem_map_of_mem member) isSchema
  obtain ⟨left, openNodes⟩ := enclosed.openNodes
  obtain ⟨inner, outer, rfl⟩ := List.append_of_mem member
  rw [List.map_append, List.map_cons] at tags
  have bound := closes _ _ _ tags isSchema
  have none : left = [] := by
    have made : schema.node?.isSome = true := opens
    have inside : (inner.map (·.openTag assembly.context.vocabulary)).countP OpenTag.opensNode =
        inner.countP (·.node?.isSome) := List.countP_map
    unfold depth at bound
    rw [openNodes, inside, List.length_append, List.length_filterMap_eq_countP,
      List.countP_append] at bound
    have own : (schema :: outer).countP (·.node?.isSome) = outer.countP (·.node?.isSome) + 1 :=
      List.countP_cons_of_pos made
    apply List.eq_nil_of_length_eq_zero
    omega
  rw [none, List.append_nil] at openNodes
  exact openNodes

end Assembly

end XmlSchema
