import XmlSchema.Proofs.Tree.Openings

/-!
# What is read is sound

Closings keep trees sound as openings do, so the tree of every document that is read is sound:
`sound_readTree`. A node that is linked to its parent belongs to the tag that closes, and so it is
never a schema.
-/

namespace XmlSchema

namespace Assembly

variable {assembly before after : Assembly} {outer : List OpenTag}

/-- What closing the tag inside `outer` does to an assembly from which that tag has been taken. -/
structure Closing (outer : List OpenTag) (before after : Assembly) : Prop where
  sound : after.context.Sound
  aligned : Aligned after.context outer after.openNodes
  openTags : after.openTags = before.openTags
  awaitsFirstTag : after.awaitsFirstTag = before.awaitsFirstTag

/-- Where no node is open, nodes left over change nothing. -/
theorem Aligned.of_nil {context : Context} {tags : List OpenTag} {nodes : List NodeId}
    (aligned : Aligned context tags nodes) (none : nodes = []) (leftover : List NodeId) :
    Aligned context tags leftover := by
  induction aligned with
  | outside _ => exact .outside leftover
  | passing passes inside _ inductionHypothesis =>
      exact .passing passes inside (inductionHypothesis none)
  | opening _ _ _ _ => cases none

/-- The closed node is linked to the one around it. -/
theorem closing_linkChild (assembly : Assembly) {child : NodeId} (sound : assembly.context.Sound)
    (aligned : Aligned assembly.context outer assembly.openNodes)
    (inner : assembly.context.IsInner child) :
    Closing outer assembly (assembly.linkChild child) := by
  unfold linkChild modifyTopElement modifyTop
  split
  · rename_i parent _
    refine ⟨sound.link inner parent, ?_, rfl, rfl⟩
    exact aligned.mono fun _ inner => inner.modifyElement parent fun _ => rfl
  · exact ⟨sound, aligned, rfl, rfl⟩

/-- What is linked stands inside another declaration. -/
theorem isInner_of_linksTop {construct : Construct} {id : NodeId}
    (linked : before.linksTop construct = true) (fits : construct.Fits before.context id) :
    before.context.IsInner id := by
  cases construct
  all_goals first
    | exact fits
    | cases linked

/-- What the closing of a tag does keeps the tree sound and the stacks aligned. -/
theorem closing_closeTag {tag : OpenTag} (sound : before.context.Sound)
    (inside : tag.construct ≠ .schema)
    (aligned : Aligned before.context (tag :: outer) before.openNodes) :
    Closing outer before (before.closeTag tag) := by
  have effect : ClosingEffect tag before (before.closeTag tag) :=
    effect_closeTag inside aligned.makesNode
  -- The tag is off the stack of tags; its node is the innermost open one.
  generalize before.closeTag tag = after at effect
  cases effect with
  | passes stays quiet =>
      refine ⟨sound.of_quiet quiet.context, ?_, quiet.openTags, quiet.awaitsFirstTag⟩
      rw [quiet.openNodes]
      refine Aligned.mono (fun _ inner => quiet.context.isInner inner) ?_
      generalize open_eq : before.openNodes = nodes at aligned stays
      cases aligned with
      | passing _ _ rest => exact rest
      | opening opens _ rest => exact rest.of_nil (stays opens) _
  | drops opens _ quiet =>
      refine ⟨sound.of_quiet quiet.context, ?_, quiet.openTags, quiet.awaitsFirstTag⟩
      rw [quiet.openNodes]
      refine Aligned.mono (fun _ inner => quiet.context.isInner inner) ?_
      show Aligned before.context outer before.openNodes.tail
      generalize before.openNodes = nodes at aligned
      cases aligned with
      | passing passes _ _ =>
          rw [passes] at opens
          cases opens
      | opening _ _ rest => exact rest
  | links opens linked open_eq =>
      rw [open_eq] at aligned
      cases aligned with
      | passing passes _ _ =>
          rw [passes] at opens
          cases opens
      | opening _ fits rest =>
          have alignedBelow : Aligned before.dropNode.context outer before.dropNode.openNodes := by
            show Aligned before.context outer before.openNodes.tail
            rw [open_eq]
            exact rest
          have inner : before.context.IsInner _ := isInner_of_linksTop linked fits
          have link := closing_linkChild before.dropNode sound alignedBelow inner
          exact ⟨link.sound, link.aligned, link.openTags, link.awaitsFirstTag⟩

/-! ## Events -/

/-- A sound tree with aligned stacks, of which nothing is read before the first tag. -/
structure Sound (assembly : Assembly) : Prop where
  context : assembly.context.Sound
  aligned : Aligned assembly.context assembly.openTags assembly.openNodes
  begins : assembly.awaitsFirstTag = true →
    assembly.openTags = [] ∧ ∀ id, assembly.context.element? id = none

variable {next : Assembly}

/-- The first tag decides about the vocabulary while there is no declaration yet. -/
theorem sound_adoptQualifier (sound : assembly.Sound) (tag : String)
    (attributes : Xml.Attributes) :
    (assembly.adoptQualifier tag attributes).Sound := by
  unfold adoptQualifier
  cases awaits : assembly.awaitsFirstTag with
  | false =>
      rw [if_neg (by decide)]
      exact sound
  | true =>
      obtain ⟨noTags, noElements⟩ := sound.begins awaits
      rw [if_pos rfl]
      dsimp only
      split
      · refine ⟨⟨?_, ?_, ?_⟩, ?_, fun contradiction => ?_⟩
        · intro id element found
          have absent : assembly.context.element? id = some element := found
          rw [noElements id] at absent
          cases absent
        · intro id element found
          have absent : assembly.context.element? id = some element := found
          rw [noElements id] at absent
          cases absent
        · exact sound.context.simpleTypes
        · show Aligned _ assembly.openTags assembly.openNodes
          rw [noTags]
          exact .outside _
        · cases contradiction
      · exact ⟨sound.context, sound.aligned, fun contradiction => by cases contradiction⟩

theorem sound_stepOpening (sound : assembly.Sound) {tag : String} {attributes : Xml.Attributes}
    (taken : assembly.stepOpening tag attributes = .ok next) : next.Sound := by
  have adopted := sound_adoptQualifier sound tag attributes
  obtain ⟨construct, opened, opensNode, -, -, effect, rfl⟩ := exists_effect_of_stepOpening taken
  have opening := effect.opening
  refine ⟨opening.sound adopted.context, opening.aligned tag adopted.aligned, ?_⟩
  intro contradiction
  have stillAwaits : opened.awaitsFirstTag = true := contradiction
  rw [opening.awaitsFirstTag, awaitsFirstTag_adoptQualifier] at stillAwaits
  cases stillAwaits

theorem sound_stepClosing (sound : assembly.Sound) (taken : assembly.stepClosing = .ok next) :
    next.Sound := by
  obtain ⟨tag, outer, opened, closed⟩ := cases_of_stepClosing taken
  have awaits : assembly.awaitsFirstTag = false := by
    cases awaits : assembly.awaitsFirstTag with
    | false => rfl
    | true =>
        rw [(sound.begins awaits).1] at opened
        cases opened
  have aligned : Aligned assembly.context (tag :: outer) assembly.openNodes :=
    opened ▸ sound.aligned
  rcases closed with ⟨closesSchema, root, single, rfl⟩ | ⟨inside, rfl⟩
  · rw [single] at aligned
    refine ⟨sound.context, ?_, fun contradiction => ?_⟩
    · cases aligned with
      | passing _ inside _ => exact absurd closesSchema inside
      | opening _ _ rest => exact rest
    · rw [awaits] at contradiction
      cases contradiction
  · have closing : Closing outer { assembly with openTags := outer }
        (closeTag { assembly with openTags := outer } tag) :=
      closing_closeTag sound.context inside aligned
    refine ⟨closing.sound, ?_, fun contradiction => ?_⟩
    · rw [closing.openTags]
      exact closing.aligned
    · rw [closing.awaitsFirstTag, awaits] at contradiction
      cases contradiction

theorem sound_stepText (sound : assembly.Sound) (text : String) :
    (assembly.stepText text).Sound := by
  have quiet := quiet_stepText assembly text
  refine ⟨sound.context.of_quiet quiet.context, ?_, fun awaits => ?_⟩
  · rw [quiet.openTags, quiet.openNodes]
    exact sound.aligned.mono fun _ inner => quiet.context.isInner inner
  · rw [quiet.awaitsFirstTag] at awaits
    obtain ⟨noTags, noElements⟩ := sound.begins awaits
    refine ⟨quiet.openTags.trans noTags, fun id => ?_⟩
    cases found : (assembly.stepText text).context.element? id with
    | none => rfl
    | some element =>
        obtain ⟨original, present, -⟩ := quiet.context.of_element?_after found
        rw [noElements id] at present
        cases present

/-- Every run of events keeps trees sound. -/
theorem sound_run {document : Bytes} {events : List (Xml.Located Xml.Event)}
    (sound : assembly.Sound) (completed : assembly.run document events = .ok next) : next.Sound :=
  keeps_run Sound (fun sound taken => sound_stepOpening sound taken) sound_stepClosing
    (fun text sound => sound_stepText sound text) sound completed

/-- Nothing is read yet. -/
theorem sound_start (options : Options) : (start (.initial options)).Sound :=
  ⟨Context.sound_initial options, .outside [], fun _ => ⟨rfl, fun _ => rfl⟩⟩

/-! ## What reading never writes -/

theorem Effect.unread {construct : Construct} {attributes : Xml.Attributes}
    {result : Assembly × Bool} (effect : Effect construct attributes before result) :
    result.1.context.unread = before.context.unread := by
  cases effect with
  | passes _ quiet => exact quiet.context.unread
  | declares early _ late => exact late.context.unread.trans early.context.unread
  | @types middle _ name? _ early =>
      refine Eq.trans ?_ early.context.unread
      cases name? <;> rfl

theorem ClosingEffect.unread {tag : OpenTag} (effect : ClosingEffect tag before after) :
    after.context.unread = before.context.unread := by
  cases effect with
  | passes _ quiet => exact quiet.context.unread
  | drops _ _ quiet => exact quiet.context.unread
  | links _ _ _ =>
      unfold linkChild modifyTopElement modifyTop
      split <;> rfl

theorem unread_adoptQualifier (tag : String) (attributes : Xml.Attributes) :
    (assembly.adoptQualifier tag attributes).context.unread = assembly.context.unread := by
  unfold adoptQualifier
  split
  · dsimp only
    split <;> rfl
  · rfl

theorem unread_stepOpening {tag : String} {attributes : Xml.Attributes}
    (taken : assembly.stepOpening tag attributes = .ok next) :
    next.context.unread = assembly.context.unread := by
  obtain ⟨construct, opened, opensNode, -, -, effect, rfl⟩ := exists_effect_of_stepOpening taken
  exact effect.unread.trans (unread_adoptQualifier tag attributes)

theorem unread_stepClosing (sound : assembly.Sound) (taken : assembly.stepClosing = .ok next) :
    next.context.unread = assembly.context.unread := by
  obtain ⟨tag, outer, opened, closed⟩ := cases_of_stepClosing taken
  rcases closed with ⟨-, root, -, rfl⟩ | ⟨inside, rfl⟩
  · rfl
  · have aligned : Aligned assembly.context (tag :: outer) assembly.openNodes :=
      opened ▸ sound.aligned
    exact (effect_closeTag inside aligned.makesNode).unread

end Assembly

section Tree

variable {options : Options} {document : Bytes} {context : Context} {root : NodeId}
  (read : readTree (.initial options) document = .ok (context, root))

include read in
/-- The tree of a document that is read is sound. -/
theorem sound_readTree : context.Sound := by
  obtain ⟨assembly, completed, -, rfl⟩ := exists_run_of_readTree read
  exact (Assembly.sound_run (Assembly.sound_start options) completed).context

include read in
theorem unread_readTree : context.unread = (Context.initial options).unread := by
  obtain ⟨assembly, completed, -, rfl⟩ := exists_run_of_readTree read
  have kept : assembly.Sound ∧ assembly.context.unread = (Context.initial options).unread := by
    refine Assembly.keeps_run
      (fun assembly => assembly.Sound ∧
        assembly.context.unread = (Context.initial options).unread)
      ?_ ?_ ?_ ⟨Assembly.sound_start options, rfl⟩ completed
    · exact fun kept taken => ⟨Assembly.sound_stepOpening kept.1 taken,
        (Assembly.unread_stepOpening taken).trans kept.2⟩
    · exact fun kept taken => ⟨Assembly.sound_stepClosing kept.1 taken,
        (Assembly.unread_stepClosing kept.1 taken).trans kept.2⟩
    · exact fun text kept => ⟨Assembly.sound_stepText kept.1 text,
        (Assembly.quiet_stepText _ text).context.unread.trans kept.2⟩
  exact kept.2

end Tree

/-- Whether a document is read to a tree that passes a check. -/
def readsTree (options : Options) (document : Bytes) (check : Context → NodeId → Bool) : Bool :=
  match readTree (.initial options) document with
  | .error _ => false
  | .ok (context, root) => check context root

theorem exists_of_readsTree {options : Options} {document : Bytes}
    {check : Context → NodeId → Bool} (reads : readsTree options document check = true) :
    ∃ context root, readTree (.initial options) document = .ok (context, root) ∧
      check context root = true := by
  unfold readsTree at reads
  split at reads
  · cases reads
  · rename_i context root read
    exact ⟨context, root, read, reads⟩

/-- Whether events in a row are taken, from the start, to an assembly that passes a check. -/
def takesEvents (options : Options) (events : List Xml.Event) (check : Assembly → Bool) : Bool :=
  match events.foldlM Assembly.step (Assembly.start (.initial options)) with
  | .error _ => false
  | .ok assembly => check assembly

theorem exists_of_takesEvents {options : Options} {events : List Xml.Event}
    {check : Assembly → Bool} (takes : takesEvents options events check = true) :
    ∃ assembly, events.foldlM Assembly.step (Assembly.start (.initial options)) = .ok assembly ∧
      check assembly = true := by
  unfold takesEvents at takes
  split at takes
  · cases takes
  · rename_i assembly taken
    exact ⟨assembly, taken, takes⟩

end XmlSchema
