import XmlSchema.Proofs.Tree.Effects

/-!
# Openings keep trees sound

Every open tag that made a node has it on the stack of open nodes, in the order of the tags, and
below the schema that node can stand inside another one: `Aligned`. What an opening tag does keeps
the tree sound, and with the tag itself on top the stacks are aligned again: `Effect.opening`.
-/

namespace XmlSchema

/-- Whether a node can be that of a tag that makes nodes. -/
def Construct.Fits (context : Context) (id : NodeId) : Construct → Prop
  | .schema | .simpleType => True
  | .element | .complexType | .any | .group | .attributeGroup => context.IsInner id
  | _ => False

theorem Construct.Fits.imp {before after : Context} {id : NodeId} {construct : Construct}
    (inner : before.IsInner id → after.IsInner id) (fits : construct.Fits before id) :
    construct.Fits after id := by
  cases construct
  all_goals first
    | exact trivial
    | exact inner fits
    | exact fits.elim

theorem Construct.Fits.makesNode {context : Context} {id : NodeId} {construct : Construct}
    (fits : construct.Fits context id) : construct.MakesNode := by
  cases construct
  case simpleType => exact .inr rfl
  all_goals first
    | exact .inl rfl
    | exact fits.elim

namespace Assembly

/-- The open nodes are those of the open tags that made nodes, in order. Below the last tag, nodes
may be left over from tags outside any schema. -/
inductive Aligned (context : Context) : List OpenTag → List NodeId → Prop where
  | outside (leftover : List NodeId) : Aligned context [] leftover
  | passing {tag : OpenTag} {tags : List OpenTag} {nodes : List NodeId}
      (passes : tag.opensNode = false) (inside : tag.construct ≠ .schema)
      (rest : Aligned context tags nodes) : Aligned context (tag :: tags) nodes
  | opening {tag : OpenTag} {tags : List OpenTag} {id : NodeId} {nodes : List NodeId}
      (opens : tag.opensNode = true) (fits : tag.construct.Fits context id)
      (rest : Aligned context tags nodes) : Aligned context (tag :: tags) (id :: nodes)

theorem Aligned.mono {before after : Context} {tags : List OpenTag} {nodes : List NodeId}
    (inner : ∀ id, before.IsInner id → after.IsInner id) (aligned : Aligned before tags nodes) :
    Aligned after tags nodes := by
  induction aligned with
  | outside leftover => exact .outside leftover
  | passing passes inside rest inductionHypothesis =>
      exact .passing passes inside inductionHypothesis
  | opening opens fits rest inductionHypothesis =>
      exact .opening opens (fits.imp (inner _)) inductionHypothesis

theorem Aligned.makesNode {context : Context} {tag : OpenTag} {tags : List OpenTag}
    {nodes : List NodeId} (aligned : Aligned context (tag :: tags) nodes)
    (opens : tag.opensNode = true) : tag.construct.MakesNode := by
  cases aligned with
  | passing passes _ _ =>
      rw [passes] at opens
      cases opens
  | opening _ fits _ => exact fits.makesNode

/-- What an opening tag of a construct does: whether it makes a node is the second component. -/
structure Opening (construct : Construct) (before : Assembly) (result : Assembly × Bool) :
    Prop where
  sound : before.context.Sound → result.1.context.Sound
  inner : ∀ id, before.context.IsInner id → result.1.context.IsInner id
  openTags : result.1.openTags = before.openTags
  awaitsFirstTag : result.1.awaitsFirstTag = before.awaitsFirstTag
  aligned : ∀ tag, Aligned before.context before.openTags before.openNodes →
    Aligned result.1.context (⟨construct, tag, result.2⟩ :: result.1.openTags) result.1.openNodes

variable {before after later : Assembly} {construct : Construct}

namespace Opening

/-- A tag that makes no node. -/
theorem of_quiet (quiet : Quiet before after) (inside : construct ≠ .schema) :
    Opening construct before (after, false) where
  sound sound := sound.of_quiet quiet.context
  inner _ inner := quiet.context.isInner inner
  openTags := quiet.openTags
  awaitsFirstTag := quiet.awaitsFirstTag
  aligned _ aligned := by
    rw [quiet.openTags, quiet.openNodes]
    exact .passing rfl inside (aligned.mono fun _ inner => quiet.context.isInner inner)

/-- A tag that makes a node. -/
theorem of_openNode {node : Node}
    (fits : ∀ element, node.element? = some element →
      element.FollowsTag before.context.vocabulary ∧ element.children = [])
    (opens : construct.Fits (before.context.addNode node) before.context.arena.nextId) :
    Opening construct before (before.openNode node, true) where
  sound sound := sound.addNode fits
  inner _ inner := inner.addNode node
  openTags := rfl
  awaitsFirstTag := rfl
  aligned _ aligned := .opening rfl opens (aligned.mono fun _ inner => inner.addNode node)

/-- What happens quietly before the opening. -/
theorem after_quiet {result : Assembly × Bool} (quiet : Quiet before after)
    (opening : Opening construct after result) : Opening construct before result where
  sound sound := opening.sound (sound.of_quiet quiet.context)
  inner id inner := opening.inner id (quiet.context.isInner inner)
  openTags := opening.openTags.trans quiet.openTags
  awaitsFirstTag := opening.awaitsFirstTag.trans quiet.awaitsFirstTag
  aligned tag aligned := by
    refine opening.aligned tag ?_
    rw [quiet.openTags, quiet.openNodes]
    exact aligned.mono fun _ inner => quiet.context.isInner inner

/-- What happens quietly after the opening. -/
theorem then_quiet {opensNode : Bool} (opening : Opening construct before (after, opensNode))
    (quiet : Quiet after later) : Opening construct before (later, opensNode) where
  sound sound := (opening.sound sound).of_quiet quiet.context
  inner id inner := quiet.context.isInner (opening.inner id inner)
  openTags := quiet.openTags.trans opening.openTags
  awaitsFirstTag := quiet.awaitsFirstTag.trans opening.awaitsFirstTag
  aligned tag aligned := by
    rw [quiet.openTags, quiet.openNodes]
    exact (opening.aligned tag aligned).mono fun _ inner => quiet.context.isInner inner

end Opening

theorem isInner_nextId {context : Context} {element : Element} (below : element.kind ≠ .schema) :
    (context.addNode (.declaration element)).IsInner context.arena.nextId := by
  refine ⟨element, ?_, below⟩
  rw [Context.element?_addNode, if_pos rfl]
  rfl

/-- A new declaration fits the construct of its tag. -/
theorem fits_nextId {context : Context} {element : Element}
    (kind : construct.kind? = some element.kind) :
    construct.Fits (context.addNode (.declaration element)) context.arena.nextId := by
  cases construct
  case schema => exact trivial
  case simpleType => exact trivial
  -- A kind other than that of the schema stands inside another declaration.
  all_goals first
    | exact isInner_nextId (Option.some.inj kind ▸ by decide)
    | cases kind

theorem opening_openSimpleNode (assembly : Assembly) (simpleType : SimpleType)
    (name? : Option String) :
    Opening .simpleType assembly (assembly.openSimpleNode simpleType name?, true) := by
  have opened : Opening .simpleType assembly (assembly.openNode (.simple simpleType), true) :=
    .of_openNode (fun element same => by cases same) trivial
  cases name? with
  | none => exact opened
  | some name =>
      refine ⟨fun sound => (opened.sound sound).nameSimpleType ?_ name, opened.inner,
        opened.openTags, opened.awaitsFirstTag, fun tag aligned => ?_⟩
      · show ((assembly.context.addNode (.simple simpleType)).arena.simpleType? _).isSome
        rw [Context.simpleType?_addNode, if_pos rfl]
        rfl
      · have alignedOpen := opened.aligned tag aligned
        refine Aligned.mono ?_ alignedOpen
        exact fun _ inner => inner

/-- What an opening tag does keeps the tree sound and the stacks aligned. -/
theorem Effect.opening {attributes : Xml.Attributes} {result : Assembly × Bool}
    (effect : Effect construct attributes before result) : Opening construct before result := by
  cases effect with
  | passes inside quiet => exact .of_quiet quiet inside
  | @declares middle after element early declared late =>
      have opened : Opening construct middle (middle.openNode (.declaration element), true) := by
        refine .of_openNode ?_ (fits_nextId declared.kind)
        intro other same
        cases same
        rw [early.context.vocabulary]
        exact ⟨declared.follows, declared.childless⟩
      exact .after_quiet early (opened.then_quiet late)
  | types _ isType early =>
      subst isType
      exact .after_quiet early (opening_openSimpleNode _ _ _)

end Assembly

end XmlSchema
