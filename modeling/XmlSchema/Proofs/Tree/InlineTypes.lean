import XmlSchema.Proofs.Tree.Derivations

/-!
# Simple types without a name

A simple type that stands without a name in an element, with a restriction in it and nothing else
that matters, is the node behind that of the element. It has the base of that restriction to the
end, and it is called like the element: `exists_inlineType`. Tags that do not matter are inert: they
leave the tree, the tables of types and the derivations of simple types as they are,
`rests_of_spelled`.
-/

namespace XmlSchema

open Context (Extends)

/-- Whether tags of a construct make no node and say nothing about how a simple type is derived,
wherever they stand. -/
def Construct.isInert (construct : Construct) : Bool :=
  match construct with
  | .enumeration | .minInclusive | .maxInclusive | .whiteSpace => true
  | Construct.annotation | .documentation | .other => true
  | _ => false

namespace Construct

variable {construct : Construct} (inert : construct.isInert = true)

include inert in
theorem derives_of_isInert : construct.derives = false := by
  cases construct
  all_goals first
    | rfl
    | cases inert

include inert in
theorem opensNode_of_isInert (attributes : Xml.Attributes) (around : List Construct) (depth : Nat) :
    construct.opensNode attributes around depth = false := by
  cases construct
  all_goals first
    | rfl
    | cases inert

end Construct

/-! ## Content -/

namespace Content

/-- Content of inert tags alone. -/
def IsInert (vocabulary : Vocabulary) : Content → Prop
  | .nothing => True
  | .tag name _ inside rest =>
      (vocabulary.classify name).isInert = true ∧ inside.IsInert vocabulary ∧
        rest.IsInert vocabulary

/-- Content with a single tag among inert ones, which has a construct and fits. -/
inductive Single (vocabulary : Vocabulary) (construct : Construct)
    (fits : Xml.Attributes → Content → Prop) : Content → Prop where
  | here {name : String} {attributes : Xml.Attributes} {inside rest : Content}
      (isConstruct : vocabulary.classify name = construct) (fit : fits attributes inside)
      (inert : rest.IsInert vocabulary) :
      Single vocabulary construct fits (.tag name attributes inside rest)
  | later {name : String} {attributes : Xml.Attributes} {inside rest : Content}
      (isInert : (vocabulary.classify name).isInert = true)
      (inert : inside.IsInert vocabulary) (single : Single vocabulary construct fits rest) :
      Single vocabulary construct fits (.tag name attributes inside rest)

/-- Content with a single simple type that has no name, in which there is a single restriction, of a
base. -/
def IsInlineType (vocabulary : Vocabulary) (base : String) (content : Content) : Prop :=
  content.Single vocabulary .simpleType fun attributes inside =>
    attributes.find? "name" = none ∧
      inside.Single vocabulary .restriction fun attributes inside =>
        attributes.find? "base" = some base ∧ inside.IsInert vocabulary

end Content

namespace Assembly

variable {before between within middle opened after next : Assembly} {vocabulary : Vocabulary}
  {attributes : Xml.Attributes} {name : String} {id : NodeId}

/-! ## Tags that make no node -/

theorem Quiet.trans (left : Quiet before between) (right : Quiet between after) :
    Quiet before after where
  context := left.context.trans right.context
  openNodes := right.openNodes.trans left.openNodes
  openTags := right.openTags.trans left.openTags
  awaitsFirstTag := right.awaitsFirstTag.trans left.awaitsFirstTag
  root? := right.root?.trans left.root?

/-- An assembly that has read its first tag, under a vocabulary. -/
structure Adopted (vocabulary : Vocabulary) (assembly : Assembly) : Prop where
  awaitsFirstTag : assembly.awaitsFirstTag = false
  vocabulary : assembly.context.vocabulary = vocabulary

theorem Adopted.of_quiet (adopted : before.Adopted vocabulary) (quiet : Quiet before after) :
    after.Adopted vocabulary :=
  ⟨quiet.awaitsFirstTag.trans adopted.awaitsFirstTag,
    quiet.context.vocabulary.trans adopted.vocabulary⟩

/-- The opening of a tag that makes no node. -/
theorem exists_passing (adopted : before.Adopted vocabulary)
    (passes : (vocabulary.classify name).opensNode attributes before.around before.depth = false)
    (taken : before.stepOpening name attributes = .ok opened) :
    ∃ within, Quiet before within ∧ vocabulary.classify name ≠ .schema ∧
      opened = { within with
        openTags := ⟨vocabulary.classify name, name, false⟩ :: before.openTags } := by
  obtain ⟨construct, within, opensNode, isConstruct, makes, effect, rfl⟩ :=
    exists_effect_of_stepOpening taken
  have same : before.adoptQualifier name attributes = before :=
    adoptQualifier_of_adopted adopted.awaitsFirstTag name attributes
  rw [same] at isConstruct makes effect
  rw [adopted.vocabulary] at isConstruct
  subst isConstruct
  rw [passes] at makes
  subst makes
  cases effect with
  | passes inside quiet => exact ⟨within, quiet, inside, by rw [quiet.openTags]⟩

/-- A tag that makes no node, with what is inside it. -/
theorem quiet_of_passing (adopted : before.Adopted vocabulary)
    (passes : (vocabulary.classify name).opensNode attributes before.around before.depth = false)
    (taken : before.stepOpening name attributes = .ok opened) (inside : Quiet opened middle)
    (closed : middle.stepClosing = .ok after) : Quiet before after := by
  obtain ⟨within, opening, notSchema, rfl⟩ := exists_passing adopted passes taken
  have closing : Quiet { middle with openTags := before.openTags } after :=
    quiet_of_stepClosing inside.openTags rfl notSchema closed
  exact ⟨opening.context.trans (inside.context.trans closing.context),
    closing.openNodes.trans (inside.openNodes.trans opening.openNodes), closing.openTags,
    closing.awaitsFirstTag.trans (inside.awaitsFirstTag.trans opening.awaitsFirstTag),
    closing.root?.trans (inside.root?.trans opening.root?)⟩

/-! ## Inert content -/

/-- Two assemblies, one reached from the other, with the same tree and the same derivations of
simple types. -/
structure Rests (before after : Assembly) : Prop where
  reached : ∃ events : List Xml.Event, events.foldlM step before = .ok after
  quiet : Quiet before after
  derivation? : ∀ id : NodeId, id.index < before.context.arena.size →
    after.context.derivation? id = before.context.derivation? id

theorem Rests.refl (assembly : Assembly) : Rests assembly assembly :=
  ⟨⟨[], foldlM_nil_eq_ok_iff.2 rfl⟩, .refl assembly, fun _ _ => rfl⟩

theorem Rests.trans (left : Rests before between) (right : Rests between after) :
    Rests before after where
  reached := by
    obtain ⟨early, takenEarly⟩ := left.reached
    obtain ⟨late, takenLate⟩ := right.reached
    exact ⟨early ++ late, foldlM_append_eq_ok_iff.2 ⟨between, takenEarly, takenLate⟩⟩
  quiet := left.quiet.trans right.quiet
  derivation? id old :=
    (right.derivation? id (left.quiet.context.size ▸ old)).trans (left.derivation? id old)

theorem rests_stepText (assembly : Assembly) (text : String) :
    Rests assembly (assembly.stepText text) :=
  ⟨⟨[.text text], foldlM_cons_eq_ok_iff.2 ⟨_, rfl, foldlM_nil_eq_ok_iff.2 rfl⟩⟩,
    quiet_stepText assembly text, fun _ _ => derivation?_stepText text⟩

/-- An inert tag with what is inside it. -/
theorem rests_of_tag (adopted : before.Adopted vocabulary)
    (inert : (vocabulary.classify name).isInert = true)
    (taken : before.stepOpening name attributes = .ok opened)
    (rests : opened.Adopted vocabulary → Rests opened middle)
    (closed : middle.stepClosing = .ok after) : Rests before after := by
  have passes := Construct.opensNode_of_isInert inert attributes before.around before.depth
  obtain ⟨within, opening, -, sameOpened⟩ := exists_passing adopted passes taken
  have inside : Rests opened middle := rests (by
    rw [sameOpened]
    exact ⟨(adopted.of_quiet opening).awaitsFirstTag, (adopted.of_quiet opening).vocabulary⟩)
  refine ⟨?_, quiet_of_passing adopted passes taken inside.quiet closed, fun id old => ?_⟩
  · obtain ⟨events, inner⟩ := inside.reached
    refine ⟨.opening name attributes :: (events ++ [.closing]), foldlM_cons_eq_ok_iff.2
      ⟨opened, taken, foldlM_append_eq_ok_iff.2 ⟨middle, inner, foldlM_cons_eq_ok_iff.2 ?_⟩⟩⟩
    exact ⟨after, closed, foldlM_nil_eq_ok_iff.2 rfl⟩
  have size : opened.context.arena.size = before.context.arena.size := by
    rw [sameOpened]
    exact opening.context.size
  have underives : ((before.adoptQualifier name attributes).context.vocabulary.classify
      name).derives = true → before.top? ≠ some id := by
    have same : before.adoptQualifier name attributes = before :=
      adoptQualifier_of_adopted adopted.awaitsFirstTag name attributes
    rw [same, adopted.vocabulary, Construct.derives_of_isInert inert]
    exact fun contradiction => absurd contradiction Bool.false_ne_true
  calc after.context.derivation? id
    _ = middle.context.derivation? id := derivation?_stepClosing closed
    _ = opened.context.derivation? id := inside.derivation? id (size ▸ old)
    _ = before.context.derivation? id := derivation?_stepOpening old underives taken

/-- Inert content leaves the tree and the derivations of simple types as they are. -/
theorem rests_of_spelled {content : Content} {events : List Xml.Event}
    (spelled : content.Spelled events) (inert : content.IsInert vocabulary)
    (adopted : before.Adopted vocabulary) (completed : events.foldlM step before = .ok after) :
    Rests before after := by
  induction spelled generalizing before after with
  | nothing =>
      cases foldlM_nil_eq_ok_iff.1 completed
      exact .refl before
  | text text rest inductionHypothesis =>
      obtain ⟨next, taken, later⟩ := foldlM_cons_eq_ok_iff.1 completed
      cases taken
      have first := rests_stepText before text
      exact first.trans (inductionHypothesis inert (adopted.of_quiet first.quiet) later)
  | empty name attributes rest inductionHypothesis =>
      obtain ⟨next, taken, later⟩ := foldlM_cons_eq_ok_iff.1 completed
      obtain ⟨opened, openedTag, closedTag⟩ := exists_opened_of_step_empty taken
      have first := rests_of_tag adopted inert.1 openedTag (fun _ => .refl opened) closedTag
      exact first.trans (inductionHypothesis inert.2.2 (adopted.of_quiet first.quiet) later)
  | tag name attributes inside rest insideHypothesis inductionHypothesis =>
      obtain ⟨opened, openedTag, later⟩ := foldlM_cons_eq_ok_iff.1 completed
      obtain ⟨middle, inner, later⟩ := foldlM_append_eq_ok_iff.1 later
      obtain ⟨next, closedTag, later⟩ := foldlM_cons_eq_ok_iff.1 later
      have first := rests_of_tag adopted inert.1 openedTag
        (fun adopted => insideHypothesis inert.2.1 adopted inner) closedTag
      exact first.trans (inductionHypothesis inert.2.2 (adopted.of_quiet first.quiet) later)

/-- The single tag of some content has been taken among inert ones. -/
inductive TakesSingle (vocabulary : Vocabulary) (construct : Construct)
    (fits : Xml.Attributes → Content → Prop) (before after : Assembly) : Prop where
  | intro {name : String} {attributes : Xml.Attributes} {inside rest : Content}
      {within late : List Xml.Event} {between opened middle closed : Assembly}
      (earlier : Rests before between) (isConstruct : vocabulary.classify name = construct)
      (fit : fits attributes inside)
      (opening : between.stepOpening name attributes = .ok opened)
      (spelled : inside.Spelled within) (inner : within.foldlM step opened = .ok middle)
      (closing : middle.stepClosing = .ok closed) (spelledLater : rest.Spelled late)
      (inert : rest.IsInert vocabulary) (later : late.foldlM step closed = .ok after) :
      TakesSingle vocabulary construct fits before after

theorem TakesSingle.of_rests {construct : Construct} {fits : Xml.Attributes → Content → Prop}
    (rests : Rests before between)
    (takes : TakesSingle vocabulary construct fits between after) :
    TakesSingle vocabulary construct fits before after := by
  obtain ⟨earlier, isConstruct, fit, opening, spelled, inner, closing, spelledLater, inert, later⟩ :=
    takes
  exact ⟨rests.trans earlier, isConstruct, fit, opening, spelled, inner, closing, spelledLater,
    inert, later⟩

theorem takesSingle_of_spelled {construct : Construct} {fits : Xml.Attributes → Content → Prop}
    {content : Content} {events : List Xml.Event} (spelled : content.Spelled events)
    (single : content.Single vocabulary construct fits) (adopted : before.Adopted vocabulary)
    (completed : events.foldlM step before = .ok after) :
    TakesSingle vocabulary construct fits before after := by
  induction spelled generalizing before after with
  | nothing => cases single
  | text text rest inductionHypothesis =>
      obtain ⟨next, taken, later⟩ := foldlM_cons_eq_ok_iff.1 completed
      cases taken
      have first := rests_stepText before text
      exact .of_rests first (inductionHypothesis single (adopted.of_quiet first.quiet) later)
  | empty name attributes rest inductionHypothesis =>
      obtain ⟨next, taken, later⟩ := foldlM_cons_eq_ok_iff.1 completed
      obtain ⟨opened, openedTag, closedTag⟩ := exists_opened_of_step_empty taken
      cases single with
      | here isConstruct fit inert =>
          exact ⟨.refl before, isConstruct, fit, openedTag, .nothing,
            foldlM_nil_eq_ok_iff.2 rfl, closedTag, rest, inert, later⟩
      | later isInert _ single =>
          have first := rests_of_tag adopted isInert openedTag (fun _ => .refl opened) closedTag
          exact .of_rests first (inductionHypothesis single (adopted.of_quiet first.quiet) later)
  | tag name attributes inside rest _ inductionHypothesis =>
      obtain ⟨opened, openedTag, later⟩ := foldlM_cons_eq_ok_iff.1 completed
      obtain ⟨middle, inner, later⟩ := foldlM_append_eq_ok_iff.1 later
      obtain ⟨next, closedTag, later⟩ := foldlM_cons_eq_ok_iff.1 later
      cases single with
      | here isConstruct fit inert =>
          exact ⟨.refl before, isConstruct, fit, openedTag, inside, inner, closedTag, rest, inert,
            later⟩
      | later isInert inert single =>
          have first := rests_of_tag adopted isInert openedTag
            (fun adopted => rests_of_spelled inside inert adopted inner) closedTag
          exact .of_rests first (inductionHypothesis single (adopted.of_quiet first.quiet) later)

/-! ## The restriction of a simple type -/

theorem stepOpening_eq (adopted : before.Adopted vocabulary)
    (taken : before.stepOpening name attributes = .ok opened) :
    opened = { (before.openTag (vocabulary.classify name) attributes).1 with
      openTags := ⟨vocabulary.classify name, name,
        (before.openTag (vocabulary.classify name) attributes).2⟩ ::
          (before.openTag (vocabulary.classify name) attributes).1.openTags } := by
  have same : before.adoptQualifier name attributes = before :=
    adoptQualifier_of_adopted adopted.awaitsFirstTag name attributes
  obtain ⟨construct, isConstruct, sameOpened⟩ := exists_openTag_of_stepOpening taken
  rw [same, adopted.vocabulary] at isConstruct
  rw [same, isConstruct] at sameOpened
  exact sameOpened

/-- A restriction gives a simple type its base, unless it has one. -/
theorem derivation?_openRestriction {assembly : Assembly} (isTop : assembly.top? = some id)
    (outside : assembly.within .attribute = false) :
    (assembly.openRestriction attributes).context.derivation? id =
      (assembly.context.derivation? id).map fun derivation =>
        { derivation with base? := derivation.base?.or (attributes.find? "base") } := by
  unfold openRestriction
  dsimp only
  rw [if_neg (by rw [outside]; decide)]
  unfold modifyTop
  rw [isTop]
  refine (congrArg (Option.bind · Node.derivation?)
    ((Arena.node?_modify assembly.context.arena id id _).trans (if_pos rfl))).trans ?_
  unfold Context.derivation? Context.node?
  cases assembly.context.arena.node? id with
  | none => rfl
  | some node =>
      cases node with
      | simple simpleType => rfl
      | declaration element =>
          dsimp only [Option.map_some, Option.bind_some]
          split
          · rfl
          · split <;> rfl

/-- Content with a single restriction gives the simple type around it a base. -/
theorem derivation?_of_single {base : String} {isList : Bool} {members : List String}
    {content : Content} {events : List Xml.Event} (adopted : before.Adopted vocabulary)
    (isTop : before.top? = some id) (old : id.index < before.context.arena.size)
    (outside : before.within .attribute = false)
    (derived : before.context.derivation? id = some ⟨none, isList, members⟩)
    (spelled : content.Spelled events)
    (single : content.Single vocabulary .restriction fun attributes inside =>
      attributes.find? "base" = some base ∧ inside.IsInert vocabulary)
    (completed : events.foldlM step before = .ok after) :
    Quiet before after ∧ after.context.derivation? id = some ⟨some base, isList, members⟩ := by
  obtain ⟨earlier, isConstruct, ⟨hasBase, inert⟩, opening, spelledInside, inner, closing,
    spelledLater, inertLater, later⟩ := takesSingle_of_spelled spelled single adopted completed
  rename_i name attributes inside rest within late between opened middle closed
  have adoptedBetween : between.Adopted vocabulary := adopted.of_quiet earlier.quiet
  have passes : (vocabulary.classify name).opensNode attributes between.around between.depth =
      false := by
    rw [isConstruct]
    rfl
  obtain ⟨passed, quietOpening, -, sameOpened⟩ := exists_passing adoptedBetween passes opening
  have adoptedOpened : opened.Adopted vocabulary := by
    have adoptedPassed := adoptedBetween.of_quiet quietOpening
    rw [sameOpened]
    exact ⟨adoptedPassed.awaitsFirstTag, adoptedPassed.vocabulary⟩
  have inside := rests_of_spelled spelledInside inert adoptedOpened inner
  have quietTag := quiet_of_passing adoptedBetween passes opening inside.quiet closing
  have last := rests_of_spelled spelledLater inertLater (adoptedBetween.of_quiet quietTag) later
  refine ⟨earlier.quiet.trans (quietTag.trans last.quiet), ?_⟩
  have sizeBetween := earlier.quiet.context.size
  have sizeOpened : opened.context.arena.size = between.context.arena.size := by
    rw [sameOpened]
    exact quietOpening.context.size
  have sizeClosed := quietTag.context.size
  have topBetween : between.top? = some id :=
    (congrArg List.head? earlier.quiet.openNodes).trans isTop
  have outsideBetween : between.within .attribute = false := by
    unfold Assembly.within at outside ⊢
    rw [earlier.quiet.openTags]
    exact outside
  calc after.context.derivation? id
    _ = closed.context.derivation? id := last.derivation? id (by omega)
    _ = middle.context.derivation? id := derivation?_stepClosing closing
    _ = opened.context.derivation? id := inside.derivation? id (by omega)
    _ = (between.openRestriction attributes).context.derivation? id := by
      rw [stepOpening_eq adoptedBetween opening, isConstruct]
      rfl
    _ = some ⟨some base, isList, members⟩ := by
      rw [derivation?_openRestriction topBetween outsideBetween, earlier.derivation? id old,
        derived, hasBase]
      rfl

/-! ## The simple type of an element -/

/-- A simple type without a name of its own is called like the node around it. -/
theorem openSimpleType_unnamed {assembly : Assembly}
    (outside : assembly.within .attribute = false)
    (outermost : assembly.insideSimpleType = false) (unnamed : attributes.find? "name" = none) :
    (assembly.openSimpleType attributes).1.context.derivation? assembly.context.arena.nextId =
        some ⟨none, false, []⟩ ∧
      ∀ name, (assembly.top?.map assembly.context.nodeName).getD "" = name → name ≠ "" →
        assembly.context.simpleTypes.find? name = none →
        (assembly.openSimpleType attributes).1.context.simpleTypes.find? name =
          some assembly.context.arena.nextId := by
  unfold openSimpleType
  rw [outside, outermost, unnamed, if_neg (by decide)]
  extract_lets ownName marked entered simpleType opened
  have marking : Quiet assembly marked :=
    .modifyTopElement assembly fun element => by split <;> rfl
  have sameId : entered = assembly.context.arena.nextId := marking.context.nextId
  have fresh : opened.context.derivation? entered = some ⟨none, false, []⟩ :=
    congrArg (Option.bind · Node.derivation?)
      ((Arena.node?_add marked.context.arena _ entered).trans (if_pos rfl))
  rw [← sameId]
  split
  · rename_i nameless
    exact ⟨fresh, fun name same named => absurd (same.symm.trans nameless) named⟩
  · refine ⟨fresh, fun name same _ absent => ?_⟩
    have absentThere : opened.context.simpleTypes.find? name = none := by
      rw [← absent, ← marking.context.simpleTypes]
      rfl
    have sameName : ownName = name := same
    show (opened.context.simpleTypes.insertNew ownName entered).find? name = some entered
    rw [sameName, Table.find?_insertNew, if_pos rfl, absentThere]
    rfl

/-- What the tag of a simple type without a name does. -/
structure OpensUnnamed (tag : String) (before opened : Assembly) : Prop where
  openNodes : opened.openNodes = before.context.arena.nextId :: before.openNodes
  openTags : opened.openTags = ⟨.simpleType, tag, true⟩ :: before.openTags
  size : opened.context.arena.size = before.context.arena.size + 1
  derived : opened.context.derivation? before.context.arena.nextId = some ⟨none, false, []⟩
  named : ∀ name, (before.top?.map before.context.nodeName).getD "" = name → name ≠ "" →
    before.context.simpleTypes.find? name = none →
    opened.context.simpleTypes.find? name = some before.context.arena.nextId

theorem opensUnnamed_of_stepOpening (adopted : before.Adopted vocabulary)
    (outside : before.within .attribute = false) (outermost : before.insideSimpleType = false)
    (isType : vocabulary.classify name = .simpleType) (unnamed : attributes.find? "name" = none)
    (taken : before.stepOpening name attributes = .ok opened) :
    OpensUnnamed name before opened ∧ opened.Adopted vocabulary := by
  have makes : (before.openTag .simpleType attributes).2 = true := by
    rw [snd_openTag]
    unfold Construct.opensNode
    dsimp only
    rw [← within_eq, ← insideSimpleType_eq, outside, outermost]
    rfl
  have opens : Opens .simpleType attributes before (before.openTag .simpleType attributes).1 := by
    have effect := effect_openTag before .simpleType attributes
    rw [← Prod.eta (before.openTag .simpleType attributes), makes] at effect
    exact .of_effect effect
  have sameOpened := stepOpening_eq adopted taken
  rw [isType, makes, opens.openTags] at sameOpened
  subst sameOpened
  obtain ⟨derived, named⟩ := openSimpleType_unnamed outside outermost unnamed
  exact ⟨⟨opens.openNodes, rfl, opens.size, derived, named⟩,
    opens.awaitsFirstTag.trans adopted.awaitsFirstTag, opens.vocabulary.trans adopted.vocabulary⟩

/-- The closing of a simple type takes it from the stack. -/
theorem stepClosing_simpleType {outer : List OpenTag}
    (tags : before.openTags = ⟨.simpleType, name, true⟩ :: outer)
    (closed : before.stepClosing = .ok after) :
    after = dropNode { before with openTags := outer } := by
  unfold stepClosing at closed
  rw [tags] at closed
  exact (Except.ok.inj closed).symm

/-- An inline type ends as the node behind those that are there before it, with the base of its
restriction, and it is entered under the name of the node around it if that name is free. -/
theorem exists_inlineType {base : String} {content : Content} {events : List Xml.Event}
    (standing : before.Standing) (adopted : before.Adopted vocabulary)
    (outside : before.within .attribute = false) (outermost : before.insideSimpleType = false)
    (spelled : content.Spelled events) (inline : content.IsInlineType vocabulary base)
    (completed : events.foldlM step before = .ok after) :
    after.Closed before.context.arena.nextId ∧
      after.context.derivation? before.context.arena.nextId = some ⟨some base, false, []⟩ ∧
      ∀ name, (before.top?.map before.context.nodeName).getD "" = name → name ≠ "" →
        before.context.simpleTypes.find? name = none →
        after.context.simpleTypes.find? name = some before.context.arena.nextId := by
  obtain ⟨earlier, isType, ⟨unnamed, single⟩, opening, spelledInside, inner, closing,
    spelledLater, inertLater, later⟩ := takesSingle_of_spelled spelled inline adopted completed
  rename_i tag attributes inside rest within late between opened middle closed
  have adoptedBetween : between.Adopted vocabulary := adopted.of_quiet earlier.quiet
  have outsideBetween : between.within .attribute = false := by
    unfold Assembly.within at outside ⊢
    rw [earlier.quiet.openTags]
    exact outside
  have outermostBetween : between.insideSimpleType = false := by
    unfold Assembly.insideSimpleType Assembly.within at outermost ⊢
    rw [earlier.quiet.openTags]
    exact outermost
  obtain ⟨opens, adoptedOpened⟩ := opensUnnamed_of_stepOpening adoptedBetween outsideBetween
    outermostBetween isType unnamed opening
  -- The restriction gives the new type a base, and then the type is taken from the stack.
  have isTop : opened.top? = some between.context.arena.nextId := by
    unfold top?
    rw [opens.openNodes]
    rfl
  have outsideOpened : opened.within .attribute = false := by
    unfold Assembly.within at outsideBetween ⊢
    rw [opens.openTags]
    exact outsideBetween
  obtain ⟨quietInside, derived⟩ := derivation?_of_single adoptedOpened isTop
    (by rw [opens.size]; exact Nat.lt_succ_self _) outsideOpened opens.derived spelledInside single
    inner
  have sameClosed := stepClosing_simpleType (quietInside.openTags.trans opens.openTags) closing
  have adoptedClosed : closed.Adopted vocabulary := by
    have adoptedMiddle := adoptedOpened.of_quiet quietInside
    rw [sameClosed]
    exact ⟨adoptedMiddle.awaitsFirstTag, adoptedMiddle.vocabulary⟩
  have last := rests_of_spelled spelledLater inertLater adoptedClosed later
  have sameId : between.context.arena.nextId = before.context.arena.nextId :=
    earlier.quiet.context.nextId
  have sizeClosed : closed.context.arena.size = between.context.arena.size + 1 := by
    rw [sameClosed, ← opens.size]
    exact quietInside.context.size
  have old : between.context.arena.nextId.index < closed.context.arena.size := by
    rw [sizeClosed]
    exact Nat.lt_succ_self _
  rw [← sameId]
  refine ⟨⟨last.quiet.context.size ▸ old, fun stillOpen => ?_⟩, ?_,
    fun name same named absent => ?_⟩
  · have below : between.context.arena.nextId ∈ before.openNodes := by
      rw [last.quiet.openNodes, sameClosed] at stillOpen
      have tail : between.context.arena.nextId ∈ middle.openNodes.tail := stillOpen
      rw [quietInside.openNodes, opens.openNodes, List.tail_cons, earlier.quiet.openNodes] at tail
      exact tail
    have present := standing.stacked.isSome_node? _ below
    rw [sameId, Context.node?_nextId] at present
    cases present
  · rw [last.derivation? _ old, sameClosed]
    exact derived
  · obtain ⟨events, reached⟩ := earlier.reached
    have extension := (written_foldlM standing reached).1.extends
    have sameName : (between.top?.map between.context.nodeName).getD "" = name := by
      have sameTop : between.top? = before.top? := congrArg List.head? earlier.quiet.openNodes
      rw [sameTop, ← same]
      cases isTop : before.top? with
      | none => rfl
      | some id =>
          exact extension.nodeName
            (standing.stacked.isSome_node? id (List.mem_of_mem_head? isTop))
    have absentBetween : between.context.simpleTypes.find? name = none := by
      rw [earlier.quiet.context.simpleTypes]
      exact absent
    have entered := opens.named name sameName named absentBetween
    rw [last.quiet.context.simpleTypes, sameClosed]
    show middle.context.simpleTypes.find? name = _
    rw [quietInside.context.simpleTypes]
    exact entered

/-! ## Documents -/

namespace Adopted

theorem of_effect {construct : Construct} {result : Assembly × Bool}
    (adopted : before.Adopted vocabulary)
    (effect : Effect construct attributes before result) : result.1.Adopted vocabulary := by
  obtain ⟨opened, opensNode⟩ := result
  cases opensNode with
  | false =>
      cases effect with
      | passes _ quiet => exact adopted.of_quiet quiet
  | true =>
      have opens := Opens.of_effect effect
      exact ⟨opens.awaitsFirstTag.trans adopted.awaitsFirstTag,
        opens.vocabulary.trans adopted.vocabulary⟩

/-- The first tag decides about the vocabulary before it is taken. -/
theorem of_stepOpening (taken : before.stepOpening name attributes = .ok next) :
    next.Adopted (before.adoptQualifier name attributes).context.vocabulary := by
  have adopted : (before.adoptQualifier name attributes).Adopted
      (before.adoptQualifier name attributes).context.vocabulary :=
    ⟨awaitsFirstTag_adoptQualifier before name attributes, rfl⟩
  obtain ⟨construct, opened, opensNode, -, -, effect, rfl⟩ := exists_effect_of_stepOpening taken
  have kept := adopted.of_effect effect
  exact ⟨kept.awaitsFirstTag, kept.vocabulary⟩

/-- The vocabulary is that of the first tag to the end. -/
theorem stepOpening (adopted : before.Adopted vocabulary)
    (taken : before.stepOpening name attributes = .ok next) : next.Adopted vocabulary := by
  have same : before.adoptQualifier name attributes = before :=
    adoptQualifier_of_adopted adopted.awaitsFirstTag name attributes
  obtain ⟨construct, opened, opensNode, -, -, effect, rfl⟩ := exists_effect_of_stepOpening taken
  rw [same] at effect
  have kept := adopted.of_effect effect
  exact ⟨kept.awaitsFirstTag, kept.vocabulary⟩

theorem stepClosing (standing : before.Standing) (adopted : before.Adopted vocabulary)
    (taken : before.stepClosing = .ok next) : next.Adopted vocabulary := by
  obtain ⟨tag, outer, -, ⟨-, root, -, rfl⟩ | effect⟩ := standing.cases_of_stepClosing taken
  · exact ⟨adopted.awaitsFirstTag, adopted.vocabulary⟩
  · have popped : Adopted vocabulary { before with openTags := outer } :=
      ⟨adopted.awaitsFirstTag, adopted.vocabulary⟩
    cases effect with
    | passes _ quiet => exact popped.of_quiet quiet
    | drops _ _ quiet =>
        have kept : Adopted vocabulary (dropNode { before with openTags := outer }) :=
          ⟨popped.awaitsFirstTag, popped.vocabulary⟩
        exact kept.of_quiet quiet
    | links _ _ open_eq =>
        rw [linkChild_eq open_eq]
        exact ⟨popped.awaitsFirstTag, popped.vocabulary⟩

theorem foldlM {events : List Xml.Event} (standing : before.Standing)
    (adopted : before.Adopted vocabulary) (completed : events.foldlM step before = .ok after) :
    after.Adopted vocabulary := by
  refine (keeps_foldlM (fun current => current.Standing ∧ current.Adopted vocabulary) ?_ ?_ ?_
    ⟨standing, adopted⟩ completed).2
  · exact fun kept taken => ⟨kept.1.stepOpening taken, kept.2.stepOpening taken⟩
  · exact fun kept taken => ⟨kept.1.stepClosing taken, kept.2.stepClosing kept.1 taken⟩
  · exact fun text kept => ⟨kept.1.stepText text, kept.2.of_quiet (quiet_stepText _ text)⟩

end Adopted

theorem Effect.simpleTypes {construct : Construct} {result : Assembly × Bool}
    (effect : Effect construct attributes before result) (notType : construct ≠ .simpleType) :
    result.1.context.simpleTypes = before.context.simpleTypes := by
  cases effect with
  | passes _ quiet => exact quiet.context.simpleTypes
  | declares early _ late => exact late.context.simpleTypes.trans early.context.simpleTypes
  | types _ isType _ => exact absurd isType notType

/-- What the tag of an element does. -/
structure OpensElement (tag : String) (before opened : Assembly) : Prop where
  openNodes : opened.openNodes = before.context.arena.nextId :: before.openNodes
  openTags : opened.openTags = ⟨.element, tag, true⟩ :: before.openTags
  nextId : opened.context.arena.nextId = ⟨before.context.arena.size + 1⟩
  simpleTypes : opened.context.simpleTypes = before.context.simpleTypes

theorem opensElement_of_stepOpening
    (isElement : (before.adoptQualifier name attributes).context.vocabulary.classify name =
      .element)
    (taken : before.stepOpening name attributes = .ok opened) :
    OpensElement name before opened := by
  obtain ⟨arena, openNodes, openTags, -⟩ := stacks_adoptQualifier before name attributes
  have simpleTypes : (before.adoptQualifier name attributes).context.simpleTypes =
      before.context.simpleTypes := by
    unfold adoptQualifier
    split
    · dsimp only
      split <;> rfl
    · rfl
  obtain ⟨construct, within, opensNode, rfl, makes, effect, rfl⟩ :=
    exists_effect_of_stepOpening taken
  rw [isElement] at makes effect ⊢
  subst makes
  have opens : Opens .element attributes (before.adoptQualifier name attributes) within :=
    .of_effect effect
  refine ⟨?_, ?_, ?_, ?_⟩
  · rw [← arena, ← openNodes]
    exact opens.openNodes
  · show _ :: within.openTags = _
    rw [opens.openTags, openTags]
    rfl
  · rw [← arena]
    exact congrArg NodeId.mk opens.size
  · exact (effect.simpleTypes (by decide)).trans simpleTypes

end Assembly

section Documents

open Assembly

/-- The next tag of a document after those that lead to an assembly is that of an element, and
inside it stands an inline type with a base. The element is not inside an attribute, nor inside the
restriction, list or union of a simple type. -/
inductive MeetsInlineType (options : Options) (document : Bytes) (vocabulary : Vocabulary)
    (base : String) (before : Assembly) : Prop where
  | intro {earlier inside later : List Xml.Event} {tag : String} {attributes : Xml.Attributes}
      {content : Content}
      (split : (Xml.read document).events.map Xml.Located.value =
        earlier ++ .opening tag attributes :: (inside ++ .closing :: later))
      (reached : earlier.foldlM step (start (.initial options)) = .ok before)
      (isElement : vocabulary.classify tag = .element)
      (outside : before.within .attribute = false) (outermost : before.insideSimpleType = false)
      (spelled : content.Spelled inside) (inline : content.IsInlineType vocabulary base) :
      MeetsInlineType options document vocabulary base before

variable {options : Options} {document : Bytes} {context : Context} {root : NodeId} {base : String}
  {before : Assembly}

/-- The inline type of an element is the node behind that of the element. Where no simple type is
called like the element before it, the table has the inline type under that name. -/
theorem exists_inlineType_readTree
    (read : readTree (.initial options) document = .ok (context, root))
    (meets : MeetsInlineType options document context.vocabulary base before) :
    ∃ element, context.element? before.context.arena.nextId = some element ∧
      context.derivation? ⟨before.context.arena.size + 1⟩ = some ⟨some base, false, []⟩ ∧
      (element.name ≠ "" → before.context.simpleTypes.find? element.name = none →
        context.simpleTypes.find? element.name = some ⟨before.context.arena.size + 1⟩) := by
  obtain ⟨split, reached, isElement, outside, outermost, spelled, inline⟩ := meets
  rename_i earlier inside later tag attributes content
  obtain ⟨assembly, completed, -, rfl⟩ := exists_run_of_readTree read
  have taken := foldlM_step_of_run completed
  rw [split] at taken
  obtain ⟨again, takenEarlier, taken⟩ := foldlM_append_eq_ok_iff.1 taken
  cases reached.symm.trans takenEarlier
  obtain ⟨opened, openedTag, taken⟩ := foldlM_cons_eq_ok_iff.1 taken
  obtain ⟨middle, takenInside, takenLater⟩ := foldlM_append_eq_ok_iff.1 taken
  have standing := (written_foldlM (standing_start (.initial options)) reached).2
  have standingOpened := standing.stepOpening openedTag
  obtain ⟨writtenInside, standingMiddle⟩ := written_foldlM standingOpened takenInside
  have written := (written_foldlM standingMiddle takenLater).1
  have extension : Extends opened.context assembly.context :=
    writtenInside.extends.trans written.extends
  -- The vocabulary of the tag is that of the whole document.
  have adopted := Adopted.of_stepOpening openedTag
  have sameVocabulary : assembly.context.vocabulary =
      (before.adoptQualifier tag attributes).context.vocabulary :=
    ((adopted.foldlM standingOpened takenInside).foldlM standingMiddle takenLater).vocabulary
  rw [sameVocabulary] at isElement inline
  have opens := opensElement_of_stepOpening isElement openedTag
  have isTop : opened.top? = some before.context.arena.nextId := by
    unfold top?
    rw [opens.openNodes]
    rfl
  have outsideOpened : opened.within .attribute = false := by
    unfold Assembly.within at outside ⊢
    rw [opens.openTags]
    exact outside
  have outermostOpened : opened.insideSimpleType = false := by
    unfold Assembly.insideSimpleType Assembly.within at outermost ⊢
    rw [opens.openTags]
    exact outermost
  obtain ⟨closed, derived, named⟩ := exists_inlineType standingOpened adopted outsideOpened
    outermostOpened spelled inline takenInside
  rw [opens.nextId] at closed derived named
  -- The element is there from its tag on.
  have stacked := standingOpened.stacked
  rw [opens.openTags] at stacked
  obtain ⟨id, rest, nodes, makes, -⟩ := stacked.exists_of_opensNode rfl
  obtain rfl : before.context.arena.nextId = id :=
    (List.cons.inj (opens.openNodes.symm.trans nodes)).1
  cases makes with
  | declaration found _ =>
      obtain ⟨element, present, same⟩ := extension.element? found
      have sameName : opened.context.nodeName before.context.arena.nextId = element.name := by
        unfold Context.nodeName
        rw [Context.node?_eq_declaration_iff.2 found]
        exact (Element.of_identity same).2.1.symm
      refine ⟨element, present, ?_, fun isNamed absent => ?_⟩
      · exact (derivation?_foldlM standingMiddle closed takenLater).trans derived
      · rw [← sameName] at isNamed absent ⊢
        refine written.find?_simpleTypes (named _ ?_ isNamed ?_)
        · rw [isTop]
          rfl
        · rw [opens.simpleTypes]
          exact absent

end Documents

end XmlSchema
