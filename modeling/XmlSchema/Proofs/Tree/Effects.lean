import XmlSchema.Proofs.Tree.Soundness
import XmlSchema.Tree.Reading

/-!
# What events do to the tree

An opening tag leaves the tree as it is, adds a declaration without children, or adds a simple type:
`effect_openTag`. A closing tag leaves the tree as it is, takes the innermost open node from the
stack, or links it to the one around it as well: `effect_closeTag`. Everything else that an event
does is `Quiet`. What openings, closings and text keep, a run of events keeps: `keeps_run`.
-/

namespace XmlSchema

/-- The kind of the declaration that a tag of a construct makes. -/
def Construct.kind? : Construct → Option ElementKind
  | .schema => some .schema
  | .element => some .element
  | .complexType => some .complexType
  | .any => some .any
  | .group => some .group
  | .attributeGroup => some .attributeGroup
  | _ => none

/-- Whether tags of a construct can make nodes. -/
def Construct.MakesNode (construct : Construct) : Prop :=
  construct.kind?.isSome = true ∨ construct = .simpleType

/-- Whether a simple type is around, with a restriction, list or union inside it. The innermost
construct comes first. -/
def Construct.insideSimpleType (around : List Construct) : Bool :=
  around.any (· = .simpleType) &&
    (around.takeWhile (· ≠ .simpleType)).any fun construct =>
      construct = .restriction || construct = .list || construct = .union

/-- Whether a tag makes a node, from its attributes, the constructs around it and the number of open
nodes. -/
def Construct.opensNode (construct : Construct) (attributes : Xml.Attributes)
    (around : List Construct) (depth : Nat) : Bool :=
  match construct with
  | .schema | .element | .any | .group => true
  | .complexType => depth = 1
  | .attributeGroup => (attributes.find? "name").isSome
  | .simpleType => !around.any (· = .attribute) && !insideSimpleType around
  | _ => false

namespace Assembly

/-- The constructs of the open tags, the innermost first. -/
def around (assembly : Assembly) : List Construct := assembly.openTags.map OpenTag.construct

/-- Two assemblies with the same tree and the same stacks. -/
structure Quiet (before after : Assembly) : Prop where
  context : before.context.Quiet after.context
  openNodes : after.openNodes = before.openNodes
  openTags : after.openTags = before.openTags
  awaitsFirstTag : after.awaitsFirstTag = before.awaitsFirstTag
  root? : after.root? = before.root?

variable {assembly before middle after : Assembly} {construct : Construct}
  {attributes : Xml.Attributes}

namespace Quiet

theorem refl (assembly : Assembly) : Quiet assembly assembly :=
  ⟨.refl assembly.context, rfl, rfl, rfl, rfl⟩

/-- A change of the context that leaves tree, vocabulary and simple types as they are. -/
theorem mapContext (assembly : Assembly) {change : Context → Context}
    (quiet : assembly.context.Quiet (change assembly.context)) :
    Quiet assembly (assembly.mapContext change) :=
  ⟨quiet, rfl, rfl, rfl, rfl⟩

theorem modifyTop (assembly : Assembly) {change : Node → Node}
    (keeps : ∀ node, (change node).treePart? = node.treePart?) :
    Quiet assembly (assembly.modifyTop change) := by
  unfold Assembly.modifyTop
  split
  · exact .mapContext assembly (.modifyNode assembly.context _ keeps)
  · exact .refl assembly

theorem modifyTopElement (assembly : Assembly) {change : Element → Element}
    (keeps : ∀ element, (change element).treePart = element.treePart) :
    Quiet assembly (assembly.modifyTopElement change) := by
  refine .modifyTop assembly fun node => ?_
  cases node with
  | declaration element => exact congrArg some (keeps element)
  | simple simpleType => rfl

theorem modifyTopSimpleType (assembly : Assembly) (change : SimpleType → SimpleType) :
    Quiet assembly (assembly.modifyTopSimpleType change) := by
  refine .modifyTop assembly fun node => ?_
  cases node <;> rfl

theorem warn (assembly : Assembly) (warning : Warning) : Quiet assembly (assembly.warn warning) :=
  .mapContext assembly (.of_arena rfl rfl rfl rfl)

end Quiet

/-! ## Openings -/

/-- A declaration as the tag of a construct makes it. -/
structure Declares (construct : Construct) (attributes : Xml.Attributes) (vocabulary : Vocabulary)
    (element : Element) : Prop where
  kind : construct.kind? = some element.kind
  follows : element.FollowsTag vocabulary
  childless : element.children = []
  groupRef? : element.groupRef? = if construct = .group then attributes.find? "ref" else none

/-- An assembly with a new simple type, which may enter the table under a name. -/
def openSimpleNode (assembly : Assembly) (simpleType : SimpleType) (name? : Option String) :
    Assembly :=
  (assembly.openNode (.simple simpleType)).mapContext fun context =>
    match name? with
    | none => context
    | some name =>
        { context with
          simpleTypes := context.simpleTypes.insertNew name assembly.context.arena.nextId }

/-- What an opening tag does. The second component of its result says whether it makes a node. -/
inductive Effect (construct : Construct) (attributes : Xml.Attributes) (before : Assembly) :
    Assembly × Bool → Prop where
  | passes {after : Assembly} (inside : construct ≠ .schema) (quiet : Quiet before after) :
      Effect construct attributes before (after, false)
  | declares {middle after : Assembly} {element : Element} (early : Quiet before middle)
      (declared : Declares construct attributes before.context.vocabulary element)
      (late : Quiet (middle.openNode (.declaration element)) after) :
      Effect construct attributes before (after, true)
  | types {middle : Assembly} {simpleType : SimpleType} (name? : Option String)
      (isType : construct = .simpleType) (early : Quiet before middle) :
      Effect construct attributes before (middle.openSimpleNode simpleType name?, true)

/-- Nothing else happens but the opening of a declaration. -/
theorem Effect.of_openNode {element : Element}
    (declared : Declares construct attributes before.context.vocabulary element) :
    Effect construct attributes before (before.openNode (.declaration element), true) :=
  .declares (.refl before) declared (.refl _)

theorem followsTag_ofTag (kind : ElementKind) (attributes : Xml.Attributes)
    (vocabulary : Vocabulary) :
    (Element.ofTag kind attributes vocabulary).FollowsTag vocabulary := by
  refine ⟨?_, ?_, rfl, rfl⟩
  · intro notAny written found
    have typeWritten : attributes.find? "type" = some written := found
    have otherKind : ¬ kind = .any := notAny
    unfold Element.ofTag
    dsimp only
    rw [if_neg otherKind, typeWritten]
    rfl
  · intro notAny found
    have noType : attributes.find? "type" = none := found
    have otherKind : ¬ kind = .any := notAny
    unfold Element.ofTag
    dsimp only
    rw [if_neg otherKind, noType]
    rfl

/-- The declaration of a tag, where it is changed in other parts only. -/
theorem Declares.of_ofTag {kind : ElementKind} {vocabulary : Vocabulary} {element : Element}
    (sameKind : construct.kind? = some kind)
    (same : element.treePart = { (Element.ofTag kind attributes vocabulary).treePart with
      groupRef? := if construct = .group then attributes.find? "ref" else none }) :
    Declares construct attributes vocabulary element := by
  have sameType : element.typePart = (Element.ofTag kind attributes vocabulary).typePart :=
    congrArg Element.TreePart.type same
  have kinds : element.kind = kind := congrArg Prod.fst sameType
  refine ⟨kinds ▸ sameKind, (followsTag_ofTag kind attributes vocabulary).of_typePart sameType, ?_,
    congrArg Element.TreePart.groupRef? same⟩
  have childless : element.children = (Element.ofTag kind attributes vocabulary).children :=
    congrArg Element.TreePart.children same
  exact childless

theorem quiet_bindNamespaces (entries : List (String × String)) (context : Context) :
    context.Quiet (entries.foldl (fun context (key, value) => bindNamespace context key value)
      context) := by
  induction entries generalizing context with
  | nil => exact .refl context
  | cons entry rest inductionHypothesis =>
      have first : context.Quiet (bindNamespace context entry.1 entry.2) := by
        unfold bindNamespace
        split
        · exact .of_arena rfl rfl rfl rfl
        · split
          · exact .of_arena rfl rfl rfl rfl
          · split
            · exact .of_arena rfl rfl rfl rfl
            · exact .refl context
      exact first.trans (inductionHypothesis _)

theorem effect_openSchema :
    Effect .schema attributes assembly (assembly.openSchema attributes, true) := by
  have bound := quiet_bindNamespaces attributes.entries assembly.context
  exact .declares (.mapContext assembly bound) (.of_ofTag rfl rfl) (.refl _)

theorem effect_openElement {kind : ElementKind} (sameKind : construct.kind? = some kind)
    (notGroup : construct ≠ .group) :
    Effect construct attributes assembly (assembly.openElement kind attributes, true) := by
  have declared : ∀ definesContent isTopLevel choice?,
      Declares construct attributes assembly.context.vocabulary
        { Element.ofTag kind attributes assembly.context.vocabulary with
          definesContent, isTopLevel, choice? } := by
    intro definesContent isTopLevel choice?
    refine .of_ofTag sameKind ?_
    rw [if_neg notGroup]
    rfl
  unfold openElement
  dsimp only
  split
  · rename_i head member _ _
    have recorded : Quiet assembly
        (assembly.mapContext (·.addSubstitution (Namespace.localPart head) member)) :=
      .mapContext assembly (.of_arena rfl rfl rfl rfl)
    exact .declares recorded (declared _ _ _) (.refl _)
  · exact .of_openNode (declared _ _ _)

theorem effect_openAttributeGroup :
    Effect .attributeGroup attributes assembly (assembly.openAttributeGroup attributes) := by
  have referring : ∀ (assembly : Assembly) (reference : String) (defining : Bool),
      Quiet assembly (assembly.modifyTopElement (referToAttributeGroup reference defining)) := by
    intro assembly reference defining
    refine .modifyTopElement assembly fun element => ?_
    unfold referToAttributeGroup
    split <;> rfl
  unfold openAttributeGroup
  cases attributes.find? "name" with
  | none =>
      dsimp only
      split
      · exact .passes (by decide) (referring assembly _ _)
      · exact .passes (by decide) (.refl assembly)
  | some name =>
      have declared : Declares .attributeGroup attributes assembly.context.vocabulary
          { Element.ofTag .attributeGroup attributes assembly.context.vocabulary with
            isTopLevel := assembly.depth == 1
            openGroup? := some (.ofName (Namespace.localPart name)) } :=
        .of_ofTag rfl rfl
      dsimp only
      split
      · exact .declares (.refl assembly) declared (referring _ _ _)
      · exact .of_openNode declared

theorem effect_openSimpleType :
    Effect .simpleType attributes assembly (assembly.openSimpleType attributes) := by
  have marking : Quiet assembly (assembly.modifyTopElement fun element =>
      if element.kind = .schema then element else { element with inlineSimpleType := true }) := by
    refine .modifyTopElement assembly fun element => ?_
    split <;> rfl
  unfold openSimpleType
  split
  · exact .passes (by decide) (.refl assembly)
  · extract_lets name marked id opened
    split
    · exact .types none rfl marking
    · exact .types (some name) rfl marking

theorem treePart_mergeAttributes (element : Element) :
    (mergeAttributes attributes element).treePart = element.treePart := by
  unfold mergeAttributes
  generalize attributes.entries = entries
  induction entries generalizing element with
  | nil => rfl
  | cons entry rest inductionHypothesis =>
      rw [List.foldl_cons, inductionHypothesis]
      dsimp only
      split <;> rfl

theorem quiet_slotModify (context : Context) (change : Attribute → Attribute)
    (slot : AttributeSlot) : context.Quiet (slot.modify context change) := by
  cases slot with
  | global name => exact .of_arena rfl rfl rfl rfl
  | grouped owner name => exact .modifyElement context owner fun _ => rfl
  | owned owner name => exact .modifyElement context owner fun _ => rfl

theorem quiet_openAttribute : Quiet assembly (assembly.openAttribute attributes) := by
  unfold openAttribute
  dsimp only
  split
  · exact .refl assembly
  · split
    · exact .refl assembly
    · split
      · exact ⟨.of_arena rfl rfl rfl rfl, rfl, rfl, rfl, rfl⟩
      · split
        · exact ⟨.modifyElement assembly.context _ fun _ => rfl, rfl, rfl, rfl, rfl⟩
        · exact ⟨.modifyElement assembly.context _ fun _ => rfl, rfl, rfl, rfl, rfl⟩

theorem quiet_openExtension : Quiet assembly (assembly.openExtension attributes) := by
  unfold openExtension
  split
  · exact .refl assembly
  · split
    · refine .modifyTopElement assembly fun element => ?_
      unfold Element.addSimpleBase
      split <;> rfl
    · exact .modifyTopElement assembly fun _ => rfl

theorem quiet_openRestriction : Quiet assembly (assembly.openRestriction attributes) := by
  unfold openRestriction
  dsimp only
  split
  · split
    · exact .mapContext assembly (quiet_slotModify _ _ _)
    · exact .refl assembly
  · refine .modifyTop assembly fun node => ?_
    cases node with
    | simple simpleType => rfl
    | declaration element =>
        dsimp only
        split
        · rfl
        · split <;> rfl

theorem quiet_openFacet : Quiet assembly (assembly.openFacet construct attributes) := by
  unfold openFacet
  split
  · exact .warn assembly _
  · split
    · exact .warn assembly _
    · rename_i facet _
      split
      · rename_i owner _
        refine .mapContext assembly ?_
        cases owner with
        | declaredAttribute slot => exact quiet_slotModify _ _ _
        | node id =>
            refine .modifyNode assembly.context id fun node => ?_
            cases node <;> rfl
      · exact .warn assembly _

theorem quiet_openWhiteSpace : Quiet assembly (assembly.openWhiteSpace attributes) := by
  unfold openWhiteSpace
  split
  · refine .modifyTop assembly fun node => ?_
    cases node <;> rfl
  · exact .refl assembly

theorem effect_openTag (assembly : Assembly) (construct : Construct) (attributes : Xml.Attributes) :
    Effect construct attributes assembly (assembly.openTag construct attributes) := by
  have composing : ∀ choice?, Quiet assembly (assembly.openCompositor choice?) :=
    fun choice? => ⟨.refl assembly.context, rfl, rfl, rfl, rfl⟩
  cases construct
  case schema => exact effect_openSchema
  case element => exact effect_openElement rfl (by decide)
  case complexType =>
    unfold openTag
    dsimp only
    split
    · exact effect_openElement rfl (by decide)
    · refine .passes (by decide) ?_
      unfold openInnerComplexType
      split
      · exact .refl assembly
      · exact .modifyTopElement assembly treePart_mergeAttributes
  case any => exact .of_openNode (.of_ofTag rfl rfl)
  case group => exact .of_openNode (.of_ofTag rfl rfl)
  case sequence => exact .passes (by decide) (composing _)
  case choice => exact .passes (by decide) (composing _)
  case all => exact .passes (by decide) (composing _)
  case «attribute» => exact .passes (by decide) quiet_openAttribute
  case attributeGroup => exact effect_openAttributeGroup
  case anyAttribute => exact .passes (by decide) (.modifyTopElement assembly fun _ => rfl)
  case simpleContent => exact .passes (by decide) (.modifyTopElement assembly fun _ => rfl)
  case complexContent =>
    unfold openTag
    dsimp only
    split
    · exact .passes (by decide) (.modifyTopElement assembly fun _ => rfl)
    · exact .passes (by decide) (.refl assembly)
  case extension => exact .passes (by decide) quiet_openExtension
  case simpleType => exact effect_openSimpleType
  case restriction => exact .passes (by decide) quiet_openRestriction
  case enumeration => exact .passes (by decide) quiet_openFacet
  case minInclusive => exact .passes (by decide) quiet_openFacet
  case maxInclusive => exact .passes (by decide) quiet_openFacet
  case whiteSpace => exact .passes (by decide) quiet_openWhiteSpace
  case union =>
    refine .passes (by decide) ?_
    unfold openUnion
    split
    · exact .modifyTopSimpleType assembly _
    · exact .refl assembly
  case list =>
    refine .passes (by decide) ?_
    unfold openList
    split
    · exact .modifyTopSimpleType assembly _
    · exact .refl assembly
  case «annotation» => exact .passes (by decide) (.refl assembly)
  case documentation => exact .passes (by decide) (.refl assembly)
  case other => exact .passes (by decide) (.refl assembly)

theorem within_eq (assembly : Assembly) (construct : Construct) :
    assembly.within construct = assembly.around.any (· = construct) := by
  unfold within around
  rw [List.any_map]
  rfl

theorem insideSimpleType_eq (assembly : Assembly) :
    assembly.insideSimpleType = Construct.insideSimpleType assembly.around := by
  unfold insideSimpleType Construct.insideSimpleType
  rw [within_eq]
  unfold around
  rw [List.takeWhile_map]
  simp only [List.any_map]
  rfl

/-- Whether an opening tag makes a node. -/
theorem snd_openTag (assembly : Assembly) (construct : Construct) (attributes : Xml.Attributes) :
    (assembly.openTag construct attributes).2 =
      construct.opensNode attributes assembly.around assembly.depth := by
  cases construct
  case complexType =>
    unfold openTag Construct.opensNode
    dsimp only
    split
    · rename_i single
      exact (decide_eq_true single).symm
    · rename_i deeper
      exact (decide_eq_false deeper).symm
  case attributeGroup =>
    unfold openTag openAttributeGroup Construct.opensNode
    cases attributes.find? "name" with
    | none =>
        dsimp only
        split <;> rfl
    | some name =>
        dsimp only
        split <;> rfl
  case simpleType =>
    unfold openTag openSimpleType Construct.opensNode
    dsimp only
    rw [within_eq, insideSimpleType_eq]
    cases assembly.around.any (· = .attribute) with
    | true => rfl
    | false =>
        cases Construct.insideSimpleType assembly.around with
        | true => rfl
        | false =>
            rw [if_neg (by decide), apply_ite Prod.snd]
            exact ite_self true
  case complexContent =>
    unfold openTag Construct.opensNode
    dsimp only
    split <;> rfl
  all_goals rfl

/-! ## Closings -/

theorem Effect.makesNode {result : Assembly × Bool}
    (effect : Effect construct attributes before result) (opens : result.2 = true) :
    construct.MakesNode := by
  cases effect with
  | passes _ _ => cases opens
  | declares _ declared _ => exact .inl (by rw [declared.kind]; rfl)
  | types _ isType _ => exact .inr isType

/-- Whether a tag that closes links the innermost open node to the one around it. -/
def linksTop (assembly : Assembly) : Construct → Bool
  | .element | .complexType | .any => true
  | .group =>
      ((assembly.top?.bind assembly.context.element?).bind Element.groupRef?).isSome &&
        decide (2 < assembly.depth)
  | _ => false

/-- What a closing tag does. The outermost open node can stay open. -/
inductive ClosingEffect (tag : OpenTag) (before : Assembly) : Assembly → Prop where
  | passes {after : Assembly} (stays : tag.opensNode = true → before.openNodes.tail = [])
      (quiet : Quiet before after) : ClosingEffect tag before after
  | drops {after : Assembly} (opens : tag.opensNode = true)
      (unlinked : before.linksTop tag.construct = false) (quiet : Quiet before.dropNode after) :
      ClosingEffect tag before after
  | links {child parent : NodeId} {rest : List NodeId} (opens : tag.opensNode = true)
      (linked : before.linksTop tag.construct = true)
      (open_eq : before.openNodes = child :: parent :: rest) :
      ClosingEffect tag before (before.dropNode.linkChild child)

/-- A link changes no stack. -/
theorem stacks_linkChild (assembly : Assembly) (child : NodeId) :
    (assembly.linkChild child).openNodes = assembly.openNodes ∧
      (assembly.linkChild child).openTags = assembly.openTags ∧
      (assembly.linkChild child).root? = assembly.root? := by
  unfold linkChild modifyTopElement modifyTop
  split <;> exact ⟨rfl, rfl, rfl⟩

theorem ClosingEffect.openTags {tag : OpenTag} (effect : ClosingEffect tag before after) :
    after.openTags = before.openTags := by
  cases effect with
  | passes _ quiet => exact quiet.openTags
  | drops _ _ quiet => exact quiet.openTags
  | links _ _ _ => exact (stacks_linkChild before.dropNode _).2.1

theorem effect_closeChild {tag : OpenTag} (opens : tag.opensNode = true)
    (linked : before.linksTop tag.construct = true) :
    ClosingEffect tag before before.closeChild := by
  unfold closeChild
  split
  · rename_i child parent rest open_eq
    exact .links opens linked open_eq
  · rename_i short
    refine .passes (fun _ => ?_) (.refl before)
    cases open_eq : before.openNodes with
    | nil => rfl
    | cons child outer =>
        cases outer with
        | nil => rfl
        | cons parent rest => exact (short child parent rest open_eq).elim

theorem effect_closeGroup {name : String} :
    ClosingEffect ⟨.group, name, true⟩ before before.closeGroup := by
  unfold closeGroup
  split
  · rename_i noTop
    refine .passes (fun _ => ?_) (.refl before)
    rw [List.head?_eq_none_iff.1 noTop]
    rfl
  · rename_i id isTop
    obtain ⟨rest, open_eq⟩ := List.head?_eq_some_iff.1 isTop
    have depths : before.depth = before.dropNode.depth + 1 := by
      unfold depth dropNode
      rw [open_eq]
      rfl
    have condition : before.linksTop .group =
        (((before.context.element? id).bind Element.groupRef?).isSome &&
          decide (2 < before.depth)) := by
      unfold linksTop
      rw [isTop]
      rfl
    dsimp only
    split
    · rename_i absent
      refine .drops rfl ?_ (.refl _)
      rw [condition, absent]
      rfl
    · rename_i element found
      rw [found] at condition
      split
      · rename_i noReference
        have unlinked : before.linksTop .group = false := by
          rw [condition, Option.bind_some, Option.isNone_iff_eq_none.1 noReference]
          rfl
        split
        · exact .drops rfl unlinked ⟨.of_arena rfl rfl rfl rfl, rfl, rfl, rfl, rfl⟩
        · exact .drops rfl unlinked (.refl _)
      · rename_i reference
        split
        · rename_i deep
          cases rest with
          | nil =>
              unfold depth dropNode at deep
              rw [open_eq] at deep
              cases deep
          | cons parent outer =>
              refine .links rfl ?_ open_eq
              rw [condition, Option.bind_some, Bool.and_eq_true]
              refine ⟨by simpa [Option.isSome_iff_ne_none] using reference, decide_eq_true ?_⟩
              omega
        · rename_i shallow
          refine .drops rfl ?_ (.refl _)
          rw [condition, Bool.and_eq_false_iff]
          refine .inr (decide_eq_false ?_)
          omega

theorem effect_closeAttributeGroup {name : String} :
    ClosingEffect ⟨.attributeGroup, name, true⟩ before before.closeAttributeGroup := by
  unfold closeAttributeGroup
  split
  · rename_i noTop
    refine .passes (fun _ => ?_) (.refl before)
    rw [List.head?_eq_none_iff.1 noTop]
    rfl
  · rename_i id _
    split
    · exact .drops rfl rfl (.refl _)
    · have quiet : before.context.Quiet
          (before.context.modifyElement id ({ · with openGroup? := none })) :=
        .modifyElement before.context id fun _ => rfl
      exact .drops rfl rfl ⟨quiet.trans (.of_arena rfl rfl rfl rfl), rfl, rfl, rfl, rfl⟩

theorem effect_closeTag {tag : OpenTag} (inside : tag.construct ≠ .schema)
    (makes : tag.opensNode = true → tag.construct.MakesNode) :
    ClosingEffect tag before (before.closeTag tag) := by
  obtain ⟨construct, name, opensNode⟩ := tag
  cases opensNode with
  | false =>
      refine .passes (fun contradiction => by cases contradiction) ?_
      unfold closeTag
      cases construct
      all_goals exact ⟨.refl before.context, rfl, rfl, rfl, rfl⟩
  | true =>
      unfold closeTag
      cases construct
      case schema => exact absurd rfl inside
      case element => exact effect_closeChild rfl rfl
      case complexType => exact effect_closeChild rfl rfl
      case any => exact effect_closeChild rfl rfl
      case group => exact effect_closeGroup
      case attributeGroup => exact effect_closeAttributeGroup
      case simpleType => exact .drops rfl rfl (.refl _)
      -- No other tag makes nodes.
      all_goals
        rcases makes rfl with hasKind | isType
        · cases hasKind
        · cases isType

/-! ## Events -/

section Events

variable {next : Assembly}

/-- After the first tag nothing is decided about the vocabulary. -/
theorem adoptQualifier_of_adopted (adopted : before.awaitsFirstTag = false) (tag : String)
    (attributes : Xml.Attributes) : before.adoptQualifier tag attributes = before := by
  unfold adoptQualifier
  rw [adopted]
  rfl

/-- What the first tag decides about the vocabulary changes neither nodes nor stacks. -/
theorem stacks_adoptQualifier (assembly : Assembly) (tag : String) (attributes : Xml.Attributes) :
    (assembly.adoptQualifier tag attributes).context.arena = assembly.context.arena ∧
      (assembly.adoptQualifier tag attributes).openNodes = assembly.openNodes ∧
      (assembly.adoptQualifier tag attributes).openTags = assembly.openTags ∧
      (assembly.adoptQualifier tag attributes).compositors = assembly.compositors ∧
      (assembly.adoptQualifier tag attributes).lastAttribute? = assembly.lastAttribute? ∧
      (assembly.adoptQualifier tag attributes).root? = assembly.root? := by
  unfold adoptQualifier
  split
  · dsimp only
    split <;> exact ⟨rfl, rfl, rfl, rfl, rfl, rfl⟩
  · exact ⟨rfl, rfl, rfl, rfl, rfl, rfl⟩

/-- No other tag is the first one. -/
theorem awaitsFirstTag_adoptQualifier (assembly : Assembly) (tag : String)
    (attributes : Xml.Attributes) :
    (assembly.adoptQualifier tag attributes).awaitsFirstTag = false := by
  unfold adoptQualifier
  split
  · dsimp only
    split <;> rfl
  · rename_i adopted
    exact Bool.eq_false_iff.2 adopted

/-- An opening that is taken does what its construct does and puts its tag on the stack. -/
theorem exists_openTag_of_stepOpening {tag : String}
    (taken : assembly.stepOpening tag attributes = .ok next) :
    ∃ construct,
      construct = (assembly.adoptQualifier tag attributes).context.vocabulary.classify tag ∧
      next =
        { ((assembly.adoptQualifier tag attributes).openTag construct attributes).1 with
          openTags :=
            ⟨construct, tag,
              ((assembly.adoptQualifier tag attributes).openTag construct attributes).2⟩ ::
            ((assembly.adoptQualifier tag attributes).openTag construct attributes).1.openTags } := by
  unfold stepOpening at taken
  dsimp only at taken
  split at taken
  · cases taken
  · exact ⟨_, rfl, (Except.ok.inj taken).symm⟩

/-- An opening that is taken has the effect of its construct and puts its tag on the stack. -/
theorem exists_effect_of_stepOpening {tag : String}
    (taken : assembly.stepOpening tag attributes = .ok next) :
    ∃ construct opened opensNode,
      construct = (assembly.adoptQualifier tag attributes).context.vocabulary.classify tag ∧
      opensNode = construct.opensNode attributes (assembly.adoptQualifier tag attributes).around
        (assembly.adoptQualifier tag attributes).depth ∧
      Effect construct attributes (assembly.adoptQualifier tag attributes) (opened, opensNode) ∧
      next = { opened with openTags := ⟨construct, tag, opensNode⟩ :: opened.openTags } := by
  obtain ⟨construct, isConstruct, rfl⟩ := exists_openTag_of_stepOpening taken
  exact ⟨construct, _, _, isConstruct, snd_openTag _ construct attributes,
    effect_openTag _ construct attributes, rfl⟩

/-- A closing that is taken closes the innermost open tag. The schema is the only open node when it
closes. -/
theorem cases_of_stepClosing (taken : assembly.stepClosing = .ok next) :
    ∃ tag outer, assembly.openTags = tag :: outer ∧
      ((tag.construct = .schema ∧ ∃ root, assembly.openNodes = [root] ∧
          next = { assembly with openTags := outer, openNodes := [], root? := some root }) ∨
        (tag.construct ≠ .schema ∧
          next = closeTag { assembly with openTags := outer } tag)) := by
  unfold stepClosing at taken
  split at taken
  · cases taken
  · rename_i tag outer opened
    refine ⟨tag, outer, opened, ?_⟩
    dsimp only at taken
    split at taken
    · rename_i closesSchema
      split at taken
      · rename_i root single
        cases taken
        exact .inl ⟨closesSchema, root, single, rfl⟩
      · cases taken
    · rename_i inside
      cases taken
      exact .inr ⟨inside, rfl⟩

theorem quiet_stepText (assembly : Assembly) (text : String) :
    Quiet assembly (assembly.stepText text) := by
  unfold stepText
  dsimp only
  split
  · split
    · exact .refl assembly
    · refine .modifyTop assembly fun node => ?_
      cases node <;> rfl
  · exact .refl assembly

/-- A tag without content is taken as its opening and its closing. -/
theorem exists_opened_of_step_empty {tag : String}
    (taken : assembly.step (.empty tag attributes) = .ok next) :
    ∃ opened, assembly.stepOpening tag attributes = .ok opened ∧ opened.stepClosing = .ok next := by
  unfold step at taken
  dsimp only at taken
  split at taken
  · cases taken
  · rename_i opened openedTag
    exact ⟨opened, openedTag, taken⟩

/-- A run that goes through is a first step that goes through and a rest that does. -/
theorem run_cons_eq_ok_iff {document : Bytes} {event : Xml.Located Xml.Event}
    {rest : List (Xml.Located Xml.Event)} :
    assembly.run document (event :: rest) = .ok after ↔
      ∃ next, assembly.step event.value = .ok next ∧ next.run document rest = .ok after := by
  rw [run]
  cases assembly.step event.value with
  | error halt => simp
  | ok next => simp

/-- A run of events is a run of their values. -/
theorem foldlM_step_of_run {document : Bytes} {events : List (Xml.Located Xml.Event)}
    (completed : assembly.run document events = .ok after) :
    (events.map Xml.Located.value).foldlM step assembly = .ok after := by
  induction events generalizing assembly with
  | nil =>
      cases completed
      rfl
  | cons event rest inductionHypothesis =>
      obtain ⟨next, taken, later⟩ := run_cons_eq_ok_iff.1 completed
      exact foldlM_cons_eq_ok_iff.2 ⟨next, taken, inductionHypothesis later⟩

section Keeps

variable (Keeps : Assembly → Prop)
  (opens : ∀ {assembly next : Assembly} {tag : String} {attributes : Xml.Attributes},
    Keeps assembly → assembly.stepOpening tag attributes = .ok next → Keeps next)
  (closes : ∀ {assembly next : Assembly},
    Keeps assembly → assembly.stepClosing = .ok next → Keeps next)
  (reads : ∀ {assembly : Assembly} (text : String), Keeps assembly →
    Keeps (assembly.stepText text))

include opens closes reads

theorem keeps_step {event : Xml.Event} (kept : Keeps assembly)
    (taken : assembly.step event = .ok next) : Keeps next := by
  cases event with
  | opening tag attributes => exact opens kept taken
  | closing => exact closes kept taken
  | text content =>
      cases taken
      exact reads content kept
  | empty tag attributes =>
      obtain ⟨opened, openedTag, closed⟩ := exists_opened_of_step_empty taken
      exact closes (opens kept openedTag) closed

/-- What openings, closings and text keep, events in a row keep. -/
theorem keeps_foldlM {events : List Xml.Event} (kept : Keeps assembly)
    (completed : events.foldlM step assembly = .ok after) : Keeps after := by
  induction events generalizing assembly with
  | nil =>
      cases foldlM_nil_eq_ok_iff.1 completed
      exact kept
  | cons event rest inductionHypothesis =>
      obtain ⟨next, taken, later⟩ := foldlM_cons_eq_ok_iff.1 completed
      exact inductionHypothesis (keeps_step Keeps opens closes reads kept taken) later

/-- What openings, closings and text keep, a run of events keeps. -/
theorem keeps_run {document : Bytes} {events : List (Xml.Located Xml.Event)}
    (kept : Keeps assembly) (completed : assembly.run document events = .ok after) :
    Keeps after :=
  keeps_foldlM Keeps opens closes reads kept (foldlM_step_of_run completed)

end Keeps

end Events

end Assembly

/-- A document that is read is a run of its events that can be ended. -/
theorem exists_run_of_readTree {context after : Context} {document : Bytes} {root : NodeId}
    (read : readTree context document = .ok (after, root)) :
    ∃ assembly : Assembly,
      (Assembly.start context).run document (Xml.read document).events = .ok assembly ∧
      assembly.finish document = .ok root ∧ assembly.context = after := by
  unfold readTree at read
  dsimp only at read
  split at read
  · cases read
  · rename_i assembly completed
    split at read
    · cases read
    · split at read
      · cases read
      · rename_i finished
        cases read
        exact ⟨assembly, completed, finished, rfl⟩

end XmlSchema
