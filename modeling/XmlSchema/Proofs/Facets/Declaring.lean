import XmlSchema.Proofs.Tree.AttributeSlots

/-!
# The attribute that is being declared

The tag of an attribute stores it in the innermost node around, unless this is a simple type or there
is none: `storedAttribute?`. While the tag is open, its place is known and holds what the tag says,
`Declaring`. This is so at each place where all open nodes have been made by the tags around, if no
attribute stands inside another one: `declaring_of_trace`.
-/

namespace XmlSchema

/-- The tag that an event opens. -/
def Xml.Event.tag? : Xml.Event → Option (String × Xml.Attributes)
  | .opening name attributes | .empty name attributes => some (name, attributes)
  | .closing | .text _ => none

/-- Whether no tag of a construct stands inside another one. -/
def Vocabulary.Unnested (vocabulary : Vocabulary) (construct : Construct)
    (events : List Xml.Event) : Prop :=
  ∀ place < events.length, ∀ tag ∈ events[place]?.bind Xml.Event.tag?,
    vocabulary.classify tag.1 = construct →
      ∀ outer ∈ Xml.openTags (events.take place), vocabulary.classify outer.1 ≠ construct

instance (vocabulary : Vocabulary) (construct : Construct) (events : List Xml.Event) :
    Decidable (vocabulary.Unnested construct events) :=
  inferInstanceAs (Decidable (∀ place < events.length,
    ∀ tag ∈ events[place]?.bind Xml.Event.tag?, vocabulary.classify tag.1 = construct →
      ∀ outer ∈ Xml.openTags (events.take place), vocabulary.classify outer.1 ≠ construct))

/-! ## What the tags around say -/

section Around

variable (vocabulary : Vocabulary) (around : List Enclosure)

/-- The innermost node around, with the construct of its tag. -/
def innermostNode? : Option (Construct × NodeId) :=
  around.findSome? fun tag => tag.node?.map (tag.construct vocabulary, ·)

/-- The attribute that is declared by the innermost tag of one around, with its place, if it is
stored. -/
def storedAttribute? : List Enclosure → Option (AttributeSlot × Attribute)
  | [] => none
  | tag :: outer =>
      if tag.construct vocabulary = .attribute then
        let declared := Assembly.declaredAttribute vocabulary tag.attributes
        (innermostNode? vocabulary outer).bind fun owner =>
          (owner.1.slot? owner.2 declared.name).map (·, declared)
      else storedAttribute? outer

end Around

variable {vocabulary : Vocabulary} {around outer : List Enclosure} {events : List Xml.Event}
  {event : Xml.Event} {name : String} {attributes : Xml.Attributes} {construct : Construct}
  {context : Context} {assembly before opened after : Assembly} {slot : AttributeSlot}
  {declared : Attribute} {id : NodeId} {tag : Enclosure}

namespace Vocabulary.Unnested

theorem of_append {late : List Xml.Event}
    (unnested : vocabulary.Unnested construct (events ++ late)) :
    vocabulary.Unnested construct events := by
  intro place inside tag found isConstruct
  have bound : place < (events ++ late).length := by
    rw [List.length_append]
    omega
  have same := unnested place bound tag
  rw [List.getElem?_append_left inside, List.take_append_of_le_length (Nat.le_of_lt inside)] at same
  exact same found isConstruct

/-- The last tag of a construct stands inside no other one. -/
theorem last (unnested : vocabulary.Unnested construct (events ++ [event]))
    (opens : event.tag? = some (name, attributes))
    (isConstruct : vocabulary.classify name = construct) :
    ∀ outer ∈ Xml.openTags events, vocabulary.classify outer.1 ≠ construct := by
  have inside : events.length < (events ++ [event]).length := by simp
  have here := unnested events.length inside (name, attributes)
  rw [List.getElem?_concat_length, List.take_left] at here
  exact here opens isConstruct

end Vocabulary.Unnested

/-! ## Among the tags around -/

theorem innermostNode?_cons_none (passes : tag.node? = none) :
    innermostNode? vocabulary (tag :: around) = innermostNode? vocabulary around := by
  unfold innermostNode?
  rw [List.findSome?_cons, passes]
  rfl

theorem innermostNode?_cons_some (makes : tag.node? = some id) :
    innermostNode? vocabulary (tag :: around) = some (tag.construct vocabulary, id) := by
  unfold innermostNode?
  rw [List.findSome?_cons, makes]
  rfl

theorem map_snd_innermostNode? (vocabulary : Vocabulary) (around : List Enclosure) :
    (innermostNode? vocabulary around).map Prod.snd =
      (around.filterMap Enclosure.node?).head? := by
  induction around with
  | nil => rfl
  | cons tag around inductionHypothesis =>
      cases made : tag.node? with
      | none => rw [innermostNode?_cons_none made, List.filterMap_cons_none made,
          inductionHypothesis]
      | some id => rw [innermostNode?_cons_some made, List.filterMap_cons_some made]; rfl

theorem exists_of_innermostNode? (found : innermostNode? vocabulary around = some (construct, id)) :
    ∃ tag ∈ around, tag.construct vocabulary = construct ∧ tag.node? = some id := by
  obtain ⟨tag, member, same⟩ := List.exists_of_findSome?_eq_some found
  obtain ⟨made, isNode, pair⟩ := Option.map_eq_some_iff.1 same
  cases pair
  exact ⟨tag, member, rfl, isNode⟩

/-- A tag of another kind around leaves the attribute that is declared as it is. -/
theorem storedAttribute?_cons_of_ne (other : tag.construct vocabulary ≠ .attribute) :
    storedAttribute? vocabulary (tag :: around) = storedAttribute? vocabulary around := by
  rw [storedAttribute?, if_neg other]

theorem storedAttribute?_cons (isAttribute : tag.construct vocabulary = .attribute) :
    storedAttribute? vocabulary (tag :: around) =
      (innermostNode? vocabulary around).bind fun owner =>
        (owner.1.slot? owner.2 (Assembly.declaredAttribute vocabulary tag.attributes).name).map
          (·, Assembly.declaredAttribute vocabulary tag.attributes) := by
  rw [storedAttribute?, if_pos isAttribute]

theorem storedAttribute?_eq_none
    (none : ∀ tag ∈ around, tag.construct vocabulary ≠ .attribute) :
    storedAttribute? vocabulary around = Option.none := by
  induction around with
  | nil => rfl
  | cons tag around inductionHypothesis =>
      obtain ⟨other, others⟩ := List.forall_mem_cons.1 none
      rw [storedAttribute?_cons_of_ne other]
      exact inductionHypothesis others

theorem owner?_of_slot? {owner : NodeId} (stores : construct.slot? id name = some slot)
    (owned : slot.owner? = some owner) : owner = id := by
  cases construct
  all_goals cases stores
  all_goals cases owned
  all_goals rfl

/-- The tag of an attribute that is stored is around, and so is the node in which it is kept. -/
theorem mem_of_storedAttribute?
    (stored : storedAttribute? vocabulary around = some (slot, declared)) :
    (∃ tag ∈ around, tag.construct vocabulary = .attribute) ∧
      ∀ owner, slot.owner? = some owner → owner ∈ around.filterMap Enclosure.node? := by
  induction around with
  | nil => cases stored
  | cons tag around inductionHypothesis =>
      by_cases isAttribute : tag.construct vocabulary = .attribute
      · refine ⟨⟨tag, List.mem_cons_self .., isAttribute⟩, fun owner owned => ?_⟩
        rw [storedAttribute?_cons isAttribute] at stored
        obtain ⟨⟨construct, id⟩, innermost, stores⟩ := Option.bind_eq_some_iff.1 stored
        obtain ⟨place, storesAt, pair⟩ := Option.map_eq_some_iff.1 stores
        cases pair
        obtain rfl := owner?_of_slot? storesAt owned
        obtain ⟨outer, member, -, made⟩ := exists_of_innermostNode? innermost
        exact List.mem_filterMap.2 ⟨outer, List.mem_cons_of_mem tag member, made⟩
      · rw [storedAttribute?_cons_of_ne isAttribute] at stored
        obtain ⟨⟨outer, member, isOuter⟩, owned⟩ := inductionHypothesis stored
        refine ⟨⟨outer, List.mem_cons_of_mem tag member, isOuter⟩, fun owner isOwner => ?_⟩
        obtain ⟨other, memberOther, made⟩ := List.mem_filterMap.1 (owned owner isOwner)
        exact List.mem_filterMap.2 ⟨other, List.mem_cons_of_mem tag memberOther, made⟩

/-! ## The attribute that is being declared -/

/-- While the tag of an attribute is open, the place of the attribute is known and holds what the tag
says. -/
structure Declaring (vocabulary : Vocabulary) (assembly : Assembly) (around : List Enclosure) :
    Prop where
  groups : ∀ tag ∈ around, ∀ id, tag.node? = some id →
    assembly.context.definesGroup id = decide (tag.construct vocabulary = .attributeGroup)
  unnested : around.Pairwise fun inner outer =>
    inner.construct vocabulary = .attribute → outer.construct vocabulary ≠ .attribute
  slot : assembly.Accounted around →
    assembly.lastAttribute? = (storedAttribute? vocabulary around).map Prod.fst
  stored : assembly.Accounted around → ∀ slot declared,
    storedAttribute? vocabulary around = some (slot, declared) →
      (slot.attribute? assembly.context).map Attribute.tagPart = some declared.tagPart

open Assembly

theorem definesGroup_stepOpening (taken : before.stepOpening name attributes = .ok opened)
    (old : id ≠ before.context.arena.nextId) :
    opened.context.definesGroup id = before.context.definesGroup id := by
  by_cases isAttribute : opened.context.vocabulary.classify name = .attribute
  · rw [(enters_of_stepOpening taken).vocabulary] at isAttribute
    have arena := (stacks_adoptQualifier before name attributes).1
    obtain ⟨construct, rfl, rfl⟩ := exists_openTag_of_stepOpening taken
    rw [isAttribute]
    refine (definesGroup_openAttribute id).trans ?_
    unfold Context.definesGroup Context.element?
    rw [arena]
  · rw [Context.definesGroup_eq, Context.definesGroup_eq,
      attributePart?_stepOpening taken (fun same => old (Option.some.inj same)) isAttribute]

theorem definesGroup_madeNode? (taken : before.stepOpening name attributes = .ok opened)
    (made : madeNode? before opened = some id) :
    opened.context.definesGroup id =
      decide (opened.context.vocabulary.classify name = .attributeGroup) := by
  have enters := enters_of_stepOpening taken
  have isNew : id = before.context.arena.nextId := by
    unfold madeNode? at made
    split at made
    · exact (Option.some.inj made).symm
    · cases made
  have arena := (stacks_adoptQualifier before name attributes).1
  have tags := enters.openTags
  rw [made] at tags
  rw [enters.vocabulary, isNew, ← arena]
  obtain ⟨construct, rfl, rfl⟩ := exists_openTag_of_stepOpening taken
  exact definesGroup_openTag (congrArg OpenTag.opensNode (List.cons.inj tags).1)

theorem lastAttribute?_stepOpening (taken : before.stepOpening name attributes = .ok opened)
    (notAttribute : opened.context.vocabulary.classify name ≠ .attribute) :
    opened.lastAttribute? = before.lastAttribute? := by
  rw [(enters_of_stepOpening taken).vocabulary] at notAttribute
  obtain ⟨-, -, -, -, slot, -⟩ := stacks_adoptQualifier before name attributes
  obtain ⟨construct, rfl, rfl⟩ := exists_openTag_of_stepOpening taken
  exact (lastAttribute?_openTag _ attributes notAttribute).trans slot

theorem lastAttribute?_stepClosing (standing : before.Standing)
    (taken : before.stepClosing = .ok after) :
    ∃ tag, before.openTags = tag :: after.openTags ∧ after.lastAttribute? =
      if tag.construct = .attribute then none else before.lastAttribute? := by
  obtain ⟨tag, opened, -⟩ := stacks_stepClosing standing taken
  refine ⟨tag, opened, ?_⟩
  obtain ⟨first, outer, openedAgain, ⟨isSchema, root, -, rfl⟩ | ⟨-, rfl⟩⟩ :=
    cases_of_stepClosing taken
  · cases (List.cons.inj (opened.symm.trans openedAgain)).1
    rw [isSchema]
    rfl
  · cases (List.cons.inj (opened.symm.trans openedAgain)).1
    exact lastAttribute?_closeTag { before with openTags := outer } tag

theorem openAttribute_of_stepOpening (taken : before.stepOpening name attributes = .ok opened)
    (isAttribute : opened.context.vocabulary.classify name = .attribute) :
    opened.lastAttribute? =
        ((before.adoptQualifier name attributes).openAttribute attributes).lastAttribute? ∧
      opened.context =
        ((before.adoptQualifier name attributes).openAttribute attributes).context := by
  rw [(enters_of_stepOpening taken).vocabulary] at isAttribute
  obtain ⟨construct, rfl, rfl⟩ := exists_openTag_of_stepOpening taken
  rw [isAttribute]
  exact ⟨rfl, rfl⟩

/-- An attribute that opens where none is declared is stored as the tags around say. -/
theorem stored_openAttribute (tag : Enclosure)
    (isTop : assembly.top? = (innermostNode? assembly.context.vocabulary around).map Prod.snd)
    (makes : ∀ outer ∈ around, ∀ id, outer.node? = some id →
      (outer.construct assembly.context.vocabulary).Makes assembly.context id)
    (groups : ∀ outer ∈ around, ∀ id, outer.node? = some id → assembly.context.definesGroup id =
      decide (outer.construct assembly.context.vocabulary = .attributeGroup))
    (noSlot : assembly.lastAttribute? = none)
    (isAttribute : tag.construct assembly.context.vocabulary = .attribute) :
    (assembly.openAttribute tag.attributes).lastAttribute? =
        (storedAttribute? assembly.context.vocabulary (tag :: around)).map Prod.fst ∧
      ∀ slot declared,
        storedAttribute? assembly.context.vocabulary (tag :: around) = some (slot, declared) →
          slot.attribute? (assembly.openAttribute tag.attributes).context = some declared := by
  rw [storedAttribute?_cons isAttribute]
  cases innermost : innermostNode? assembly.context.vocabulary around with
  | none =>
      rw [innermost] at isTop
      refine ⟨?_, fun slot declared contradiction => by cases contradiction⟩
      unfold openAttribute
      rw [isTop]
      exact noSlot
  | some owner =>
      obtain ⟨outer, member, isConstruct, made⟩ := exists_of_innermostNode? innermost
      rw [innermost] at isTop
      rw [Option.bind_some]
      rcases stores_openAttribute tag.attributes isTop
          (isConstruct ▸ makes outer member owner.2 made)
          (isConstruct ▸ groups outer member owner.2 made) with
        ⟨unstored, same⟩ | ⟨slot, storesAt, stores⟩
      · rw [unstored, same]
        exact ⟨noSlot, fun slot declared contradiction => by cases contradiction⟩
      · rw [storesAt]
        refine ⟨stores.lastAttribute?, fun place declared same => ?_⟩
        cases same
        exact stores.attribute?

namespace Declaring

theorem start (context : Context) (vocabulary : Vocabulary) :
    Declaring vocabulary (.start context) [] where
  groups tag member := absurd member List.not_mem_nil
  unnested := List.Pairwise.nil
  slot _ := rfl
  stored _ slot declared contradiction := by cases contradiction

/-- The tag of an attribute outside all others stores it where the tags around say. -/
theorem stored_stepOpening (declaring : Declaring vocabulary before around)
    (enclosed : before.Enclosed around) (accounted : before.Accounted around)
    (taken : before.stepOpening name attributes = .ok opened)
    (adopted : opened.context.vocabulary = vocabulary)
    (isAttribute : vocabulary.classify name = .attribute)
    (outermost : ∀ outer ∈ around, outer.construct vocabulary ≠ .attribute) :
    opened.lastAttribute? = (storedAttribute? vocabulary
        (⟨name, attributes, madeNode? before opened⟩ :: around)).map Prod.fst ∧
      ∀ slot declared, storedAttribute? vocabulary
          (⟨name, attributes, madeNode? before opened⟩ :: around) = some (slot, declared) →
        slot.attribute? opened.context = some declared := by
  have sameVocabulary := enclosed.vocabulary_stepOpening taken
  have vocabularyOf := (enters_of_stepOpening taken).vocabulary
  rw [adopted] at vocabularyOf sameVocabulary
  obtain ⟨arena, openNodes, -, -, slot, -⟩ := stacks_adoptQualifier before name attributes
  obtain ⟨sameSlot, sameContext⟩ :=
    openAttribute_of_stepOpening taken ((congrArg (·.classify name) adopted).trans isAttribute)
  rw [sameSlot, sameContext]
  clear sameSlot sameContext
  have extension : Context.Extends before.context
      (before.adoptQualifier name attributes).context := .of_arena arena
  generalize before.adoptQualifier name attributes = between at *
  subst vocabularyOf
  refine stored_openAttribute ⟨name, attributes, madeNode? before opened⟩ ?_
    (fun tag member id made => ?_) (fun tag member id made => ?_) ?_ isAttribute
  · unfold top?
    rw [openNodes, accounted, map_snd_innermostNode?]
  · rcases sameVocabulary with rfl | same
    · cases member
    · rw [same]
      exact (enclosed.makes tag member id made).mono extension
  · rw [← declaring.groups tag member id made]
    unfold Context.definesGroup Context.element?
    rw [arena]
  · rw [slot, declaring.slot accounted, storedAttribute?_eq_none outermost]
    rfl

theorem stepOpening (declaring : Declaring vocabulary before around)
    (enclosed : before.Enclosed around) (taken : before.stepOpening name attributes = .ok opened)
    (adopted : opened.context.vocabulary = vocabulary)
    (outermost : vocabulary.classify name = .attribute →
      ∀ outer ∈ around, outer.construct vocabulary ≠ .attribute) :
    Declaring vocabulary opened (⟨name, attributes, madeNode? before opened⟩ :: around) := by
  have old : ∀ tag ∈ around, ∀ id, tag.node? = some id → id ≠ before.context.arena.nextId := by
    rintro tag member id made rfl
    have present := enclosed.isSome_node? member made
    rw [Context.node?_nextId] at present
    cases present
  have other : vocabulary.classify name ≠ .attribute →
      (⟨name, attributes, madeNode? before opened⟩ : Enclosure).construct vocabulary ≠ .attribute :=
    id
  refine ⟨?_, List.pairwise_cons.2 ⟨fun outer member isAttribute =>
    outermost isAttribute outer member, declaring.unnested⟩, fun accounted => ?_,
    fun accounted slot declared stores => ?_⟩
  · refine List.forall_mem_cons.2 ⟨fun id made => ?_, fun tag member id made => ?_⟩
    · rw [definesGroup_madeNode? taken made, adopted]
      rfl
    · rw [definesGroup_stepOpening taken (old tag member id made)]
      exact declaring.groups tag member id made
  · have earlier := Enclosed.accounted_of_stepOpening taken accounted
    by_cases isAttribute : vocabulary.classify name = .attribute
    · exact (declaring.stored_stepOpening enclosed earlier taken adopted isAttribute
        (outermost isAttribute)).1
    · rw [lastAttribute?_stepOpening taken (adopted ▸ isAttribute), declaring.slot earlier,
        storedAttribute?_cons_of_ne (other isAttribute)]
  · have earlier := Enclosed.accounted_of_stepOpening taken accounted
    by_cases isAttribute : vocabulary.classify name = .attribute
    · rw [(declaring.stored_stepOpening enclosed earlier taken adopted isAttribute
        (outermost isAttribute)).2 slot declared stores]
      rfl
    · rw [storedAttribute?_cons_of_ne (other isAttribute)] at stores
      have stillOld : slot.owner? ≠ some before.context.arena.nextId := by
        intro isNew
        obtain ⟨tag, member, made⟩ :=
          List.mem_filterMap.1 ((mem_of_storedAttribute? stores).2 _ isNew)
        exact old tag member _ made rfl
      rw [AttributeSlot.map_tagPart, attributePart?_stepOpening taken stillOld
        (adopted ▸ isAttribute), ← AttributeSlot.map_tagPart]
      exact declaring.stored earlier slot declared stores

/-- A closing keeps the attribute that is declared around, unless it is the one that closes. -/
theorem stepClosing (declaring : Declaring vocabulary before around)
    (enclosed : before.Enclosed around) (branching : before.Branching)
    (taken : before.stepClosing = .ok after) (adopted : before.context.vocabulary = vocabulary) :
    Declaring vocabulary after around.tail := by
  obtain ⟨first, outer, rfl, -, earlier⟩ := enclosed.exists_of_stepClosing taken
  obtain ⟨others, unnested⟩ := List.pairwise_cons.1 declaring.unnested
  have groups := (List.forall_mem_cons.1 declaring.groups).2
  obtain ⟨tag, opened, slot⟩ := lastAttribute?_stepClosing enclosed.standing taken
  have isFirst : tag = first.openTag vocabulary := by
    have tags := enclosed.openTags
    rw [opened, adopted] at tags
    exact (List.cons.inj tags).1
  -- What is kept in the nodes further out stays, since these are not the node that closes.
  have kept : ∀ owner? : Option NodeId,
      (∀ owner, owner? = some owner → owner ∈ outer.filterMap Enclosure.node?) →
        after.context.attributePart? owner? = before.context.attributePart? owner? := by
    intro owner? inside
    refine attributePart?_stepClosing taken fun head isHead _ opens id isTop owned => ?_
    rw [opened] at isHead
    cases isHead
    rw [isFirst] at opens
    obtain ⟨made, isMade⟩ := Option.isSome_iff_exists.1 opens
    have decreasing := enclosed.decreasing branching
    rw [List.filterMap_cons_some isMade] at decreasing
    have older := (List.pairwise_cons.1 decreasing).1 id (inside id owned)
    cases (enclosed.top?_eq isMade).symm.trans isTop
    exact Nat.lt_irrefl _ older
  have inner : first.construct vocabulary ≠ .attribute →
      storedAttribute? vocabulary outer = storedAttribute? vocabulary (first :: outer) :=
    fun other => (storedAttribute?_cons_of_ne other).symm
  refine ⟨fun tag member id made => ?_, unnested, fun accounted => ?_,
    fun accounted slot declared stores => ?_⟩
  · rw [Context.definesGroup_eq, kept (some id), ← Context.definesGroup_eq]
    · exact groups tag member id made
    · exact fun owner same => List.mem_filterMap.2 ⟨tag, member, same ▸ made⟩
  · rw [slot, isFirst]
    show (if first.construct vocabulary = .attribute then _ else _) = _
    split
    · rename_i isAttribute
      rw [List.tail_cons, storedAttribute?_eq_none fun tag member => others tag member isAttribute]
      rfl
    · rename_i other
      rw [declaring.slot (earlier accounted), List.tail_cons, inner other]
  · rw [List.tail_cons] at stores
    have notAttribute : first.construct vocabulary ≠ .attribute := by
      intro isAttribute
      rw [storedAttribute?_eq_none fun tag member => others tag member isAttribute] at stores
      cases stores
    rw [AttributeSlot.map_tagPart, kept slot.owner? (mem_of_storedAttribute? stores).2,
      ← AttributeSlot.map_tagPart]
    rw [inner notAttribute] at stores
    exact declaring.stored (earlier accounted) slot declared stores

theorem stepText (declaring : Declaring vocabulary before around) (text : String) :
    Declaring vocabulary (before.stepText text) around := by
  have slot : (before.stepText text).lastAttribute? = before.lastAttribute? :=
    congrArg Prod.fst (marks_stepText before text)
  refine ⟨fun tag member id made => ?_, declaring.unnested, fun accounted => ?_,
    fun accounted slot declared stores => ?_⟩
  · rw [Context.definesGroup_eq, attributePart?_stepText, ← Context.definesGroup_eq]
    exact declaring.groups tag member id made
  · rw [slot]
    exact declaring.slot (Enclosed.accounted_of_stepText text accounted)
  · rw [AttributeSlot.map_tagPart, attributePart?_stepText, ← AttributeSlot.map_tagPart]
    exact declaring.stored (Enclosed.accounted_of_stepText text accounted) slot declared stores

end Declaring

/-- Where no attribute stands inside another one, the attribute around is known at each place. -/
theorem declaring_of_trace {options : Options}
    (traced : trace (.initial options) events = .ok (assembly, around))
    (unnested : vocabulary.Unnested .attribute events)
    (adopted : assembly.awaitsFirstTag = false → assembly.context.vocabulary = vocabulary) :
    Declaring vocabulary assembly around := by
  have outermost : ∀ {events before around name attributes} {event : Xml.Event},
      trace (.initial options) events = .ok (before, around) →
      vocabulary.Unnested .attribute (events ++ [event]) → event.tag? = some (name, attributes) →
      vocabulary.classify name = .attribute →
        ∀ outer ∈ around, outer.construct vocabulary ≠ .attribute := by
    intro events before around name attributes event traced unnested opens isAttribute outer member
    refine unnested.last opens isAttribute outer.tag ?_
    rw [← map_tag_of_trace traced]
    exact List.mem_map_of_mem member
  refine trace_induction (fun events assembly around => vocabulary.Unnested .attribute events →
    (assembly.awaitsFirstTag = false → assembly.context.vocabulary = vocabulary) →
      Declaring vocabulary assembly around) ?_ ?_ ?_ ?_ ?_ traced unnested adopted
  · exact fun _ _ => .start _ vocabulary
  · intro events before around name attributes opened traced declaring taken unnested adopted
    have enters := enters_of_stepOpening taken
    have enclosed := enclosed_of_trace traced
    have same := adopted enters.awaitsFirstTag
    refine (declaring unnested.of_append fun early => ?_).stepOpening enclosed taken same
      (outermost traced unnested rfl)
    rw [← same, enters.vocabulary, adoptQualifier_of_adopted early]
  · intro events before around after traced declaring taken unnested adopted
    have enclosed := enclosed_of_trace traced
    obtain ⟨sameVocabulary, sameAwaits⟩ := vocabulary_stepClosing enclosed.standing taken
    rw [sameVocabulary, sameAwaits] at adopted
    have early : before.awaitsFirstTag = false := by
      obtain ⟨first, outer, rfl, -⟩ := enclosed.exists_of_stepClosing taken
      exact Bool.eq_false_iff.2 fun awaits => List.cons_ne_nil _ _ (enclosed.begins awaits)
    exact (declaring unnested.of_append adopted).stepClosing enclosed (branching_of_trace traced)
      taken (adopted early)
  · intro events before around name attributes opened after traced declaring taken closed unnested
      adopted
    have enters := enters_of_stepOpening taken
    have enclosed := enclosed_of_trace traced
    have inside := enclosed.stepOpening taken
    obtain ⟨sameVocabulary, sameAwaits⟩ := vocabulary_stepClosing inside.standing closed
    have same := sameVocabulary.symm.trans (adopted (sameAwaits.trans enters.awaitsFirstTag))
    have opening := (declaring unnested.of_append fun early => by
      rw [← same, enters.vocabulary, adoptQualifier_of_adopted early]).stepOpening enclosed taken
        same (outermost traced unnested rfl)
    exact opening.stepClosing inside ((branching_of_trace traced).stepOpening taken) closed same
  · intro events before around content traced declaring unnested adopted
    have quiet := quiet_stepText before content
    rw [quiet.awaitsFirstTag, quiet.context.vocabulary] at adopted
    exact (declaring unnested.of_append adopted).stepText content

end XmlSchema
