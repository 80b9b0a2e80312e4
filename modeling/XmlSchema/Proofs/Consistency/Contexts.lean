import XmlSchema.Proofs.Tree.Expansion
import XmlSchema.Proofs.Tree.Standing

/-!
# Consistent contexts

In a consistent context every handle in a list of children or in a table is that of a node of the
right kind, and every key is the name of what it leads to. The initial context is consistent, every
write of a reading keeps a context consistent: `Consistent.readTree`.
-/

namespace XmlSchema

namespace Context

/-- Whether a handle is that of a declaration of a name. -/
def Declares (context : Context) (name : String) (id : NodeId) : Prop :=
  ∃ element, context.element? id = some element ∧ element.name = name

/-- Whether a handle is that of a simple type of a name. -/
def DefinesSimple (context : Context) (name : String) (id : NodeId) : Prop :=
  ∃ simpleType, context.arena.simpleType? id = some simpleType ∧ simpleType.name = name

/-- A context in which handles lead to nodes of the right kind and keys are names. -/
structure Consistent (context : Context) : Prop where
  children : context.ChildrenIn context.Linkable
  keyed : ∀ {id element}, context.element? id = some element → element.Keyed
  elementIndex : context.elementIndex.Every context.Declares
  simpleElements : context.simpleElements.Every context.Declares
  simpleTypes : context.simpleTypes.Every context.DefinesSimple
  elementGroups : context.elementGroups.Every fun name group =>
    group.name = name ∧ context.Declares name group.definition
  attributeGroups : context.attributeGroups.Every fun name group =>
    group.name = name ∧ group.attributes.Named
  globalAttributes : context.globalAttributes.Named

theorem consistent_initial (options : Options) : (initial options).Consistent where
  children _ _ found := by cases found
  keyed found := by cases found
  elementIndex := Table.every_empty _
  simpleElements := Table.every_empty _
  simpleTypes := Table.every_empty _
  elementGroups := Table.every_empty _
  attributeGroups := Table.every_empty _
  globalAttributes := Table.named_empty

variable {before after context : Context} {id : NodeId}

theorem Declares.mono (extension : Extends before after) {name : String}
    (declares : before.Declares name id) : after.Declares name id := by
  obtain ⟨element, found, named⟩ := declares
  obtain ⟨later, present, same⟩ := extension.element? found
  exact ⟨later, present, (Element.of_identity same).2.1.trans named⟩

theorem DefinesSimple.mono (extension : Extends before after) {name : String}
    (defines : before.DefinesSimple name id) : after.DefinesSimple name id := by
  obtain ⟨simpleType, found, named⟩ := defines
  obtain ⟨later, present, same⟩ := extension.simpleType? found
  exact ⟨later, present, same.trans named⟩

/-- Whether a declaration fits into a context: its children are nodes there, and its attributes have
their names. -/
structure Fits (context : Context) (element : Element) : Prop where
  children : ∀ child ∈ element.children, context.Linkable child
  keyed : element.Keyed

namespace Consistent

variable (consistent : before.Consistent)

include consistent in
theorem fits {element : Element} (found : before.element? id = some element) :
    before.Fits element :=
  ⟨consistent.children id element found, consistent.keyed found⟩

include consistent in
/-- Entries that were right are right in a later context. -/
theorem of_extends (extension : Extends before after)
    (nodes : ∀ {id element}, after.element? id = some element → before.Fits element)
    (elementIndex : after.elementIndex = before.elementIndex)
    (simpleElements : after.simpleElements = before.simpleElements)
    (simpleTypes : after.simpleTypes = before.simpleTypes)
    (elementGroups : after.elementGroups = before.elementGroups)
    (attributeGroups : after.attributeGroups = before.attributeGroups)
    (globalAttributes : after.globalAttributes = before.globalAttributes) : after.Consistent where
  children id element found child member := ((nodes found).children child member).mono extension
  keyed found := (nodes found).keyed
  elementIndex := by
    rw [elementIndex]
    exact consistent.elementIndex.mono fun declares => declares.mono extension
  simpleElements := by
    rw [simpleElements]
    exact consistent.simpleElements.mono fun declares => declares.mono extension
  simpleTypes := by
    rw [simpleTypes]
    exact consistent.simpleTypes.mono fun defines => defines.mono extension
  elementGroups := by
    rw [elementGroups]
    exact consistent.elementGroups.mono fun entry => ⟨entry.1, entry.2.mono extension⟩
  attributeGroups := by
    rw [attributeGroups]
    exact consistent.attributeGroups
  globalAttributes := by
    rw [globalAttributes]
    exact consistent.globalAttributes

include consistent in
/-- A change of the nodes alone. -/
theorem withArena {arena : Arena} (extension : Extends before { before with arena })
    (nodes : ∀ {id element}, arena.element? id = some element → before.Fits element) :
    Consistent { before with arena } :=
  consistent.of_extends extension nodes rfl rfl rfl rfl rfl rfl

/-! ## Writes of a reading -/

include consistent in
theorem addNode {node : Node}
    (fits : ∀ element, node = .declaration element → before.Fits element) :
    (before.addNode node).Consistent := by
  refine consistent.withArena (.addNode before node) fun {other element} found => ?_
  have read := (element?_addNode before node other).symm.trans found
  split at read
  · cases node with
    | declaration new =>
        cases read
        exact fits _ rfl
    | simple _ => cases read
  · exact consistent.fits read

include consistent in
theorem modifyElement (id : NodeId) {change : Element → Element}
    (keeps : ∀ element, (change element).identity = element.identity)
    (fits : ∀ element, before.element? id = some element → before.Fits (change element)) :
    (before.modifyElement id change).Consistent := by
  refine consistent.withArena (.modifyElement before id keeps) fun {other element} found => ?_
  rw [Arena.element?_modifyElement] at found
  split at found
  · obtain ⟨original, present, rfl⟩ := Option.map_eq_some_iff.1 found
    exact fits original present
  · exact consistent.fits found

include consistent in
theorem edit {change : Node → Node}
    (edited : ∀ node, before.node? id = some node → node.Edited (change node)) :
    (before.modifyNode id change).Consistent := by
  have extension : Extends before (before.modifyNode id change) :=
    .modifyNode before id fun node found => (edited node found).identity
  refine consistent.withArena extension fun {other element} found => ?_
  obtain ⟨original, present, fixed, keyed⟩ := exists_of_edited edited found
  have fitting := consistent.fits present
  have children : element.children = original.children := congrArg Element.Fixed.children fixed
  exact ⟨children ▸ fitting.children, keyed fitting.keyed⟩

include consistent in
/-- Every write of a reading keeps a context consistent. -/
theorem write (write : Write before after) : after.Consistent := by
  cases write with
  | header _ _ _ _ => exact { consistent with }
  | warning _ => exact { consistent with }
  | declares childless _ _ keyed =>
      refine consistent.addNode fun element same => ?_
      cases same
      refine ⟨fun child member => ?_, keyed⟩
      rw [childless] at member
      cases member
  | types simpleType => exact consistent.addNode fun _ same => by cases same
  | namesType found =>
      exact { consistent with
        simpleTypes := consistent.simpleTypes.insertNew ⟨_, found, rfl⟩ }
  | edits edited => exact consistent.edit edited
  | links parent linkable =>
      refine consistent.modifyElement parent (fun _ => rfl) fun element found => ?_
      have fitting := consistent.fits found
      refine ⟨List.forall_mem_append.2 ⟨fitting.children, ?_⟩, ?_⟩
      · exact List.forall_mem_singleton.2 linkable
      · exact ⟨fitting.keyed.attributes, fitting.keyed.openGroup?⟩
  | globals named =>
      exact { consistent with globalAttributes := named consistent.globalAttributes }
  | group found _ =>
      exact { consistent with
        elementGroups := consistent.elementGroups.insertNew ⟨rfl, _, found, rfl⟩ }
  | attributeGroup found opened =>
      have named := (consistent.keyed found).openGroup? opened
      exact { consistent with
        attributeGroups := consistent.attributeGroups.insertNew ⟨rfl, named⟩ }

include consistent in
theorem written (written : Written before after) : after.Consistent := by
  induction written with
  | refl => exact consistent
  | tail _ write inductionHypothesis => exact inductionHypothesis.write write

include consistent in
/-- A reading keeps a context consistent, whether or not it halts. -/
theorem readTree (document : Bytes) :
    (endContext ((readTree before document).map Prod.fst)).Consistent :=
  consistent.written (written_readTree before document)

end Consistent

end Context

end XmlSchema
