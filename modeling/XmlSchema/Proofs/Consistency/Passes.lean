import XmlSchema.Proofs.Consistency.Contexts

/-!
# Passes keep contexts consistent

A pass makes no nodes and leaves every node what it is, `extends_runPass`. It moves children about,
renames, merges and resolves attributes and fills the tables of declarations, and it keeps a
consistent context consistent, whether or not it halts: `Consistent.runPass`.
-/

namespace XmlSchema

/-- The parts of a declaration that decide whether it fits into a context. -/
def Element.held (element : Element) :
    NodeIdentity × List NodeId × Table Attribute × Option AttributeGroup :=
  (element.identity, element.children, element.attributes, element.openGroup?)

theorem held_addSimpleBase (element : Element) (name : String) :
    (element.addSimpleBase name).held = element.held :=
  part_addSimpleBase Element.held (fun _ _ => rfl) element name

theorem identity_of_held {before after : Element} (same : after.held = before.held) :
    after.identity = before.identity :=
  congrArg Prod.fst same

namespace Context

/-! ## Nodes stay what they are -/

theorem identity_addSimpleBase (element : Element) (name : String) :
    (element.addSimpleBase name).identity = element.identity :=
  identity_of_held (held_addSimpleBase element name)

/-- A pass leaves every node what it is, whether or not it halts. -/
theorem extends_runPass (root : NodeId) (context : Context) (pass : Pass) :
    Extends context (endContext (pass.run root context)) := by
  cases pass with
  | expandGroups => exact .of_frame (frame_expandGroups (fun _ _ => rfl) root context)
  | indexElements =>
      refine .of_arena ?_
      show (XmlSchema.indexElements root context).arena = context.arena
      rw [indexElements_eq]
  | resolveTypes =>
      exact .of_frame (frame_resolveTypes
        (fun element name _ _ => identity_addSimpleBase element name) (fun _ _ _ _ => rfl) root
        context)
  | completeDeclarations =>
      exact .of_frame (frame_completeDeclarations (fun _ _ _ _ => rfl) root context)
  | separateAttributes =>
      exact .of_frame (frame_separateAttributes (fun _ _ => rfl) root context)
  | resolveAttributeTypes =>
      exact .of_frame (frame_resolveAttributeTypes (fun _ _ _ _ => rfl) root context)
  | checkMixedContent =>
      exact .of_frame (frame_checkMixedContent (fun _ => rfl) identity_addSimpleBase
        (fun _ => rfl) root context)
  | markExtended => exact .of_frame (frame_markExtended (fun _ => rfl) root context)

variable {context : Context} {id : NodeId}

theorem Fits.of_held {before after : Element} (fits : context.Fits before)
    (same : after.held = before.held) : context.Fits after := by
  obtain ⟨-, rest⟩ := Prod.mk.inj same
  obtain ⟨children, rest⟩ := Prod.mk.inj rest
  obtain ⟨attributes, openGroup⟩ := Prod.mk.inj rest
  refine ⟨children ▸ fits.children, attributes ▸ fits.keyed.attributes, fun opened => ?_⟩
  rw [openGroup] at opened
  exact fits.keyed.openGroup? opened

namespace Consistent

/-! ## Writes of passes -/

section Writes

variable (consistent : context.Consistent)

include consistent in
theorem warn (warning : Warning) : (context.warn warning).Consistent := { consistent with }

include consistent in
/-- Other changes of a declaration. -/
theorem modifyHeld (id : NodeId) {change : Element → Element}
    (same : ∀ element, (change element).held = element.held) :
    (context.modifyElement id change).Consistent :=
  consistent.modifyElement id (fun element => identity_of_held (same element))
    fun element found => (consistent.fits found).of_held (same element)

include consistent in
/-- Changes of the attributes of a declaration. -/
theorem modifyAttributes (id : NodeId) {change : Element → Element}
    (same : ∀ element, (change element).identity = element.identity ∧
      (change element).children = element.children ∧
      (change element).openGroup? = element.openGroup?)
    (named : ∀ element, context.element? id = some element → (change element).attributes.Named) :
    (context.modifyElement id change).Consistent := by
  refine consistent.modifyElement id (fun element => (same element).1) fun element found => ?_
  have fitting := consistent.fits found
  obtain ⟨-, children, openGroup⟩ := same element
  refine ⟨children ▸ fitting.children, named element found, fun opened => ?_⟩
  rw [openGroup] at opened
  exact fitting.keyed.openGroup? opened

include consistent in
theorem setChildren (id : NodeId) {members : List NodeId}
    (linkable : ∀ member ∈ members, context.Linkable member) :
    (context.modifyElement id ({ · with children := members })).Consistent := by
  refine consistent.modifyElement id (fun _ => rfl) fun element found => ⟨linkable, ?_⟩
  have keyed := consistent.keyed found
  exact ⟨keyed.attributes, keyed.openGroup?⟩

end Writes

/-! ## One pass after the other -/

section Passes

variable (consistent : context.Consistent) (root : NodeId)

/-- The expansion gives every node children that were children before. -/
theorem keptByExpansion (origin : Context) :
    KeptByExpansion origin.Linkable fun current =>
      current.Consistent ∧ Extends origin current ∧ current.ChildrenIn origin.Linkable where
  contained held := held.2.2
  undefined held _ _ := ⟨held.1.warn _, held.2.1.trans (.of_arena rfl), held.2.2⟩
  circular held _ _ := ⟨held.1.warn _, held.2.1.trans (.of_arena rfl), held.2.2⟩
  writes held id _ members :=
    ⟨held.1.setChildren id fun member isMember => (members member isMember).mono held.2.1,
      held.2.1.trans (.modifyElement _ id fun _ => rfl), held.2.2.setChildren id members⟩

include consistent in
theorem expandGroups : (endContext (expandGroups root context)).Consistent :=
  ((keptByExpansion context).expandGroups root
    ⟨consistent, .refl context, consistent.children⟩).1

include consistent in
theorem indexElements : (indexElements root context).Consistent := by
  refine List.foldlRecOn _ _ consistent fun context consistent id _ => ?_
  unfold indexElement Context.register
  split
  · rename_i element found
    split
    · split
      · exact { consistent with
          elementIndex := consistent.elementIndex.insert ⟨element, found, rfl⟩ }
      · exact consistent
    · exact consistent
  · exact consistent

theorem settle (consistent : context.Consistent) (id : NodeId) (resolution : Resolution) :
    (context.settle id resolution).Consistent := by
  unfold Context.settle
  split
  · exact consistent
  · rename_i element found
    extract_lets isComplex settled
    have settling : settled.Consistent := consistent.modifyHeld id fun _ => rfl
    have extension : Extends context settled := by
      refine .modifyElement context id fun _ => ?_
      rfl
    have declares : settled.Declares element.name id :=
      Declares.mono extension ⟨element, found, rfl⟩
    split
    · exact settling
    · exact { settling with simpleElements := settling.simpleElements.insertNew declares }

theorem noteSimpleType (consistent : context.Consistent) (id : NodeId) (nominal : Nominal) :
    (context.noteSimpleType id nominal).Consistent := by
  unfold Context.noteSimpleType
  split
  · exact consistent.modifyHeld id fun element => held_addSimpleBase element nominal.name
  · exact consistent

include consistent in
theorem resolveTypes : (endContext (resolveTypes root context)).Consistent :=
  holds_resolveTypes noteSimpleType settle root consistent

theorem foldl_warn (consistent : context.Consistent) (warnings : List Warning) :
    (warnings.foldl Context.warn context).Consistent :=
  List.foldlRecOn warnings _ consistent fun _ consistent warning _ => consistent.warn warning

include consistent in
theorem completeDeclarations : (endContext (completeDeclarations root context)).Consistent := by
  refine holds_completeDeclarations (fun consistent _ => consistent.foldl_warn _)
    (fun {context} consistent id element occurrence => ?_) root consistent
  have merged : (context.mergedAttributes element).attributes.Named :=
    named_mergeGroups (consistent.attributeGroups.mono And.right) _ _
  have warned := consistent.foldl_warn (context.mergedAttributes element).warnings
  refine warned.modifyAttributes id (fun _ => ⟨rfl, rfl, rfl⟩) fun own found => ?_
  have named := (warned.keyed found).attributes
  exact (named.insertAll merged).mapValues fun _ _ => name_inheritGlobal _ _

include consistent in
theorem separateAttributes : (endContext (separateAttributes root context)).Consistent := by
  refine holds_separateAttributes (fun consistent id identifiers => ?_) root consistent
  refine consistent.modifyAttributes id (fun _ => ⟨rfl, rfl, rfl⟩) fun element found => ?_
  exact named_separateNames (consistent.keyed found).attributes identifiers

include consistent in
theorem resolveAttributeTypes : (endContext (resolveAttributeTypes root context)).Consistent := by
  refine holds_resolveAttributeTypes (fun consistent id key vocabulary type => ?_) root consistent
  refine consistent.modifyAttributes id (fun _ => ⟨rfl, rfl, rfl⟩) fun element found => ?_
  exact (consistent.keyed found).attributes.modify key fun _ => rfl

theorem held_withSimpleBases (context : Context) (element : Element) :
    (context.withSimpleBases element).held = element.held := by
  have kept : (Change.keeping Element.held).holds element (context.withSimpleBases element) :=
    holds_withSimpleBases held_addSimpleBase context element
  exact kept

include consistent in
theorem checkMixedContent : (endContext (checkMixedContent root context)).Consistent := by
  refine holds_checkMixedContent (fun consistent id => consistent.modifyHeld id fun _ => rfl)
    (fun consistent id => consistent.modifyHeld id (held_withSimpleBases _))
    (fun {context} consistent link name parentName => ?_) root consistent
  have flagged : (context.modifyElement link ({ · with mixedMismatch := true })).Consistent :=
    consistent.modifyHeld link fun _ => rfl
  exact flagged.warn _

include consistent in
theorem markExtended : (markExtended root context).Consistent :=
  holds_markExtended (fun consistent id => consistent.modifyHeld id fun _ => rfl) root consistent

include consistent in
/-- Every pass keeps a context consistent, whether or not it halts. -/
theorem runPass (pass : Pass) : (endContext (pass.run root context)).Consistent := by
  cases pass with
  | expandGroups => exact consistent.expandGroups root
  | indexElements => exact consistent.indexElements root
  | resolveTypes => exact consistent.resolveTypes root
  | completeDeclarations => exact consistent.completeDeclarations root
  | separateAttributes => exact consistent.separateAttributes root
  | resolveAttributeTypes => exact consistent.resolveAttributeTypes root
  | checkMixedContent => exact consistent.checkMixedContent root
  | markExtended => exact consistent.markExtended root

end Passes

end Consistent

end Context

end XmlSchema
