import XmlSchema.Proofs.Frame
import XmlSchema.Proofs.PassWrites

/-!
# The frame of each pass

For every pass, what it leaves alone: the theorem `frame_` of a pass says that all it does to
declarations is what its functions write, and that it keeps every table but its own. The two
tables that passes fill have theorems of their own: `indexElements` is the only pass that touches
the index, and it touches nothing else, `indexElements_eq`.
-/

namespace XmlSchema

variable {change : Change}

/-! ## Expansion of groups -/

/-- What a frame says about a context is kept by the expansion, if its changes include all writes to
children. -/
theorem keptByExpansion_frame
    (writes : ∀ element children, change.holds element { element with children })
    (origin : Context) : KeptByExpansion (fun _ => True) (Frame change origin) where
  contained _ _ _ _ _ _ := trivial
  undefined frame _ _ := frame.trans (.warnings change _ _)
  circular frame _ _ := frame.trans (.warnings change _ _)
  writes frame id _ _ := frame.trans (.modifyElement _ id fun element _ => writes element _)

theorem frame_expandChildren
    (writes : ∀ element children, change.holds element { element with children })
    (groups : Table ElementGroup) (path : List NodeId) (owner : String) (children : List NodeId)
    (context : Context) :
    Frame change context
      (endContext ((expandChildren groups path owner children context).map Prod.snd)) :=
  ((keptByExpansion_frame writes context).expandChildren groups path owner children
    (.refl change context) fun _ _ => trivial).held

theorem frame_expandGroups
    (writes : ∀ element children, change.holds element { element with children }) (root : NodeId)
    (context : Context) : Frame change context (endContext (expandGroups root context)) :=
  (keptByExpansion_frame writes context).expandGroups root (.refl change context)

/-! ## The index -/

theorem indexElement_eq (context : Context) (id : NodeId) :
    indexElement context id =
      { context with elementIndex := (indexElement context id).elementIndex } := by
  unfold indexElement Context.register
  split
  · split
    · split <;> rfl
    · rfl
  · rfl

/-- The index takes nothing but declarations in. -/
theorem indexElements_eq (root : NodeId) (context : Context) :
    indexElements root context =
      { context with elementIndex := (indexElements root context).elementIndex } := by
  unfold indexElements
  generalize context.walk root = order
  induction order generalizing context with
  | nil => rfl
  | cons id rest inductionHypothesis =>
      have later := inductionHypothesis (indexElement context id)
      have others : ∀ elementIndex,
          { indexElement context id with elementIndex } = { context with elementIndex } := by
        intro elementIndex
        rw [indexElement_eq]
      rw [List.foldl_cons]
      exact later.trans (others _)

/-! ## Types -/

theorem attributes_addSimpleBase (element : Element) (name : String) :
    (element.addSimpleBase name).attributes = element.attributes :=
  part_addSimpleBase Element.attributes (fun _ _ => rfl) element name

section Types

variable
  (notes : ∀ element name isList simpleType?,
    change.holds element { element.addSimpleBase name with isList, simpleType? })
  (settles : ∀ element type? isComplex facets,
    change.holds element { element with type?, isComplex, facets })

include notes in
theorem frame_noteSimpleType (context : Context) (id : NodeId) (nominal : Nominal) :
    Frame change context (context.noteSimpleType id nominal) := by
  unfold Context.noteSimpleType
  split
  · exact .modifyElement context id fun element _ => notes element _ _ _
  · exact .refl change context

include settles in
theorem frame_settle (context : Context) (id : NodeId) (resolution : Resolution) :
    Frame change context (context.settle id resolution) := by
  unfold Context.settle
  split
  · exact .refl change context
  · dsimp only
    split
    · exact .modifyElement context id fun element _ => settles element _ _ _
    · exact { Frame.modifyElement context id fun element _ => settles element _ _ _ with }

include notes settles in
theorem frame_resolveElement (nominals : Nominals) (context : Context) (id : NodeId) :
    Frame change context (endContext (resolveElement nominals context id)) :=
  holds_resolveElement
    (fun frame id nominal => frame.trans (frame_noteSimpleType notes _ id nominal))
    (fun frame id resolution => frame.trans (frame_settle settles _ id resolution)) nominals
    (.refl change context) id

include notes settles in
theorem frame_resolveTypes (root : NodeId) (context : Context) :
    Frame change context (endContext (resolveTypes root context)) :=
  .foldlM (frame_resolveElement notes settles _) _ context

end Types

/-! ## Completion and distinct names -/

section Completion

variable
  (writes : ∀ context element merged occurrence,
    change.holds element (Context.completed context element merged occurrence))

include writes in
theorem frame_completeElement (context : Context) (id : NodeId) :
    Frame change context (endContext (completeElement context id)) :=
  holds_completeElement (fun frame _ => frame.trans (.foldl_warn change _ _))
    (fun frame id _ _ => (frame.trans (.foldl_warn change _ _)).trans
      (.modifyElement _ id fun own _ => writes _ own _ _))
    (.refl change context) id

include writes in
theorem frame_completeDeclarations (root : NodeId) (context : Context) :
    Frame change context (endContext (completeDeclarations root context)) :=
  .foldlM (frame_completeElement writes) _ context

end Completion

section DistinctNames

variable
  (writes : ∀ element identifiers, change.holds element
    { element with attributes := separateNames identifiers element.attributes })

include writes in
theorem frame_separateElement (context : Context) (id : NodeId) :
    Frame change context (endContext (separateElement context id)) :=
  holds_separateElement (fun frame id identifiers =>
    frame.trans (.modifyElement _ id fun element _ => writes element identifiers))
    (.refl change context) id

include writes in
theorem frame_separateAttributes (root : NodeId) (context : Context) :
    Frame change context (endContext (separateAttributes root context)) :=
  .foldlM (frame_separateElement writes) _ context

end DistinctNames

/-! ## Types of attributes -/

section AttributeTypes

variable
  (writes : ∀ element key vocabulary type, change.holds element
    { element with attributes := element.attributes.modify key (.resolved vocabulary type) })

include writes in
theorem frame_resolveElementAttributes (context : Context) (id : NodeId) :
    Frame change context (endContext (resolveElementAttributes context id)) :=
  holds_resolveElementAttributes (fun frame id key vocabulary type =>
    frame.trans (.modifyElement _ id fun element _ => writes element key vocabulary type))
    (.refl change context) id

include writes in
theorem frame_resolveAttributeTypes (root : NodeId) (context : Context) :
    Frame change context (endContext (resolveAttributeTypes root context)) :=
  .foldlM (frame_resolveElementAttributes writes) _ context

end AttributeTypes

/-! ## Mixed content and inheritance -/

theorem holds_withSimpleBases
    (notes : ∀ element name, change.holds element (element.addSimpleBase name))
    (context : Context) (element : Element) :
    change.holds element (context.withSimpleBases element) := by
  have added : ∀ (names : List String) (element : Element),
      change.holds element (names.foldl Element.addSimpleBase element) := by
    intro names
    induction names with
    | nil => exact change.refl
    | cons name rest inductionHypothesis =>
        intro element
        exact change.trans (notes element name) (inductionHypothesis _)
  unfold Context.withSimpleBases
  extract_lets based
  have basedHolds : change.holds element based := by
    unfold based
    split
    · split
      · exact change.refl element
      · exact notes element _
    · exact change.refl element
  split
  · exact change.trans basedHolds (added _ based)
  · exact basedHolds

section MixedContent

variable (mixes : ∀ element, change.holds element { element with isMixed := true })
  (notes : ∀ element name, change.holds element (element.addSimpleBase name))
  (flags : ∀ element, change.holds element { element with mixedMismatch := true })

include mixes notes in
theorem frame_equalizeElement (state : Context × List (NodeId × List NodeId)) (id : NodeId) :
    Frame change state.1 (endContext ((equalizeElement state id).map Prod.fst)) :=
  holds_equalizeElement
    (fun frame id => frame.trans (.modifyElement _ id fun element _ => mixes element))
    (fun frame id => frame.trans
      (.modifyElement _ id fun element _ => holds_withSimpleBases notes _ element))
    (.refl change state.1) id

include mixes notes flags in
theorem frame_checkMixedContent (root : NodeId) (context : Context) :
    Frame change context (endContext (checkMixedContent root context)) :=
  holds_checkMixedContent
    (fun frame id => frame.trans (.modifyElement _ id fun element _ => mixes element))
    (fun frame id => frame.trans
      (.modifyElement _ id fun element _ => holds_withSimpleBases notes _ element))
    (fun frame link _ _ => (frame.trans
      (.modifyElement _ link fun element _ => flags element)).trans (.warnings change _ _))
    root (.refl change context)

end MixedContent

section Marks

variable (marks : ∀ element, change.holds element { element with isExtended := true })

include marks in
theorem frame_markParent (context : Context) (id : NodeId) :
    Frame change context (context.markParent id) :=
  holds_markParent
    (fun frame id => frame.trans (.modifyElement _ id fun element _ => marks element))
    (.refl change context) id

include marks in
theorem frame_markExtended (root : NodeId) (context : Context) :
    Frame change context (markExtended root context) :=
  .foldl (frame_markParent marks) _ context

end Marks

end XmlSchema
