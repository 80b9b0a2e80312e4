import XmlSchema.Proofs.Facets.Declaring
import XmlSchema.Proofs.Tree.Document

/-!
# The owners of facets

A facet reaches one owner, which the tags around it decide: `facetOwner?`. It is the attribute that
is declared around if it is stored; else the node of the innermost element or complex type; else the
innermost node if it is a simple type. `TakesFacet` says what becomes of the facets, and
`takesFacet_of_readTree` that each facet inside the schema of a document is taken so.
-/

namespace XmlSchema

open Assembly (FacetOwner FacetValue)

/-- Whether tags of a construct are facets. -/
def Construct.isFacet : Construct → Bool
  | .enumeration | .minInclusive | .maxInclusive => true
  | _ => false

/-! ## The facets of an owner -/

theorem AttributeSlot.attribute?_modify_self (context : Context) (change : Attribute → Attribute)
    (slot : AttributeSlot) :
    slot.attribute? (slot.modify context change) = (slot.attribute? context).map change := by
  have edited : ∀ (id : NodeId) (edit : Element → Element),
      (context.modifyElement id edit).element? id = (context.element? id).map edit :=
    fun _ _ => (Arena.element?_modifyElement ..).trans (if_pos rfl)
  cases slot with
  | global name => exact (Table.find?_modify ..).trans (if_pos rfl)
  | grouped id name =>
      show (((context.modifyElement id _).element? id).bind _).bind _ =
        (((context.element? id).bind _).bind _).map _
      rw [edited]
      cases context.element? id with
      | none => rfl
      | some element =>
          show (element.openGroup?.map _).bind _ = (element.openGroup?.bind _).map _
          cases element.openGroup? with
          | none => rfl
          | some group => exact (Table.find?_modify ..).trans (if_pos rfl)
  | owned id name =>
      show ((context.modifyElement id _).element? id).bind _ = ((context.element? id).bind _).map _
      rw [edited]
      cases context.element? id with
      | none => rfl
      | some element => exact (Table.find?_modify ..).trans (if_pos rfl)

namespace Assembly.FacetOwner

/-- The facets of an owner. -/
def facets? (context : Context) : FacetOwner → Option Facets
  | .declaredAttribute slot => (slot.attribute? context).map Attribute.facets
  | .node id => (context.node? id).map Node.facets

/-- The node that keeps the facets of an owner, if a node does. -/
def keeper? : FacetOwner → Option NodeId
  | .declaredAttribute slot => slot.owner?
  | .node id => some id

/-- The facets of an owner, in the node that keeps them. -/
def facetsIn? (node : Node) : FacetOwner → Option Facets
  | .declaredAttribute (.global _) => none
  | .declaredAttribute (.grouped _ name) =>
      ((node.element?.bind Element.openGroup?).bind (·.attributes.find? name)).map Attribute.facets
  | .declaredAttribute (.owned _ name) =>
      (node.element?.bind (·.attributes.find? name)).map Attribute.facets
  | .node _ => some node.facets

variable {context : Context} {owner other : FacetOwner} {id : NodeId} {facets : Facets}
  {name : String}

theorem facets?_eq (kept : owner.keeper? = some id) :
    owner.facets? context = (context.node? id).bind owner.facetsIn? := by
  cases owner with
  | node id =>
      cases kept
      show (context.node? id).map _ = _
      cases context.node? id <;> rfl
  | declaredAttribute slot =>
      cases slot
      all_goals cases kept
      all_goals
        show Option.map _ (Option.bind _ _) = _
        unfold Context.element? Arena.element? Context.node?
        cases context.arena.node? id <;> rfl

/-- A change to a node changes nothing but what the node keeps. -/
theorem facets?_modifyNode {change : Node → Node}
    (keeps : owner.keeper? = some id →
      ∀ node, owner.facetsIn? (change node) = owner.facetsIn? node) :
    owner.facets? (context.modifyNode id change) = owner.facets? context := by
  cases kept : owner.keeper? with
  | none =>
      cases owner with
      | node id => cases kept
      | declaredAttribute slot =>
          cases slot
          all_goals cases kept
          rfl
  | some other =>
      have read : (context.modifyNode id change).node? other = _ :=
        Arena.node?_modify context.arena id other change
      rw [facets?_eq kept, facets?_eq kept, read]
      split
      · rename_i same
        subst same
        show ((context.node? other).map change).bind _ = _
        cases context.node? other with
        | none => rfl
        | some node => exact keeps kept node
      · rfl

theorem facetsIn?_mapFacets_of_ne (different : other ≠ .node id) (kept : other.keeper? = some id)
    (change : Facets → Facets) (node : Node) :
    other.facetsIn? (node.mapFacets change) = other.facetsIn? node := by
  cases other with
  | node id =>
      cases kept
      exact absurd rfl different
  | declaredAttribute slot =>
      cases slot
      all_goals cases kept
      all_goals cases node <;> rfl

theorem facetsIn?_grouped_of_ne (different : other ≠ .declaredAttribute (.grouped id name))
    (kept : other.keeper? = some id) (change : Attribute → Attribute) (node : Node) :
    other.facetsIn? (node.mapElement fun element =>
        { element with
          openGroup? := element.openGroup?.map fun group =>
            { group with attributes := group.attributes.modify name change } }) =
      other.facetsIn? node := by
  cases node with
  | simple simpleType => cases other <;> rfl
  | declaration element =>
      cases other with
      | node id => rfl
      | declaredAttribute place =>
          cases place with
          | global | owned => rfl
          | grouped owner otherName =>
              cases kept
              have otherKey : otherName ≠ name := fun same => different (by rw [same])
              show (Option.bind (Option.map _ element.openGroup?) _).map _ =
                (element.openGroup?.bind _).map _
              cases element.openGroup? with
              | none => rfl
              | some group =>
                  exact congrArg (Option.map Attribute.facets)
                    ((Table.find?_modify ..).trans (if_neg otherKey))

theorem facetsIn?_owned_of_ne (different : other ≠ .declaredAttribute (.owned id name))
    (kept : other.keeper? = some id) (change : Attribute → Attribute) (node : Node) :
    other.facetsIn? (node.mapElement fun element =>
        { element with attributes := element.attributes.modify name change }) =
      other.facetsIn? node := by
  cases node with
  | simple simpleType => cases other <;> rfl
  | declaration element =>
      cases other with
      | node id => rfl
      | declaredAttribute place =>
          cases place with
          | global | grouped => rfl
          | owned owner otherName =>
              cases kept
              have otherKey : otherName ≠ name := fun same => different (by rw [same])
              exact congrArg (Option.map Attribute.facets)
                ((Table.find?_modify ..).trans (if_neg otherKey))

theorem facets?_global_of_ne (different : other ≠ .declaredAttribute (.global name))
    (change : Attribute → Attribute) :
    other.facets? { context with
        globalAttributes := context.globalAttributes.modify name change } =
      other.facets? context := by
  cases other with
  | node id => rfl
  | declaredAttribute place =>
      cases place with
      | grouped | owned => rfl
      | global otherName =>
          have otherKey : otherName ≠ name := fun same => different (by rw [same])
          exact congrArg (Option.map Attribute.facets)
            ((Table.find?_modify ..).trans (if_neg otherKey))

/-- A facet that is added to an owner changes the facets of no other. -/
theorem facets?_addFacet_of_ne (context : Context) (facet : FacetValue) (different : other ≠ owner) :
    other.facets? (addFacet context facet owner) = other.facets? context := by
  cases owner with
  | node id =>
      exact facets?_modifyNode fun kept =>
        facetsIn?_mapFacets_of_ne different kept facet.addTo
  | declaredAttribute slot =>
      cases slot with
      | global name => exact facets?_global_of_ne different _
      | grouped id name =>
          exact facets?_modifyNode fun kept => facetsIn?_grouped_of_ne different kept _
      | owned id name =>
          exact facets?_modifyNode fun kept => facetsIn?_owned_of_ne different kept _

/-- A facet joins the facets of the owner to which it is added. -/
theorem facets?_addFacet_self (facet : FacetValue) (had : owner.facets? context = some facets) :
    owner.facets? (addFacet context facet owner) = some (facet.addTo facets) := by
  cases owner with
  | node id =>
      obtain ⟨node, found, rfl⟩ := Option.map_eq_some_iff.1 had
      have read : (addFacet context facet (.node id)).node? id = _ :=
        (Arena.node?_modify ..).trans (if_pos rfl)
      have foundThere : context.arena.node? id = some node := found
      show Option.map _ _ = _
      rw [read, foundThere]
      cases node <;> rfl
  | declaredAttribute slot =>
      obtain ⟨declared, found, rfl⟩ := Option.map_eq_some_iff.1 had
      show Option.map _ (slot.attribute? (slot.modify context _)) = _
      rw [AttributeSlot.attribute?_modify_self, found]
      rfl

/-- No other table has facets that change, and there is no warning. -/
theorem kept_addFacet (context : Context) (facet : FacetValue) (owner : FacetOwner) :
    (addFacet context facet owner).attributeGroups = context.attributeGroups ∧
      (addFacet context facet owner).warnings = context.warnings := by
  cases owner with
  | node id => exact ⟨rfl, rfl⟩
  | declaredAttribute slot => cases slot <;> exact ⟨rfl, rfl⟩

end Assembly.FacetOwner

/-! ## The owner among the tags around -/

section Around

variable (vocabulary : Vocabulary) (around : List Enclosure)

/-- The node of the innermost element or complex type around that has made one. -/
def declarationAround? : Option NodeId :=
  around.findSome? fun tag =>
    if tag.construct vocabulary = .element ∨ tag.construct vocabulary = .complexType then tag.node?
    else none

/-- The innermost node around, if it is a simple type. -/
def simpleTypeAround? : Option NodeId :=
  (innermostNode? vocabulary around).bind fun owner =>
    if owner.1 = .simpleType then some owner.2 else none

/-- The owner of a facet among some tags. -/
def facetOwner? : Option FacetOwner :=
  match storedAttribute? vocabulary around with
  | some stored => some (.declaredAttribute stored.1)
  | none =>
      ((declarationAround? vocabulary around).or (simpleTypeAround? vocabulary around)).map .node

end Around

/-- What a facet does among some tags: without a value, or with a bound that is not a decimal, it
leaves a warning, and without an owner too. Otherwise its value joins the facets of its owner, and
no other facets change. -/
inductive TakesFacet (vocabulary : Vocabulary) (construct : Construct)
    (attributes : Xml.Attributes) (around : List Enclosure) (before after : Context) : Prop where
  | unvalued (absent : attributes.find? "value" = none)
      (warned : after = before.warn (.missingFacetValue construct
        (((innermostNode? vocabulary around).map (before.nodeName ·.2)).getD "")))
  | invalid {value : String} (found : attributes.find? "value" = some value)
      (invalid : Assembly.facetValue? construct value = none)
      (warned : after = before.warn (.invalidFacetValue value))
  | detached {value : String} {facet : FacetValue} (found : attributes.find? "value" = some value)
      (valid : Assembly.facetValue? construct value = some facet)
      (alone : facetOwner? vocabulary around = none)
      (warned : after = before.warn (.detachedFacet value))
  | reaches {value : String} {facet : FacetValue} {owner : FacetOwner} {facets : Facets}
      (found : attributes.find? "value" = some value)
      (valid : Assembly.facetValue? construct value = some facet)
      (owned : facetOwner? vocabulary around = some owner)
      (had : owner.facets? before = some facets)
      (joined : owner.facets? after = some (facet.addTo facets))
      (others : ∀ other, other ≠ owner → other.facets? after = other.facets? before)
      (groups : after.attributeGroups = before.attributeGroups)
      (warnings : after.warnings = before.warnings)

variable {vocabulary : Vocabulary} {around outer : List Enclosure} {construct : Construct}
  {attributes : Xml.Attributes} {context : Context} {assembly before after : Assembly}
  {slot : AttributeSlot} {declared : Attribute} {id : NodeId} {tag : Enclosure} {name : String}
  {event : Xml.Event}

open Assembly

theorem isSome_declarationAround? (member : tag ∈ around)
    (isElement : tag.construct vocabulary = .element) (made : tag.node?.isSome = true) :
    (declarationAround? vocabulary around).isSome = true := by
  refine List.findSome?_isSome_iff.2 ⟨tag, member, ?_⟩
  rw [if_pos (.inl isElement)]
  exact made

theorem exists_of_declarationAround? (found : declarationAround? vocabulary around = some id) :
    ∃ tag ∈ around, (tag.construct vocabulary = .element ∨
      tag.construct vocabulary = .complexType) ∧ tag.node? = some id := by
  obtain ⟨tag, member, same⟩ := List.exists_of_findSome?_eq_some found
  split at same
  · rename_i declares
    exact ⟨tag, member, declares, same⟩
  · cases same

/-- Whether the node of a tag is an element or a complex type. -/
theorem Construct.Makes.declares (makes : construct.Makes context id) :
    ((context.element? id).any fun element =>
        element.kind = .element || element.kind = .complexType) =
      decide (construct = .element ∨ construct = .complexType) := by
  cases makes with
  | declaration found isKind =>
      rw [found]
      rename_i element
      show (decide _ || decide _) = _
      generalize element.kind = kind at isKind
      cases construct
      all_goals cases isKind
      all_goals rfl
  | simpleType found =>
      rw [Context.element?_eq_none_of_simpleType? found]
      rfl

/-- Whether the node of a tag is a simple type. -/
theorem Construct.Makes.isSome_simpleType? (makes : construct.Makes context id) :
    (context.arena.simpleType? id).isSome = decide (construct = .simpleType) := by
  cases makes with
  | declaration found isKind =>
      rw [Context.simpleType?_eq_none_of_element? found]
      refine (decide_eq_false fun isType => ?_).symm
      rw [isType] at isKind
      cases isKind
  | simpleType found =>
      rw [found]
      rfl

/-- Inside an element, the nearest declaration is not outside the element. -/
theorem exists_declarationAround?_append {inner : List Enclosure}
    (isElement : tag.construct vocabulary = .element) (made : tag.node?.isSome = true) :
    ∃ id, declarationAround? vocabulary (inner ++ tag :: outer) = some id ∧
      ∃ first ∈ inner ++ [tag], (first.construct vocabulary = .element ∨
        first.construct vocabulary = .complexType) ∧ first.node? = some id := by
  have here : (declarationAround? vocabulary (inner ++ [tag])).isSome = true :=
    isSome_declarationAround? (List.mem_append_right inner (List.mem_singleton_self tag)) isElement
      made
  obtain ⟨id, found⟩ := Option.isSome_iff_exists.1 here
  refine ⟨id, ?_, exists_of_declarationAround? found⟩
  unfold declarationAround? at found ⊢
  rw [List.append_cons, List.findSome?_append, found]
  rfl

theorem exists_of_facetOwner?_eq_node {inner : List Enclosure}
    (isElement : tag.construct vocabulary = .element) (made : tag.node?.isSome = true)
    (owned : facetOwner? vocabulary (inner ++ tag :: outer) = some (.node id)) :
    ∃ first ∈ inner ++ [tag], (first.construct vocabulary = .element ∨
      first.construct vocabulary = .complexType) ∧ first.node? = some id := by
  unfold facetOwner? at owned
  split at owned
  · cases owned
  · obtain ⟨nearest, found, declares⟩ := exists_declarationAround?_append isElement made
    rw [found] at owned
    cases owned
    exact declares

/-- The facets of anything but the owner stay as they are. -/
theorem TakesFacet.facets?_of_ne {before after : Context}
    (takes : TakesFacet vocabulary construct attributes around before after) (other : FacetOwner)
    (elsewhere : facetOwner? vocabulary around ≠ some other) :
    other.facets? after = other.facets? before := by
  have warned : ∀ warning, other.facets? (before.warn warning) = other.facets? before := by
    intro warning
    cases other with
    | node id => rfl
    | declaredAttribute slot => cases slot <;> rfl
  cases takes with
  | unvalued _ same => rw [same, warned]
  | invalid _ _ same => rw [same, warned]
  | detached _ _ _ same => rw [same, warned]
  | reaches _ _ owned _ _ others _ _ =>
      exact others other fun same => elsewhere (same ▸ owned)

/-! ## Places -/

/-- A place where the vocabulary is known, all open nodes have been made by the tags around, and the
attribute that is declared is known. -/
structure Placed (vocabulary : Vocabulary) (assembly : Assembly) (around : List Enclosure) :
    Prop where
  adopted : assembly.Adopted vocabulary
  enclosed : assembly.Enclosed around
  accounted : assembly.Accounted around
  branching : assembly.Branching
  declaring : Declaring vocabulary assembly around

namespace Placed

variable (placed : Placed vocabulary assembly around)

include placed

theorem makes : ∀ tag ∈ around, ∀ id, tag.node? = some id →
    (tag.construct vocabulary).Makes assembly.context id := by
  have makes := placed.enclosed.makes
  rwa [placed.adopted.vocabulary] at makes

theorem opensNode : Enclosure.OpenNodes vocabulary around := by
  have opensNode := placed.enclosed.opensNode placed.accounted
  rwa [placed.adopted.vocabulary] at opensNode

theorem top?_eq : assembly.top? = (innermostNode? vocabulary around).map Prod.snd := by
  unfold top?
  rw [placed.accounted, map_snd_innermostNode?]

theorem nearestDeclaration?_eq :
    assembly.nearestDeclaration? = declarationAround? vocabulary around := by
  have makes := placed.makes
  unfold nearestDeclaration?
  rw [placed.accounted]
  clear placed
  induction around with
  | nil => rfl
  | cons tag around inductionHypothesis =>
      obtain ⟨first, others⟩ := List.forall_mem_cons.1 makes
      unfold declarationAround?
      rw [List.findSome?_cons]
      cases made : tag.node? with
      | none =>
          rw [List.filterMap_cons_none made, inductionHypothesis others, ite_self]
          rfl
      | some id =>
          rw [List.filterMap_cons_some made, List.find?_cons, (first id made).declares]
          split
          · rename_i declares
            rw [if_pos (of_decide_eq_true declares)]
          · rename_i other
            rw [if_neg (of_decide_eq_false other), inductionHypothesis others]
            rfl

/-- The innermost open node is a simple type if the tags around say so. -/
theorem simpleTypeAround?_eq :
    (assembly.top?.bind fun id =>
        (assembly.context.arena.simpleType? id).map fun _ => FacetOwner.node id) =
      (simpleTypeAround? vocabulary around).map .node := by
  rw [placed.top?_eq]
  unfold simpleTypeAround?
  cases innermost : innermostNode? vocabulary around with
  | none => rfl
  | some owner =>
      obtain ⟨tag, member, isConstruct, made⟩ := exists_of_innermostNode? innermost
      have isSimple := (placed.makes tag member owner.2 made).isSome_simpleType?
      rw [isConstruct] at isSimple
      show (assembly.context.arena.simpleType? owner.2).map _ =
        Option.map _ (if owner.1 = .simpleType then _ else _)
      split
      · rename_i isType
        rw [isType] at isSimple
        obtain ⟨simpleType, found⟩ := Option.isSome_iff_exists.1 isSimple
        rw [found]
        rfl
      · rename_i other
        rw [decide_eq_false other] at isSimple
        rw [Option.isNone_iff_eq_none.1 (Option.isSome_eq_false_iff.1 isSimple)]
        rfl

theorem within_attribute (stored : storedAttribute? vocabulary around = some (slot, declared)) :
    assembly.within .attribute = true := by
  obtain ⟨tag, member, isAttribute⟩ := (mem_of_storedAttribute? stored).1
  unfold Assembly.within
  rw [placed.enclosed.openTags, placed.adopted.vocabulary]
  exact List.any_eq_true.2 ⟨_, List.mem_map_of_mem member, decide_eq_true isAttribute⟩

theorem exists_attribute? (stored : storedAttribute? vocabulary around = some (slot, declared)) :
    ∃ kept, slot.attribute? assembly.context = some kept ∧ kept.tagPart = declared.tagPart :=
  Option.map_eq_some_iff.1 (placed.declaring.stored placed.accounted slot declared stored)

/-- The owner of a facet that opens now is the one that the tags around decide. -/
theorem facetOwner?_eq : assembly.facetOwner? = facetOwner? vocabulary around := by
  unfold Assembly.facetOwner? facetOwner?
  rw [placed.declaring.slot placed.accounted]
  cases stored : storedAttribute? vocabulary around with
  | some pair =>
      obtain ⟨kept, found, -⟩ := placed.exists_attribute? stored
      rw [placed.within_attribute stored]
      show (pair.1.attribute? assembly.context).map _ = _
      rw [found]
      rfl
  | none =>
      dsimp only [Option.map_none]
      rw [placed.nearestDeclaration?_eq]
      cases declarationAround? vocabulary around with
      | some id => rfl
      | none => exact placed.simpleTypeAround?_eq

/-- The owner of a facet has facets. -/
theorem exists_facets? {owner : FacetOwner}
    (owned : facetOwner? vocabulary around = some owner) :
    ∃ facets, owner.facets? assembly.context = some facets := by
  have ofNode : ∀ tag ∈ around, ∀ id, tag.node? = some id →
      ∃ facets, FacetOwner.facets? assembly.context (.node id) = some facets := by
    intro tag member id made
    obtain ⟨node, found⟩ := Option.isSome_iff_exists.1 (placed.enclosed.isSome_node? member made)
    exact ⟨node.facets, congrArg (Option.map Node.facets) found⟩
  unfold facetOwner? at owned
  split at owned
  · rename_i stored isStored
    cases owned
    obtain ⟨kept, found, -⟩ := placed.exists_attribute? isStored
    exact ⟨kept.facets, congrArg (Option.map Attribute.facets) found⟩
  · obtain ⟨id, isOwner, rfl⟩ := Option.map_eq_some_iff.1 owned
    rcases Option.or_eq_some_iff.1 isOwner with declares | ⟨-, isType⟩
    · obtain ⟨tag, member, -, made⟩ := exists_of_declarationAround? declares
      exact ofNode tag member id made
    · unfold simpleTypeAround? at isType
      obtain ⟨owner, innermost, isType⟩ := Option.bind_eq_some_iff.1 isType
      split at isType
      · cases isType
        obtain ⟨tag, member, -, made⟩ := exists_of_innermostNode? innermost
        exact ofNode tag member owner.2 made
      · cases isType

theorem takesFacet_openFacet (construct : Construct) (attributes : Xml.Attributes) :
    TakesFacet vocabulary construct attributes around assembly.context
      (assembly.openFacet construct attributes).context := by
  unfold openFacet
  split
  · rename_i absent
    refine .unvalued absent ?_
    rw [placed.top?_eq, Option.map_map]
    rfl
  · rename_i value found
    split
    · rename_i invalid
      exact .invalid found invalid rfl
    · rename_i facet valid
      split
      · rename_i owner owned
        rw [placed.facetOwner?_eq] at owned
        obtain ⟨facets, had⟩ := placed.exists_facets? owned
        obtain ⟨groups, warnings⟩ := FacetOwner.kept_addFacet assembly.context facet owner
        exact .reaches found valid owned had (FacetOwner.facets?_addFacet_self facet had)
          (fun other different => FacetOwner.facets?_addFacet_of_ne assembly.context facet different)
          groups warnings
      · rename_i alone
        rw [placed.facetOwner?_eq] at alone
        exact .detached found valid alone rfl

/-- Inside an element, no owner is a simple type or stands outside the element. -/
theorem facetOwner?_ne_node (suffix : tag :: outer <:+ around)
    (isElement : tag.construct vocabulary = .element)
    (elsewhere : (assembly.context.arena.simpleType? id).isSome = true ∨
      id ∈ outer.filterMap Enclosure.node?) :
    facetOwner? vocabulary around ≠ some (.node id) := by
  intro owned
  have made := placed.opensNode tag outer suffix
  rw [isElement] at made
  have decreasing := placed.enclosed.decreasing placed.branching
  obtain ⟨inner, rfl⟩ := suffix
  obtain ⟨first, isInside, declares, isNode⟩ := exists_of_facetOwner?_eq_node isElement made owned
  rw [List.append_cons] at decreasing
  rcases elsewhere with isType | isOuter
  · have isAround : first ∈ inner ++ tag :: outer := by
      rw [List.append_cons]
      exact List.mem_append_left outer isInside
    have isSimple := (placed.makes first isAround id isNode).isSome_simpleType?
    rw [isType] at isSimple
    rw [of_decide_eq_true isSimple.symm] at declares
    rcases declares with contradiction | contradiction <;> cases contradiction
  · -- The node of an inner tag is younger than that of an outer one.
    rw [List.filterMap_append] at decreasing
    have isInner := List.mem_filterMap.2 ⟨first, isInside, isNode⟩
    exact Nat.lt_irrefl _ ((List.pairwise_append.1 decreasing).2.2 id isInner id isOuter)

end Placed

/-- A facet does all that it does when its tag opens. -/
theorem Assembly.context_of_step_facet (adopted : before.Adopted vocabulary)
    (opens : event.tag? = some (name, attributes))
    (isFacet : (vocabulary.classify name).isFacet = true) (taken : before.step event = .ok after) :
    after.context = (before.openFacet (vocabulary.classify name) attributes).context := by
  have opening : ∀ {opened : Assembly}, before.stepOpening name attributes = .ok opened →
      opened.context = (before.openFacet (vocabulary.classify name) attributes).context ∧
        opened.openTags.head?.map OpenTag.construct = some (vocabulary.classify name) := by
    intro opened taken
    obtain rfl := stepOpening_eq adopted taken
    refine ⟨?_, rfl⟩
    generalize vocabulary.classify name = construct at isFacet ⊢
    cases construct
    all_goals cases isFacet
    all_goals rfl
  cases event with
  | closing => cases opens
  | text content => cases opens
  | opening name attributes =>
      cases opens
      exact (opening taken).1
  | empty name attributes =>
      cases opens
      obtain ⟨opened, openedTag, closed⟩ := exists_opened_of_step_empty taken
      obtain ⟨same, isTag⟩ := opening openedTag
      rw [← same]
      obtain ⟨tag, outer, openTags, closes⟩ := cases_of_stepClosing closed
      rw [openTags] at isTag
      have isTag : tag.construct = vocabulary.classify name := Option.some.inj isTag
      rw [← isTag] at isFacet
      rcases closes with ⟨isSchema, -⟩ | ⟨-, rfl⟩
      · rw [isSchema] at isFacet
        cases isFacet
      · unfold closeTag
        generalize tag.construct = construct at isFacet ⊢
        cases construct
        all_goals cases isFacet
        all_goals rfl

/-! ## Documents -/

/-- Whether some events and one more are taken, with a check of the place between them and of what
is behind. -/
def tracesStep (options : Options) (early : List Xml.Event) (event : Xml.Event)
    (check : Assembly → List Enclosure → Assembly → Bool) : Bool :=
  match trace (.initial options) early with
  | .error _ => false
  | .ok (before, around) =>
      match before.step event with
      | .error _ => false
      | .ok after => check before around after

theorem exists_of_tracesStep {options : Options} {early : List Xml.Event}
    {check : Assembly → List Enclosure → Assembly → Bool}
    (traces : tracesStep options early event check = true) :
    ∃ before around after, trace (.initial options) early = .ok (before, around) ∧
      before.step event = .ok after ∧ check before around after = true := by
  unfold tracesStep at traces
  split at traces
  · cases traces
  · rename_i before around traced
    split at traces
    · cases traces
    · rename_i after taken
      exact ⟨before, around, after, traced, taken, traces⟩

section Document

variable {options : Options} {document : Bytes} {root : NodeId} {early late : List Xml.Event}

/-- The places inside a schema of a document that is read are such. -/
theorem exists_placed (read : readTree (.initial options) document = .ok (context, root))
    (unnested : context.vocabulary.Unnested .attribute
      ((Xml.read document).events.map Xml.Located.value))
    (split : (Xml.read document).events.map Xml.Located.value = early ++ event :: late)
    (inside : ∃ outer ∈ Xml.openTags early, context.vocabulary.classify outer.1 = .schema) :
    ∃ before around after, trace (.initial options) early = .ok (before, around) ∧
      before.step event = .ok after ∧ Placed context.vocabulary before around := by
  obtain ⟨assembly, completed, finished, rfl⟩ := exists_run_of_readTree read
  have taken := foldlM_step_of_run completed
  rw [split] at taken unnested
  obtain ⟨before, reached, taken⟩ := foldlM_append_eq_ok_iff.1 taken
  obtain ⟨after, step, -⟩ := foldlM_cons_eq_ok_iff.1 taken
  obtain ⟨around, traced⟩ := exists_trace reached
  have enclosed := enclosed_of_trace traced
  obtain ⟨pair, member, isSchema⟩ := inside
  rw [← map_tag_of_trace traced] at member
  obtain ⟨schema, schemaAround, rfl⟩ := List.mem_map.1 member
  -- The vocabulary of the place is that of the whole document, since a schema is around.
  have awaits : before.awaitsFirstTag = false := by
    refine Bool.eq_false_iff.2 fun awaits => ?_
    rw [enclosed.begins awaits] at schemaAround
    cases schemaAround
  have vocabulary : before.context.vocabulary = assembly.context.vocabulary :=
    (Adopted.foldlM enclosed.standing ⟨awaits, rfl⟩ taken).vocabulary.symm
  have closes : before.SchemasClose :=
    .of_foldlM enclosed.standing taken (finish_eq_ok finished).1
  exact ⟨before, around, after, traced, step, {
    adopted := ⟨awaits, vocabulary⟩
    enclosed
    accounted := enclosed.accounted closes ⟨schema, schemaAround, vocabulary.symm ▸ isSchema⟩
    branching := branching_of_trace traced
    declaring := declaring_of_trace traced unnested.of_append fun _ => vocabulary }⟩

/-- Where no attribute stands inside another one, each facet inside a schema does what the tags around
say. In the inline type of an attribute that is stored, it changes the facets of no node. In the
inline type of an element, it changes those of no simple type and of no node outside the element. -/
theorem takesFacet_of_readTree
    (read : readTree (.initial options) document = .ok (context, root))
    (unnested : context.vocabulary.Unnested .attribute
      ((Xml.read document).events.map Xml.Located.value))
    (split : (Xml.read document).events.map Xml.Located.value = early ++ event :: late)
    (opens : event.tag? = some (name, attributes))
    (isFacet : (context.vocabulary.classify name).isFacet = true)
    (inside : ∃ outer ∈ Xml.openTags early, context.vocabulary.classify outer.1 = .schema) :
    ∃ before around after,
      trace (.initial options) early = .ok (before, around) ∧
      around.map Enclosure.tag = Xml.openTags early ∧
      Enclosure.OpenNodes context.vocabulary around ∧
      before.step event = .ok after ∧
      TakesFacet context.vocabulary (context.vocabulary.classify name) attributes around
        before.context after.context ∧
      (∀ slot declared, storedAttribute? context.vocabulary around = some (slot, declared) →
        (slot.attribute? before.context).map Attribute.tagPart = some declared.tagPart ∧
        ∀ id, (after.context.node? id).map Node.facets =
          (before.context.node? id).map Node.facets) ∧
      ∀ tag outer, tag :: outer <:+ around → tag.construct context.vocabulary = .element →
        ∀ id, ((before.context.arena.simpleType? id).isSome = true ∨
            id ∈ outer.filterMap Enclosure.node?) →
          (after.context.node? id).map Node.facets =
            (before.context.node? id).map Node.facets := by
  obtain ⟨before, around, after, traced, step, placed⟩ := exists_placed read unnested split inside
  have takes : TakesFacet context.vocabulary (context.vocabulary.classify name) attributes around
      before.context after.context := by
    rw [context_of_step_facet placed.adopted opens isFacet step]
    exact placed.takesFacet_openFacet _ attributes
  refine ⟨before, around, after, traced, map_tag_of_trace traced, placed.opensNode, step, takes,
    fun slot declared stored => ⟨placed.declaring.stored placed.accounted slot declared stored,
      fun id => takes.facets?_of_ne (.node id) fun owned => ?_⟩,
    fun tag outer suffix isElement id elsewhere =>
      takes.facets?_of_ne (.node id) (placed.facetOwner?_ne_node suffix isElement elsewhere)⟩
  unfold XmlSchema.facetOwner? at owned
  rw [stored] at owned
  cases owned

end Document

/-- A type with an attribute, inside which a simple type allows one value. -/
def valuedAttributeSchema : Bytes :=
  schemaDocument [
    "<s:complexType name='T'><s:attribute name='a'><s:simpleType><s:restriction>",
    "<s:enumeration value='x'/></s:restriction></s:simpleType></s:attribute>",
    "</s:complexType>"]

/-- A value in the inline type of an attribute joins the facets of the attribute. -/
theorem takesFacet_of_readTree_enumeration :
    ∃ (document : Bytes) (context : Context) (root owner : NodeId) (early late : List Xml.Event)
      (before after : Assembly) (around : List Enclosure),
      document = valuedAttributeSchema ∧
      readTree (.initial .standard) document = .ok (context, root) ∧
      context.vocabulary.Unnested .attribute
        ((Xml.read document).events.map Xml.Located.value) ∧
      (Xml.read document).events.map Xml.Located.value =
        early ++ .empty "s:enumeration" (.ofList [("value", "x")]) :: late ∧
      (context.vocabulary.classify "s:enumeration").isFacet = true ∧
      (∃ outer ∈ Xml.openTags early, context.vocabulary.classify outer.1 = .schema) ∧
      trace (.initial .standard) early = .ok (before, around) ∧
      before.step (.empty "s:enumeration" (.ofList [("value", "x")])) = .ok after ∧
      TakesFacet context.vocabulary (context.vocabulary.classify "s:enumeration")
        (.ofList [("value", "x")]) around before.context after.context ∧
      (before.context.element? owner).map Element.name = some "T" ∧
      FacetOwner.facets? before.context (.declaredAttribute (.owned owner "a")) = some .empty ∧
      FacetOwner.facets? after.context (.declaredAttribute (.owned owner "a")) =
        some ⟨["x"], none⟩ := by
  obtain ⟨document, document_eq⟩ : ∃ document, document = valuedAttributeSchema := ⟨_, rfl⟩
  obtain ⟨early, early_eq⟩ : ∃ early : List Xml.Event, early =
      [.opening "s:schema" (.ofList [("xmlns:s", "http://www.w3.org/2001/XMLSchema")]),
        .opening "s:complexType" (.ofList [("name", "T")]),
        .opening "s:attribute" (.ofList [("name", "a")]), .opening "s:simpleType" .empty,
        .opening "s:restriction" .empty] := ⟨_, rfl⟩
  have computed : readsTree .standard document (fun context _ =>
      decide (context.vocabulary = ⟨"s:"⟩)) = true := by
    rw [document_eq]
    decide +kernel
  have split : (Xml.read document).events.map Xml.Located.value =
      early ++ .empty "s:enumeration" (.ofList [("value", "x")]) ::
        List.replicate 5 .closing := by
    rw [document_eq, early_eq]
    decide +kernel
  have traces : tracesStep .standard early (.empty "s:enumeration" (.ofList [("value", "x")]))
      (fun before _ after => decide
        ((before.context.element? ⟨1⟩).map Element.name = some "T" ∧
        FacetOwner.facets? before.context (.declaredAttribute (.owned ⟨1⟩ "a")) = some .empty ∧
        FacetOwner.facets? after.context (.declaredAttribute (.owned ⟨1⟩ "a")) =
          some ⟨["x"], none⟩)) = true := by
    rw [early_eq]
    decide +kernel
  obtain ⟨context, root, read, checked⟩ := exists_of_readsTree computed
  have vocabulary := of_decide_eq_true checked
  have unnested : context.vocabulary.Unnested .attribute
      ((Xml.read document).events.map Xml.Located.value) := by
    rw [vocabulary, split, early_eq]
    decide +kernel
  have isFacet : (context.vocabulary.classify "s:enumeration").isFacet = true := by
    rw [vocabulary]
    decide +kernel
  have inside : ∃ outer ∈ Xml.openTags early, context.vocabulary.classify outer.1 = .schema := by
    rw [vocabulary, early_eq]
    decide +kernel
  obtain ⟨before, around, after, traced, -, -, taken, takes, -⟩ :=
    takesFacet_of_readTree read unnested split rfl isFacet inside
  obtain ⟨again, others, reached, tracedAgain, takenAgain, facets⟩ := exists_of_tracesStep traces
  cases traced.symm.trans tracedAgain
  cases taken.symm.trans takenAgain
  exact ⟨document, context, root, ⟨1⟩, early, _, before, after, around, document_eq, read, unnested,
    split, isFacet, inside, traced, taken, takes, of_decide_eq_true facets⟩

/-- An element of a simple type, inside which an attribute has a simple type with one value. -/
def unstoredAttributeSchema : Bytes :=
  schemaDocument [
    "<s:element name='e'><s:simpleType><s:attribute name='a'><s:simpleType>",
    "<s:restriction base='s:string'><s:enumeration value='x'/></s:restriction>",
    "</s:simpleType></s:attribute></s:simpleType></s:element>"]

/-- An attribute inside a simple type is not stored, and a value in its inline type joins the facets
of the element around. -/
theorem enumeration_of_unstored_attribute :
    ∃ (document : Bytes) (model : Model) (owner : NodeId) (early late : List Xml.Event)
      (before after : Assembly) (around : List Enclosure),
      document = unstoredAttributeSchema ∧
      compileBytes .standard document = .ok model ∧
      model.context.vocabulary.Unnested .attribute
        ((Xml.read document).events.map Xml.Located.value) ∧
      (Xml.read document).events.map Xml.Located.value =
        early ++ .empty "s:enumeration" (.ofList [("value", "x")]) :: late ∧
      trace (.initial .standard) early = .ok (before, around) ∧
      around.map (·.construct model.context.vocabulary) =
        [.restriction, .simpleType, .attribute, .simpleType, .element, .schema] ∧
      before.step (.empty "s:enumeration" (.ofList [("value", "x")])) = .ok after ∧
      (before.context.element? owner).map (fun element => (element.kind, element.facets)) =
        some (.element, .empty) ∧
      (after.context.element? owner).map (fun element => (element.kind, element.facets)) =
        some (.element, ⟨["x"], none⟩) := by
  obtain ⟨document, document_eq⟩ : ∃ document, document = unstoredAttributeSchema := ⟨_, rfl⟩
  obtain ⟨early, early_eq⟩ : ∃ early : List Xml.Event, early =
      [.opening "s:schema" (.ofList [("xmlns:s", "http://www.w3.org/2001/XMLSchema")]),
        .opening "s:element" (.ofList [("name", "e")]), .opening "s:simpleType" .empty,
        .opening "s:attribute" (.ofList [("name", "a")]), .opening "s:simpleType" .empty,
        .opening "s:restriction" (.ofList [("base", "s:string")])] := ⟨_, rfl⟩
  have computed : compilesFlat .standard document (fun model =>
      decide (model.context.vocabulary = ⟨"s:"⟩)) = true := by
    rw [document_eq]
    decide +kernel
  have split : (Xml.read document).events.map Xml.Located.value =
      early ++ .empty "s:enumeration" (.ofList [("value", "x")]) ::
        List.replicate 6 .closing := by
    rw [document_eq, early_eq]
    decide +kernel
  have traces : tracesStep .standard early (.empty "s:enumeration" (.ofList [("value", "x")]))
      (fun before around after => decide
        (around.map (·.construct ⟨"s:"⟩) =
          [.restriction, .simpleType, .attribute, .simpleType, .element, .schema] ∧
        (before.context.element? ⟨1⟩).map (fun element => (element.kind, element.facets)) =
          some (.element, .empty) ∧
        (after.context.element? ⟨1⟩).map (fun element => (element.kind, element.facets)) =
          some (.element, ⟨["x"], none⟩))) = true := by
    rw [early_eq]
    decide +kernel
  obtain ⟨model, compiled, checked⟩ := exists_of_compilesFlat computed
  have vocabulary := of_decide_eq_true checked
  have unnested : model.context.vocabulary.Unnested .attribute
      ((Xml.read document).events.map Xml.Located.value) := by
    rw [vocabulary, split, early_eq]
    decide +kernel
  obtain ⟨before, around, after, traced, taken, facts⟩ := exists_of_tracesStep traces
  obtain ⟨constructs, empty, joined⟩ := of_decide_eq_true facts
  exact ⟨document, model, ⟨1⟩, early, _, before, after, around, document_eq, compiled, unnested,
    split, traced, vocabulary ▸ constructs, taken, empty, joined⟩

end XmlSchema
