import XmlSchema.Proofs.Completion
import XmlSchema.Proofs.Consistency.Keys
import XmlSchema.Proofs.FlatTrees
import XmlSchema.Proofs.Inheritance.MixedContent

/-!
# Identifiers of attributes and children

An attribute is renamed away from the children of its owner and of all the ancestors of its owner:
no identifier of theirs, as it is before reserved words are moved, is the identifier of the attribute
in a model, `Stages.separates`. Two cases are left in which a consumer meets one identifier twice,
and `sharedIdentifier_of_compileBytes` says that there are no others: the child belongs to a
declaration that inherits the attribute, or the child's identifier was a reserved word and has been
moved onto that of the attribute. Both occur: `attributes_share_identifiers`.
-/

namespace XmlSchema

/-! ## Names that are not taken -/

theorem clean_freshName (identifiers names : List String) (name : String) :
    clean (freshName identifiers names name) ∉ identifiers := by
  fun_induction freshName identifiers names name with
  | case1 name taken inductionHypothesis => exact inductionHypothesis
  | case2 name free => exact fun member => free (.inl member)

/-- A table of attributes that have none of some identifiers. -/
def Table.Avoids (table : Table Attribute) (identifiers : List String) : Prop :=
  table.Every fun _ declaration => declaration.cleanName ∉ identifiers

theorem Table.Avoids.not_mem {table : Table Attribute} {identifiers : List String}
    {declaration : Attribute} (avoids : table.Avoids identifiers)
    (member : declaration ∈ table.values) : declaration.cleanName ∉ identifiers := by
  obtain ⟨entry, entered, rfl⟩ := List.mem_map.1 member
  exact Every.of_mem_entries avoids entered

theorem avoids_separateNames (identifiers : List String) (attributes : Table Attribute) :
    (separateNames identifiers attributes).Avoids identifiers := by
  refine List.foldlRecOn (motive := (Table.Avoids · identifiers)) _ _ (Table.every_empty _) ?_
  intro separated avoids entry _
  dsimp only
  split
  · exact Table.Every.insert avoids (clean_freshName _ _ _)
  · rename_i free
    exact Table.Every.insert avoids free

theorem Table.Avoids.modify {table : Table Attribute} {identifiers : List String}
    (avoids : table.Avoids identifiers) (key : String) {change : Attribute → Attribute}
    (keeps : ∀ declaration, (change declaration).cleanName = declaration.cleanName) :
    (table.modify key change).Avoids identifiers := by
  refine Every.mapValues avoids fun {name declaration} free => ?_
  split
  · rw [keeps]
    exact free
  · exact free

/-- The changes that give no attribute one of some identifiers. -/
def Change.avoiding (identifiers : List String) : Change where
  holds before after := before.attributes.Avoids identifiers → after.attributes.Avoids identifiers
  refl _ avoids := avoids
  trans left right avoids := right (left avoids)

/-! ## Attributes and children of declarations -/

/-- What decides which identifiers the attributes of a declaration have to avoid. -/
def Element.family (element : Element) : Option String × List NodeId × String :=
  (element.base?, element.children, element.plainCleanName)

theorem family_addSimpleBase (element : Element) (name : String) :
    (element.addSimpleBase name).family = element.family :=
  part_addSimpleBase Element.family (fun _ _ => rfl) element name

namespace Context

section Definitions

variable (context : Context) (owner : NodeId)

/-- The attributes of a declaration. -/
def attributesOf : List Attribute :=
  ((context.element? owner).map fun element => element.attributes.values).getD []

/-- The declarations inside a declaration. -/
def childrenOf : List Element :=
  ((context.element? owner).map fun element => element.children.filterMap context.element?).getD []

end Definitions

variable {context next left right : Context} {id owner other : NodeId} {owners chain : List NodeId}
  {child element : Element} {declaration : Attribute}

theorem exists_of_mem_attributesOf (member : declaration ∈ context.attributesOf owner) :
    ∃ element, context.element? owner = some element ∧ declaration ∈ element.attributes.values := by
  unfold attributesOf at member
  cases found : context.element? owner with
  | none => simp [found] at member
  | some element => exact ⟨element, rfl, by simpa [found] using member⟩

theorem mem_childIdentifiers (inside : child ∈ context.childrenOf owner) (member : owner ∈ owners) :
    child.plainCleanName ∈ context.childIdentifiers owners := by
  unfold childrenOf at inside
  cases found : context.element? owner with
  | none => simp [found] at inside
  | some element =>
      rw [found] at inside
      exact List.mem_flatMap.2 ⟨element, List.mem_filterMap.2 ⟨owner, member, found⟩,
        List.mem_map.2 ⟨child, inside, rfl⟩⟩

theorem childIdentifiers_congr
    (same : ∀ id, (right.element? id).map Element.family = (left.element? id).map Element.family)
    (owners : List NodeId) : right.childIdentifiers owners = left.childIdentifiers owners := by
  have names : ∀ children : List NodeId,
      (children.filterMap right.element?).map Element.plainCleanName =
        (children.filterMap left.element?).map Element.plainCleanName := by
    intro children
    rw [List.map_filterMap, List.map_filterMap]
    refine List.filterMap_congr fun id _ => ?_
    have viewed := congrArg (Option.map (·.2.2)) (same id)
    rwa [Option.map_map, Option.map_map] at viewed
  unfold childIdentifiers
  induction owners with
  | nil => rfl
  | cons owner rest inductionHypothesis =>
      have head := same owner
      cases before : left.element? owner with
      | none =>
          rw [before, Option.map_none, Option.map_eq_none_iff] at head
          rw [List.filterMap_cons_none head, List.filterMap_cons_none before]
          exact inductionHypothesis
      | some element =>
          rw [before, Option.map_some] at head
          obtain ⟨changed, after, family⟩ := Option.map_eq_some_iff.1 head
          have children : changed.children = element.children := congrArg (·.2.1) family
          rw [List.filterMap_cons_some after, List.filterMap_cons_some before,
            List.flatMap_cons, List.flatMap_cons, inductionHypothesis, children, names]

/-- Of two declarations of one lineage, one inherits from the other or they are the same. -/
theorem Lineage.mem_or_inherits (lineage : context.Lineage id chain) (within : owner ∈ id :: chain)
    (also : other ∈ id :: chain) {rest : List NodeId} (own : context.Lineage owner rest) :
    other ∈ owner :: rest ∨ Relation.TransGen context.Inherits other owner := by
  induction lineage with
  | top ends =>
      rw [List.mem_singleton] at within also
      rw [within, also]
      exact .inl List.mem_cons_self
  | step inherits later inductionHypothesis =>
      have whole := Lineage.step inherits later
      rcases List.mem_cons.1 within with rfl | above
      · rw [own.unique whole] at also
        exact .inl also
      · rcases List.mem_cons.1 also with rfl | alsoAbove
        · exact .inr (whole.mem_iff.1 above)
        · exact inductionHypothesis above alsoAbove

/-! ## The pass -/

theorem separateElement_elsewhere (separated : separateElement context id = .ok next)
    (different : other ≠ id) : next.element? other = context.element? other := by
  unfold separateElement at separated
  split at separated
  · cases separated
  · cases separated
    rw [element?_modifyElement_other different]

theorem avoids_of_separateElement (found : context.element? id = some element)
    (separated : separateElement context id = .ok next) :
    ∃ chain after, context.ancestors id = .ok chain ∧ next.element? id = some after ∧
      after.attributes.Avoids (context.childIdentifiers (id :: chain)) := by
  unfold separateElement at separated
  split at separated
  · cases separated
  · rename_i chain climbed
    cases separated
    exact ⟨chain, _, climbed, element?_modifyElement_self found _, avoids_separateNames _ _⟩

theorem frame_family_of_separateElement (context : Context) (id : NodeId) :
    Frame (.keeping Element.family) context (endContext (separateElement context id)) :=
  frame_separateElement (fun _ _ => rfl) context id

/-- After the pass the attributes of a declaration below the root avoid the identifiers of the
children of all from which it inherits. -/
theorem avoids_of_separateAttributes {root : NodeId}
    (separated : separateAttributes root context = .ok next) (member : id ∈ context.walk root)
    (found : next.element? id = some element) :
    ∃ chain, next.Lineage id chain ∧
      element.attributes.Avoids (next.childIdentifiers (id :: chain)) := by
  obtain ⟨beforeVisit, afterVisit, earlier, same, visited, final⟩ :=
    exists_visit_of_foldlM separateElement_elsewhere frame_family_of_separateElement
      (Arena.nodup_walk context.arena root) member separated
  obtain ⟨original, present⟩ := Option.isSome_iff_exists.1 (Arena.mem_walk_iff.1 member).2
  obtain ⟨chain, after, climbed, left, avoids⟩ :=
    avoids_of_separateElement (same.trans present) visited
  cases (final.symm.trans found).symm.trans left
  have whole : Frame (.keeping Element.family) context next :=
    (frame_separateAttributes (fun _ _ => rfl) root context).of_ok separated
  have families : ∀ other, (next.element? other).map Element.family =
      (beforeVisit.element? other).map Element.family := fun other =>
    (whole.map_element? other).trans (earlier.map_element? other).symm
  have parents : ∀ other, next.parent? other = beforeVisit.parent? other := fun other =>
    ((whole.view (·.1)).parent? other).trans ((earlier.view (·.1)).parent? other).symm
  refine ⟨chain, (lineage_congr parents).2 (ancestors_eq_ok_iff.1 climbed).1, ?_⟩
  rw [childIdentifiers_congr families]
  exact avoids

end Context

/-! ## Models -/

namespace Stages

variable {root id : NodeId} {element : Element}
  {surveyed typed completed separated attributed mixed final : Context}
  (stages : Stages root surveyed typed completed separated attributed mixed final)

include stages in
theorem frame_family : Frame (.keeping Element.family) separated final :=
  Frame.trans
    ((frame_resolveAttributeTypes (fun _ _ _ _ => rfl) root separated).of_ok stages.attributeTypes)
    (stages.frame_afterAttributes (fun _ => rfl) family_addSimpleBase (fun _ => rfl) fun _ => rfl)

include stages in
theorem frame_avoiding (identifiers : List String) :
    Frame (.avoiding identifiers) separated final := by
  have attributeTypes : Frame (.avoiding identifiers) separated attributed := by
    refine (frame_resolveAttributeTypes ?_ root separated).of_ok stages.attributeTypes
    intro element key vocabulary type avoids
    exact Table.Avoids.modify avoids key fun _ => rfl
  have rest : Frame (.avoiding identifiers) attributed final :=
    stages.frame_afterAttributes (fun _ avoids => avoids)
      (fun element name avoids => (attributes_addSimpleBase element name).symm ▸ avoids)
      (fun _ avoids => avoids) fun _ avoids => avoids
  exact attributeTypes.trans rest

include stages in
/-- In a model the attributes of a declaration avoid the identifiers of the children of all from which
it inherits. -/
theorem separates (reached : final.arena.Reaches root id)
    (found : final.element? id = some element) :
    ∃ chain, final.Lineage id chain ∧
      element.attributes.Avoids (final.childIdentifiers (id :: chain)) := by
  have completion : completed.walk root = surveyed.walk root := by
    have typing : Frame (.keeping Element.children) surveyed typed := stages.frame_types.view (·.2.2)
    have completing : Frame (.keeping Element.children) typed completed :=
      (frame_completeDeclarations (fun _ _ _ _ => rfl) root typed).of_ok stages.completion
    exact Arena.walk_congr (typing.trans completing).map_element? root
  have member : id ∈ completed.walk root := completion ▸ stages.mem_walk_of_reaches reached found
  obtain ⟨before, present, -⟩ := stages.frame_family.of_element?_after found
  obtain ⟨chain, lineage, avoids⟩ :=
    Context.avoids_of_separateAttributes stages.separation member present
  have parents : ∀ other, final.parent? other = separated.parent? other :=
    (stages.frame_family.view (·.1)).parent?
  refine ⟨chain, (Context.lineage_congr parents).2 lineage, ?_⟩
  rw [Context.childIdentifiers_congr stages.frame_family.map_element?]
  obtain ⟨after, same, kept⟩ := (stages.frame_avoiding _).of_element? present
  cases found.symm.trans same
  exact kept avoids

end Stages

/-- Among the declarations from which one inherits and itself, an attribute has the identifier of a
child, as it is before reserved words are moved, only if the child's owner inherits the attribute;
and after that only if so, or if the child's identifier was moved. -/
theorem sharedIdentifier_of_compileBytes {options : Options} {document : Bytes} {model : Model}
    {id : NodeId} {element : Element} (compiled : compileBytes options document = .ok model)
    (reached : model.context.arena.Reaches model.root id)
    (found : model.context.element? id = some element) :
    ∃ chain, model.context.Lineage id chain ∧
      ∀ owner ∈ id :: chain, ∀ other ∈ id :: chain,
        ∀ declaration ∈ model.context.attributesOf owner, ∀ child ∈ model.context.childrenOf other,
          (declaration.cleanName = child.plainCleanName →
            Relation.TransGen model.context.Inherits other owner) ∧
          (declaration.cleanName = child.cleanName →
            Relation.TransGen model.context.Inherits other owner ∨
              child.cleanName ≠ child.plainCleanName) := by
  obtain ⟨surveyed, typed, completed, separated, attributed, mixed, survey, stages⟩ :=
    exists_stages compiled
  obtain ⟨enclosed, -⟩ := exists_mixedSettled_of_compileBytes compiled
  obtain ⟨chain, lineage, -⟩ := stages.separates reached found
  refine ⟨chain, lineage, fun owner within other also declaration has child inside => ?_⟩
  have plain : declaration.cleanName = child.plainCleanName →
      Relation.TransGen model.context.Inherits other owner := by
    intro same
    obtain ⟨ownElement, present, listed⟩ := Context.exists_of_mem_attributesOf has
    have ownReached : model.context.arena.Reaches model.root owner := by
      rcases List.mem_cons.1 within with rfl | above
      · exact reached
      · exact (Arena.mem_walk_iff.1 (lineage.mem_walk enclosed above)).1
    obtain ⟨rest, own, avoids⟩ := stages.separates ownReached present
    refine (lineage.mem_or_inherits within also own).resolve_left fun member => ?_
    exact avoids.not_mem listed (same ▸ Context.mem_childIdentifiers inside member)
  refine ⟨plain, fun same => ?_⟩
  by_cases moved : child.cleanName = child.plainCleanName
  · exact .inl (plain (same.trans moved))
  · exact .inr moved

/-- A type with children `x` and `type` and an attribute `type_`, whose base has an attribute `x`. -/
def movedChildSchema : Bytes :=
  schemaDocument [
    "<s:complexType name='B'><s:attribute name='x'/></s:complexType><s:complexType name='D'>",
    "<s:complexContent><s:extension base='B'><s:sequence><s:element name='x'/>",
    "<s:element name='type'/></s:sequence><s:attribute name='type_'/></s:extension>",
    "</s:complexContent></s:complexType>"]

/-- A type has an attribute `type_` and a child `type`, which is moved onto it. It also has a child
`x`, which is an attribute of its base. -/
theorem attributes_share_identifiers :
    ∃ (model : Model) (id parent : NodeId),
      compileBytes .standard movedChildSchema = .ok model ∧
      model.context.arena.Reaches model.root id ∧ model.context.Lineage id [parent] ∧
      (∃ declaration ∈ model.context.attributesOf id, ∃ child ∈ model.context.childrenOf id,
        declaration.cleanName = child.cleanName) ∧
      ∃ declaration ∈ model.context.attributesOf parent, ∃ child ∈ model.context.childrenOf id,
        declaration.cleanName = child.cleanName := by
  have computed : compilesFlat .standard movedChildSchema (fun model =>
      (model.context.elementIndex.find? "D").any fun id =>
      (model.context.elementIndex.find? "B").any fun parent =>
        decide (id ∈ model.context.walk model.root ∧
          model.context.parent? id = some ("B", parent) ∧ model.context.parent? parent = none ∧
          (∃ declaration ∈ model.context.attributesOf id, ∃ child ∈ model.context.childrenOf id,
            declaration.cleanName = child.cleanName) ∧
          ∃ declaration ∈ model.context.attributesOf parent, ∃ child ∈ model.context.childrenOf id,
            declaration.cleanName = child.cleanName)) = true := by
    decide +kernel
  obtain ⟨model, compiled, checked⟩ := exists_of_compilesFlat computed
  simp only [Option.any_eq_true, decide_eq_true_eq] at checked
  obtain ⟨id, -, parent, -, member, leads, ends, own, inherited⟩ := checked
  exact ⟨model, id, parent, compiled, (Arena.mem_walk_iff.1 member).1, .step ⟨"B", leads⟩ (.top ends),
    own, inherited⟩

/-- A type with a child that is called like an attribute of its base. -/
def inheritedAttributeSchema : Bytes :=
  schemaDocument [
    "<s:complexType name='B'><s:attribute name='x'/></s:complexType><s:complexType name='D'>",
    "<s:complexContent><s:extension base='B'><s:sequence><s:element name='x'/></s:sequence>",
    "</s:extension></s:complexContent></s:complexType>"]

/-- Where an attribute has the identifier of a child that keeps it, the child's owner inherits the
attribute: nothing else is needed to know so of `D`. -/
theorem sharedIdentifier_of_compileBytes_inherited :
    ∃ (model : Model) (id parent : NodeId) (declaration : Attribute) (child : Element),
      compileBytes .standard inheritedAttributeSchema = .ok model ∧
      model.context.arena.Reaches model.root id ∧ model.context.Lineage id [parent] ∧
      declaration ∈ model.context.attributesOf parent ∧ child ∈ model.context.childrenOf id ∧
      declaration.cleanName = child.plainCleanName ∧
      Relation.TransGen model.context.Inherits id parent := by
  have computed : compilesFlat .standard inheritedAttributeSchema (fun model =>
      (model.context.elementIndex.find? "D").any fun id =>
      (model.context.elementIndex.find? "B").any fun parent =>
        decide (id ∈ model.context.walk model.root ∧
          model.context.parent? id = some ("B", parent) ∧ model.context.parent? parent = none ∧
          ∃ declaration ∈ model.context.attributesOf parent, ∃ child ∈ model.context.childrenOf id,
            declaration.cleanName = child.plainCleanName)) = true := by
    decide +kernel
  obtain ⟨model, compiled, checked⟩ := exists_of_compilesFlat computed
  simp only [Option.any_eq_true, decide_eq_true_eq] at checked
  obtain ⟨id, -, parent, -, member, leads, ends, declaration, has, child, inside, same⟩ := checked
  obtain ⟨reached, declared⟩ := Arena.mem_walk_iff.1 member
  obtain ⟨element, found⟩ := Option.isSome_iff_exists.1 declared
  have lineage : model.context.Lineage id [parent] := .step ⟨"B", leads⟩ (.top ends)
  obtain ⟨chain, again, shares⟩ := sharedIdentifier_of_compileBytes compiled reached found
  cases lineage.unique again
  have inherits := (shares parent (List.mem_cons_of_mem _ List.mem_cons_self) id List.mem_cons_self
    declaration has child inside).1 same
  exact ⟨model, id, parent, declaration, child, compiled, reached, lineage, has, inside, same,
    inherits⟩

end XmlSchema
