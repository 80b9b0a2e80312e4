import XmlSchema.Proofs.Completion
import XmlSchema.Proofs.FlatTrees
import XmlSchema.Proofs.Groups.Inlining
import XmlSchema.Proofs.IdentityTypes
import XmlSchema.Proofs.StrictTypes
import XmlSchema.Proofs.Views

/-!
# What a model exposes

Every view of a model is that of a declaration reached from the root, and what the passes promise
holds of each: it is no group, it is complete, it has a type unless it is the schema, and its
attributes have resolved types, which are types of identifiers only where a name is stray:
`exposes_annotated`. Each promise is kept by another pass, and by all that come after it.
-/

namespace XmlSchema

/-! ## Kinds -/

section Kinds

variable {options : Options} {document : Bytes} {surveyed : Context} {root id : NodeId}
  {element : Element}

/-- After the expansion of groups nothing reached from the root is a group. -/
theorem kind_ne_group_of_expandGroups {context expanded : Context}
    (read : readTree (.initial options) document = .ok (context, root))
    (expandedGroups : expandGroups root context = .ok expanded)
    (reached : expanded.arena.Reaches root id) (present : expanded.element? id = some element) :
    element.kind ≠ .group := by
  have frame : Frame (.keeping Element.kind) context expanded :=
    (frame_expandGroups (fun _ _ => rfl) root context).of_ok expandedGroups
  obtain ⟨before, presentBefore, same⟩ := frame.of_element?_after present
  have sameKind : element.kind = before.kind := same
  rw [sameKind]
  rcases reached.eq_or_child with rfl | ⟨parent, parentElement, parentReached, parentFound, member⟩
  · obtain ⟨schema, foundSchema, isSchema⟩ := isSchema_readTree read
    cases presentBefore.symm.trans foundSchema
    rw [isSchema]
    decide
  · have consistent : context.Consistent := (Session.start.read read).consistent
    have linkable := childrenIn_expandGroups consistent.children root
    rw [expandedGroups] at linkable
    obtain ⟨notes, expands⟩ := exists_expandsGroups expandedGroups
    have plain := expands.plain.2.2 parent parentReached
    rw [Context.children_of_element? parentFound] at plain
    intro isGroup
    exact (linkable parent parentElement parentFound id member).not_isGroup (plain id member)
      ⟨before, presentBefore, isGroup⟩

theorem kind_ne_group_survey (found : survey options document = .ok (surveyed, root))
    (reached : surveyed.arena.Reaches root id) (present : surveyed.element? id = some element) :
    element.kind ≠ .group := by
  obtain ⟨context, expanded, read, expandedGroups, rfl⟩ := exists_of_survey found
  rw [indexElements_eq] at reached present
  exact kind_ne_group_of_expandGroups read expandedGroups reached present

end Kinds

/-! ## Types -/

/-- What is settled has a type: the simple one for which its nominal type stands, or that itself. -/
theorem Settled.isSome_type? {context : Context} {nominals : Nominals} {id : NodeId}
    {before after : Element} (settled : Settled context nominals id before after) :
    after.type?.isSome = true := by
  cases stands : context.declarationStandsFor? nominals id with
  | some type =>
      rw [settled.simple type stands]
      rfl
  | none =>
      cases hasNominal : nominals.find? id with
      | none =>
          unfold Context.declarationStandsFor? at stands
          rw [hasNominal] at stands
          cases stands
      | some nominal =>
          rw [settled.structured nominal hasNominal stands]
          rfl

namespace Stages

variable {root id : NodeId} {element : Element}
  {surveyed typed completed separated attributed mixed final : Context}
  (stages : Stages root surveyed typed completed separated attributed mixed final)

include stages in
theorem kind_ne_group {options : Options} {document : Bytes}
    (surveys : survey options document = .ok (surveyed, root))
    (reached : final.arena.Reaches root id) (found : final.element? id = some element) :
    element.kind ≠ .group := by
  have member := stages.mem_walk_of_reaches reached found
  obtain ⟨before, present, shape⟩ := stages.frame_shape.of_element?_after found
  have sameKind : element.kind = before.kind := congrArg Prod.fst shape
  rw [sameKind]
  exact kind_ne_group_survey surveys (Arena.mem_walk_iff.1 member).1 present

include stages in
/-- Whatever is reached from the root has a type, the schema apart. -/
theorem isSome_type? (sound : surveyed.Sound) (reached : final.arena.Reaches root id)
    (inner : id ≠ root) (found : final.element? id = some element) :
    element.type?.isSome = true := by
  obtain ⟨before, -, shape, -, passedOver, settled⟩ := stages.settled reached found
  have notSchema := kind_ne_schema_of_reaches sound stages reached inner found
  have sameKind : element.kind = before.kind := congrArg Prod.fst shape
  rw [sameKind] at notSchema
  cases skipped : before.isPassedOver with
  | true =>
      have sameType : element.type? = before.type? := congrArg Prod.fst (passedOver skipped)
      rw [Element.isPassedOver_eq_isWildcard notSchema] at skipped
      rw [sameType, of_decide_eq_true skipped]
      rfl
  | false => exact (settled skipped).isSome_type?

end Stages

/-! ## What is exposed -/

namespace Model

/-- What the passes promise of the declaration that a view shows. -/
structure Annotated (model : Model) (view : View) : Prop where
  kind : view.element.kind ≠ .group
  complete : model.context.Completes view.element
  type : view.id ≠ model.root → view.element.type?.isSome = true
  /-- Every attribute has a resolved type, which is built in unless it is stray. -/
  resolved : ∀ key declaration, view.element.attributes.find? key = some declaration →
    model.context.Traces declaration.resolvedType?
  /-- The types of identifiers have become the string type, except for stray names. -/
  identity : ∀ key declaration, view.element.attributes.find? key = some declaration →
    Builtin.NamesIdentity declaration.typeName → model.context.IsStray declaration.typeName

variable {options : Options} {document : Bytes} {model : Model}
  (compiled : compileBytes options document = .ok model)

include compiled in
theorem annotated_of_denotes {view : View} (denotes : model.Denotes view) :
    model.Annotated view := by
  obtain ⟨surveyed, typed, completed, separated, attributed, mixed, found, stages⟩ :=
    exists_stages compiled
  obtain ⟨reached, present⟩ := denotes
  refine ⟨stages.kind_ne_group found reached present, stages.completes reached present,
    fun inner => stages.isSome_type? (sound_survey found) reached inner present,
    fun key declaration read => traces_resolvedType compiled reached present read,
    fun key declaration read names => ?_⟩
  obtain ⟨declared, resolved⟩ := stages.attributeResolved reached present read
  rw [stages.frame_shape.isStray_iff]
  exact resolved.isStray_of_namesIdentity (simpleTypesKnown_survey found) names

end Model

/-- The views of a model to which its accessors lead are those of the declarations reached from the
root, and each of these is annotated under the options of the compilation. -/
theorem exposes_annotated {options : Options} {document : Bytes} {model : Model}
    (compiled : compileBytes options document = .ok model) (view : View) :
    model.context.options = options ∧ (model.Exposes view ↔ model.Denotes view) ∧
      (model.Exposes view → model.Annotated view) := by
  have denotes : model.Exposes view → model.Denotes view :=
    (Model.rooted_of_compileBytes compiled).denotes
  exact ⟨options_of_compileBytes compiled, ⟨denotes, Model.Denotes.exposes⟩,
    fun exposed => Model.annotated_of_denotes compiled (denotes exposed)⟩

/-- A simple type based on the type of identifiers under a second qualifier, and an attribute of it. -/
def secondQualifierSchema : Bytes :=
  schemaDocument [
    "<s:simpleType name='T'><s:restriction xmlns:x='http://www.w3.org/2001/XMLSchema'",
    " base='x:ID'/></s:simpleType>",
    "<s:complexType name='C'><s:attribute name='a' type='T'/></s:complexType>"]

/-- A simple type restricts the type of identifiers under a second qualifier for the schema language,
and an attribute of that type is exposed as an identifier. -/
theorem exposes_identity :
    ∃ model view declaration,
      compileBytes .standard secondQualifierSchema = .ok model ∧
      model.Exposes view ∧ view.element.attributes.find? "a" = some declaration ∧
      declaration.typeName = "ID" := by
  have computed : compilesFlat .standard secondQualifierSchema
      (fun model => (model.element? "C").any fun view =>
        (view.element.attributes.find? "a").any (·.typeName = "ID")) = true := by
    decide +kernel
  obtain ⟨model, compiled, checked⟩ := exists_of_compilesFlat computed
  obtain ⟨view, found, holds⟩ := (Option.any_eq_true _ _).1 checked
  obtain ⟨declaration, read, isIdentifier⟩ := (Option.any_eq_true _ _).1 holds
  exact ⟨model, view, declaration, compiled, .element found, read, of_decide_eq_true isIdentifier⟩

/-- A type with a child that may be left out and an attribute of the type of identifiers. -/
def optionalChildSchema : Bytes :=
  schemaDocument [
    "<s:complexType name='T'><s:sequence><s:element name='e' type='s:int' minOccurs='0'/>",
    "</s:sequence><s:attribute name='a' type='s:ID'/></s:complexType>"]

/-- A child that may be left out is exposed under its parent, which has an attribute of the type of
identifiers. -/
theorem exposes_annotated_child :
    ∃ model parent child declaration,
      compileBytes .standard optionalChildSchema = .ok model ∧
      model.element? "T" = some parent ∧ model.children parent = [child] ∧
      model.Exposes child ∧ model.Denotes child ∧ model.Annotated child ∧
      child.element.minOccurs = 0 ∧ model.Annotated parent ∧
      parent.element.attributes.find? "a" = some declaration ∧
      declaration.typeName = "s:string" := by
  have computed : compilesFlat .standard optionalChildSchema
      (fun model => (model.element? "T").any fun parent =>
        decide ((model.children parent).map (·.element.minOccurs) = [0]) &&
          (parent.element.attributes.find? "a").any (·.typeName = "s:string")) = true := by
    decide +kernel
  obtain ⟨model, compiled, checked⟩ := exists_of_compilesFlat computed
  obtain ⟨parent, found, both⟩ := (Option.any_eq_true _ _).1 checked
  rw [Bool.and_eq_true] at both
  obtain ⟨oneChild, hasAttribute⟩ := both
  obtain ⟨child, onlyChild, minimum⟩ := List.map_eq_singleton_iff.1 (of_decide_eq_true oneChild)
  obtain ⟨declaration, read, isString⟩ := (Option.any_eq_true _ _).1 hasAttribute
  have exposed : model.Exposes parent := .element found
  have childExposed : model.Exposes child :=
    .child exposed (onlyChild ▸ List.mem_singleton_self child)
  obtain ⟨-, iff, annotated⟩ := exposes_annotated compiled child
  exact ⟨model, parent, child, declaration, compiled, found, onlyChild, childExposed,
    iff.1 childExposed, annotated childExposed, minimum,
    (exposes_annotated compiled parent).2.2 exposed, read, of_decide_eq_true isString⟩

end XmlSchema
