import XmlSchema.Compile
import XmlSchema.Proofs.PassFrames
import XmlSchema.Proofs.Reachability

/-!
# The stages of a compilation

A compilation surveys a document and then resolves what it found. The survey reads the document,
expands its groups and enters its declarations into the index; after it no table that a name is
looked up in changes any more, nor does any child. `Stages` names the contexts between the passes
that follow.
-/

namespace XmlSchema

/-- Reads a document and makes it ready for resolution. -/
def survey (options : Options) (document : Bytes) : Except Error (Context × NodeId) :=
  match options.limits.checkSize document.length with
  | .error fault => .error (.limit fault)
  | .ok () =>
      match readTree (.initial options) document with
      | .error halt => .error halt.cause
      | .ok (context, root) =>
          match expandGroups root context with
          | .error halt => .error halt.cause
          | .ok expanded => .ok (indexElements root expanded, root)

/-- The contexts in which the passes after the survey end, in order. -/
structure Stages (root : NodeId)
    (surveyed typed completed separated attributed mixed final : Context) : Prop where
  types : resolveTypes root surveyed = .ok typed
  completion : completeDeclarations root typed = .ok completed
  separation : separateAttributes root completed = .ok separated
  attributeTypes : resolveAttributeTypes root separated = .ok attributed
  mixedContent : checkMixedContent root attributed = .ok mixed
  extension : markExtended root mixed = final

/-- The passes after the survey. -/
def Pass.afterSurvey : List Pass := all.drop 2

/-- A compilation is a survey and the passes after it. -/
theorem compileBytes_eq_survey (options : Options) (document : Bytes) :
    compileBytes options document =
      match survey options document with
      | .error error => .error error
      | .ok (surveyed, root) =>
          match Pass.afterSurvey.foldlM (fun context pass => pass.run root context) surveyed with
          | .error halt => .error halt.cause
          | .ok annotated => .ok ⟨annotated, root⟩ := by
  unfold compileBytes survey
  cases options.limits.checkSize document.length with
  | error fault => rfl
  | ok =>
      cases readTree (.initial options) document with
      | error halt => rfl
      | ok read =>
          obtain ⟨context, root⟩ := read
          have annotate_eq : annotate root context =
              (expandGroups root context).bind fun expanded =>
                Pass.afterSurvey.foldlM (fun context pass => pass.run root context)
                  (indexElements root expanded) := rfl
          dsimp only
          rw [annotate_eq]
          cases expandGroups root context <;> rfl

/-- What is surveyed is read, has its groups expanded and is indexed. -/
theorem exists_of_survey {options : Options} {document : Bytes} {surveyed : Context} {root : NodeId}
    (found : survey options document = .ok (surveyed, root)) :
    ∃ context expanded, readTree (.initial options) document = .ok (context, root) ∧
      expandGroups root context = .ok expanded ∧ surveyed = indexElements root expanded := by
  unfold survey at found
  split at found
  · cases found
  · split at found
    · cases found
    · rename_i context _ read
      split at found
      · cases found
      · rename_i expanded expandedGroups
        cases found
        exact ⟨context, expanded, read, expandedGroups, rfl⟩

/-- What compiles is read and goes through all passes. -/
theorem exists_annotate_of_compileBytes {options : Options} {document : Bytes} {model : Model}
    (compiled : compileBytes options document = .ok model) :
    ∃ context, readTree (.initial options) document = .ok (context, model.root) ∧
      annotate model.root context = .ok model.context := by
  unfold compileBytes at compiled
  split at compiled
  · cases compiled
  · split at compiled
    · cases compiled
    · rename_i context root read
      split at compiled
      · cases compiled
      · rename_i annotated completed
        cases compiled
        exact ⟨context, read, completed⟩

/-- Annotation can be cut in two between any two passes. -/
theorem exists_between_of_annotate {root : NodeId} {context final : Context}
    {early late : List Pass} (cut : Pass.all = early ++ late)
    (annotated : annotate root context = .ok final) :
    ∃ between, early.foldlM (fun context pass => pass.run root context) context = .ok between ∧
      late.foldlM (fun context pass => pass.run root context) between = .ok final := by
  unfold annotate at annotated
  rw [cut] at annotated
  exact foldlM_append_eq_ok_iff.1 annotated

/-- What compiles goes through all stages. -/
theorem exists_stages {options : Options} {document : Bytes} {model : Model}
    (compiled : compileBytes options document = .ok model) :
    ∃ surveyed typed completed separated attributed mixed,
      survey options document = .ok (surveyed, model.root) ∧
        Stages model.root surveyed typed completed separated attributed mixed model.context := by
  rw [compileBytes_eq_survey] at compiled
  split at compiled
  · cases compiled
  · rename_i surveyed root foundSurvey
    split at compiled
    · cases compiled
    · rename_i annotated completedRun
      cases compiled
      obtain ⟨typed, types, later⟩ := foldlM_cons_eq_ok_iff.1 completedRun
      obtain ⟨completed, completion, later⟩ := foldlM_cons_eq_ok_iff.1 later
      obtain ⟨separated, separation, later⟩ := foldlM_cons_eq_ok_iff.1 later
      obtain ⟨attributed, attributeTypes, later⟩ := foldlM_cons_eq_ok_iff.1 later
      obtain ⟨mixed, mixedContent, later⟩ := foldlM_cons_eq_ok_iff.1 later
      obtain ⟨final, extension, later⟩ := foldlM_cons_eq_ok_iff.1 later
      cases foldlM_nil_eq_ok_iff.1 later
      exact ⟨surveyed, typed, completed, separated, attributed, mixed, foundSurvey,
        ⟨types, completion, separation, attributeTypes, mixedContent, Except.ok.inj extension⟩⟩

/-! ## What the stages leave alone -/

/-- What no pass after the survey writes. -/
def Element.shape (element : Element) : ElementKind × Option String × List NodeId :=
  (element.kind, element.writtenType?, element.children)

/-- What the resolution of types writes and no later pass does. -/
def Element.verdict (element : Element) : Option String × Bool := (element.type?, element.isComplex)

namespace Change

/-- The changes that take no attribute away from a declaration that has none left otherwise: one
without attributes had none before. -/
def growing : Change where
  holds before after := after.attributes.isEmpty = true → before.attributes.isEmpty = true
  refl _ empty := empty
  trans left right empty := left (right empty)

end Change

namespace Stages

variable {root : NodeId} {surveyed typed completed separated attributed mixed final : Context}
  (stages : Stages root surveyed typed completed separated attributed mixed final)

section Frames

variable {change : Change}
  (completes : ∀ context element merged occurrence,
    change.holds element (Context.completed context element merged occurrence))
  (separates : ∀ element identifiers, change.holds element
    { element with attributes := separateNames identifiers element.attributes })
  (resolves : ∀ element key vocabulary type, change.holds element
    { element with attributes := element.attributes.modify key (.resolved vocabulary type) })
  (mixes : ∀ element, change.holds element { element with isMixed := true })
  (notes : ∀ element name, change.holds element (element.addSimpleBase name))
  (flags : ∀ element, change.holds element { element with mixedMismatch := true })
  (marks : ∀ element, change.holds element { element with isExtended := true })

include stages mixes notes flags marks in
theorem frame_afterAttributes : Frame change attributed final := by
  have mixing : Frame change attributed mixed :=
    (frame_checkMixedContent mixes notes flags root attributed).of_ok stages.mixedContent
  have marking := frame_markExtended marks root mixed
  rw [stages.extension] at marking
  exact mixing.trans marking

include stages completes separates resolves mixes notes flags marks in
theorem frame_afterTypes : Frame change typed final := by
  have completion : Frame change typed completed :=
    (frame_completeDeclarations completes root typed).of_ok stages.completion
  have separation : Frame change completed separated :=
    (frame_separateAttributes separates root completed).of_ok stages.separation
  have attributeTypes : Frame change separated attributed :=
    (frame_resolveAttributeTypes resolves root separated).of_ok stages.attributeTypes
  have rest : Frame change attributed final := stages.frame_afterAttributes mixes notes flags marks
  exact completion.trans (separation.trans (attributeTypes.trans rest))

end Frames

theorem shape_addSimpleBase (element : Element) (name : String) :
    (element.addSimpleBase name).shape = element.shape :=
  part_addSimpleBase Element.shape (fun _ _ => rfl) element name

theorem verdict_addSimpleBase (element : Element) (name : String) :
    (element.addSimpleBase name).verdict = element.verdict :=
  part_addSimpleBase Element.verdict (fun _ _ => rfl) element name

/-- The resolution of types leaves kinds, written types and children as they are. -/
theorem frame_resolution (types : resolveTypes root surveyed = .ok typed) :
    Frame (.keeping Element.shape) surveyed typed :=
  (frame_resolveTypes (fun element name _ _ => shape_addSimpleBase element name)
    (fun _ _ _ _ => rfl) root surveyed).of_ok types

theorem walk_resolution (types : resolveTypes root surveyed = .ok typed) :
    typed.walk root = surveyed.walk root :=
  Arena.walk_congr ((frame_resolution types).view (·.2.2)).map_element? root

include stages in
theorem frame_types : Frame (.keeping Element.shape) surveyed typed :=
  frame_resolution stages.types

include stages in
/-- From the survey to the end, kinds, written types and children stay as they are. -/
theorem frame_shape : Frame (.keeping Element.shape) surveyed final :=
  stages.frame_types.trans
    (stages.frame_afterTypes (fun _ _ _ _ => rfl) (fun _ _ => rfl) (fun _ _ _ _ => rfl)
      (fun _ => rfl) shape_addSimpleBase (fun _ => rfl) (fun _ => rfl))

theorem reference?_addSimpleBase (element : Element) (name : String) :
    (element.addSimpleBase name).reference? = element.reference? :=
  part_addSimpleBase Element.reference? (fun _ _ => rfl) element name

include stages in
theorem frame_reference : Frame (.keeping Element.reference?) surveyed final :=
  Frame.trans
    ((frame_resolveTypes (fun element name _ _ => reference?_addSimpleBase element name)
      (fun _ _ _ _ => rfl) root surveyed).of_ok stages.types)
    (stages.frame_afterTypes (fun _ _ _ _ => rfl) (fun _ _ => rfl) (fun _ _ _ _ => rfl)
      (fun _ => rfl) reference?_addSimpleBase (fun _ => rfl) (fun _ => rfl))

theorem name_addSimpleBase (element : Element) (name : String) :
    (element.addSimpleBase name).name = element.name :=
  part_addSimpleBase Element.name (fun _ _ => rfl) element name

include stages in
theorem frame_name : Frame (.keeping Element.name) surveyed final :=
  Frame.trans
    ((frame_resolveTypes (fun element name _ _ => name_addSimpleBase element name)
      (fun _ _ _ _ => rfl) root surveyed).of_ok stages.types)
    (stages.frame_afterTypes (fun _ _ _ _ => rfl) (fun _ _ => rfl) (fun _ _ _ _ => rfl)
      (fun _ => rfl) name_addSimpleBase (fun _ => rfl) (fun _ => rfl))

include stages in
/-- From the resolution of types to the end, types stay as they are. -/
theorem frame_verdict : Frame (.keeping Element.verdict) typed final :=
  stages.frame_afterTypes (fun _ _ _ _ => rfl) (fun _ _ => rfl) (fun _ _ _ _ => rfl)
    (fun _ => rfl) verdict_addSimpleBase (fun _ => rfl) (fun _ => rfl)

theorem isList_addSimpleBase (element : Element) (name : String) :
    (element.addSimpleBase name).isList = element.isList :=
  part_addSimpleBase Element.isList (fun _ _ => rfl) element name

include stages in
theorem frame_isList : Frame (.keeping Element.isList) typed final :=
  stages.frame_afterTypes (fun _ _ _ _ => rfl) (fun _ _ => rfl) (fun _ _ _ _ => rfl)
    (fun _ => rfl) isList_addSimpleBase (fun _ => rfl) (fun _ => rfl)

include stages in
/-- From the resolution of their types to the end, attributes stay as they are. -/
theorem frame_attributes : Frame (.keeping Element.attributes) attributed final :=
  stages.frame_afterAttributes (fun _ => rfl) attributes_addSimpleBase (fun _ => rfl) fun _ => rfl

theorem isEmpty_of_isEmpty_separateNames {identifiers : List String} {attributes : Table Attribute}
    (empty : (separateNames identifiers attributes).isEmpty = true) :
    attributes.isEmpty = true := by
  -- What is separated so far is never empty again once the first attribute has been entered.
  have kept : ∀ (entries : List (String × Attribute)) (separated : Table Attribute),
      (entries.foldl (fun separated entry =>
        if entry.2.cleanName ∈ identifiers then
          let name := freshName identifiers (attributes.keys ++ separated.keys)
            (entry.2.name ++ attributeSuffix)
          separated.insert name (entry.2.rename name)
        else separated.insert entry.1 entry.2) separated).isEmpty = true →
      entries = [] ∧ separated.isEmpty = true := by
    intro entries
    induction entries with
    | nil => exact fun separated empty => ⟨rfl, empty⟩
    | cons entry rest inductionHypothesis =>
        intro separated empty
        obtain ⟨-, emptyBefore⟩ := inductionHypothesis _ empty
        dsimp only at emptyBefore
        split at emptyBefore
        · rw [Table.isEmpty_insert] at emptyBefore
          cases emptyBefore
        · rw [Table.isEmpty_insert] at emptyBefore
          cases emptyBefore
  obtain ⟨noEntries, -⟩ := kept attributes.entries .empty empty
  unfold Table.isEmpty
  rw [noEntries]
  rfl

theorem isEmpty_separateNames (identifiers : List String) (attributes : Table Attribute) :
    (separateNames identifiers attributes).isEmpty = attributes.isEmpty := by
  rw [Bool.eq_iff_iff]
  refine ⟨isEmpty_of_isEmpty_separateNames, fun empty => ?_⟩
  have noEntries : attributes.entries = [] := List.isEmpty_iff.1 empty
  unfold separateNames
  rw [noEntries]
  rfl

include stages in
/-- Whether a declaration has attributes is settled when it is completed. -/
theorem frame_isEmpty :
    Frame (.keeping fun element => element.attributes.isEmpty) completed final := by
  have separation : Frame (.keeping fun element => element.attributes.isEmpty) completed separated :=
    (frame_separateAttributes (fun element identifiers =>
      isEmpty_separateNames identifiers element.attributes) root completed).of_ok stages.separation
  have attributeTypes :
      Frame (.keeping fun element => element.attributes.isEmpty) separated attributed :=
    (frame_resolveAttributeTypes (fun element key _ _ =>
      Table.isEmpty_modify element.attributes key _) root separated).of_ok stages.attributeTypes
  have rest : Frame (.keeping fun element => element.attributes.isEmpty) attributed final :=
    stages.frame_attributes.view Table.isEmpty
  exact separation.trans (attributeTypes.trans rest)

include stages in
/-- A declaration that ends without attributes had none at the survey. -/
theorem frame_growing : Frame .growing surveyed final := by
  have typing : Frame .growing surveyed typed :=
    (frame_resolveTypes
      (fun element name _ _ empty => (attributes_addSimpleBase element name) ▸ empty)
      (fun _ _ _ _ empty => empty) root surveyed).of_ok stages.types
  refine typing.trans (stages.frame_afterTypes ?_ ?_ ?_ ?_ ?_ ?_ ?_)
  · intro context element merged occurrence empty
    have inserted : (element.attributes.insertAll merged).isEmpty = true := by
      simpa [Context.completed] using empty
    exact Table.isEmpty_of_isEmpty_insertAll inserted
  · exact fun element identifiers empty => isEmpty_of_isEmpty_separateNames empty
  · exact fun element key vocabulary type empty => by simpa using empty
  · exact fun element empty => empty
  · exact fun element name empty => (attributes_addSimpleBase element name) ▸ empty
  · exact fun element empty => empty
  · exact fun element empty => empty

end Stages

end XmlSchema
