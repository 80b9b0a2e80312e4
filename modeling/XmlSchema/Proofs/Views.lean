import XmlSchema.Proofs.Consistency.Keys
import XmlSchema.Proofs.Models

/-!
# Views of a model

The accessors of a model lead to views of declarations, and from a view to others. The tables of
declarations have no entry from outside the tree, `rooted_of_compileBytes`, so all that is exposed
is reached from the root; and whatever is reached from the root is exposed as a child of what leads
to it.
-/

namespace XmlSchema

/-! ## Views -/

namespace Model

/-- The views to which the accessors of a model lead, one after the other. -/
inductive Exposes (model : Model) : View → Prop where
  | schema {view : View} (found : model.schema? = some view) : Exposes model view
  | element {name : String} {view : View} (found : model.element? name = some view) :
      Exposes model view
  | simpleElement {name : String} {view : View} (found : model.simpleElement? name = some view) :
      Exposes model view
  | listed {view : View} (member : view ∈ model.elements) : Exposes model view
  | topLevel {view : View} (member : view ∈ model.topLevelElements) : Exposes model view
  | child {parent view : View} (exposed : Exposes model parent)
      (member : view ∈ model.children parent) : Exposes model view
  | base {heir view : View} (exposed : Exposes model heir)
      (found : model.base? heir = some view) : Exposes model view

/-- A view of a declaration that is reached from the root. -/
structure Denotes (model : Model) (view : View) : Prop where
  reached : model.context.arena.Reaches model.root view.id
  element? : model.context.element? view.id = some view.element

variable {model : Model} {view : View} {id : NodeId}

theorem view?_eq_some_iff :
    model.view? id = some view ↔ view.id = id ∧ model.context.element? id = some view.element := by
  unfold view?
  rw [Option.map_eq_some_iff]
  constructor
  · rintro ⟨element, found, rfl⟩
    exact ⟨rfl, found⟩
  · rintro ⟨rfl, found⟩
    exact ⟨view.element, found, rfl⟩

theorem Denotes.of_view? (found : model.view? id = some view)
    (reached : model.context.arena.Reaches model.root id) : model.Denotes view := by
  obtain ⟨rfl, present⟩ := view?_eq_some_iff.1 found
  exact ⟨reached, present⟩

/-- The entries of the tables of declarations are reached from the root. -/
structure Rooted (model : Model) : Prop where
  elementIndex : model.context.elementIndex.Every fun _ id =>
    model.context.arena.Reaches model.root id
  simpleElements : model.context.simpleElements.Every fun _ id =>
    model.context.arena.Reaches model.root id

section Rooted

variable (rooted : model.Rooted)

include rooted in
theorem Rooted.denotes_of_element? {name : String} (found : model.element? name = some view) :
    model.Denotes view := by
  obtain ⟨id, entered, seen⟩ := Option.bind_eq_some_iff.1 found
  exact .of_view? seen (rooted.elementIndex.fits entered)

include rooted in
theorem Rooted.denotes_of_mem_elements (member : view ∈ model.elements) : model.Denotes view := by
  obtain ⟨id, listed, seen⟩ := List.mem_filterMap.1 member
  obtain ⟨entry, isEntry, rfl⟩ := List.mem_map.1 listed
  exact .of_view? seen (rooted.elementIndex.of_mem_entries isEntry)

include rooted in
theorem Rooted.denotes (exposed : model.Exposes view) : model.Denotes view := by
  induction exposed with
  | schema found => exact .of_view? found .root
  | element found => exact rooted.denotes_of_element? found
  | simpleElement found =>
      obtain ⟨id, entered, seen⟩ := Option.bind_eq_some_iff.1 found
      exact .of_view? seen (rooted.simpleElements.fits entered)
  | listed member => exact rooted.denotes_of_mem_elements member
  | topLevel member => exact rooted.denotes_of_mem_elements (List.mem_filter.1 member).1
  | child _ member inductionHypothesis =>
      obtain ⟨id, isChild, seen⟩ := List.mem_filterMap.1 member
      exact .of_view? seen (.child inductionHypothesis.reached inductionHypothesis.element? isChild)
  | base _ found _ =>
      obtain ⟨name, -, located⟩ := Option.bind_eq_some_iff.1 found
      exact rooted.denotes_of_element? located

end Rooted

/-- What is reached from the root is exposed as a child of what leads to it. -/
theorem Denotes.exposes (denotes : model.Denotes view) : model.Exposes view := by
  obtain ⟨reached, present⟩ := denotes
  generalize atHandle : view.id = id at reached present
  induction reached generalizing view with
  | root => exact .schema (view?_eq_some_iff.2 ⟨atHandle, present⟩)
  | @child parent child element _ found member inductionHypothesis =>
      have parentExposed : model.Exposes ⟨parent, element⟩ := inductionHypothesis rfl found
      refine .child parentExposed (List.mem_filterMap.2 ⟨child, member, ?_⟩)
      exact view?_eq_some_iff.2 ⟨atHandle, present⟩

end Model

/-! ## The table of simple elements -/

/-- Whether all entries in the table of simple elements are from a list of handles. -/
def Context.SimpleElementsIn (handles : List NodeId) (context : Context) : Prop :=
  context.simpleElements.Every fun _ id => id ∈ handles

section SimpleElements

variable {handles : List NodeId} {context next : Context} {id : NodeId}

theorem Context.SimpleElementsIn.settle (inside : context.SimpleElementsIn handles)
    (member : id ∈ handles) (resolution : Resolution) :
    (context.settle id resolution).SimpleElementsIn handles := by
  unfold Context.settle
  split
  · exact inside
  · dsimp only
    split
    · exact inside
    · exact Table.Every.insertNew inside member

theorem Context.SimpleElementsIn.noteSimpleType (inside : context.SimpleElementsIn handles)
    (id : NodeId) (nominal : Nominal) :
    (context.noteSimpleType id nominal).SimpleElementsIn handles := by
  unfold Context.noteSimpleType
  split
  · exact inside
  · exact inside

/-- A declaration enters the table when it is visited. -/
theorem Context.SimpleElementsIn.resolveElement {nominals : Nominals}
    (inside : context.SimpleElementsIn handles) (member : id ∈ handles)
    (resolved : resolveElement nominals context id = .ok next) : next.SimpleElementsIn handles := by
  unfold XmlSchema.resolveElement at resolved
  split at resolved
  · cases resolved
    exact inside
  · split at resolved
    · cases resolved
      exact inside
    · split at resolved
      · cases resolved
        exact inside.settle member _
      · dsimp only at resolved
        split at resolved
        · cases resolved
        · cases resolved
          exact (inside.noteSimpleType id _).settle member _

theorem Context.SimpleElementsIn.resolveTypes {root : NodeId}
    (inside : context.SimpleElementsIn handles) (visits : ∀ id ∈ context.walk root, id ∈ handles)
    (resolved : resolveTypes root context = .ok next) : next.SimpleElementsIn handles := by
  have kept : ∀ id ∈ context.walk root, ∀ {before after : Context},
      XmlSchema.resolveElement (.ofContext context root) before id = .ok after →
        before.SimpleElementsIn handles → after.SimpleElementsIn handles :=
    fun id member _ _ taken held => held.resolveElement (visits id member) taken
  exact keeps_of_foldlM (fun _ held => held) (fun left right held => right (left held)) kept
    resolved inside

theorem Context.SimpleElementsIn.foldl_warn (inside : context.SimpleElementsIn handles)
    (warnings : List Warning) : (warnings.foldl warn context).SimpleElementsIn handles :=
  List.foldlRecOn warnings _ inside fun _ inside _ _ => inside

theorem Context.simpleElementsIn_keptByExpansion (handles : List NodeId) :
    KeptByExpansion (fun _ => True) (SimpleElementsIn handles) where
  contained _ _ _ _ _ _ := trivial
  undefined inside _ _ := inside
  circular inside _ _ := inside
  writes inside _ _ _ := inside

end SimpleElements

section Survey

variable {options : Options} {document : Bytes} {surveyed : Context} {root : NodeId}

theorem simpleElementsIn_survey (found : survey options document = .ok (surveyed, root))
    (handles : List NodeId) : surveyed.SimpleElementsIn handles := by
  obtain ⟨context, expanded, read, expandedGroups, rfl⟩ := exists_of_survey found
  have initially : context.simpleElements = .empty := congrArg (·.2.2) (unread_readTree read)
  have before : context.SimpleElementsIn handles := by
    unfold Context.SimpleElementsIn
    rw [initially]
    exact Table.every_empty _
  have expansion := (Context.simpleElementsIn_keptByExpansion handles).expandGroups root before
  rw [expandedGroups] at expansion
  rw [indexElements_eq]
  exact expansion

end Survey

namespace Stages

variable {root : NodeId} {surveyed typed completed separated attributed mixed final : Context}
  (stages : Stages root surveyed typed completed separated attributed mixed final)

include stages in
/-- No pass after the resolution of types enters simple elements. -/
theorem simpleElementsIn_final (inside : surveyed.SimpleElementsIn (surveyed.walk root)) :
    final.SimpleElementsIn (surveyed.walk root) := by
  have typing := inside.resolveTypes (fun _ member => member) stages.types
  have completion :
      (endContext (completeDeclarations root typed)).SimpleElementsIn (surveyed.walk root) :=
    holds_completeDeclarations (fun inside _ => inside.foldl_warn _)
      (fun inside _ _ _ => inside.foldl_warn _) root typing
  rw [stages.completion, endContext_ok] at completion
  have separation := holds_separateAttributes (fun inside _ _ => inside) root completion
  rw [stages.separation, endContext_ok] at separation
  have attributeTypes := holds_resolveAttributeTypes (fun inside _ _ _ _ => inside) root separation
  rw [stages.attributeTypes, endContext_ok] at attributeTypes
  have mixedContent := holds_checkMixedContent (fun inside _ => inside) (fun inside _ => inside)
    (fun inside _ _ _ => inside) root attributeTypes
  rw [stages.mixedContent, endContext_ok] at mixedContent
  have extension := holds_markExtended (fun inside _ => inside) root mixedContent
  rw [stages.extension] at extension
  exact extension

end Stages

namespace Model

variable {options : Options} {document : Bytes} {model : Model}
  (compiled : compileBytes options document = .ok model)

include compiled in
theorem rooted_of_compileBytes : model.Rooted := by
  obtain ⟨surveyed, typed, completed, separated, attributed, mixed, found, stages⟩ :=
    exists_stages compiled
  have within : ∀ {id : NodeId}, id ∈ surveyed.walk model.root →
      model.context.arena.Reaches model.root id := by
    intro id member
    rw [← stages.walk_final] at member
    exact (Arena.mem_walk_iff.1 member).1
  refine ⟨⟨fun entered => ?_⟩, ?_⟩
  · rw [stages.frame_shape.elementIndex] at entered
    exact within (indexed_survey found entered).1
  · exact (stages.simpleElementsIn_final (simpleElementsIn_survey found _)).mono within

end Model

end XmlSchema
