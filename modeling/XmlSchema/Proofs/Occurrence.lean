import XmlSchema.Proofs.FlatTrees
import XmlSchema.Proofs.Occurrence.Bounds
import XmlSchema.Proofs.Occurrence.Compositors
import XmlSchema.Proofs.Tree.Shelter

/-!
# How often declarations occur

Each bound of an element or a complex type below the schema is the one of its own tag, or else that
of the innermost choice around the tag with no tag in between that makes a node; the two bounds are
looked for independently. With these bounds, as they are written, the declaration is completed, and
it keeps what they mean to the end of the compilation: `occurs_of_document`. The bounds of the
choice are found while the tag is read, `choice?_of_meetsNode`, and no later step changes them.
-/

namespace XmlSchema

open Context (Extends)

namespace Assembly

variable {options : Options} {events earlier : List Xml.Event} {name : String}
  {attributes : Xml.Attributes} {before opened after : Assembly} {element : Element}

theorem enclosingChoice?_adoptQualifier (assembly : Assembly) (name : String)
    (attributes : Xml.Attributes) :
    (assembly.adoptQualifier name attributes).enclosingChoice? = assembly.enclosingChoice? := by
  obtain ⟨-, openNodes, -, compositors, -⟩ := stacks_adoptQualifier assembly name attributes
  unfold enclosingChoice? depth
  rw [openNodes, compositors]

theorem element?_openNode (assembly : Assembly) (element : Element) :
    (assembly.openNode (.declaration element)).context.element? assembly.context.arena.nextId =
      some element :=
  (Context.element?_addNode assembly.context _ _).trans (if_pos rfl)

/-- A declaration notes the choice around its tag. -/
theorem choice?_openElement (assembly : Assembly) (kind : ElementKind)
    (found : (assembly.openElement kind attributes).context.element?
      assembly.context.arena.nextId = some element) :
    element.choice? = assembly.enclosingChoice? := by
  unfold openElement at found
  dsimp only at found
  split at found
  · cases (element?_openNode _ _).symm.trans found
    rfl
  · cases (element?_openNode _ _).symm.trans found
    rfl

/-- The tag of an element or a complex type that makes a node notes the choice around it. -/
theorem choice?_of_stepOpening (taken : before.stepOpening name attributes = .ok opened)
    (openNodes : opened.openNodes = before.context.arena.nextId :: before.openNodes)
    (found : opened.context.element? before.context.arena.nextId = some element)
    (kind : element.kind = .element ∨ element.kind = .complexType) :
    element.choice? = before.enclosingChoice? := by
  obtain ⟨arena, sameNodes, -⟩ := stacks_adoptQualifier before name attributes
  rw [← enclosingChoice?_adoptQualifier before name attributes]
  rw [← arena] at openNodes found
  rw [← sameNodes] at openNodes
  obtain ⟨construct, -, rfl⟩ := exists_openTag_of_stepOpening taken
  generalize before.adoptQualifier name attributes = adopted at openNodes found
  have effect := effect_openTag adopted construct attributes
  have makes : (adopted.openTag construct attributes).2 = true := by
    generalize adopted.openTag construct attributes = result at openNodes effect
    obtain ⟨within, opensNode⟩ := result
    cases effect with
    | passes _ quiet =>
        have same : within.openNodes = adopted.context.arena.nextId :: adopted.openNodes :=
          openNodes
        rw [quiet.openNodes] at same
        exact absurd same.symm (List.cons_ne_self _ _)
    | declares _ _ _ => rfl
    | types _ _ _ => rfl
  rw [← Prod.eta (adopted.openTag construct attributes), makes] at effect
  have isKind := ((Opens.of_effect effect).holds.of_element? found).1
  cases construct
  case element => exact choice?_openElement adopted .element found
  case complexType =>
    unfold openTag at found makes
    dsimp only at found makes
    split at found
    · exact choice?_openElement adopted .complexType found
    · rename_i inner
      rw [if_neg inner] at makes
      cases makes
  -- No other tag makes a declaration of these kinds.
  all_goals
    rcases kind with same | same
    · rw [same] at isKind
      cases isKind
    · rw [same] at isKind
      cases isKind

/-- What is open when a tag is met is extended by the rest of the events. -/
theorem MeetsNode.extends (meets : MeetsNode options events earlier name attributes before opened)
    (completed : events.foldlM step (start (.initial options)) = .ok after) :
    opened.Standing ∧ Extends opened.context after.context := by
  obtain ⟨⟨event, later, split, isTag⟩, reached, taken, -⟩ := meets
  have standing := (written_foldlM (standing_start (.initial options)) reached).2
  have standingOpened := standing.stepOpening taken
  refine ⟨standingOpened, ?_⟩
  rw [split] at completed
  obtain ⟨again, reachedAgain, rest⟩ := foldlM_append_eq_ok_iff.1 completed
  cases reached.symm.trans reachedAgain
  obtain ⟨next, takenEvent, last⟩ := foldlM_cons_eq_ok_iff.1 rest
  have early : next.Standing ∧ Extends opened.context next.context := by
    rcases isTag with rfl | rfl
    · cases taken.symm.trans takenEvent
      exact ⟨standingOpened, .refl _⟩
    · obtain ⟨same, takenAgain, closed⟩ := exists_opened_of_step_empty takenEvent
      cases taken.symm.trans takenAgain
      have closing := reads_stepClosing standingOpened
      rw [closed] at closing
      exact ⟨closing.standing rfl, closing.written.extends⟩
  exact early.2.trans (written_foldlM early.1 last).1.extends

end Assembly

section Documents

open Assembly

/-- A tag of a document makes a node among some open tags, which come with their attributes. -/
def OpenedAmong (options : Options) (document : Bytes) (id : NodeId)
    (around : List (OpenTag × Xml.Attributes)) : Prop :=
  ∃ earlier name attributes before opened,
    MeetsNode options ((Xml.read document).events.map Xml.Located.value) earlier name attributes
        before opened ∧
      id = before.context.arena.nextId ∧ around.map Prod.fst = before.openTags ∧
      around.map (fun tag => (tag.1.tag, tag.2)) = Xml.openTags earlier

/-- A bound of a declaration whose tag stands among others: its own, or else that of the innermost
choice around it. -/
def Element.boundAmong? (element : Element) (around : List (OpenTag × Xml.Attributes))
    (key : String) : Option String :=
  (element.tagAttributes.find? key).or ((innermostChoice? around).bind (·.find? key))

variable {options : Options} {document : Bytes} {context expanded surveyed typed later : Context}
  {root id : NodeId} {element : Element} {around : List (OpenTag × Xml.Attributes)}

/-- An element or a complex type below the schema has noted the choice around its tag. -/
theorem exists_openedAmong (read : readTree (.initial options) document = .ok (context, root))
    (expands : expandGroups root context = .ok expanded)
    (reached : expanded.arena.Reaches root id) (extension : Extends context later)
    (present : later.element? id = some element)
    (kind : element.kind = .element ∨ element.kind = .complexType) :
    ∃ around, OpenedAmong options document id around ∧
      element.choice? = (innermostChoice? around).map .ofAttributes := by
  rcases meetsInside_of_reaches read expands reached with rfl | meets
  · -- The root is a schema.
    obtain ⟨schema, found, isSchema⟩ := (isSchema_readTree read).mono extension
    cases present.symm.trans found
    rw [isSchema] at kind
    rcases kind with contradiction | contradiction
    · cases contradiction
    · cases contradiction
  · obtain ⟨earlier, name, attributes, before, opened, node, rfl, inside⟩ := meets
    obtain ⟨assembly, completed, -, rfl⟩ := exists_run_of_readTree read
    obtain ⟨standing, persists⟩ := node.extends (foldlM_step_of_run completed)
    obtain ⟨around, surrounds, named⟩ := exists_surrounds node.reached
    refine ⟨around, ⟨earlier, name, attributes, before, opened, node, rfl, surrounds.openTags,
      named⟩, ?_⟩
    -- The declaration is there from its tag on.
    have isOpen : before.context.arena.nextId ∈ opened.openNodes := by
      rw [node.openNodes]
      exact List.mem_cons_self ..
    obtain ⟨original, found⟩ :=
      Option.isSome_iff_exists.1 (standing.stacked.isSome_node? _ isOpen)
    obtain ⟨last, foundLast, same⟩ := (persists.trans extension).node? found
    cases (Context.node?_eq_declaration_iff.2 present).symm.trans foundLast
    cases original with
    | simple simpleType => cases same
    | declaration original =>
        have sameKind := (Element.of_identity same).1
        have noted := choice?_of_stepOpening node.taken node.openNodes
          (Context.node?_eq_declaration_iff.1 found) (sameKind ▸ kind)
        rw [Element.choice?_of_identity same, noted]
        refine enclosingChoice?_of_composed surrounds.composed ?_
        obtain ⟨tag, member, opens⟩ := inside
        rw [← surrounds.openTags] at member
        obtain ⟨pair, isAround, rfl⟩ := List.mem_map.1 member
        exact ⟨pair, isAround, opens⟩

theorem writtenBounds_of_choice?
    (noted : element.choice? = (innermostChoice? around).map .ofAttributes) :
    element.writtenMinimum? = element.boundAmong? around "minOccurs" ∧
      element.writtenMaximum? = element.boundAmong? around "maxOccurs" := by
  unfold Element.writtenMinimum? Element.writtenMaximum? Element.boundAmong?
  rw [noted]
  cases innermostChoice? around <;> exact ⟨rfl, rfl⟩

/-- Each element and each complex type below the schema is completed with its own bounds, and with
those of the innermost choice around its tag where it has none. It is completed exactly where these
bounds fit, in whatever order declarations are completed, and keeps what they mean to the end. -/
theorem occurs_of_document (found : survey options document = .ok (surveyed, root))
    (types : resolveTypes root surveyed = .ok typed) (reached : typed.arena.Reaches root id)
    (present : typed.element? id = some element)
    (kind : element.kind = .element ∨ element.kind = .complexType) :
    ∃ around, OpenedAmong options document id around ∧
      (∀ current : Context, current.element? id = some element →
        current.CompletesWithin id element.name (element.boundAmong? around "minOccurs")
          (element.boundAmong? around "maxOccurs")) ∧
      ∀ model : Model, compileBytes options document = .ok model →
        ∃ after least most, model.context.element? id = some after ∧
          Occurrence.Fits (element.boundAmong? around "minOccurs")
            (element.boundAmong? around "maxOccurs") least most ∧
          after.Occurs least most := by
  obtain ⟨context, expanded, read, expands, rfl⟩ := exists_of_survey found
  have sameArena : (indexElements root expanded).arena = expanded.arena := by
    rw [indexElements_eq]
  have member : id ∈ typed.walk root :=
    Arena.mem_walk_iff.2 ⟨reached, Option.isSome_of_eq_some present⟩
  have reachedBefore : expanded.arena.Reaches root id := by
    have walked := member
    rw [Stages.walk_resolution types] at walked
    unfold Context.walk at walked
    rw [sameArena] at walked
    exact (Arena.mem_walk_iff.1 walked).1
  have extension : Extends context typed := by
    have early := Context.extends_runPass root context .expandGroups
    have late := Context.extends_runPass root (indexElements root expanded) .resolveTypes
    have earlyRun : Pass.run root context .expandGroups = .ok expanded := expands
    have lateRun : Pass.run root (indexElements root expanded) .resolveTypes = .ok typed := types
    rw [earlyRun] at early
    rw [lateRun] at late
    exact early.trans ((Extends.of_arena sameArena).trans late)
  obtain ⟨around, among, noted⟩ :=
    exists_openedAmong read expands reachedBefore extension present kind
  obtain ⟨minimum, maximum⟩ := writtenBounds_of_choice? noted
  refine ⟨around, among, fun current foundThere => ?_, fun model compiled => ?_⟩
  · rw [← minimum, ← maximum]
    exact Context.completesWithin foundThere
  · rw [← minimum, ← maximum]
    obtain ⟨again, typedAgain, completed, separated, attributed, mixed, foundAgain, stages⟩ :=
      exists_stages compiled
    obtain ⟨rfl, rfl⟩ := Prod.mk.inj (Except.ok.inj (found.symm.trans foundAgain))
    cases types.symm.trans stages.types
    obtain ⟨after, least, most, presentAfter, fits, occurs⟩ :=
      Context.exists_occurs_of_completeDeclarations stages.completion member present
    obtain ⟨last, presentLast, same⟩ := stages.frame_completion.of_element? presentAfter
    exact ⟨last, least, most, presentLast, fits, occurs.of_completion same⟩

/-- An element with a minimum, inside two choices with a maximum each. -/
def nestedChoiceSchema : Bytes :=
  schemaDocument [
    "<s:complexType name='T'><s:choice minOccurs='0' maxOccurs='unbounded'><s:sequence>",
    "<s:choice maxOccurs=' +3 '><s:element name='x' minOccurs='2'/></s:choice>",
    "</s:sequence></s:choice></s:complexType>"]

/-- An element with a minimum of its own, which takes its maximum from the inner one of two choices.
-/
theorem occurs_of_document_nested :
    ∃ (surveyed typed : Context) (root id : NodeId) (element after : Element) (model : Model)
      (around : List (OpenTag × Xml.Attributes)),
      survey .standard nestedChoiceSchema = .ok (surveyed, root) ∧
      resolveTypes root surveyed = .ok typed ∧ typed.arena.Reaches root id ∧
      typed.element? id = some element ∧ element.kind = .element ∧
      compileBytes .standard nestedChoiceSchema = .ok model ∧
      OpenedAmong .standard nestedChoiceSchema id around ∧
      Occurrence.Fits (element.boundAmong? around "minOccurs")
        (element.boundAmong? around "maxOccurs") 2 3 ∧
      model.context.element? id = some after ∧ after.name = "x" ∧ after.Occurs 2 3 := by
  have computed : compilesFlat .standard nestedChoiceSchema (Model.anyElement fun _ element =>
      decide (element.kind = .element ∧ element.name = "x" ∧ element.minOccurs = 2 ∧
        element.maxOccurs = 3)) = true := by decide +kernel
  obtain ⟨model, id, final, compiled, reachedFinal, presentFinal, checked⟩ :=
    exists_element_of_compilesFlat computed
  obtain ⟨isElement, named, minimum, maximum⟩ := of_decide_eq_true checked
  obtain ⟨surveyed, typed, completed, separated, attributed, mixed, found, stages⟩ :=
    exists_stages compiled
  have reached : typed.arena.Reaches model.root id := by
    have walked := stages.mem_walk_of_reaches reachedFinal presentFinal
    rw [← Stages.walk_resolution stages.types] at walked
    exact (Arena.mem_walk_iff.1 walked).1
  obtain ⟨before, presentBefore, sameBefore⟩ := stages.frame_shape.of_element?_after presentFinal
  obtain ⟨element, present, same⟩ := stages.frame_types.of_element? presentBefore
  have kind : element.kind = .element :=
    (congrArg Prod.fst (Eq.trans same (Eq.symm sameBefore)) :).trans isElement
  obtain ⟨around, among, -, ends⟩ :=
    occurs_of_document found stages.types reached present (.inl kind)
  obtain ⟨after, least, most, presentAfter, fits, occurs⟩ := ends model compiled
  cases presentFinal.symm.trans presentAfter
  have least_eq : least = 2 := occurs.minOccurs.symm.trans (congrArg UInt32.toNat minimum)
  have most_eq : most = 3 := occurs.maxOccurs.symm.trans (congrArg UInt32.toNat maximum)
  rw [least_eq, most_eq] at fits occurs
  exact ⟨surveyed, typed, model.root, id, element, final, model, around, found, stages.types,
    reached, present, kind, compiled, among, fits, presentFinal, named, occurs⟩

end Documents

end XmlSchema
