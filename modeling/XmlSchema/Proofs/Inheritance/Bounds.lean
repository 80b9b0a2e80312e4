import XmlSchema.Proofs.FlatTrees
import XmlSchema.Proofs.Inheritance.Lineage
import XmlSchema.Proofs.Refusals
import XmlSchema.Proofs.Tree.Reading
import XmlSchema.Proofs.Tree.Standing

/-!
# Bounds on inheritance

Distinct names need the ancestors of every declaration, so the pass that makes names distinct goes
through exactly where every lineage is within the bound: `exists_separateAttributes_iff`. From that
pass on nothing that decides lineages is written, `frame_kinship`, so no later pass meets a lineage
that is too long. The last pass marks what others inherit from, and nothing before it marks
anything: `markedAlike_runPass`.
-/

namespace XmlSchema

variable {context before after completed : Context} {root id : NodeId}

/-! ## What decides inheritance stays -/

/-- The name of a declaration, its base and its children: what inheritance and walks look at. -/
def Element.kinship (element : Element) : String × Option String × List NodeId :=
  (element.name, element.base?, element.children)

theorem kinship_addSimpleBase (element : Element) (name : String) :
    (element.addSimpleBase name).kinship = element.kinship :=
  part_addSimpleBase Element.kinship (fun _ _ => rfl) element name

namespace Frame

variable (frame : Frame (.keeping Element.kinship) before after)

include frame in
theorem parent?_of_kinship (id : NodeId) : after.parent? id = before.parent? id :=
  Frame.parent? (frame.view (·.2.1)) id

include frame in
theorem walk_of_kinship (root : NodeId) : after.walk root = before.walk root := by
  have children : Frame (.keeping Element.children) before after := frame.view (·.2.2)
  exact Arena.walk_congr children.map_element? root

include frame in
/-- Lineages end within the bound in both contexts or in neither. -/
theorem endsWithin_of_kinship :
    after.EndsWithin id after.options.limits.baseDepth ↔
      before.EndsWithin id before.options.limits.baseDepth := by
  rw [frame.options]
  exact Context.endsWithin_congr frame.parent?_of_kinship

end Frame

theorem nodeName_of_element? {element : Element} (found : context.element? id = some element) :
    context.nodeName id = element.name := by
  obtain ⟨node, present, same⟩ := Option.bind_eq_some_iff.1 found
  unfold Context.nodeName Context.node?
  rw [present]
  cases node with
  | declaration declared =>
      cases same
      rfl
  | simple _ => cases same

/-- From the pass for distinct names on, nothing that decides inheritance is written. -/
theorem frame_kinship (root : NodeId) (context : Context) {pass : Pass}
    (late : pass ∈ Pass.all.drop 4) :
    Frame (.keeping Element.kinship) context (endContext (pass.run root context)) := by
  cases pass with
  | expandGroups | indexElements | resolveTypes | completeDeclarations =>
      exact absurd late (by decide)
  | separateAttributes => exact frame_separateAttributes (fun _ _ => rfl) root context
  | resolveAttributeTypes => exact frame_resolveAttributeTypes (fun _ _ _ _ => rfl) root context
  | checkMixedContent =>
      exact frame_checkMixedContent (fun _ => rfl) kinship_addSimpleBase (fun _ => rfl) root context
  | markExtended => exact frame_markExtended (fun _ => rfl) root context

/-- Two contexts in which the same declarations are marked. -/
def Context.MarkedAlike (before after : Context) : Prop :=
  ∀ id, (after.element? id).map Element.isExtended = (before.element? id).map Element.isExtended

/-- Before the last pass, no pass marks a declaration. -/
theorem markedAlike_runPass (root : NodeId) (context : Context) {pass : Pass}
    (notLast : pass ≠ .markExtended) : context.MarkedAlike (endContext (pass.run root context)) := by
  have noted : ∀ element name, (Element.addSimpleBase element name).isExtended =
      element.isExtended := part_addSimpleBase Element.isExtended fun _ _ => rfl
  cases pass with
  | expandGroups => exact (frame_expandGroups (fun _ _ => rfl) root context).map_element?
  | indexElements =>
      show context.MarkedAlike (XmlSchema.indexElements root context)
      rw [indexElements_eq]
      exact fun _ => rfl
  | resolveTypes =>
      exact (frame_resolveTypes (fun element name _ _ => noted element name) (fun _ _ _ _ => rfl)
        root context).map_element?
  | completeDeclarations =>
      exact (frame_completeDeclarations (fun _ _ _ _ => rfl) root context).map_element?
  | separateAttributes =>
      exact (frame_separateAttributes (fun _ _ => rfl) root context).map_element?
  | resolveAttributeTypes =>
      exact (frame_resolveAttributeTypes (fun _ _ _ _ => rfl) root context).map_element?
  | checkMixedContent =>
      exact (frame_checkMixedContent (fun _ => rfl) noted (fun _ => rfl) root context).map_element?
  | markExtended => exact absurd rfl notLast

theorem Context.MarkedAlike.exists_iff (alike : before.MarkedAlike after) :
    (∃ element, after.element? id = some element ∧ element.isExtended = true) ↔
      ∃ element, before.element? id = some element ∧ element.isExtended = true :=
  exists_part_iff (alike id)

/-! ## The passes that need ancestors -/

/-- A step of a pass that needs the ancestors of every declaration goes through, in whatever context
the steps before end, exactly where the lineage of the declaration is within the bound. -/
theorem exists_ancestors_of_frame (frame : Frame (.keeping Element.kinship) before after) :
    (∃ chain, after.ancestors id = .ok chain) ↔
      before.EndsWithin id before.options.limits.baseDepth :=
  Context.exists_ancestors_iff.trans frame.endsWithin_of_kinship

/-- The lineages of all declarations below a root are within the bound. -/
def Context.Bounded (context : Context) (root : NodeId) : Prop :=
  ∀ id, context.arena.Reaches root id → context.EndsWithin id context.options.limits.baseDepth

theorem Context.bounded_iff :
    context.Bounded root ↔
      ∀ id ∈ context.walk root, context.EndsWithin id context.options.limits.baseDepth := by
  constructor
  · exact fun bounded id member => bounded id (Arena.mem_walk_iff.1 member).1
  · intro bounded id reached
    cases found : context.element? id with
    | none => exact ⟨[], .top (Context.parent?_of_absent found), Nat.zero_le _⟩
    | some element =>
        exact bounded id (Arena.mem_walk_iff.2 ⟨reached, Option.isSome_iff_exists.2 ⟨_, found⟩⟩)

theorem Frame.bounded_of_kinship (frame : Frame (.keeping Element.kinship) before after) :
    after.Bounded root ↔ before.Bounded root := by
  rw [Context.bounded_iff, Context.bounded_iff, frame.walk_of_kinship root]
  exact forall₂_congr fun _ _ => frame.endsWithin_of_kinship

theorem exists_separateElement_iff (frame : Frame (.keeping Element.kinship) before after) :
    (∃ next, separateElement after id = .ok next) ↔
      before.EndsWithin id before.options.limits.baseDepth := by
  rw [← exists_ancestors_of_frame frame]
  unfold separateElement
  cases after.ancestors id with
  | error refused => simp
  | ok chain => simp

theorem exists_equalizeElement_iff {state : Context × List (NodeId × List NodeId)}
    (frame : Frame (.keeping Element.kinship) before state.1) :
    (∃ next, equalizeElement state id = .ok next) ↔
      before.EndsWithin id before.options.limits.baseDepth := by
  rw [← exists_ancestors_of_frame frame]
  obtain ⟨current, chains⟩ := state
  unfold equalizeElement
  dsimp only
  cases current.ancestors id with
  | error refused => simp
  | ok chain => simp

/-- A step of the pass for distinct names leaves alone what the steps go by. -/
theorem frame_kinship_of_separateElement (context : Context) {current : Context} {id : NodeId}
    {next : Context} (frame : Frame (.keeping Element.kinship) context current)
    (taken : separateElement current id = .ok next) :
    Frame (.keeping Element.kinship) context next :=
  frame.trans ((frame_separateElement (fun _ _ => rfl) current id).of_ok taken)

/-- Names are made distinct exactly where all lineages are within the bound. -/
theorem exists_separateAttributes_iff :
    (∃ separated, separateAttributes root context = .ok separated) ↔ context.Bounded root := by
  rw [Context.bounded_iff]
  exact exists_foldlM_eq_ok_iff (@frame_kinship_of_separateElement context)
    exists_separateElement_iff (Frame.refl _ context)

/-- A lineage that is not within the bound is that of a declaration which the error names. -/
theorem of_separateAttributes_eq_error {halt : Halt Error}
    (refused : separateAttributes root context = .error halt) :
    ∃ id element base, context.arena.Reaches root id ∧ context.element? id = some element ∧
      ¬ context.EndsWithin id context.options.limits.baseDepth ∧
      halt.cause = .semantic
        ⟨element.name, .cyclicInheritance base context.options.limits.baseDepth⟩ := by
  obtain ⟨id, member, current, frame, step⟩ := exists_held_step_of_foldlM_eq_error
    (@frame_kinship_of_separateElement context) (Frame.refl _ context) refused
  obtain ⟨reached, declared⟩ := Arena.mem_walk_iff.1 member
  obtain ⟨element, found⟩ := Option.isSome_iff_exists.1 declared
  obtain ⟨later, present, same⟩ := frame.of_element? found
  unfold separateElement at step
  split at step
  · rename_i climbed
    cases step
    obtain ⟨long, base, rfl⟩ := Context.of_ancestors_eq_error climbed
    rw [frame.endsWithin_of_kinship] at long
    have name : later.name = element.name := congrArg (·.1) same
    rw [nodeName_of_element? present, name, frame.options]
    exact ⟨id, element, base, reached, found, long, rfl⟩
  · cases step

/-- Mixed content is checked where all lineages are within the bound. -/
theorem exists_checkMixedContent (bounded : context.Bounded root) :
    ∃ mixed, checkMixedContent root context = .ok mixed := by
  have kept : ∀ {state : Context × List (NodeId × List NodeId)} {id next},
      Frame (.keeping Element.kinship) context state.1 → equalizeElement state id = .ok next →
      Frame (.keeping Element.kinship) context next.1 := by
    intro state id next frame taken
    have step : Frame (.keeping Element.kinship) state.1
        (endContext ((equalizeElement state id).map Prod.fst)) :=
      frame_equalizeElement (fun _ => rfl) kinship_addSimpleBase state id
    rw [taken] at step
    exact frame.trans step
  have run : (∃ result, (context.walk root).foldlM equalizeElement (context, []) = .ok result) ↔
      ∀ id ∈ context.walk root, context.EndsWithin id context.options.limits.baseDepth :=
    @exists_foldlM_eq_ok_iff _ _ _ (fun state => Frame (.keeping Element.kinship) context state.1) _
      equalizeElement kept exists_equalizeElement_iff _ (context, []) (Frame.refl _ context)
  obtain ⟨⟨equalized, chains⟩, completed⟩ := run.2 (Context.bounded_iff.1 bounded)
  unfold checkMixedContent
  rw [completed]
  exact ⟨_, rfl⟩

/-! ## Marks -/

/-- A mark on one declaration, whatever it is that marks. -/
theorem exists_modifyElement_iff {part : Element → Bool} {mark : Element → Element}
    (marks : ∀ element, part (mark element) = true) {other : NodeId} :
    (∃ element, (context.modifyElement id mark).element? other = some element ∧
        part element = true) ↔
      (∃ element, context.element? other = some element ∧ part element = true) ∨
        (other = id ∧ (context.element? other).isSome) := by
  have read : (context.modifyElement id mark).element? other =
      if other = id then (context.element? id).map mark else context.element? other :=
    Arena.element?_modifyElement ..
  rw [read]
  split
  · rename_i same
    subst same
    cases context.element? other with
    | none => simp
    | some element => simp [marks]
  · rename_i different
    simp [different]

/-- A step marks what the declaration inherits from, and nothing else. -/
theorem isExtended_markParent {heir : NodeId} (declared : (context.element? id).isSome) :
    (∃ element, (context.markParent heir).element? id = some element ∧ element.isExtended = true) ↔
      (∃ element, context.element? id = some element ∧ element.isExtended = true) ∨
        context.Inherits heir id := by
  unfold Context.markParent
  split
  · rename_i base parent leads
    have inherits : context.Inherits heir id ↔ id = parent := by
      constructor
      · exact fun inherits => Context.Inherits.unique ⟨base, leads⟩ inherits
      · rintro rfl
        exact ⟨base, leads⟩
    rw [exists_modifyElement_iff fun _ => rfl, and_iff_left declared, inherits]
  · rename_i ends
    refine (or_iff_left ?_).symm
    rintro ⟨base, leads⟩
    cases ends.symm.trans leads

/-- The last pass marks what a declaration of the walk inherits from, and nothing else. -/
theorem isExtended_markExtended {element : Element}
    (found : (markExtended root context).element? id = some element) :
    element.isExtended = true ↔
      (∃ unmarked, context.element? id = some unmarked ∧ unmarked.isExtended = true) ∨
        ∃ heir ∈ context.walk root, context.Inherits heir id := by
  unfold markExtended at found
  generalize context.walk root = order at found ⊢
  have marked : ∀ {current : Context}, current.element? id = some element →
      (element.isExtended = true ↔
        ∃ marked, current.element? id = some marked ∧ marked.isExtended = true) := by
    intro current present
    rw [present]
    simp
  induction order generalizing context with
  | nil =>
      rw [marked found]
      simp
  | cons heir rest inductionHypothesis =>
      have frame : Frame (.keeping Element.kinship) context (context.markParent heir) :=
        frame_markParent (fun _ => rfl) context heir
      have declared : (context.element? id).isSome := by
        have whole : Frame .any context ((heir :: rest).foldl Context.markParent context) :=
          .foldl (frame_markParent fun _ => trivial) _ context
        obtain ⟨earlier, present, -⟩ := whole.of_element?_after found
        exact Option.isSome_iff_exists.2 ⟨earlier, present⟩
      refine (inductionHypothesis found).trans ?_
      rw [isExtended_markParent declared, Context.inherits_congr frame.parent?_of_kinship,
        List.exists_mem_cons_iff, or_assoc]

/-! ## Runs of passes -/

section Runs

variable {passes : List Pass}

theorem frame_kinship_of_passes (late : ∀ pass ∈ passes, pass ∈ Pass.all.drop 4)
    (completed : passes.foldlM (fun context pass => pass.run root context) before = .ok after) :
    Frame (.keeping Element.kinship) before after :=
  keeps_of_foldlM (Frame.refl _) Frame.trans
    (fun _ member _ _ taken => (frame_kinship root _ (late _ member)).of_ok taken) completed

theorem markedAlike_of_passes (notLast : .markExtended ∉ passes)
    (completed : passes.foldlM (fun context pass => pass.run root context) before = .ok after) :
    before.MarkedAlike after := by
  refine keeps_of_foldlM (fun _ _ => rfl) (fun left right id => (right id).trans (left id)) ?_
    completed
  intro pass member before after taken
  have same := markedAlike_runPass root before fun last => notLast (last ▸ member)
  rw [taken] at same
  exact same

end Runs

theorem Context.exists_heir_iff :
    (∃ heir ∈ context.walk root, context.Inherits heir id) ↔
      ∃ heir, context.arena.Reaches root heir ∧ context.Inherits heir id := by
  refine exists_congr fun heir => and_congr_left fun inherits => ?_
  obtain ⟨element, base, found, -⟩ := inherits.indexed
  exact Arena.mem_walk_iff.trans (and_iff_left (Option.isSome_iff_exists.2 ⟨element, found⟩))

/-- The last pass, run after the pass for distinct names and the two behind it, marks what the
declarations below the root inherit from. -/
theorem isExtended_of_passes {mixed : Context} {early late : List Pass}
    (first : early.foldlM (fun context pass => pass.run root context) context = .ok completed)
    (second : late.foldlM (fun context pass => pass.run root context) completed = .ok mixed)
    (notLast : .markExtended ∉ early ∧ .markExtended ∉ late)
    (afterwards : ∀ pass ∈ late, pass ∈ Pass.all.drop 4) {element : Element}
    (found : (markExtended root mixed).element? id = some element) :
    element.isExtended = true ↔
      (∃ unmarked, context.element? id = some unmarked ∧ unmarked.isExtended = true) ∨
        ∃ heir, completed.arena.Reaches root heir ∧ completed.Inherits heir id := by
  have frame := frame_kinship_of_passes afterwards second
  rw [isExtended_markExtended found, (markedAlike_of_passes notLast.2 second).exists_iff,
    (markedAlike_of_passes notLast.1 first).exists_iff, frame.walk_of_kinship root,
    Context.inherits_congr frame.parent?_of_kinship, Context.exists_heir_iff]

/-- In a model exactly those declarations are marked from which one below the root inherits. -/
theorem isExtended_of_compileBytes {options : Options} {document : Bytes} {model : Model}
    (compiled : compileBytes options document = .ok model) {element : Element}
    (found : model.context.element? id = some element) :
    element.isExtended = true ↔
      ∃ heir, model.context.arena.Reaches model.root heir ∧ model.context.Inherits heir id := by
  obtain ⟨context, read, annotated⟩ := exists_annotate_of_compileBytes compiled
  obtain ⟨completed, early, afterwards⟩ :=
    exists_between_of_annotate (List.take_append_drop 4 Pass.all).symm annotated
  rw [show Pass.all.drop 4 =
    [.separateAttributes, .resolveAttributeTypes, .checkMixedContent] ++ [.markExtended] from rfl]
    at afterwards
  obtain ⟨mixed, late, last⟩ := foldlM_append_eq_ok_iff.1 afterwards
  obtain ⟨final, marking, done⟩ := foldlM_cons_eq_ok_iff.1 last
  cases foldlM_nil_eq_ok_iff.1 done
  have same : markExtended model.root mixed = model.context := Except.ok.inj marking
  have frame := frame_kinship_of_passes (by decide) afterwards
  have marks := isExtended_of_passes early late (by decide) (by decide) (same.symm ▸ found)
  have unmarked : ¬ ∃ unmarked, context.element? id = some unmarked ∧
      unmarked.isExtended = true := by
    rintro ⟨unmarked, present, isMarked⟩
    have isUnmarked := (unannotated_readTree read).unmarked present
    rw [isMarked] at isUnmarked
    cases isUnmarked
  rw [marks, or_iff_right unmarked, ← Context.exists_heir_iff, ← Context.exists_heir_iff,
    frame.walk_of_kinship, Context.inherits_congr frame.parent?_of_kinship]

/-- Where no node refers to a group, the first four passes are an index and two passes behind it. -/
theorem early_of_flat (flat : context.isFlat = true)
    (nesting : 0 < context.options.limits.groupDepth)
    (resolved : [Pass.resolveTypes, .completeDeclarations].foldlM
      (fun context pass => pass.run root context) (indexElements root context) = .ok completed) :
    (Pass.all.take 4).foldlM (fun context pass => pass.run root context) context =
      .ok completed :=
  foldlM_cons_eq_ok_iff.2 ⟨context, expandGroups_of_flat flat nesting root,
    foldlM_cons_eq_ok_iff.2 ⟨_, rfl, resolved⟩⟩

/-- Once the first four passes are through, names are made distinct exactly where the way up from
every declaration below the root ends within the bound; from a cycle, and from below one, no way up
ends. Otherwise the error names a declaration whose way up is too long. Once names are distinct, no
pass fails for a way up, and the last pass marks what the declarations below the root inherit from,
besides what was marked before; in a model nothing else is marked. -/
theorem inheritance_of_passes
    (early : (Pass.all.take 4).foldlM (fun context pass => pass.run root context) context =
      .ok completed) :
    ((∃ separated, separateAttributes root completed = .ok separated) ↔
      completed.Bounded root) ∧
    (∀ halt, separateAttributes root completed = .error halt →
      ∃ id element base, completed.arena.Reaches root id ∧
        completed.element? id = some element ∧
        ¬ completed.EndsWithin id completed.options.limits.baseDepth ∧
        halt.cause = .semantic
          ⟨element.name, .cyclicInheritance base completed.options.limits.baseDepth⟩) ∧
    (∀ id other, Relation.ReflTransGen completed.Inherits id other →
      Relation.TransGen completed.Inherits other other →
        ∀ steps, ¬ completed.EndsWithin id steps) ∧
    (∀ separated, separateAttributes root completed = .ok separated →
      (∀ halt, resolveAttributeTypes root separated = .error halt → ¬ halt.cause.IsInheritance) ∧
      ∀ attributed, resolveAttributeTypes root separated = .ok attributed →
        ∃ mixed, checkMixedContent root attributed = .ok mixed ∧
          ∀ id element, (markExtended root mixed).element? id = some element →
            (element.isExtended = true ↔
              (∃ unmarked, context.element? id = some unmarked ∧ unmarked.isExtended = true) ∨
                ∃ heir, completed.arena.Reaches root heir ∧ completed.Inherits heir id)) ∧
    ∀ options document model, compileBytes options document = .ok model →
      ∀ id element, model.context.element? id = some element →
        (element.isExtended = true ↔
          ∃ heir, model.context.arena.Reaches model.root heir ∧
            model.context.Inherits heir id) := by
  refine ⟨exists_separateAttributes_iff, fun halt => of_separateAttributes_eq_error,
    fun id other inherits cycle steps => Context.not_endsWithin_of_cycle inherits cycle, ?_,
    fun options document model compiled id element => isExtended_of_compileBytes compiled⟩
  intro separated separation
  refine ⟨fun halt refused => (isUnresolved_of_resolveAttributeTypes refused).2, ?_⟩
  intro attributed resolution
  have firstTwo : [Pass.separateAttributes, .resolveAttributeTypes].foldlM
      (fun context pass => pass.run root context) completed = .ok attributed :=
    foldlM_cons_eq_ok_iff.2 ⟨separated, separation,
      foldlM_cons_eq_ok_iff.2 ⟨attributed, resolution, rfl⟩⟩
  have bounded : attributed.Bounded root :=
    (frame_kinship_of_passes (by decide) firstTwo).bounded_of_kinship.2
      (exists_separateAttributes_iff.1 ⟨separated, separation⟩)
  obtain ⟨mixed, check⟩ := exists_checkMixedContent bounded
  have last : [Pass.checkMixedContent].foldlM (fun context pass => pass.run root context)
      attributed = .ok mixed := foldlM_cons_eq_ok_iff.2 ⟨mixed, check, rfl⟩
  have late := foldlM_append_eq_ok_iff.2 ⟨attributed, firstTwo, last⟩
  exact ⟨mixed, check, fun id element => isExtended_of_passes early late (by decide) (by decide)⟩

/-- Two types that extend each other. -/
def mutualExtensionSchema : Bytes :=
  schemaDocument [
    "<s:complexType name='A'><s:complexContent><s:extension base='B'/></s:complexContent>",
    "</s:complexType><s:complexType name='B'><s:complexContent><s:extension base='A'/>",
    "</s:complexContent></s:complexType>"]

/-- A type that extends another one. -/
def singleExtensionSchema : Bytes :=
  schemaDocument [
    "<s:complexType name='A'><s:complexContent><s:extension base='B'/></s:complexContent>",
    "</s:complexType><s:complexType name='B'/>"]

/-- Two types that extend each other are refused, and a type that extends another one marks it. -/
theorem inheritance_of_passes_mutual :
    (∃ context completed root halt,
      readTree (.initial .standard) mutualExtensionSchema = .ok (context, root) ∧
      (Pass.all.take 4).foldlM (fun context pass => pass.run root context) context =
        .ok completed ∧
      separateAttributes root completed = .error halt ∧ halt.cause.IsInheritance ∧
      ¬ completed.Bounded root) ∧
    ∃ model id element heir,
      compileBytes .standard singleExtensionSchema = .ok model ∧
      model.context.element? id = some element ∧ element.name = "B" ∧
      element.isExtended = true ∧ model.context.arena.Reaches model.root heir ∧
      model.context.Inherits heir id := by
  have refused : readsTree .standard mutualExtensionSchema
      (fun context root => decide (context.isFlat = true ∧ 0 < context.options.limits.groupDepth) &&
        ([Pass.resolveTypes, .completeDeclarations].foldlM
          (fun (context : Context) (pass : Pass) => pass.run root context)
          (indexElements root context)).toOption.any
            fun completed => (separateAttributes root completed).toOption.isNone) = true := by
    decide +kernel
  have extended : compilesFlat .standard singleExtensionSchema
      (Model.anyElement fun _ element => decide (element.name = "B" ∧ element.isExtended = true)) =
      true := by
    decide +kernel
  obtain ⟨context, root, read, checked⟩ := exists_of_readsTree refused
  obtain ⟨simple, checked⟩ := Bool.and_eq_true_iff.1 checked
  obtain ⟨flat, nesting⟩ := of_decide_eq_true simple
  cases resolved : [Pass.resolveTypes, .completeDeclarations].foldlM
      (fun (context : Context) (pass : Pass) => pass.run root context)
      (indexElements root context) with
  | error halt =>
      rw [resolved] at checked
      cases checked
  | ok completed =>
      rw [resolved] at checked
      have fails : (separateAttributes root completed).toOption.isNone = true := checked
      have early := early_of_flat flat nesting resolved
      obtain ⟨goesThrough, names, -, -, models⟩ := inheritance_of_passes early
      obtain ⟨model, id, element, compiled, -, found, checkedElement⟩ :=
        exists_element_of_compilesFlat extended
      obtain ⟨name, isMarked⟩ := of_decide_eq_true checkedElement
      obtain ⟨heir, reached, inherits⟩ := (models _ _ model compiled id element found).1 isMarked
      cases outcome : separateAttributes root completed with
      | ok separated =>
          rw [outcome] at fails
          cases fails
      | error halt =>
          obtain ⟨_, _, base, -, -, -, cause⟩ := names halt outcome
          refine ⟨⟨context, completed, root, halt, read, early, outcome, ⟨_, base, _, cause⟩,
            fun bounded => ?_⟩, model, id, element, heir, compiled, found, name, isMarked, reached,
            inherits⟩
          obtain ⟨separated, separation⟩ := goesThrough.2 bounded
          cases outcome.symm.trans separation

end XmlSchema
