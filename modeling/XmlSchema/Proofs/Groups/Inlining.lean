import XmlSchema.Proofs.Consistency.Sessions
import XmlSchema.Proofs.Groups.Flattening

/-!
# Expansion loses no declaration

In a context that comes from reading, a child of the kind of a group is a reference. When the pass
goes through, none is left among the children of the definitions and of the nodes below the root,
also where groups refer to one another in a cycle. All other children are still there in their
order, and in place of each reference there is what the members of its group became, or nothing if
it leads nowhere or into a cycle: `inlines_of_session`.
-/

namespace XmlSchema

namespace Context

variable (context : Context)

/-- What a list of children becomes: a child that is no reference is kept, a reference without a
definition or into a cycle is dropped, and any other is replaced by what the children of the
definition become, a block without references. -/
inductive Inlines : (children members : List NodeId) → Prop where
  | done : Inlines [] []
  | keep {child : NodeId} {rest members : List NodeId} (plain : ¬ context.IsGroup child)
      (inlined : Inlines rest members) : Inlines (child :: rest) (child :: members)
  | undefined {child : NodeId} {reference : String} {rest members : List NodeId}
      (refers : context.groupReference? child = some reference)
      (absent : groupDefinition? context.elementGroups reference = none)
      (inlined : Inlines rest members) : Inlines (child :: rest) members
  | circular {child definition : NodeId} {reference : String} {rest members : List NodeId}
      (refers : context.groupReference? child = some reference)
      (defined : groupDefinition? context.elementGroups reference = some definition)
      (cycle : Relation.TransGen context.RefersTo definition definition)
      (inlined : Inlines rest members) : Inlines (child :: rest) members
  | splice {child definition : NodeId} {reference : String} {rest block members : List NodeId}
      (refers : context.groupReference? child = some reference)
      (defined : groupDefinition? context.elementGroups reference = some definition)
      (plain : ∀ member ∈ block, ¬ context.IsGroup member)
      (inner : Inlines (context.children definition) block) (inlined : Inlines rest members) :
      Inlines (child :: rest) (block ++ members)

variable {context} {id : NodeId} {children members : List NodeId}

/-- A child that is no reference is not of the kind of a group. -/
theorem Linkable.not_isGroup (linkable : context.Linkable id)
    (plain : context.groupReference? id = none) : ¬ context.IsGroup id := by
  rintro ⟨element, found, isGroup⟩
  obtain ⟨same, present, refers⟩ := linkable
  cases found.symm.trans present
  unfold Context.groupReference? at plain
  rw [found] at plain
  dsimp only at plain
  rw [if_pos isGroup] at plain
  have refersTo := refers isGroup
  rw [plain] at refersTo
  cases refersTo

theorem Inlines.of_plain (linkable : ∀ child ∈ children, context.Linkable child)
    (plain : context.Plain children) : context.Inlines children children := by
  induction children with
  | nil => exact .done
  | cons child rest inductionHypothesis =>
      obtain ⟨firstLinkable, restLinkable⟩ := List.forall_mem_cons.1 linkable
      obtain ⟨firstPlain, restPlain⟩ := List.forall_mem_cons.1 plain
      exact .keep (firstLinkable.not_isGroup firstPlain) (inductionHypothesis restLinkable restPlain)

theorem Inlines.not_isGroup (inlines : context.Inlines children members) :
    ∀ member ∈ members, ¬ context.IsGroup member := by
  induction inlines with
  | done => exact fun _ member => absurd member List.not_mem_nil
  | keep plain _ inductionHypothesis => exact List.forall_mem_cons.2 ⟨plain, inductionHypothesis⟩
  | undefined _ _ _ inductionHypothesis => exact inductionHypothesis
  | circular _ _ _ _ inductionHypothesis => exact inductionHypothesis
  | splice _ _ plain _ _ _ inductionHypothesis =>
      exact List.forall_mem_append.2 ⟨plain, inductionHypothesis⟩

/-- No declaration is lost. -/
theorem Inlines.mem_of_plain (inlines : context.Inlines children members)
    (member : id ∈ children) (plain : context.groupReference? id = none) : id ∈ members := by
  induction inlines with
  | done => cases member
  | keep _ _ inductionHypothesis =>
      rcases List.mem_cons.1 member with rfl | later
      · exact List.mem_cons_self ..
      · exact List.mem_cons_of_mem _ (inductionHypothesis later)
  | undefined refers _ _ inductionHypothesis | circular refers _ _ _ inductionHypothesis =>
      rcases List.mem_cons.1 member with rfl | later
      · rw [plain] at refers
        cases refers
      · exact inductionHypothesis later
  | splice refers _ _ _ _ _ inductionHypothesis =>
      rcases List.mem_cons.1 member with rfl | later
      · rw [plain] at refers
        cases refers
      · exact List.mem_append_right _ (inductionHypothesis later)

end Context

/-! ## The pass inlines -/

variable {path visited pending members definitions : List NodeId} {task : GroupTask}
  {origin before after context : Context} {notes : List GroupNote} {root : NodeId}

/-- A node without references left among its children has what its first children became. -/
def Inlined (origin current : Context) : Prop :=
  ∀ id, origin.Plain (current.children id) →
    origin.Inlines (origin.children id) (current.children id)

/-- What comes out of a task is what its children become. -/
def GroupTask.Becomes (origin : Context) (members : List NodeId) : GroupTask → Prop
  | .node id => origin.Inlines (origin.children id) members
  | .children _ pending =>
      (∀ child ∈ pending, origin.Linkable child) → origin.Inlines pending members

theorem Context.ChildrenIn.children {inside : NodeId → Prop}
    (contained : context.ChildrenIn inside) (id : NodeId) :
    ∀ child ∈ context.children id, inside child := by
  intro child member
  cases found : context.element? id with
  | none =>
      rw [Context.children_of_undeclared found] at member
      cases member
  | some element =>
      rw [Context.children_of_element? found] at member
      exact contained id element found child member

theorem Expands.inlines
    (expands : Expands origin.elementGroups path task before notes members after)
    (contained : origin.ChildrenIn origin.Linkable) (expanding : Expanding origin before)
    (inlined : Inlined origin before) (inPath : path ≠ [] → origin.GroupPath path)
    (fits : task.Fits origin path) : Inlined origin after ∧ task.Becomes origin members := by
  induction expands with
  | flat plain => exact ⟨inlined, inlined _ (expanding.plain_iff.1 plain)⟩
  | @node path id context between element notes members found refers inside inductionHypothesis =>
      obtain ⟨inlinedBetween, becomes⟩ := inductionHypothesis expanding inlined inPath
        (expanding.fits_children found refers fits)
      have whole := expanding.children_eq found refers
      have linkable := contained.children id
      rw [← whole] at linkable
      have becomesNode : origin.Inlines (origin.children id) members := whole ▸ becomes linkable
      refine ⟨fun parent plain => ?_, becomesNode⟩
      rw [children_setChildren] at plain ⊢
      split at plain
      · rename_i isNode
        rw [if_pos isNode, isNode.1]
        exact becomesNode
      · rename_i elsewhere
        rw [if_neg elsewhere]
        exact inlinedBetween parent plain
  | done => exact ⟨inlined, fun _ => .done⟩
  | keep plain _ inductionHypothesis =>
      obtain ⟨inlinedAfter, rest⟩ := inductionHypothesis expanding inlined inPath fits.tail
      rw [expanding.references] at plain
      refine ⟨inlinedAfter, fun linkable => ?_⟩
      obtain ⟨firstLinkable, restLinkable⟩ := List.forall_mem_cons.1 linkable
      exact .keep (firstLinkable.not_isGroup plain) (rest restLinkable)
  | undefined refers absent _ inductionHypothesis =>
      obtain ⟨inlinedAfter, rest⟩ :=
        inductionHypothesis (expanding.warn _) inlined inPath fits.tail
      rw [expanding.references] at refers
      refine ⟨inlinedAfter, fun linkable => ?_⟩
      exact .undefined refers absent (rest (List.forall_mem_cons.1 linkable).2)
  | circular refers defined inside _ inductionHypothesis =>
      obtain ⟨inlinedAfter, rest⟩ :=
        inductionHypothesis (expanding.warn _) inlined inPath fits.tail
      rw [expanding.references] at refers
      refine ⟨inlinedAfter, fun linkable => ?_⟩
      have cycle := Context.GroupPath.cycle inPath fits refers defined inside
      exact .circular refers defined cycle (rest (List.forall_mem_cons.1 linkable).2)
  | nested refers defined new inner _ innerHypothesis restHypothesis =>
      have advanced := (inner.advances expanding).expanding
      rw [expanding.references] at refers
      obtain ⟨inlinedBetween, becomes⟩ := innerHypothesis expanding inlined
        (fun _ => groupPath_cons inPath fits refers defined new) (fits_head _ _)
      obtain ⟨inlinedAfter, rest⟩ := restHypothesis advanced inlinedBetween inPath fits.tail
      refine ⟨inlinedAfter, fun linkable => ?_⟩
      have block : origin.Inlines _ _ := becomes
      exact .splice refers defined block.not_isGroup block
        (rest (List.forall_mem_cons.1 linkable).2)

theorem ExpandsEach.inlines
    (expands : ExpandsEach origin.elementGroups definitions before notes after)
    (contained : origin.ChildrenIn origin.Linkable) (expanding : Expanding origin before)
    (inlined : Inlined origin before)
    (defined : ∀ definition ∈ definitions, definition ∈ groupDefinitions origin.elementGroups) :
    Inlined origin after := by
  induction expands with
  | done => exact inlined
  | @next definition _ _ _ _ _ _ _ first _ inductionHypothesis =>
      obtain ⟨isDefined, restDefined⟩ := List.forall_mem_cons.1 defined
      have between := (first.inlines contained expanding inlined (fun _ => .outermost isDefined)
        (fits_head definition [])).1
      exact inductionHypothesis (first.advances expanding).expanding between restDefined

theorem ExpandsBelow.inlines
    (expands : ExpandsBelow origin.elementGroups visited pending before notes after)
    (contained : origin.ChildrenIn origin.Linkable) (expanding : Expanding origin before)
    (inlined : Inlined origin before) : Inlined origin after := by
  have node : ∀ {id before members notes after},
      Expands origin.elementGroups [] (.node id) before notes members after →
      Expanding origin before → Inlined origin before → Inlined origin after := by
    intro id before members notes after expanded expanding inlined
    refine (expanded.inlines contained expanding inlined (fun outside => absurd rfl outside) ?_).1
    exact fun _ inside => by cases inside
  induction expands with
  | done => exact inlined
  | seen _ _ inductionHypothesis => exact inductionHypothesis expanding inlined
  | absent _ expanded _ _ inductionHypothesis | visit _ expanded _ _ inductionHypothesis =>
      exact inductionHypothesis (expanded.advances expanding).expanding
        (node expanded expanding inlined)

/-- After the pass the definitions and the nodes reached from the root have what their first children
became. -/
theorem ExpandsGroups.inlines (expands : ExpandsGroups root before notes after)
    (contained : before.ChildrenIn before.Linkable) :
    ∀ id, id ∈ groupDefinitions before.elementGroups ∨ after.arena.Reaches root id →
      before.Inlines (before.children id) (after.children id) := by
  obtain ⟨-, definitionsPlain, reachedPlain⟩ := expands.plain
  obtain ⟨between, early, late, rfl, each, below⟩ := expands
  have initially : Inlined before before := fun id plain =>
    .of_plain (contained.children id) plain
  have inlinedBetween := each.inlines contained (.refl before) initially fun _ member => member
  have inlined := below.inlines contained (each.advances (.refl before)).1 inlinedBetween
  rintro id (defined | reaches)
  · exact inlined id (definitionsPlain id defined)
  · exact inlined id (reachedPlain id reaches)

/-- When the expansion of groups goes through in a context into which documents were read, no
definition of a group and no node reached from the root has a child of the kind of a group, and the
children of each are its first ones with every reference replaced by a block without references.
Groups may refer to one another in cycles. -/
theorem inlines_of_session {options : Options} {roots : List NodeId}
    (session : Session options context roots) (expanded : expandGroups root context = .ok after) :
    ∀ id, id ∈ groupDefinitions context.elementGroups ∨ after.arena.Reaches root id →
      (∀ child ∈ after.children id, ∃ element, after.element? child = some element ∧
        element.kind ≠ .group) ∧
      context.Inlines (context.children id) (after.children id) := by
  have contained := session.consistent.children
  have containedAfter := childrenIn_expandGroups contained root
  have extension : Context.Extends context (endContext (expandGroups root context)) :=
    Context.extends_runPass root context .expandGroups
  rw [expanded] at containedAfter extension
  obtain ⟨notes, expands⟩ := exists_expandsGroups expanded
  intro id within
  have inlines := expands.inlines contained id within
  refine ⟨fun child isChild => ?_, inlines⟩
  obtain ⟨element, found, -⟩ := containedAfter.children id child isChild
  obtain ⟨later, present, same⟩ := extension.element? found
  refine ⟨later, present, fun isGroup => ?_⟩
  have kind : element.kind = .group := (Element.of_identity same).1.symm.trans isGroup
  exact inlines.not_isGroup child isChild ⟨element, found, kind⟩

/-- Two groups that refer to each other, each with an element, and a type that refers to one. -/
def mutualMemberSchema : Bytes :=
  schemaDocument [
    "<s:group name='A'><s:sequence><s:element name='x'/><s:group ref='B'/></s:sequence>",
    "</s:group><s:group name='B'><s:sequence><s:group ref='A'/><s:element name='y'/>",
    "</s:sequence></s:group><s:complexType name='T'><s:sequence><s:group ref='A'/>",
    "<s:element name='z'/></s:sequence></s:complexType>"]

/-- The reference inside the type is gone, though the groups refer to each other. -/
theorem inlines_of_session_mutual :
    ∃ (document : Bytes) (context after : Context) (root type reference other : NodeId),
      document = mutualMemberSchema ∧
      readTree (.initial .standard) document = .ok (context, root) ∧
      Session .standard context [root] ∧ expandGroups root context = .ok after ∧
      context.children root = [type] ∧ context.children type = [reference, other] ∧
      context.groupReference? reference = some "A" ∧
      (∀ child ∈ after.children type, ∃ element, after.element? child = some element ∧
        element.kind ≠ .group) ∧
      context.Inlines [reference, other] (after.children type) := by
  have computed : readsTree .standard mutualMemberSchema
      (fun context root => decide (groupDefinitions context.elementGroups = [⟨1⟩, ⟨4⟩] ∧
        context.children root = [⟨7⟩] ∧ context.groupReference? ⟨7⟩ = none ∧
        context.children ⟨7⟩ = [⟨8⟩, ⟨9⟩] ∧ context.groupReference? ⟨8⟩ = some "A" ∧
        context.options.limits.groupDepth = 100)) = true := by
    decide +kernel
  obtain ⟨context, root, read, checked⟩ := exists_of_readsTree computed
  obtain ⟨definitions, below, plain, inside, refers, limit⟩ := of_decide_eq_true checked
  have session : Session .standard context [root] := Session.start.read read
  obtain ⟨after, expanded⟩ := exists_expandGroups_of_few root (by
    rw [definitions, limit]
    decide)
  have outcome := inlines_of_session session expanded
  have kept : ⟨7⟩ ∈ after.children root := by
    obtain ⟨-, inlines⟩ := outcome root (.inr .root)
    exact inlines.mem_of_plain (below ▸ List.mem_singleton_self _) plain
  have reached := Context.reaches_of_mem_children .root kept
  obtain ⟨noGroup, inlines⟩ := outcome ⟨7⟩ (.inr reached)
  rw [inside] at inlines
  exact ⟨_, context, after, root, ⟨7⟩, ⟨8⟩, ⟨9⟩, rfl, read, session, expanded, below, inside, refers,
    noGroup, inlines⟩

end XmlSchema
