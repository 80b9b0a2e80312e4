import XmlSchema.Proofs.Groups.Cycles

/-!
# Expansion as flattening

What a list of handles means is a matter of the context with which the pass begins: a reference
stands for what the children of the definition mean, `Flattens`. Without cycles the pass leaves each
definition and each node below the root with what its children meant, although it writes into the
definitions as it goes and gives one child to several nodes. The meaning mentions no order, so the
order in which groups are declared makes no difference but for the numbers of the nodes:
`flattens_of_acyclic`.
-/

namespace XmlSchema

/-- What handles mean in a context: a reference without a definition means nothing, and one with a
definition means what the children of the definition mean. -/
inductive Flattens (context : Context) : (handles members : List NodeId) → Prop where
  | nil : Flattens context [] []
  | keep {child : NodeId} {pending members : List NodeId}
      (plain : context.groupReference? child = none) (rest : Flattens context pending members) :
      Flattens context (child :: pending) (child :: members)
  | drop {child : NodeId} {reference : String} {pending members : List NodeId}
      (refers : context.groupReference? child = some reference)
      (absent : groupDefinition? context.elementGroups reference = none)
      (rest : Flattens context pending members) : Flattens context (child :: pending) members
  | expand {child definition : NodeId} {reference : String} {pending members others : List NodeId}
      (refers : context.groupReference? child = some reference)
      (defined : groupDefinition? context.elementGroups reference = some definition)
      (inner : Flattens context (context.children definition) members)
      (rest : Flattens context pending others) :
      Flattens context (child :: pending) (members ++ others)

variable {path visited pending members handles : List NodeId} {task : GroupTask}
  {origin other before between after afterOther : Context} {notes : List GroupNote} {root : NodeId}

namespace Flattens

/-- Handles mean one thing at most. -/
theorem unique {left right : List NodeId} (first : Flattens origin handles left)
    (second : Flattens origin handles right) : left = right := by
  induction first generalizing right with
  | nil =>
      cases second
      rfl
  | keep plain _ inductionHypothesis =>
      cases second with
      | keep _ rest => rw [inductionHypothesis rest]
      | drop refers _ _ | expand refers _ _ _ =>
          rw [plain] at refers
          cases refers
  | drop refers absent _ inductionHypothesis =>
      cases second with
      | keep plain _ =>
          rw [plain] at refers
          cases refers
      | drop _ _ rest => exact inductionHypothesis rest
      | expand again defined _ _ =>
          cases refers.symm.trans again
          rw [absent] at defined
          cases defined
  | expand refers defined _ _ innerHypothesis restHypothesis =>
      cases second with
      | keep plain _ =>
          rw [plain] at refers
          cases refers
      | drop again absent _ =>
          cases refers.symm.trans again
          rw [absent] at defined
          cases defined
      | expand again found inner rest =>
          cases refers.symm.trans again
          cases defined.symm.trans found
          rw [innerHypothesis inner, restHypothesis rest]

theorem of_plain (plain : origin.Plain handles) : Flattens origin handles handles := by
  induction handles with
  | nil => exact .nil
  | cons child rest inductionHypothesis =>
      obtain ⟨first, others⟩ := List.forall_mem_cons.1 plain
      exact .keep first (inductionHypothesis others)

end Flattens

/-! ## The pass computes what handles mean -/

/-- A node without references left among its children has what its first children meant. -/
def Flattened (origin current : Context) : Prop :=
  ∀ id, origin.Plain (current.children id) → Flattens origin (origin.children id)
    (current.children id)

/-- What comes out of a task is what its children meant. -/
def GroupTask.Means (origin : Context) (members : List NodeId) : GroupTask → Prop
  | .node id => Flattens origin (origin.children id) members
  | .children _ pending => Flattens origin pending members

theorem Expands.flattens
    (expands : Expands origin.elementGroups path task before notes members after)
    (expanding : Expanding origin before) (flattened : Flattened origin before)
    (onward : ∀ note ∈ notes, note.2.kind ≠ .circularGroupReference) :
    Flattened origin after ∧ task.Means origin members := by
  induction expands with
  | flat plain => exact ⟨flattened, flattened _ (expanding.plain_iff.1 plain)⟩
  | @node path id context between element notes members found refers inside inductionHypothesis =>
      obtain ⟨flattenedBetween, means⟩ := inductionHypothesis expanding flattened onward
      have meansNode : Flattens origin (origin.children id) members :=
        expanding.children_eq found refers ▸ means
      refine ⟨fun parent plain => ?_, meansNode⟩
      rw [children_setChildren] at plain ⊢
      split at plain
      · rename_i isNode
        rw [if_pos isNode, isNode.1]
        exact meansNode
      · rename_i elsewhere
        rw [if_neg elsewhere]
        exact flattenedBetween parent plain
  | done => exact ⟨flattened, .nil⟩
  | keep plain _ inductionHypothesis =>
      obtain ⟨flattenedAfter, rest⟩ := inductionHypothesis expanding flattened onward
      rw [expanding.references] at plain
      exact ⟨flattenedAfter, .keep plain rest⟩
  | undefined refers absent _ inductionHypothesis =>
      obtain ⟨flattenedAfter, rest⟩ := inductionHypothesis (expanding.warn _) flattened
        fun note member => onward note (List.mem_cons_of_mem _ member)
      rw [expanding.references] at refers
      exact ⟨flattenedAfter, .drop refers absent rest⟩
  | circular _ _ _ _ _ => exact absurd rfl (onward _ (List.mem_cons_self ..))
  | nested refers defined _ inner _ innerHypothesis restHypothesis =>
      have advanced := (inner.advances expanding).expanding
      obtain ⟨onwardEarly, onwardLate⟩ := List.forall_mem_append.1 onward
      obtain ⟨flattenedBetween, means⟩ := innerHypothesis expanding flattened onwardEarly
      obtain ⟨flattenedAfter, rest⟩ := restHypothesis advanced flattenedBetween onwardLate
      rw [expanding.references] at refers
      exact ⟨flattenedAfter, .expand refers defined means rest⟩

theorem ExpandsGroups.flattens (expands : ExpandsGroups root before notes after)
    (acyclic : ¬ before.HasGroupCycle) :
    ∀ id, id ∈ groupDefinitions before.elementGroups ∨ after.arena.Reaches root id →
      Flattens before (before.children id) (after.children id) := by
  obtain ⟨-, definitionsPlain, reachedPlain⟩ := expands.plain
  have onward : ∀ note ∈ notes, note.2.kind ≠ .circularGroupReference :=
    fun note member isCircular => acyclic (expands.circular_iff.1 ⟨note, member, isCircular⟩)
  obtain ⟨between, early, late, rfl, each, below⟩ := expands
  obtain ⟨onwardEarly, onwardLate⟩ := List.forall_mem_append.1 onward
  have flattenedBetween : Flattened before between :=
    each.keeps (fun note => note.2.kind ≠ .circularGroupReference) (Flattened before)
      (fun first expanding onward flattened => (first.flattens expanding flattened onward).1)
      (.refl before) onwardEarly fun id plain => .of_plain plain
  have flattened : Flattened before after :=
    below.keeps (fun note => note.2.kind ≠ .circularGroupReference) (Flattened before)
      (fun first expanding onward flattened => (first.flattens expanding flattened onward).1)
      (each.advances (.refl before)).1 onwardLate flattenedBetween
  rintro id (defined | reaches)
  · exact flattened id (definitionsPlain id defined)
  · exact flattened id (reachedPlain id reaches)

/-! ## Other orders -/

/-- The same tree and the same groups under other numbers, the groups in any order. -/
structure Context.Renumbers (renumber : NodeId → NodeId) (origin other : Context) : Prop where
  injective : Function.Injective renumber
  references : ∀ id, other.groupReference? (renumber id) = origin.groupReference? id
  children : ∀ id, other.children (renumber id) = (origin.children id).map renumber
  found : ∀ reference, groupDefinition? other.elementGroups reference =
    (groupDefinition? origin.elementGroups reference).map renumber
  definitions : (groupDefinitions other.elementGroups).Perm
    ((groupDefinitions origin.elementGroups).map renumber)

namespace Context.Renumbers

variable {renumber : NodeId → NodeId}

theorem flattens (renumbers : Renumbers renumber origin other)
    (flattens : Flattens origin handles members) :
    Flattens other (handles.map renumber) (members.map renumber) := by
  induction flattens with
  | nil => exact .nil
  | keep plain _ inductionHypothesis =>
      rw [← renumbers.references] at plain
      exact .keep plain inductionHypothesis
  | drop refers absent _ inductionHypothesis =>
      rw [← renumbers.references] at refers
      refine .drop refers ?_ inductionHypothesis
      rw [renumbers.found, absent]
      rfl
  | @expand child definition reference pending members others refers defined _ _ innerHypothesis
      restHypothesis =>
      rw [← renumbers.references] at refers
      have definedOther : groupDefinition? other.elementGroups reference =
          some (renumber definition) := by
        rw [renumbers.found, defined]
        rfl
      rw [List.map_append]
      refine .expand refers definedOther ?_ restHypothesis
      rw [renumbers.children]
      exact innerHypothesis

/-- Groups entered in another order. -/
theorem of_perm {groups : Table ElementGroup}
    (perm : groups.entries.Perm origin.elementGroups.entries) :
    origin.Renumbers id { origin with elementGroups := groups } where
  injective := Function.injective_id
  references _ := rfl
  children _ := (List.map_id _).symm
  found reference := by
    show groupDefinition? groups reference = _
    unfold groupDefinition?
    rw [Table.find?_eq_of_perm perm, Table.find?_eq_of_perm perm, Option.map_id, id]
  definitions := by
    rw [List.map_id]
    exact (perm.map Prod.snd).map ElementGroup.definition

/-- Where a definition leads under other numbers, it leads in the beginning. -/
theorem exists_refersTo (renumbers : Renumbers renumber origin other) {definition next : NodeId}
    (defined : definition ∈ groupDefinitions origin.elementGroups)
    (refersTo : other.RefersTo (renumber definition) next) :
    ∃ following ∈ groupDefinitions origin.elementGroups, next = renumber following ∧
      origin.RefersTo definition following := by
  obtain ⟨-, child, member, reference, refers, found⟩ := refersTo
  rw [renumbers.children] at member
  obtain ⟨original, memberOriginal, rfl⟩ := List.mem_map.1 member
  rw [renumbers.references] at refers
  rw [renumbers.found] at found
  obtain ⟨following, foundOriginal, rfl⟩ := Option.map_eq_some_iff.1 found
  exact ⟨following, mem_groupDefinitions foundOriginal, rfl, defined, original, memberOriginal,
    reference, refers, foundOriginal⟩

theorem acyclic (renumbers : Renumbers renumber origin other) (acyclic : ¬ origin.HasGroupCycle) :
    ¬ other.HasGroupCycle := by
  rintro ⟨start, cycle⟩
  obtain ⟨next, ⟨defined, -⟩, -⟩ := Relation.TransGen.head'_iff.1 cycle
  obtain ⟨first, isDefined, rfl⟩ := List.mem_map.1 (renumbers.definitions.mem_iff.1 defined)
  have leads : ∀ last, Relation.TransGen other.RefersTo (renumber first) last →
      ∃ ending ∈ groupDefinitions origin.elementGroups, last = renumber ending ∧
        Relation.TransGen origin.RefersTo first ending := by
    intro last onward
    induction onward with
    | single refersTo =>
        obtain ⟨following, endDefined, rfl, refers⟩ := renumbers.exists_refersTo isDefined refersTo
        exact ⟨following, endDefined, rfl, .single refers⟩
    | tail _ refersTo inductionHypothesis =>
        obtain ⟨ending, endingDefined, rfl, leads⟩ := inductionHypothesis
        obtain ⟨following, endDefined, rfl, refers⟩ :=
          renumbers.exists_refersTo endingDefined refersTo
        exact ⟨following, endDefined, rfl, leads.tail refers⟩
  obtain ⟨ending, -, same, around⟩ := leads _ cycle
  cases renumbers.injective same
  exact acyclic ⟨first, around⟩

/-- What is expanded in the beginning has the same children under other numbers. -/
theorem children_expandGroups (renumbers : Renumbers renumber origin other)
    (acyclic : ¬ origin.HasGroupCycle) (expanded : expandGroups root origin = .ok after)
    (expandedOther : expandGroups (renumber root) other = .ok afterOther) :
    ∀ id, id ∈ groupDefinitions origin.elementGroups ∨ after.arena.Reaches root id →
      afterOther.children (renumber id) = (after.children id).map renumber := by
  obtain ⟨notes, expands⟩ := exists_expandsGroups expanded
  obtain ⟨otherNotes, expandsOther⟩ := exists_expandsGroups expandedOther
  have flattened := expands.flattens acyclic
  have flattenedOther := expandsOther.flattens (renumbers.acyclic acyclic)
  -- Both mean what the first children meant.
  have same : ∀ id, id ∈ groupDefinitions origin.elementGroups ∨ after.arena.Reaches root id →
      renumber id ∈ groupDefinitions other.elementGroups ∨
        afterOther.arena.Reaches (renumber root) (renumber id) →
      afterOther.children (renumber id) = (after.children id).map renumber := by
    intro id inFirst inOther
    have means := renumbers.flattens (flattened id inFirst)
    rw [← renumbers.children] at means
    exact (flattenedOther (renumber id) inOther).unique means
  rintro id (defined | reaches)
  · exact same id (.inl defined)
      (.inl (renumbers.definitions.mem_iff.2 (List.mem_map_of_mem defined)))
  · refine same id (.inr reaches) (.inr ?_)
    induction reaches with
    | root => exact .root
    | @child parent child element reached found member inductionHypothesis =>
        have children := same parent (.inr reached) (.inr inductionHypothesis)
        have inside : renumber child ∈ afterOther.children (renumber parent) := by
          rw [children, Context.children_of_element? found]
          exact List.mem_map_of_mem member
        exact Context.reaches_of_mem_children inductionHypothesis inside

end Context.Renumbers

/-- Where groups refer to one another in no cycle: unless they are nested deeper than the limit the
pass goes through, and whenever it goes through, the definitions and all nodes below the root have
the children that their first children meant, whatever the order of the groups. -/
theorem flattens_of_acyclic {context : Context} (root : NodeId)
    (acyclic : ¬ context.HasGroupCycle) :
    ((∀ path, context.GroupPath path → path.length ≤ context.options.limits.groupDepth) →
        ∃ after, expandGroups root context = .ok after) ∧
      ∀ after, expandGroups root context = .ok after → ∀ id,
        id ∈ groupDefinitions context.elementGroups ∨ after.arena.Reaches root id →
          (∀ members, Flattens context (context.children id) members ↔
            members = after.children id) ∧
          ∀ renumber other afterOther, context.Renumbers renumber other →
            expandGroups (renumber root) other = .ok afterOther →
            afterOther.children (renumber id) = (after.children id).map renumber := by
  constructor
  · intro shallow
    cases expanded : expandGroups root context with
    | error halt =>
        obtain ⟨path, inPath, tooLong, -⟩ := exceeds_of_expandGroups expanded
        exact absurd (shallow path inPath) (Nat.not_le_of_lt tooLong)
    | ok after => exact ⟨after, rfl⟩
  · intro after expanded id inside
    obtain ⟨notes, expands⟩ := exists_expandsGroups expanded
    have means := expands.flattens acyclic id inside
    refine ⟨fun members => ⟨fun flattens => flattens.unique means, fun same => same ▸ means⟩, ?_⟩
    intro renumber other afterOther renumbers expandedOther
    exact renumbers.children_expandGroups acyclic expanded expandedOther id inside

/-- Two groups that refer to one and the same, and a group that refers to both. -/
def diamondGroupSchema : Bytes :=
  schemaDocument [
    "<s:group name='A'><s:sequence><s:group ref='B'/><s:group ref='C'/></s:sequence></s:group>",
    "<s:group name='B'><s:sequence><s:group ref='D'/></s:sequence></s:group>",
    "<s:group name='C'><s:sequence><s:group ref='D'/></s:sequence></s:group>",
    "<s:group name='D'><s:sequence><s:element name='d'/></s:sequence></s:group>"]

/-- The group at the top has the member of the one at the bottom twice, in whatever order the groups
are expanded. -/
theorem flattens_of_acyclic_diamond :
    ∃ (document : Bytes) (context after afterOther : Context) (root top member : NodeId)
      (groups : Table ElementGroup),
      document = diamondGroupSchema ∧
      readTree (.initial .standard) document = .ok (context, root) ∧ ¬ context.HasGroupCycle ∧
      groups.entries = context.elementGroups.entries.reverse ∧
      expandGroups root context = .ok after ∧
      expandGroups root { context with elementGroups := groups } = .ok afterOther ∧
      groupDefinition? context.elementGroups "A" = some top ∧
      (context.children top).map context.groupReference? = [some "B", some "C"] ∧
      context.groupReference? member = none ∧ after.children top = [member, member] ∧
      afterOther.children top = [member, member] := by
  have computed : readsTree .standard diamondGroupSchema
      (fun context _ => decide (groupDefinitions context.elementGroups = [⟨1⟩, ⟨4⟩, ⟨6⟩, ⟨8⟩] ∧
        context.children ⟨1⟩ = [⟨2⟩, ⟨3⟩] ∧ context.children ⟨4⟩ = [⟨5⟩] ∧
        context.children ⟨6⟩ = [⟨7⟩] ∧ context.children ⟨8⟩ = [⟨9⟩] ∧
        context.groupReference? ⟨2⟩ = some "B" ∧ context.groupReference? ⟨3⟩ = some "C" ∧
        context.groupReference? ⟨5⟩ = some "D" ∧ context.groupReference? ⟨7⟩ = some "D" ∧
        context.groupReference? ⟨9⟩ = none ∧
        groupDefinition? context.elementGroups "A" = some ⟨1⟩ ∧
        groupDefinition? context.elementGroups "B" = some ⟨4⟩ ∧
        groupDefinition? context.elementGroups "C" = some ⟨6⟩ ∧
        groupDefinition? context.elementGroups "D" = some ⟨8⟩ ∧
        (∀ definition ∈ groupDefinitions context.elementGroups,
          ∀ child ∈ context.children definition, ∀ reference ∈ context.groupReference? child,
            ∀ other ∈ groupDefinition? context.elementGroups reference,
              definition.index < other.index) ∧
        context.options.limits.groupDepth = 100)) = true := by
    decide +kernel
  obtain ⟨context, root, read, checked⟩ := exists_of_readsTree computed
  obtain ⟨definitions, inA, inB, inC, inD, toB, toC, fromB, fromC, plain, isA, isB, isC, isD,
    forward, limit⟩ := of_decide_eq_true checked
  have acyclic : ¬ context.HasGroupCycle := by
    apply Context.not_hasGroupCycle_of_lt
    rintro definition next ⟨defined, child, member, reference, refers, found⟩
    exact forward definition defined child member reference refers next found
  obtain ⟨-, flattens⟩ := flattens_of_acyclic root acyclic
  obtain ⟨after, expanded⟩ := exists_expandGroups_of_few root (by
    rw [definitions, limit]
    decide)
  obtain ⟨means, inOtherOrder⟩ := flattens after expanded ⟨1⟩ (.inl (by rw [definitions]; decide))
  have single : Flattens context (context.children ⟨8⟩) [⟨9⟩] := by
    rw [inD]
    exact .keep plain .nil
  have left : Flattens context (context.children ⟨4⟩) [⟨9⟩] := by
    rw [inB]
    exact .expand fromB isD single .nil
  have right : Flattens context (context.children ⟨6⟩) [⟨9⟩] := by
    rw [inC]
    exact .expand fromC isD single .nil
  have both : Flattens context (context.children ⟨1⟩) [⟨9⟩, ⟨9⟩] := by
    rw [inA]
    exact .expand toB isB left (.expand toC isC right .nil)
  have result : after.children ⟨1⟩ = [⟨9⟩, ⟨9⟩] := ((means _).1 both).symm
  obtain ⟨groups, reversed⟩ : ∃ groups : Table ElementGroup,
      groups.entries = context.elementGroups.entries.reverse :=
    ⟨⟨context.elementGroups.entries.reverse, by
      rw [List.map_reverse]
      exact (List.reverse_perm _).nodup_iff.2 context.elementGroups.nodup_keys⟩, rfl⟩
  have renumbers : context.Renumbers id { context with elementGroups := groups } :=
    .of_perm (reversed ▸ List.reverse_perm _)
  have fewOther : (groupDefinitions groups).length ≤ context.options.limits.groupDepth := by
    rw [renumbers.definitions.length_eq, definitions, limit]
    decide
  obtain ⟨afterOther, expandedOther⟩ : ∃ afterOther,
      expandGroups root { context with elementGroups := groups } = .ok afterOther :=
    exists_expandGroups_of_few root fewOther
  have resultOther := inOtherOrder id _ afterOther renumbers expandedOther
  rw [List.map_id, result] at resultOther
  have references : (context.children ⟨1⟩).map context.groupReference? = [some "B", some "C"] := by
    rw [inA, List.map_cons, List.map_singleton, toB, toC]
  exact ⟨_, context, after, afterOther, root, ⟨1⟩, ⟨9⟩, groups, rfl, read, acyclic, reversed,
    expanded, expandedOther, isA, references, plain, result, resultOther⟩

end XmlSchema
