import XmlSchema.Proofs.Groups.Nesting

/-!
# What the pass warns about

Every warning of the pass is about one reference among the children of a node: it leads to no
definition, or to one inside which the expansion already is. After the warning the reference is no
longer among the children of that node, and since no node has two parents, none gives rise to a
second warning: `ExpandsGroups.accounts`.
-/

namespace XmlSchema

/-- A warning is about a reference among the children of a node. -/
def Context.Explains (context : Context) (parent : NodeId) (note : GroupNote) : Prop :=
  ∃ element reference, context.element? parent = some element ∧ note.1 ∈ element.children ∧
    context.groupReference? note.1 = some reference ∧
    (groupDefinition? context.elementGroups reference = none ∧
        note.2 = .undefinedGroup reference element.name ∨
      ∃ definition, groupDefinition? context.elementGroups reference = some definition ∧
        note.2 = .circularGroup reference element.name)

/-- Between two contexts the references among the children of a node went away, with a warning about
one of them. -/
structure Settles (origin before after : Context) (parent : NodeId) (note : GroupNote) :
    Prop where
  explains : origin.Explains parent note
  unsettled : ¬ origin.Plain (before.children parent)
  settled : origin.Plain (after.children parent)

/-- Between two contexts there were warnings about different references, all of which went away. -/
structure Accounts (origin before : Context) (notes : List GroupNote) (after : Context) :
    Prop where
  nodup : (notes.map Prod.fst).Nodup
  settles : ∀ note ∈ notes, ∃ parent, Settles origin before after parent note

variable {path visited pending members : List NodeId} {task : GroupTask}
  {origin before between after : Context} {notes early late : List GroupNote}

theorem Context.Explains.mem_children {parent : NodeId} {note : GroupNote}
    (explains : origin.Explains parent note) : note.1 ∈ origin.children parent := by
  obtain ⟨element, reference, found, member, -⟩ := explains
  exact (Context.children_of_element? found).symm ▸ member

theorem Context.Explains.parent_eq {left right : NodeId} {note other : GroupNote}
    (branching : origin.Branching) (explains : origin.Explains left note)
    (again : origin.Explains right other) (same : note.1 = other.1) : left = right :=
  branching.unique explains.mem_children (same ▸ again.mem_children)

namespace Settles

variable {parent : NodeId} {note : GroupNote}

theorem earlier (settles : Settles origin between after parent note)
    (kept : ∀ id, origin.Plain (before.children id) → between.children id = before.children id) :
    Settles origin before after parent note :=
  ⟨settles.explains, fun plain => settles.unsettled (kept parent plain ▸ plain), settles.settled⟩

theorem later (settles : Settles origin before between parent note)
    (kept : ∀ id, origin.Plain (between.children id) → after.children id = between.children id) :
    Settles origin before after parent note :=
  ⟨settles.explains, settles.unsettled, by
    rw [kept parent settles.settled]
    exact settles.settled⟩

end Settles

namespace Accounts

theorem nil : Accounts origin before [] after :=
  ⟨List.nodup_nil, fun _ member => absurd member List.not_mem_nil⟩

/-- What has been settled gives rise to no warning later on. -/
theorem append (branching : origin.Branching) (first : Accounts origin before early between)
    (second : Accounts origin between late after)
    (keptFirst : ∀ id, origin.Plain (before.children id) →
      between.children id = before.children id)
    (keptSecond : ∀ id, origin.Plain (between.children id) →
      after.children id = between.children id) :
    Accounts origin before (early ++ late) after where
  nodup := by
    rw [List.map_append]
    refine List.nodup_append.2 ⟨first.nodup, second.nodup, ?_⟩
    intro child inEarly other inLate same
    obtain ⟨note, member, rfl⟩ := List.mem_map.1 inEarly
    obtain ⟨again, memberLate, rfl⟩ := List.mem_map.1 inLate
    obtain ⟨parent, settles⟩ := first.settles note member
    obtain ⟨parentLate, settlesLate⟩ := second.settles again memberLate
    cases settles.explains.parent_eq branching settlesLate.explains same
    exact settlesLate.unsettled settles.settled
  settles note member := by
    rcases List.mem_append.1 member with inEarly | inLate
    · obtain ⟨parent, settles⟩ := first.settles note inEarly
      exact ⟨parent, settles.later keptSecond⟩
    · obtain ⟨parent, settles⟩ := second.settles note inLate
      exact ⟨parent, settles.earlier keptFirst⟩

end Accounts

/-! ## One task -/

/-- The task is to expand the children of this node, which is no definition unless the expansion is
inside it. -/
def GroupTask.Stands (origin before : Context) (path : List NodeId) (home : NodeId) :
    GroupTask → Prop
  | .node id => home = id ∧ (home ∈ groupDefinitions origin.elementGroups →
      home ∈ path ∨ origin.Plain (before.children home))
  | .children owner pending => pending.Nodup ∧
      (home ∈ groupDefinitions origin.elementGroups → home ∈ path) ∧
      ∃ element, origin.element? home = some element ∧ element.name = owner ∧
        ∀ child ∈ pending, child ∈ element.children

/-- A node among those of which the task consists. -/
def GroupTask.Holds (child : NodeId) : GroupTask → Prop
  | .node _ => True
  | .children _ pending => child ∈ pending

/-- The warnings of a task are about its own children or about those of definitions inside which the
expansion is not yet. -/
def GroupTask.Accounts (origin before : Context) (path : List NodeId) (home : NodeId)
    (notes : List GroupNote) (after : Context) (task : GroupTask) : Prop :=
  (notes.map Prod.fst).Nodup ∧ ∀ note ∈ notes,
    origin.Explains home note ∧ task.Holds note.1 ∨
      ∃ parent ∈ groupDefinitions origin.elementGroups, parent ∉ path ∧
        Settles origin before after parent note

section Task

variable {home child : NodeId} {owner reference : String}

theorem GroupTask.Stands.tail
    (stands : (GroupTask.children owner (child :: pending)).Stands origin before path home) :
    (GroupTask.children owner pending).Stands origin after path home := by
  obtain ⟨nodup, inPath, element, found, named, inside⟩ := stands
  exact ⟨nodup.of_cons, inPath, element, found, named, (List.forall_mem_cons.1 inside).2⟩

/-- Without warnings about the first child, its being there makes no difference. -/
theorem GroupTask.Accounts.cons
    (accounts : (GroupTask.children owner pending).Accounts origin before path home notes after) :
    (GroupTask.children owner (child :: pending)).Accounts origin before path home notes after := by
  refine ⟨accounts.1, fun note member => ?_⟩
  rcases accounts.2 note member with ⟨explains, own⟩ | inside
  · exact .inl ⟨explains, List.mem_cons_of_mem _ own⟩
  · exact .inr inside

theorem GroupTask.Accounts.of_warn {warning : Warning}
    (accounts : task.Accounts origin (before.warn warning) path home notes after) :
    task.Accounts origin before path home notes after := by
  refine ⟨accounts.1, fun note member => (accounts.2 note member).imp_right ?_⟩
  rintro ⟨parent, defined, outside, settles⟩
  exact ⟨parent, defined, outside, settles.earlier fun _ _ => rfl⟩

/-- A warning about the first child is not repeated by the rest of the task. -/
theorem GroupTask.Accounts.cons_note (branching : origin.Branching) {warning : Warning}
    (stands : (GroupTask.children owner (child :: pending)).Stands origin before path home)
    (refers : origin.groupReference? child = some reference)
    (reason : groupDefinition? origin.elementGroups reference = none ∧
        warning = .undefinedGroup reference owner ∨
      ∃ definition, groupDefinition? origin.elementGroups reference = some definition ∧
        warning = .circularGroup reference owner)
    (accounts : (GroupTask.children owner pending).Accounts origin before path home notes after) :
    (GroupTask.children owner (child :: pending)).Accounts origin before path home
      ((child, warning) :: notes) after := by
  obtain ⟨nodup, inPath, element, found, rfl, inside⟩ := stands
  have explains : origin.Explains home (child, warning) :=
    ⟨element, reference, found, inside child (List.mem_cons_self ..), refers, reason⟩
  refine ⟨List.nodup_cons.2 ⟨fun again => ?_, accounts.1⟩, List.forall_mem_cons.2
    ⟨.inl ⟨explains, List.mem_cons_self ..⟩, accounts.cons.2⟩⟩
  obtain ⟨note, member, same⟩ := List.mem_map.1 again
  rcases accounts.2 note member with ⟨-, own⟩ | ⟨parent, defined, outside, settles⟩
  · have own : note.1 ∈ pending := own
    rw [same] at own
    exact (List.nodup_cons.1 nodup).1 own
  · cases settles.explains.parent_eq branching explains same
    exact outside (inPath defined)

theorem Expands.unsettled {id : NodeId} {groups : Table ElementGroup}
    (expands : Expands groups path (.node id) before notes members after)
    (expanding : Expanding origin before) {note : GroupNote} (member : note ∈ notes) :
    ¬ origin.Plain (before.children id) := by
  cases expands with
  | flat _ => cases member
  | node found refers _ =>
      rw [Context.children_of_element? found]
      exact expanding.not_plain refers

/-- The warnings of the expansion of a node are about its own children or about those of definitions
inside which the expansion is not yet, and these are settled. -/
theorem GroupTask.Accounts.of_node {id : NodeId} {groups : Table ElementGroup}
    (accounts : (GroupTask.node id).Accounts origin before path id notes after)
    (expands : Expands groups path (.node id) before notes members after)
    (expanding : Expanding origin before) :
    ∀ note ∈ notes, ∃ parent, Settles origin before after parent note ∧
      (parent = id ∨ parent ∈ groupDefinitions origin.elementGroups ∧ parent ∉ path) := by
  have advances := expands.advances expanding
  intro note member
  rcases accounts.2 note member with ⟨explains, -⟩ | ⟨parent, defined, outside, settles⟩
  · refine ⟨id, ⟨explains, expands.unsettled expanding member, ?_⟩, .inl rfl⟩
    rw [advances.result id rfl]
    exact advances.plain
  · exact ⟨parent, settles, .inr ⟨defined, outside⟩⟩

/-- Where a node has references among its children, these make up a task inside the path. -/
theorem GroupTask.Stands.inside (branching : origin.Branching) {id : NodeId} {element : Element}
    (stands : (GroupTask.node id).Stands origin before path home)
    (expanding : Expanding origin before) (found : before.element? id = some element)
    (refers : ∃ child ∈ element.children, before.groupReference? child ≠ none) :
    (GroupTask.children element.name element.children).Stands origin before path home := by
  obtain ⟨rfl, inPath⟩ := stands
  have unsettled : ¬ origin.Plain (before.children home) := by
    rw [Context.children_of_element? found]
    exact expanding.not_plain refers
  have same := expanding.children_eq found refers
  have named := expanding.names home
  rw [found] at named
  obtain ⟨original, present, sameName⟩ := Option.map_eq_some_iff.1 named.symm
  refine ⟨same ▸ branching.nodup home, fun defined => (inPath defined).resolve_right unsettled,
    original, present, sameName, fun child member => ?_⟩
  rw [← Context.children_of_element? present, ← same]
  exact member

theorem GroupTask.Accounts.of_children {id : NodeId}
    (accounts : (GroupTask.children owner pending).Accounts origin before path home notes between)
    (plain : origin.Plain members) :
    (GroupTask.node id).Accounts origin before path home notes
      (between.modifyElement id ({ · with children := members })) := by
  obtain ⟨nodup, accounts⟩ := accounts
  refine ⟨nodup, fun note member => ?_⟩
  rcases accounts note member with ⟨explains, -⟩ | ⟨parent, defined, outside, settles⟩
  · exact .inl ⟨explains, trivial⟩
  · refine .inr ⟨parent, defined, outside, settles.explains, settles.unsettled, ?_⟩
    rw [children_setChildren]
    split
    · exact plain
    · exact settles.settled

/-- The expansion of a definition outside the path settles definitions outside the path, and the
rest of the task comes back to none of them. -/
theorem GroupTask.Accounts.nested (branching : origin.Branching) {definition : NodeId}
    (stands : (GroupTask.children owner (child :: pending)).Stands origin before path home)
    (defined : definition ∈ groupDefinitions origin.elementGroups) (new : definition ∉ path)
    (inner : Expands origin.elementGroups (definition :: path) (.node definition) before early
      members between)
    (innerAccounts : (GroupTask.node definition).Accounts origin before (definition :: path)
      definition early between)
    (restAccounts : (GroupTask.children owner pending).Accounts origin between path home late after)
    (expanding : Expanding origin before)
    (kept : ∀ id, origin.Plain (between.children id) → after.children id = between.children id) :
    (GroupTask.children owner (child :: pending)).Accounts origin before path home (early ++ late)
      after := by
  have settledInside : ∀ note ∈ early, ∃ parent ∈ groupDefinitions origin.elementGroups,
      parent ∉ path ∧ Settles origin before between parent note := by
    intro note member
    obtain ⟨parent, settles, rfl | ⟨isDefined, outside⟩⟩ :=
      innerAccounts.of_node inner expanding note member
    · exact ⟨parent, defined, new, settles⟩
    · exact ⟨parent, isDefined, fun inPath => outside (List.mem_cons_of_mem _ inPath), settles⟩
  refine ⟨?_, fun note member => ?_⟩
  · rw [List.map_append]
    refine List.nodup_append.2 ⟨innerAccounts.1, restAccounts.1, ?_⟩
    intro _ inEarly _ inLate same
    obtain ⟨note, member, rfl⟩ := List.mem_map.1 inEarly
    obtain ⟨again, memberLate, rfl⟩ := List.mem_map.1 inLate
    obtain ⟨parent, isDefined, outside, settles⟩ := settledInside note member
    rcases restAccounts.2 again memberLate with ⟨explains, -⟩ | ⟨_, -, -, settlesLate⟩
    · cases settles.explains.parent_eq branching explains same
      exact outside (stands.2.1 isDefined)
    · cases settles.explains.parent_eq branching settlesLate.explains same
      exact settlesLate.unsettled settles.settled
  · rcases List.mem_append.1 member with inEarly | inLate
    · obtain ⟨parent, isDefined, outside, settles⟩ := settledInside note inEarly
      exact .inr ⟨parent, isDefined, outside, settles.later kept⟩
    · rcases restAccounts.cons.2 note inLate with own | ⟨parent, isDefined, outside, settles⟩
      · exact .inl own
      · have settled := (inner.advances expanding).settled
        exact .inr ⟨parent, isDefined, outside, settles.earlier settled⟩

theorem Expands.accounts (branching : origin.Branching)
    (expands : Expands origin.elementGroups path task before notes members after)
    (expanding : Expanding origin before) (stands : task.Stands origin before path home) :
    task.Accounts origin before path home notes after := by
  induction expands generalizing home with
  | flat _ => exact ⟨List.nodup_nil, fun _ member => absurd member List.not_mem_nil⟩
  | node found refers inside inductionHypothesis =>
      have accounts :=
        inductionHypothesis expanding (stands.inside branching expanding found refers)
      exact accounts.of_children (inside.advances expanding).plain
  | done => exact ⟨List.nodup_nil, fun _ member => absurd member List.not_mem_nil⟩
  | keep _ _ inductionHypothesis => exact (inductionHypothesis expanding stands.tail).cons
  | undefined refers absent _ inductionHypothesis =>
      rw [expanding.references] at refers
      have accounts := inductionHypothesis (expanding.warn _) stands.tail
      exact accounts.of_warn.cons_note branching stands refers (.inl ⟨absent, rfl⟩)
  | circular refers defined _ _ inductionHypothesis =>
      rw [expanding.references] at refers
      have accounts := inductionHypothesis (expanding.warn _) stands.tail
      exact accounts.of_warn.cons_note branching stands refers (.inr ⟨_, defined, rfl⟩)
  | nested refers defined new inner rest innerHypothesis restHypothesis =>
      have advances := inner.advances expanding
      have innerAccounts := innerHypothesis expanding ⟨rfl, fun _ => .inl (List.mem_cons_self ..)⟩
      have restAccounts := restHypothesis advances.expanding stands.tail
      exact innerAccounts.nested branching stands (mem_groupDefinitions defined) new inner
        restAccounts expanding (rest.advances advances.expanding).settled

end Task

/-! ## The whole pass -/

theorem Expands.accounts_node (branching : origin.Branching) {id : NodeId}
    (expands : Expands origin.elementGroups path (.node id) before notes members after)
    (expanding : Expanding origin before)
    (stands : (GroupTask.node id).Stands origin before path id) :
    Accounts origin before notes after := by
  have accounts := expands.accounts branching expanding stands
  refine ⟨accounts.1, fun note member => ?_⟩
  obtain ⟨parent, settles, -⟩ := accounts.of_node expands expanding note member
  exact ⟨parent, settles⟩

theorem ExpandsEach.accounts (branching : origin.Branching) {definitions : List NodeId}
    (expands : ExpandsEach origin.elementGroups definitions before notes after)
    (expanding : Expanding origin before) : Accounts origin before notes after := by
  induction expands with
  | done => exact .nil
  | next first others inductionHypothesis =>
      have advances := first.advances expanding
      have accounts := first.accounts_node branching expanding
        ⟨rfl, fun _ => .inl (List.mem_singleton_self _)⟩
      exact accounts.append branching (inductionHypothesis advances.expanding) advances.settled
        (others.advances advances.expanding).2.1

theorem ExpandsBelow.accounts (branching : origin.Branching)
    (expands : ExpandsBelow origin.elementGroups visited pending before notes after)
    (expanding : Expanding origin before)
    (definitionsPlain : ∀ definition ∈ groupDefinitions origin.elementGroups,
      origin.Plain (before.children definition)) : Accounts origin before notes after := by
  induction expands with
  | done => exact .nil
  | seen _ _ inductionHypothesis => exact inductionHypothesis expanding definitionsPlain
  | absent _ expanded _ rest inductionHypothesis | visit _ expanded _ rest inductionHypothesis =>
      have advances := expanded.advances expanding
      have accounts := expanded.accounts_node branching expanding
        ⟨rfl, fun defined => .inr (definitionsPlain _ defined)⟩
      refine accounts.append branching (inductionHypothesis advances.expanding ?_) advances.settled
        (rest.advances advances.expanding).2.1
      intro definition defined
      rw [advances.settled definition (definitionsPlain definition defined)]
      exact definitionsPlain definition defined

/-- The warnings of the pass are about different references. -/
theorem ExpandsGroups.accounts {root : NodeId} (branching : before.Branching)
    (expands : ExpandsGroups root before notes after) : Accounts before before notes after := by
  obtain ⟨between, early, late, rfl, each, below⟩ := expands
  obtain ⟨expanding, settled, definitionsPlain⟩ := each.advances (.refl before)
  exact (each.accounts branching (.refl before)).append branching
    (below.accounts branching expanding definitionsPlain) settled (below.advances expanding).2.1

end XmlSchema
