import Mathlib.Logic.Relation
import XmlSchema.Proofs.Completion
import XmlSchema.Proofs.Consistency.Keys
import XmlSchema.Proofs.FlatTrees

/-!
# What attribute groups contribute

A declaration has the attributes of all groups that are reached from its references: `Gathers` says
what a merge is in terms of the groups alone, and `gathers_mergeGroups` that every merge is that. A
merge remembers only the groups inside which it is, not those with which it has finished. It misses
nothing all the same, since a way that comes back to a group can be cut short there,
`MeetsOutside.shortcut`; and where nothing comes back, the groups are well founded,
`exists_circular_of_not_acc`.
-/

namespace XmlSchema

namespace Table

variable {α : Type} {table other : Table α} {key : String}

theorem mem_keys_insert {entered : String} {value : α} :
    key ∈ (table.insert entered value).keys ↔ key ∈ table.keys ∨ key = entered := by
  rw [← contains_iff_mem_keys, ← contains_iff_mem_keys]
  unfold contains
  rw [find?_insert]
  split
  · rename_i same
    simp [same]
  · rename_i different
    simp [different]

theorem mem_keys_insertAll :
    key ∈ (table.insertAll other).keys ↔ key ∈ table.keys ∨ key ∈ other.keys := by
  have inserted : ∀ (entries : List (String × α)) (table : Table α),
      key ∈ (entries.foldl (fun extended entry => extended.insert entry.1 entry.2) table).keys ↔
        key ∈ table.keys ∨ key ∈ entries.map Prod.fst := by
    intro entries
    induction entries with
    | nil => simp
    | cons entry rest inductionHypothesis =>
        intro table
        rw [List.foldl_cons, inductionHypothesis, mem_keys_insert, List.map_cons, List.mem_cons,
          or_assoc]
  exact inserted other.entries table

theorem isEmpty_eq_false_iff : table.isEmpty = false ↔ ∃ key, key ∈ table.keys := by
  unfold isEmpty keys
  cases table.entries with
  | nil => simp
  | cons entry rest => exact ⟨fun _ => ⟨entry.1, List.mem_cons_self ..⟩, fun _ => rfl⟩

end Table

namespace AttributeGroup

/-! ## Definitions -/

section Definitions

variable (groups : Table AttributeGroup)

/-- A reference denotes the group of exactly its name, or else that of its local part. -/
inductive Denotes (reference : String) : String → AttributeGroup → Prop where
  | exactly {group : AttributeGroup} (found : groups.find? reference = some group) :
      Denotes reference reference group
  | byLocalPart {group : AttributeGroup} (absent : groups.find? reference = none)
      (found : groups.find? (Namespace.localPart reference) = some group) :
      Denotes reference (Namespace.localPart reference) group

/-- Whether a reference denotes no group. -/
def Undefined (reference : String) : Prop := ∀ name group, ¬ Denotes groups reference name group

/-- The references met on the way from a list of them through the groups that they denote. -/
inductive Meets (references : List String) : String → Prop where
  | listed {reference : String} (member : reference ∈ references) : Meets references reference
  | inside {outer name reference : String} {group : AttributeGroup} (met : Meets references outer)
      (denotes : Denotes groups outer name group) (member : reference ∈ group.references) :
      Meets references reference

/-- The groups that the references met denote. -/
def Reaches (references : List String) (name : String) (group : AttributeGroup) : Prop :=
  ∃ reference, Meets groups references reference ∧ Denotes groups reference name group

/-- Whether a group has a reference that denotes another one. -/
def RefersTo (name next : String) : Prop :=
  ∃ group reference target, groups.find? name = some group ∧ reference ∈ group.references ∧
    Denotes groups reference next target

/-- Some group that is reached refers to itself, directly or through others. -/
def ReachesCycle (references : List String) : Prop :=
  ∃ name group, Reaches groups references name group ∧
    Relation.TransGen (RefersTo groups) name name

/-- The warnings that references give rise to: about one that is met and denotes no group, and about
a group that is reached and refers to itself. -/
inductive Warranted (owner : String) (references : List String) : Warning → Prop where
  | undefined {reference : String} (met : Meets groups references reference)
      (undefined : Undefined groups reference) :
      Warranted owner references (.undefinedAttributeGroup reference owner)
  | circular {name : String} {group : AttributeGroup} (reached : Reaches groups references name group)
      (cycle : Relation.TransGen (RefersTo groups) name name) :
      Warranted owner references (.circularAttributeGroup name)

/-- The references met without going through the groups of a path. -/
inductive MeetsOutside (path : List String) (references : List String) : String → Prop where
  | listed {reference : String} (member : reference ∈ references) :
      MeetsOutside path references reference
  | inside {outer name reference : String} {group : AttributeGroup}
      (met : MeetsOutside path references outer) (denotes : Denotes groups outer name group)
      (new : name ∉ path) (member : reference ∈ group.references) :
      MeetsOutside path references reference

end Definitions

/-- A merge holds the attributes of the groups that are reached from some references, and warns about
what is undefined or circular among them. -/
structure Gathers (groups : Table AttributeGroup) (owner : String) (references : List String)
    (merge : AttributeMerge) : Prop where
  keys : ∀ key, key ∈ merge.attributes.keys ↔
    ∃ name group, Reaches groups references name group ∧ key ∈ group.attributes.keys
  declared : ∀ key declaration, merge.attributes.find? key = some declaration →
    ∃ name group, Reaches groups references name group ∧
      group.attributes.find? key = some declaration
  undefined : (∃ warning ∈ merge.warnings, warning.kind = .undefinedAttributeGroup) ↔
    ∃ reference, Meets groups references reference ∧ Undefined groups reference
  circular : (∃ warning ∈ merge.warnings, warning.kind = .circularAttributeGroup) ↔
    ReachesCycle groups references
  warnings : ∀ warning ∈ merge.warnings, Warranted groups owner references warning

variable {groups : Table AttributeGroup} {owner reference name key : String}
  {group : AttributeGroup} {origin references : List String}

/-! ## What references denote -/

theorem denotes_iff :
    Denotes groups reference name group ↔
      name = attributeGroupName groups reference ∧ groups.find? name = some group := by
  have entered : ∀ other, groups.find? reference = some other →
      attributeGroupName groups reference = reference := fun other found =>
    if_pos (Table.contains_of_find? found)
  have missing : groups.find? reference = none →
      attributeGroupName groups reference = Namespace.localPart reference := fun absent => by
    unfold attributeGroupName Table.contains
    rw [absent]
    rfl
  constructor
  · rintro (found | ⟨absent, found⟩)
    · exact ⟨(entered group found).symm, found⟩
    · exact ⟨(missing absent).symm, found⟩
  · rintro ⟨rfl, found⟩
    cases present : groups.find? reference with
    | some other =>
        rw [entered other present] at found ⊢
        exact .exactly found
    | none =>
        rw [missing present] at found ⊢
        exact .byLocalPart present found

theorem Denotes.found (denotes : Denotes groups reference name group) :
    groups.find? name = some group :=
  (denotes_iff.1 denotes).2

theorem undefined_iff :
    Undefined groups reference ↔ groups.find? (attributeGroupName groups reference) = none := by
  constructor
  · intro undefined
    cases found : groups.find? (attributeGroupName groups reference) with
    | none => rfl
    | some group => exact absurd (denotes_iff.2 ⟨rfl, found⟩) (undefined _ group)
  · intro absent name group denotes
    obtain ⟨rfl, found⟩ := denotes_iff.1 denotes
    cases absent.symm.trans found

theorem refersTo_of_denotes {outer next : String} {target : AttributeGroup}
    (denotes : Denotes groups outer name group) (member : reference ∈ group.references)
    (onward : Denotes groups reference next target) : RefersTo groups name next :=
  ⟨group, reference, target, denotes.found, member, onward⟩

/-! ## One step of a merge -/

section Steps

variable {path : List String} {merge : AttributeMerge}

theorem mergeGroup_of_undefined (undefined : Undefined groups reference) :
    mergeGroup groups owner path reference merge =
      merge.warn (.undefinedAttributeGroup reference owner) := by
  rw [mergeGroup]
  dsimp only
  split
  · rfl
  · rename_i group found
    cases (undefined_iff.1 undefined).symm.trans found

theorem mergeGroup_of_inside (denotes : Denotes groups reference name group)
    (inside : name ∈ path) :
    mergeGroup groups owner path reference merge = merge.warn (.circularAttributeGroup name) := by
  obtain ⟨rfl, found⟩ := denotes_iff.1 denotes
  rw [mergeGroup]
  dsimp only
  split
  · rename_i absent
    cases absent.symm.trans found
  · exact if_pos inside

theorem mergeGroup_of_new (denotes : Denotes groups reference name group) (new : name ∉ path) :
    mergeGroup groups owner path reference merge =
      { mergeGroups groups owner (name :: path) group.references merge with
        attributes :=
          (mergeGroups groups owner (name :: path) group.references merge).attributes.insertAll
            group.attributes } := by
  obtain ⟨rfl, found⟩ := denotes_iff.1 denotes
  rw [mergeGroup]
  dsimp only
  split
  · rename_i absent
    cases absent.symm.trans found
  · rename_i other again
    cases again.symm.trans found
    exact if_neg new

/-- What the merge of one of the references brings about and no later step undoes, the merge of all
of them brings about. -/
theorem mergeGroups_of_mem {Holds : AttributeMerge → Prop} (kept : KeptByMerge groups owner Holds)
    (member : reference ∈ references)
    (achieved : ∀ merge, Holds (mergeGroup groups owner path reference merge)) :
    Holds (mergeGroups groups owner path references merge) := by
  induction references generalizing merge with
  | nil => cases member
  | cons first rest inductionHypothesis =>
      rw [mergeGroups]
      rcases List.mem_cons.1 member with rfl | later
      · exact kept.mergeGroups rest (achieved merge)
      · exact inductionHypothesis later

/-- What is merged stays. -/
theorem keptByMerge_mem_keys (key : String) :
    KeptByMerge groups owner fun merge => key ∈ merge.attributes.keys where
  undefined held _ := held
  circular held _ := held
  merges held _ _ _ := Table.mem_keys_insertAll.2 (.inl held)

/-- A warning stays. -/
theorem keptByMerge_mem_warnings (warning : Warning) :
    KeptByMerge groups owner fun merge => warning ∈ merge.warnings where
  undefined held _ := List.mem_append_left _ held
  circular held _ := List.mem_append_left _ held
  merges held _ _ _ := held

theorem keptByMerge_exists_warning (kind : WarningKind) :
    KeptByMerge groups owner fun merge => ∃ warning ∈ merge.warnings, warning.kind = kind where
  undefined := fun ⟨warning, member, isKind⟩ _ =>
    ⟨warning, List.mem_append_left _ member, isKind⟩
  circular := fun ⟨warning, member, isKind⟩ _ =>
    ⟨warning, List.mem_append_left _ member, isKind⟩
  merges held _ _ _ := held

end Steps

/-! ## A merge brings in nothing else -/

/-- Everything in a merge comes from the groups that are reached from some references. -/
structure Justified (groups : Table AttributeGroup) (owner : String) (origin : List String)
    (merge : AttributeMerge) : Prop where
  attributes : merge.attributes.Every fun key declaration =>
    ∃ name group, Reaches groups origin name group ∧ group.attributes.find? key = some declaration
  warnings : ∀ warning ∈ merge.warnings, Warranted groups owner origin warning

/-- A reference is met inside the groups of a path, which all lead to what it denotes. -/
structure Within (groups : Table AttributeGroup) (origin path : List String) (reference : String) :
    Prop where
  met : Meets groups origin reference
  leads : ∀ outer ∈ path, ∀ {next target}, Denotes groups reference next target →
    Relation.TransGen (RefersTo groups) outer next

/-- The references of a group are met inside it and inside all groups around it. -/
theorem Within.nested {path : List String} (within : Within groups origin path reference)
    (denotes : Denotes groups reference name group) :
    ∀ inner ∈ group.references, Within groups origin (name :: path) inner := by
  refine fun inner member => ⟨.inside within.met denotes member, fun outer outside => ?_⟩
  intro next target onward
  have step : RefersTo groups name next := refersTo_of_denotes denotes member onward
  rcases List.mem_cons.1 outside with rfl | further
  · exact .single step
  · exact .tail (within.leads outer further denotes) step

theorem Justified.warn {merge : AttributeMerge}
    (justified : Justified groups owner origin merge) {warning : Warning}
    (warranted : Warranted groups owner origin warning) :
    Justified groups owner origin (merge.warn warning) :=
  ⟨justified.attributes, List.forall_mem_append.2
    ⟨justified.warnings, List.forall_mem_singleton.2 warranted⟩⟩

mutual

theorem Justified.mergeGroup {path : List String} {reference : String} {merge : AttributeMerge}
    (justified : Justified groups owner origin merge)
    (within : Within groups origin path reference) :
    Justified groups owner origin (mergeGroup groups owner path reference merge) := by
  by_cases undefined : Undefined groups reference
  · rw [mergeGroup_of_undefined undefined]
    exact justified.warn (.undefined within.met undefined)
  · unfold Undefined at undefined
    push Not at undefined
    obtain ⟨name, group, denotes⟩ := undefined
    have reached : Reaches groups origin name group := ⟨reference, within.met, denotes⟩
    by_cases inside : name ∈ path
    · rw [mergeGroup_of_inside denotes inside]
      exact justified.warn (.circular reached (within.leads name inside denotes))
    · rw [mergeGroup_of_new denotes inside]
      obtain ⟨attributes, warnings⟩ := justified.mergeGroups (within.nested denotes)
      exact ⟨attributes.insertAll ⟨fun found => ⟨name, group, reached, found⟩⟩, warnings⟩
termination_by mergeWork groups path
decreasing_by exact mergeWork_cons denotes.found inside

theorem Justified.mergeGroups {path references : List String} {merge : AttributeMerge}
    (justified : Justified groups owner origin merge)
    (within : ∀ reference ∈ references, Within groups origin path reference) :
    Justified groups owner origin (mergeGroups groups owner path references merge) := by
  cases references with
  | nil =>
      rw [XmlSchema.mergeGroups]
      exact justified
  | cons reference rest =>
      obtain ⟨first, later⟩ := List.forall_mem_cons.1 within
      rw [XmlSchema.mergeGroups]
      exact (justified.mergeGroup first).mergeGroups later
termination_by mergeWork groups path + references.length
decreasing_by
  · subst_vars; simp
  · subst_vars; simp

end

/-! ## A merge misses nothing -/

theorem meetsOutside_nil_iff :
    MeetsOutside groups [] references reference ↔ Meets groups references reference := by
  constructor
  · intro met
    induction met with
    | listed member => exact .listed member
    | inside _ denotes _ member inductionHypothesis =>
        exact .inside inductionHypothesis denotes member
  · intro met
    induction met with
    | listed member => exact .listed member
    | inside _ denotes member inductionHypothesis =>
        exact .inside inductionHypothesis denotes List.not_mem_nil member

/-- What is met outside a path is listed, or met inside the group of a listed reference without
going through that group again. -/
theorem MeetsOutside.shortcut {path : List String}
    (met : MeetsOutside groups path references reference) :
    reference ∈ references ∨
      ∃ outer ∈ references, ∃ name group, Denotes groups outer name group ∧ name ∉ path ∧
        MeetsOutside groups (name :: path) group.references reference := by
  induction met with
  | listed member => exact .inl member
  | @inside last name reference group _ denotes new member inductionHypothesis =>
      rcases inductionHypothesis with listed | ⟨outer, first, turn, turnGroup, turns, off, later⟩
      · exact .inr ⟨last, listed, name, group, denotes, new, .listed member⟩
      · refine .inr ⟨outer, first, turn, turnGroup, turns, off, ?_⟩
        -- Where the way comes back to the first group, it starts there anew.
        by_cases back : name = turn
        · subst back
          cases turns.found.symm.trans denotes.found
          exact .listed member
        · have outside : name ∉ turn :: path := by
            rw [List.mem_cons, not_or]
            exact ⟨back, new⟩
          exact .inside later denotes outside member

theorem mem_warnings_of_undefined {path references : List String}
    (met : MeetsOutside groups path references reference)
    (undefined : Undefined groups reference) (merge : AttributeMerge) :
    .undefinedAttributeGroup reference owner ∈
      (mergeGroups groups owner path references merge).warnings := by
  have kept : KeptByMerge groups owner fun merge =>
      .undefinedAttributeGroup reference owner ∈ merge.warnings := keptByMerge_mem_warnings _
  rcases met.shortcut with listed | ⟨outer, listed, name, group, denotes, new, later⟩
  · refine mergeGroups_of_mem kept listed fun merge => ?_
    rw [mergeGroup_of_undefined undefined]
    exact List.mem_append_right _ (List.mem_singleton_self _)
  · refine mergeGroups_of_mem kept listed fun merge => ?_
    rw [mergeGroup_of_new denotes new]
    exact mem_warnings_of_undefined later undefined merge
termination_by unvisited groups.keys path
decreasing_by exact unvisitedKeys_cons_lt (Table.contains_of_find? denotes.found) new

theorem mem_keys_of_denotes {path references : List String}
    (met : MeetsOutside groups path references reference)
    (denotes : Denotes groups reference name group) (new : name ∉ path)
    (declares : key ∈ group.attributes.keys) (merge : AttributeMerge) :
    key ∈ (mergeGroups groups owner path references merge).attributes.keys := by
  have kept : KeptByMerge groups owner fun merge => key ∈ merge.attributes.keys :=
    keptByMerge_mem_keys key
  rcases met.shortcut with listed | ⟨outer, listed, turn, turnGroup, turns, off, later⟩
  · refine mergeGroups_of_mem kept listed fun merge => ?_
    rw [mergeGroup_of_new denotes new]
    exact Table.mem_keys_insertAll.2 (.inr declares)
  · refine mergeGroups_of_mem kept listed fun merge => ?_
    rw [mergeGroup_of_new turns off]
    -- The group that the way has come to is merged here, any other one further inside.
    by_cases back : name = turn
    · subst back
      cases turns.found.symm.trans denotes.found
      exact Table.mem_keys_insertAll.2 (.inr declares)
    · have outside : name ∉ turn :: path := by
        rw [List.mem_cons, not_or]
        exact ⟨back, new⟩
      exact Table.mem_keys_insertAll.2
        (.inl (mem_keys_of_denotes later denotes outside declares merge))
termination_by unvisited groups.keys path
decreasing_by exact unvisitedKeys_cons_lt (Table.contains_of_find? turns.found) off

/-! ## Cycles -/

/-- A merge that goes on without end comes back to a group. -/
theorem exists_circular_of_not_acc {path references : List String} {reference name : String}
    {group : AttributeGroup} (listed : reference ∈ references)
    (denotes : Denotes groups reference name group)
    (endless : ¬ Acc (Function.swap (RefersTo groups)) name) (merge : AttributeMerge) :
    ∃ warning ∈ (mergeGroups groups owner path references merge).warnings,
      warning.kind = .circularAttributeGroup := by
  refine mergeGroups_of_mem (keptByMerge_exists_warning .circularAttributeGroup) listed
    fun merge => ?_
  by_cases inside : name ∈ path
  · rw [mergeGroup_of_inside denotes inside]
    exact ⟨.circularAttributeGroup name, List.mem_append_right _ (List.mem_singleton_self _), rfl⟩
  · rw [mergeGroup_of_new denotes inside]
    have onward : ∃ next, RefersTo groups name next ∧
        ¬ Acc (Function.swap (RefersTo groups)) next := by
      by_contra ends
      push Not at ends
      exact endless (.intro name fun next refers => ends next refers)
    obtain ⟨next, ⟨other, inner, target, found, member, innerDenotes⟩, endlessNext⟩ := onward
    cases denotes.found.symm.trans found
    exact exists_circular_of_not_acc member innerDenotes endlessNext merge
termination_by unvisited groups.keys path
decreasing_by exact unvisitedKeys_cons_lt (Table.contains_of_find? denotes.found) inside

theorem not_acc_of_transGen (cycle : Relation.TransGen (RefersTo groups) name name) :
    ¬ Acc (Function.swap (RefersTo groups)) name := by
  intro accessible
  induction accessible with
  | intro name _ inductionHypothesis =>
      obtain ⟨next, refers, back⟩ := Relation.TransGen.head'_iff.1 cycle
      exact inductionHypothesis next refers (.tail' back refers)

/-- From where an endless way is met, one starts at a listed reference. -/
theorem Meets.exists_listed (met : Meets groups references reference)
    (denotes : Denotes groups reference name group)
    (endless : ¬ Acc (Function.swap (RefersTo groups)) name) :
    ∃ first ∈ references, ∃ start startGroup, Denotes groups first start startGroup ∧
      ¬ Acc (Function.swap (RefersTo groups)) start := by
  induction met generalizing name group with
  | listed member => exact ⟨_, member, name, group, denotes, endless⟩
  | inside _ outerDenotes member inductionHypothesis =>
      have refers := refersTo_of_denotes outerDenotes member denotes
      exact inductionHypothesis outerDenotes fun accessible =>
        endless (accessible.inv refers)

/-! ## The whole merge -/

theorem gathers_mergeGroups (groups : Table AttributeGroup) (owner : String)
    (references : List String) :
    Gathers groups owner references (mergeGroups groups owner [] references .empty) := by
  have nothing : Justified groups owner references .empty :=
    ⟨Table.every_empty _, fun _ member => absurd member List.not_mem_nil⟩
  have within : ∀ reference ∈ references, Within groups references [] reference :=
    fun reference listed => ⟨.listed listed, fun _ member => absurd member List.not_mem_nil⟩
  obtain ⟨attributes, warnings⟩ := nothing.mergeGroups within
  refine ⟨fun key => ⟨fun merged => ?_, ?_⟩, fun _ _ found => attributes.fits found,
    ⟨?_, ?_⟩, ⟨?_, ?_⟩, warnings⟩
  · rw [← Table.contains_iff_mem_keys] at merged
    obtain ⟨declaration, found⟩ := Option.isSome_iff_exists.1 merged
    obtain ⟨name, group, reached, declares⟩ := attributes.fits found
    exact ⟨name, group, reached,
      (Table.contains_iff_mem_keys _ _).1 (Table.contains_of_find? declares)⟩
  · rintro ⟨name, group, ⟨reference, met, denotes⟩, declares⟩
    exact mem_keys_of_denotes (meetsOutside_nil_iff.2 met) denotes List.not_mem_nil declares .empty
  · rintro ⟨warning, member, isUndefined⟩
    cases warnings warning member with
    | undefined met undefined => exact ⟨_, met, undefined⟩
    | circular _ _ => cases isUndefined
  · rintro ⟨reference, met, undefined⟩
    exact ⟨_, mem_warnings_of_undefined (meetsOutside_nil_iff.2 met) undefined .empty, rfl⟩
  · rintro ⟨warning, member, isCircular⟩
    cases warnings warning member with
    | undefined _ _ => cases isCircular
    | circular reached cycle => exact ⟨_, _, reached, cycle⟩
  · rintro ⟨name, group, ⟨reference, met, denotes⟩, cycle⟩
    obtain ⟨first, listed, start, startGroup, startDenotes, endless⟩ :=
      met.exists_listed denotes (not_acc_of_transGen cycle)
    exact exists_circular_of_not_acc listed startDenotes endless .empty

end AttributeGroup

/-! ## Declarations with attribute groups -/

theorem warnings_foldl_warn (warnings : List Warning) (context : Context) :
    (warnings.foldl Context.warn context).warnings = context.warnings ++ warnings := by
  induction warnings generalizing context with
  | nil => exact (List.append_nil _).symm
  | cons warning rest inductionHypothesis =>
      rw [List.foldl_cons, inductionHypothesis]
      exact List.append_assoc _ [warning] rest

theorem Context.mem_keys_completed (context : Context) (element : Element)
    (merged : Table Attribute) (occurrence : Occurrence) (key : String) :
    key ∈ (context.completed element merged occurrence).attributes.keys ↔
      key ∈ element.attributes.keys ∨ key ∈ merged.keys := by
  unfold Context.completed
  rw [Table.keys_mapValues, Table.mem_keys_insertAll]

/-- The references of a declaration bring in what the groups reached from them declare, and a
warning for what is undefined or circular among them. With its bounds in order, the declaration is
completed and has its own attributes and these. -/
theorem attributes_of_attributeGroups (groups : Table AttributeGroup) (owner : String)
    (references : List String) :
    AttributeGroup.Gathers groups owner references
        (mergeGroups groups owner [] references .empty) ∧
      ∀ (context : Context) (id : NodeId) (element : Element),
        context.attributeGroups = groups → context.element? id = some element →
        element.name = owner → element.attributeGroupRefs = references →
        (endContext (completeElement context id)).warnings =
            context.warnings ++ (mergeGroups groups owner [] references .empty).warnings ∧
          match element.occurrence with
          | .error cause => ∃ halt, completeElement context id = .error halt ∧
              halt.cause = .semantic ⟨owner, cause⟩
          | .ok _ => ∃ next completed, completeElement context id = .ok next ∧
              next.element? id = some completed ∧
              ∀ key, key ∈ completed.attributes.keys ↔
                key ∈ element.attributes.keys ∨
                  ∃ name group, AttributeGroup.Reaches groups references name group ∧
                    key ∈ group.attributes.keys := by
  have gathers := AttributeGroup.gathers_mergeGroups groups owner references
  refine ⟨gathers, ?_⟩
  rintro context id element rfl found rfl rfl
  have warned := warnings_foldl_warn (context.mergedAttributes element).warnings context
  unfold completeElement
  rw [found]
  dsimp only
  cases element.occurrence with
  | error cause => exact ⟨warned, _, rfl, rfl⟩
  | ok occurrence =>
      have present := (Context.element?_foldl_warn (context.mergedAttributes element).warnings context
        id).trans found
      refine ⟨warned, _, _, rfl, element?_modifyElement_self present _, fun key => ?_⟩
      rw [Context.mem_keys_completed, ← gathers.keys]
      rfl

/-- Two attribute groups that include each other, one of which also refers to a third one that nobody
declares, and a type that refers to the other. -/
def mutualAttributeGroupSchema : Bytes :=
  schemaDocument [
    "<s:attributeGroup name='A'><s:attribute name='a'/><s:attributeGroup ref='B'/>",
    "</s:attributeGroup><s:attributeGroup name='B'><s:attribute name='b'/>",
    "<s:attributeGroup ref='A'/><s:attributeGroup ref='C'/></s:attributeGroup>",
    "<s:complexType name='T'><s:attribute name='t'/><s:attributeGroup ref='x:A'/>",
    "</s:complexType>"]

/-- A type with an attribute of its own refers, under a namespace, to a group that includes another
one and is included in it, which moreover refers to a group that nobody declares. -/
theorem attributes_of_attributeGroups_mutual :
    ∃ (context : Context) (root id : NodeId) (element : Element) (next : Context)
      (completed : Element),
      readTree (.initial .standard) mutualAttributeGroupSchema = .ok (context, root) ∧
      context.element? id = some element ∧ element.name = "T" ∧
      element.attributeGroupRefs = ["x:A"] ∧ completeElement context id = .ok next ∧
      next.element? id = some completed ∧
      (∀ key ∈ ["t", "a", "b"], key ∈ completed.attributes.keys) ∧
      (∃ warning ∈ next.warnings, warning.kind = .circularAttributeGroup) ∧
      ∃ warning ∈ next.warnings, warning.kind = .undefinedAttributeGroup := by
  have computed : readsTree .standard mutualAttributeGroupSchema
      (fun context root =>
        ((context.walk root).any fun id => (context.element? id).any fun element =>
          decide (element.name = "T" ∧ element.attributeGroupRefs = ["x:A"] ∧
            element.attributes.keys = ["t"] ∧ element.occurrence = .ok ⟨1, 1⟩)) &&
        (context.attributeGroups.find? "A").any (fun group =>
          decide (group.attributes.keys = ["a"] ∧ group.references = ["B"])) &&
        (context.attributeGroups.find? "B").any (fun group =>
          decide (group.attributes.keys = ["b"] ∧ group.references = ["A", "C"])) &&
        decide (context.attributeGroups.find? "x:A" = none ∧
          context.attributeGroups.find? "C" = none)) = true := by
    decide +kernel
  obtain ⟨context, root, read, checked⟩ := exists_of_readsTree computed
  simp only [Bool.and_eq_true, List.any_eq_true, Option.any_eq_true, decide_eq_true_eq] at checked
  obtain ⟨⟨⟨⟨id, -, element, found, isNamed, refers, own, bounds⟩, first, foundFirst, firstKeys,
    toSecond⟩, second, foundSecond, secondKeys, onward⟩, unknown, undeclared⟩ := checked
  -- The references met, and what they denote.
  have toFirst : AttributeGroup.Denotes context.attributeGroups "x:A" "A" first :=
    .byLocalPart unknown foundFirst
  have forth : AttributeGroup.Denotes context.attributeGroups "B" "B" second :=
    .exactly foundSecond
  have back : AttributeGroup.Denotes context.attributeGroups "A" "A" first := .exactly foundFirst
  have metFirst : AttributeGroup.Meets context.attributeGroups ["x:A"] "x:A" :=
    .listed (List.mem_singleton_self _)
  have metSecond : AttributeGroup.Meets context.attributeGroups ["x:A"] "B" :=
    .inside metFirst toFirst (toSecond ▸ List.mem_singleton_self _)
  have metThird : AttributeGroup.Meets context.attributeGroups ["x:A"] "C" :=
    .inside metSecond forth (onward ▸ by decide)
  have reachesFirst : AttributeGroup.Reaches context.attributeGroups ["x:A"] "A" first :=
    ⟨"x:A", metFirst, toFirst⟩
  have reachesSecond : AttributeGroup.Reaches context.attributeGroups ["x:A"] "B" second :=
    ⟨"B", metSecond, forth⟩
  have cycle : AttributeGroup.ReachesCycle context.attributeGroups ["x:A"] := by
    have away : AttributeGroup.RefersTo context.attributeGroups "A" "B" :=
      AttributeGroup.refersTo_of_denotes toFirst (toSecond ▸ List.mem_singleton_self _) forth
    have home : AttributeGroup.RefersTo context.attributeGroups "B" "A" :=
      AttributeGroup.refersTo_of_denotes forth (onward ▸ by decide) back
    exact ⟨"A", first, reachesFirst, .head away (.single home)⟩
  have undefined : AttributeGroup.Undefined context.attributeGroups "C" :=
    AttributeGroup.undefined_iff.2 (by
      unfold attributeGroupName Table.contains
      rw [undeclared]
      exact undeclared)
  obtain ⟨gathers, completes⟩ := attributes_of_attributeGroups context.attributeGroups "T" ["x:A"]
  obtain ⟨warnings, outcome⟩ := completes context id element rfl found isNamed refers
  rw [bounds] at outcome
  obtain ⟨next, completed, completion, present, keys⟩ := outcome
  rw [completion] at warnings
  have recorded : ∀ kind, (∃ warning ∈ (mergeGroups context.attributeGroups "T" [] ["x:A"]
      .empty).warnings, warning.kind = kind) →
      ∃ warning ∈ next.warnings, warning.kind = kind := by
    rintro kind ⟨warning, member, isKind⟩
    refine ⟨warning, ?_, isKind⟩
    rw [endContext_ok] at warnings
    rw [warnings]
    exact List.mem_append_right _ member
  refine ⟨context, root, id, element, next, completed, read, found, isNamed, refers, completion,
    present, ?_, recorded _ (gathers.circular.2 cycle),
    recorded _ (gathers.undefined.2 ⟨"C", metThird, undefined⟩)⟩
  simp only [List.forall_mem_cons, List.not_mem_nil, false_imp_iff, implies_true, and_true]
  refine ⟨(keys "t").2 (.inl (own ▸ List.mem_singleton_self _)),
    (keys "a").2 (.inr ⟨"A", first, reachesFirst, firstKeys ▸ List.mem_singleton_self _⟩),
    (keys "b").2 (.inr ⟨"B", second, reachesSecond, secondKeys ▸ List.mem_singleton_self _⟩)⟩

end XmlSchema
