import Mathlib.Data.List.Perm.Subperm
import Mathlib.Logic.Relation
import XmlSchema.Proofs.Groups.Plain

/-!
# How deep groups are nested

The definition of a group refers to another one through a reference among its children. The
definitions inside which the expansion is at any time are a path of such steps, `GroupPath`, since
the references that it follows are still those of the beginning. So the pass gives up only where a
path is longer than the limit: `exceeds_of_expandGroups`.
-/

namespace XmlSchema

namespace Context

variable (context : Context)

/-- A reference among the children of the definition of a group leads to another definition. -/
def RefersTo (definition other : NodeId) : Prop :=
  definition ∈ groupDefinitions context.elementGroups ∧
    ∃ child ∈ context.children definition, ∃ reference,
      context.groupReference? child = some reference ∧
      groupDefinition? context.elementGroups reference = some other

/-- Definitions of groups that refer to one another in a row, each once, the innermost first. -/
inductive GroupPath : List NodeId → Prop where
  | outermost {definition : NodeId} (defined : definition ∈ groupDefinitions context.elementGroups) :
      GroupPath [definition]
  | inner {definition outer : NodeId} {path : List NodeId} (refers : context.RefersTo outer definition)
      (new : definition ∉ outer :: path) (rest : GroupPath (outer :: path)) :
      GroupPath (definition :: outer :: path)

/-- A path of definitions is longer than the limit, and that is why the pass gives up. -/
def Exceeds (halt : Halt Error) : Prop :=
  ∃ path, context.GroupPath path ∧ context.options.limits.groupDepth < path.length ∧
    halt.cause = .limit (.groups path.length context.options.limits.groupDepth)

end Context

variable {path pending visited definitions : List NodeId} {task : GroupTask} {owner : String}
  {origin before : Context} {halt : Halt Error}

namespace Context

theorem GroupPath.nodup (inPath : origin.GroupPath path) : path.Nodup := by
  induction inPath with
  | outermost _ => exact List.pairwise_singleton _ _
  | inner _ new _ inductionHypothesis => exact List.nodup_cons.2 ⟨new, inductionHypothesis⟩

theorem GroupPath.defined (inPath : origin.GroupPath path) :
    ∀ definition ∈ path, definition ∈ groupDefinitions origin.elementGroups := by
  induction inPath with
  | outermost defined => exact List.forall_mem_singleton.2 defined
  | inner refers _ _ inductionHypothesis =>
      obtain ⟨-, child, -, reference, -, defined⟩ := refers
      exact List.forall_mem_cons.2 ⟨mem_groupDefinitions defined, inductionHypothesis⟩

/-- Every definition of a path leads to the innermost one. -/
theorem GroupPath.leads {innermost : NodeId} {outer : List NodeId}
    (inPath : origin.GroupPath (innermost :: outer)) :
    ∀ definition ∈ innermost :: outer,
      Relation.ReflTransGen origin.RefersTo definition innermost := by
  generalize whole : innermost :: outer = path at inPath
  induction inPath generalizing innermost outer with
  | outermost _ =>
      cases whole
      exact List.forall_mem_singleton.2 .refl
  | inner refers _ _ inductionHypothesis =>
      cases whole
      refine List.forall_mem_cons.2 ⟨.refl, fun definition member => ?_⟩
      exact (inductionHypothesis rfl definition member).tail refers

end Context

/-- The references of a task are among the children of the innermost definition around it. -/
def GroupTask.Fits (origin : Context) (path : List NodeId) : GroupTask → Prop
  | .node id => ∀ innermost, path.head? = some innermost → innermost = id
  | .children _ pending => ∀ innermost, path.head? = some innermost →
      ∀ child ∈ pending, child ∈ origin.children innermost

theorem Expanding.fits_children {id : NodeId} {element : Element} {owner : String}
    (expanding : Expanding origin before) (found : before.element? id = some element)
    (refers : ∃ child ∈ element.children, before.groupReference? child ≠ none)
    (fits : (GroupTask.node id).Fits origin path) :
    (GroupTask.children owner element.children).Fits origin path := by
  intro innermost isInnermost child member
  rw [expanding.children_eq found refers] at member
  rw [fits innermost isInnermost]
  exact member

/-- The path into a definition to which a reference of the task leads. -/
theorem groupPath_cons {owner reference : String} {child definition : NodeId}
    (inPath : path ≠ [] → origin.GroupPath path)
    (fits : (GroupTask.children owner (child :: pending)).Fits origin path)
    (refers : origin.groupReference? child = some reference)
    (defined : groupDefinition? origin.elementGroups reference = some definition)
    (new : definition ∉ path) : origin.GroupPath (definition :: path) := by
  cases path with
  | nil => exact .outermost (mem_groupDefinitions defined)
  | cons outer rest =>
      have inOuter := inPath (List.cons_ne_nil outer rest)
      refine .inner ⟨inOuter.defined outer (List.mem_cons_self ..), child, ?_, reference, refers,
        defined⟩ new inOuter
      exact fits outer rfl child (List.mem_cons_self ..)

theorem fits_head (definition : NodeId) (path : List NodeId) :
    (GroupTask.node definition).Fits origin (definition :: path) := by
  rintro innermost ⟨⟩
  rfl

theorem GroupTask.Fits.tail {child : NodeId}
    (fits : (GroupTask.children owner (child :: pending)).Fits origin path) :
    (GroupTask.children owner pending).Fits origin path :=
  fun innermost isInnermost other member =>
    fits innermost isInnermost other (List.mem_cons_of_mem _ member)

/-! ## Where the pass gives up -/

mutual

theorem exceeds_of_expandNode {path : List NodeId} {id : NodeId} {context : Context}
    (halted : expandNode origin.elementGroups path id context = .error halt)
    (expanding : Expanding origin context) (inPath : path ≠ [] → origin.GroupPath path)
    (fits : (GroupTask.node id).Fits origin path) : origin.Exceeds halt := by
  rw [expandNode] at halted
  split at halted
  · rename_i fault refused
    cases halted
    rw [expanding.options] at refused
    unfold Limits.checkGroups at refused
    split at refused
    · rename_i deep
      cases refused
      refine ⟨path, inPath ?_, deep, rfl⟩
      rintro rfl
      exact Nat.not_lt_zero _ deep
    · cases refused
  · split at halted
    · cases halted
    · rename_i element found
      split at halted
      · rename_i refers
        split at halted
        · rename_i childrenHalted
          cases halted
          obtain ⟨child, member, isReference⟩ := List.any_eq_true.1 refers
          refine exceeds_of_expandChildren childrenHalted expanding inPath
            (expanding.fits_children found ?_ fits)
          exact ⟨child, member, Option.isSome_iff_ne_none.1 isReference⟩
        · cases halted
      · cases halted
termination_by (unvisited (groupDefinitions origin.elementGroups) path, 1, 0)

theorem exceeds_of_expandChildren {path : List NodeId} {owner : String} {children : List NodeId}
    {context : Context}
    (halted : expandChildren origin.elementGroups path owner children context = .error halt)
    (expanding : Expanding origin context) (inPath : path ≠ [] → origin.GroupPath path)
    (fits : (GroupTask.children owner children).Fits origin path) : origin.Exceeds halt := by
  cases children with
  | nil =>
      rw [expandChildren] at halted
      cases halted
  | cons child rest =>
      rw [expandChildren] at halted
      split at halted
      · split at halted
        · rename_i laterHalted
          cases halted
          exact exceeds_of_expandChildren laterHalted expanding inPath fits.tail
        · cases halted
      · rename_i reference refers
        split at halted
        · exact exceeds_of_expandChildren halted (expanding.warn _) inPath fits.tail
        · rename_i definition defined
          split at halted
          · exact exceeds_of_expandChildren halted (expanding.warn _) inPath fits.tail
          · rename_i new
            rw [expanding.references] at refers
            split at halted
            · rename_i nodeHalted
              cases halted
              exact exceeds_of_expandNode nodeHalted expanding
                (fun _ => groupPath_cons inPath fits refers defined new) (fits_head definition path)
            · rename_i between nodeExpanded
              obtain ⟨notes, expands⟩ := exists_expands_node nodeExpanded
              dsimp only at halted
              split at halted
              · rename_i laterHalted
                cases halted
                exact exceeds_of_expandChildren laterHalted (expands.advances expanding).expanding
                  inPath fits.tail
              · cases halted
termination_by (unvisited (groupDefinitions origin.elementGroups) path, 0, children.length)
decreasing_by
  all_goals first
    | exact Prod.Lex.right _ (Prod.Lex.right _ (by subst_vars; simp))
    | exact Prod.Lex.left _ _
        (unvisited_cons_lt (mem_groupDefinitions (by assumption)) (by assumption))

end

theorem exceeds_of_foldlM
    (halted : definitions.foldlM (fun context definition =>
      expandNode origin.elementGroups [definition] definition context) before = .error halt)
    (expanding : Expanding origin before)
    (defined : ∀ definition ∈ definitions, definition ∈ groupDefinitions origin.elementGroups) :
    origin.Exceeds halt := by
  induction definitions generalizing before with
  | nil => cases halted
  | cons definition rest inductionHypothesis =>
      obtain ⟨isDefined, restDefined⟩ := List.forall_mem_cons.1 defined
      rw [List.foldlM_cons] at halted
      cases first : expandNode origin.elementGroups [definition] definition before with
      | error fault =>
          rw [first] at halted
          cases halted
          exact exceeds_of_expandNode first expanding (fun _ => .outermost isDefined)
            (fits_head definition [])
      | ok between =>
          rw [first] at halted
          obtain ⟨notes, expands⟩ := exists_expands_node first
          exact inductionHypothesis halted (expands.advances expanding).expanding restDefined

theorem exceeds_of_expandBelow {context : Context}
    (halted : expandBelow origin.elementGroups visited pending context = .error halt)
    (expanding : Expanding origin context) : origin.Exceeds halt := by
  induction visited, pending, context using expandBelow.induct origin.elementGroups with
  | case1 visited context =>
      rw [expandBelow] at halted
      cases halted
  | case2 visited id pending context seen inductionHypothesis =>
      rw [expandBelow_seen seen] at halted
      exact inductionHypothesis halted expanding
  | case3 visited id pending context new fault nodeHalted =>
      rw [expandBelow_halted new nodeHalted] at halted
      cases halted
      exact exceeds_of_expandNode nodeHalted expanding (fun nonempty => absurd rfl nonempty)
        fun _ isInnermost => by cases isInnermost
  | case4 visited id pending context new next completed absent inductionHypothesis =>
      rw [expandBelow_absent new completed absent] at halted
      obtain ⟨notes, expands⟩ := exists_expands_node completed
      exact inductionHypothesis halted (expands.advances expanding).expanding
  | case5 visited id pending context new next completed element found inductionHypothesis =>
      rw [expandBelow_visit new completed found] at halted
      obtain ⟨notes, expands⟩ := exists_expands_node completed
      exact inductionHypothesis halted (expands.advances expanding).expanding

/-- The pass gives up only where definitions are nested deeper than the limit. -/
theorem exceeds_of_expandGroups {root : NodeId} (halted : expandGroups root origin = .error halt) :
    origin.Exceeds halt := by
  unfold expandGroups at halted
  dsimp only at halted
  split at halted
  · rename_i fault definitionsHalted
    cases halted
    exact exceeds_of_foldlM definitionsHalted (.refl origin) fun _ member => member
  · rename_i between definitions
    obtain ⟨notes, each⟩ := exists_expandsEach definitions
    exact exceeds_of_expandBelow halted (each.advances (.refl origin)).1

/-- Paths are no longer than there are groups. -/
theorem Context.GroupPath.length_le (inPath : origin.GroupPath path) :
    path.length ≤ (groupDefinitions origin.elementGroups).length :=
  (List.subperm_of_subset inPath.nodup inPath.defined).length_le

/-- With no more groups than the limit allows the pass goes through. -/
theorem exists_expandGroups_of_few (root : NodeId)
    (few : (groupDefinitions origin.elementGroups).length ≤ origin.options.limits.groupDepth) :
    ∃ after, expandGroups root origin = .ok after := by
  cases expanded : expandGroups root origin with
  | error halt =>
      obtain ⟨path, inPath, tooLong, -⟩ := exceeds_of_expandGroups expanded
      have short := inPath.length_le
      omega
  | ok after => exact ⟨after, rfl⟩

end XmlSchema
