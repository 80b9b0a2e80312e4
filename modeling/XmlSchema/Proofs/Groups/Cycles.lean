import XmlSchema.Proofs.FlatTrees
import XmlSchema.Proofs.Groups.Notes

/-!
# Cycles of groups

The pass finds a reference that leads back into the definitions around it exactly where definitions
refer to one another in a cycle, and it warns about no reference twice: `circular_iff_cycle`. There
is no set of finished definitions. Those are the ones without references left among their children,
and as long as nothing leads back, no definition refers further and further from them:
`Expands.grounded`.
-/

namespace XmlSchema

namespace Context

variable (context : Context)

/-- Some definition of a group refers to itself, directly or through others. -/
def HasGroupCycle : Prop := ∃ definition, Relation.TransGen context.RefersTo definition definition

/-- No definitions refer to one another without end from this one on. -/
def Grounded (definition : NodeId) : Prop := Acc (Function.swap context.RefersTo) definition

end Context

variable {path visited pending members : List NodeId} {task : GroupTask}
  {origin before between after : Context} {notes early late : List GroupNote}

theorem Context.not_transGen_of_grounded {definition : NodeId} (grounded : origin.Grounded definition) :
    ¬ Relation.TransGen origin.RefersTo definition definition := by
  induction grounded with
  | intro definition _ inductionHypothesis =>
      intro cycle
      obtain ⟨other, refers, back⟩ := Relation.TransGen.head'_iff.1 cycle
      exact inductionHypothesis other refers (.tail' back refers)

/-- Where references lead to later definitions only, there is no cycle. -/
theorem Context.not_hasGroupCycle_of_lt
    (later : ∀ {definition next}, origin.RefersTo definition next → definition.index < next.index) :
    ¬ origin.HasGroupCycle := by
  have lt_of_leads : ∀ {first last}, Relation.TransGen origin.RefersTo first last →
      first.index < last.index := by
    intro first last leads
    induction leads with
    | single refersTo => exact later refersTo
    | tail _ refersTo earlier => exact Nat.lt_trans earlier (later refersTo)
  rintro ⟨definition, cycle⟩
  exact Nat.lt_irrefl _ (lt_of_leads cycle)

/-! ## What leads back is in a cycle -/

/-- Where a reference leads to a definition around it, that definition leads back to itself. -/
theorem Context.GroupPath.cycle {owner reference : String} {child definition : NodeId}
    (inPath : path ≠ [] → origin.GroupPath path)
    (fits : (GroupTask.children owner (child :: pending)).Fits origin path)
    (refers : origin.groupReference? child = some reference)
    (defined : groupDefinition? origin.elementGroups reference = some definition)
    (inside : definition ∈ path) : Relation.TransGen origin.RefersTo definition definition := by
  cases path with
  | nil => cases inside
  | cons innermost outer =>
      have inPath := inPath (List.cons_ne_nil innermost outer)
      have back : origin.RefersTo innermost definition :=
        ⟨inPath.defined innermost (List.mem_cons_self ..), child,
          fits innermost rfl child (List.mem_cons_self ..), reference, refers, defined⟩
      exact .tail' (inPath.leads definition inside) back

theorem Expands.cycle_of_circular
    (expands : Expands origin.elementGroups path task before notes members after)
    (expanding : Expanding origin before) (inPath : path ≠ [] → origin.GroupPath path)
    (fits : task.Fits origin path)
    (circular : ∃ note ∈ notes, note.2.kind = .circularGroupReference) : origin.HasGroupCycle := by
  induction expands with
  | flat _ =>
      obtain ⟨note, member, -⟩ := circular
      cases member
  | node found refers _ inductionHypothesis =>
      exact inductionHypothesis expanding inPath (expanding.fits_children found refers fits)
        circular
  | done =>
      obtain ⟨note, member, -⟩ := circular
      cases member
  | keep _ _ inductionHypothesis => exact inductionHypothesis expanding inPath fits.tail circular
  | undefined _ _ _ inductionHypothesis =>
      obtain ⟨note, member, isCircular⟩ := circular
      rcases List.mem_cons.1 member with rfl | later
      · cases isCircular
      · exact inductionHypothesis (expanding.warn _) inPath fits.tail ⟨note, later, isCircular⟩
  | circular refers defined inside _ _ =>
      rw [expanding.references] at refers
      exact ⟨_, Context.GroupPath.cycle inPath fits refers defined inside⟩
  | nested refers defined new inner _ innerHypothesis restHypothesis =>
      have advanced := (inner.advances expanding).expanding
      rw [expanding.references] at refers
      obtain ⟨note, member, isCircular⟩ := circular
      rcases List.mem_append.1 member with within | later
      · exact innerHypothesis expanding (fun _ => groupPath_cons inPath fits refers defined new)
          (fits_head _ _) ⟨note, within, isCircular⟩
      · exact restHypothesis advanced inPath fits.tail ⟨note, later, isCircular⟩

theorem ExpandsEach.cycle_of_circular {definitions : List NodeId}
    (expands : ExpandsEach origin.elementGroups definitions before notes after)
    (expanding : Expanding origin before)
    (defined : ∀ definition ∈ definitions, definition ∈ groupDefinitions origin.elementGroups)
    (circular : ∃ note ∈ notes, note.2.kind = .circularGroupReference) : origin.HasGroupCycle := by
  induction expands with
  | done =>
      obtain ⟨note, member, -⟩ := circular
      cases member
  | @next definition _ _ _ _ _ _ _ first _ inductionHypothesis =>
      obtain ⟨isDefined, restDefined⟩ := List.forall_mem_cons.1 defined
      obtain ⟨note, member, isCircular⟩ := circular
      rcases List.mem_append.1 member with inEarly | inLate
      · exact first.cycle_of_circular expanding (fun _ => .outermost isDefined)
          (fits_head definition []) ⟨note, inEarly, isCircular⟩
      · exact inductionHypothesis (first.advances expanding).expanding restDefined
          ⟨note, inLate, isCircular⟩

theorem ExpandsBelow.cycle_of_circular
    (expands : ExpandsBelow origin.elementGroups visited pending before notes after)
    (expanding : Expanding origin before)
    (circular : ∃ note ∈ notes, note.2.kind = .circularGroupReference) : origin.HasGroupCycle := by
  induction expands with
  | done =>
      obtain ⟨note, member, -⟩ := circular
      cases member
  | seen _ _ inductionHypothesis => exact inductionHypothesis expanding circular
  | absent _ expanded _ _ inductionHypothesis | visit _ expanded _ _ inductionHypothesis =>
      obtain ⟨note, member, isCircular⟩ := circular
      rcases List.mem_append.1 member with inEarly | inLate
      · exact expanded.cycle_of_circular expanding (fun nonempty => absurd rfl nonempty)
          (fun _ isInnermost => by cases isInnermost) ⟨note, inEarly, isCircular⟩
      · exact inductionHypothesis (expanded.advances expanding).expanding
          ⟨note, inLate, isCircular⟩

/-! ## Where nothing leads back there is no cycle -/

/-- All definitions to which a task leads are grounded. -/
def GroupTask.Grounded (origin : Context) : GroupTask → Prop
  | .node id => id ∈ groupDefinitions origin.elementGroups → origin.Grounded id
  | .children _ pending => ∀ child ∈ pending, ∀ reference definition,
      origin.groupReference? child = some reference →
      groupDefinition? origin.elementGroups reference = some definition →
      origin.Grounded definition

/-- The definitions without references left among their children are grounded. -/
def FinishedGrounded (origin current : Context) : Prop :=
  ∀ definition ∈ groupDefinitions origin.elementGroups,
    origin.Plain (current.children definition) → origin.Grounded definition

theorem Expands.grounded
    (expands : Expands origin.elementGroups path task before notes members after)
    (expanding : Expanding origin before) (finished : FinishedGrounded origin before)
    (onward : ∀ note ∈ notes, note.2.kind ≠ .circularGroupReference) :
    FinishedGrounded origin after ∧ task.Grounded origin := by
  induction expands with
  | flat plain =>
      exact ⟨finished, fun defined => finished _ defined (expanding.plain_iff.1 plain)⟩
  | @node path id context between element notes members found refers inside inductionHypothesis =>
      obtain ⟨finishedBetween, inner⟩ := inductionHypothesis expanding finished onward
      have same := expanding.children_eq found refers
      -- The node still has its first children, and all to which they lead is grounded.
      have grounded : origin.Grounded id := by
        refine .intro id fun other refersTo => ?_
        obtain ⟨-, child, member, reference, isReference, defined⟩ := refersTo
        exact inner child (same ▸ member) reference other isReference defined
      refine ⟨fun definition defined plain => ?_, fun _ => grounded⟩
      rw [children_setChildren] at plain
      split at plain
      · rename_i isNode
        rw [isNode.1]
        exact grounded
      · exact finishedBetween definition defined plain
  | done => exact ⟨finished, fun _ member => absurd member List.not_mem_nil⟩
  | keep plain _ inductionHypothesis =>
      obtain ⟨finishedAfter, rest⟩ := inductionHypothesis expanding finished onward
      refine ⟨finishedAfter, List.forall_mem_cons.2 ⟨fun reference definition refers _ => ?_, rest⟩⟩
      rw [← expanding.references, plain] at refers
      cases refers
  | undefined refers absent _ inductionHypothesis =>
      obtain ⟨finishedAfter, rest⟩ := inductionHypothesis (expanding.warn _) finished
        fun note member => onward note (List.mem_cons_of_mem _ member)
      refine ⟨finishedAfter, List.forall_mem_cons.2 ⟨fun reference definition again defined => ?_,
        rest⟩⟩
      rw [← expanding.references, refers] at again
      cases again
      rw [absent] at defined
      cases defined
  | circular _ _ _ _ _ => exact absurd rfl (onward _ (List.mem_cons_self ..))
  | nested refers defined _ inner _ innerHypothesis restHypothesis =>
      have advanced := (inner.advances expanding).expanding
      obtain ⟨onwardEarly, onwardLate⟩ := List.forall_mem_append.1 onward
      obtain ⟨finishedBetween, grounded⟩ := innerHypothesis expanding finished onwardEarly
      obtain ⟨finishedAfter, rest⟩ := restHypothesis advanced finishedBetween onwardLate
      refine ⟨finishedAfter, List.forall_mem_cons.2 ⟨fun reference definition again found => ?_,
        rest⟩⟩
      rw [← expanding.references, refers] at again
      cases again
      cases defined.symm.trans found
      exact grounded (mem_groupDefinitions defined)

/-- In the beginning the finished definitions are those that refer to nothing. -/
theorem finishedGrounded_refl (origin : Context) : FinishedGrounded origin origin := by
  refine fun definition _ plain => .intro definition fun other refersTo => ?_
  obtain ⟨-, child, member, reference, refers, -⟩ := refersTo
  rw [plain child member] at refers
  cases refers

/-- The pass warns about a circular reference exactly if definitions refer to one another in a
cycle. -/
theorem ExpandsGroups.circular_iff {root : NodeId}
    (expands : ExpandsGroups root before notes after) :
    (∃ note ∈ notes, note.2.kind = .circularGroupReference) ↔ before.HasGroupCycle := by
  obtain ⟨between, early, late, rfl, each, below⟩ := expands
  obtain ⟨expanding, -, definitionsPlain⟩ := each.advances (.refl before)
  constructor
  · rintro ⟨note, member, isCircular⟩
    rcases List.mem_append.1 member with inEarly | inLate
    · exact each.cycle_of_circular (.refl before) (fun _ member => member)
        ⟨note, inEarly, isCircular⟩
    · exact below.cycle_of_circular expanding ⟨note, inLate, isCircular⟩
  · rintro ⟨definition, cycle⟩
    -- If nothing led back, all definitions would be without references by now, and grounded.
    by_contra noneCircular
    have onward : ∀ note ∈ early, note.2.kind ≠ .circularGroupReference := by
      intro note member isCircular
      exact noneCircular ⟨note, List.mem_append_left _ member, isCircular⟩
    have finished := each.keeps (fun note => note.2.kind ≠ .circularGroupReference)
      (FinishedGrounded before) (fun first expanding onward finished =>
        (first.grounded expanding finished onward).1) (.refl before) onward
      (finishedGrounded_refl before)
    obtain ⟨next, ⟨defined, -⟩, -⟩ := Relation.TransGen.head'_iff.1 cycle
    exact before.not_transGen_of_grounded
      (finished definition defined (definitionsPlain definition defined)) cycle

/-- For every document that is read, the pass ends. Unless it gives up because definitions are
nested too deep, it warns about a circular reference exactly if definitions refer to one another in
a cycle, and every warning is about a reference of its own. -/
theorem circular_iff_cycle {options : Options} {document : Bytes} {context : Context}
    {root : NodeId} (read : readTree (.initial options) document = .ok (context, root)) :
    match expandGroups root context with
    | .error halt => context.Exceeds halt
    | .ok after => (∃ notes, ExpandsGroups root context notes after) ∧
        ∀ notes, ExpandsGroups root context notes after →
          after.warnings = context.warnings ++ notes.map Prod.snd ∧
          ((∃ note ∈ notes, note.2.kind = .circularGroupReference) ↔ context.HasGroupCycle) ∧
          (notes.map Prod.fst).Nodup ∧ ∀ note ∈ notes, ∃ parent, context.Explains parent note := by
  split
  · rename_i halted
    exact exceeds_of_expandGroups halted
  · rename_i after expanded
    refine ⟨exists_expandsGroups expanded, fun notes expands => ?_⟩
    have accounts := expands.accounts (branching_readTree read)
    refine ⟨expands.warnings, expands.circular_iff, accounts.nodup, fun note member => ?_⟩
    obtain ⟨parent, settles⟩ := accounts.settles note member
    exact ⟨parent, settles.explains⟩

/-- Two groups that refer to each other, and a type that refers to both. -/
def mutualGroupSchema : Bytes :=
  schemaDocument [
    "<s:group name='A'><s:sequence><s:group ref='B'/></s:sequence></s:group>",
    "<s:group name='B'><s:sequence><s:group ref='A'/></s:sequence></s:group>",
    "<s:complexType name='T'><s:sequence><s:group ref='A'/><s:group ref='B'/></s:sequence>",
    "</s:complexType>"]

/-- Groups that refer to each other are circular, and each reference to them is reported once. -/
theorem circular_iff_cycle_mutual :
    ∃ (document : Bytes) (context after : Context) (root : NodeId) (notes : List GroupNote),
      document = mutualGroupSchema ∧
      readTree (.initial .standard) document = .ok (context, root) ∧
      expandGroups root context = .ok after ∧ ExpandsGroups root context notes after ∧
      context.HasGroupCycle ∧
      (∃ note ∈ notes, note.2.kind = .circularGroupReference) ∧ (notes.map Prod.fst).Nodup := by
  have computed : readsTree .standard mutualGroupSchema
      (fun context _ => decide (groupDefinitions context.elementGroups = [⟨1⟩, ⟨3⟩] ∧
        context.children ⟨1⟩ = [⟨2⟩] ∧ context.children ⟨3⟩ = [⟨4⟩] ∧
        context.groupReference? ⟨2⟩ = some "B" ∧ context.groupReference? ⟨4⟩ = some "A" ∧
        groupDefinition? context.elementGroups "B" = some ⟨3⟩ ∧
        groupDefinition? context.elementGroups "A" = some ⟨1⟩ ∧
        context.options.limits.groupDepth = 100)) = true := by
    decide +kernel
  obtain ⟨context, root, read, checked⟩ := exists_of_readsTree computed
  obtain ⟨definitions, insideFirst, insideSecond, toSecond, toFirst, second, first, limit⟩ :=
    of_decide_eq_true checked
  have forth : context.RefersTo ⟨1⟩ ⟨3⟩ :=
    ⟨by rw [definitions]; decide, ⟨2⟩, by rw [insideFirst]; decide, "B", toSecond, second⟩
  have back : context.RefersTo ⟨3⟩ ⟨1⟩ :=
    ⟨by rw [definitions]; decide, ⟨4⟩, by rw [insideSecond]; decide, "A", toFirst, first⟩
  have cycle : context.HasGroupCycle := ⟨⟨1⟩, .head forth (.single back)⟩
  obtain ⟨after, expanded⟩ := exists_expandGroups_of_few root (by
    rw [definitions, limit]
    decide)
  have outcome := circular_iff_cycle read
  rw [expanded] at outcome
  obtain ⟨⟨notes, expands⟩, all⟩ := outcome
  obtain ⟨-, circular, nodup, -⟩ := all notes expands
  exact ⟨_, context, after, root, notes, rfl, read, expanded, expands, cycle, circular.2 cycle,
    nodup⟩

end XmlSchema
