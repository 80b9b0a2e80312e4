import XmlSchema.Proofs.Consistency.Keys
import XmlSchema.Proofs.Inheritance.Equalizing
import XmlSchema.Proofs.Models

/-!
# Mixed content of models

Up to the pass for mixed content no declaration is flagged and no warning is about mixed content:
every pass before keeps a context `Unannotated`. So the flags of a model are those of that pass, each
with its warning. In a model what a mixed declaration inherits from is mixed, and of the links
between a declaration that is not mixed and a mixed base exactly one is on every lineage that is not
uniform.
-/

namespace XmlSchema

variable {context : Context} {root id other : NodeId} {chain : List NodeId}

/-! ## Before the pass -/

namespace Context.Unannotated

variable (unannotated : context.Unannotated) (root)

theorem keptByExpansion : KeptByExpansion (fun _ => True) Context.Unannotated where
  contained _ _ _ _ _ _ := trivial
  undefined held _ _ := held.warn nofun
  circular held _ _ := held.warn nofun
  writes held id _ _ := held.modifyElement id fun _ => ⟨rfl, rfl⟩

theorem addSimpleBase (element : Element) (name : String) :
    (element.addSimpleBase name).isExtended = element.isExtended ∧
      (element.addSimpleBase name).mixedMismatch = element.mixedMismatch :=
  ⟨part_addSimpleBase Element.isExtended (fun _ _ => rfl) element name,
    part_addSimpleBase Element.mixedMismatch (fun _ _ => rfl) element name⟩

theorem settle (unannotated : context.Unannotated) (id : NodeId) (resolution : Resolution) :
    (context.settle id resolution).Unannotated := by
  unfold Context.settle
  split
  · exact unannotated
  · extract_lets isComplex settled
    have settling : settled.Unannotated := unannotated.modifyElement id fun _ => ⟨rfl, rfl⟩
    split
    · exact settling
    · exact { settling with }

theorem noteSimpleType (unannotated : context.Unannotated) (id : NodeId) (nominal : Nominal) :
    (context.noteSimpleType id nominal).Unannotated := by
  unfold Context.noteSimpleType
  split
  · exact unannotated.modifyElement id fun element => addSimpleBase element nominal.name
  · exact unannotated

include unannotated in
theorem resolveTypes : (endContext (resolveTypes root context)).Unannotated :=
  holds_resolveTypes noteSimpleType settle root unannotated

/-- The warnings of a merge are about attribute groups. -/
theorem warnings_mergedAttributes (context : Context) (element : Element) :
    ∀ warning ∈ (context.mergedAttributes element).warnings,
      warning.kind ≠ .mixedContentMismatch := by
  have kept : KeptByMerge context.attributeGroups element.name fun merge =>
      ∀ warning ∈ merge.warnings, warning.kind ≠ .mixedContentMismatch :=
    { undefined := fun held _ => List.forall_mem_append.2 ⟨held, by simp [Warning.undefinedAttributeGroup]⟩
      circular := fun held _ => List.forall_mem_append.2 ⟨held, by simp [Warning.circularAttributeGroup]⟩
      merges := fun held _ _ _ => held }
  exact kept.mergeGroups _ fun _ member => absurd member List.not_mem_nil

theorem foldl_warnings_mergedAttributes (unannotated : context.Unannotated) (element : Element) :
    ((context.mergedAttributes element).warnings.foldl Context.warn context).Unannotated :=
  List.foldlRecOn _ _ unannotated fun _ unannotated warning member =>
    unannotated.warn (warnings_mergedAttributes context element warning member)

include unannotated in
theorem completeDeclarations : (endContext (completeDeclarations root context)).Unannotated :=
  holds_completeDeclarations foldl_warnings_mergedAttributes
    (fun unannotated id element _ =>
      (unannotated.foldl_warnings_mergedAttributes element).modifyElement id fun _ => ⟨rfl, rfl⟩)
    root unannotated

include unannotated in
theorem separateAttributes : (endContext (separateAttributes root context)).Unannotated :=
  holds_separateAttributes (fun unannotated id _ => unannotated.modifyElement id fun _ => ⟨rfl, rfl⟩)
    root unannotated

include unannotated in
theorem resolveAttributeTypes : (endContext (resolveAttributeTypes root context)).Unannotated :=
  holds_resolveAttributeTypes
    (fun unannotated id _ _ _ => unannotated.modifyElement id fun _ => ⟨rfl, rfl⟩) root unannotated

include unannotated in
theorem expandGroups : (endContext (expandGroups root context)).Unannotated :=
  keptByExpansion.expandGroups root unannotated

include unannotated in
theorem indexElements : (indexElements root context).Unannotated := by
  rw [indexElements_eq]
  exact { unannotated with }

end Context.Unannotated

/-! ## Mixed content stays -/

/-- The changes that leave mixed content mixed. -/
def Change.mixing : Change where
  holds before after := before.isMixed = true → after.isMixed = true
  refl _ mixed := mixed
  trans left right mixed := right (left mixed)

theorem Frame.mixed {before after : Context} (frame : Frame .mixing before after)
    (mixed : before.Mixed id) : after.Mixed id := by
  obtain ⟨element, found, isMixed⟩ := mixed
  obtain ⟨changed, present, kept⟩ := frame.of_element? found
  exact ⟨changed, present, kept isMixed⟩

/-- What is mixed before a pass is mixed after it. -/
theorem mixed_runPass (root : NodeId) (context : Context) (pass : Pass) (mixed : context.Mixed id) :
    (endContext (pass.run root context)).Mixed id := by
  have noted : ∀ (element : Element) name, element.isMixed = true →
      (element.addSimpleBase name).isMixed = true := fun element name isMixed =>
    (part_addSimpleBase Element.isMixed (fun _ _ => rfl) element name).trans isMixed
  cases pass with
  | expandGroups =>
      exact (frame_expandGroups (fun _ _ isMixed => isMixed) root context).mixed mixed
  | indexElements =>
      show (XmlSchema.indexElements root context).Mixed id
      rw [indexElements_eq]
      exact mixed
  | resolveTypes =>
      exact (frame_resolveTypes (fun element name _ _ => noted element name)
        (fun _ _ _ _ isMixed => isMixed) root context).mixed mixed
  | completeDeclarations =>
      exact (frame_completeDeclarations
        (fun _ _ _ _ isMixed => Bool.or_eq_true_iff.2 (.inl isMixed)) root context).mixed mixed
  | separateAttributes =>
      exact (frame_separateAttributes (fun _ _ isMixed => isMixed) root context).mixed mixed
  | resolveAttributeTypes =>
      exact (frame_resolveAttributeTypes (fun _ _ _ _ isMixed => isMixed) root context).mixed mixed
  | checkMixedContent =>
      exact (frame_checkMixedContent (fun _ _ => rfl) noted (fun _ isMixed => isMixed) root
        context).mixed mixed
  | markExtended =>
      exact (frame_markExtended (fun _ isMixed => isMixed) root context).mixed mixed

theorem mixed_of_passes {before after : Context} {passes : List Pass}
    (completed : passes.foldlM (fun context pass => pass.run root context) before = .ok after)
    (mixed : before.Mixed id) : after.Mixed id := by
  have kept : ∀ pass ∈ passes, ∀ {before after : Context}, pass.run root before = .ok after →
      before.Mixed id → after.Mixed id := by
    intro pass _ before after taken mixed
    have later := mixed_runPass root before pass mixed
    rw [taken] at later
    exact later
  exact keeps_of_foldlM (fun _ mixed => mixed) (fun left right mixed => right (left mixed)) kept completed
    mixed

/-! ## After the pass -/

/-- How mixed content is settled below a root: a declaration from which a mixed one inherits is
mixed, and the declarations that are not mixed while their base is are flagged, `links` in order,
with a warning for each behind the earlier ones. -/
structure Context.MixedSettled (context : Context) (root : NodeId) (earlier : List Warning)
    (links : List NodeId) : Prop where
  upward : ∀ {id other}, id ∈ context.walk root → Relation.TransGen context.Inherits id other →
    context.Mixed id → context.Mixed other
  lineage : ∀ {id}, id ∈ context.walk root → ∃ chain, context.Lineage id chain
  once : links.Nodup
  flagged : ∀ {id}, context.Flagged id ↔ id ∈ links
  mismatched : ∀ link ∈ links, ∃ parent, context.Mismatched link parent
  settled : ∀ {id parent}, id ∈ context.walk root → context.Mismatched id parent → id ∈ links
  warnings : context.warnings = earlier ++ links.map context.mismatchWarning

/-- The last pass leaves flags and warnings alone. -/
theorem Reported.marked {equalized current : Context} {links : List NodeId}
    (reported : Reported equalized current links) (root : NodeId) :
    Reported equalized (markExtended root current) links := by
  have unwarned : (markExtended root current).warnings = current.warnings :=
    @holds_markExtended (fun marked => marked.warnings = current.warnings) (fun same _ => same)
      root current rfl
  have flags : Frame (.keeping Element.mixedMismatch) current (markExtended root current) :=
    frame_markExtended (fun _ => rfl) root current
  exact ⟨reported.frame.trans (frame_markExtended (fun _ => rfl) root current), reported.once,
    fun {id} => (flags.exists_iff id).trans reported.flagged, reported.mismatched,
    unwarned.trans reported.warnings⟩

/-- What the two rounds have done is how mixed content is settled. -/
theorem Reported.mixedSettled {equalized final : Context} {links : List NodeId}
    {chains : List (NodeId × List NodeId)} (reported : Reported equalized final links)
    (gone : Equalized context (equalized, chains))
    (covers : ∀ id ∈ context.walk root, ∃ chain, (id, chain) ∈ chains)
    (settled : ∀ entry ∈ chains, ∀ parent, equalized.Mismatched entry.1 parent →
      entry.1 ∈ links) : final.MixedSettled root context.warnings links := by
  have before : Frame (.keeping Element.kinship) context equalized := gone.frame.view (·.1)
  have after : Frame (.keeping Element.kinship) equalized final := reported.frame.view (·.1)
  have walks : final.walk root = context.walk root :=
    (before.trans after).walk_of_kinship root
  have parents := (before.trans after).parent?_of_kinship
  refine ⟨?_, ?_, reported.once, reported.flagged, ?_, ?_, ?_⟩
  · intro id other member inherits mixed
    obtain ⟨chain, entry⟩ := covers id (walks ▸ member)
    have lineage := (Context.lineage_congr parents).2 (gone.lineage _ entry)
    have closed := gone.closed _ entry (reported.frame.mixed_iff.1 mixed)
    exact reported.frame.mixed_iff.2 (closed other (lineage.mem_iff.2 inherits))
  · intro id member
    obtain ⟨chain, entry⟩ := covers id (walks ▸ member)
    exact ⟨chain, (Context.lineage_congr parents).2 (gone.lineage _ entry)⟩
  · intro link member
    obtain ⟨parent, mismatched⟩ := reported.mismatched link member
    exact ⟨parent, reported.frame.mismatched_iff.2 mismatched⟩
  · intro id parent member mismatched
    obtain ⟨chain, entry⟩ := covers id (walks ▸ member)
    exact settled _ entry parent (reported.frame.mismatched_iff.1 mismatched)
  · rw [reported.warnings, show equalized.warnings = context.warnings from gone.warnings]
    congr 1
    refine List.map_congr_left fun link member => ?_
    obtain ⟨parent, mismatched⟩ := reported.mismatched link member
    exact (after.mismatchWarning_of_kinship mismatched).symm

/-- When the last two passes have gone over declarations without flags, mixed content is settled. -/
theorem exists_mixedSettled {mixed : Context} (unannotated : context.Unannotated)
    (enclosed : context.Enclosed root) (completed : checkMixedContent root context = .ok mixed) :
    ∃ links, (markExtended root mixed).MixedSettled root context.warnings links := by
  unfold checkMixedContent at completed
  split at completed
  · cases completed
  · rename_i equalized chains firstRound
    cases completed
    have nothing : Equalized context (context, []) :=
      ⟨.refl _ context, rfl, nofun, nofun⟩
    obtain ⟨gone, -, covers⟩ := nothing.run enclosed firstRound
    have unreported : Reported equalized equalized [] := by
      refine ⟨.refl _ equalized, List.nodup_nil, fun {id} => ?_, nofun, (List.append_nil _).symm⟩
      have flags : Frame (.keeping Element.mixedMismatch) context equalized :=
        gone.frame.view (·.2)
      refine (flags.exists_iff id).trans ⟨?_, nofun⟩
      rintro ⟨element, found, flagged⟩
      cases (unannotated.unflagged found).symm.trans flagged
    have kinship : Frame (.keeping Element.kinship) context equalized := gone.frame.view (·.1)
    have lineage : ∀ entry ∈ chains.reverse, equalized.Lineage entry.1 entry.2 :=
      fun entry member => (Context.lineage_congr kinship.parent?_of_kinship).2
        (gone.lineage entry (List.mem_reverse.1 member))
    have closed : ∀ entry ∈ chains.reverse, equalized.Mixed entry.1 →
        ∀ member ∈ entry.2, equalized.Mixed member :=
      fun entry member => gone.closed entry (List.mem_reverse.1 member)
    obtain ⟨links, reported, settled⟩ := unreported.run lineage closed
    exact ⟨links, (reported.marked root).mixedSettled gone covers
      fun entry member => settled entry (List.mem_reverse.2 member)⟩

/-- Where a lineage starts from an unmixed declaration and leads to a mixed one, and what mixed ones
inherit from is mixed, there is one link at which the content changes. -/
theorem Context.Lineage.existsUnique_mismatched (lineage : context.Lineage id chain)
    (closed : ∀ member ∈ chain, ∀ other, Relation.TransGen context.Inherits member other →
      context.Mixed member → context.Mixed other)
    (unmixed : ¬ context.Mixed id) (mixed : ∃ member ∈ chain, context.Mixed member) :
    ∃! link, link ∈ id :: chain ∧ ∃ parent, context.Mismatched link parent := by
  induction lineage with
  | top =>
      obtain ⟨member, inside, -⟩ := mixed
      cases inside
  | @step id parent rest inherits later inductionHypothesis =>
      by_cases parentMixed : context.Mixed parent
      · refine ⟨id, ⟨List.mem_cons_self, parent, inherits, unmixed, parentMixed⟩, ?_⟩
        rintro other ⟨member, -, -, otherUnmixed, -⟩
        rcases List.mem_cons.1 member with rfl | above
        · rfl
        · refine absurd ?_ otherUnmixed
          rcases List.mem_cons.1 above with rfl | beyond
          · exact parentMixed
          · exact closed parent List.mem_cons_self other (later.mem_iff.1 beyond) parentMixed
      · obtain ⟨member, inside, isMixed⟩ := mixed
        have beyond : ∃ member ∈ rest, context.Mixed member := by
          rcases List.mem_cons.1 inside with rfl | beyond
          · exact absurd isMixed parentMixed
          · exact ⟨member, beyond, isMixed⟩
        obtain ⟨link, ⟨within, torn⟩, unique⟩ := inductionHypothesis
          (fun member inside => closed member (List.mem_cons_of_mem parent inside)) parentMixed beyond
        refine ⟨link, ⟨List.mem_cons_of_mem id within, torn⟩, ?_⟩
        rintro other ⟨otherWithin, top, mismatched⟩
        rcases List.mem_cons.1 otherWithin with rfl | above
        · exact absurd (inherits.unique mismatched.1 ▸ mismatched.2.2) parentMixed
        · exact unique other ⟨above, top, mismatched⟩

namespace Context.MixedSettled

variable {earlier : List Warning} {links : List NodeId}
  (settled : context.MixedSettled root earlier links)

include settled in
theorem flagged_iff (member : id ∈ context.walk root) :
    context.Flagged id ↔ ∃ parent, context.Mismatched id parent :=
  settled.flagged.trans ⟨settled.mismatched id, fun ⟨_, mismatched⟩ =>
    settled.settled member mismatched⟩

include settled in
theorem filter_warnings (others : ∀ warning ∈ earlier, warning.kind ≠ .mixedContentMismatch) :
    context.warnings.filter (fun warning => warning.kind = .mixedContentMismatch) =
      links.map context.mismatchWarning := by
  have noneBefore : earlier.filter (fun warning => warning.kind = .mixedContentMismatch) = [] := by
    simpa using others
  have allAfter : (links.map context.mismatchWarning).filter
      (fun warning => warning.kind = .mixedContentMismatch) =
        links.map context.mismatchWarning := by
    refine List.filter_eq_self.2 fun warning member => ?_
    obtain ⟨link, -, rfl⟩ := List.mem_map.1 member
    rfl
  rw [settled.warnings, List.filter_append, noneBefore, allAfter, List.nil_append]

include settled in
/-- On a lineage that is not uniform one link is flagged. -/
theorem existsUnique_flagged (enclosed : context.Enclosed root) (member : id ∈ context.walk root)
    (lineage : context.Lineage id chain)
    (differs : ∃ other ∈ chain, ¬ (context.Mixed other ↔ context.Mixed id)) :
    ∃! link, link ∈ id :: chain ∧ context.Flagged link := by
  have inWalk : ∀ link ∈ id :: chain, link ∈ context.walk root :=
    List.forall_mem_cons.2 ⟨member, fun _ => lineage.mem_walk enclosed⟩
  obtain ⟨other, above, different⟩ := differs
  have unmixed : ¬ context.Mixed id := fun isMixed =>
    different (iff_of_true (settled.upward member (lineage.mem_iff.1 above) isMixed) isMixed)
  have otherMixed : context.Mixed other := by
    by_contra otherUnmixed
    exact different (iff_of_false otherUnmixed unmixed)
  obtain ⟨link, ⟨within, torn⟩, unique⟩ := lineage.existsUnique_mismatched
    (fun middle inside _ => settled.upward (inWalk middle (List.mem_cons_of_mem id inside)))
    unmixed ⟨other, above, otherMixed⟩
  refine ⟨link, ⟨within, (settled.flagged_iff (inWalk link within)).2 torn⟩, ?_⟩
  rintro another ⟨anotherWithin, flagged⟩
  exact unique another
    ⟨anotherWithin, (settled.flagged_iff (inWalk another anotherWithin)).1 flagged⟩

end Context.MixedSettled

/-! ## Models -/

section Models

variable {options : Options} {document : Bytes} {surveyed : Context}

theorem unannotated_survey (found : survey options document = .ok (surveyed, root)) :
    surveyed.Unannotated := by
  obtain ⟨context, expanded, read, expandedGroups, rfl⟩ := exists_of_survey found
  have expansion := (unannotated_readTree read).expandGroups root
  rw [expandedGroups] at expansion
  exact expansion.indexElements root

theorem enclosed_survey (found : survey options document = .ok (surveyed, root)) :
    surveyed.Enclosed root :=
  fun _ _ entered => (indexed_survey found entered).1

theorem Context.Enclosed.of_frame {before after : Context} (enclosed : before.Enclosed root)
    (frame : Frame (.keeping Element.children) before after) : after.Enclosed root := by
  intro name id entered
  rw [frame.elementIndex] at entered
  have walks : after.walk root = before.walk root := Arena.walk_congr frame.map_element? root
  rw [walks]
  exact enclosed name id entered

/-- The mixed content of a model is settled, and no earlier warning is about it. -/
theorem exists_mixedSettled_of_compileBytes {model : Model}
    (compiled : compileBytes options document = .ok model) :
    model.context.Enclosed model.root ∧ ∃ earlier links,
      (∀ warning ∈ earlier, warning.kind ≠ .mixedContentMismatch) ∧
        model.context.MixedSettled model.root earlier links := by
  obtain ⟨surveyed, typed, completed, separated, attributed, mixed, found, stages⟩ :=
    exists_stages compiled
  have unannotated : attributed.Unannotated := by
    have typing := (unannotated_survey found).resolveTypes model.root
    rw [stages.types] at typing
    have completion := typing.completeDeclarations model.root
    rw [endContext_ok, stages.completion] at completion
    have separation := completion.separateAttributes model.root
    rw [endContext_ok, stages.separation] at separation
    have resolution := separation.resolveAttributeTypes model.root
    rw [endContext_ok, stages.attributeTypes] at resolution
    exact resolution
  have children : Frame (.keeping Element.children) surveyed attributed :=
    stages.frame_separation.trans ((frame_resolveAttributeTypes (fun _ _ _ _ => rfl) model.root
      separated).of_ok stages.attributeTypes)
  have enclosed := (enclosed_survey found).of_frame children
  obtain ⟨links, settled⟩ := exists_mixedSettled unannotated enclosed stages.mixedContent
  rw [stages.extension] at settled
  have whole : Frame (.keeping Element.children) surveyed model.context :=
    stages.frame_shape.view (·.2.2)
  exact ⟨(enclosed_survey found).of_frame whole, attributed.warnings, links, unannotated.unwarned,
    settled⟩

/-- In a model what a mixed declaration below the root inherits from is mixed, and whatever was mixed
before any pass is mixed in the end. Exactly those declarations below the root are flagged that are
not mixed while their base is. Each flagged declaration has one warning, and every lineage that is
not uniform has one flagged link. -/
theorem mixedContent_of_compileBytes {model : Model}
    (compiled : compileBytes options document = .ok model) :
    (∀ id other, model.context.arena.Reaches model.root id →
      Relation.TransGen model.context.Inherits id other → model.context.Mixed id →
        model.context.Mixed other) ∧
    (∀ context between early late,
      readTree (.initial options) document = .ok (context, model.root) →
      Pass.all = early ++ late →
      early.foldlM (fun context pass => pass.run model.root context) context = .ok between →
        ∀ id, between.Mixed id → model.context.Mixed id) ∧
    (∀ id, model.context.arena.Reaches model.root id →
      (model.context.Flagged id ↔ ∃ parent, model.context.Mismatched id parent)) ∧
    (∃ flagged : List NodeId, flagged.Nodup ∧ (∀ id, model.context.Flagged id ↔ id ∈ flagged) ∧
      (∀ link ∈ flagged, ∃ parent, model.context.Mismatched link parent) ∧
      model.context.warnings.filter (fun warning => warning.kind = .mixedContentMismatch) =
        flagged.map model.context.mismatchWarning) ∧
    ∀ id, model.context.arena.Reaches model.root id →
      ∃ chain, model.context.Lineage id chain ∧
        ((∃ member ∈ chain, ¬ (model.context.Mixed member ↔ model.context.Mixed id)) →
          ∃! link, link ∈ id :: chain ∧ model.context.Flagged link) := by
  obtain ⟨enclosed, earlier, links, others, settled⟩ :=
    exists_mixedSettled_of_compileBytes compiled
  refine ⟨fun id other reached inherits mixed => ?_, ?_, fun id reached => ?_,
    ⟨links, settled.once, fun _ => settled.flagged, settled.mismatched,
      settled.filter_warnings others⟩, fun id reached => ?_⟩
  · have declared : (model.context.element? id).isSome :=
      Option.isSome_iff_exists.2 (mixed.imp fun _ => And.left)
    exact settled.upward (Arena.mem_walk_iff.2 ⟨reached, declared⟩) inherits mixed
  · intro context between early late read cut run id mixed
    obtain ⟨other, readAgain, annotated⟩ := exists_annotate_of_compileBytes compiled
    cases read.symm.trans readAgain
    obtain ⟨same, runAgain, rest⟩ := exists_between_of_annotate cut annotated
    cases run.symm.trans runAgain
    exact mixed_of_passes rest mixed
  · cases found : model.context.element? id with
    | none =>
        constructor
        · rintro ⟨element, present, -⟩
          cases found.symm.trans present
        · rintro ⟨parent, inherits, -⟩
          obtain ⟨element, -, present, -⟩ := inherits.indexed
          cases found.symm.trans present
    | some element =>
        exact settled.flagged_iff
          (Arena.mem_walk_iff.2 ⟨reached, Option.isSome_iff_exists.2 ⟨element, found⟩⟩)
  · cases found : model.context.element? id with
    | none => exact ⟨[], .top (Context.parent?_of_absent found), nofun⟩
    | some element =>
        have member : id ∈ model.context.walk model.root :=
          Arena.mem_walk_iff.2 ⟨reached, Option.isSome_iff_exists.2 ⟨element, found⟩⟩
        obtain ⟨chain, lineage⟩ := settled.lineage member
        exact ⟨chain, lineage, settled.existsUnique_flagged enclosed member lineage⟩

/-- Two types of one base, of which the later one is mixed. -/
def mixedSiblingSchema : Bytes :=
  schemaDocument [
    "<s:complexType name='A'><s:complexContent><s:extension base='B'/></s:complexContent>",
    "</s:complexType><s:complexType name='B'/><s:complexType name='C' mixed='true'>",
    "<s:complexContent><s:extension base='B'/></s:complexContent></s:complexType>"]

/-- A type that was gone over before another one made their common base mixed. -/
theorem mixedContent_of_compileBytes_siblings :
    ∃ (model : Model) (id : NodeId) (element : Element) (parent : NodeId) (flagged : List NodeId),
      compileBytes .standard mixedSiblingSchema = .ok model ∧
      model.context.element? id = some element ∧ element.name = "A" ∧
      model.context.Mismatched id parent ∧ id ∈ flagged ∧
      model.context.warnings = [.mixedContentMismatch "A" "B"] ∧
      flagged.map model.context.mismatchWarning = [.mixedContentMismatch "A" "B"] := by
  have computed : compilesFlat .standard mixedSiblingSchema
      (Model.anyElement fun model element => decide (element.name = "A" ∧
        element.mixedMismatch = true ∧
        model.context.warnings = [.mixedContentMismatch "A" "B"])) = true := by
    decide +kernel
  obtain ⟨model, id, element, compiled, reached, found, checked⟩ :=
    exists_element_of_compilesFlat computed
  obtain ⟨name, isFlagged, warnings⟩ := of_decide_eq_true checked
  obtain ⟨-, -, flags, ⟨flagged, -, listed, -, reported⟩, -⟩ :=
    mixedContent_of_compileBytes compiled
  have hasFlag : model.context.Flagged id := ⟨element, found, isFlagged⟩
  obtain ⟨parent, mismatched⟩ := (flags id reached).1 hasFlag
  rw [warnings] at reported
  exact ⟨model, id, element, parent, flagged, compiled, found, name, mismatched,
    (listed id).1 hasFlag, warnings, reported.symm⟩

end Models

end XmlSchema
