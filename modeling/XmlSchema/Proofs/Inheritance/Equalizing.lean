import XmlSchema.Proofs.Inheritance.Bounds

/-!
# Mixed content along lineages

The pass for mixed content goes over the declarations twice. First it makes the ancestors of mixed
declarations mixed, and afterwards the ancestors of a mixed declaration are mixed, whatever was gone
over later: `Equalized.closed`. Then it goes up from every declaration and flags the first link to a
mixed base, unless that is flagged already. So in the end every such link is flagged, and every flag
has its warning: `Reported`.
-/

namespace XmlSchema

namespace Context

section Definitions

variable (context : Context)

/-- Whether a handle is that of a declaration with mixed content. -/
def Mixed (id : NodeId) : Prop :=
  ∃ element, context.element? id = some element ∧ element.isMixed = true

/-- Whether a handle is that of a declaration flagged for its mixed content. -/
def Flagged (id : NodeId) : Prop :=
  ∃ element, context.element? id = some element ∧ element.mixedMismatch = true

/-- Whether a declaration is not mixed while the one from which it inherits is. -/
def Mismatched (id parent : NodeId) : Prop :=
  context.Inherits id parent ∧ ¬ context.Mixed id ∧ context.Mixed parent

/-- The warning about a declaration that is not mixed while its base is. -/
def mismatchWarning (id : NodeId) : Warning :=
  .mixedContentMismatch (context.nodeName id)
    (((context.parent? id).map fun found => context.nodeName found.2).getD "")

/-- Everything in the index is a declaration below the root. -/
def Enclosed (root : NodeId) : Prop :=
  ∀ name id, context.elementIndex.find? name = some id → id ∈ context.walk root

end Definitions

instance (context : Context) (id : NodeId) : Decidable (context.Mixed id) :=
  decidable_of_iff ((context.element? id).any Element.isMixed = true) (Option.any_eq_true _ _)

end Context

variable {context before after next : Context} {root id other link parent : NodeId}
  {chain : List NodeId}

theorem Context.Lineage.mem_walk (lineage : context.Lineage id chain)
    (enclosed : context.Enclosed root) (member : other ∈ chain) : other ∈ context.walk root := by
  obtain ⟨last, -, inherits⟩ := Relation.TransGen.tail'_iff.1 (lineage.mem_iff.1 member)
  obtain ⟨element, base, -, indexed⟩ := inherits.indexed
  exact enclosed base other indexed

/-! ## Making ancestors mixed -/

theorem mixed_modifyElement :
    (context.modifyElement id ({ · with isMixed := true })).Mixed other ↔
      context.Mixed other ∨ (other = id ∧ (context.element? other).isSome) :=
  exists_modifyElement_iff fun _ => rfl

theorem mixed_foldl {members : List NodeId} :
    (members.foldl (fun context member => context.modifyElement member ({ · with isMixed := true }))
      context).Mixed other ↔
      context.Mixed other ∨ (other ∈ members ∧ (context.element? other).isSome) := by
  induction members generalizing context with
  | nil => simp
  | cons member rest inductionHypothesis =>
      have frame : Frame .any context (context.modifyElement member ({ · with isMixed := true })) :=
        .modifyElement context member fun _ _ => trivial
      rw [List.foldl_cons, inductionHypothesis, mixed_modifyElement, frame.isSome_element? other,
        List.mem_cons, or_and_right, or_assoc]

/-- What is mixed once a declaration and its ancestors are equalized. -/
theorem mixed_equalizeMixed {members : List NodeId} :
    (context.equalizeMixed members).Mixed other ↔
      context.Mixed other ∨ ((∃ member ∈ members, context.Mixed member) ∧ other ∈ members ∧
        (context.element? other).isSome) := by
  have anyMixed : (members.filterMap context.element?).any Element.isMixed = true ↔
      ∃ member ∈ members, context.Mixed member := by
    rw [List.any_eq_true]
    constructor
    · rintro ⟨element, member, isMixed⟩
      obtain ⟨handle, inside, found⟩ := List.mem_filterMap.1 member
      exact ⟨handle, inside, element, found, isMixed⟩
    · rintro ⟨handle, inside, element, found, isMixed⟩
      exact ⟨element, List.mem_filterMap.2 ⟨handle, inside, found⟩, isMixed⟩
  unfold Context.equalizeMixed
  rw [← anyMixed]
  split
  · rename_i someMixed
    rw [mixed_foldl, and_iff_right someMixed]
  · rename_i noneMixed
    exact (or_iff_left fun both => noneMixed both.1).symm

theorem warnings_equalizeMixed (context : Context) (members : List NodeId) :
    (context.equalizeMixed members).warnings = context.warnings :=
  @holds_equalizeMixed (fun equalized => equalized.warnings = context.warnings)
    (fun same _ => same) context rfl members

/-- The part of a declaration that the first round does not write. -/
def Element.beforeEqualizing (element : Element) :
    (String × Option String × List NodeId) × Bool :=
  (element.kinship, element.mixedMismatch)

/-- What has been gone over in the first round: every declaration is there with its lineage, and the
ancestors of those that are mixed are mixed. -/
structure Equalized (origin : Context) (state : Context × List (NodeId × List NodeId)) : Prop where
  frame : Frame (.keeping Element.beforeEqualizing) origin state.1
  warnings : state.1.warnings = origin.warnings
  lineage : ∀ entry ∈ state.2, origin.Lineage entry.1 entry.2
  closed : ∀ entry ∈ state.2, state.1.Mixed entry.1 → ∀ member ∈ entry.2, state.1.Mixed member

/-- One step of the first round. -/
theorem of_equalizeElement {state result : Context × List (NodeId × List NodeId)}
    (taken : equalizeElement state id = .ok result) :
    ∃ chain, state.1.Lineage id chain ∧ result.2 = (id, chain) :: state.2 ∧
      result.1.warnings = state.1.warnings ∧
      ∀ other, result.1.Mixed other ↔ state.1.Mixed other ∨
        ((∃ member ∈ id :: chain, state.1.Mixed member) ∧ other ∈ id :: chain ∧
          (state.1.element? other).isSome) := by
  obtain ⟨current, chains⟩ := state
  unfold equalizeElement at taken
  dsimp only at taken
  split at taken
  · cases taken
  · rename_i chain climbed
    cases taken
    refine ⟨chain, (Context.ancestors_eq_ok_iff.1 climbed).1, rfl,
      warnings_equalizeMixed current (id :: chain), fun other => ?_⟩
    have frame : Frame (.keeping Element.isMixed) (current.equalizeMixed (id :: chain))
        ((current.equalizeMixed (id :: chain)).modifyElement id
          (current.equalizeMixed (id :: chain)).withSimpleBases) :=
      .modifyElement _ id fun element _ =>
        holds_withSimpleBases (part_addSimpleBase Element.isMixed fun _ _ => rfl) _ element
    exact (frame.exists_iff other).trans mixed_equalizeMixed

theorem Equalized.step {origin : Context} {state result : Context × List (NodeId × List NodeId)}
    (equalized : Equalized origin state) (enclosed : origin.Enclosed root)
    (taken : equalizeElement state id = .ok result) : Equalized origin result := by
  obtain ⟨chain, lineage, entries, warnings, mixedIff⟩ := of_equalizeElement taken
  have frame : Frame (.keeping Element.beforeEqualizing) state.1
      (endContext ((equalizeElement state id).map Prod.fst)) :=
    frame_equalizeElement (fun _ => rfl)
      (part_addSimpleBase Element.beforeEqualizing fun _ _ => rfl) state id
  rw [taken] at frame
  have kinship : Frame (.keeping Element.kinship) origin state.1 := equalized.frame.view (·.1)
  have ancestry : origin.Lineage id chain :=
    (Context.lineage_congr kinship.parent?_of_kinship).1 lineage
  have declared : ∀ {id chain}, origin.Lineage id chain → ∀ member ∈ chain,
      (state.1.element? member).isSome := by
    intro id chain lineage member inside
    rw [kinship.isSome_element? member]
    exact (Arena.mem_walk_iff.1 (lineage.mem_walk enclosed inside)).2
  refine ⟨equalized.frame.trans frame, warnings.trans equalized.warnings, ?_, ?_⟩
  · rw [entries]
    exact List.forall_mem_cons.2 ⟨ancestry, equalized.lineage⟩
  · rw [entries]
    refine List.forall_mem_cons.2 ⟨fun isMixed member inside => ?_,
      fun entry earlier isMixed member inside => ?_⟩
    · have someMixed : ∃ member ∈ id :: chain, state.1.Mixed member := by
        rcases (mixedIff id).1 isMixed with before | ⟨someMixed, -⟩
        · exact ⟨id, List.mem_cons_self, before⟩
        · exact someMixed
      exact (mixedIff member).2 (.inr ⟨someMixed, List.mem_cons_of_mem id inside,
        declared ancestry member inside⟩)
    · have own := equalized.lineage entry earlier
      rcases (mixedIff entry.1).1 isMixed with before | ⟨someMixed, within, -⟩
      · exact (mixedIff member).2 (.inl (equalized.closed entry earlier before member inside))
      · -- What is made mixed now has its ancestors among those that are.
        have above := ancestry.mem_of_mem within own inside
        exact (mixedIff member).2 (.inr ⟨someMixed, List.mem_cons_of_mem id above,
          declared ancestry member above⟩)

/-- The first round keeps what has been gone over, and goes over every declaration. -/
theorem Equalized.run {origin : Context} {state result : Context × List (NodeId × List NodeId)}
    (equalized : Equalized origin state) (enclosed : origin.Enclosed root) {items : List NodeId}
    (completed : items.foldlM equalizeElement state = .ok result) :
    Equalized origin result ∧ (∀ entry ∈ state.2, entry ∈ result.2) ∧
      ∀ id ∈ items, ∃ chain, (id, chain) ∈ result.2 := by
  induction items generalizing state with
  | nil =>
      cases foldlM_nil_eq_ok_iff.1 completed
      exact ⟨equalized, fun _ => id, fun _ member => absurd member List.not_mem_nil⟩
  | cons item rest inductionHypothesis =>
      obtain ⟨next, taken, later⟩ := foldlM_cons_eq_ok_iff.1 completed
      obtain ⟨equalizedAfter, kept, covers⟩ :=
        inductionHypothesis (equalized.step enclosed taken) later
      obtain ⟨chain, -, entries, -⟩ := of_equalizeElement taken
      rw [entries] at kept
      refine ⟨equalizedAfter, fun entry earlier => kept entry (List.mem_cons_of_mem _ earlier), ?_⟩
      exact List.forall_mem_cons.2 ⟨⟨chain, kept _ List.mem_cons_self⟩, covers⟩

/-! ## Flagging links -/

namespace Context

/-- A flag on a declaration, with the warning. -/
def flag (context : Context) (link parent : NodeId) : Context :=
  (context.modifyElement link ({ · with mixedMismatch := true })).warn
    (.mixedContentMismatch (context.nodeName link) (context.nodeName parent))

/-- What the check of one lineage does. It flags no more than one link, and after it the declaration
from which the lineage starts is flagged if it is such a link. -/
inductive Checks (context : Context) (id : NodeId) : Context → Prop where
  | keeps (settled : ∀ parent, context.Mismatched id parent → context.Flagged id) :
      Checks context id context
  | flags {link parent : NodeId} (mismatched : context.Mismatched link parent)
      (unflagged : ¬ context.Flagged link) (own : ∀ other, context.Mismatched id other → link = id) :
      Checks context id (context.flag link parent)

/-- The check of a lineage from an unmixed declaration on. -/
theorem checks_flagMismatch (lineage : context.Lineage id chain) (unmixed : ¬ context.Mixed id) :
    context.Checks id (context.flagMismatch false id chain) := by
  induction lineage with
  | top ends =>
      refine .keeps fun parent mismatched => ?_
      obtain ⟨base, leads⟩ := mismatched.1
      cases leads.symm.trans ends
  | @step id parent rest inherits _ inductionHypothesis =>
      have parentMixed : ((context.element? parent).map Element.isMixed).getD false = true ↔
          context.Mixed parent := by
        unfold Mixed
        cases context.element? parent with
        | none => simp
        | some element => simp
      obtain ⟨element, base, found, -⟩ := inherits.indexed
      unfold flagMismatch
      dsimp only
      split
      · rename_i same
        have parentUnmixed : ¬ context.Mixed parent := by
          rw [← parentMixed, same]
          decide
        have notTorn : ∀ other, ¬ context.Mismatched id other := fun other mismatched =>
          parentUnmixed (inherits.unique mismatched.1 ▸ mismatched.2.2)
        have above := inductionHypothesis parentUnmixed
        revert above
        generalize context.flagMismatch false parent rest = result
        intro above
        cases above with
        | keeps _ => exact .keeps fun other mismatched => absurd mismatched (notTorn other)
        | flags mismatched unflagged _ =>
            exact .flags mismatched unflagged fun other own => absurd own (notTorn other)
      · rename_i different
        have isMixed : context.Mixed parent := parentMixed.1 (Bool.of_not_eq_false different)
        rw [found]
        dsimp only
        split
        · rename_i already
          exact .keeps fun _ _ => ⟨element, found, already⟩
        · rename_i unflagged
          have flags : context.Checks id (context.flag id parent) := by
            refine .flags ⟨inherits, unmixed, isMixed⟩ ?_ fun _ _ => rfl
            rintro ⟨other, otherFound, already⟩
            cases found.symm.trans otherFound
            exact unflagged already
          unfold flag at flags
          rw [nodeName_of_element? found] at flags
          exact flags

/-- A lineage on which all content is alike has nothing to flag. -/
theorem flagMismatch_of_uniform {isMixed : Bool}
    (uniform : ∀ member ∈ chain, context.Mixed member ↔ isMixed = true) (link : NodeId) :
    context.flagMismatch isMixed link chain = context := by
  induction chain generalizing link with
  | nil => rfl
  | cons parent rest inductionHypothesis =>
      obtain ⟨own, later⟩ := List.forall_mem_cons.1 uniform
      have same : ((context.element? parent).map Element.isMixed).getD isMixed = isMixed := by
        cases found : context.element? parent with
        | none => rfl
        | some element =>
            have mixed : context.Mixed parent ↔ element.isMixed = true := by
              simp [Mixed, found]
            exact Bool.eq_iff_iff.2 (mixed.symm.trans own)
      unfold flagMismatch
      dsimp only
      rw [if_pos same]
      exact inductionHypothesis later parent

theorem checks_checkMixed (lineage : context.Lineage id chain)
    (closed : context.Mixed id → ∀ member ∈ chain, context.Mixed member) :
    context.Checks id (context.checkMixed id chain) := by
  unfold checkMixed
  split
  · rename_i element found
    cases isMixed : element.isMixed with
    | true =>
        have mixed : context.Mixed id := ⟨element, found, isMixed⟩
        rw [flagMismatch_of_uniform fun member inside => iff_of_true (closed mixed member inside) rfl]
        exact .keeps fun _ mismatched => absurd mixed mismatched.2.1
    | false =>
        refine checks_flagMismatch lineage ?_
        rintro ⟨other, otherFound, otherMixed⟩
        cases found.symm.trans otherFound
        rw [isMixed] at otherMixed
        cases otherMixed
  · rename_i absent
    refine .keeps fun parent mismatched => ?_
    obtain ⟨element, base, found, -⟩ := mismatched.1.indexed
    cases absent.symm.trans found

end Context

/-- The part of a declaration that the second round does not write. -/
def Element.beforeFlagging (element : Element) : (String × Option String × List NodeId) × Bool :=
  (element.kinship, element.isMixed)

/-- What has been flagged in the second round: `links`, in this order, each once and each with its
warning. -/
structure Reported (equalized current : Context) (links : List NodeId) : Prop where
  frame : Frame (.keeping Element.beforeFlagging) equalized current
  once : links.Nodup
  flagged : ∀ {id}, current.Flagged id ↔ id ∈ links
  mismatched : ∀ link ∈ links, ∃ parent, equalized.Mismatched link parent
  warnings : current.warnings = equalized.warnings ++ links.map equalized.mismatchWarning

/-! ### What is mismatched does not change -/

namespace Frame

variable (frame : Frame (.keeping Element.beforeFlagging) before after)

include frame in
theorem mixed_iff : after.Mixed id ↔ before.Mixed id := by
  have kept : Frame (.keeping Element.isMixed) before after := frame.view (·.2)
  exact kept.exists_iff id

include frame in
theorem mismatched_iff : after.Mismatched id parent ↔ before.Mismatched id parent := by
  have kinship : Frame (.keeping Element.kinship) before after := frame.view (·.1)
  unfold Context.Mismatched
  rw [Context.inherits_congr kinship.parent?_of_kinship, frame.mixed_iff, frame.mixed_iff]

end Frame

theorem Frame.nodeName_of_kinship (frame : Frame (.keeping Element.kinship) before after)
    {element : Element} (found : before.element? id = some element) :
    after.nodeName id = before.nodeName id := by
  obtain ⟨changed, present, same⟩ := frame.of_element? found
  rw [nodeName_of_element? found, nodeName_of_element? present]
  exact congrArg (·.1) same

theorem mismatchWarning_eq (mismatched : context.Mismatched link parent) :
    context.mismatchWarning link =
      .mixedContentMismatch (context.nodeName link) (context.nodeName parent) := by
  obtain ⟨base, leads⟩ := mismatched.1
  unfold Context.mismatchWarning
  rw [leads]
  rfl

/-- The warning about a link is the same in both contexts. -/
theorem Frame.mismatchWarning_of_kinship (frame : Frame (.keeping Element.kinship) before after)
    (mismatched : before.Mismatched link parent) :
    after.mismatchWarning link = before.mismatchWarning link := by
  obtain ⟨element, -, found, -⟩ := mismatched.1.indexed
  obtain ⟨parentElement, parentFound, -⟩ := mismatched.2.2
  rw [mismatchWarning_eq mismatched, ← frame.nodeName_of_kinship found,
    ← frame.nodeName_of_kinship parentFound]
  obtain ⟨base, leads⟩ := mismatched.1
  unfold Context.mismatchWarning
  rw [frame.parent?_of_kinship, leads]
  rfl

theorem flagged_flag (declared : (context.element? link).isSome) :
    (context.flag link parent).Flagged id ↔ context.Flagged id ∨ id = link := by
  have flagged : (context.flag link parent).Flagged id ↔
      context.Flagged id ∨ (id = link ∧ (context.element? id).isSome) :=
    exists_modifyElement_iff fun _ => rfl
  rw [flagged]
  refine or_congr_right (and_iff_left_of_imp ?_)
  rintro rfl
  exact declared

theorem frame_flag (context : Context) (link parent : NodeId) :
    Frame (.keeping Element.beforeFlagging) context (context.flag link parent) :=
  (Frame.modifyElement context link fun _ _ => rfl).trans (.warnings _ _ _)

/-- One check of the second round. -/
theorem Reported.step {equalized current : Context} {links : List NodeId}
    (reported : Reported equalized current links) (checks : current.Checks id next) :
    ∃ more, Reported equalized next (links ++ more) ∧
      ∀ parent, equalized.Mismatched id parent → id ∈ links ++ more := by
  cases checks with
  | keeps settled =>
      refine ⟨[], by rwa [List.append_nil], fun parent mismatched => ?_⟩
      rw [List.append_nil]
      exact reported.flagged.1 (settled parent (reported.frame.mismatched_iff.2 mismatched))
  | @flags link parent mismatched unflagged own =>
      have torn := reported.frame.mismatched_iff.1 mismatched
      have kinship : Frame (.keeping Element.kinship) equalized current := reported.frame.view (·.1)
      obtain ⟨element, base, found, -⟩ := mismatched.1.indexed
      have declared : (current.element? link).isSome := Option.isSome_iff_exists.2 ⟨element, found⟩
      have warning : equalized.mismatchWarning link =
          .mixedContentMismatch (current.nodeName link) (current.nodeName parent) :=
        (kinship.mismatchWarning_of_kinship torn).symm.trans (mismatchWarning_eq mismatched)
      refine ⟨[link], ⟨?_, ?_, ?_, ?_, ?_⟩, fun other mismatchedAlso => ?_⟩
      · exact reported.frame.trans (frame_flag current link parent)
      · refine List.nodup_append.2 ⟨reported.once, List.pairwise_singleton _ link, ?_⟩
        intro earlier isEarlier later isLater same
        rw [List.mem_singleton.1 isLater] at same
        exact unflagged (reported.flagged.2 (same ▸ isEarlier))
      · intro id
        rw [flagged_flag declared, reported.flagged, List.mem_append, List.mem_singleton]
      · rw [List.forall_mem_append, List.forall_mem_singleton]
        exact ⟨reported.mismatched, parent, torn⟩
      · show current.warnings ++ [_] = _
        rw [reported.warnings, List.map_append, List.append_assoc, List.map_singleton, warning]
      · rw [own other (reported.frame.mismatched_iff.2 mismatchedAlso)]
        exact List.mem_append_right _ (List.mem_singleton_self _)

/-- All checks of the second round. -/
theorem Reported.run {equalized current : Context} {links : List NodeId}
    (reported : Reported equalized current links) {entries : List (NodeId × List NodeId)}
    (lineage : ∀ entry ∈ entries, equalized.Lineage entry.1 entry.2)
    (closed : ∀ entry ∈ entries, equalized.Mixed entry.1 →
      ∀ member ∈ entry.2, equalized.Mixed member) :
    ∃ more, Reported equalized
        (entries.foldl (fun context entry => context.checkMixed entry.1 entry.2) current)
        (links ++ more) ∧
      ∀ entry ∈ entries, ∀ parent, equalized.Mismatched entry.1 parent →
        entry.1 ∈ links ++ more := by
  induction entries generalizing current links with
  | nil => exact ⟨[], by rwa [List.append_nil], fun _ member => absurd member List.not_mem_nil⟩
  | cons entry rest inductionHypothesis =>
      obtain ⟨ownLineage, laterLineage⟩ := List.forall_mem_cons.1 lineage
      obtain ⟨ownClosed, laterClosed⟩ := List.forall_mem_cons.1 closed
      have kinship : Frame (.keeping Element.kinship) equalized current := reported.frame.view (·.1)
      have checks := Context.checks_checkMixed
        ((Context.lineage_congr kinship.parent?_of_kinship).2 ownLineage)
        fun mixed member inside => reported.frame.mixed_iff.2
          (ownClosed (reported.frame.mixed_iff.1 mixed) member inside)
      obtain ⟨more, reportedNext, ownSettled⟩ := reported.step checks
      obtain ⟨others, reportedAll, laterSettled⟩ :=
        inductionHypothesis reportedNext laterLineage laterClosed
      rw [List.append_assoc] at reportedAll laterSettled
      refine ⟨more ++ others, reportedAll, List.forall_mem_cons.2
        ⟨fun parent mismatched => ?_, laterSettled⟩⟩
      rw [← List.append_assoc]
      exact List.mem_append_left _ (ownSettled parent mismatched)

end XmlSchema
