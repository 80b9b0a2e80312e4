import XmlSchema.Proofs.Inheritance.MixedContent

/-!
# Mixed content checked again

Where mixed content goes upward already, as it does in a model, the pass for mixed content makes it
go downward too: a declaration below the root becomes mixed if it inherits from a mixed one, and no
other does (`Spread`). Then every lineage is uniform, and nothing is left to flag (`Repeated`). So a
second run over a model goes through and changes no flag for a mismatch, but what is flagged becomes
mixed, with everything that inherits from it. From then on the pass changes nothing.
-/

namespace XmlSchema

namespace Context

section Definitions

variable (context : Context)

/-- Whether what mixed declarations below a root inherit from is mixed. -/
def MixedUpward (root : NodeId) : Prop :=
  ∀ {id other}, id ∈ context.walk root → Relation.TransGen context.Inherits id other →
    context.Mixed id → context.Mixed other

/-- Whether a declaration is mixed or inherits from a mixed one. -/
def MixedAbove (id : NodeId) : Prop :=
  ∃ top, Relation.ReflTransGen context.Inherits id top ∧ context.Mixed top

/-- Whether a declaration is flagged or inherits from a flagged one. -/
def FlaggedAbove (id : NodeId) : Prop :=
  ∃ link, Relation.ReflTransGen context.Inherits id link ∧ context.Flagged link

end Definitions

end Context

variable {context origin again : Context} {root id other top : NodeId} {chain : List NodeId}

namespace Context

theorem Lineage.mem_cons_iff (lineage : context.Lineage id chain) :
    other ∈ id :: chain ↔ Relation.ReflTransGen context.Inherits id other := by
  rw [List.mem_cons, lineage.mem_iff, Relation.reflTransGen_iff_eq_or_transGen]

theorem MixedAbove.of_mixed (mixed : context.Mixed id) : context.MixedAbove id :=
  ⟨id, .refl, mixed⟩

theorem MixedAbove.of_inherits (above : context.MixedAbove other)
    (inherits : Relation.ReflTransGen context.Inherits id other) : context.MixedAbove id := by
  obtain ⟨top, path, mixed⟩ := above
  exact ⟨top, inherits.trans path, mixed⟩

/-- What a declaration of the walk inherits from is in the walk. -/
theorem Enclosed.mem_walk (enclosed : context.Enclosed root) (member : id ∈ context.walk root)
    (path : Relation.ReflTransGen context.Inherits id other) : other ∈ context.walk root := by
  rcases Relation.ReflTransGen.cases_tail path with rfl | ⟨last, -, inherits⟩
  · exact member
  · obtain ⟨-, base, -, indexed⟩ := inherits.indexed
    exact enclosed base other indexed

/-- There is one way up, so of two declarations on it one inherits from the other: what is met on the
way up from a declaration to a mixed one inherits from that, or is mixed itself. -/
theorem MixedUpward.of_path (upward : context.MixedUpward root) (enclosed : context.Enclosed root)
    (member : id ∈ context.walk root) (within : Relation.ReflTransGen context.Inherits id other)
    (above : context.MixedAbove id) : context.Mixed other ∨ context.MixedAbove other := by
  have oneWay : Relator.RightUnique context.Inherits := fun _ _ _ first second =>
    second.unique first
  obtain ⟨top, path, mixed⟩ := above
  rcases Relation.ReflTransGen.total_of_right_unique oneWay within path with below | beyond
  · exact .inr ⟨top, below, mixed⟩
  · left
    rcases Relation.reflTransGen_iff_eq_or_transGen.1 beyond with rfl | inherits
    · exact mixed
    · exact upward (enclosed.mem_walk member path) inherits mixed

end Context

/-! ## The first round -/

/-- What has been gone over in the first round where mixed content goes upward already: what is mixed
below the root inherits from what was mixed, and all of that which has been gone over is mixed. -/
structure Spread (root : NodeId) (origin : Context)
    (state : Context × List (NodeId × List NodeId)) : Prop extends Equalized origin state where
  kept : ∀ {other}, origin.Mixed other → state.1.Mixed other
  caused : ∀ {other}, state.1.Mixed other →
    origin.Mixed other ∨ (other ∈ origin.walk root ∧ origin.MixedAbove other)
  reached : ∀ entry ∈ state.2, origin.MixedAbove entry.1 → state.1.Mixed entry.1

namespace Spread

variable {state result : Context × List (NodeId × List NodeId)}

theorem mixedAbove (spread : Spread root origin state) (mixed : state.1.Mixed other) :
    origin.MixedAbove other := by
  rcases spread.caused mixed with before | ⟨-, above⟩
  · exact .of_mixed before
  · exact above

/-- One step of the first round makes nothing mixed that does not inherit from what was mixed. -/
theorem step (spread : Spread root origin state) (enclosed : origin.Enclosed root)
    (upward : origin.MixedUpward root) (member : id ∈ origin.walk root)
    (taken : equalizeElement state id = .ok result) : Spread root origin result := by
  obtain ⟨chain, lineage, entries, -, mixedIff⟩ := of_equalizeElement taken
  have kinship : Frame (.keeping Element.kinship) origin state.1 := spread.frame.view (·.1)
  have ancestry : origin.Lineage id chain :=
    (Context.lineage_congr kinship.parent?_of_kinship).1 lineage
  refine ⟨spread.toEqualized.step enclosed taken, fun before => ?_, fun {other} isMixed => ?_, ?_⟩
  · exact (mixedIff _).2 (.inl (spread.kept before))
  · rcases (mixedIff other).1 isMixed with before | ⟨⟨cause, inside, causeMixed⟩, within, -⟩
    · exact spread.caused before
    · -- What is made mixed now is on one way up with what was mixed, above it or below.
      have path := ancestry.mem_cons_iff.1 within
      have above := (spread.mixedAbove causeMixed).of_inherits (ancestry.mem_cons_iff.1 inside)
      exact (upward.of_path enclosed member path above).imp_right fun own =>
        ⟨enclosed.mem_walk member path, own⟩
  · rw [entries]
    refine List.forall_mem_cons.2 ⟨fun above => ?_, fun entry earlier above => ?_⟩
    · obtain ⟨top, path, topMixed⟩ := above
      refine (mixedIff id).2 (.inr ⟨⟨top, ancestry.mem_cons_iff.2 path, spread.kept topMixed⟩,
        List.mem_cons_self, ?_⟩)
      rw [kinship.isSome_element? id]
      exact (Arena.mem_walk_iff.1 member).2
    · exact (mixedIff entry.1).2 (.inl (spread.reached entry earlier above))

theorem run (spread : Spread root origin state) (enclosed : origin.Enclosed root)
    (upward : origin.MixedUpward root) {items : List NodeId}
    (members : ∀ id ∈ items, id ∈ origin.walk root)
    (completed : items.foldlM equalizeElement state = .ok result) : Spread root origin result := by
  induction items generalizing state with
  | nil =>
      cases foldlM_nil_eq_ok_iff.1 completed
      exact spread
  | cons item rest inductionHypothesis =>
      obtain ⟨next, taken, later⟩ := foldlM_cons_eq_ok_iff.1 completed
      obtain ⟨member, others⟩ := List.forall_mem_cons.1 members
      exact inductionHypothesis (spread.step enclosed upward member taken) others later

/-- Every lineage that has been gone over is uniform. -/
theorem uniform (spread : Spread root origin state) {entry : NodeId × List NodeId}
    (gone : entry ∈ state.2) (member : other ∈ entry.2) :
    state.1.Mixed other ↔ state.1.Mixed entry.1 := by
  refine ⟨fun mixed => spread.reached entry gone ?_, fun mixed =>
    spread.closed entry gone mixed other member⟩
  exact (spread.mixedAbove mixed).of_inherits
    ((spread.lineage entry gone).mem_iff.1 member).to_reflTransGen

end Spread

/-! ## The second round -/

namespace Context

/-- A lineage on which all content is alike has nothing to flag. -/
theorem checkMixed_of_uniform
    (uniform : ∀ member ∈ chain, context.Mixed member ↔ context.Mixed id) :
    context.checkMixed id chain = context := by
  unfold checkMixed
  split
  · rename_i element found
    have own : context.Mixed id ↔ element.isMixed = true := by
      refine ⟨?_, fun isMixed => ⟨element, found, isMixed⟩⟩
      rintro ⟨again, foundAgain, isMixed⟩
      cases found.symm.trans foundAgain
      exact isMixed
    exact flagMismatch_of_uniform (fun member inside => (uniform member inside).trans own) id
  · rfl

theorem foldl_checkMixed_of_uniform {entries : List (NodeId × List NodeId)}
    (uniform : ∀ entry ∈ entries, ∀ member ∈ entry.2,
      context.Mixed member ↔ context.Mixed entry.1) :
    entries.foldl (fun context entry => context.checkMixed entry.1 entry.2) context = context := by
  induction entries with
  | nil => rfl
  | cons entry rest inductionHypothesis =>
      obtain ⟨own, others⟩ := List.forall_mem_cons.1 uniform
      rw [List.foldl_cons, checkMixed_of_uniform own]
      exact inductionHypothesis others

end Context

/-! ## Both rounds -/

/-- What the pass does where mixed content goes upward already. -/
structure Repeated (root : NodeId) (context again : Context) : Prop where
  frame : Frame (.keeping Element.beforeEqualizing) context again
  warnings : again.warnings = context.warnings
  mixed : ∀ {id}, again.Mixed id ↔
    context.Mixed id ∨ (id ∈ context.walk root ∧ context.MixedAbove id)

theorem exists_repeated (enclosed : context.Enclosed root) (bounded : context.Bounded root)
    (upward : context.MixedUpward root) :
    ∃ again, checkMixedContent root context = .ok again ∧ Repeated root context again := by
  obtain ⟨again, completed⟩ := exists_checkMixedContent bounded
  refine ⟨again, completed, ?_⟩
  unfold checkMixedContent at completed
  split at completed
  · cases completed
  · rename_i equalized chains firstRound
    cases completed
    have nothing : Equalized context (context, []) := ⟨.refl _ context, rfl, nofun, nofun⟩
    have untouched : Spread root context (context, []) := ⟨nothing, id, .inl, nofun⟩
    have spread := untouched.run enclosed upward (fun _ member => member) firstRound
    obtain ⟨-, -, covers⟩ := nothing.run enclosed firstRound
    have unflagged : chains.reverse.foldl (fun context entry => context.checkMixed entry.1 entry.2)
        equalized = equalized :=
      Context.foldl_checkMixed_of_uniform fun entry member _ =>
        spread.uniform (List.mem_reverse.1 member)
    rw [unflagged]
    refine ⟨spread.frame, spread.warnings, fun {id} => ⟨spread.caused, ?_⟩⟩
    rintro (before | ⟨member, above⟩)
    · exact spread.kept before
    · obtain ⟨chain, entry⟩ := covers id member
      exact spread.reached _ entry above

namespace Repeated

variable (repeated : Repeated root context again)

include repeated in
theorem kinship : Frame (.keeping Element.kinship) context again := repeated.frame.view (·.1)

include repeated in
theorem inherits : again.Inherits = context.Inherits :=
  Context.inherits_congr repeated.kinship.parent?_of_kinship

include repeated in
/-- The pass flags nothing that was not flagged. -/
theorem map_mixedMismatch (id : NodeId) :
    (again.element? id).map Element.mixedMismatch =
      (context.element? id).map Element.mixedMismatch := by
  have flags : Frame (.keeping Element.mixedMismatch) context again := repeated.frame.view (·.2)
  exact flags.map_element? id

include repeated in
theorem mixedAbove (mixed : again.Mixed id) : context.MixedAbove id := by
  rcases repeated.mixed.1 mixed with before | ⟨-, above⟩
  · exact .of_mixed before
  · exact above

include repeated in
/-- After the pass mixed content has gone downward. -/
theorem mixed_of_mixedAbove (member : id ∈ context.walk root) (above : again.MixedAbove id) :
    again.Mixed id := by
  obtain ⟨top, path, mixed⟩ := above
  rw [repeated.inherits] at path
  exact repeated.mixed.2 (.inr ⟨member, (repeated.mixedAbove mixed).of_inherits path⟩)

include repeated in
/-- After the pass mixed content goes upward still. -/
theorem upward (enclosed : context.Enclosed root) (upward : context.MixedUpward root) :
    again.MixedUpward root := by
  intro id other member inherits mixed
  rw [repeated.kinship.walk_of_kinship root] at member
  rw [repeated.inherits] at inherits
  have path := inherits.to_reflTransGen
  rcases upward.of_path enclosed member path (repeated.mixedAbove mixed) with before | above
  · exact repeated.mixed.2 (.inl before)
  · exact repeated.mixed.2 (.inr ⟨enclosed.mem_walk member path, above⟩)

/-- Another run changes nothing any more. -/
theorem exists_last (repeated : Repeated root context again) (enclosed : context.Enclosed root)
    (bounded : context.Bounded root) (upward : context.MixedUpward root) :
    ∃ last, checkMixedContent root again = .ok last ∧ Repeated root again last ∧
      ∀ id, last.Mixed id ↔ again.Mixed id := by
  have children : Frame (.keeping Element.children) context again := repeated.kinship.view (·.2.2)
  obtain ⟨last, completed, lastRepeated⟩ := exists_repeated (enclosed.of_frame children)
    (repeated.kinship.bounded_of_kinship.2 bounded) (repeated.upward enclosed upward)
  refine ⟨last, completed, lastRepeated, fun id => lastRepeated.mixed.trans ?_⟩
  rw [repeated.kinship.walk_of_kinship root]
  exact or_iff_left_of_imp fun both => repeated.mixed_of_mixedAbove both.1 both.2

end Repeated

/-! ## Models -/

section Models

variable {options : Options} {document : Bytes} {earlier : List Warning} {links : List NodeId}

/-- Only declarations are flagged, and only declarations inherit. -/
theorem Context.FlaggedAbove.mem_walk (above : context.FlaggedAbove id)
    (reached : context.arena.Reaches root id) : id ∈ context.walk root := by
  obtain ⟨link, path, element, found, -⟩ := above
  refine Arena.mem_walk_iff.2 ⟨reached, ?_⟩
  rcases Relation.ReflTransGen.cases_head path with rfl | ⟨next, inherits, -⟩
  · exact Option.isSome_iff_exists.2 ⟨element, found⟩
  · obtain ⟨heir, -, present, -⟩ := inherits.indexed
    exact Option.isSome_iff_exists.2 ⟨heir, present⟩

namespace Context.MixedSettled

variable (settled : context.MixedSettled root earlier links)

include settled in
/-- What is flagged is not mixed, and neither is what inherits from it. -/
theorem unmixed_of_flaggedAbove (enclosed : context.Enclosed root)
    (member : id ∈ context.walk root) (above : context.FlaggedAbove id) :
    ¬ context.Mixed id ∧ context.MixedAbove id := by
  obtain ⟨link, path, flagged⟩ := above
  obtain ⟨parent, inherits, unmixed, parentMixed⟩ :=
    (settled.flagged_iff (enclosed.mem_walk member path)).1 flagged
  refine ⟨fun mixed => unmixed ?_, parent, path.tail inherits, parentMixed⟩
  rcases Relation.reflTransGen_iff_eq_or_transGen.1 path with rfl | beyond
  · exact mixed
  · exact settled.upward member beyond mixed

include settled in
/-- On the way from an unmixed declaration to a mixed one there is a flagged link. -/
theorem mixedAbove_iff (enclosed : context.Enclosed root) (member : id ∈ context.walk root) :
    context.MixedAbove id ↔ context.Mixed id ∨ context.FlaggedAbove id := by
  constructor
  · rintro ⟨top, path, mixed⟩
    refine or_iff_not_imp_left.2 fun unmixed => ?_
    obtain ⟨chain, lineage⟩ := settled.lineage member
    have beyond : top ∈ chain := by
      rcases List.mem_cons.1 (lineage.mem_cons_iff.2 path) with rfl | beyond
      · exact absurd mixed unmixed
      · exact beyond
    obtain ⟨link, ⟨within, flagged⟩, -⟩ := settled.existsUnique_flagged enclosed member lineage
      ⟨top, beyond, fun same => unmixed (same.1 mixed)⟩
    exact ⟨link, lineage.mem_cons_iff.1 within, flagged⟩
  · rintro (mixed | above)
    · exact .of_mixed mixed
    · exact (settled.unmixed_of_flaggedAbove enclosed member above).2

include settled in
/-- The pass makes mixed what is flagged and what inherits from it. -/
theorem mixed_iff_of_repeated (enclosed : context.Enclosed root)
    (repeated : Repeated root context again) :
    again.Mixed id ↔
      context.Mixed id ∨ (context.arena.Reaches root id ∧ context.FlaggedAbove id) := by
  rw [repeated.mixed]
  constructor
  · rintro (before | ⟨member, above⟩)
    · exact .inl before
    · exact ((settled.mixedAbove_iff enclosed member).1 above).imp_right fun flagged =>
        ⟨(Arena.mem_walk_iff.1 member).1, flagged⟩
  · rintro (before | ⟨reached, above⟩)
    · exact .inl before
    · have member := above.mem_walk reached
      exact .inr ⟨member, (settled.mixedAbove_iff enclosed member).2 (.inr above)⟩

end Context.MixedSettled

/-- The lineages of the declarations of a model are within the bound. -/
theorem bounded_of_compileBytes {model : Model}
    (compiled : compileBytes options document = .ok model) : model.context.Bounded model.root := by
  obtain ⟨context, -, annotated⟩ := exists_annotate_of_compileBytes compiled
  obtain ⟨completed, -, afterwards⟩ :=
    exists_between_of_annotate (List.take_append_drop 4 Pass.all).symm annotated
  obtain ⟨separated, separation, -⟩ := foldlM_cons_eq_ok_iff.1 afterwards
  exact (frame_kinship_of_passes (fun _ => id) afterwards).bounded_of_kinship.2
    (exists_separateAttributes_iff.1 ⟨separated, separation⟩)

/-- The pass for mixed content goes through a second time over every model. It changes no flag for a
mismatch and adds no warning, and it makes exactly those declarations below the root mixed that are
flagged or inherit from a flagged one, none of which is mixed in the model. So it changes nothing
exactly where no declaration below the root is flagged, and a third run changes nothing in any
case. -/
theorem mixedContent_of_repetition {model : Model}
    (compiled : compileBytes options document = .ok model) :
    ∃ again, checkMixedContent model.root model.context = .ok again ∧
      (∀ id, (again.element? id).map Element.mixedMismatch =
        (model.context.element? id).map Element.mixedMismatch) ∧
      again.warnings = model.context.warnings ∧
      (∀ id, again.Mixed id ↔ model.context.Mixed id ∨
        (model.context.arena.Reaches model.root id ∧ model.context.FlaggedAbove id)) ∧
      (∀ id, model.context.arena.Reaches model.root id → model.context.FlaggedAbove id →
        ¬ model.context.Mixed id) ∧
      ((∀ id, again.Mixed id ↔ model.context.Mixed id) ↔
        ∀ id, model.context.arena.Reaches model.root id → ¬ model.context.Flagged id) ∧
      ∃ last, checkMixedContent model.root again = .ok last ∧
        (∀ id, (last.element? id).map Element.mixedMismatch =
          (again.element? id).map Element.mixedMismatch) ∧
        ∀ id, last.Mixed id ↔ again.Mixed id := by
  obtain ⟨enclosed, earlier, links, -, settled⟩ := exists_mixedSettled_of_compileBytes compiled
  have bounded := bounded_of_compileBytes compiled
  obtain ⟨again, completed, repeated⟩ := exists_repeated enclosed bounded settled.upward
  obtain ⟨last, completedAgain, lastRepeated, sameMixed⟩ :=
    repeated.exists_last enclosed bounded settled.upward
  have mixedIff : ∀ id, again.Mixed id ↔ model.context.Mixed id ∨
      (model.context.arena.Reaches model.root id ∧ model.context.FlaggedAbove id) :=
    fun id => settled.mixed_iff_of_repeated enclosed repeated
  have unmixed : ∀ id, model.context.arena.Reaches model.root id → model.context.FlaggedAbove id →
      ¬ model.context.Mixed id := fun id reached above =>
    (settled.unmixed_of_flaggedAbove enclosed (above.mem_walk reached) above).1
  refine ⟨again, completed, repeated.map_mixedMismatch, repeated.warnings, mixedIff, unmixed, ?_,
    last, completedAgain, lastRepeated.map_mixedMismatch, sameMixed⟩
  constructor
  · intro same id reached flagged
    have above : model.context.FlaggedAbove id := ⟨id, .refl, flagged⟩
    exact unmixed id reached above ((same id).1 ((mixedIff id).2 (.inr ⟨reached, above⟩)))
  · intro unflagged id
    refine (mixedIff id).trans (or_iff_left ?_)
    rintro ⟨reached, above⟩
    have member := above.mem_walk reached
    obtain ⟨link, path, flagged⟩ := above
    exact unflagged link (Arena.mem_walk_iff.1 (enclosed.mem_walk member path)).1 flagged

/-- A type that was gone over before another one made their common base mixed becomes mixed itself
when the pass runs again. -/
theorem exists_mixed_of_repetition :
    ∃ (model : Model) (again : Context) (id : NodeId),
      compileBytes .standard mixedSiblingSchema = .ok model ∧
      checkMixedContent model.root model.context = .ok again ∧
      again.Mixed id ∧ ¬ model.context.Mixed id := by
  have computed : compilesFlat .standard mixedSiblingSchema
      (fun model => (checkMixedContent model.root model.context).toOption.any fun again =>
        (model.context.walk model.root).any fun id =>
          decide (again.Mixed id ∧ ¬ model.context.Mixed id)) = true := by
    decide +kernel
  obtain ⟨model, compiled, checked⟩ := exists_of_compilesFlat computed
  obtain ⟨again, second, found⟩ := (Option.any_eq_true _ _).1 checked
  obtain ⟨id, -, becomes⟩ := List.any_eq_true.1 found
  obtain ⟨mixed, unmixed⟩ := of_decide_eq_true becomes
  refine ⟨model, again, id, compiled, ?_, mixed, unmixed⟩
  cases outcome : checkMixedContent model.root model.context with
  | error halt =>
      rw [outcome] at second
      cases second
  | ok result =>
      rw [outcome] at second
      cases second
      rfl

/-- The same type is flagged in the model, stays so, and is mixed from the second run on. -/
theorem mixedContent_of_repetition_siblings :
    ∃ (model : Model) (again last : Context) (id : NodeId),
      compileBytes .standard mixedSiblingSchema = .ok model ∧
      model.context.Flagged id ∧ ¬ model.context.Mixed id ∧
      checkMixedContent model.root model.context = .ok again ∧ again.Mixed id ∧
      (again.element? id).map Element.mixedMismatch = some true ∧
      checkMixedContent model.root again = .ok last ∧ last.Mixed id := by
  have computed : compilesFlat .standard mixedSiblingSchema
      (Model.anyElement fun _ element => element.mixedMismatch) = true := by
    decide +kernel
  obtain ⟨model, id, element, compiled, reached, found, isFlagged⟩ :=
    exists_element_of_compilesFlat computed
  obtain ⟨again, second, flags, -, mixed, unmixed, -, last, third, -, stays⟩ :=
    mixedContent_of_repetition compiled
  have above : model.context.FlaggedAbove id := ⟨id, .refl, element, found, isFlagged⟩
  have mixedAgain : again.Mixed id := (mixed id).2 (.inr ⟨reached, above⟩)
  refine ⟨model, again, last, id, compiled, ⟨element, found, isFlagged⟩, unmixed id reached above,
    second, mixedAgain, ?_, third, (stays id).2 mixedAgain⟩
  rw [flags id, found, Option.map_some, isFlagged]

end Models

end XmlSchema
