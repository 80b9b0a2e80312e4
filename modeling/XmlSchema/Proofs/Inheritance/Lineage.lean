import Mathlib.Logic.Relation
import XmlSchema.Annotation.Inheritance
import XmlSchema.Proofs.Frame

/-!
# Lineages

A declaration inherits from the one to which its base leads, and from no other. Its lineage is what
is met on the way up, and the way ends at a declaration that inherits from nothing; from a cycle,
and from below one, it does not end: `not_lineage_of_cycle`. The ancestors of a declaration are its
lineage, where that is within the bound: `ancestors_eq_ok_iff`. Nothing but the index and the bases
of declarations decides it: `lineage_congr`.
-/

namespace XmlSchema

namespace Context

section Definitions

variable (context : Context)

/-- Whether the base of a declaration leads to another one. -/
def Inherits (id parent : NodeId) : Prop := ∃ base, context.parent? id = some (base, parent)

/-- The declarations to which bases lead from a declaration on, the nearest first, where following
them ends. -/
inductive Lineage : NodeId → List NodeId → Prop where
  | top {id : NodeId} (ends : context.parent? id = none) : Lineage id []
  | step {id parent : NodeId} {rest : List NodeId} (inherits : context.Inherits id parent)
      (later : Lineage parent rest) : Lineage id (parent :: rest)

/-- Whether following bases from a declaration on ends after at most `steps` steps. -/
def EndsWithin (id : NodeId) (steps : Nat) : Prop :=
  ∃ chain, context.Lineage id chain ∧ chain.length ≤ steps

end Definitions

variable {context left right : Context} {id parent other : NodeId} {chain rest found : List NodeId}
  {steps : Nat}

/-! ## One way up -/

theorem Inherits.unique (inherits : context.Inherits id parent)
    (again : context.Inherits id other) : other = parent := by
  obtain ⟨base, found⟩ := inherits
  obtain ⟨otherBase, otherFound⟩ := again
  cases found.symm.trans otherFound
  rfl

theorem parent?_of_absent (absent : context.element? id = none) : context.parent? id = none := by
  unfold parent?
  rw [absent]
  rfl

/-- What inherits is a declaration, and it inherits from what the index has. -/
theorem Inherits.indexed (inherits : context.Inherits id parent) :
    ∃ element base, context.element? id = some element ∧
      context.elementIndex.find? base = some parent := by
  obtain ⟨base, found⟩ := inherits
  unfold parent? at found
  split at found
  · rename_i hasBase
    obtain ⟨element, present, -⟩ := Option.bind_eq_some_iff.1 hasBase
    obtain ⟨indexed, entered, same⟩ := Option.map_eq_some_iff.1 found
    cases same
    exact ⟨element, base, present, entered⟩
  · cases found

theorem Lineage.of_inherits (lineage : context.Lineage id chain)
    (inherits : context.Inherits id parent) :
    ∃ rest, chain = parent :: rest ∧ context.Lineage parent rest := by
  cases lineage with
  | top ends =>
      obtain ⟨base, found⟩ := inherits
      cases found.symm.trans ends
  | step first later =>
      cases inherits.unique first
      exact ⟨_, rfl, later⟩

theorem Lineage.unique (lineage : context.Lineage id chain) (again : context.Lineage id rest) :
    rest = chain := by
  induction lineage generalizing rest with
  | top ends =>
      cases again with
      | top _ => rfl
      | step inherits _ =>
          obtain ⟨base, found⟩ := inherits
          cases found.symm.trans ends
  | step inherits _ inductionHypothesis =>
      obtain ⟨later, rfl, lineage⟩ := again.of_inherits inherits
      rw [inductionHypothesis lineage]

/-- A lineage holds what bases lead to, and nothing else. -/
theorem Lineage.mem_iff (lineage : context.Lineage id chain) :
    other ∈ chain ↔ Relation.TransGen context.Inherits id other := by
  induction lineage with
  | top ends =>
      refine ⟨fun member => absurd member List.not_mem_nil, fun inherits => ?_⟩
      obtain ⟨next, ⟨base, found⟩, -⟩ := Relation.TransGen.head'_iff.1 inherits
      cases found.symm.trans ends
  | @step id parent rest inherits _ inductionHypothesis =>
      rw [List.mem_cons, inductionHypothesis]
      constructor
      · rintro (rfl | beyond)
        · exact .single inherits
        · exact .head inherits beyond
      · intro path
        obtain ⟨next, first, beyond⟩ := Relation.TransGen.head'_iff.1 path
        obtain rfl := inherits.unique first
        exact (Relation.reflTransGen_iff_eq_or_transGen.1 beyond)

/-- The ancestors of an ancestor are ancestors. -/
theorem Lineage.mem_of_mem (lineage : context.Lineage id chain) (within : other ∈ id :: chain)
    (own : context.Lineage other rest) (member : parent ∈ rest) : parent ∈ chain := by
  rw [own.mem_iff] at member
  rw [lineage.mem_iff]
  rcases List.mem_cons.1 within with rfl | above
  · exact member
  · exact (lineage.mem_iff.1 above).trans member

/-- Everything in a lineage has the rest of it as its own. -/
theorem Lineage.exists_of_mem (lineage : context.Lineage id chain) (member : other ∈ chain) :
    ∃ early rest, chain = early ++ other :: rest ∧ context.Lineage other rest := by
  induction lineage with
  | top => cases member
  | @step id parent rest _ later inductionHypothesis =>
      rcases List.mem_cons.1 member with rfl | beyond
      · exact ⟨[], rest, rfl, later⟩
      · obtain ⟨early, last, rfl, lineage⟩ := inductionHypothesis beyond
        exact ⟨parent :: early, last, rfl, lineage⟩

/-- What inherits from itself, directly or through others, has no lineage, and neither has what
inherits from it. -/
theorem not_lineage_of_cycle (inherits : Relation.ReflTransGen context.Inherits id other)
    (cycle : Relation.TransGen context.Inherits other other) : ¬ context.Lineage id chain := by
  intro lineage
  have member : other ∈ chain := lineage.mem_iff.2 (Relation.TransGen.trans_right inherits cycle)
  obtain ⟨early, rest, -, own⟩ := lineage.exists_of_mem member
  obtain ⟨earlyAgain, restAgain, same, ownAgain⟩ := own.exists_of_mem (own.mem_iff.2 cycle)
  -- The lineage of the one on the cycle would be a proper part of itself.
  obtain rfl := own.unique ownAgain
  have longer := congrArg List.length same
  rw [List.length_append, List.length_cons] at longer
  omega

theorem not_endsWithin_of_cycle (inherits : Relation.ReflTransGen context.Inherits id other)
    (cycle : Relation.TransGen context.Inherits other other) : ¬ context.EndsWithin id steps :=
  fun ⟨_, lineage, _⟩ => not_lineage_of_cycle inherits cycle lineage

/-! ## Climbing -/

theorem climb_eq_ok_iff :
    context.climb found steps id = .ok chain ↔
      ∃ rest, context.Lineage id rest ∧ rest.length ≤ steps ∧ chain = found.reverse ++ rest := by
  induction steps generalizing id found with
  | zero =>
      unfold climb
      split
      · rename_i ends
        constructor
        · intro same
          cases same
          exact ⟨[], .top ends, Nat.le_refl 0, (List.append_nil _).symm⟩
        · rintro ⟨rest, -, short, rfl⟩
          rw [List.length_eq_zero_iff.1 (Nat.le_zero.1 short), List.append_nil]
      · rename_i base parent leads
        refine ⟨nofun, ?_⟩
        rintro ⟨rest, lineage, short, -⟩
        obtain ⟨later, rfl, -⟩ := lineage.of_inherits ⟨base, leads⟩
        cases short
  | succ steps inductionHypothesis =>
      unfold climb
      split
      · rename_i ends
        constructor
        · intro same
          cases same
          exact ⟨[], .top ends, Nat.zero_le _, (List.append_nil _).symm⟩
        · rintro ⟨rest, lineage, -, rfl⟩
          rw [(Lineage.top ends).unique lineage, List.append_nil]
      · rename_i base parent leads
        dsimp only
        rw [inductionHypothesis, List.reverse_cons]
        constructor
        · rintro ⟨rest, lineage, short, rfl⟩
          exact ⟨parent :: rest, .step ⟨base, leads⟩ lineage, Nat.succ_le_succ short,
            List.append_assoc ..⟩
        · rintro ⟨rest, lineage, short, rfl⟩
          obtain ⟨later, rfl, ancestry⟩ := lineage.of_inherits ⟨base, leads⟩
          exact ⟨later, ancestry, Nat.le_of_succ_le_succ short, List.append_cons ..⟩

/-- The ancestors of a declaration are its lineage, where that is within the bound. -/
theorem ancestors_eq_ok_iff :
    context.ancestors id = .ok chain ↔
      context.Lineage id chain ∧ chain.length ≤ context.options.limits.baseDepth := by
  have climbs : context.climb [] context.options.limits.baseDepth id = .ok chain ↔
      context.Lineage id chain ∧ chain.length ≤ context.options.limits.baseDepth := by
    rw [climb_eq_ok_iff]
    constructor
    · rintro ⟨rest, lineage, short, rfl⟩
      exact ⟨lineage, short⟩
    · rintro ⟨lineage, short⟩
      exact ⟨chain, lineage, short, rfl⟩
  rw [← climbs]
  unfold ancestors
  dsimp only
  split
  · rename_i climbed outcome
    rw [outcome, Except.ok.injEq, Except.ok.injEq]
  · rename_i base outcome
    rw [outcome]
    exact ⟨nofun, nofun⟩

theorem exists_ancestors_iff :
    (∃ chain, context.ancestors id = .ok chain) ↔
      context.EndsWithin id context.options.limits.baseDepth :=
  exists_congr fun _ => ancestors_eq_ok_iff

/-- Where the ancestors are too many, the error names the declaration, and a base on the way up. -/
theorem of_ancestors_eq_error {error : Error} (refused : context.ancestors id = .error error) :
    ¬ context.EndsWithin id context.options.limits.baseDepth ∧
      ∃ base, error = .semantic ⟨context.nodeName id,
        .cyclicInheritance base context.options.limits.baseDepth⟩ := by
  refine ⟨fun ends => ?_, ?_⟩
  · obtain ⟨chain, climbed⟩ := exists_ancestors_iff.2 ends
    cases refused.symm.trans climbed
  · unfold ancestors at refused
    dsimp only at refused
    split at refused
    · cases refused
    · cases refused
      exact ⟨_, rfl⟩

/-! ## What decides lineages -/

/-- Contexts with the same index and the same bases have the same lineages. -/
theorem parent?_congr (index : right.elementIndex = left.elementIndex)
    (bases : ∀ id, (right.element? id).bind Element.base? = (left.element? id).bind Element.base?)
    (id : NodeId) : right.parent? id = left.parent? id := by
  unfold parent?
  rw [bases id, index]

theorem inherits_congr (same : ∀ id, right.parent? id = left.parent? id) :
    right.Inherits = left.Inherits := by
  funext id parent
  unfold Inherits
  rw [same id]

theorem lineage_congr (same : ∀ id, right.parent? id = left.parent? id) :
    right.Lineage id chain ↔ left.Lineage id chain := by
  have carried : ∀ {left right : Context}, (∀ id, right.parent? id = left.parent? id) →
      left.Lineage id chain → right.Lineage id chain := by
    intro left right same lineage
    induction lineage with
    | top ends => exact .top ((same _).trans ends)
    | step inherits _ inductionHypothesis =>
        exact .step (inherits_congr same ▸ inherits) inductionHypothesis
  exact ⟨carried fun id => (same id).symm, carried same⟩

theorem endsWithin_congr (same : ∀ id, right.parent? id = left.parent? id) :
    right.EndsWithin id steps ↔ left.EndsWithin id steps :=
  exists_congr fun _ => and_congr_left' (lineage_congr same)

end Context

theorem Frame.parent? {before after : Context} (frame : Frame (.keeping Element.base?) before after)
    (id : NodeId) : after.parent? id = before.parent? id := by
  refine Context.parent?_congr frame.elementIndex (fun id => ?_) id
  have same := frame.map_element? id
  revert same
  cases before.element? id <;> cases after.element? id
  all_goals simp

end XmlSchema
