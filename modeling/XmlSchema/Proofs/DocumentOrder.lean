import XmlSchema.Proofs.Reachability

/-!
# Depth-first order

`Arena.Explores` is the recursive depth-first search: first the declaration itself, then what lies
below its children, the first child first, without what was visited before. A walk keeps a list of
pending handles instead, and lists the declarations in the same order: `explores_iff`.
-/

namespace XmlSchema.Arena

/-- The declarations met by a depth-first search of the pending handles, in the order of their
visits, after those already visited. -/
inductive Explores (arena : Arena) : List NodeId → List NodeId → List NodeId → Prop where
  | done (visited : List NodeId) : Explores arena visited [] []
  | seen {visited pending order : List NodeId} {id : NodeId} (known : id ∈ visited)
      (rest : Explores arena visited pending order) : Explores arena visited (id :: pending) order
  | absent {visited pending order : List NodeId} {id : NodeId} (new : id ∉ visited)
      (absent : arena.element? id = none) (rest : Explores arena visited pending order) :
      Explores arena visited (id :: pending) order
  | visit {visited pending inner outer : List NodeId} {id : NodeId} {element : Element}
      (new : id ∉ visited) (found : arena.element? id = some element)
      (below : Explores arena (id :: visited) element.children inner)
      (rest : Explores arena (inner ++ id :: visited) pending outer) :
      Explores arena visited (id :: pending) (id :: inner ++ outer)

variable {arena : Arena} {visited pending order : List NodeId}

/-! ## A search is a walk -/

/-- Only which handles were visited counts for a walk. -/
theorem walkFrom_of_mem_iff {other : List NodeId} (same : ∀ id, id ∈ visited ↔ id ∈ other) :
    arena.walkFrom visited pending = arena.walkFrom other pending := by
  induction visited, pending using Arena.walkFrom.induct arena generalizing other with
  | case1 visited => simp [walkFrom]
  | case2 visited first pending seen inductionHypothesis =>
      rw [walkFrom_seen seen, walkFrom_seen ((same first).1 seen), inductionHypothesis same]
  | case3 visited first pending new absent inductionHypothesis =>
      rw [walkFrom_absent absent, walkFrom_absent absent, inductionHypothesis same]
  | case4 visited first pending new element found inductionHypothesis =>
      have newOther : first ∉ other := fun seen => new ((same first).2 seen)
      have sameAfter : ∀ id, id ∈ first :: visited ↔ id ∈ first :: other := fun id => by
        rw [List.mem_cons, List.mem_cons, same id]
      rw [walkFrom_visit new found, walkFrom_visit newOther found, inductionHypothesis sameAfter]

/-- What is visited after a declaration, what lies below it and what comes next. -/
theorem mem_visits_iff {inner outer : List NodeId} {id other : NodeId} :
    other ∈ outer ++ (inner ++ id :: visited) ↔ other ∈ id :: inner ++ outer ++ visited := by
  simp only [List.mem_append, List.mem_cons]
  grind

/-- A walk follows a search of its first handles, and goes on with the others behind it. -/
theorem Explores.walkFrom_append (explored : arena.Explores visited pending order)
    (later : List NodeId) :
    arena.walkFrom visited (pending ++ later) = order ++ arena.walkFrom (order ++ visited) later := by
  induction explored generalizing later with
  | done visited => rfl
  | seen known _ inductionHypothesis =>
      rw [List.cons_append, walkFrom_seen known, inductionHypothesis]
  | absent _ absent _ inductionHypothesis =>
      rw [List.cons_append, walkFrom_absent absent, inductionHypothesis]
  | @visit visited pending inner outer id element new found _ _ belowHypothesis restHypothesis =>
      rw [List.cons_append, walkFrom_visit new found, belowHypothesis (pending ++ later),
        restHypothesis later, walkFrom_of_mem_iff fun _ => mem_visits_iff]
      simp only [List.cons_append, List.append_assoc]

theorem Explores.eq_walkFrom (explored : arena.Explores visited pending order) :
    order = arena.walkFrom visited pending := by
  have followed := explored.walkFrom_append []
  rw [List.append_nil, walkFrom.eq_1, List.append_nil] at followed
  exact followed.symm

/-! ## A walk is a search -/

/-- Only which handles were visited counts for a search. -/
theorem Explores.of_mem_iff {other : List NodeId} (explored : arena.Explores visited pending order)
    (same : ∀ id, id ∈ visited ↔ id ∈ other) : arena.Explores other pending order := by
  induction explored generalizing other with
  | done visited => exact .done other
  | seen known _ inductionHypothesis => exact .seen ((same _).1 known) (inductionHypothesis same)
  | absent new absent _ inductionHypothesis =>
      exact .absent (fun seen => new ((same _).2 seen)) absent (inductionHypothesis same)
  | @visit visited pending inner outer id element new found _ _ belowHypothesis restHypothesis =>
      have sameBelow : ∀ handle, handle ∈ id :: visited ↔ handle ∈ id :: other := fun handle => by
        rw [List.mem_cons, List.mem_cons, same handle]
      have sameRest : ∀ handle, handle ∈ inner ++ id :: visited ↔ handle ∈ inner ++ id :: other :=
        fun handle => by rw [List.mem_append, List.mem_append, sameBelow handle]
      exact .visit (fun seen => new ((same id).2 seen)) found (belowHypothesis sameBelow)
        (restHypothesis sameRest)

/-- A search of two lists is a search of the one and then of the other. -/
theorem Explores.split {first second : List NodeId}
    (explored : arena.Explores visited (first ++ second) order) :
    ∃ inner outer, order = inner ++ outer ∧ arena.Explores visited first inner ∧
      arena.Explores (inner ++ visited) second outer := by
  induction first generalizing visited order with
  | nil => exact ⟨[], order, rfl, .done visited, explored⟩
  | cons id first inductionHypothesis =>
      cases explored with
      | seen known rest =>
          obtain ⟨inner, outer, split, firstExplored, secondExplored⟩ := inductionHypothesis rest
          exact ⟨inner, outer, split, .seen known firstExplored, secondExplored⟩
      | absent new absent rest =>
          obtain ⟨inner, outer, split, firstExplored, secondExplored⟩ := inductionHypothesis rest
          exact ⟨inner, outer, split, .absent new absent firstExplored, secondExplored⟩
      | @visit _ _ below behind _ element new found belowExplored rest =>
          obtain ⟨inner, outer, rfl, firstExplored, secondExplored⟩ := inductionHypothesis rest
          refine ⟨id :: below ++ inner, outer, by simp, .visit new found belowExplored firstExplored,
            secondExplored.of_mem_iff fun _ => mem_visits_iff⟩

theorem explores_walkFrom (arena : Arena) (visited pending : List NodeId) :
    arena.Explores visited pending (arena.walkFrom visited pending) := by
  induction visited, pending using Arena.walkFrom.induct arena with
  | case1 visited =>
      rw [walkFrom.eq_1]
      exact .done visited
  | case2 visited first pending seen inductionHypothesis =>
      rw [walkFrom_seen seen]
      exact .seen seen inductionHypothesis
  | case3 visited first pending new absent inductionHypothesis =>
      rw [walkFrom_absent absent]
      exact .absent new absent inductionHypothesis
  | case4 visited first pending new element found inductionHypothesis =>
      obtain ⟨inner, outer, split, below, rest⟩ := inductionHypothesis.split
      rw [walkFrom_visit new found, split]
      exact .visit new found below rest

/-- There is one depth-first order, and a walk lists the declarations in it. -/
theorem explores_iff :
    arena.Explores visited pending order ↔ order = arena.walkFrom visited pending := by
  constructor
  · exact Explores.eq_walkFrom
  · rintro rfl
    exact explores_walkFrom arena visited pending

end XmlSchema.Arena
