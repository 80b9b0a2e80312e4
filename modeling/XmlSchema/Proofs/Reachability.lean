import XmlSchema.Annotation.Walk

/-!
# What a walk visits

A handle is reached from another one when children lead from the one to the other. A walk visits
exactly the declarations that are reached from its root, `mem_walk_iff`, and none of them twice,
`nodup_walk`. Nothing but the children of declarations decides a walk: `walk_congr`.
-/

namespace XmlSchema.Arena

/-- The handles to which children lead from a root, the root among them. -/
inductive Reaches (arena : Arena) (root : NodeId) : NodeId → Prop where
  | root : Reaches arena root root
  | child {parent child : NodeId} {element : Element} (reached : Reaches arena root parent)
      (found : arena.element? parent = some element) (member : child ∈ element.children) :
      Reaches arena root child

variable {arena : Arena}

theorem Reaches.trans {first second third : NodeId} (left : arena.Reaches first second)
    (right : arena.Reaches second third) : arena.Reaches first third := by
  induction right with
  | root => exact left
  | child _ found member inductionHypothesis => exact .child inductionHypothesis found member

/-- What is reached is the root or a child of something reached. -/
theorem Reaches.eq_or_child {root id : NodeId} (reached : arena.Reaches root id) :
    id = root ∨ ∃ parent element, arena.Reaches root parent ∧
      arena.element? parent = some element ∧ id ∈ element.children := by
  cases reached with
  | root => exact Or.inl rfl
  | child parentReached found member => exact Or.inr ⟨_, _, parentReached, found, member⟩

/-! ## One step of a walk -/

theorem walkFrom_seen {visited pending : List NodeId} {id : NodeId} (seen : id ∈ visited) :
    arena.walkFrom visited (id :: pending) = arena.walkFrom visited pending := by
  rw [walkFrom, if_pos seen]

theorem walkFrom_absent {visited pending : List NodeId} {id : NodeId}
    (absent : arena.element? id = none) :
    arena.walkFrom visited (id :: pending) = arena.walkFrom visited pending := by
  rw [walkFrom]
  split
  · rfl
  · split
    · rfl
    · rename_i element found
      rw [absent] at found
      cases found

theorem walkFrom_visit {visited pending : List NodeId} {id : NodeId} {element : Element}
    (new : id ∉ visited) (found : arena.element? id = some element) :
    arena.walkFrom visited (id :: pending) =
      id :: arena.walkFrom (id :: visited) (element.children ++ pending) := by
  rw [walkFrom, if_neg new]
  split
  · rename_i absent
    rw [absent] at found
    cases found
  · rename_i other otherFound
    obtain rfl : other = element := Option.some.inj (otherFound.symm.trans found)
    rfl

/-! ## A walk visits nothing else -/

/-- A walk visits only declarations that are new and reached from a pending handle. -/
theorem of_mem_walkFrom {visited pending : List NodeId} {id : NodeId}
    (member : id ∈ arena.walkFrom visited pending) :
    id ∉ visited ∧ (arena.element? id).isSome ∧ ∃ start ∈ pending, arena.Reaches start id := by
  induction visited, pending using Arena.walkFrom.induct arena with
  | case1 visited => simp [walkFrom] at member
  | case2 visited first pending seen inductionHypothesis =>
      rw [walkFrom_seen seen] at member
      obtain ⟨new, declared, start, startPending, reached⟩ := inductionHypothesis member
      exact ⟨new, declared, start, List.mem_cons_of_mem _ startPending, reached⟩
  | case3 visited first pending new absent inductionHypothesis =>
      rw [walkFrom_absent absent] at member
      obtain ⟨new, declared, start, startPending, reached⟩ := inductionHypothesis member
      exact ⟨new, declared, start, List.mem_cons_of_mem _ startPending, reached⟩
  | case4 visited first pending new element found inductionHypothesis =>
      rw [walkFrom_visit new found] at member
      rcases List.mem_cons.1 member with rfl | later
      · exact ⟨new, by simp [found], id, List.mem_cons_self .., .root⟩
      · obtain ⟨newer, declared, start, startPending, reached⟩ := inductionHypothesis later
        refine ⟨fun seen => newer (List.mem_cons_of_mem _ seen), declared, ?_⟩
        rcases List.mem_append.1 startPending with below | outside
        · have step : arena.Reaches first start := .child .root found below
          exact ⟨first, List.mem_cons_self .., step.trans reached⟩
        · exact ⟨start, List.mem_cons_of_mem _ outside, reached⟩

/-- A walk visits no declaration twice. -/
theorem nodup_walkFrom (arena : Arena) (visited pending : List NodeId) :
    (arena.walkFrom visited pending).Nodup := by
  induction visited, pending using Arena.walkFrom.induct arena with
  | case1 visited => simp [walkFrom]
  | case2 visited first pending seen inductionHypothesis =>
      rw [walkFrom_seen seen]
      exact inductionHypothesis
  | case3 visited first pending new absent inductionHypothesis =>
      rw [walkFrom_absent absent]
      exact inductionHypothesis
  | case4 visited first pending new element found inductionHypothesis =>
      rw [walkFrom_visit new found]
      refine List.nodup_cons.2 ⟨fun again => ?_, inductionHypothesis⟩
      exact (of_mem_walkFrom again).1 (List.mem_cons_self ..)

/-! ## A walk visits everything -/

/-- Every child of a visited declaration is visited, pending or no declaration. -/
def Closed (arena : Arena) (visited pending : List NodeId) : Prop :=
  ∀ parent ∈ visited, ∀ element, arena.element? parent = some element →
    ∀ child ∈ element.children, (arena.element? child).isSome → child ∈ visited ∨ child ∈ pending

theorem Closed.skip {visited pending : List NodeId} {first : NodeId}
    (closed : arena.Closed visited (first :: pending))
    (settled : (arena.element? first).isSome → first ∈ visited) : arena.Closed visited pending := by
  intro parent seen element found child member declared
  rcases closed parent seen element found child member declared with inside | waiting
  · exact Or.inl inside
  · rcases List.mem_cons.1 waiting with rfl | later
    · exact Or.inl (settled declared)
    · exact Or.inr later

theorem Closed.visit {visited pending : List NodeId} {first : NodeId} {element : Element}
    (closed : arena.Closed visited (first :: pending))
    (found : arena.element? first = some element) :
    arena.Closed (first :: visited) (element.children ++ pending) := by
  intro parent seen parentElement parentFound child member declared
  rcases List.mem_cons.1 seen with rfl | before
  · obtain rfl : element = parentElement := Option.some.inj (found.symm.trans parentFound)
    exact Or.inr (List.mem_append.2 (Or.inl member))
  · rcases closed parent before parentElement parentFound child member declared with
      inside | waiting
    · exact Or.inl (List.mem_cons_of_mem _ inside)
    · rcases List.mem_cons.1 waiting with rfl | later
      · exact Or.inl (List.mem_cons_self ..)
      · exact Or.inr (List.mem_append.2 (Or.inr later))

/-- When a walk ends, what was visited before or during it holds every pending declaration and every
child of what it holds. -/
theorem closed_walkFrom {visited pending : List NodeId} (closed : arena.Closed visited pending) :
    arena.Closed (visited ++ arena.walkFrom visited pending) [] ∧
      ∀ start ∈ pending, (arena.element? start).isSome →
        start ∈ visited ++ arena.walkFrom visited pending := by
  induction visited, pending using Arena.walkFrom.induct arena with
  | case1 visited =>
      refine ⟨?_, by simp⟩
      simpa [walkFrom] using closed
  | case2 visited first pending seen inductionHypothesis =>
      rw [walkFrom_seen seen]
      obtain ⟨closedAfter, included⟩ := inductionHypothesis (closed.skip fun _ => seen)
      refine ⟨closedAfter, fun start startPending declared => ?_⟩
      rcases List.mem_cons.1 startPending with rfl | later
      · exact List.mem_append.2 (Or.inl seen)
      · exact included start later declared
  | case3 visited first pending new absent inductionHypothesis =>
      rw [walkFrom_absent absent]
      obtain ⟨closedAfter, included⟩ :=
        inductionHypothesis (closed.skip fun declared => by simp [absent] at declared)
      refine ⟨closedAfter, fun start startPending declared => ?_⟩
      rcases List.mem_cons.1 startPending with rfl | later
      · simp [absent] at declared
      · exact included start later declared
  | case4 visited first pending new element found inductionHypothesis =>
      rw [walkFrom_visit new found]
      obtain ⟨closedAfter, included⟩ := inductionHypothesis (closed.visit found)
      -- The declaration counts as visited before the rest of the walk, or as the first visit of it.
      have sameVisits : ∀ {other : NodeId} {rest : List NodeId},
          other ∈ first :: visited ++ rest ↔ other ∈ visited ++ first :: rest := by
        intro other rest
        simp only [List.mem_append, List.mem_cons, or_assoc, or_left_comm]
      refine ⟨?_, fun start startPending declared => ?_⟩
      · intro parent seen parentElement parentFound child member declared
        have inside := closedAfter parent (sameVisits.2 seen) parentElement parentFound child
          member declared
        exact inside.imp_left sameVisits.1
      · rcases List.mem_cons.1 startPending with rfl | later
        · simp
        · exact sameVisits.1 (included start (List.mem_append.2 (Or.inr later)) declared)

/-- A walk visits exactly the declarations that are reached from its root. -/
theorem mem_walk_iff {root id : NodeId} :
    id ∈ arena.walk root ↔ arena.Reaches root id ∧ (arena.element? id).isSome := by
  constructor
  · intro member
    obtain ⟨-, declared, start, startPending, reached⟩ := of_mem_walkFrom member
    obtain rfl : start = root := List.mem_singleton.1 startPending
    exact ⟨reached, declared⟩
  · rintro ⟨reached, declared⟩
    have initially : arena.Closed [] [root] := fun _ seen => absurd seen (List.not_mem_nil)
    obtain ⟨closed, included⟩ := closed_walkFrom initially
    induction reached with
    | root => exact included root (List.mem_singleton_self root) declared
    | child _ found member inductionHypothesis =>
        have parentVisited := inductionHypothesis (by simp [found])
        exact (closed _ parentVisited _ found _ member declared).resolve_right List.not_mem_nil

theorem nodup_walk (arena : Arena) (root : NodeId) : (arena.walk root).Nodup :=
  nodup_walkFrom arena [] [root]

/-! ## Arenas with the same children -/

/-- Arenas whose declarations have the same children are walked in the same way. -/
theorem walkFrom_congr {left right : Arena}
    (same : ∀ id,
      (right.element? id).map Element.children = (left.element? id).map Element.children)
    (visited pending : List NodeId) :
    right.walkFrom visited pending = left.walkFrom visited pending := by
  induction visited, pending using Arena.walkFrom.induct left with
  | case1 visited => simp [walkFrom]
  | case2 visited first pending seen inductionHypothesis =>
      rw [walkFrom_seen seen, walkFrom_seen seen, inductionHypothesis]
  | case3 visited first pending new absent inductionHypothesis =>
      have absentRight : right.element? first = none := by simpa [absent] using same first
      rw [walkFrom_absent absent, walkFrom_absent absentRight, inductionHypothesis]
  | case4 visited first pending new element found inductionHypothesis =>
      obtain ⟨other, otherFound, sameChildren⟩ :
          ∃ other, right.element? first = some other ∧ other.children = element.children := by
        simpa [found] using same first
      rw [walkFrom_visit new found, walkFrom_visit new otherFound, sameChildren,
        inductionHypothesis]

theorem walk_congr {left right : Arena}
    (same : ∀ id,
      (right.element? id).map Element.children = (left.element? id).map Element.children)
    (root : NodeId) : right.walk root = left.walk root :=
  walkFrom_congr same [] [root]

end XmlSchema.Arena
