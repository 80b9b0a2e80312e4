import XmlSchema.Proofs.DocumentOrder
import XmlSchema.Proofs.Following

/-!
# The rounds of a walk

A walk can be made with a stack of handles, one round for each handle taken from it:
`Traversal.round?`. A handle goes on the stack as often as it is a child of a declaration that is
listed, and is marked only when it is taken, so a traversal takes up handles again and passes them
over. It comes to an end all the same, with the declarations that the walk lists, and the number of
its rounds is known: `exists_follow?_walkFrom`. What a walk lists, and in which order, is said by
`walk_depthFirst`.
-/

namespace XmlSchema

/-- A walk under way. The top of the stack comes first. -/
structure Traversal where
  taken : List NodeId
  stack : List NodeId
  listed : List NodeId
deriving DecidableEq

namespace Traversal

def start (root : NodeId) : Traversal := ⟨[], [root], []⟩

/-- A round takes the handle on top of the stack. A handle that was taken before is passed over, and
so is a simple type. A declaration is listed and its children go on the stack, the last one first.
There is no round without a handle to take, and none for a handle that no node has. -/
def round? (arena : Arena) (traversal : Traversal) : Option Traversal :=
  match traversal.stack with
  | [] => none
  | id :: stack =>
      if id ∈ traversal.taken then some { traversal with stack }
      else
        (arena.node? id).map fun node =>
          match node.element? with
          | none => { traversal with taken := id :: traversal.taken, stack }
          | some element =>
              { taken := id :: traversal.taken
                stack := element.children.reverse.foldl (fun stack child => child :: stack) stack
                listed := traversal.listed ++ [id] }

end Traversal

namespace Arena

/-- Every child is the handle of a node. -/
def HoldsChildren (arena : Arena) : Prop :=
  ∀ id element, arena.element? id = some element →
    ∀ child ∈ element.children, (arena.node? child).isSome

instance (arena : Arena) : Decidable arena.HoldsChildren :=
  decidable_of_iff (∀ id ∈ arena.handles, ∀ element ∈ arena.element? id,
      ∀ child ∈ element.children, (arena.node? child).isSome)
    ⟨fun held id element found => held id (mem_handles found) element found,
      fun held id _ element found => held id element found⟩

/-- How many handles a declaration has as children. -/
def childCount (arena : Arena) (id : NodeId) : Nat :=
  ((arena.element? id).map (·.children.length)).getD 0

end Arena

namespace Traversal

variable {arena : Arena} {visited taken stack listed : List NodeId} {id : NodeId}
  {element : Element}

/-! ## One round -/

theorem round?_again (again : id ∈ taken) :
    round? arena ⟨taken, id :: stack, listed⟩ = some ⟨taken, stack, listed⟩ := by
  simp [round?, again]

theorem round?_simple (new : id ∉ taken) (held : (arena.node? id).isSome)
    (simple : arena.element? id = none) :
    round? arena ⟨taken, id :: stack, listed⟩ = some ⟨id :: taken, stack, listed⟩ := by
  obtain ⟨node, found⟩ := Option.isSome_iff_exists.1 held
  have notDeclared : node.element? = none := by simpa [Arena.element?, found] using simple
  simp [round?, new, found, notDeclared]

theorem round?_declaration (new : id ∉ taken) (found : arena.element? id = some element) :
    round? arena ⟨taken, id :: stack, listed⟩ =
      some ⟨id :: taken, element.children ++ stack, listed ++ [id]⟩ := by
  obtain ⟨node, present, declared⟩ := Option.bind_eq_some_iff.1 found
  simp [round?, new, present, declared]

/-- The first round asks for the node of the root. -/
theorem isSome_round?_start (root : NodeId) :
    (round? arena (start root)).isSome = (arena.node? root).isSome := by
  simp [round?, start]

/-! ## All rounds -/

/-- The handles taken up are those of the visited declarations and others of simple types. -/
structure Marks (arena : Arena) (visited taken : List NodeId) : Prop where
  marked : ∀ id ∈ visited, id ∈ taken
  declared : ∀ id ∈ taken, (arena.element? id).isSome → id ∈ visited

theorem marks_start : Marks arena [] [] := ⟨fun _ seen => seen, fun _ seen _ => seen⟩

theorem Marks.simple (marks : Marks arena visited taken) (simple : arena.element? id = none) :
    Marks arena visited (id :: taken) where
  marked other seen := List.mem_cons_of_mem _ (marks.marked other seen)
  declared other member found := by
    rcases List.mem_cons.1 member with rfl | before
    · simp [simple] at found
    · exact marks.declared other before found

theorem Marks.declaration (marks : Marks arena visited taken) :
    Marks arena (id :: visited) (id :: taken) where
  marked other seen := by
    rcases List.mem_cons.1 seen with rfl | before
    · exact List.mem_cons_self ..
    · exact List.mem_cons_of_mem _ (marks.marked other before)
  declared other member found := by
    rcases List.mem_cons.1 member with rfl | before
    · exact List.mem_cons_self ..
    · exact List.mem_cons_of_mem _ (marks.declared other before found)

/-- A round comes before the others. -/
theorem follow?_of_round {rounds : Nat} {before after : Traversal}
    (round : round? arena before = some after) :
    follow? (round? arena) (rounds + 1) before = follow? (round? arena) rounds after := by
  rw [follow?, round, Option.bind_some]

/-- A traversal lists what the walk lists. There is a round for each handle on the stack and one for
each child of a declaration that is listed, and then the stack is empty. -/
theorem exists_follow?_walkFrom (held : arena.HoldsChildren) (marks : Marks arena visited taken)
    (stackHeld : ∀ id ∈ stack, (arena.node? id).isSome) (listed : List NodeId) :
    ∃ after, follow? (round? arena)
        (total arena.childCount (arena.walkFrom visited stack) + stack.length)
        ⟨taken, stack, listed⟩ =
      some ⟨after, [], listed ++ arena.walkFrom visited stack⟩ := by
  induction visited, stack using Arena.walkFrom.induct arena generalizing taken listed with
  | case1 visited =>
      refine ⟨taken, ?_⟩
      simp [Arena.walkFrom, total, follow?]
  | case2 visited first pending seen inductionHypothesis =>
      obtain ⟨-, pendingHeld⟩ := List.forall_mem_cons.1 stackHeld
      rw [Arena.walkFrom_seen seen, List.length_cons, ← Nat.add_assoc,
        follow?_of_round (round?_again (marks.marked first seen))]
      exact inductionHypothesis marks pendingHeld listed
  | case3 visited first pending new simple inductionHypothesis =>
      obtain ⟨firstHeld, pendingHeld⟩ := List.forall_mem_cons.1 stackHeld
      rw [Arena.walkFrom_absent simple, List.length_cons, ← Nat.add_assoc]
      -- A traversal marks simple types like declarations, and the walk does not.
      by_cases again : first ∈ taken
      · rw [follow?_of_round (round?_again again)]
        exact inductionHypothesis marks pendingHeld listed
      · rw [follow?_of_round (round?_simple again firstHeld simple)]
        exact inductionHypothesis (marks.simple simple) pendingHeld listed
  | case4 visited first pending new element found inductionHypothesis =>
      have newTaken : first ∉ taken := fun member =>
        new (marks.declared first member (by simp [found]))
      obtain ⟨-, pendingHeld⟩ := List.forall_mem_cons.1 stackHeld
      have belowHeld : ∀ id ∈ element.children ++ pending, (arena.node? id).isSome := by
        intro id member
        rcases List.mem_append.1 member with below | later
        · exact held first element found id below
        · exact pendingHeld id later
      have rounds :
          total arena.childCount (first :: arena.walkFrom (first :: visited)
              (element.children ++ pending)) + (first :: pending).length =
            total arena.childCount (arena.walkFrom (first :: visited)
              (element.children ++ pending)) + (element.children ++ pending).length + 1 := by
        have count : arena.childCount first = element.children.length := by
          simp [Arena.childCount, found]
        rw [total_cons, count, List.length_cons, List.length_append]
        omega
      rw [Arena.walkFrom_visit new found, rounds,
        follow?_of_round (round?_declaration newTaken found)]
      obtain ⟨after, followed⟩ :=
        inductionHypothesis marks.declaration belowHeld (listed ++ [first])
      refine ⟨after, ?_⟩
      rw [followed, List.append_assoc, List.singleton_append]

/-- A traversal comes to its end with the list of the walk exactly if the root is a node. -/
theorem exists_follow?_start_iff (held : arena.HoldsChildren) (root : NodeId) :
    (∃ taken, follow? (round? arena) (total arena.childCount (arena.walk root) + 1) (start root) =
      some ⟨taken, [], arena.walk root⟩) ↔ (arena.node? root).isSome := by
  constructor
  · rintro ⟨taken, followed⟩
    obtain ⟨first, round⟩ := exists_follow?_of_le (Nat.le_add_left 1 _) followed
    rw [follow?_one] at round
    rw [← isSome_round?_start, round, Option.isSome_some]
  · intro rootHeld
    have stackHeld : ∀ id ∈ [root], (arena.node? id).isSome := by
      intro id member
      rw [List.mem_singleton.1 member]
      exact rootHeld
    exact exists_follow?_walkFrom held marks_start stackHeld []

end Traversal

/-- Where every child is a node, a traversal from a node ends after one round for the root and one
for each child of a declaration that is listed, and lists what the walk lists. This is the one order
of the depth-first search, in which each declaration that is reached occurs once and nothing else
occurs. -/
theorem walk_depthFirst (arena : Arena) (root : NodeId) (held : arena.HoldsChildren) :
    ((∃ taken, follow? (Traversal.round? arena) (total arena.childCount (arena.walk root) + 1)
        (.start root) = some ⟨taken, [], arena.walk root⟩) ↔ (arena.node? root).isSome) ∧
      (∀ order, arena.Explores [] [root] order ↔ order = arena.walk root) ∧
      (∀ id, id ∈ arena.walk root ↔ arena.Reaches root id ∧ (arena.element? id).isSome) ∧
      (arena.walk root).Nodup := by
  refine ⟨Traversal.exists_follow?_start_iff held root, ?_, ?_, Arena.nodup_walk arena root⟩
  · intro order
    exact Arena.explores_iff
  · intro id
    exact Arena.mem_walk_iff

/-- Five nodes. The third is a child of the first and of the second and leads back to the first, the
fourth contains itself, and the last is a simple type. -/
def tangledArena : Arena :=
  let declaration (children : List NodeId) : Node :=
    .declaration { Element.ofTag .element .empty .standard with children }
  ⟨#[declaration [⟨1⟩, ⟨2⟩], declaration [⟨2⟩, ⟨3⟩], declaration [⟨0⟩, ⟨4⟩],
    declaration [⟨3⟩, ⟨1⟩], .simple (.ofName "T")]⟩

/-- The third node is listed below the second, where it comes first, although the stack holds it as
a child of the first before that. -/
theorem walk_depthFirst_tangled :
    tangledArena.HoldsChildren ∧ tangledArena.walk ⟨0⟩ = [⟨0⟩, ⟨1⟩, ⟨2⟩, ⟨3⟩] ∧
      (∃ taken, follow? (Traversal.round? tangledArena) 9 (.start ⟨0⟩) =
        some ⟨taken, [], [⟨0⟩, ⟨1⟩, ⟨2⟩, ⟨3⟩]⟩) ∧
      ∀ order, tangledArena.Explores [] [⟨0⟩] order ↔ order = [⟨0⟩, ⟨1⟩, ⟨2⟩, ⟨3⟩] := by
  have held : tangledArena.HoldsChildren := by decide +kernel
  have walked : tangledArena.walk ⟨0⟩ = [⟨0⟩, ⟨1⟩, ⟨2⟩, ⟨3⟩] := by decide +kernel
  have rounds : total tangledArena.childCount [⟨0⟩, ⟨1⟩, ⟨2⟩, ⟨3⟩] + 1 = 9 := by decide +kernel
  obtain ⟨ends, explored, -⟩ := walk_depthFirst tangledArena ⟨0⟩ held
  rw [walked, rounds] at ends
  rw [walked] at explored
  exact ⟨held, walked, ends.2 rfl, explored⟩

end XmlSchema
