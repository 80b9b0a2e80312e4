import XmlSchema.Table
import XmlSchema.Arena

/-!
# Progress of searches

Searches through nodes and names remember what they have visited. What is left can only shrink, and
it shrinks with each visit to something new: `unvisited_cons_lt` for any list of candidates, and its
two uses, `unvisitedNodes_cons_lt` and `unvisitedKeys_cons_lt`. A walk through a fixed tree has a
measure in numbers, `Arena.workLeft`, which falls by what a visit adds to the pending handles:
`Arena.workLeft_cons`. This is why the searches end.
-/

namespace XmlSchema

/-- A count falls when fewer elements satisfy the new test and one of them is lost. -/
theorem countP_lt_countP {α : Type} {new old : α → Bool} :
    ∀ {candidates : List α} (lost : α), (∀ candidate, new candidate = true → old candidate = true) →
      lost ∈ candidates → old lost = true → new lost = false →
      candidates.countP new < candidates.countP old
  | [], _, _, member, _, _ => by cases member
  | candidate :: rest, lost, implied, member, before, after => by
      rcases List.mem_cons.1 member with rfl | later
      · have notMore : rest.countP new ≤ rest.countP old :=
          List.countP_mono_left fun other _ => implied other
        rw [List.countP_cons_of_pos before, List.countP_cons_of_neg (by simp [after])]
        omega
      · have fewer := countP_lt_countP lost implied later before after
        rw [List.countP_cons, List.countP_cons]
        cases heldBefore : old candidate with
        | true => split <;> simp <;> omega
        | false =>
            have heldNot : new candidate = false := by
              cases held : new candidate with
              | true => exact absurd (implied candidate held) (by simp [heldBefore])
              | false => rfl
            simpa [heldNot] using fewer

/-- How many candidates are not visited yet. -/
def unvisited {α : Type} [DecidableEq α] (candidates visited : List α) : Nat :=
  candidates.countP fun candidate => decide (candidate ∉ visited)

/-- A visit to something new leaves fewer candidates. -/
theorem unvisited_cons_lt {α : Type} [DecidableEq α] {candidates visited : List α} {visit : α}
    (candidate : visit ∈ candidates) (new : visit ∉ visited) :
    unvisited candidates (visit :: visited) < unvisited candidates visited := by
  refine countP_lt_countP visit ?_ candidate (by simpa using new) (by simp)
  intro other notVisited
  simp only [decide_eq_true_eq, List.mem_cons, not_or] at notVisited ⊢
  exact notVisited.2

def Arena.handles (arena : Arena) : List NodeId := (List.range arena.size).map NodeId.mk

theorem Arena.mem_handles {arena : Arena} {id : NodeId} {element : Element}
    (found : arena.element? id = some element) : id ∈ arena.handles := by
  unfold handles
  refine List.mem_map.2 ⟨id.index, List.mem_range.2 ?_, rfl⟩
  unfold element? node? at found
  cases atIndex : arena.nodes[id.index]? with
  | none => simp [atIndex] at found
  | some node => exact (Array.getElem?_eq_some_iff.1 atIndex).1

/-- Arenas of one size have the same handles. -/
theorem Arena.handles_eq_of_size_eq {left right : Arena} (sameSize : left.size = right.size) :
    left.handles = right.handles := by
  unfold handles
  rw [sameSize]

/-- A visit to a new declaration leaves fewer handles. -/
theorem unvisitedNodes_cons_lt {arena : Arena} {visited : List NodeId} {id : NodeId}
    {element : Element} (found : arena.element? id = some element) (new : id ∉ visited) :
    unvisited arena.handles (id :: visited) < unvisited arena.handles visited :=
  unvisited_cons_lt (Arena.mem_handles found) new

def total {α : Type} (measure : α → Nat) (items : List α) : Nat :=
  items.foldr (fun item sum => measure item + sum) 0

theorem total_cons {α : Type} (measure : α → Nat) (item : α) (rest : List α) :
    total measure (item :: rest) = measure item + total measure rest := rfl

/-- Totals over one list are ordered as the measures are. -/
theorem total_le_total {α : Type} {new old : α → Nat} (items : List α)
    (bounded : ∀ item, new item ≤ old item) : total new items ≤ total old items := by
  induction items with
  | nil => exact Nat.le_refl _
  | cons item rest inductionHypothesis =>
      have itemBound := bounded item
      rw [total_cons, total_cons]
      omega

/-- A total falls by `drop` when the measure of no item grows and that of one falls by as much. -/
theorem total_add_le {α : Type} {new old : α → Nat} {drop : Nat} {items : List α} {lost : α}
    (bounded : ∀ item, new item ≤ old item) (member : lost ∈ items)
    (falls : new lost + drop ≤ old lost) : total new items + drop ≤ total old items := by
  induction items with
  | nil => cases member
  | cons item rest inductionHypothesis =>
      rw [total_cons, total_cons]
      rcases List.mem_cons.1 member with rfl | later
      · have restBound := total_le_total rest bounded
        omega
      · have restFalls := inductionHypothesis later
        have itemBound := bounded item
        omega

/-- How many handles a walk can still take up: for each handle not visited yet, itself and those of
its children. -/
def Arena.workLeft (arena : Arena) (visited : List NodeId) : Nat :=
  total (fun id =>
    if id ∈ visited then 0 else ((arena.element? id).map (·.children.length)).getD 0 + 1)
    arena.handles

/-- A visit to a new declaration takes its children out of what is left. -/
theorem Arena.workLeft_cons {arena : Arena} {visited : List NodeId} {id : NodeId}
    {element : Element} (found : arena.element? id = some element) (new : id ∉ visited) :
    arena.workLeft (id :: visited) + (element.children.length + 1) ≤ arena.workLeft visited := by
  refine total_add_le ?_ (mem_handles found) (by simp [new, found])
  intro other
  by_cases same : other = id
  · simp [same]
  · simp [same]

/-- A visit to a new key of a table leaves fewer keys. -/
theorem unvisitedKeys_cons_lt {α : Type} {table : Table α} {visited : List String} {key : String}
    (present : table.contains key = true) (new : key ∉ visited) :
    unvisited table.keys (key :: visited) < unvisited table.keys visited :=
  unvisited_cons_lt ((Table.contains_iff_mem_keys table key).1 present) new

end XmlSchema
