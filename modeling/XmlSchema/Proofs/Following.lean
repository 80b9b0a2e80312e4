/-!
# Following links

Bases and aliases lead from one name to the next, and may end or come back to a name. `follow?` says
where a number of links lead. Links that come back to a place never end: `exists_follow?_of_cycle`.
-/

namespace XmlSchema

variable {α : Type}

/-- Where a number of links lead from a place, if there are so many. -/
def follow? (next : α → Option α) : Nat → α → Option α
  | 0, start => some start
  | links + 1, start => (next start).bind (follow? next links)

variable {next : α → Option α} {links more : Nat} {start second last : α}

theorem follow?_add :
    follow? next (links + more) start = (follow? next links start).bind (follow? next more) := by
  induction links generalizing start with
  | zero => rw [Nat.zero_add, follow?, Option.bind_some]
  | succ links inductionHypothesis =>
      rw [Nat.succ_add, follow?, follow?, Option.bind_assoc]
      exact congrArg (Option.bind (next start)) (funext fun _ => inductionHypothesis)

theorem follow?_one : follow? next 1 start = next start := by
  unfold follow?
  cases next start with
  | none => rfl
  | some second => rfl

/-- The last link. -/
theorem follow?_succ_eq_some_iff :
    follow? next (links + 1) start = some last ↔
      ∃ before, follow? next links start = some before ∧ next before = some last := by
  rw [follow?_add, Option.bind_eq_some_iff]
  simp only [follow?_one]

/-- Where many links can be followed, fewer can. -/
theorem exists_follow?_of_le (fewer : links ≤ more) (reached : follow? next more start = some last) :
    ∃ between, follow? next links start = some between := by
  obtain ⟨rest, rfl⟩ := Nat.exists_eq_add_of_le fewer
  rw [follow?_add, Option.bind_eq_some_iff] at reached
  obtain ⟨between, earlier, -⟩ := reached
  exact ⟨between, earlier⟩

/-- Before the last place there is a next one. -/
theorem exists_next_of_lt (fewer : links < more) (reached : follow? next more start = some last)
    (earlier : follow? next links start = some second) : ∃ after, next second = some after := by
  obtain ⟨after, taken⟩ := exists_follow?_of_le (Nat.succ_le_of_lt fewer) reached
  obtain ⟨before, same, onward⟩ := follow?_succ_eq_some_iff.1 taken
  cases earlier.symm.trans same
  exact ⟨after, onward⟩

/-- There is one last place at most. -/
theorem eq_of_last {other : α} (reached : follow? next links start = some last)
    (ends : next last = none) (others : follow? next more start = some other)
    (othersEnd : next other = none) : last = other := by
  rcases Nat.lt_trichotomy links more with fewer | rfl | further
  · obtain ⟨after, onward⟩ := exists_next_of_lt fewer others reached
    rw [ends] at onward
    cases onward
  · exact Option.some.inj (reached.symm.trans others)
  · obtain ⟨after, onward⟩ := exists_next_of_lt further reached others
    rw [othersEnd] at onward
    cases onward

/-- A place reached twice is reached again and again, so any number of links can be followed. -/
theorem exists_follow?_of_cycle (fewer : links < more) (first : follow? next links start = some last)
    (again : follow? next more start = some last) (count : Nat) :
    ∃ place, follow? next count start = some place := by
  obtain ⟨round, rfl⟩ := Nat.exists_eq_add_of_lt fewer
  have loop : follow? next (round + 1) last = some last := by
    rw [Nat.add_assoc, follow?_add, first] at again
    exact again
  have rounds : ∀ times, follow? next (times * (round + 1)) last = some last := by
    intro times
    induction times with
    | zero => rw [Nat.zero_mul, follow?]
    | succ times inductionHypothesis =>
        rw [Nat.succ_mul, follow?_add, inductionHypothesis]
        exact loop
  have late : follow? next (links + count * (round + 1)) start = some last := by
    rw [follow?_add, first]
    exact rounds count
  exact exists_follow?_of_le (Nat.le_trans (Nat.le_mul_of_pos_right count (Nat.succ_pos round))
    (Nat.le_add_left _ links)) late

end XmlSchema
