import XmlSchema.Halt

/-!
# Runs of steps that may halt

A run takes one step for each item of a list and ends with the first step that halts. What every
step keeps, the whole run keeps, and this holds of the context in which it ends whether or not it
halts: `endContext_foldlM`. A run that does not halt is a chain of steps of which none does:
`foldlM_cons_eq_ok_iff`. One that halts does so at a step: `exists_step_of_foldlM_eq_error`. What
one step simulates, a run simulates: `foldlM_image`.
-/

namespace XmlSchema

variable {ε α : Type}

/-- The context in which a step ends, whether or not it halts. -/
def endContext : Except (Halt ε) Context → Context
  | .ok context => context
  | .error halt => halt.context

@[simp] theorem endContext_ok (context : Context) :
    endContext (.ok context : Except (Halt ε) Context) = context := rfl

@[simp] theorem endContext_error (halt : Halt ε) :
    endContext (.error halt : Except (Halt ε) Context) = halt.context := rfl

theorem map_eq_ok_iff {β : Type} {change : α → β} {outcome : Except ε α} {result : β} :
    outcome.map change = .ok result ↔ ∃ value, outcome = .ok value ∧ change value = result := by
  cases outcome with
  | error failure => simp [Except.map]
  | ok value => simp [Except.map]

theorem map_eq_error_iff {β : Type} {change : α → β} {outcome : Except ε α} {failure : ε} :
    outcome.map change = .error failure ↔ outcome = .error failure := by
  cases outcome with
  | error other => simp [Except.map]
  | ok value => simp [Except.map]

/-- A run that goes through is a first step that goes through and a rest that does. -/
theorem foldlM_cons_eq_ok_iff {σ : Type} {step : σ → α → Except ε σ} {item : α} {rest : List α}
    {state result : σ} :
    (item :: rest).foldlM step state = .ok result ↔
      ∃ next, step state item = .ok next ∧ rest.foldlM step next = .ok result := by
  rw [List.foldlM_cons]
  cases step state item with
  | error failure => simp [bind, Except.bind]
  | ok next => simp [bind, Except.bind]

theorem foldlM_nil_eq_ok_iff {σ : Type} {step : σ → α → Except ε σ} {state result : σ} :
    [].foldlM step state = .ok result ↔ state = result := by
  simp [pure, Except.pure]

theorem foldlM_append_eq_ok_iff {σ : Type} {step : σ → α → Except ε σ} {early late : List α}
    {state result : σ} :
    (early ++ late).foldlM step state = .ok result ↔
      ∃ between, early.foldlM step state = .ok between ∧ late.foldlM step between = .ok result := by
  rw [List.foldlM_append]
  cases early.foldlM step state with
  | error failure => simp [bind, Except.bind]
  | ok between => simp [bind, Except.bind]

/-- What every step that goes through keeps, a run that goes through keeps. -/
theorem keeps_of_foldlM {σ : Type} {Keeps : σ → σ → Prop} (refl : ∀ state, Keeps state state)
    (trans : ∀ {first second third}, Keeps first second → Keeps second third → Keeps first third)
    {step : σ → α → Except ε σ} {items : List α}
    (kept : ∀ item ∈ items, ∀ {before after}, step before item = .ok after → Keeps before after)
    {state result : σ} (completed : items.foldlM step state = .ok result) : Keeps state result := by
  induction items generalizing state with
  | nil => exact foldlM_nil_eq_ok_iff.1 completed ▸ refl state
  | cons item rest inductionHypothesis =>
      obtain ⟨next, taken, later⟩ := foldlM_cons_eq_ok_iff.1 completed
      obtain ⟨first, others⟩ := List.forall_mem_cons.1 kept
      exact trans (first taken) (inductionHypothesis others later)

/-- A run that fails does so at one of its steps, in a state that has what every step before keeps.
-/
theorem exists_held_step_of_foldlM_eq_error {σ : Type} {Holds : σ → Prop} {step : σ → α → Except ε σ}
    (kept : ∀ {state item next}, Holds state → step state item = .ok next → Holds next)
    {items : List α} {state : σ} (held : Holds state) {failure : ε}
    (failed : items.foldlM step state = .error failure) :
    ∃ item ∈ items, ∃ before, Holds before ∧ step before item = .error failure := by
  induction items generalizing state with
  | nil => cases failed
  | cons item rest inductionHypothesis =>
      rw [List.foldlM_cons] at failed
      cases outcome : step state item with
      | error other =>
          rw [outcome] at failed
          cases failed
          exact ⟨item, List.mem_cons_self, state, held, outcome⟩
      | ok next =>
          rw [outcome] at failed
          obtain ⟨later, member, before, facts⟩ := inductionHypothesis (kept held outcome) failed
          exact ⟨later, List.mem_cons_of_mem item member, before, facts⟩

/-- A run that fails does so at one of its steps. -/
theorem exists_step_of_foldlM_eq_error {σ : Type} {step : σ → α → Except ε σ} {items : List α}
    {state : σ} {failure : ε} (failed : items.foldlM step state = .error failure) :
    ∃ item ∈ items, ∃ before, step before item = .error failure := by
  have always : ∀ {state : σ} {item : α} {next : σ}, (fun _ => True) state →
      step state item = .ok next → (fun _ => True) next := fun _ _ => trivial
  obtain ⟨item, member, before, -, refused⟩ :=
    exists_held_step_of_foldlM_eq_error always trivial failed
  exact ⟨item, member, before, refused⟩

/-- A run goes through exactly when every item is one at which steps go through, where that does not
depend on the steps before. -/
theorem exists_foldlM_eq_ok_iff {σ : Type} {Holds : σ → Prop} {Passes : α → Prop}
    {step : σ → α → Except ε σ}
    (kept : ∀ {state item next}, Holds state → step state item = .ok next → Holds next)
    (passes : ∀ {state item}, Holds state → ((∃ next, step state item = .ok next) ↔ Passes item))
    {items : List α} {state : σ} (held : Holds state) :
    (∃ result, items.foldlM step state = .ok result) ↔ ∀ item ∈ items, Passes item := by
  induction items generalizing state with
  | nil => exact ⟨fun _ _ member => absurd member List.not_mem_nil, fun _ => ⟨state, rfl⟩⟩
  | cons item rest inductionHypothesis =>
      rw [List.forall_mem_cons]
      constructor
      · rintro ⟨result, completed⟩
        obtain ⟨next, taken, later⟩ := foldlM_cons_eq_ok_iff.1 completed
        exact ⟨(passes held).1 ⟨next, taken⟩,
          (inductionHypothesis (kept held taken)).1 ⟨result, later⟩⟩
      · rintro ⟨first, others⟩
        obtain ⟨next, taken⟩ := (passes held).2 first
        obtain ⟨result, later⟩ := (inductionHypothesis (kept held taken)).2 others
        exact ⟨result, foldlM_cons_eq_ok_iff.2 ⟨next, taken, later⟩⟩

/-- When every step that goes through has an image that does, so has every run. -/
theorem foldlM_image {σ τ : Type} (image : σ → τ) {step : σ → α → Except ε σ}
    {imageStep : τ → α → Except ε τ}
    (carried : ∀ {state item next}, step state item = .ok next →
      imageStep (image state) item = .ok (image next))
    {items : List α} {state result : σ} (completed : items.foldlM step state = .ok result) :
    items.foldlM imageStep (image state) = .ok (image result) := by
  induction items generalizing state with
  | nil =>
      rw [foldlM_nil_eq_ok_iff] at completed ⊢
      rw [completed]
  | cons item rest inductionHypothesis =>
      obtain ⟨next, taken, later⟩ := foldlM_cons_eq_ok_iff.1 completed
      exact foldlM_cons_eq_ok_iff.2 ⟨image next, carried taken, inductionHypothesis later⟩

/-- A run whose steps keep something keeps it, whether or not it halts. -/
theorem endContext_foldlM {Keeps : Context → Context → Prop}
    (refl : ∀ context, Keeps context context)
    (trans : ∀ {first second third}, Keeps first second → Keeps second third → Keeps first third)
    {step : Context → α → Except (Halt ε) Context}
    (kept : ∀ context item, Keeps context (endContext (step context item))) (items : List α)
    (context : Context) : Keeps context (endContext (items.foldlM step context)) := by
  induction items generalizing context with
  | nil => exact refl context
  | cons item rest inductionHypothesis =>
      have first := kept context item
      rw [List.foldlM_cons]
      cases outcome : step context item with
      | error halt =>
          rw [outcome] at first
          exact first
      | ok next =>
          rw [outcome] at first
          exact trans first (inductionHypothesis next)

/-- What every step keeps, a run keeps, whether or not it halts. -/
theorem holds_foldlM {Holds : Context → Prop} {step : Context → α → Except (Halt ε) Context}
    (kept : ∀ {context}, Holds context → ∀ item, Holds (endContext (step context item)))
    (items : List α) {context : Context} (held : Holds context) :
    Holds (endContext (items.foldlM step context)) :=
  @endContext_foldlM ε α (fun before after => Holds before → Holds after) (fun _ => id)
    (fun left right held => right (left held)) step (fun _ item held => kept held item) items context
    held

/-- The same for steps that carry something along with the context. -/
theorem holds_foldlM_fst {β : Type} {Holds : Context → Prop}
    {step : Context × β → α → Except (Halt ε) (Context × β)}
    (kept : ∀ {state}, Holds state.1 → ∀ item, Holds (endContext ((step state item).map Prod.fst)))
    (items : List α) {state : Context × β} (held : Holds state.1) :
    Holds (endContext ((items.foldlM step state).map Prod.fst)) := by
  induction items generalizing state with
  | nil => exact held
  | cons item rest inductionHypothesis =>
      have first := kept held item
      rw [List.foldlM_cons]
      cases outcome : step state item with
      | error halt =>
          rw [outcome] at first
          exact first
      | ok next =>
          rw [outcome] at first
          exact inductionHypothesis first

/-- A run whose steps cannot fail does not fail, as long as the steps keep what rules failure out.
-/
theorem foldlM_total {σ : Type} {Safe : σ → Prop} {step : σ → α → Except ε σ}
    (total : ∀ state item, Safe state → ∃ next, step state item = .ok next ∧ Safe next)
    (items : List α) {state : σ} (safe : Safe state) :
    ∃ result, items.foldlM step state = .ok result := by
  induction items generalizing state with
  | nil => exact ⟨state, rfl⟩
  | cons item rest inductionHypothesis =>
      obtain ⟨next, taken, nextSafe⟩ := total state item safe
      obtain ⟨result, completed⟩ := inductionHypothesis nextSafe
      exact ⟨result, foldlM_cons_eq_ok_iff.2 ⟨next, taken, completed⟩⟩

end XmlSchema
