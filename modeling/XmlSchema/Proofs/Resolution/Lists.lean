import XmlSchema.Proofs.Resolution.SimpleTypes

/-!
# Where lists are detected

A declaration is a list when its simple type or one behind it is. The detection of lists follows the
bases without their namespaces, and resolution keeps the namespace of a built-in one. So the two part
where a base is built in and has a namespace, `ForksAt`, and behind that place they can meet different
types. Up to there they agree: `listDetection_agrees_iff`.
-/

namespace XmlSchema

namespace Context

section Definitions

variable (context : Context)

/-- Whether resolution meets a list among the simple types from a name on. -/
def VisitsList (hops : Nat) (name : String) : Prop :=
  ∃ type ∈ (context.simpleChain hops name).types, type.isList = true

/-- A base is known to tables under its namespace, and detection looks for it without. -/
def Forks (base : String) : Prop :=
  context.vocabulary.tableName base ≠ Namespace.localPart base

/-- The first base that forks is that of the type behind a number of links. -/
structure ForksAt (start : String) (place : Nat) (base : String) : Prop where
  written : ∃ type, context.typeAfter? place start = some type ∧ type.base? = some base
  forks : context.Forks base
  first : ∀ earlier < place, ∀ type before, context.typeAfter? earlier start = some type →
    type.base? = some before → ¬ context.Forks before

/-- Some type behind at most so many links is a list. -/
def ListWithin (place : Nat) (start : String) : Prop :=
  ∃ links ≤ place, ∃ type, context.typeAfter? links start = some type ∧ type.isList = true

/-- With as many links left, detection behind a base finds a list if resolution does. -/
def AgreesBehind (hops : Nat) (base : String) : Prop :=
  context.leadsToList hops (Namespace.localPart base) = true ↔
    context.VisitsList (hops - 1) (context.vocabulary.tableName base)

/-- Behind the first base that forks, detection and resolution agree, or they have met a list
before. -/
def AgreesBehindForks (hops : Nat) (start : String) : Prop :=
  ∀ place base, context.ForksAt start place base → place < hops →
    context.ListWithin place start ∨ context.AgreesBehind (hops - place) base

end Definitions

variable {context : Context} {hops rounds place : Nat} {start base : String} {type : SimpleType}

/-! ## The first type -/

@[simp] theorem leadsToList_zero (context : Context) (start : String) :
    context.leadsToList 0 start = false := rfl

theorem leadsToList_of_absent (absent : context.simpleType? start = none) :
    context.leadsToList rounds start = false := by
  cases rounds with
  | zero => rfl
  | succ rounds => rw [leadsToList, absent]

theorem not_visitsList_of_absent (absent : context.simpleType? start = none) :
    ¬ context.VisitsList hops start := by
  unfold VisitsList
  rw [simpleChain_of_absent absent]
  rintro ⟨type, member, -⟩
  cases member

section Declared

variable (found : context.simpleType? start = some type)

include found in
theorem leadsToList_succ : context.leadsToList (rounds + 1) start =
    (type.isList || type.base?.any fun base =>
      context.leadsToList rounds (Namespace.localPart base)) := by
  rw [leadsToList, found]
  dsimp only
  cases type.base? <;> rfl

include found in
theorem visitsList_of_isList (list : type.isList = true) : context.VisitsList hops start := by
  unfold VisitsList
  rw [types_simpleChain found]
  exact ⟨type, List.mem_cons_self .., list⟩

include found in
/-- What is visited behind a type that is no list begins with its base. -/
theorem visitsList_succ_iff (plain : type.isList = false) (based : type.base? = some base) :
    context.VisitsList (hops + 1) start ↔
      context.VisitsList hops (context.vocabulary.tableName base) := by
  unfold VisitsList
  rw [simpleChain_succ found based]
  simp [plain]

include found in
theorem not_visitsList_of_last (plain : type.isList = false)
    (last : hops = 0 ∨ type.base? = none) : ¬ context.VisitsList hops start := by
  have types : (context.simpleChain hops start).types = [type] := by
    rw [types_simpleChain found, baseLink?_of_declared found]
    rcases last with rfl | baseless
    · rfl
    · cases hops <;> simp [baseless]
  rintro ⟨other, member, list⟩
  rw [types, List.mem_singleton] at member
  rw [member, plain] at list
  cases list

include found in
theorem typeAfter?_succ_of_based (based : type.base? = some base) :
    context.typeAfter? (place + 1) start =
      context.typeAfter? place (context.vocabulary.tableName base) := by
  rw [typeAfter?_succ, baseLink?_of_declared found, based]
  rfl

include found in
theorem typeAfter?_succ_of_baseless (baseless : type.base? = none) :
    context.typeAfter? (place + 1) start = none := by
  rw [typeAfter?_succ, baseLink?_of_declared found, baseless]
  rfl

end Declared

/-! ## The place of the first fork -/

theorem not_forksAt_of_absent (absent : context.simpleType? start = none) :
    ¬ context.ForksAt start place base := by
  rintro ⟨⟨type, reached, -⟩, -, -⟩
  rw [typeAfter?_of_absent absent] at reached
  cases reached

section Declared

variable (found : context.simpleType? start = some type)

include found in
theorem not_forksAt_of_baseless (baseless : type.base? = none) :
    ¬ context.ForksAt start place base := by
  rintro ⟨⟨other, reached, based⟩, -, -⟩
  cases place with
  | zero =>
      cases found.symm.trans reached
      rw [baseless] at based
      cases based
  | succ place =>
      rw [typeAfter?_succ_of_baseless found baseless] at reached
      cases reached

include found in
/-- A base that forks is the first one at once. -/
theorem forksAt_iff_of_forks (based : type.base? = some base) (forks : context.Forks base)
    {other : String} : context.ForksAt start place other ↔ place = 0 ∧ other = base := by
  constructor
  · rintro ⟨⟨last, reached, lastBased⟩, -, first⟩
    cases place with
    | zero =>
        cases found.symm.trans reached
        exact ⟨rfl, Option.some.inj (lastBased.symm.trans based)⟩
    | succ place => exact absurd forks (first 0 (Nat.succ_pos place) type base found based)
  · rintro ⟨rfl, rfl⟩
    exact ⟨⟨type, found, based⟩, forks, fun _ sooner => absurd sooner (Nat.not_lt_zero _)⟩

include found in
/-- Behind a base that does not fork the first fork is one link nearer. -/
theorem forksAt_iff_of_not_forks (based : type.base? = some base) (plain : ¬ context.Forks base)
    {other : String} : context.ForksAt start place other ↔
      ∃ nearer, place = nearer + 1 ∧
        context.ForksAt (context.vocabulary.tableName base) nearer other := by
  constructor
  · rintro ⟨⟨last, reached, lastBased⟩, forks, first⟩
    cases place with
    | zero =>
        cases found.symm.trans reached
        cases lastBased.symm.trans based
        exact absurd forks plain
    | succ nearer =>
        rw [typeAfter?_succ_of_based found based] at reached
        refine ⟨nearer, rfl, ⟨last, reached, lastBased⟩, forks, fun earlier sooner between => ?_⟩
        rw [← typeAfter?_succ_of_based found based]
        exact fun before => first (earlier + 1) (Nat.succ_lt_succ sooner) between before
  · rintro ⟨nearer, rfl, ⟨last, reached, lastBased⟩, forks, first⟩
    rw [← typeAfter?_succ_of_based found based] at reached
    refine ⟨⟨last, reached, lastBased⟩, forks, fun earlier sooner between before met => ?_⟩
    cases earlier with
    | zero =>
        cases found.symm.trans met
        intro earlierBased
        cases earlierBased.symm.trans based
        exact plain
    | succ earlier =>
        rw [typeAfter?_succ_of_based found based] at met
        exact first earlier (Nat.lt_of_succ_lt_succ sooner) between before met

include found in
theorem listWithin_of_isList (list : type.isList = true) : context.ListWithin place start :=
  ⟨0, Nat.zero_le _, type, found, list⟩

include found in
theorem not_listWithin_zero (plain : type.isList = false) : ¬ context.ListWithin 0 start := by
  rintro ⟨links, within, other, reached, list⟩
  cases Nat.le_zero.1 within
  cases found.symm.trans reached
  rw [plain] at list
  cases list

include found in
theorem listWithin_succ_iff (plain : type.isList = false) (based : type.base? = some base) :
    context.ListWithin (place + 1) start ↔
      context.ListWithin place (context.vocabulary.tableName base) := by
  constructor
  · rintro ⟨links, within, other, reached, list⟩
    cases links with
    | zero =>
        cases found.symm.trans reached
        rw [plain] at list
        cases list
    | succ links =>
        rw [typeAfter?_succ_of_based found based] at reached
        exact ⟨links, Nat.le_of_succ_le_succ within, other, reached, list⟩
  · rintro ⟨links, within, other, reached, list⟩
    rw [← typeAfter?_succ_of_based found based] at reached
    exact ⟨links + 1, Nat.succ_le_succ within, other, reached, list⟩

include found in
theorem agreesBehindForks_of_forks (plain : type.isList = false) (based : type.base? = some base)
    (forks : context.Forks base) :
    context.AgreesBehindForks (hops + 1) start ↔ context.AgreesBehind (hops + 1) base := by
  unfold AgreesBehindForks
  simp only [forksAt_iff_of_forks found based forks]
  constructor
  · intro behind
    exact (behind 0 base ⟨rfl, rfl⟩ (Nat.succ_pos hops)).resolve_left
      (not_listWithin_zero found plain)
  · rintro agrees place other ⟨rfl, rfl⟩ -
    exact .inr agrees

include found in
theorem agreesBehindForks_of_not_forks (plain : type.isList = false)
    (based : type.base? = some base) (straight : ¬ context.Forks base) :
    context.AgreesBehindForks (hops + 1) start ↔
      context.AgreesBehindForks hops (context.vocabulary.tableName base) := by
  unfold AgreesBehindForks
  simp only [forksAt_iff_of_not_forks found based straight]
  constructor
  · intro agrees nearer other fork within
    have behind := agrees (nearer + 1) other ⟨nearer, rfl, fork⟩ (Nat.succ_lt_succ within)
    rw [listWithin_succ_iff found plain based, Nat.succ_sub_succ] at behind
    exact behind
  · rintro agrees place other ⟨nearer, rfl, fork⟩ within
    rw [listWithin_succ_iff found plain based, Nat.succ_sub_succ]
    exact agrees nearer other fork (Nat.lt_of_succ_lt_succ within)

end Declared

/-! ## Detection and resolution -/

/-- Both look at the same types as long as no base forks. -/
theorem leadsToList_agrees_iff (hops : Nat) (start : String) :
    (context.leadsToList (hops + 1) start = true ↔ context.VisitsList hops start) ↔
      context.AgreesBehindForks hops start := by
  cases found : context.simpleType? start with
  | none =>
      refine iff_of_true ?_ fun place base fork => absurd fork (not_forksAt_of_absent found)
      exact iff_of_false (by simp [leadsToList_of_absent found]) (not_visitsList_of_absent found)
  | some type =>
      cases list : type.isList with
      | true =>
          refine iff_of_true ?_ fun place base _ _ => .inl (listWithin_of_isList found list)
          exact iff_of_true (by simp [leadsToList_succ found, list]) (visitsList_of_isList found list)
      | false =>
          cases based : type.base? with
          | none =>
              refine iff_of_true ?_ fun place base fork =>
                absurd fork (not_forksAt_of_baseless found based)
              exact iff_of_false (by simp [leadsToList_succ found, list, based])
                (not_visitsList_of_last found list (.inr based))
          | some base =>
              cases hops with
              | zero =>
                  refine iff_of_true ?_ fun place base _ within =>
                    absurd within (Nat.not_lt_zero place)
                  exact iff_of_false (by simp [leadsToList_succ found, list, based])
                    (not_visitsList_of_last found list (.inl rfl))
              | succ hops =>
                  rw [leadsToList_succ found, list, based, Bool.false_or, Option.any_some,
                    visitsList_succ_iff found list based]
                  by_cases forks : context.Forks base
                  · rw [agreesBehindForks_of_forks found list based forks]
                    rfl
                  · have same : context.vocabulary.tableName base = Namespace.localPart base :=
                      not_not.1 forks
                    rw [agreesBehindForks_of_not_forks found list based forks, ← same]
                    exact leadsToList_agrees_iff hops (context.vocabulary.tableName base)

end Context

/-- A name is detected as a list exactly if resolution visits a list from it on, up to the first base
that is built in and has a namespace. Where there is such a base within the bound and no list before
it, detection goes on at its local name and resolution at the base itself, and the two agree if both
find a list there or neither does. -/
theorem listDetection_agrees_iff (context : Context) (name : String) :
    (context.isListType name = true ↔
      ∃ type ∈ (context.simpleChain context.options.limits.simpleTypeHops name).types,
        type.isList = true) ↔
      ∀ place base, context.ForksAt name place base →
        place < context.options.limits.simpleTypeHops →
          context.ListWithin place name ∨
            (context.leadsToList (context.options.limits.simpleTypeHops - place)
                (Namespace.localPart base) = true ↔
              ∃ type ∈ (context.simpleChain (context.options.limits.simpleTypeHops - place - 1)
                (context.vocabulary.tableName base)).types, type.isList = true) :=
  Context.leadsToList_agrees_iff context.options.limits.simpleTypeHops name

/-- A list that is called like a built-in type, and a type based on the built-in one. -/
def shadowingListSchema : Bytes :=
  schemaDocument [
    "<s:simpleType name='string'><s:list itemType='s:int'/></s:simpleType>",
    "<s:simpleType name='T'><s:restriction base='s:string'/></s:simpleType>",
    "<s:element name='e' type='T'/>"]

/-- The base of the type is the built-in string type, where resolution ends. Detection takes it for
the list that bears the same local name. -/
theorem isListType_of_shadowed :
    ∃ context root, readTree (.initial .standard) shadowingListSchema = .ok (context, root) ∧
      context.isListType "T" = true ∧
      ¬ ∃ type ∈ (context.simpleChain context.options.limits.simpleTypeHops "T").types,
        type.isList = true := by
  have computed : readsTree .standard shadowingListSchema
      (fun context _ => decide (context.isListType "T" = true ∧
        ¬ ∃ type ∈ (context.simpleChain context.options.limits.simpleTypeHops "T").types,
          type.isList = true)) = true := by
    decide +kernel
  obtain ⟨context, root, read, checked⟩ := exists_of_readsTree computed
  exact ⟨context, root, read, of_decide_eq_true checked⟩

end XmlSchema
