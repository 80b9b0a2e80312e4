import Mathlib.Data.List.Induction
import Mathlib.Data.Nat.Digits.Defs
import XmlSchema.Proofs.Completion

/-!
# Bounds as they are written

A bound is written in digits, in front of which a plus sign can stand, and a maximum also as the
word for no bound. Without a bound it is one. Two bounds fit if both can be read and the minimum
does not exceed the maximum: `ofBounds_eq_ok_iff`. The completion of a declaration goes through
exactly where its bounds fit, and else it fails in the name of the declaration:
`completes_of_bounds`.
-/

namespace XmlSchema

namespace Text

/-- Whether a text is a decimal numeral: digits after an optional plus sign. -/
def IsNumeral (text : String) (value : Nat) : Prop :=
  ∃ digits : List Char, (text.toList = digits ∨ text.toList = '+' :: digits) ∧ digits ≠ [] ∧
    (∀ c ∈ digits, '0' ≤ c ∧ c ≤ '9') ∧
    value = Nat.ofDigits 10 (digits.reverse.map fun c => c.toNat - '0'.toNat)

theorem digit?_eq_some_iff {c : Char} {value : Nat} :
    digit? c = some value ↔ ('0' ≤ c ∧ c ≤ '9') ∧ value = c.toNat - '0'.toNat := by
  unfold digit?
  split
  · rename_i isDigit
    simp [isDigit, eq_comm]
  · rename_i notDigit
    simp [notDigit]

/-- Digits are read from the left, with the value of those before. -/
theorem foldlM_digits_eq_some_iff {digits : List Char} {value : Nat} :
    digits.foldlM (fun value c => (digit? c).map (value * 10 + ·)) 0 = some value ↔
      (∀ c ∈ digits, '0' ≤ c ∧ c ≤ '9') ∧
        value = Nat.ofDigits 10 (digits.reverse.map fun c => c.toNat - '0'.toNat) := by
  induction digits using List.reverseRecOn generalizing value with
  | nil => simp [eq_comm]
  | append_singleton digits last inductionHypothesis =>
      have valued : Nat.ofDigits 10 ((digits ++ [last]).reverse.map fun c => c.toNat - '0'.toNat) =
          (last.toNat - '0'.toNat) +
            10 * Nat.ofDigits 10 (digits.reverse.map fun c => c.toNat - '0'.toNat) := by
        rw [List.reverse_append, List.reverse_singleton, List.singleton_append, List.map_cons,
          Nat.ofDigits_cons]
      rw [List.foldlM_append, valued, List.forall_mem_append, List.forall_mem_singleton]
      simp only [List.foldlM_cons, List.foldlM_nil, bind_pure, Option.bind_eq_bind,
        Option.bind_eq_some_iff, Option.map_eq_some_iff, inductionHypothesis, digit?_eq_some_iff]
      constructor
      · rintro ⟨_, ⟨digitsBefore, rfl⟩, _, ⟨isDigit, rfl⟩, rfl⟩
        exact ⟨⟨digitsBefore, isDigit⟩, by omega⟩
      · rintro ⟨⟨digitsBefore, isDigit⟩, rfl⟩
        exact ⟨_, ⟨digitsBefore, rfl⟩, _, ⟨isDigit, rfl⟩, by omega⟩

theorem natural?_eq_some_iff {digits : List Char} {value : Nat} :
    natural? digits = some value ↔ digits ≠ [] ∧ (∀ c ∈ digits, '0' ≤ c ∧ c ≤ '9') ∧
      value = Nat.ofDigits 10 (digits.reverse.map fun c => c.toNat - '0'.toNat) := by
  unfold natural?
  cases digits with
  | nil => simp
  | cons first digits =>
      rw [if_neg (by rw [List.isEmpty_cons]; decide), foldlM_digits_eq_some_iff]
      exact (and_iff_right (List.cons_ne_nil first digits)).symm

/-- A plus sign in front is passed over. -/
theorem word32?_eq_bind {text : String} {digits : List Char}
    (written : text.toList = digits ∧ digits.head? ≠ some '+' ∨ text.toList = '+' :: digits) :
    word32? text = (natural? digits).bind fun value =>
      if value < UInt32.size then some (UInt32.ofNat value) else none := by
  unfold word32?
  rcases written with ⟨rfl, unsigned⟩ | signed
  · split
    · rename_i rest signed
      rw [signed] at unsigned
      exact absurd rfl unsigned
    · dsimp only
      cases natural? text.toList <;> rfl
  · split
    · rename_i rest again
      cases signed.symm.trans again
      dsimp only
      cases natural? digits <;> rfl
    · rename_i unsigned
      exact (unsigned digits signed).elim

/-- A number is read exactly where the text is a numeral for it. -/
theorem word32?_eq_some_iff {text : String} {word : UInt32} :
    word32? text = some word ↔ IsNumeral text word.toNat := by
  have small : word.toNat < UInt32.size := word.toNat_lt
  have fits : ∀ value : Nat,
      (if value < UInt32.size then some (UInt32.ofNat value) else none) = some word ↔
        value = word.toNat := by
    intro value
    constructor
    · intro same
      split at same
      · rename_i fits
        cases same
        exact (UInt32.toNat_ofNat_of_lt' fits).symm
      · cases same
    · rintro rfl
      rw [if_pos small, UInt32.ofNat_toNat]
  have reads : ∀ {digits : List Char},
      text.toList = digits ∧ digits.head? ≠ some '+' ∨ text.toList = '+' :: digits →
      (word32? text = some word ↔ digits ≠ [] ∧ (∀ c ∈ digits, '0' ≤ c ∧ c ≤ '9') ∧
        word.toNat = Nat.ofDigits 10 (digits.reverse.map fun c => c.toNat - '0'.toNat)) := by
    intro digits written
    rw [word32?_eq_bind written, Option.bind_eq_some_iff, ← natural?_eq_some_iff]
    simp only [fits, exists_eq_right]
  constructor
  · intro read
    by_cases signed : text.toList.head? = some '+'
    · obtain ⟨digits, written⟩ := List.head?_eq_some_iff.1 signed
      exact ⟨digits, .inr written, (reads (.inr written)).1 read⟩
    · exact ⟨_, .inl rfl, (reads (.inl ⟨rfl, signed⟩)).1 read⟩
  · rintro ⟨digits, written, read⟩
    refine (reads (written.imp_left fun same => ⟨same, fun signed => ?_⟩)).2 read
    exact absurd (read.2.1 '+' (List.mem_of_mem_head? signed)) (by decide)

end Text

namespace Occurrence

/-- The least number of times that a minimum as it is written allows. -/
def MeansMinimum (written? : Option String) (least : Nat) : Prop :=
  match written? with
  | none => least = 1
  | some written => Text.IsNumeral (Text.trim written) least ∧ least < 2 ^ 32

/-- The greatest number of times that a maximum as it is written allows. -/
def MeansMaximum (written? : Option String) (most : Nat) : Prop :=
  match written? with
  | none => most = 1
  | some written =>
      (Text.trim written = "unbounded" ∧ most = 99999) ∨
        (Text.IsNumeral (Text.trim written) most ∧ most < 2 ^ 32)

/-- Whether two bounds as they are written can be read, and are in order. -/
structure Fits (minimum? maximum? : Option String) (least most : Nat) : Prop where
  minimum : MeansMinimum minimum? least
  maximum : MeansMaximum maximum? most
  inOrder : least ≤ most

variable {written? minimum? maximum? : Option String} {word : UInt32} {occurrence : Occurrence}

/-- The word for no bound is no numeral. -/
theorem not_isNumeral_unbounded (value : Nat) : ¬ Text.IsNumeral "unbounded" value := by
  rintro ⟨digits, written | written, -, areDigits, -⟩
  · have letter : 'u' ∈ digits := written ▸ by decide
    exact absurd (areDigits 'u' letter) (by decide)
  · exact absurd written (by simp)

/-- Without a bound it is one. -/
theorem ok_one_iff : (.ok 1 : Except SemanticCause UInt32) = .ok word ↔ word.toNat = 1 := by
  rw [Except.ok.injEq, eq_comm]
  exact UInt32.toNat_inj.symm

theorem readMinimum_eq_ok_iff :
    boundOrOne readMinimum written? = .ok word ↔ MeansMinimum written? word.toNat := by
  cases written? with
  | none => exact ok_one_iff
  | some written =>
      unfold boundOrOne readMinimum MeansMinimum
      dsimp only
      rw [and_iff_left word.toNat_lt, ← Text.word32?_eq_some_iff]
      cases Text.word32? (Text.trim written) <;> simp

theorem readMaximum_eq_ok_iff :
    boundOrOne readMaximum written? = .ok word ↔ MeansMaximum written? word.toNat := by
  cases written? with
  | none => exact ok_one_iff
  | some written =>
      unfold boundOrOne readMaximum MeansMaximum
      dsimp only
      rw [and_iff_left word.toNat_lt]
      by_cases unbounded : Text.trim written = "unbounded"
      · rw [if_pos unbounded, unbounded, and_iff_right rfl,
          or_iff_left (not_isNumeral_unbounded word.toNat), Except.ok.injEq, eq_comm]
        exact UInt32.toNat_inj.symm
      · rw [if_neg unbounded, or_iff_right fun both => unbounded both.1,
          ← Text.word32?_eq_some_iff]
        cases Text.word32? (Text.trim written) <;> simp

/-- Two bounds give an occurrence exactly where they fit. -/
theorem ofBounds_eq_ok_iff :
    ofBounds minimum? maximum? = .ok occurrence ↔
      Fits minimum? maximum? occurrence.minimum.toNat occurrence.maximum.toNat := by
  have reads : ∀ minimum maximum : UInt32,
      ((if minimum > maximum then .error (.crossedBounds minimum maximum)
          else .ok ⟨minimum, maximum⟩) : Except SemanticCause Occurrence) = .ok occurrence ↔
        occurrence = ⟨minimum, maximum⟩ ∧ minimum.toNat ≤ maximum.toNat := by
    intro minimum maximum
    split
    · rename_i crossed
      have notInOrder : ¬ minimum.toNat ≤ maximum.toNat :=
        Nat.not_le.2 (UInt32.lt_iff_toNat_lt.1 crossed)
      simp [notInOrder]
    · rename_i inOrder
      have ordered : minimum.toNat ≤ maximum.toNat :=
        Nat.not_lt.1 fun crossed => inOrder (UInt32.lt_iff_toNat_lt.2 crossed)
      simp [ordered, eq_comm]
  constructor
  · intro read
    unfold ofBounds at read
    split at read
    · cases read
    · rename_i minimum readMinimum
      split at read
      · cases read
      · rename_i maximum readMaximum
        obtain ⟨rfl, inOrder⟩ := (reads minimum maximum).1 read
        exact ⟨readMinimum_eq_ok_iff.1 readMinimum, readMaximum_eq_ok_iff.1 readMaximum, inOrder⟩
  · intro fits
    unfold ofBounds
    rw [readMinimum_eq_ok_iff.2 fits.minimum]
    dsimp only
    rw [readMaximum_eq_ok_iff.2 fits.maximum]
    exact (reads _ _).2 ⟨rfl, fits.inOrder⟩

theorem MeansMinimum.lt_size {least : Nat} (means : MeansMinimum written? least) :
    least < UInt32.size := by
  unfold MeansMinimum at means
  split at means
  · rw [means]
    decide
  · exact means.2

theorem MeansMaximum.lt_size {most : Nat} (means : MeansMaximum written? most) :
    most < UInt32.size := by
  unfold MeansMaximum at means
  split at means
  · rw [means]
    decide
  · rcases means with ⟨-, rfl⟩ | ⟨-, small⟩
    · decide
    · exact small

theorem MeansMinimum.reads {least : Nat} (means : MeansMinimum written? least) :
    boundOrOne readMinimum written? = .ok (.ofNat least) := by
  rw [readMinimum_eq_ok_iff, UInt32.toNat_ofNat_of_lt' means.lt_size]
  exact means

theorem MeansMaximum.reads {most : Nat} (means : MeansMaximum written? most) :
    boundOrOne readMaximum written? = .ok (.ofNat most) := by
  rw [readMaximum_eq_ok_iff, UInt32.toNat_ofNat_of_lt' means.lt_size]
  exact means

theorem MeansMinimum.unique {least other : Nat} (means : MeansMinimum written? least)
    (again : MeansMinimum written? other) : other = least := by
  have same : UInt32.ofNat other = .ofNat least := Except.ok.inj (again.reads.symm.trans means.reads)
  rw [← UInt32.toNat_ofNat_of_lt' means.lt_size, ← UInt32.toNat_ofNat_of_lt' again.lt_size, same]

theorem MeansMaximum.unique {most other : Nat} (means : MeansMaximum written? most)
    (again : MeansMaximum written? other) : other = most := by
  have same : UInt32.ofNat other = .ofNat most := Except.ok.inj (again.reads.symm.trans means.reads)
  rw [← UInt32.toNat_ofNat_of_lt' means.lt_size, ← UInt32.toNat_ofNat_of_lt' again.lt_size, same]

/-- Numbers that two bounds mean are those of an occurrence. -/
theorem Fits.exists_ofBounds {least most : Nat} (fits : Fits minimum? maximum? least most) :
    ∃ occurrence, ofBounds minimum? maximum? = .ok occurrence ∧
      occurrence.minimum.toNat = least ∧ occurrence.maximum.toNat = most := by
  have least_eq : (UInt32.ofNat least).toNat = least :=
    UInt32.toNat_ofNat_of_lt' fits.minimum.lt_size
  have most_eq : (UInt32.ofNat most).toNat = most :=
    UInt32.toNat_ofNat_of_lt' fits.maximum.lt_size
  refine ⟨⟨UInt32.ofNat least, UInt32.ofNat most⟩, ofBounds_eq_ok_iff.2 ?_, least_eq, most_eq⟩
  dsimp only
  rw [least_eq, most_eq]
  exact fits

/-- Two bounds whose numbers are not in order are refused with these numbers. -/
theorem ofBounds_of_crossed {least most : Nat} (minimum : MeansMinimum minimum? least)
    (maximum : MeansMaximum maximum? most) (crossed : most < least) :
    ofBounds minimum? maximum? = .error (.crossedBounds (.ofNat least) (.ofNat most)) := by
  unfold ofBounds
  rw [minimum.reads]
  dsimp only
  rw [maximum.reads]
  refine if_pos (UInt32.lt_iff_toNat_lt.2 ?_)
  rw [UInt32.toNat_ofNat_of_lt' minimum.lt_size, UInt32.toNat_ofNat_of_lt' maximum.lt_size]
  exact crossed

end Occurrence

/-- What a declaration gets from its bounds. -/
structure Element.Occurs (element : Element) (least most : Nat) : Prop where
  minOccurs : element.minOccurs.toNat = least
  maxOccurs : element.maxOccurs.toNat = most
  isOptional : element.isOptional = true ↔ least = 0

/-- What the completion of a declaration with some bounds does: it goes through where they fit, and
fails in the name of the declaration where they do not. -/
structure Context.CompletesWithin (context : Context) (id : NodeId) (name : String)
    (minimum? maximum? : Option String) : Prop where
  accepts : ∀ least most, Occurrence.Fits minimum? maximum? least most →
    ∃ next after, completeElement context id = .ok next ∧ next.element? id = some after ∧
      after.Occurs least most
  refuses : (¬ ∃ least most, Occurrence.Fits minimum? maximum? least most) →
    ∃ halt cause, completeElement context id = .error halt ∧ halt.cause = .semantic ⟨name, cause⟩

theorem Context.occurs_completed (context : Context) (element : Element)
    (merged : Table Attribute) (occurrence : Occurrence) :
    (context.completed element merged occurrence).Occurs occurrence.minimum.toNat
      occurrence.maximum.toNat :=
  ⟨rfl, rfl, beq_iff_eq.trans UInt32.toNat_inj.symm⟩

/-- A declaration is completed with its own bounds. -/
theorem Context.completesWithin {context : Context} {id : NodeId} {element : Element}
    (found : context.element? id = some element) :
    context.CompletesWithin id element.name element.writtenMinimum? element.writtenMaximum? := by
  refine ⟨fun least most fits => ?_, fun unfit => ?_⟩
  · obtain ⟨occurrence, read, rfl, rfl⟩ := fits.exists_ofBounds
    have occurs : element.occurrence = .ok occurrence := read
    have warned :=
      (element?_foldl_warn (context.mergedAttributes element).warnings context id).trans found
    have changed := element?_modifyElement_self warned fun element' =>
      context.completed element' (context.mergedAttributes element).attributes occurrence
    refine ⟨_, _, ?_, changed, context.occurs_completed element _ occurrence⟩
    unfold completeElement
    rw [found]
    dsimp only
    rw [occurs]
  · unfold completeElement
    rw [found]
    dsimp only
    cases read : element.occurrence with
    | ok occurrence => exact absurd ⟨_, _, Occurrence.ofBounds_eq_ok_iff.1 read⟩ unfit
    | error cause => exact ⟨_, cause, rfl, rfl⟩

/-- A declaration that is completed has bounds that fit. -/
theorem Context.exists_occurs {context next : Context} {id : NodeId} {element : Element}
    (found : context.element? id = some element)
    (completed : completeElement context id = .ok next) :
    ∃ after least most, next.element? id = some after ∧
      Occurrence.Fits element.writtenMinimum? element.writtenMaximum? least most ∧
      after.Occurs least most := by
  obtain ⟨accepts, refuses⟩ := Context.completesWithin found
  by_cases fitting : ∃ least most,
      Occurrence.Fits element.writtenMinimum? element.writtenMaximum? least most
  · obtain ⟨least, most, fits⟩ := fitting
    obtain ⟨same, after, again, present, occurs⟩ := accepts least most fits
    cases completed.symm.trans again
    exact ⟨after, least, most, present, fits, occurs⟩
  · obtain ⟨halt, cause, halted, -⟩ := refuses fitting
    rw [completed] at halted
    cases halted

/-- Each declaration below the root has bounds that fit if the pass goes through. -/
theorem Context.exists_occurs_of_completeDeclarations {context next : Context} {root id : NodeId}
    {element : Element} (completed : completeDeclarations root context = .ok next)
    (member : id ∈ context.walk root) (found : context.element? id = some element) :
    ∃ after least most, next.element? id = some after ∧
      Occurrence.Fits element.writtenMinimum? element.writtenMaximum? least most ∧
      after.Occurs least most := by
  have frame : ∀ current id, Frame .any current (endContext (completeElement current id)) :=
    frame_completeElement (by intros; trivial)
  obtain ⟨beforeVisit, afterVisit, -, same, visited, final⟩ :=
    exists_visit_of_foldlM completeElement_elsewhere frame (Arena.nodup_walk context.arena root)
      member completed
  obtain ⟨after, least, most, present, fits⟩ := exists_occurs (same.trans found) visited
  exact ⟨after, least, most, final.trans present, fits⟩

/-- Later passes keep what a declaration has from its bounds. -/
theorem Element.Occurs.of_completion {before after : Element} {least most : Nat}
    (occurs : before.Occurs least most) (same : after.completion = before.completion) :
    after.Occurs least most := by
  unfold Element.completion at same
  simp only [Prod.mk.injEq] at same
  obtain ⟨-, minimum, maximum, isOptional⟩ := same
  exact ⟨minimum ▸ occurs.minOccurs, maximum ▸ occurs.maxOccurs, isOptional ▸ occurs.isOptional⟩

end XmlSchema
