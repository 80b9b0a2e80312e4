import XmlSchema.Dump.Codec
import XmlSchema.Proofs.FlatTrees
import XmlSchema.Proofs.Json.Record
import XmlSchema.Proofs.Occurrence.Bounds
import XmlSchema.Proofs.Views

/-!
# Maxima without bound

A maximum is a number or the word for no bound: it sets a limit or none, `MeansLimit`. A declaration
has a number in either case, and the number for no limit can be written as well. So a minimum above
it is refused although there is no limit, `exists_completeElement_iff_of_limit`, and a limit from it
on is read back as none, `decode?_encode`. Every smaller limit is reported as it is written.
-/

namespace XmlSchema

namespace Occurrence

/-- The limit that a maximum as it is written sets. The word for no bound sets none. -/
def MeansLimit (written? : Option String) (limit? : Option Nat) : Prop :=
  match written? with
  | none => limit? = some 1
  | some written =>
      (Text.trim written = "unbounded" ∧ limit? = none) ∨
        ∃ most, Text.IsNumeral (Text.trim written) most ∧ most < 2 ^ 32 ∧ limit? = some most

/-- The number that stands for a limit. -/
def encode (limit? : Option Nat) : Nat := limit?.getD 99999

/-- The limit that a number is taken for. -/
def decode? (most : Nat) : Option Nat := if most < 99999 then some most else none

variable {written? : Option String} {limit? : Option Nat} {most : Nat}

/-- A limit that is no smaller than the number for none is lost in that number. -/
theorem decode?_encode : decode? (encode limit?) = limit?.filter (· < 99999) := by
  cases limit? with
  | none => rfl
  | some most =>
      unfold decode? encode
      by_cases below : most < 99999 <;> simp [Option.filter_some, below]

/-- A number is taken for no limit where there is none, or where it is too large to be told. -/
theorem decode?_encode_eq_none_iff :
    decode? (encode limit?) = none ↔ limit? = none ∨ ∃ most, limit? = some most ∧ 99999 ≤ most := by
  rw [decode?_encode, Option.filter_eq_none_iff]
  cases limit? with
  | none => simp
  | some most => simp

/-- There is no limit exactly where the word says so. -/
theorem MeansLimit.eq_none_iff (means : MeansLimit written? limit?) :
    limit? = none ↔ written?.map Text.trim = some "unbounded" := by
  unfold MeansLimit at means
  split at means
  · rw [means]
    exact iff_of_false (Option.some_ne_none 1) (Option.some_ne_none _).symm
  · rcases means with ⟨unbounded, rfl⟩ | ⟨most, numeral, -, rfl⟩
    · exact iff_of_true rfl (congrArg some unbounded)
    · refine iff_of_false (Option.some_ne_none most) fun unbounded => ?_
      rw [Option.some.inj unbounded] at numeral
      exact absurd numeral (not_isNumeral_unbounded most)

theorem MeansLimit.meansMaximum (means : MeansLimit written? limit?) :
    MeansMaximum written? (encode limit?) := by
  unfold MeansLimit at means
  unfold MeansMaximum
  split at means
  · rw [means]
    rfl
  · rcases means with ⟨unbounded, rfl⟩ | ⟨most, numeral, small, rfl⟩
    · exact .inl ⟨unbounded, rfl⟩
    · exact .inr ⟨numeral, small⟩

end Occurrence

open Occurrence (Fits MeansLimit MeansMinimum encode decode?)

/-! ## Completion -/

section Completion

variable {context : Context} {id : NodeId} {element : Element} {least : Nat} {limit? : Option Nat}
  (found : context.element? id = some element)
  (minimum : MeansMinimum element.writtenMinimum? least)
  (limit : MeansLimit element.writtenMaximum? limit?)

include found minimum limit in
/-- A minimum above the number for the limit is refused with that number. -/
theorem completeElement_of_crossed (crossed : encode limit? < least) :
    ∃ halt, completeElement context id = .error halt ∧ halt.cause =
      .semantic ⟨element.name, .crossedBounds (.ofNat least) (.ofNat (encode limit?))⟩ := by
  have refused : element.occurrence =
      .error (.crossedBounds (.ofNat least) (.ofNat (encode limit?))) :=
    Occurrence.ofBounds_of_crossed minimum limit.meansMaximum crossed
  unfold completeElement
  rw [found]
  dsimp only
  rw [refused]
  exact ⟨_, rfl, rfl⟩

include found minimum limit in
/-- A declaration is completed exactly where its minimum is not above the number for its limit. -/
theorem exists_completeElement_iff_of_limit :
    (∃ next, completeElement context id = .ok next) ↔ least ≤ encode limit? := by
  constructor
  · rintro ⟨next, completed⟩
    by_contra crossed
    obtain ⟨halt, refused, -⟩ :=
      completeElement_of_crossed found minimum limit (Nat.not_le.1 crossed)
    cases completed.symm.trans refused
  · intro inOrder
    obtain ⟨next, -, completed, -⟩ := (Context.completesWithin found).accepts least (encode limit?)
      ⟨minimum, limit.meansMaximum, inOrder⟩
    exact ⟨next, completed⟩

end Completion

/-! ## Reports -/

section Reports

variable {element : Element} {view : View} {model : Model} {least most : Nat}

theorem Element.Occurs.isUnbounded_iff (occurs : element.Occurs least most) :
    element.isUnbounded = true ↔ decode? most = none := by
  unfold Element.isUnbounded decode?
  rw [decide_eq_true_iff, ge_iff_le, UInt32.le_iff_toNat_le, occurs.maxOccurs]
  show 99999 ≤ most ↔ _
  simp

theorem boundedMaximum?_toNat (maximum : UInt32) :
    (Dump.boundedMaximum? maximum).map UInt32.toNat = decode? maximum.toNat := by
  have below : maximum < unboundedOccurs ↔ maximum.toNat < 99999 := UInt32.lt_iff_toNat_lt
  unfold Dump.boundedMaximum? decode?
  simp only [below]
  split <;> rfl

/-- A limit as a dump has it: a number, or null for none. -/
def Json.limit (limit? : Option Nat) : Json := limit?.elim .null .natural

theorem Json.word32OrNull_eq_limit (word? : Option UInt32) :
    word32OrNull word? = limit (word?.map UInt32.toNat) := by
  cases word? <;> rfl

/-- A dump has the limit of a declaration as it is read back. -/
theorem Element.Occurs.dumped (occurs : element.Occurs least most) :
    .word32OrNull (Dump.boundedMaximum? element.maxOccurs) = Json.limit (decode? most) := by
  rw [Json.word32OrNull_eq_limit, boundedMaximum?_toNat, occurs.maxOccurs]

theorem lookup_maxOccurs (entry : Dump.ElementEntry) :
    entry.toJson.members.lookup "max_occurs" = some (.word32OrNull entry.maxOccurs?) := by
  simp [Dump.ElementEntry.toJson, Json.members, List.lookup_append, Table.lookup_cons]

theorem lookup_maxOccurs_child (entry : Dump.ChildEntry) :
    entry.toJson.members.lookup "max_occurs" = some (.word32OrNull entry.maxOccurs?) := by
  simp [Dump.ChildEntry.toJson, Json.members, Table.lookup_cons]

end Reports

/-! ## Models -/

/-- The bounds of a declaration as they are written. -/
def Element.writtenBounds (element : Element) : Option String × Option String :=
  (element.writtenMinimum?, element.writtenMaximum?)

namespace Stages

variable {root : NodeId} {surveyed typed completed separated attributed mixed final : Context}
  (stages : Stages root surveyed typed completed separated attributed mixed final)

include stages in
/-- No pass writes bounds. -/
theorem frame_writtenBounds : Frame (.keeping Element.writtenBounds) typed final :=
  stages.frame_afterTypes (fun _ _ _ _ => rfl) (fun _ _ => rfl) (fun _ _ _ _ => rfl)
    (fun _ => rfl) (part_addSimpleBase Element.writtenBounds fun _ _ => rfl) (fun _ => rfl)
    fun _ => rfl

end Stages

section Models

variable {options : Options} {document : Bytes} {model : Model} {view : View}

/-- The bounds of every declaration in a model fit, and give it the numbers it has. -/
theorem exists_fits_of_compileBytes (compiled : compileBytes options document = .ok model)
    (denotes : model.Denotes view) :
    ∃ least most, Fits view.element.writtenMinimum? view.element.writtenMaximum? least most ∧
      view.element.Occurs least most := by
  obtain ⟨surveyed, typed, completed, separated, attributed, mixed, -, stages⟩ :=
    exists_stages compiled
  obtain ⟨before, present, sameBounds⟩ :=
    stages.frame_writtenBounds.of_element?_after denotes.element?
  have member : view.id ∈ typed.walk model.root := Stages.walk_resolution stages.types ▸
    stages.mem_walk_of_reaches denotes.reached denotes.element?
  obtain ⟨after, least, most, presentAfter, fits, occurs⟩ :=
    Context.exists_occurs_of_completeDeclarations stages.completion member present
  have same := stages.frame_completion.holds presentAfter denotes.element?
  obtain ⟨minimum, maximum⟩ := Prod.mk.inj sameBounds
  refine ⟨least, most, ?_, occurs.of_completion same⟩
  rw [minimum, maximum]
  exact fits

/-- Two bounds that can be read mean a least number and a limit, or no limit. A declaration with these
bounds is completed exactly where its minimum is not above the number for the limit, which is 99999
where there is none; else it is refused with that number. In a model it has that number. It passes
for unbounded, and a dump has null for its limit, where the maximum is the word for no bound, but
also where it is a number from 99999 on; every smaller limit is dumped as it is written. -/
theorem limits_of_compileBytes {minimum? maximum? : Option String} {least : Nat}
    {limit? : Option Nat} (minimum : MeansMinimum minimum? least)
    (limit : MeansLimit maximum? limit?) :
    (∀ (context : Context) (id : NodeId) (element : Element),
      context.element? id = some element → element.writtenBounds = (minimum?, maximum?) →
        ((∃ next, completeElement context id = .ok next) ↔ least ≤ limit?.getD 99999) ∧
        (limit?.getD 99999 < least → ∃ halt, completeElement context id = .error halt ∧
          halt.cause = .semantic ⟨element.name,
            .crossedBounds (.ofNat least) (.ofNat (limit?.getD 99999))⟩)) ∧
    ∀ (options : Options) (document : Bytes) (model : Model),
      compileBytes options document = .ok model → ∀ view, model.Denotes view →
        view.element.writtenBounds = (minimum?, maximum?) →
          least ≤ limit?.getD 99999 ∧ view.element.minOccurs.toNat = least ∧
          view.element.maxOccurs.toNat = limit?.getD 99999 ∧
          (view.element.isUnbounded = true ↔ maximum?.map Text.trim = some "unbounded" ∨
            ∃ most, limit? = some most ∧ 99999 ≤ most) ∧
          (Dump.ElementEntry.ofView model view).toJson.members.lookup "max_occurs" =
            some (.limit (limit?.filter (· < 99999))) ∧
          (Dump.ChildEntry.ofElement view.element).toJson.members.lookup "max_occurs" =
            some (.limit (limit?.filter (· < 99999))) := by
  constructor
  · intro context id element found written
    obtain ⟨rfl, rfl⟩ := Prod.mk.inj written
    exact ⟨exists_completeElement_iff_of_limit found minimum limit,
      completeElement_of_crossed found minimum limit⟩
  · intro options document model compiled view denotes written
    obtain ⟨rfl, rfl⟩ := Prod.mk.inj written
    obtain ⟨_, _, fits, occurs⟩ := exists_fits_of_compileBytes compiled denotes
    obtain rfl := minimum.unique fits.minimum
    obtain rfl := limit.meansMaximum.unique fits.maximum
    have dumped := occurs.dumped
    rw [Occurrence.decode?_encode] at dumped
    refine ⟨fits.inOrder, occurs.minOccurs, occurs.maxOccurs, ?_,
      (lookup_maxOccurs _).trans (congrArg some dumped),
      (lookup_maxOccurs_child _).trans (congrArg some dumped)⟩
    rw [occurs.isUnbounded_iff, Occurrence.decode?_encode_eq_none_iff, limit.eq_none_iff]

/-- An element without bound and with a minimum that is the number for no bound. -/
def unboundedSchema : Bytes :=
  schemaDocument ["<s:element name='x' type='s:string' minOccurs='99999' maxOccurs=' unbounded '/>"]

/-- An element without bound whose minimum is as large as it can be. -/
theorem limits_of_compileBytes_unbounded :
    ∃ (model : Model) (view : View) (next : Context),
      compileBytes .standard unboundedSchema = .ok model ∧
      model.Denotes view ∧ view.element.name = "x" ∧
      MeansMinimum (some "99999") 99999 ∧ MeansLimit (some " unbounded ") none ∧
      view.element.writtenBounds = (some "99999", some " unbounded ") ∧
      completeElement model.context view.id = .ok next ∧ view.element.isUnbounded = true ∧
      (Dump.ElementEntry.ofView model view).toJson.members.lookup "max_occurs" = some .null := by
  have computed : compilesFlat .standard unboundedSchema
      (Model.anyElement fun _ element => decide (element.name = "x" ∧
        element.writtenBounds = (some "99999", some " unbounded "))) = true := by
    decide +kernel
  obtain ⟨model, id, element, compiled, reached, found, checked⟩ :=
    exists_element_of_compilesFlat computed
  obtain ⟨name, written⟩ := of_decide_eq_true checked
  have minimum : MeansMinimum (some "99999") 99999 :=
    ⟨Text.word32?_eq_some_iff.1 (show _ = some (99999 : UInt32) by decide), by decide⟩
  have limit : MeansLimit (some " unbounded ") none := .inl ⟨by decide, rfl⟩
  obtain ⟨completes, models⟩ := limits_of_compileBytes minimum limit
  obtain ⟨next, completed⟩ :=
    (completes model.context id element found written).1.2 (Nat.le_refl 99999)
  obtain ⟨-, -, -, unbounded, dumped, -⟩ :=
    models _ _ model compiled ⟨id, element⟩ ⟨reached, found⟩ written
  exact ⟨model, ⟨id, element⟩, next, compiled, ⟨reached, found⟩, name, minimum, limit, written,
    completed, unbounded.2 (.inl (by decide)), dumped⟩

/-- An element whose maximum is the number that stands for no bound. -/
def limitedSchema : Bytes :=
  schemaDocument ["<s:element name='x' type='s:string' maxOccurs='99999'/>"]

/-- An element with a limit passes for unbounded and is dumped as such, and an element without limit
is refused for its minimum. -/
theorem limits_lost :
    (∃ (model : Model) (view : View),
      compileBytes .standard limitedSchema = .ok model ∧
      model.Denotes view ∧ MeansLimit view.element.writtenMaximum? (some 99999) ∧
      view.element.isUnbounded = true ∧
      (Dump.ElementEntry.ofView model view).maxOccurs? = none) ∧
    compileBytes .standard (schemaDocument
      ["<s:element name='x' type='s:string' minOccurs='100000' maxOccurs='unbounded'/>"]) =
        .error (.semantic ⟨"x", .crossedBounds 100000 99999⟩) := by
  constructor
  · have computed : compilesFlat .standard limitedSchema
        (Model.anyElement fun _ element => decide (element.isUnbounded = true ∧
          element.writtenMaximum? = some "99999" ∧
          Dump.boundedMaximum? element.maxOccurs = none)) = true := by
      decide +kernel
    obtain ⟨model, id, element, compiled, reached, found, checked⟩ :=
      exists_element_of_compilesFlat computed
    obtain ⟨isUnbounded, writtenMaximum, dumped⟩ := of_decide_eq_true checked
    refine ⟨model, ⟨id, element⟩, compiled, ⟨reached, found⟩, ?_, isUnbounded, dumped⟩
    show MeansLimit element.writtenMaximum? (some 99999)
    rw [writtenMaximum]
    refine .inr ⟨99999, ?_, by decide, rfl⟩
    exact Text.word32?_eq_some_iff.1 (show _ = some (99999 : UInt32) by decide)
  · exact compileBytes_of_refusesFlat (by decide +kernel)

end Models

end XmlSchema
