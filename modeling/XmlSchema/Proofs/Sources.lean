import XmlSchema.Compile

/-!
# Agreement of the sources

A document compiles alike from wherever it comes. `drain_eq_take` says that the pieces in which a
stream comes do not matter: draining takes a prefix of its bytes, and meets its failure only when it
asks for more than there is. With the two checks of the size this gives `routes_agree`, for all
sources at once. They differ only in the size that is reported of a stream that is too large.
-/

namespace XmlSchema

namespace Stream

/-- The stream that deliveries make up, whatever its pieces are. -/
def ofDeliveries : List Delivery → Stream
  | [] | .piece [] :: _ => ⟨[], none⟩
  | .failure reason :: _ => ⟨[], some reason⟩
  | .interruption :: rest => ofDeliveries rest
  | .piece (byte :: bytes) :: rest =>
      ⟨byte :: bytes ++ (ofDeliveries rest).bytes, (ofDeliveries rest).failure?⟩

/-- The first `count` bytes of a stream. Who asks for no more bytes than there are does not meet the
failure. -/
def take (stream : Stream) (count : Nat) : Except String Bytes :=
  match stream.failure? with
  | some reason =>
      if stream.bytes.length < count then .error reason else .ok (stream.bytes.take count)
  | none => .ok (stream.bytes.take count)

theorem take_zero (stream : Stream) : stream.take 0 = .ok [] := by
  unfold take
  split <;> simp

/-- What is taken of a stream is taken of its first bytes, and then of what comes behind them. -/
theorem take_append (bytes more : Bytes) (failure? : Option String) (count : Nat) :
    take ⟨bytes ++ more, failure?⟩ count =
      (take ⟨more, failure?⟩ (count - bytes.length)).map (bytes.take count ++ ·) := by
  cases failure? with
  | none => simp [take, Except.map, List.take_append]
  | some reason =>
    have counted : (bytes ++ more).length < count ↔ more.length < count - bytes.length := by
      rw [List.length_append]
      omega
    by_cases short : more.length < count - bytes.length
    · simp only [take, if_pos (counted.2 short), if_pos short, Except.map]
    · simp only [take, if_neg (mt counted.1 short), if_neg short, Except.map, List.take_append]

/-- Pieces that hold bytes make up what they hold together. -/
theorem ofDeliveries_pieces (pieces : List Bytes) (hold : [] ∉ pieces) :
    ofDeliveries (pieces.map .piece) = ⟨pieces.flatten, none⟩ := by
  induction pieces with
  | nil => rfl
  | cons piece rest ih =>
    obtain ⟨holds, restHold⟩ := List.ne_and_not_mem_of_not_mem_cons hold
    cases piece with
    | nil => exact absurd rfl holds
    | cons byte bytes => rw [List.map_cons, ofDeliveries, ih restHold]; rfl

theorem ofDeliveries_deliveries (stream : Stream) : ofDeliveries stream.deliveries = stream := by
  obtain ⟨bytes, failure?⟩ := stream
  cases bytes <;> cases failure? <;> simp [deliveries, ofDeliveries]

end Stream

/-- Draining takes a prefix of the stream, in whatever pieces it comes. -/
theorem drain_eq_take (budget : Nat) (deliveries : List Delivery) :
    drain budget deliveries = (Stream.ofDeliveries deliveries).take budget := by
  fun_induction drain budget deliveries with
  | case1 deliveries => exact (Stream.take_zero _).symm
  | case2 budget => rfl
  | case3 budget rest => rfl
  | case4 budget reason rest => rfl
  | case5 budget rest ih => exact ih
  | case6 budget byte bytes rest taken ih =>
    -- What a piece has beyond the budget is cut off, and then nothing is left to ask for.
    have remaining : budget + 1 - taken.length = budget + 1 - (byte :: bytes).length := by
      simp only [taken, List.length_cons, List.length_take]
      omega
    rw [ih, remaining, Stream.ofDeliveries, Stream.take_append]
    rfl

namespace Limits

variable {limits : Limits}

theorem checkSize_of_le {size : Nat} (small : size ≤ limits.xmlSize) :
    limits.checkSize size = .ok () :=
  if_neg (Nat.not_lt.2 small)

theorem checkSize_of_lt {size : Nat} (large : limits.xmlSize < size) :
    limits.checkSize size = .error (.size size limits.xmlSize) :=
  if_pos large

theorem readSize_of_lt (told : limits.xmlSize < largestSize) :
    limits.readSize = limits.xmlSize + 1 :=
  Nat.min_eq_left told

/-- A document that is not too large is read whole, and so is any where sizes end. -/
theorem le_readSize {size : Nat} (told : limits.xmlSize ≤ largestSize)
    (small : size ≤ limits.xmlSize) : size ≤ limits.readSize :=
  Nat.le_min.2 ⟨Nat.le_succ_of_le small, Nat.le_trans small told⟩

end Limits

namespace Source

variable {limits : Limits} {document : Bytes} {deliveries : List Delivery}

theorem checkSize_of_le (small : document.length ≤ limits.xmlSize) :
    checkSize limits document = .ok document := by
  rw [checkSize, Limits.checkSize_of_le small]

theorem checkSize_of_lt (large : limits.xmlSize < document.length) :
    checkSize limits document = .error (.limit (.size document.length limits.xmlSize)) := by
  rw [checkSize, Limits.checkSize_of_lt large]

theorem load_of_take
    (taken : (Stream.ofDeliveries deliveries).take limits.readSize = .ok document) :
    load limits (.delivered deliveries) = checkSize limits document := by
  simp only [load, drain_eq_take, taken]

theorem load_of_take_error {reason : String}
    (fails : (Stream.ofDeliveries deliveries).take limits.readSize = .error reason) :
    load limits (.delivered deliveries) = .error (.io reason) := by
  simp only [load, drain_eq_take, fails]

theorem load_delivered_of_le (told : limits.xmlSize ≤ largestSize)
    (delivered : Stream.ofDeliveries deliveries = ⟨document, none⟩)
    (small : document.length ≤ limits.xmlSize) :
    load limits (.delivered deliveries) = .ok document := by
  have taken : (Stream.ofDeliveries deliveries).take limits.readSize = .ok document := by
    rw [delivered]
    exact congrArg Except.ok (List.take_of_length_le (Limits.le_readSize told small))
  rw [load_of_take taken]
  exact checkSize_of_le small

/-- A stream that goes on beyond the largest size is too large, whatever comes later. -/
theorem load_delivered_of_lt (told : limits.xmlSize < largestSize)
    (large : limits.xmlSize < (Stream.ofDeliveries deliveries).bytes.length) :
    load limits (.delivered deliveries) =
      .error (.limit (.size (limits.xmlSize + 1) limits.xmlSize)) := by
  have taken : (Stream.ofDeliveries deliveries).take limits.readSize =
      .ok ((Stream.ofDeliveries deliveries).bytes.take (limits.xmlSize + 1)) := by
    rw [Limits.readSize_of_lt told]
    unfold Stream.take
    split
    · rw [if_neg (by omega)]
    · rfl
  have counted : ((Stream.ofDeliveries deliveries).bytes.take (limits.xmlSize + 1)).length =
      limits.xmlSize + 1 := by
    rw [List.length_take]
    omega
  have tooLarge := checkSize_of_lt (Nat.lt_of_lt_of_eq (Nat.lt_succ_self _) counted.symm)
  rw [counted] at tooLarge
  rw [load_of_take taken]
  exact tooLarge

theorem load_delivered_of_failure {reason : String} (told : limits.xmlSize < largestSize)
    (fails : (Stream.ofDeliveries deliveries).failure? = some reason)
    (small : (Stream.ofDeliveries deliveries).bytes.length ≤ limits.xmlSize) :
    load limits (.delivered deliveries) = .error (.io reason) := by
  refine load_of_take_error ?_
  rw [Limits.readSize_of_lt told]
  simp only [Stream.take, fails, if_pos (Nat.lt_succ_of_le small)]

end Source

section Compilation

variable {options : Options} {document : Bytes} {source : Source}

theorem compile_of_load (loads : source.load options.limits = .ok document) :
    compile options source = compileBytes options document := by
  rw [compile, loads]

theorem compile_of_load_error {error : Error} (fails : source.load options.limits = .error error) :
    compile options source = .error error := by
  rw [compile, fails]

theorem compileBytes_of_lt (large : options.limits.xmlSize < document.length) :
    compileBytes options document =
      .error (.limit (.size document.length options.limits.xmlSize)) := by
  rw [compileBytes, Limits.checkSize_of_lt large]

/-- Checking the size before a compilation changes nothing: the compilation checks it again. -/
theorem compile_of_checkSize
    (checks : source.load options.limits = Source.checkSize options.limits document) :
    compile options source = compileBytes options document := by
  by_cases small : document.length ≤ options.limits.xmlSize
  · exact compile_of_load (checks.trans (Source.checkSize_of_le small))
  · have large := Nat.lt_of_not_le small
    rw [compileBytes_of_lt large]
    exact compile_of_load_error (checks.trans (Source.checkSize_of_lt large))

end Compilation

/-- A document compiles alike from memory, as a text, from a file and from a stream, in whatever
pieces the stream comes. Of a stream that is too large only the one byte is known that it has too
many; one that fails is refused for that, unless it is too large before. -/
theorem routes_agree {options : Options} {document : Bytes}
    {read : String → Except String Bytes} {path : String}
    (told : options.limits.xmlSize ≤ largestSize) (fits : document.length ≤ largestSize)
    (readable : read path = .ok document) :
    compile options (.bytes document) = compileBytes options document ∧
    compile options (.ofLocation read (.file path)) = compileBytes options document ∧
    (∀ text, Text.Utf8.encode text = document →
      compileText options text = compileBytes options document ∧
      compile options (.ofLocation read (.memory text)) = compileBytes options document) ∧
    (∀ deliveries, Stream.ofDeliveries deliveries = ⟨document, none⟩ →
      compile options (.delivered deliveries) =
        if document.length ≤ options.limits.xmlSize then compileBytes options document
        else .error (.limit (.size (options.limits.xmlSize + 1) options.limits.xmlSize))) ∧
    (options.limits.xmlSize < document.length →
      compileBytes options document =
        .error (.limit (.size document.length options.limits.xmlSize))) ∧
    ∀ deliveries given reason, Stream.ofDeliveries deliveries = ⟨given, some reason⟩ →
      options.limits.xmlSize < largestSize →
      compile options (.delivered deliveries) =
        .error (if given.length ≤ options.limits.xmlSize then .io reason
          else .limit (.size (options.limits.xmlSize + 1) options.limits.xmlSize)) := by
  refine ⟨compile_of_checkSize rfl, ?file, ?text, ?stream, compileBytes_of_lt, ?failure⟩
  case file =>
    refine compile_of_checkSize ?_
    rw [Source.ofLocation, readable, Source.load]
  case text =>
    rintro text rfl
    exact ⟨rfl, compile_of_checkSize rfl⟩
  case stream =>
    intro deliveries delivered
    split
    case isTrue small =>
      exact compile_of_load (Source.load_delivered_of_le told delivered small)
    case isFalse large =>
      have beyond := Nat.lt_of_not_le large
      exact compile_of_load_error
        (Source.load_delivered_of_lt (Nat.lt_of_lt_of_le beyond fits) (by rwa [delivered]))
  case failure =>
    intro deliveries given reason delivered lessThanAll
    split
    case isTrue small =>
      exact compile_of_load_error
        (Source.load_delivered_of_failure lessThanAll (by rw [delivered]) (by rwa [delivered]))
    case isFalse large =>
      exact compile_of_load_error
        (Source.load_delivered_of_lt lessThanAll (by simpa [delivered] using large))

/-- Five bytes where three are allowed: from memory all five are reported, from a stream the fourth.
A stream that fails behind the third is refused for that. -/
theorem routes_agree_oversize :
    let options : Options :=
      { Options.standard with limits := { Limits.standard with xmlSize := 3 } }
    compile options (.ofLocation (fun _ => .ok [60, 97, 98, 47, 62]) (.file "a.xsd")) =
        .error (.limit (.size 5 3)) ∧
      compile options (.delivered [.piece [60, 97], .interruption, .piece [98], .piece [47, 62]]) =
        .error (.limit (.size 4 3)) ∧
      compile options (.delivered [.piece [60], .piece [97, 98], .failure "broken pipe"]) =
        .error (.io "broken pipe") := by
  intro options
  obtain ⟨-, file, -, stream, oversize, failure⟩ :=
    @routes_agree options [60, 97, 98, 47, 62] (fun _ => .ok [60, 97, 98, 47, 62]) "a.xsd"
      (by decide) (by decide) rfl
  exact ⟨file.trans (oversize (by decide)), stream _ rfl,
    failure _ [60, 97, 98] "broken pipe" rfl (by decide)⟩

end XmlSchema
