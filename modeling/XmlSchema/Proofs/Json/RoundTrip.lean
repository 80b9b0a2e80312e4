import XmlSchema.Json.Parser
import XmlSchema.Json.Printer

/-!
# What is written is read back

A JSON value is read back from its text, in every layout: `parse_render`. It has to be plain, which
means that nothing in it is kept as written by somebody else. The proof follows the value: a scalar
is read from its characters, and the items of an array and the members of an object are read one
after the other, each with what is written behind it as the rest.
-/

namespace XmlSchema

/-! ## Numerals -/

namespace Text

theorem digit?_digitChar {value : Nat} (single : value < 10) :
    digit? value.digitChar = some value := by
  revert value
  decide

theorem foldlM_toDigits (value : Nat) :
    (Nat.toDigits 10 value).foldlM (fun value c => (digit? c).map (value * 10 + ·)) 0 =
      some value := by
  induction value using Nat.strongRecOn with
  | ind value inductionHypothesis =>
      rw [Nat.toDigits_eq_if (by decide)]
      split
      · rename_i single
        simp [digit?_digitChar single]
      · rename_i several
        have last : value % 10 < 10 := Nat.mod_lt value (by decide)
        rw [List.foldlM_append, inductionHypothesis (value / 10) (by omega)]
        simp [digit?_digitChar last]
        omega

/-- The decimal digits of a number are read as the number. -/
theorem natural?_toDigits (value : Nat) : natural? (Nat.toDigits 10 value) = some value := by
  have nonempty : (Nat.toDigits 10 value).isEmpty = false := by
    simp
  unfold natural?
  rw [nonempty]
  exact foldlM_toDigits value

end Text

namespace Json

theorem isDigit_of_mem_toDigits {value : Nat} {c : Char} (member : c ∈ Nat.toDigits 10 value) :
    c.isDigit = true :=
  Nat.isDigit_of_mem_toDigits (by decide) (by decide) member

/-- Only zero itself is written with a leading zero. -/
theorem toDigits_ne_zero_cons (value : Nat) (second : Char) (rest : List Char) :
    Nat.toDigits 10 value ≠ '0' :: second :: rest := by
  induction value using Nat.strongRecOn generalizing second rest with
  | ind value inductionHypothesis =>
      rw [Nat.toDigits_eq_if (by decide)]
      split
      · simp
      · rename_i several
        intro same
        -- All digits but the last are those of a tenth, which would have to be zero.
        have front : Nat.toDigits 10 (value / 10) = ('0' :: second :: rest).dropLast := by
          rw [← same, List.dropLast_concat]
        cases rest with
        | nil =>
            have tenth := Text.natural?_toDigits (value / 10)
            rw [front] at tenth
            have zero : (0 : Nat) = value / 10 := Option.some.inj tenth
            omega
        | cons third rest =>
            exact inductionHypothesis (value / 10) (by omega) second _ front

/-- Whether a number goes on with a character. -/
def continuesNumber (c : Char) : Bool := c.isDigit || c = '.' || c = 'e' || c = 'E'

/-- Whether a number ends before the rest of a text. -/
def EndsNumber (rest : List Char) : Prop := ∀ c ∈ rest.head?, continuesNumber c = false

theorem endsNumber_nil : EndsNumber [] := by
  intro c member
  cases member

theorem endsNumber_cons {c : Char} {rest : List Char} (ends : continuesNumber c = false) :
    EndsNumber (c :: rest) := by
  intro first member
  cases member
  exact ends

section Numbers

variable {rest : List Char} (ends : EndsNumber rest)

include ends in
theorem digitRun?_toDigits (value : Nat) :
    digitRun? (Nat.toDigits 10 value ++ rest) = some (Nat.toDigits 10 value, rest) := by
  have digits : ∀ c ∈ Nat.toDigits 10 value, c.isDigit = true := fun c => isDigit_of_mem_toDigits
  have taken : rest.takeWhile Char.isDigit = [] ∧ rest.dropWhile Char.isDigit = rest := by
    cases rest with
    | nil => exact ⟨rfl, rfl⟩
    | cons c rest =>
        have notDigit : c.isDigit = false := by
          have ended := ends c rfl
          simp only [continuesNumber, Bool.or_eq_false_iff] at ended
          exact ended.1.1.1
        simp [notDigit]
  unfold digitRun?
  rw [List.takeWhile_append_of_pos digits, List.dropWhile_append_of_pos digits, taken.1, taken.2]
  simp

include ends in
theorem integerPart?_toDigits (value : Nat) :
    integerPart? (Nat.toDigits 10 value ++ rest) = some (Nat.toDigits 10 value, rest) := by
  unfold integerPart?
  rw [digitRun?_toDigits ends]
  split
  · rename_i second others _ same
    have leading : Nat.toDigits 10 value = '0' :: second :: others := by
      simpa using congrArg (Option.map Prod.fst) same
    exact absurd leading (toDigits_ne_zero_cons value second others)
  · rfl

include ends in
theorem fractionPart?_of_endsNumber : fractionPart? rest = some ([], rest) := by
  unfold fractionPart?
  split
  · have ended := ends '.' rfl
    cases ended
  · rfl

include ends in
theorem exponentPart?_of_endsNumber : exponentPart? rest = some ([], rest) := by
  unfold exponentPart?
  cases rest with
  | nil => rfl
  | cons c rest =>
      have noExponent : ¬ (c = 'e' ∨ c = 'E') := by
        have ended := ends c rfl
        simp only [continuesNumber, Bool.or_eq_false_iff, decide_eq_false_iff_not] at ended
        rintro (lower | upper)
        · exact ended.1.2 lower
        · exact ended.2 upper
      dsimp only
      rw [if_neg noExponent]

include ends in
/-- The digits of a number are read with the sign in front of them. Zero has none. -/
theorem readUnsigned_toDigits (negative : Bool) (value : Nat)
    (signed : negative = true → value ≠ 0) :
    readUnsigned negative (Nat.toDigits 10 value ++ rest) =
      some (.integer (if negative then -(value : Int) else value), rest) := by
  have unsignedZero : (negative && value == 0) = false := by
    cases negative with
    | false => rfl
    | true => simpa using signed rfl
  unfold readUnsigned
  rw [integerPart?_toDigits ends]
  simp only [Option.bind_eq_bind, Option.bind_some, fractionPart?_of_endsNumber ends,
    exponentPart?_of_endsNumber ends, Text.natural?_toDigits, unsignedZero]
  rfl

include ends in
theorem readNumber_integerText (value : Int) :
    readNumber (integerText value ++ rest) = some (.integer value, rest) := by
  cases value with
  | ofNat value =>
      have unsigned := readUnsigned_toDigits ends false value nofun
      have first : ∀ others, integerText (.ofNat value) ++ rest ≠ '-' :: others := by
        intro others same
        cases digits : Nat.toDigits 10 value with
        | nil => simp at digits
        | cons c others =>
            have member : c ∈ Nat.toDigits 10 value := by
              rw [digits]
              exact List.mem_cons_self
            have digit := isDigit_of_mem_toDigits member
            simp only [integerText, digits, List.cons_append, List.cons.injEq] at same
            rw [same.1] at digit
            cases digit
      unfold readNumber
      split
      · rename_i others same
        exact absurd same (first others)
      · exact unsigned
  | negSucc value =>
      have signed := readUnsigned_toDigits ends true (value + 1) (fun _ => Nat.succ_ne_zero value)
      unfold readNumber integerText
      exact signed

end Numbers

/-! ## Texts -/

theorem hexValue?_hexDigit {value : Nat} (single : value < 16) :
    hexValue? (hexDigit value) = some value := by
  revert value
  decide

section Characters

variable {read rest : List Char}

/-- A letter behind a backslash is read as the character that it names. -/
theorem stringBody_escaped {letter c : Char} (named : escaped? letter = some c) :
    stringBody (some read) ('\\' :: letter :: rest) = stringBody (some (c :: read)) rest := by
  have notUnit : letter ≠ 'u' := by
    rintro rfl
    cases named
  rw [stringBody.eq_def]
  split
  case h_5 =>
    rename_i noEscape same
    cases same
    exact absurd rfl (noEscape letter rest rfl)
  all_goals simp_all

/-- A character by its number is read as the character, unless the number is half of a pair. -/
theorem stringBody_unit {first second third fourth : Char} {unit : Nat}
    (numbered : codeUnit? first second third fourth = some unit) (low : unit < 0xD800) :
    stringBody (some read) ('\\' :: 'u' :: first :: second :: third :: fourth :: rest) =
      stringBody (some (Char.ofNat unit :: read)) rest := by
  rw [stringBody, numbered]
  dsimp only
  rw [if_neg (by omega), if_neg (by omega)]
  rfl

/-- Any other character is read as itself. -/
theorem stringBody_itself {c : Char} (notQuote : c ≠ '"') (notBackslash : c ≠ '\\')
    (visible : ¬ c.toNat < 0x20) :
    stringBody (some read) (c :: rest) = stringBody (some (c :: read)) rest := by
  rw [stringBody.eq_def]
  split
  case h_5 =>
    rename_i same
    cases same
    rw [if_neg visible]
    rfl
  all_goals simp_all

theorem codeUnit?_hexDigit {value : Nat} (control : value < 0x20) :
    codeUnit? '0' '0' (hexDigit (value / 16)) (hexDigit (value % 16)) = some value := by
  have high : hexValue? (hexDigit (value / 16)) = some (value / 16) :=
    hexValue?_hexDigit (by omega)
  have low : hexValue? (hexDigit (value % 16)) = some (value % 16) :=
    hexValue?_hexDigit (by omega)
  have zero : hexValue? '0' = some 0 := rfl
  simp only [codeUnit?, high, low, zero, Option.bind_eq_bind, Option.bind_some]
  congr 1
  omega

/-- A control character is read from its number. -/
theorem stringBody_control {c : Char} (control : c.toNat < 0x20) :
    stringBody (some read)
        ('\\' :: 'u' :: '0' :: '0' :: hexDigit (c.toNat / 16) :: hexDigit (c.toNat % 16) :: rest) =
      stringBody (some (c :: read)) rest := by
  rw [stringBody_unit (codeUnit?_hexDigit control) (by omega), Char.ofNat_toNat]

end Characters

/-- A character as it stands inside quotation marks is read as the character. -/
theorem stringBody_escapeChar (c : Char) (read rest : List Char) :
    stringBody (some read) (escapeChar c ++ rest) = stringBody (some (c :: read)) rest := by
  unfold escapeChar
  by_cases quote : c = '"'
  · subst quote
    exact stringBody_escaped rfl
  by_cases backslash : c = '\\'
  · subst backslash
    exact stringBody_escaped rfl
  by_cases backspace : c = '\x08'
  · subst backspace
    exact stringBody_escaped rfl
  by_cases formFeed : c = '\x0c'
  · subst formFeed
    exact stringBody_escaped rfl
  by_cases newline : c = '\n'
  · subst newline
    exact stringBody_escaped rfl
  by_cases carriageReturn : c = '\r'
  · subst carriageReturn
    exact stringBody_escaped rfl
  by_cases tabulator : c = '\t'
  · subst tabulator
    exact stringBody_escaped rfl
  simp only [quote, backslash, backspace, formFeed, newline, carriageReturn, tabulator, if_false]
  by_cases control : c.toNat < 0x20
  · rw [if_pos control]
    exact stringBody_control control
  · rw [if_neg control]
    exact stringBody_itself quote backslash control

theorem stringBody_flatMap (text read rest : List Char) :
    stringBody (some read) (text.flatMap escapeChar ++ '"' :: rest) =
      some (some (String.ofList (read.reverse ++ text)), rest) := by
  induction text generalizing read with
  | nil => simp [stringBody]
  | cons c text inductionHypothesis =>
      rw [List.flatMap_cons, List.append_assoc, stringBody_escapeChar, inductionHypothesis]
      simp

/-- A text is read back from behind its opening quotation mark. -/
theorem stringBody_quoted (text : String) (rest : List Char) :
    stringBody (some []) (text.toList.flatMap escapeChar ++ '"' :: rest) =
      some (some text, rest) := by
  simp [stringBody_flatMap]

/-! ## Blanks -/

@[simp] theorem skipBlanks_nil : skipBlanks [] = [] := rfl

theorem skipBlanks_of_mark {c : Char} {rest : List Char} (mark : isTokenBlank c = false) :
    skipBlanks (c :: rest) = c :: rest := by
  simp [skipBlanks, mark]

@[simp] theorem skipBlanks_lineBreak (layout : Layout) (depth : Nat) (rest : List Char) :
    skipBlanks (layout.lineBreak depth ++ rest) = skipBlanks rest := by
  have blanks : ∀ c ∈ layout.lineBreak depth, isTokenBlank c = true := by
    intro c member
    unfold Layout.lineBreak at member
    split at member
    · rcases List.mem_cons.1 member with rfl | space
      · rfl
      · rw [List.eq_of_mem_replicate space]
        rfl
    · cases member
  exact List.dropWhile_append_of_pos blanks

/-- A colon has nothing but blanks behind it. -/
theorem exists_colon (layout : Layout) :
    ∃ gap, layout.colon = ':' :: gap ∧ ∀ rest, skipBlanks (gap ++ rest) = skipBlanks rest := by
  unfold Layout.colon
  split
  · exact ⟨[' '], rfl, fun _ => rfl⟩
  · exact ⟨[], rfl, fun _ => rfl⟩

/-- Behind a line break stands no part of a number. -/
theorem endsNumber_lineBreak (layout : Layout) (depth : Nat) {rest : List Char}
    (ends : EndsNumber rest) : EndsNumber (layout.lineBreak depth ++ rest) := by
  unfold Layout.lineBreak
  split
  · exact endsNumber_cons rfl
  · exact ends

/-! ## Values -/

/-- A value in which nothing is kept as somebody else has written it. -/
inductive Plain : Json → Prop where
  | null : Plain .null
  | bool (value : Bool) : Plain (.bool value)
  | integer (value : Int) : Plain (.integer value)
  | string (text : String) : Plain (.string text)
  | array {items : List Json} (each : ∀ item ∈ items, Plain item) : Plain (.array items)
  | object {members : List (String × Json)} (each : ∀ member ∈ members, Plain member.2) :
      Plain (.object members)

/-- The first character of a value, which is neither a blank nor the end of an array. -/
structure Begins (c : Char) : Prop where
  mark : isTokenBlank c = false
  notClosing : c ≠ ']'

theorem begins_of_isDigit {c : Char} (digit : c.isDigit = true) : Begins c := by
  refine ⟨?_, ?_⟩
  · unfold isTokenBlank
    simp only [Bool.or_eq_false_iff, decide_eq_false_iff_not]
    refine ⟨⟨⟨?_, ?_⟩, ?_⟩, ?_⟩ <;> (rintro rfl; cases digit)
  · rintro rfl
    cases digit

theorem exists_cons_integerText (value : Int) :
    ∃ c text, integerText value = c :: text ∧ (c = '-' ∨ c.isDigit = true) := by
  cases value with
  | negSucc value => exact ⟨_, _, rfl, .inl rfl⟩
  | ofNat value =>
      cases digits : Nat.toDigits 10 value with
      | nil => simp at digits
      | cons c text =>
          have member : c ∈ Nat.toDigits 10 value := by
            rw [digits]
            exact List.mem_cons_self
          exact ⟨c, text, digits, .inr (isDigit_of_mem_toDigits member)⟩

theorem exists_cons_write {value : Json} (plain : value.Plain) (layout : Layout) (depth : Nat) :
    ∃ c text, write layout depth value = c :: text ∧ Begins c := by
  cases plain with
  | null => exact ⟨_, _, rfl, by decide, by decide⟩
  | bool value =>
      cases value with
      | true => exact ⟨_, _, rfl, by decide, by decide⟩
      | false => exact ⟨_, _, rfl, by decide, by decide⟩
  | integer value =>
      obtain ⟨c, text, same, rfl | digit⟩ := exists_cons_integerText value
      · exact ⟨_, _, same, by decide, by decide⟩
      · exact ⟨_, _, same, begins_of_isDigit digit⟩
  | string text => exact ⟨_, _, rfl, by decide, by decide⟩
  | @array items each =>
      cases items with
      | nil => exact ⟨_, _, rfl, by decide, by decide⟩
      | cons item items => exact ⟨_, _, rfl, by decide, by decide⟩
  | @object members each =>
      cases members with
      | nil => exact ⟨_, _, rfl, by decide, by decide⟩
      | cons member members => exact ⟨_, _, rfl, by decide, by decide⟩

/-- A value that is read back wherever it is written, if the bound allows for its length. -/
def ReadBack (layout : Layout) (value : Json) : Prop :=
  ∀ {depth bound input rest}, (write layout depth value).length ≤ bound → EndsNumber rest →
    skipBlanks input = write layout depth value ++ rest →
      readValue bound input = some (value, rest)

section Beginnings

variable {bound : Nat} {input text : List Char}

theorem readValue_quotation (begun : skipBlanks input = '"' :: text) :
    readValue (bound + 1) input = readString text := by
  rw [readValue, begun]
  rfl

theorem readValue_bracket (begun : skipBlanks input = '[' :: text) :
    readValue (bound + 1) input =
      match skipBlanks text with
      | ']' :: rest => some (.array [], rest)
      | rest => (readItems bound rest).map fun (items, rest) => (.array items, rest) := by
  rw [readValue, begun]
  rfl

theorem readValue_brace (begun : skipBlanks input = '{' :: text) :
    readValue (bound + 1) input =
      match skipBlanks text with
      | '}' :: rest => some (.object [], rest)
      | first =>
          match readMembers bound first with
          | none => none
          | some (members, rest) =>
              match named? members with
              | some members => some (.object members, rest)
              | none => some (.verbatim (writtenUpTo ('{' :: text) rest), rest) := by
  rw [readValue, begun]
  rfl

/-- What begins like a number is read as a number. -/
theorem readValue_number {c : Char} (begun : skipBlanks input = c :: text) (number : c = '-' ∨ c.isDigit = true) :
    readValue (bound + 1) input = readNumber (c :: text) := by
  unfold readValue
  rw [begun]
  split
  all_goals first
    | rfl
    | (rename_i same
       cases same
       rcases number with same | digit
       · cases same
       · cases digit)

end Beginnings

theorem skipBlanks_write {value : Json} (plain : value.Plain) (layout : Layout) (depth : Nat)
    (rest : List Char) :
    skipBlanks (write layout depth value ++ rest) = write layout depth value ++ rest := by
  obtain ⟨c, text, same, begins⟩ := exists_cons_write plain layout depth
  rw [same]
  exact skipBlanks_of_mark begins.mark

theorem readBack_integer (layout : Layout) (value : Int) : ReadBack layout (.integer value) := by
  intro depth bound input rest long ends begun
  obtain ⟨c, text, same, number⟩ := exists_cons_integerText value
  have written : write layout depth (.integer value) = c :: text := same
  rw [written] at long begun
  obtain ⟨bound, rfl⟩ : ∃ fewer, bound = fewer + 1 := Nat.exists_eq_succ_of_ne_zero (by
    rintro rfl
    simp at long)
  have read := readNumber_integerText ends value
  rw [same] at read
  rw [readValue_number begun number]
  exact read

theorem readBack_string (layout : Layout) (text : String) : ReadBack layout (.string text) := by
  intro depth bound input rest long _ begun
  cases bound with
  | zero => simp [write, quoted] at long
  | succ bound =>
      have quotation : skipBlanks input = '"' :: (text.toList.flatMap escapeChar ++ '"' :: rest) := by
        rw [begun]
        simp [write, quoted]
      rw [readValue_quotation quotation]
      unfold readString
      rw [stringBody_quoted]

section Items

variable {layout : Layout} {depth bound : Nat} {input rest : List Char}

theorem endsNumber_writeItems (items : List Json) :
    EndsNumber (writeItems layout depth items ++ rest) := by
  cases items with
  | nil =>
      unfold writeItems
      rw [List.append_assoc]
      exact endsNumber_lineBreak layout depth (endsNumber_cons rfl)
  | cons item items => exact endsNumber_cons rfl

theorem endsNumber_writeMembers (members : List (String × Json)) :
    EndsNumber (writeMembers layout depth members ++ rest) := by
  cases members with
  | nil =>
      unfold writeMembers
      rw [List.append_assoc]
      exact endsNumber_lineBreak layout depth (endsNumber_cons rfl)
  | cons member members => exact endsNumber_cons rfl

theorem readItems_last {item : Json} {behind : List Char}
    (read : readValue bound input = some (item, rest)) (closing : skipBlanks rest = ']' :: behind) :
    readItems (bound + 1) input = some ([item], behind) := by
  rw [readItems, read]
  dsimp only
  rw [closing]
  rfl

theorem readItems_next {item : Json} {behind : List Char}
    (read : readValue bound input = some (item, rest)) (comma : skipBlanks rest = ',' :: behind) :
    readItems (bound + 1) input =
      (readItems bound behind).map fun later => (item :: later.1, later.2) := by
  rw [readItems, read]
  dsimp only
  rw [comma]
  rfl

/-- Items are read back one after the other, up to the closing bracket. -/
theorem readItems_write {first : Json} {items : List Json}
    (plain : ∀ item ∈ first :: items, item.Plain)
    (readBack : ∀ item ∈ first :: items, ReadBack layout item)
    (long : (write layout (depth + 1) first).length + (writeItems layout depth items).length ≤ bound)
    (begun : skipBlanks input =
      write layout (depth + 1) first ++ (writeItems layout depth items ++ rest)) :
    readItems bound input = some (first :: items, rest) := by
  induction items generalizing first bound input with
  | nil =>
      cases bound with
      | zero => simp [writeItems] at long
      | succ bound =>
          simp only [writeItems, List.length_append, List.length_cons] at long
          have fits : (write layout (depth + 1) first).length ≤ bound := by omega
          have read := readBack first List.mem_cons_self fits (endsNumber_writeItems []) begun
          apply readItems_last read
          simp only [writeItems, List.append_assoc, skipBlanks_lineBreak]
          rfl
  | cons next items inductionHypothesis =>
      obtain ⟨-, plainLater⟩ := List.forall_mem_cons.1 plain
      obtain ⟨readFirst, readLater⟩ := List.forall_mem_cons.1 readBack
      cases bound with
      | zero => simp [writeItems] at long
      | succ bound =>
          simp only [writeItems, List.length_append, List.length_cons] at long
          have fits : (write layout (depth + 1) first).length ≤ bound := by omega
          have read := readFirst fits (endsNumber_writeItems (next :: items)) begun
          have comma : skipBlanks (writeItems layout depth (next :: items) ++ rest) =
              ',' :: (layout.lineBreak (depth + 1) ++ (write layout (depth + 1) next ++
                (writeItems layout depth items ++ rest))) := by
            simp only [writeItems, List.cons_append, List.append_assoc]
            exact skipBlanks_of_mark rfl
          rw [readItems_next read comma, inductionHypothesis plainLater readLater (by omega)]
          · rfl
          · rw [skipBlanks_lineBreak, skipBlanks_write (plainLater next List.mem_cons_self)]

theorem readBack_array {items : List Json} (plain : ∀ item ∈ items, item.Plain)
    (readBack : ∀ item ∈ items, ReadBack layout item) : ReadBack layout (.array items) := by
  intro depth bound input rest long _ begun
  cases bound with
  | zero => cases items <;> simp [write] at long
  | succ bound =>
      cases items with
      | nil =>
          rw [readValue_bracket begun]
          rfl
      | cons first items =>
          simp only [write, List.length_append, List.length_cons] at long
          have opened : skipBlanks input = '[' :: (layout.lineBreak (depth + 1) ++
              (write layout (depth + 1) first ++ (writeItems layout depth items ++ rest))) := by
            rw [begun]
            simp [write]
          obtain ⟨c, text, same, begins⟩ :=
            exists_cons_write (plain first List.mem_cons_self) layout (depth + 1)
          have inside := skipBlanks_write (plain first List.mem_cons_self) layout (depth + 1)
            (writeItems layout depth items ++ rest)
          have fits : (write layout (depth + 1) first).length +
            (writeItems layout depth items).length ≤ bound := by omega
          have items := readItems_write plain readBack fits inside
          rw [readValue_bracket opened, skipBlanks_lineBreak, inside]
          rw [same] at items ⊢
          split
          · rename_i closing
            exact absurd (List.cons.inj closing).1 begins.notClosing
          · rw [items]
            rfl

/-! ### Members -/

theorem skipBlanks_writeMember (layout : Layout) (depth : Nat) (member : String × Json)
    (rest : List Char) :
    skipBlanks (writeMember layout depth member ++ rest) =
      writeMember layout depth member ++ rest := by
  obtain ⟨name, value⟩ := member
  exact skipBlanks_of_mark rfl

theorem length_write_lt (layout : Layout) (depth : Nat) (member : String × Json) :
    (write layout depth member.2).length < (writeMember layout depth member).length := by
  obtain ⟨name, value⟩ := member
  simp [writeMember, quoted]
  omega

/-- A member is read back before what is behind it decides how the object goes on. -/
theorem readMembers_member {name : String} {value : Json} (plain : value.Plain)
    (readBack : ReadBack layout value) (long : (write layout depth value).length ≤ bound)
    (ends : EndsNumber rest)
    (begun : skipBlanks input = writeMember layout depth (name, value) ++ rest) :
    readMembers (bound + 1) input =
      match skipBlanks rest with
      | '}' :: rest => some ([(some name, value)], rest)
      | ',' :: rest =>
          (readMembers bound rest).map fun later => ((some name, value) :: later.1, later.2)
      | _ => none := by
  obtain ⟨gap, colon, blank⟩ := exists_colon layout
  have quotation : skipBlanks input = '"' :: (name.toList.flatMap escapeChar ++
      '"' :: ':' :: (gap ++ (write layout depth value ++ rest))) := by
    rw [begun]
    simp [writeMember, quoted, colon]
  have mark : skipBlanks (':' :: (gap ++ (write layout depth value ++ rest))) =
      ':' :: (gap ++ (write layout depth value ++ rest)) := skipBlanks_of_mark rfl
  have inside : skipBlanks (gap ++ (write layout depth value ++ rest)) =
      write layout depth value ++ rest := by
    rw [blank, skipBlanks_write plain]
  rw [readMembers, quotation]
  split
  · rename_i text same
    cases same
    rw [stringBody_quoted]
    dsimp only
    rw [mark]
    split
    · rename_i behind same
      cases same
      have read := readBack long ends inside
      generalize readValue bound (gap ++ (write layout depth value ++ rest)) = outcome at read ⊢
      cases read
      rfl
    · rename_i noColon
      exact absurd rfl (noColon _)
  · rename_i noName
    exact absurd rfl (noName _)

/-- The members of an object as they are read, each with its name. -/
def named (members : List (String × Json)) : List (Option String × Json) :=
  members.map fun member => (some member.1, member.2)

theorem named?_named (members : List (String × Json)) : named? (named members) = some members := by
  unfold named? named
  rw [List.mapM_map]
  induction members with
  | nil => rfl
  | cons member members inductionHypothesis =>
      rw [List.mapM_cons, inductionHypothesis]
      rfl

/-- Members are read back one after the other, up to the closing brace. -/
theorem readMembers_write {first : String × Json} {members : List (String × Json)}
    (plain : ∀ member ∈ first :: members, member.2.Plain)
    (readBack : ∀ member ∈ first :: members, ReadBack layout member.2)
    (long : (writeMember layout (depth + 1) first).length +
      (writeMembers layout depth members).length ≤ bound)
    (begun : skipBlanks input =
      writeMember layout (depth + 1) first ++ (writeMembers layout depth members ++ rest)) :
    readMembers bound input = some (named (first :: members), rest) := by
  induction members generalizing first bound input with
  | nil =>
      cases bound with
      | zero => simp [writeMembers] at long
      | succ bound =>
          simp only [writeMembers, List.length_append, List.length_cons] at long
          have value := length_write_lt layout (depth + 1) first
          have closing : skipBlanks (writeMembers layout depth [] ++ rest) = '}' :: rest := by
            simp only [writeMembers, List.append_assoc, skipBlanks_lineBreak]
            rfl
          rw [readMembers_member (plain first List.mem_cons_self)
            (readBack first List.mem_cons_self) (by omega) (endsNumber_writeMembers []) begun,
            closing]
          rfl
  | cons next members inductionHypothesis =>
      obtain ⟨plainFirst, plainLater⟩ := List.forall_mem_cons.1 plain
      obtain ⟨readFirst, readLater⟩ := List.forall_mem_cons.1 readBack
      cases bound with
      | zero => simp [writeMembers] at long
      | succ bound =>
          simp only [writeMembers, List.length_append, List.length_cons] at long
          have value := length_write_lt layout (depth + 1) first
          have comma : skipBlanks (writeMembers layout depth (next :: members) ++ rest) =
              ',' :: (layout.lineBreak (depth + 1) ++ (writeMember layout (depth + 1) next ++
                (writeMembers layout depth members ++ rest))) := by
            simp only [writeMembers, List.cons_append, List.append_assoc]
            exact skipBlanks_of_mark rfl
          rw [readMembers_member plainFirst readFirst (by omega)
            (endsNumber_writeMembers (next :: members)) begun, comma]
          show Option.map _ (readMembers bound _) = _
          rw [inductionHypothesis plainLater readLater (by omega)]
          · rfl
          · rw [skipBlanks_lineBreak, skipBlanks_writeMember]

theorem readBack_object {members : List (String × Json)}
    (plain : ∀ member ∈ members, member.2.Plain)
    (readBack : ∀ member ∈ members, ReadBack layout member.2) :
    ReadBack layout (.object members) := by
  intro depth bound input rest long _ begun
  cases bound with
  | zero => cases members <;> simp [write] at long
  | succ bound =>
      cases members with
      | nil =>
          rw [readValue_brace begun]
          rfl
      | cons first members =>
          simp only [write, List.length_append, List.length_cons] at long
          have opened : skipBlanks input = '{' :: (layout.lineBreak (depth + 1) ++
              (writeMember layout (depth + 1) first ++
                (writeMembers layout depth members ++ rest))) := by
            rw [begun]
            simp [write]
          have inside := skipBlanks_writeMember layout (depth + 1) first
            (writeMembers layout depth members ++ rest)
          have fits : (writeMember layout (depth + 1) first).length +
            (writeMembers layout depth members).length ≤ bound := by omega
          have read := readMembers_write plain readBack fits inside
          rw [readValue_brace opened, skipBlanks_lineBreak, inside]
          split
          · rename_i closing
            obtain ⟨name, value⟩ := first
            cases congrArg List.head? closing
          · rw [read]
            dsimp only
            rw [named?_named]

end Items

/-- A plain value is read back wherever it is written. -/
theorem readBack_of_plain {value : Json} (plain : value.Plain) (layout : Layout) :
    ReadBack layout value := by
  induction plain with
  | null =>
      intro depth bound input rest long _ begun
      cases bound with
      | zero => simp [write] at long
      | succ bound =>
          rw [readValue, begun]
          rfl
  | bool value =>
      intro depth bound input rest long _ begun
      cases bound with
      | zero => cases value <;> simp [write] at long
      | succ bound =>
          rw [readValue, begun]
          cases value <;> rfl
  | integer value => exact readBack_integer layout value
  | string text => exact readBack_string layout text
  | array each readBack => exact readBack_array each readBack
  | object each readBack => exact readBack_object each readBack

/-- In every layout, the text of a plain value is read as the value. -/
theorem parse_render {value : Json} (plain : value.Plain) (layout : Layout) :
    parse (value.render layout) = some value := by
  have input : (value.render layout).toList = write layout 0 value := by
    simp [render]
  have begun : skipBlanks (write layout 0 value) = write layout 0 value ++ [] := by
    have skipped := skipBlanks_write plain layout 0 []
    rw [List.append_nil] at skipped ⊢
    exact skipped
  have read := readBack_of_plain plain layout (Nat.le_succ _) endsNumber_nil begun
  unfold parse
  rw [input]
  dsimp only
  rw [read]
  rfl

end Json

end XmlSchema
