import Mathlib.Algebra.Group.Nat.Defs
import RecordRing.Proofs.Record.Spelling
import RecordRing.Record.Writer

/-!
# Records read back

What is written for a record reads as the record again (`ofText_toText`).  A number that is too
large for its field is refused, so a record whose fields are written as plain numbers reads exactly
if these are the numbers of some record (`ofText_plainRecord_iff`).
-/

namespace RecordRing.Document

variable {chars rest left : List Char} {c : Char} {n : Nat}

/-! ## Written lists -/

/-- A comma and the ends of a list and of a collection of fields end a numeral. -/
theorem endsNumeral_cons (closes : c = ',' ∨ c = ']' ∨ c = '\x7d') : EndsNumeral (c :: rest) := by
  rintro d hd
  obtain rfl := Option.some.inj hd
  rcases closes with rfl | rfl | rfl <;> decide

/-- A written number begins with a digit. -/
theorem exists_digit (n : Nat) (rest : List Char) :
    ∃ c tail, Nat.toDigits 10 n ++ rest = c :: tail ∧ c.isDigit = true := by
  obtain ⟨c, tail, hsplit⟩ : ∃ c tail, Nat.toDigits 10 n ++ rest = c :: tail :=
    List.exists_cons_of_ne_nil fun h => Nat.toDigits_ne_nil (List.append_eq_nil_iff.1 h).1
  exact ⟨c, tail, hsplit, isDigit_of_cons_eq hsplit.symm⟩

theorem skipBlanks_toDigits (n : Nat) (rest : List Char) :
    skipBlanks (Nat.toDigits 10 n ++ rest) = Nat.toDigits 10 n ++ rest := by
  obtain ⟨c, tail, hsplit, hdigit⟩ := exists_digit n rest
  rw [hsplit]
  exact skipBlanks_cons (isBlank_of_isDigit hdigit)

/-- A number that is written in front of what ends a numeral is the only one that can be read
there. -/
theorem written_iff {m : Nat} (ends : EndsNumeral rest) :
    skipBlanks (Nat.toDigits 10 n ++ rest) = Nat.toDigits 10 m ++ left ∧ EndsNumeral left ↔
      m = n ∧ left = rest := by
  rw [skipBlanks_toDigits]
  constructor
  · rintro ⟨hsame, hends⟩
    obtain ⟨rfl, rfl⟩ := toDigits_append_inj ends hends hsame
    exact ⟨rfl, rfl⟩
  · rintro ⟨rfl, rfl⟩
    exact ⟨rfl, ends⟩

theorem nextItem_first (n : Nat) (rest : List Char) :
    nextItem true (Nat.toDigits 10 n ++ rest) = .ok (true, Nat.toDigits 10 n ++ rest) := by
  rw [nextItem, skipBlanks_toDigits]
  obtain ⟨c, tail, hsplit, hdigit⟩ := exists_digit n rest
  rw [hsplit]
  split
  · rename_i hnone
    cases hnone
  · rename_i hend
    obtain ⟨rfl, -⟩ := List.cons.inj hend
    cases hdigit
  · rename_i heq
    rw [heq]
    rfl

theorem nextItem_later (n : Nat) (rest : List Char) :
    nextItem false (',' :: (Nat.toDigits 10 n ++ rest)) =
      .ok (true, Nat.toDigits 10 n ++ rest) := by
  have hcomma : skipBlanks (',' :: (Nat.toDigits 10 n ++ rest)) =
      ',' :: (Nat.toDigits 10 n ++ rest) := skipBlanks_cons (by decide)
  rw [nextItem, hcomma]
  split
  · rename_i hnone
    cases hnone
  · rename_i hend
    exact absurd (List.cons.inj hend).1 (by decide)
  · rename_i heq
    obtain ⟨rfl, rfl⟩ := List.cons.inj heq
    simp only [Bool.false_eq_true, if_false, if_true, skipBlanks_toDigits]
    obtain ⟨c, tail, hsplit, hdigit⟩ := exists_digit n rest
    rw [hsplit]
    split
    · rename_i hnone
      cases hnone
    · rename_i hend
      obtain ⟨rfl, -⟩ := List.cons.inj hend
      cases hdigit
    · rfl

/-- The items of a list of numbers after the first, each behind a comma. -/
def laterItems (numbers : List Nat) : List Char :=
  numbers.flatMap fun n => ',' :: Nat.toDigits 10 n

theorem compactItems_cons (n : Nat) (numbers : List Nat) :
    compactItems ((n :: numbers).map number) = Nat.toDigits 10 n ++ laterItems numbers := by
  induction numbers generalizing n with
  | nil => simp [compactItems, compact, laterItems]
  | cons next numbers ih =>
      have hrest := ih next
      simp only [List.map_cons, compactItems, compact] at hrest ⊢
      rw [hrest]
      simp [laterItems]

variable {budget : Nat} {isFirst : Bool} {bytes : List UInt8} {numbers : List Nat}

/-- An item of a list of bytes is read, and then the others. -/
theorem readBytes_item_iff {item : List Char} (opens : nextItem isFirst chars = .ok (true, item)) :
    readBytes (budget + 1) isFirst chars = .ok (bytes, left) ↔
      ∃ byte rest more, readByte item = .ok (byte, rest) ∧
        readBytes budget false rest = .ok (more, left) ∧ bytes = byte :: more := by
  simp only [readBytes, opens, bind_eq_ok_iff, Except.ok.injEq, exists_eq_left', Prod.exists]
  constructor
  · rintro ⟨byte, rest, hbyte, more, _, hmore, hbytes⟩
    obtain ⟨rfl, rfl⟩ := Prod.mk.inj (Except.ok.inj hbytes)
    exact ⟨byte, rest, more, hbyte, hmore, rfl⟩
  · rintro ⟨byte, rest, more, hbyte, hmore, rfl⟩
    exact ⟨byte, rest, hbyte, more, left, hmore, rfl⟩

theorem readBytes_end_iff (rest : List Char) :
    readBytes (budget + 1) isFirst (']' :: rest) = .ok (bytes, left) ↔
      bytes = [] ∧ left = rest := by
  have hend : readBytes (budget + 1) isFirst (']' :: rest) = .ok ([], rest) := rfl
  rw [hend, Except.ok.injEq, Prod.mk.injEq, eq_comm, @eq_comm _ rest]

theorem endsNumeral_laterItems (numbers : List Nat) (rest : List Char) :
    EndsNumeral (laterItems numbers ++ ']' :: rest) := by
  cases numbers with
  | nil => exact endsNumeral_cons (.inr (.inl rfl))
  | cons n numbers => exact endsNumeral_cons (.inl rfl)

/-- A list of numbers is read if its first number is one of a byte and the others are read. -/
theorem readBytes_cons_iff
    (opens : nextItem isFirst chars =
      .ok (true, Nat.toDigits 10 n ++ (laterItems numbers ++ ']' :: rest)))
    (others : ∀ more left, readBytes budget false (laterItems numbers ++ ']' :: rest) =
      .ok (more, left) ↔ more.map UInt8.toNat = numbers ∧ left = rest) :
    readBytes (budget + 1) isFirst chars = .ok (bytes, left) ↔
      bytes.map UInt8.toNat = n :: numbers ∧ left = rest := by
  rw [readBytes_item_iff opens]
  simp only [readByte_eq_ok_iff, written_iff (endsNumeral_laterItems numbers rest)]
  constructor
  · rintro ⟨byte, _, more, ⟨rfl, rfl⟩, hmore, rfl⟩
    obtain ⟨rfl, rfl⟩ := (others more left).1 hmore
    exact ⟨rfl, rfl⟩
  · rintro ⟨hbytes, rfl⟩
    obtain ⟨byte, more, rfl, rfl, rfl⟩ := List.map_eq_cons_iff.1 hbytes
    exact ⟨byte, _, more, ⟨rfl, rfl⟩, (others more left).2 ⟨rfl, rfl⟩, rfl⟩

/-- The numbers of a list after the first are read exactly if they are numbers of bytes. -/
theorem readBytes_laterItems_iff (rest : List Char) (steps : numbers.length ≤ budget) :
    readBytes (budget + 1) false (laterItems numbers ++ ']' :: rest) = .ok (bytes, left) ↔
      bytes.map UInt8.toNat = numbers ∧ left = rest := by
  induction numbers generalizing budget bytes left with
  | nil =>
      rw [List.map_eq_nil_iff, laterItems, List.flatMap_nil, List.nil_append, readBytes_end_iff]
  | cons n numbers ih =>
      obtain ⟨budget, rfl⟩ : ∃ fewer, budget = fewer + 1 :=
        Nat.exists_eq_succ_of_ne_zero (Nat.ne_zero_of_lt steps)
      have hsplit : laterItems (n :: numbers) ++ ']' :: rest =
          ',' :: (Nat.toDigits 10 n ++ (laterItems numbers ++ ']' :: rest)) := by
        simp [laterItems]
      rw [hsplit]
      exact readBytes_cons_iff (nextItem_later n _) fun _ _ => ih (Nat.le_of_succ_le_succ steps)

/-- Every item takes a character at least. -/
theorem length_le_laterItems (numbers : List Nat) :
    numbers.length ≤ (laterItems numbers).length := by
  induction numbers with
  | nil => exact Nat.le_refl _
  | cons n numbers ih =>
      rw [laterItems, List.flatMap_cons, List.length_append, List.length_cons, List.length_cons]
      rw [laterItems] at ih
      omega

/-- A payload that is written as a list of numbers reads exactly if these are the numbers of
bytes. -/
theorem readContent_list_iff (rest : List Char) :
    readContent ('[' :: (compactItems (numbers.map number) ++ ']' :: rest)) = .ok (bytes, left) ↔
      bytes.map UInt8.toNat = numbers ∧ left = rest := by
  show readBytes ((compactItems (numbers.map number) ++ ']' :: rest).length + 1) true
    (compactItems (numbers.map number) ++ ']' :: rest) = .ok (bytes, left) ↔ _
  cases numbers with
  | nil => exact (readBytes_end_iff rest).trans (by rw [List.map_eq_nil_iff])
  | cons n numbers =>
      have hsteps : numbers.length + 1 ≤
          (Nat.toDigits 10 n ++ (laterItems numbers ++ ']' :: rest)).length := by
        have hle := length_le_laterItems numbers
        simp only [List.length_append, List.length_cons]
        omega
      obtain ⟨budget, hbudget⟩ := Nat.exists_eq_add_of_le' hsteps
      rw [compactItems_cons, List.append_assoc, hbudget]
      exact readBytes_cons_iff (nextItem_first n _) fun _ _ =>
        readBytes_laterItems_iff rest (Nat.le_add_left ..)

/-! ## Written fields -/

variable {known more : RecordFields} {record : Record} {name quoted afterName : List Char}

/-- A field is read, and then the others. -/
theorem readRecordFields_field_iff (opens : nextName isFirst chars = .ok (true, quoted))
    (named : scanText none quoted = .ok (name, afterName)) :
    readRecordFields (budget + 1) isFirst known chars = .ok (record, left) ↔
      ∃ more rest, readField known name afterName = .ok (more, rest) ∧
        readRecordFields budget false more rest = .ok (record, left) := by
  simp only [readRecordFields, opens, named, bind_eq_ok_iff, Except.ok.injEq, exists_eq_left',
    Prod.exists]

/-- The fields are complete at the closing brace. -/
theorem readRecordFields_end_iff (rest : List Char) :
    readRecordFields (budget + 1) isFirst known ('\x7d' :: rest) = .ok (record, left) ↔
      known.record? = some record ∧ left = rest := by
  have hcloses : nextName isFirst ('\x7d' :: rest) = .ok (false, rest) := rfl
  cases hrecord : known.record? with
  | none =>
      have hunfit : readRecordFields (budget + 1) isFirst known ('\x7d' :: rest) =
          .error .unfit := by
        simp only [readRecordFields, hcloses, hrecord]
        rfl
      simp [hunfit]
  | some found =>
      have hread : readRecordFields (budget + 1) isFirst known ('\x7d' :: rest) =
          .ok (found, rest) := by
        simp only [readRecordFields, hcloses, hrecord]
        rfl
      simp only [hread, Except.ok.injEq, Prod.mk.injEq, Option.some.injEq, @eq_comm _ rest]

/-- A value that is read is entered under its name. -/
theorem map_entered_iff {α : Type} {scan : Scan α} {wanted : α → Prop} (enter : α → RecordFields)
    (reads : ∀ value left, scan = .ok (value, left) ↔ wanted value ∧ left = rest) :
    (scan.map fun (value, rest) => (enter value, rest)) = .ok (more, left) ↔
      ∃ value, wanted value ∧ enter value = more ∧ left = rest := by
  simp only [map_eq_ok_iff, Prod.exists, reads, Prod.mk.injEq]
  constructor
  · rintro ⟨value, _, ⟨hvalue, rfl⟩, hmore, rfl⟩
    exact ⟨value, hvalue, hmore, rfl⟩
  · rintro ⟨value, hvalue, hmore, rfl⟩
    exact ⟨value, left, ⟨hvalue, rfl⟩, hmore, rfl⟩

theorem readOnce_colon {α : Type} (read : List Char → Scan α) (value : List Char) :
    readOnce none read (':' :: value) = read value := rfl

theorem readField_key_iff (unread : known.key = none) (ends : EndsNumeral rest) :
    readField known ['k', 'e', 'y'] (':' :: (Nat.toDigits 10 n ++ rest)) = .ok (more, left) ↔
      ∃ key : Token, key.toNat = n ∧ { known with key := some key } = more ∧ left = rest := by
  rw [readField, if_pos rfl, unread, readOnce_colon]
  exact map_entered_iff (fun key => { known with key := some key }) fun _ _ =>
    readToken_eq_ok_iff.trans (written_iff ends)

theorem readField_content_iff (unread : known.content = none) :
    readField known ['c', 'o', 'n', 't', 'e', 'n', 't']
        (':' :: '[' :: (compactItems (numbers.map number) ++ ']' :: rest)) = .ok (more, left) ↔
      ∃ content : List UInt8, content.map UInt8.toNat = numbers ∧
        { known with content := some content } = more ∧ left = rest := by
  rw [readField, if_neg (by decide), if_pos rfl, unread, readOnce_colon]
  exact map_entered_iff (fun content => { known with content := some content }) fun _ _ =>
    readContent_list_iff rest

theorem readField_version_iff (unread : known.version = none) (ends : EndsNumeral rest) :
    readField known ['v', 'e', 'r', 's', 'i', 'o', 'n'] (':' :: (Nat.toDigits 10 n ++ rest)) =
        .ok (more, left) ↔
      ∃ version : UInt64, version.toNat = n ∧ { known with version := some version } = more ∧
        left = rest := by
  rw [readField, if_neg (by decide), if_neg (by decide), if_pos rfl, unread, readOnce_colon]
  exact map_entered_iff (fun version => { known with version := some version }) fun _ _ =>
    readVersion_eq_ok_iff.trans (written_iff ends)

/-- The document of a record with plain numbers in its fields, in range or not. -/
def plainRecord (key : Nat) (content : List Nat) (version : Nat) : Document :=
  .fields [
    ("key", .number key), ("content", .list (content.map .number)), ("version", .number version)]

/-- The text of such a document after its brace. -/
def plainRecordFields (key : Nat) (content : List Nat) (version : Nat) : List Char :=
  '"' :: 'k' :: 'e' :: 'y' :: '"' :: ':' :: (Nat.toDigits 10 key ++
    ',' :: '"' :: 'c' :: 'o' :: 'n' :: 't' :: 'e' :: 'n' :: 't' :: '"' :: ':' ::
      '[' :: (compactItems (content.map .number) ++
    ']' :: ',' :: '"' :: 'v' :: 'e' :: 'r' :: 's' :: 'i' :: 'o' :: 'n' :: '"' :: ':' ::
      (Nat.toDigits 10 version ++ ['\x7d'])))

theorem compact_plainRecord (key : Nat) (content : List Nat) (version : Nat) :
    (plainRecord key content version).compact =
      '\x7b' :: plainRecordFields key content version := by
  have hkey : writtenText "key" = ['"', 'k', 'e', 'y', '"'] := by decide
  have hcontent : writtenText "content" =
      ['"', 'c', 'o', 'n', 't', 'e', 'n', 't', '"'] := by decide
  have hversion : writtenText "version" =
      ['"', 'v', 'e', 'r', 's', 'i', 'o', 'n', '"'] := by decide
  simp [plainRecord, plainRecordFields, compact, compactFields, hkey, hcontent, hversion]

/-- The fields are read exactly if their numbers are those of a record. -/
theorem readRecordFields_plainRecord_iff {key version : Nat} {content : List Nat} :
    readRecordFields (budget + 4) true RecordFields.none (plainRecordFields key content version) =
        .ok (record, left) ↔
      record.key.toNat = key ∧ record.content.map UInt8.toNat = content ∧
        record.version.toNat = version ∧ left = [] := by
  have hopens (rest : List Char) : nextName true ('"' :: rest) = .ok (true, rest) := rfl
  have hgoesOn (rest : List Char) : nextName false (',' :: '"' :: rest) = .ok (true, rest) := rfl
  have hkey (rest : List Char) : scanText none ('k' :: 'e' :: 'y' :: '"' :: rest) =
      .ok (['k', 'e', 'y'], rest) := rfl
  have hcontent (rest : List Char) :
      scanText none ('c' :: 'o' :: 'n' :: 't' :: 'e' :: 'n' :: 't' :: '"' :: rest) =
        .ok (['c', 'o', 'n', 't', 'e', 'n', 't'], rest) := rfl
  have hversion (rest : List Char) :
      scanText none ('v' :: 'e' :: 'r' :: 's' :: 'i' :: 'o' :: 'n' :: '"' :: rest) =
        .ok (['v', 'e', 'r', 's', 'i', 'o', 'n'], rest) := rfl
  rw [plainRecordFields, readRecordFields_field_iff (hopens _) (hkey _)]
  constructor
  · rintro ⟨_, _, hread, hrest⟩
    obtain ⟨foundKey, rfl, rfl, rfl⟩ :=
      (readField_key_iff rfl (endsNumeral_cons (.inl rfl))).1 hread
    obtain ⟨_, _, hread, hrest⟩ :=
      (readRecordFields_field_iff (hgoesOn _) (hcontent _)).1 hrest
    obtain ⟨foundContent, rfl, rfl, rfl⟩ := (readField_content_iff rfl).1 hread
    obtain ⟨_, _, hread, hrest⟩ :=
      (readRecordFields_field_iff (hgoesOn _) (hversion _)).1 hrest
    obtain ⟨foundVersion, rfl, rfl, rfl⟩ :=
      (readField_version_iff rfl (endsNumeral_cons (.inr (.inr rfl)))).1 hread
    obtain ⟨hrecord, rfl⟩ := (readRecordFields_end_iff _).1 hrest
    obtain rfl := Option.some.inj hrecord
    exact ⟨rfl, rfl, rfl, rfl⟩
  · rintro ⟨rfl, rfl, rfl, rfl⟩
    refine ⟨_, _, (readField_key_iff rfl (endsNumeral_cons (.inl rfl))).2 ⟨_, rfl, rfl, rfl⟩, ?_⟩
    refine (readRecordFields_field_iff (hgoesOn _) (hcontent _)).2
      ⟨_, _, (readField_content_iff rfl).2 ⟨_, rfl, rfl, rfl⟩, ?_⟩
    refine (readRecordFields_field_iff (hgoesOn _) (hversion _)).2
      ⟨_, _, (readField_version_iff rfl (endsNumeral_cons (.inr (.inr rfl)))).2
        ⟨_, rfl, rfl, rfl⟩, ?_⟩
    exact (readRecordFields_end_iff _).2 ⟨rfl, rfl⟩

end RecordRing.Document

namespace RecordRing

open Document

/-- A document of plain numbers reads as a record exactly if they are the numbers of this record:
none of them is reduced, and numbers out of range are refused. -/
theorem Record.ofText_plainRecord_iff {key version : Nat} {content : List Nat} {record : Record} :
    Record.ofText (plainRecord key content version).compactText = .ok record ↔
      record.key.toNat = key ∧ record.content.map UInt8.toNat = content ∧
        record.version.toNat = version := by
  have hstart : readRecord ('\x7b' :: plainRecordFields key content version) =
      readRecordFields ((plainRecordFields key content version).length + 1) true RecordFields.none
        (plainRecordFields key content version) := rfl
  rw [Record.ofText, readWhole_eq_ok_iff, compactText, String.toList_ofList, compact_plainRecord,
    hstart]
  obtain ⟨budget, hbudget⟩ : ∃ budget,
      (plainRecordFields key content version).length + 1 = budget + 4 := ⟨_, rfl⟩
  simp only [hbudget, readRecordFields_plainRecord_iff]
  constructor
  · rintro ⟨_, ⟨hkey, hcontent, hversion, -⟩, -⟩
    exact ⟨hkey, hcontent, hversion⟩
  · rintro ⟨hkey, hcontent, hversion⟩
    exact ⟨[], ⟨hkey, hcontent, hversion, rfl⟩, rfl⟩

/-- A record is written as the document of its numbers. -/
theorem Record.toDocument_eq_plainRecord (record : Record) :
    record.toDocument =
      plainRecord record.key.toNat (record.content.map UInt8.toNat) record.version.toNat := by
  rw [Record.toDocument, plainRecord, List.map_map]
  rfl

/-- Every record reads back from its text.  What reads as a record is in range, is written in the
text with all its digits, and survives being written and read once more.  Plain numbers in the
fields read as a record exactly if they are the numbers of this record. -/
theorem Record.ofText_toText :
    (∀ record : Record, Record.ofText record.toText = .ok record) ∧
    (∀ text record, Record.ofText text = .ok record →
      record.key.toNat < 2 ^ 63 ∧ record.version.toNat < 2 ^ 64 ∧
      (∀ byte ∈ record.content, byte.toNat < 256) ∧ RecordIn text.toList record ∧
      Record.ofText record.toText = .ok record) ∧
    ∀ key content version record,
      Record.ofText (plainRecord key content version).compactText = .ok record ↔
        record.key.toNat = key ∧ record.content.map UInt8.toNat = content ∧
          record.version.toNat = version := by
  have hback (record : Record) : Record.ofText record.toText = .ok record := by
    rw [Record.toText, Record.toDocument_eq_plainRecord, Record.ofText_plainRecord_iff]
    exact ⟨rfl, rfl, rfl⟩
  refine ⟨hback, fun text record read => ?_, fun _ _ _ _ => Record.ofText_plainRecord_iff⟩
  exact ⟨record.key.toNat_lt, record.version.toNat_lt, fun byte _ => byte.toNat_lt,
    Record.recordIn_of_ofText read, hback record⟩

/-- A text with its fields in another order, with an unknown one among them, and with its payload as
a text. -/
theorem Record.ofText_toText_reordered :
    let text := "\x7b\"version\": 7, \"by\": [null, 1.5e3], \"content\": \"hi\", \"key\": 5\x7d"
    let record : Record := ⟨Token.wrapping 5, [104, 105], 7⟩
    Record.ofText text = .ok record ∧ WrittenIn text.toList 5 ∧
      Record.ofText record.toText = .ok record := by
  intro text record
  have hread : Record.ofText text = .ok record := by decide +kernel
  obtain ⟨-, hkept, -⟩ := Record.ofText_toText
  obtain ⟨-, -, -, hwritten, hback⟩ := hkept text record hread
  exact ⟨hread, hwritten.key, hback⟩

end RecordRing
