import RecordRing.Proofs.Document.Numerals
import RecordRing.Proofs.Document.Remainders
import RecordRing.Record.Reader

/-!
# Numbers that are read

Whatever is read as a number is written in the text with all its digits (`WrittenIn`), so no number
is reduced to fit its place.  That holds for the position and the version of a record, and for the
bytes of its payload unless they are written as a text (`recordIn_of_ofText`), in whatever order the
fields stand and whatever stands between them.

## Implementation notes

The digits of a number may be part of a longer numeral.  So a number counts as written where no
digit stands before it and nothing that goes on with a numeral stands behind it.
-/

namespace RecordRing.Document

variable {chars rest left text : List Char} {c : Char} {n bound : Nat}

theorem bind_eq_ok_iff {ε α β : Type} {scan : Except ε α} {next : α → Except ε β} {b : β} :
    scan >>= next = .ok b ↔ ∃ a, scan = .ok a ∧ next a = .ok b := by
  cases scan with
  | error flaw => exact ⟨nofun, nofun⟩
  | ok a =>
      constructor
      · exact fun h => ⟨a, rfl, h⟩
      · rintro ⟨_, h, hnext⟩
        rwa [Except.ok.inj h]

theorem map_eq_ok_iff {ε α β : Type} {scan : Except ε α} {f : α → β} {b : β} :
    scan.map f = .ok b ↔ ∃ a, scan = .ok a ∧ f a = b := by
  cases scan with
  | error flaw => exact ⟨nofun, nofun⟩
  | ok a => simp [Except.map]

/-! ## Numbers -/

theorem skipBlanks_cons (solid : isBlank c = false) : skipBlanks (c :: rest) = c :: rest :=
  List.dropWhile_cons_of_neg (by rw [solid]; exact Bool.false_ne_true)

theorem isBlank_of_isDigit (digit : c.isDigit = true) : isBlank c = false := by
  obtain ⟨hlow, -⟩ := isDigit_iff.1 digit
  simp only [isBlank, Bool.or_eq_false_iff, decide_eq_false_iff_not]
  refine ⟨⟨⟨?_, ?_⟩, ?_⟩, ?_⟩ <;> rintro rfl <;> exact absurd hlow (by decide)

/-- A natural number below a bound is read exactly if it is written there, behind blanks. -/
theorem readNatural_eq_ok_iff (word : bound ≤ UInt64.size) :
    readNatural bound chars = .ok (n, left) ↔
      n < bound ∧ skipBlanks chars = Nat.toDigits 10 n ++ left ∧ EndsNumeral left := by
  rw [readNatural]
  split
  · rename_i hnone
    rw [hnone]
    refine ⟨nofun, fun h => ?_⟩
    exact absurd (List.append_eq_nil_iff.1 h.2.1.symm).1 Nat.toDigits_ne_nil
  · rename_i rest hminus
    rw [hminus]
    refine ⟨nofun, fun h => ?_⟩
    exact absurd (isDigit_of_cons_eq h.2.1) (by decide)
  · rename_i c rest _ hsolid
    rw [hsolid]
    cases hdigit : c.isDigit with
    | false =>
        rw [isSome_digit?, hdigit]
        refine ⟨nofun, fun h => ?_⟩
        rw [isDigit_of_cons_eq h.2.1] at hdigit
        cases hdigit
    | true =>
        rw [isSome_digit?, hdigit, if_pos rfl]
        constructor
        · intro h
          split at h
          · rename_i value tail hscan
            split at h
            · rename_i hsmall
              cases h
              exact ⟨hsmall, (scanNumeral_eq_natural_iff.1 hscan).2⟩
            · cases h
          · cases h
          · cases h
        · rintro ⟨hsmall, hwritten, hends⟩
          have hfits := Nat.lt_of_lt_of_le hsmall word
          rw [scanNumeral_eq_natural_iff.2 ⟨hfits, hwritten, hends⟩]
          exact if_pos hsmall

/-- Reading the number of a value does not reduce it: what is written is the number of the value
itself. -/
theorem map_readNatural_eq_ok_iff {α : Type} {make : Nat → α} {number : α → Nat} {value : α}
    (word : bound ≤ UInt64.size) (below : ∀ value, number value < bound)
    (made : ∀ n < bound, number (make n) = n) (named : ∀ value, make (number value) = value) :
    ((readNatural bound chars).map fun (n, rest) => (make n, rest)) = .ok (value, left) ↔
      skipBlanks chars = Nat.toDigits 10 (number value) ++ left ∧ EndsNumeral left := by
  rw [map_eq_ok_iff]
  constructor
  · rintro ⟨⟨n, rest⟩, hread, heq⟩
    obtain ⟨rfl, rfl⟩ := Prod.mk.inj heq
    obtain ⟨hsmall, hwritten⟩ := (readNatural_eq_ok_iff word).1 hread
    rwa [made n hsmall]
  · intro hwritten
    exact ⟨(number value, left), (readNatural_eq_ok_iff word).2 ⟨below value, hwritten⟩,
      Prod.ext (named value) rfl⟩

theorem readToken_eq_ok_iff {t : Token} : readToken chars = .ok (t, left) ↔
    skipBlanks chars = Nat.toDigits 10 t.toNat ++ left ∧ EndsNumeral left := by
  have hmade (n : Nat) (h : n < ringSize) : (Token.wrapping (UInt64.ofNat n)).toNat = n := by
    rw [Token.toNat_wrapping, UInt64.toNat_ofNat']
    simp only [ringSize] at *
    omega
  exact map_readNatural_eq_ok_iff (by decide) Token.toNat_lt hmade
    fun t => Token.toNat_inj.1 (hmade t.toNat t.toNat_lt)

theorem readVersion_eq_ok_iff {version : UInt64} : readVersion chars = .ok (version, left) ↔
    skipBlanks chars = Nat.toDigits 10 version.toNat ++ left ∧ EndsNumeral left :=
  map_readNatural_eq_ok_iff (Nat.le_refl _) UInt64.toNat_lt_size
    (fun _ h => UInt64.toNat_ofNat_of_lt' h) fun _ => UInt64.ofNat_toNat

theorem readByte_eq_ok_iff {byte : UInt8} : readByte chars = .ok (byte, left) ↔
    skipBlanks chars = Nat.toDigits 10 byte.toNat ++ left ∧ EndsNumeral left :=
  map_readNatural_eq_ok_iff (by decide) UInt8.toNat_lt_size
    (fun _ h => UInt8.toNat_ofNat_of_lt' h) fun _ => UInt8.ofNat_toNat

/-! ## Places in a text -/

/-- Some characters are the end of a text, and no digit stands before them. -/
def Follows (text chars : List Char) : Prop :=
  ∃ before, text = before ++ chars ∧ ∀ c ∈ before.getLast?, c.isDigit = false

/-- A number is written in a text, with all its digits. -/
def WrittenIn (text : List Char) (n : Nat) : Prop :=
  ∃ left, Follows text (Nat.toDigits 10 n ++ left) ∧ EndsNumeral left

theorem Follows.suffix (h : Follows text chars) : chars <:+ text := by
  obtain ⟨before, rfl, -⟩ := h
  exact List.suffix_append before chars

/-- What stands behind a character that is no digit. -/
theorem follows_of_suffix (ends : c :: chars <:+ text) (other : c.isDigit = false) :
    Follows text chars := by
  obtain ⟨before, rfl⟩ := ends
  refine ⟨before ++ [c], by simp, fun d hd => ?_⟩
  rw [List.getLast?_concat, Option.mem_some_iff] at hd
  rw [← hd, other]

theorem Follows.skipBlanks (h : Follows text chars) : Follows text (skipBlanks chars) := by
  obtain ⟨before, rfl, hbefore⟩ := h
  refine ⟨before ++ chars.takeWhile isBlank, ?_, fun c hc => ?_⟩
  · rw [List.append_assoc, Document.skipBlanks, List.takeWhile_append_dropWhile]
  · rw [List.getLast?_append, Option.mem_def, Option.or_eq_some_iff] at hc
    rcases hc with hblank | ⟨-, hlast⟩
    · have hblank := List.mem_takeWhile_imp (List.mem_of_getLast? hblank)
      refine Bool.eq_false_iff.2 fun hdigit => ?_
      rw [isBlank_of_isDigit hdigit] at hblank
      cases hblank
    · exact hbefore c hlast

/-- A number that is read behind blanks is written there. -/
theorem Follows.writtenIn (h : Follows text chars)
    (written : Document.skipBlanks chars = Nat.toDigits 10 n ++ left ∧ EndsNumeral left) :
    WrittenIn text n ∧ left <:+ text := by
  have hfollows := h.skipBlanks
  rw [written.1] at hfollows
  exact ⟨⟨left, hfollows, written.2⟩, (List.suffix_append _ left).trans hfollows.suffix⟩

/-- Between two items stands a comma, and before the first of them what stands before the list. -/
theorem follows_nextItem {isFirst goesOn : Bool} {item : List Char} (ends : chars <:+ text)
    (next : nextItem isFirst chars = .ok (goesOn, item))
    (first : isFirst = true → Follows text chars) :
    item <:+ text ∧ (goesOn = true → Follows text item) := by
  have hblanks := (skipBlanks_suffix chars).trans ends
  rw [nextItem] at next
  split at next
  · cases next
  · rename_i rest hclose
    cases next
    rw [hclose] at hblanks
    exact ⟨(List.suffix_cons _ _).trans hblanks, nofun⟩
  · rename_i c rest _ hsplit
    split at next
    · rename_i hfirst
      cases next
      have hfollows := (first hfirst).skipBlanks
      rw [hsplit] at hfollows
      exact ⟨hfollows.suffix, fun _ => hfollows⟩
    · split at next
      · rename_i hcomma
        rw [hsplit, hcomma] at hblanks
        have hfollows := (follows_of_suffix hblanks (by decide)).skipBlanks
        split at next
        · cases next
        · cases next
        · cases next
          exact ⟨hfollows.suffix, fun _ => hfollows⟩
      · cases next

theorem leaves_nextName (isFirst : Bool) (chars : List Char) :
    Leaves Prod.snd (nextName isFirst chars) chars := by
  have hblanks := skipBlanks_suffix chars
  rw [nextName]
  split
  · exact .error
  · rename_i c rest hsplit
    rw [hsplit] at hblanks
    have hrest := (List.suffix_cons c rest).trans hblanks
    split
    · exact .ok hrest
    · split
      · split
        · exact .ok hrest
        · exact .error
      · split
        · have hafter := (skipBlanks_suffix rest).trans hrest
          split
          · exact .error
          · rename_i left hname
            rw [hname] at hafter
            exact .ok ((List.suffix_cons _ left).trans hafter)
          · exact .error
        · exact .error

/-- A value stands behind its colon. -/
theorem follows_readColon (ends : chars <:+ text) (colon : readColon chars = .ok rest) :
    Follows text rest := by
  have hblanks := (skipBlanks_suffix chars).trans ends
  rw [readColon] at colon
  split at colon
  · cases colon
  · rename_i c later hsplit
    split at colon
    · rename_i hcolon
      cases colon
      rw [hsplit, hcolon] at hblanks
      exact follows_of_suffix hblanks (by decide)
    · cases colon

/-! ## Payloads -/

/-- A payload is written in a text, as numbers or as a text that stands for its bytes. -/
def ContentIn (text : List Char) (content : List UInt8) : Prop :=
  (∀ byte ∈ content, WrittenIn text byte.toNat) ∨
    ∃ quoted parts left, '"' :: quoted <:+ text ∧ scanByteParts quoted = .ok (parts, left) ∧
      content = bytesOfParts parts

theorem writtenIn_of_readBytes {budget : Nat} {isFirst : Bool} {bytes : List UInt8}
    (ends : chars <:+ text) (read : readBytes budget isFirst chars = .ok (bytes, left))
    (first : isFirst = true → Follows text chars) :
    (∀ byte ∈ bytes, WrittenIn text byte.toNat) ∧ left <:+ text := by
  induction budget generalizing isFirst chars bytes left with
  | zero => cases read
  | succ budget ih =>
      rw [readBytes, bind_eq_ok_iff] at read
      obtain ⟨⟨goesOn, item⟩, hnext, hread⟩ := read
      obtain ⟨hitem, hfollows⟩ := follows_nextItem ends hnext first
      cases goesOn with
      | false =>
          cases hread
          exact ⟨nofun, hitem⟩
      | true =>
          simp only [bind_eq_ok_iff, Prod.exists] at hread
          obtain ⟨byte, rest, hbyte, others, last, hothers, hbytes⟩ := hread
          cases hbytes
          obtain ⟨hwritten, hrest⟩ := (hfollows rfl).writtenIn (readByte_eq_ok_iff.1 hbyte)
          obtain ⟨hmore, hleft⟩ := ih hrest hothers nofun
          refine ⟨fun other hother => ?_, hleft⟩
          rcases List.mem_cons.1 hother with rfl | hlater
          · exact hwritten
          · exact hmore other hlater

theorem contentIn_of_readContent {content : List UInt8} (ends : chars <:+ text)
    (read : readContent chars = .ok (content, left)) :
    ContentIn text content ∧ left <:+ text := by
  have hblanks := (skipBlanks_suffix chars).trans ends
  rw [readContent] at read
  split at read
  · cases read
  · rename_i quoted hopens
    rw [hopens] at hblanks
    rw [map_eq_ok_iff] at read
    obtain ⟨⟨parts, rest⟩, hparts, heq⟩ := read
    cases heq
    have hrest := leaves_scanByteParts quoted _ hparts
    exact ⟨.inr ⟨quoted, parts, left, hblanks, hparts, rfl⟩,
      hrest.trans ((List.suffix_cons _ _).trans hblanks)⟩
  · rename_i items hopens
    rw [hopens] at hblanks
    have hfollows := follows_of_suffix hblanks (by decide)
    obtain ⟨hwritten, hleft⟩ := writtenIn_of_readBytes hfollows.suffix read fun _ => hfollows
    exact ⟨.inl hwritten, hleft⟩
  · cases read

/-! ## Records -/

/-- The fields that have been read are written in a text. -/
structure FieldsIn (text : List Char) (known : RecordFields) : Prop where
  key : ∀ key ∈ known.key, WrittenIn text key.toNat
  content : ∀ content ∈ known.content, ContentIn text content
  version : ∀ version ∈ known.version, WrittenIn text version.toNat

/-- A record is written in a text: its position and its version with all their digits, and its
payload as numbers or as a text. -/
structure RecordIn (text : List Char) (record : Record) : Prop where
  key : WrittenIn text record.key.toNat
  content : ContentIn text record.content
  version : WrittenIn text record.version.toNat

variable {known more : RecordFields} {record : Record}

theorem readOnce_eq_ok_iff {α : Type} {before : Option α} {read : List Char → Scan α} {value : α} :
    readOnce before read chars = .ok (value, left) ↔
      before = none ∧ ∃ rest, readColon chars = .ok rest ∧ read rest = .ok (value, left) := by
  cases before with
  | some _ => exact ⟨nofun, nofun⟩
  | none =>
      rw [readOnce, bind_eq_ok_iff]
      exact (and_iff_right rfl).symm

/-- The value of a field stands behind its colon, and it is entered under its name. -/
theorem follows_entered {α : Type} {before : Option α} {read : List Char → Scan α}
    (enter : α → RecordFields) (ends : chars <:+ text)
    (entered : ((readOnce before read chars).map fun (value, rest) => (enter value, rest)) =
      .ok (more, left)) :
    ∃ value rest, Follows text rest ∧ read rest = .ok (value, left) ∧ enter value = more := by
  obtain ⟨⟨value, last⟩, hread, heq⟩ := map_eq_ok_iff.1 entered
  obtain ⟨-, rest, hcolon, hvalue⟩ := readOnce_eq_ok_iff.1 hread
  cases heq
  exact ⟨value, rest, follows_readColon ends hcolon, hvalue, rfl⟩

/-- A field that is read is written, and one that is not known is passed over. -/
theorem fieldsIn_of_readField {name : List Char} (fields : FieldsIn text known)
    (ends : chars <:+ text) (read : readField known name chars = .ok (more, left)) :
    FieldsIn text more ∧ left <:+ text := by
  rw [readField] at read
  split at read
  · obtain ⟨key, rest, hfollows, hkey, rfl⟩ :=
      follows_entered (fun key => { known with key := some key }) ends read
    obtain ⟨hwritten, hleft⟩ := hfollows.writtenIn (readToken_eq_ok_iff.1 hkey)
    exact ⟨⟨fun _ h => Option.some.inj h ▸ hwritten, fields.content, fields.version⟩, hleft⟩
  · split at read
    · obtain ⟨content, rest, hfollows, hcontent, rfl⟩ :=
        follows_entered (fun content => { known with content := some content }) ends read
      obtain ⟨hwritten, hleft⟩ := contentIn_of_readContent hfollows.suffix hcontent
      exact ⟨⟨fields.key, fun _ h => Option.some.inj h ▸ hwritten, fields.version⟩, hleft⟩
    · split at read
      · obtain ⟨version, rest, hfollows, hversion, rfl⟩ :=
          follows_entered (fun version => { known with version := some version }) ends read
        obtain ⟨hwritten, hleft⟩ := hfollows.writtenIn (readVersion_eq_ok_iff.1 hversion)
        exact ⟨⟨fields.key, fields.content, fun _ h => Option.some.inj h ▸ hwritten⟩, hleft⟩
      · obtain ⟨value, hcolon, hread⟩ := bind_eq_ok_iff.1 read
        obtain ⟨rest, hskips, heq⟩ := bind_eq_ok_iff.1 hread
        cases heq
        have hleft := leaves_skipValue _ _ _ _ hskips
        exact ⟨fields, hleft.trans (follows_readColon ends hcolon).suffix⟩

theorem FieldsIn.complete (fields : FieldsIn text known) (complete : known.record? = some record) :
    RecordIn text record := by
  rw [RecordFields.record?] at complete
  obtain ⟨key, hkey, complete⟩ := Option.bind_eq_some_iff.1 complete
  obtain ⟨content, hcontent, complete⟩ := Option.bind_eq_some_iff.1 complete
  obtain ⟨version, hversion, complete⟩ := Option.bind_eq_some_iff.1 complete
  cases complete
  exact ⟨fields.key key hkey, fields.content content hcontent, fields.version version hversion⟩

theorem recordIn_of_readRecordFields {budget : Nat} {isFirst : Bool} (fields : FieldsIn text known)
    (ends : chars <:+ text)
    (read : readRecordFields budget isFirst known chars = .ok (record, left)) :
    RecordIn text record := by
  induction budget generalizing isFirst known chars with
  | zero => cases read
  | succ budget ih =>
      rw [readRecordFields, bind_eq_ok_iff] at read
      obtain ⟨⟨goesOn, quoted⟩, hnext, hread⟩ := read
      have hquoted := (leaves_nextName isFirst chars _ hnext).trans ends
      cases goesOn with
      | false =>
          cases hrecord : known.record? with
          | none =>
              rw [hrecord] at hread
              cases hread
          | some found =>
              rw [hrecord] at hread
              cases hread
              exact fields.complete hrecord
      | true =>
          simp only [bind_eq_ok_iff, Prod.exists] at hread
          obtain ⟨name, afterName, hname, more, rest, hfield, hothers⟩ := hread
          have hafter := (leaves_scanText none quoted _ hname).trans hquoted
          obtain ⟨hmore, hrest⟩ := fieldsIn_of_readField fields hafter hfield
          exact ih hmore hrest hothers

/-- An item of a list that has to be there stands behind a comma, or at the front. -/
theorem follows_readItem {α : Type} {isFirst : Bool} {read : List Char → Scan α} {value : α}
    (ends : chars <:+ text) (item : readItem isFirst read chars = .ok (value, left))
    (first : isFirst = true → Follows text chars) :
    ∃ rest, Follows text rest ∧ read rest = .ok (value, left) := by
  rw [readItem, bind_eq_ok_iff] at item
  obtain ⟨⟨goesOn, rest⟩, hnext, hread⟩ := item
  obtain ⟨-, hfollows⟩ := follows_nextItem ends hnext first
  cases goesOn with
  | false => cases hread
  | true => exact ⟨rest, hfollows rfl, hread⟩

theorem recordIn_of_readRecordList (follows : Follows text chars)
    (read : readRecordList chars = .ok (record, left)) : RecordIn text record := by
  simp only [readRecordList, bind_eq_ok_iff, Prod.exists] at read
  obtain ⟨key, afterKey, hkey, content, afterContent, hcontent, version, afterVersion, hversion,
    last, -, heq⟩ := read
  cases heq
  obtain ⟨_, hfollows, hread⟩ := follows_readItem follows.suffix hkey fun _ => follows
  obtain ⟨hkey, hends⟩ := hfollows.writtenIn (readToken_eq_ok_iff.1 hread)
  obtain ⟨_, hfollows, hread⟩ := follows_readItem hends hcontent nofun
  obtain ⟨hcontent, hends⟩ := contentIn_of_readContent hfollows.suffix hread
  obtain ⟨_, hfollows, hread⟩ := follows_readItem hends hversion nofun
  obtain ⟨hversion, -⟩ := hfollows.writtenIn (readVersion_eq_ok_iff.1 hread)
  exact ⟨hkey, hcontent, hversion⟩

theorem recordIn_of_readRecord (read : readRecord text = .ok (record, left)) :
    RecordIn text record := by
  have hblanks := skipBlanks_suffix text
  rw [readRecord] at read
  split at read
  · cases read
  · rename_i rest hopens
    rw [hopens] at hblanks
    exact recordIn_of_readRecordList (follows_of_suffix hblanks (by decide)) read
  · rename_i rest hopens
    rw [hopens] at hblanks
    have hnone : FieldsIn text RecordFields.none := ⟨nofun, nofun, nofun⟩
    exact recordIn_of_readRecordFields hnone ((List.suffix_cons _ rest).trans hblanks) read
  · cases read

/-- A text that is read to its end. -/
theorem readWhole_eq_ok_iff {α : Type} {read : List Char → Scan α} {text : String} {value : α} :
    readWhole read text = .ok value ↔
      ∃ rest, read text.toList = .ok (value, rest) ∧ skipBlanks rest = [] := by
  rw [readWhole, bind_eq_ok_iff]
  constructor
  · rintro ⟨⟨found, rest⟩, hread, hvalue⟩
    by_cases hblank : skipBlanks rest = []
    · obtain rfl := Except.ok.inj ((if_pos hblank).symm.trans hvalue)
      exact ⟨rest, hread, hblank⟩
    · cases (if_neg hblank).symm.trans hvalue
  · rintro ⟨rest, hread, hblank⟩
    exact ⟨(value, rest), hread, if_pos hblank⟩

end RecordRing.Document

namespace RecordRing

open Document

/-- A record that is read from a text is written in it. -/
theorem Record.recordIn_of_ofText {text : String} {record : Record}
    (read : Record.ofText text = .ok record) : RecordIn text.toList record := by
  obtain ⟨rest, hread, -⟩ := readWhole_eq_ok_iff.1 read
  exact recordIn_of_readRecord hread

end RecordRing
