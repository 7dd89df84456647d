import RecordRing.Document.Scan
import RecordRing.Record.Basic

/-!
# Reading positions and records

A position is written as a natural number below `2 ^ 63`.  A record is written as its fields by
name, in any order and among unknown ones, or as the list of its three fields; its payload is a list
of bytes or a text that stands for its UTF-8 bytes.

## Implementation notes

Reading goes from left to right and stops at the first flaw, so a text with several flaws has the
flaw that comes first.
-/

namespace RecordRing.Document

/-- The flaw of a value that is not of the wanted kind: its own, if it breaks the grammar before its
kind is settled. -/
def misfit : List Char → Flaw
  | 'n' :: rest => settled (scanWord ['u', 'l', 'l'] rest)
  | 't' :: rest => settled (scanWord ['r', 'u', 'e'] rest)
  | 'f' :: rest => settled (scanWord ['a', 'l', 's', 'e'] rest)
  | '-' :: rest => settled (scanNumeral true rest)
  | '"' :: rest => settled (scanText none rest)
  | '[' :: _ => .unfit
  | '\x7b' :: _ => .unfit
  | c :: rest => if (digit? c).isSome then settled (scanNumeral false (c :: rest)) else .malformed
  | [] => .cut
where
  /-- The flaw of a scan, or the misfit of what it has read. -/
  settled {α : Type} : Except Flaw α → Flaw
    | .error flaw => flaw
    | .ok _ => .unfit

/-- Reads a natural number below a bound. -/
def readNatural (bound : Nat) (chars : List Char) : Scan Nat :=
  match skipBlanks chars with
  | [] => .error .cut
  | '-' :: rest => .error (misfit ('-' :: rest))
  | c :: rest =>
    if (digit? c).isSome then
      match scanNumeral false (c :: rest) with
      | .ok (.natural value, left) => if value < bound then .ok (value, left) else .error .unfit
      | .ok (.other, _) => .error .unfit
      | .error flaw => .error flaw
    else .error (misfit (c :: rest))

/-- Reads a position. -/
def readToken (chars : List Char) : Scan Token :=
  (readNatural ringSize chars).map fun (value, rest) => (Token.wrapping (UInt64.ofNat value), rest)

/-- Reads a version. -/
def readVersion (chars : List Char) : Scan UInt64 :=
  (readNatural UInt64.size chars).map fun (value, rest) => (UInt64.ofNat value, rest)

/-- Reads a byte. -/
def readByte (chars : List Char) : Scan UInt8 :=
  (readNatural UInt8.size chars).map fun (value, rest) => (UInt8.ofNat value, rest)

/-- Whether a list goes on, and with what.  Between two items stands one comma. -/
def nextItem (isFirst : Bool) (chars : List Char) : Scan Bool :=
  match skipBlanks chars with
  | [] => .error .cut
  | ']' :: rest => .ok (false, rest)
  | c :: rest =>
    if isFirst then .ok (true, c :: rest)
    else if c = ',' then
      match skipBlanks rest with
      | [] => .error .cut
      | ']' :: _ => .error .malformed
      | left => .ok (true, left)
    else .error .malformed

/-- Reads the bytes of a list after its bracket, in as many steps as `budget` allows. -/
def readBytes : Nat → Bool → List Char → Except Flaw (List UInt8 × List Char)
  | 0, _, _ => .error .cut
  | budget + 1, isFirst, chars => do
    match ← nextItem isFirst chars with
    | (false, rest) => return ([], rest)
    | (true, item) =>
      let (byte, rest) ← readByte item
      let (bytes, left) ← readBytes budget false rest
      return (byte :: bytes, left)

/-- Reads a payload. -/
def readContent (chars : List Char) : Scan (List UInt8) :=
  match skipBlanks chars with
  | [] => .error .cut
  | '"' :: rest => (scanByteParts rest).map fun (parts, left) => (bytesOfParts parts, left)
  | '[' :: rest => readBytes (rest.length + 1) true rest
  | other => .error (misfit other)

/-- Reads an item that has to be there. -/
def readItem {α : Type} (isFirst : Bool) (read : List Char → Scan α) (chars : List Char) :
    Except Flaw (α × List Char) := do
  match ← nextItem isFirst chars with
  | (false, _) => .error .unfit
  | (true, item) => read item

/-- Reads the end of a list that has all its items. -/
def readListEnd (chars : List Char) : Except Flaw (List Char) :=
  match skipBlanks chars with
  | [] => .error .cut
  | c :: rest => if c = ']' then .ok rest else .error .malformed

/-- Reads a record as the list of its fields, after the bracket. -/
def readRecordList (chars : List Char) : Except Flaw (Record × List Char) := do
  let (key, afterKey) ← readItem true readToken chars
  let (content, afterContent) ← readItem false readContent afterKey
  let (version, afterVersion) ← readItem false readVersion afterContent
  return (⟨key, content, version⟩, ← readListEnd afterVersion)

/-- The fields of a record that have been read. -/
structure RecordFields where
  key : Option Token
  content : Option (List UInt8)
  version : Option UInt64

namespace RecordFields

/-- No field has been read. -/
def none : RecordFields := ⟨.none, .none, .none⟩

/-- The record of all fields. -/
def record? (known : RecordFields) : Option Record := do
  return ⟨← known.key, ← known.content, ← known.version⟩

end RecordFields

/-- Whether a collection of fields goes on, and with which name; the opening quote of the name is
passed over. -/
def nextName (isFirst : Bool) (chars : List Char) : Scan Bool :=
  match skipBlanks chars with
  | [] => .error .cut
  | c :: rest =>
    if c = '\x7d' then .ok (false, rest)
    else if isFirst then
      if c = '"' then .ok (true, rest) else .error .malformed
    else if c = ',' then
      match skipBlanks rest with
      | [] => .error .cut
      | '"' :: left => .ok (true, left)
      | _ => .error .malformed
    else .error .malformed

/-- Reads the colon after a name. -/
def readColon (chars : List Char) : Except Flaw (List Char) :=
  match skipBlanks chars with
  | [] => .error .cut
  | c :: rest => if c = ':' then .ok rest else .error .malformed

/-- Reads the colon and the value of a field that has not been read before. -/
def readOnce {α : Type} (before : Option α) (read : List Char → Scan α) (chars : List Char) :
    Except Flaw (α × List Char) :=
  match before with
  | some _ => .error .unfit
  | none => do read (← readColon chars)

/-- Reads one field after its name. -/
def readField (known : RecordFields) (name : List Char) (chars : List Char) :
    Except Flaw (RecordFields × List Char) :=
  if name = ['k', 'e', 'y'] then
    (readOnce known.key readToken chars).map fun (key, rest) =>
      ({ known with key := some key }, rest)
  else if name = ['c', 'o', 'n', 't', 'e', 'n', 't'] then
    (readOnce known.content readContent chars).map fun (content, rest) =>
      ({ known with content := some content }, rest)
  else if name = ['v', 'e', 'r', 's', 'i', 'o', 'n'] then
    (readOnce known.version readVersion chars).map fun (version, rest) =>
      ({ known with version := some version }, rest)
  else do
    let value ← readColon chars
    return (known, ← skipValue (2 * value.length + 2) [] value)

/-- Reads the fields of a record after the brace, in as many steps as `budget` allows. -/
def readRecordFields :
    Nat → Bool → RecordFields → List Char → Except Flaw (Record × List Char)
  | 0, _, _, _ => .error .cut
  | budget + 1, isFirst, known, chars => do
    match ← nextName isFirst chars with
    | (false, rest) =>
      match known.record? with
      | some record => return (record, rest)
      | none => .error .unfit
    | (true, quoted) =>
      let (name, afterName) ← scanText none quoted
      let (more, rest) ← readField known name afterName
      readRecordFields budget false more rest

/-- Reads a record. -/
def readRecord (chars : List Char) : Scan Record :=
  match skipBlanks chars with
  | [] => .error .cut
  | '[' :: rest => readRecordList rest
  | '\x7b' :: rest => readRecordFields (rest.length + 1) true RecordFields.none rest
  | other => .error (misfit other)

/-- Reads a whole text, after which nothing but blanks may follow. -/
def readWhole {α : Type} (read : List Char → Scan α) (text : String) : Except Flaw α := do
  let (value, rest) ← read text.toList
  if skipBlanks rest = [] then return value else .error .malformed

end RecordRing.Document

namespace RecordRing

/-- The position that a text writes. -/
def Token.ofText (text : String) : Except Document.Flaw Token :=
  Document.readWhole Document.readToken text

/-- The record that a text writes. -/
def Record.ofText (text : String) : Except Document.Flaw Record :=
  Document.readWhole Document.readRecord text

end RecordRing
