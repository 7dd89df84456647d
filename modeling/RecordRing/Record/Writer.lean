import RecordRing.Document.Basic
import RecordRing.Record.Basic

/-!
# Written records

A record is written as a document of its three fields, with the payload as a list of bytes.
-/

namespace RecordRing

/-- The document of a position. -/
def Token.toDocument (t : Token) : Document := .number t.toNat

/-- The document of a record. -/
def Record.toDocument (record : Record) : Document :=
  .fields [
    ("key", record.key.toDocument),
    ("content", .list (record.content.map fun byte => .number byte.toNat)),
    ("version", .number record.version.toNat)]

/-- The compact text of a position. -/
def Token.toText (t : Token) : String := t.toDocument.compactText

/-- The compact text of a record. -/
def Record.toText (record : Record) : String := record.toDocument.compactText

end RecordRing
