import RecordRing.Token

/-!
# Records

A record is an opaque payload under a key, with a version that optimistic writers check.  The ring
routes on the key and carries payload and version along when ownership changes.
-/

namespace RecordRing

/-- A payload under a key, with its version. -/
structure Record where
  /-- The position that decides which node owns the record. -/
  key : Token
  /-- The payload. -/
  content : List UInt8
  /-- The version that the next writer has to name. -/
  version : UInt64
  deriving DecidableEq

end RecordRing
