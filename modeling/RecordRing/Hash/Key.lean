import RecordRing.Hash.Sip
import RecordRing.Token

/-!
# Positions of keys

A byte string is hashed onto the ring together with its length, and a text is hashed as its UTF-8
bytes.
-/

namespace RecordRing.Token

/-- The position of a byte string: the hash of its length, as eight bytes with the least significant
first, followed by the bytes. -/
def ofBytes (data : List UInt8) : Token :=
  wrapping (Hash.Sip.hash (Hash.Sip.bytesOfWord (UInt64.ofNat data.length) ++ data))

/-- The position of a text. -/
def ofKey (key : String) : Token := ofBytes key.toUTF8.toList

end RecordRing.Token
