/-!
# Keyed short-input hashing

The add-rotate-xor family of hash functions on byte strings with four words of state: each
eight-byte block of the message passes through a number of mixing rounds, and a larger number of
rounds closes the message.  Only the fast member with one round for each block and three closing
rounds under the zero key is used by the ring.

## Implementation notes

The message is consumed as a list, eight bytes at a time, so every function here is structural.
-/

namespace RecordRing.Hash.Sip

/-- The number that `bytes` spell with the least significant byte first. -/
def wordOfBytes (bytes : List UInt8) : UInt64 :=
  bytes.foldr (fun byte acc => (acc <<< 8) ||| byte.toUInt64) 0

/-- The eight bytes of a word, least significant first. -/
def bytesOfWord (word : UInt64) : List UInt8 :=
  (List.range 8).map fun i => (word >>> UInt64.ofNat (8 * i)).toUInt8

/-- A word rotated towards its most significant bit by an amount between 1 and 63. -/
def rotate (word : UInt64) (amount : UInt64) : UInt64 :=
  (word <<< amount) ||| (word >>> (64 - amount))

/-- The four words of hashing state. -/
structure State where
  v0 : UInt64
  v1 : UInt64
  v2 : UInt64
  v3 : UInt64

namespace State

/-- The state before any message, under the zero key. -/
def initial : State :=
  ⟨0x736f6d6570736575, 0x646f72616e646f6d, 0x6c7967656e657261, 0x7465646279746573⟩

/-- One mixing round. -/
def round (s : State) : State :=
  let a := s.v0 + s.v1
  let b := rotate s.v1 13 ^^^ a
  let c := s.v2 + s.v3
  let d := rotate s.v3 16 ^^^ c
  let e := rotate a 32 + d
  let f := c + b
  ⟨e, rotate b 17 ^^^ f, rotate f 32, rotate d 21 ^^^ e⟩

/-- Mixes one block of the message into the state. -/
def absorb (s : State) (block : UInt64) : State :=
  let mixed := { s with v3 := s.v3 ^^^ block }.round
  { mixed with v0 := mixed.v0 ^^^ block }

/-- Mixes every whole block of the message; the bytes after the last whole block are returned. -/
def absorbBlocks (s : State) : List UInt8 → State × List UInt8
  | b0 :: b1 :: b2 :: b3 :: b4 :: b5 :: b6 :: b7 :: rest =>
    (s.absorb (wordOfBytes [b0, b1, b2, b3, b4, b5, b6, b7])).absorbBlocks rest
  | rest => (s, rest)

/-- The three closing rounds and the hash they leave. -/
def finish (s : State) : UInt64 :=
  let t := { s with v2 := s.v2 ^^^ 0xff }.round.round.round
  t.v0 ^^^ t.v1 ^^^ t.v2 ^^^ t.v3

end State

/-- The hash of a message: its blocks, then a block of the remaining bytes under the low byte of
the message's length. -/
def hash (message : List UInt8) : UInt64 :=
  let (s, rest) := State.initial.absorbBlocks message
  (s.absorb ((UInt64.ofNat message.length <<< 56) ||| wordOfBytes rest)).finish

end RecordRing.Hash.Sip
