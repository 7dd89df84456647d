/-!
# Positions on the ring

Node identifiers and record keys are drawn from one circular space of `2 ^ 63` positions, so both
are plain `Token`s.  Positions are held as masked 64-bit words, and the circular operations are
word operations followed by the mask.

The main statements read the word operations back as arithmetic on natural numbers:
`toNat_wrapping`, `toNat_distanceTo` and `toNat_offset` reduce modulo the size of the ring.

## Implementation notes

The order on positions is the plain numeric one.  Circular comparisons are in `RecordRing.Arc`.
-/

namespace RecordRing

/-- The number of bits of a position. -/
def keyBits : Nat := 63

/-- The number of positions. -/
def ringSize : Nat := 0x8000000000000000

/-- The largest position, and the mask applied on wraparound. -/
def keyMask : UInt64 := 0x7fffffffffffffff

/-- The mask keeps the low 63 bits. -/
theorem toNat_and_keyMask (word : UInt64) : (word &&& keyMask).toNat = word.toNat % ringSize := by
  rw [UInt64.toNat_and]
  exact Nat.and_two_pow_sub_one_eq_mod word.toNat 63

/-- Why a raw number or an index does not stand for a value of the ring's vocabulary. -/
inductive RangeError where
  /-- The number lies outside the 63-bit key space. -/
  | token (value : UInt64)
  /-- The byte encodes no lifecycle state. -/
  | lifecycle (raw : UInt8)
  /-- No routing slot of this number has a starting position. -/
  | slotStart (slot : Nat)
  /-- The finger table has no slot of this number. -/
  | slotIndex (index : Nat)
  deriving DecidableEq, Repr

namespace RangeError

/-- The text of a range error. -/
def message : RangeError → String
  | token value => s!"invalid token: {value} is outside the 63-bit key space"
  | lifecycle raw => s!"invalid node state: {raw}"
  | slotStart slot => s!"finger slot {slot} out of range"
  | slotIndex index => s!"index out of bounds: the len is {keyBits} but the index is {index}"

end RangeError

/-- A position on the ring: a word below `2 ^ 63`. -/
structure Token where
  /-- The position as a machine word. -/
  word : UInt64
  /-- No position exceeds the mask. -/
  word_le : word ≤ keyMask
  deriving DecidableEq

namespace Token

@[ext] theorem ext {a b : Token} (h : a.word = b.word) : a = b := by
  cases a; cases b; simp_all

/-- The position as a natural number. -/
def toNat (t : Token) : Nat := t.word.toNat

theorem toNat_lt (t : Token) : t.toNat < ringSize :=
  Nat.lt_succ_of_le (UInt64.le_iff_toNat_le.1 t.word_le)

theorem toNat_inj {a b : Token} : a.toNat = b.toNat ↔ a = b :=
  ⟨fun h => Token.ext (UInt64.toNat_inj.1 h), fun h => h ▸ rfl⟩

/-- The start of the ring. -/
def first : Token := ⟨0, by decide⟩

/-- The end of the ring. -/
def last : Token := ⟨keyMask, by decide⟩

instance : Inhabited Token := ⟨first⟩

instance : Ord Token := ⟨fun a b => compare a.word b.word⟩

theorem compare_def (a b : Token) : compare a b = compare a.word b.word := rfl

instance : Std.TransOrd Token where
  eq_swap := Std.OrientedOrd.eq_swap (α := UInt64)
  isLE_trans := Std.TransOrd.isLE_trans (α := UInt64)

instance : Std.LawfulEqOrd Token where
  compare_self := Std.ReflOrd.compare_self (α := UInt64)
  eq_of_compare h := Token.ext (Std.LawfulEqOrd.eq_of_compare (α := UInt64) h)

instance : LE Token := ⟨fun a b => a.word ≤ b.word⟩

instance : LT Token := ⟨fun a b => a.word < b.word⟩

instance (a b : Token) : Decidable (a ≤ b) := inferInstanceAs (Decidable (a.word ≤ b.word))

instance (a b : Token) : Decidable (a < b) := inferInstanceAs (Decidable (a.word < b.word))

theorem le_iff_toNat {a b : Token} : a ≤ b ↔ a.toNat ≤ b.toNat := UInt64.le_iff_toNat_le

theorem lt_iff_toNat {a b : Token} : a < b ↔ a.toNat < b.toNat := UInt64.lt_iff_toNat_lt

/-- Reduces a word modulo `2 ^ 63`. -/
def wrapping (word : UInt64) : Token :=
  ⟨word &&& keyMask, by
    rw [UInt64.le_iff_toNat_le, toNat_and_keyMask]
    exact Nat.le_of_lt_succ (Nat.mod_lt _ (by decide))⟩

@[simp] theorem toNat_wrapping (word : UInt64) : (wrapping word).toNat = word.toNat % ringSize :=
  toNat_and_keyMask word

@[simp] theorem wrapping_word (t : Token) : wrapping t.word = t := by
  rw [← toNat_inj, toNat_wrapping]
  exact Nat.mod_eq_of_lt t.toNat_lt

/-- The position a word names, if it names one. -/
def ofWord (word : UInt64) : Except RangeError Token :=
  if h : word ≤ keyMask then .ok ⟨word, h⟩ else .error (.token word)

@[simp] theorem ofWord_word (t : Token) : ofWord t.word = .ok t := by
  simp [ofWord, t.word_le]

/-- The clockwise distance from one position to another. -/
def distanceTo (a b : Token) : UInt64 := (b.word - a.word) &&& keyMask

theorem toNat_distanceTo (a b : Token) :
    (a.distanceTo b).toNat = (b.toNat + (ringSize - a.toNat)) % ringSize := by
  have ha := a.toNat_lt
  have hb := b.toNat_lt
  rw [distanceTo, toNat_and_keyMask, UInt64.toNat_sub]
  simp only [toNat, ringSize] at *
  omega

/-- The position `delta` steps clockwise of this one. -/
def offset (t : Token) (delta : UInt64) : Token := wrapping (t.word + (delta &&& keyMask))

theorem toNat_offset (t : Token) (delta : UInt64) :
    (t.offset delta).toNat = (t.toNat + delta.toNat) % ringSize := by
  have ht := t.toNat_lt
  rw [offset, toNat_wrapping, UInt64.toNat_add, toNat_and_keyMask]
  simp only [toNat, ringSize] at *
  omega

/-- The start of routing slot `slot`: the position `2 ^ slot` steps clockwise. -/
def slotStart (t : Token) (slot : Nat) : Except RangeError Token :=
  if slot < keyBits then .ok (t.offset (1 <<< UInt64.ofNat slot)) else .error (.slotStart slot)

/-- The decimal text of a position. -/
def render (t : Token) : String := toString t.toNat

/-- A position with its type, as inspection output shows it. -/
def inspect (t : Token) : String := s!"Token({t.render})"

/-- A position that may be unknown, as inspection output shows it. -/
def inspect? : Option Token → String
  | none => "None"
  | some t => s!"Some({t.inspect})"

end Token

end RecordRing
