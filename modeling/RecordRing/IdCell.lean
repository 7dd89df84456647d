import RecordRing.Token

/-!
# Cells for an identifier that may be unknown

A cell packs an optional position into one signed word: a known position as itself, and an unknown
one as `-1`.  Positions are below `2 ^ 63`, so a known position is never negative.

The main statements say that the packing is invisible: `load_pack` reads back what was stored, and
`pack_inj` makes equality of words coincide with equality of optional positions.
-/

namespace RecordRing

/-- A position that may be unknown, held as one signed word. -/
structure IdCell where
  /-- The packed word. -/
  raw : Int64
  deriving DecidableEq

namespace IdCell

/-- The word of an unknown position. -/
def unknownWord : Int64 := -1

/-- The cell that holds an optional position. -/
def pack : Option Token → IdCell
  | some t => ⟨t.word.toInt64⟩
  | none => ⟨unknownWord⟩

/-- The optional position that a cell holds. -/
def load (cell : IdCell) : Option Token :=
  if cell.raw < 0 then none else some (Token.wrapping cell.raw.toUInt64)

/-- The cell of an unknown position. -/
def unknown : IdCell := pack none

instance : Inhabited IdCell := ⟨unknown⟩

@[simp] theorem load_pack (id : Option Token) : (pack id).load = id := by
  cases id with
  | none => rfl
  | some t =>
    have ht : t.word.toBitVec.toNat < ringSize := t.toNat_lt
    simp only [ringSize] at ht
    have h : ¬ t.word.toInt64 < 0 := by
      rw [Int64.lt_iff_toInt_lt, show t.word.toInt64.toInt = t.word.toBitVec.toInt from rfl,
        BitVec.toInt_eq_toNat_of_lt (by omega)]
      simp
    simp [pack, load, h]

theorem pack_inj {a b : Option Token} : pack a = pack b ↔ a = b :=
  ⟨fun h => by rw [← load_pack a, h, load_pack], fun h => h ▸ rfl⟩

/-- Replaces the content when the packed words agree that it is the expected one; the flag says
whether that happened. -/
def compareAndSet (cell : IdCell) (expected new : Option Token) : Bool × IdCell :=
  if cell = pack expected then (true, pack new) else (false, cell)

/-- A cell with its content, as inspection output shows it. -/
def inspect (cell : IdCell) : String := s!"AtomicNodeId({Token.inspect? cell.load})"

end IdCell

end RecordRing
