import Mathlib.Algebra.Group.Nat.Defs
import RecordRing.Proofs.Distance

/-!
# Circular arithmetic

A position is moved along the ring by a word of any size, and the clockwise distance of two
positions is a word again.  Both are words that wrap around and are masked.  As natural numbers they
undo each other except for whole turns: a step of the distance leads to the other position
(`Token.offset_distanceTo`), and a step leads as far as its word tells when whole turns are left out
(`Token.gap_offset`).  The start of a routing slot is one such step (`Token.gap_slotStart`).

The laws are put together in `Token.circular_arithmetic`.
-/

namespace RecordRing

namespace Token

variable {id start : Token} {slot : Nat}

/-! ## Steps and distances -/

/-- A step of the distance to a position leads to it. -/
theorem offset_distanceTo (a b : Token) : a.offset (a.distanceTo b) = b := by
  rw [← toNat_inj, toNat_offset]
  show (a.toNat + a.gap b) % ringSize = b.toNat
  rw [Nat.add_comm]
  -- the way passes the start of the ring or does not
  rcases gap_cases a b with ⟨-, hsum⟩ | ⟨-, hsum⟩
  · rw [hsum, Nat.mod_eq_of_lt b.toNat_lt]
  · rw [hsum, Nat.add_mod_right, Nat.mod_eq_of_lt b.toNat_lt]

/-- A step leads as far as its word tells, less whole turns. -/
theorem gap_offset (a : Token) (delta : UInt64) :
    a.gap (a.offset delta) = delta.toNat % ringSize := by
  have ha := a.toNat_lt
  calc
    a.gap (a.offset delta)
        = ((a.toNat + delta.toNat) % ringSize + (ringSize - a.toNat)) % ringSize := by
      rw [gap, toNat_distanceTo, toNat_offset]
    _ = (a.toNat + delta.toNat + (ringSize - a.toNat)) % ringSize := Nat.mod_add_mod _ _ _
    _ = (delta.toNat + ringSize) % ringSize := by
      rw [show a.toNat + delta.toNat + (ringSize - a.toNat) = delta.toNat + ringSize by omega]
    _ = delta.toNat % ringSize := Nat.add_mod_right _ _

/-- The way to a position and the way back make one turn, or none if the positions are the same. -/
theorem gap_add_gap_eq_ite (a b : Token) :
    a.gap b + b.gap a = if a = b then 0 else ringSize := by
  split
  · rename_i hsame
    rw [hsame, gap_self]
  · rename_i hother
    exact gap_add_gap_back hother

/-! ## Starts of slots -/

theorem toNat_slotStep (h : slot < keyBits) :
    ((1 : UInt64) <<< UInt64.ofNat slot).toNat = 2 ^ slot := by
  have hslot : slot < 63 := h
  have hpow : 2 ^ slot < 2 ^ 64 := Nat.pow_lt_pow_right (by decide) (by omega)
  have hword : (UInt64.ofNat slot).toNat = slot :=
    UInt64.toNat_ofNat_of_lt' (Nat.lt_trans hslot (by decide))
  rw [UInt64.toNat_shiftLeft, hword, Nat.mod_eq_of_lt (by omega : slot < 64)]
  rw [UInt64.toNat_one, Nat.one_shiftLeft, Nat.mod_eq_of_lt hpow]

/-- Only a slot of the table has a start, and one step leads to it. -/
theorem of_slotStart_eq_ok (h : id.slotStart slot = .ok start) :
    slot < keyBits ∧ start = id.offset (1 <<< UInt64.ofNat slot) := by
  rw [slotStart] at h
  split at h
  · rename_i hslot
    exact ⟨hslot, (Except.ok.inj h).symm⟩
  · cases h

theorem toNat_slotStart (h : id.slotStart slot = .ok start) :
    start.toNat = (id.toNat + 2 ^ slot) % ringSize := by
  obtain ⟨hslot, rfl⟩ := of_slotStart_eq_ok h
  rw [toNat_offset, toNat_slotStep hslot]

/-- A slot starts as many steps away as the power of two that belongs to it. -/
theorem gap_slotStart (h : id.slotStart slot = .ok start) : id.gap start = 2 ^ slot := by
  obtain ⟨hslot, rfl⟩ := of_slotStart_eq_ok h
  have hstep : 2 ^ slot < ringSize := Nat.pow_lt_pow_right (by decide) hslot
  rw [gap_offset, toNat_slotStep hslot, Nat.mod_eq_of_lt hstep]

theorem exists_slotStart (id : Token) (slot : Fin keyBits) :
    ∃ start, id.slotStart slot = .ok start :=
  ⟨_, by rw [slotStart, if_pos slot.isLt]⟩

/-! ## The laws -/

/-- The laws of circular arithmetic.  A step of the distance to a position leads to it, and a step of
any word leads as far as the word tells, less whole turns.  The way to another position and the way
back make one turn, and two legs of a way make up the direct way or one turn more.  A step wraps
around at the end of the ring and ends on the ring.  Every slot of a finger table has a start, at the
distance of the power of two that belongs to the slot. -/
theorem circular_arithmetic (a b c : Token) (delta : UInt64) :
    a.offset (a.distanceTo b) = b ∧
    (a.distanceTo (a.offset delta)).toNat = delta.toNat % ringSize ∧
    (a.distanceTo b).toNat + (b.distanceTo a).toNat = (if a = b then 0 else ringSize) ∧
    ((a.distanceTo b).toNat + (b.distanceTo c).toNat = (a.distanceTo c).toNat ∨
      (a.distanceTo b).toNat + (b.distanceTo c).toNat = (a.distanceTo c).toNat + ringSize) ∧
    ((a.offset delta).toNat = (a.toNat + delta.toNat) % ringSize ∧
      (a.offset delta).toNat < ringSize) ∧
    ∀ slot < keyBits, ∃ start, a.slotStart slot = .ok start ∧
      (a.distanceTo start).toNat = 2 ^ slot := by
  refine ⟨offset_distanceTo a b, gap_offset a delta, gap_add_gap_eq_ite a b, gap_add_gap a b c,
    ⟨toNat_offset a delta, ?_⟩, ?_⟩
  · rw [toNat_offset]
    exact Nat.mod_lt _ (by decide)
  · intro slot hslot
    obtain ⟨start, hstart⟩ := exists_slotStart a ⟨slot, hslot⟩
    exact ⟨start, hstart, gap_slotStart hstart⟩

/-- From the end of the ring the last slot starts half a turn away, and a step of more than one turn
goes as far as what is left of it. -/
theorem circular_arithmetic_last :
    62 < keyBits ∧
    (∃ start, last.slotStart 62 = .ok start ∧ start.toNat = 2 ^ 62 - 1 ∧
      (last.distanceTo start).toNat = 2 ^ 62) ∧
    (last.distanceTo (last.offset 0x8000000000000005)).toNat = 5 := by
  obtain ⟨-, hstep, -, -, -, hslots⟩ := circular_arithmetic last first last 0x8000000000000005
  obtain ⟨start, hstart, hdistance⟩ := hslots 62 (by decide)
  refine ⟨by decide, ⟨start, hstart, ?_, hdistance⟩, hstep⟩
  rw [toNat_slotStart hstart]
  decide

end Token

end RecordRing
