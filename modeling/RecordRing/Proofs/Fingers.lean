import RecordRing.Fingers

/-!
# Finger tables under replacement

A guarded replacement writes a slot only if the slot holds what is expected, and a slot that holds an
identifier is always recognised.

## Implementation notes

An unknown slot is recognised only if its cell is the packing of an unknown identifier, and not some
other word without a meaning.  Tables are written by way of packings alone, which `Packed` expresses.
-/

namespace RecordRing

/-- A cell that holds a position is its packing. -/
theorem IdCell.eq_pack_of_load {cell : IdCell} {id : Token} (h : cell.load = some id) :
    cell = pack (some id) := by
  rw [load] at h
  split at h
  · cases h
  · rename_i hsign
    have hsmall : cell.raw.toUInt64.toNat < ringSize := by
      rw [Int64.lt_iff_toInt_lt] at hsign
      have hpos := BitVec.toInt_pos_iff.1 (Int.not_lt.1 hsign)
      show cell.raw.toBitVec.toNat < ringSize
      rw [ringSize]
      omega
    have hword : id.word = cell.raw.toUInt64 := by
      have hnat := Token.toNat_wrapping cell.raw.toUInt64
      rw [Nat.mod_eq_of_lt hsmall, Option.some.inj h] at hnat
      exact UInt64.toNat_inj.1 hnat
    rw [pack, hword]
    rfl

namespace Fingers

variable {table : Fingers} {slot other : Fin keyBits} {expected new : Option Token} {id : Token}

theorem mem_descending : (slot, id) ∈ table.descending ↔ table.get slot = some id := by
  rw [descending, List.mem_reverse, known, List.mem_filterMap]
  constructor
  · rintro ⟨other, -, h⟩
    obtain ⟨found, hfound, heq⟩ := Option.map_eq_some_iff.1 h
    rw [Prod.mk.injEq] at heq
    rw [← heq.1, ← heq.2]
    exact hfound
  · intro h
    exact ⟨slot, List.mem_finRange slot, by rw [h, Option.map_some]⟩

/-- The known slots are scanned from the highest index down. -/
theorem pairwise_descending (table : Fingers) :
    table.descending.Pairwise fun before after => after.1 < before.1 := by
  rw [descending, List.pairwise_reverse, known, List.pairwise_filterMap]
  refine (List.pairwise_lt_finRange keyBits).imp fun {low high} hless => ?_
  intro before hbefore after hafter
  obtain ⟨-, -, rfl⟩ := Option.map_eq_some_iff.1 hbefore
  obtain ⟨-, -, rfl⟩ := Option.map_eq_some_iff.1 hafter
  exact hless

/-- A guarded replacement overwrites its slot if the words agree, and else it changes nothing. -/
theorem compareAndSet_eq_ite (table : Fingers) (slot : Fin keyBits) (expected new : Option Token) :
    table.compareAndSet slot expected new =
      if table.cells.get slot = IdCell.pack expected then (true, table.set slot new)
      else (false, table) := by
  have hcell : table.cells[slot] = table.cells.get slot := rfl
  have hsame : table.cells.set slot (table.cells.get slot) slot.isLt = table.cells :=
    Vector.set_getElem_self slot.isLt
  simp only [compareAndSet, hcell, IdCell.compareAndSet]
  split
  · rfl
  · rw [hsame]

theorem get_compareAndSet_of_ne (h : slot ≠ other) :
    (table.compareAndSet slot expected new).2.get other = table.get other := by
  rw [compareAndSet_eq_ite]
  split
  · rw [get_set, if_neg h]
  · rfl

/-- A replacement that takes place found what was expected. -/
theorem get_of_compareAndSet (h : (table.compareAndSet slot expected new).1 = true) :
    table.get slot = expected ∧ (table.compareAndSet slot expected new).2.get slot = new := by
  rw [compareAndSet_eq_ite] at h ⊢
  split at h
  · rename_i hcell
    rw [if_pos hcell]
    constructor
    · show (table.cells.get slot).load = expected
      rw [hcell, IdCell.load_pack]
    · rw [get_set, if_pos rfl]
  · cases h

/-- A guarded replacement changes its slot to the new content at most. -/
theorem get_compareAndSet_cases (table : Fingers) (slot other : Fin keyBits)
    (expected new : Option Token) :
    (table.compareAndSet slot expected new).2.get other = table.get other ∨
      slot = other ∧ (table.compareAndSet slot expected new).2.get other = new := by
  rw [compareAndSet_eq_ite]
  split
  · by_cases hslot : slot = other
    · right
      exact ⟨hslot, by rw [get_set, if_pos hslot]⟩
    · left
      rw [get_set, if_neg hslot]
  · exact Or.inl rfl

/-- The guarded replacement of an identifier that a slot holds overwrites it. -/
theorem compareAndSet_eq_set (h : table.get slot = some id) :
    table.compareAndSet slot (some id) new = (true, table.set slot new) := by
  have hcell : table.cells.get slot = IdCell.pack (some id) := IdCell.eq_pack_of_load h
  rw [compareAndSet_eq_ite, if_pos hcell]

/-- A slot that holds an identifier is recognised. -/
theorem compareAndSet_of_get (h : table.get slot = some id) :
    (table.compareAndSet slot (some id) new).1 = true := by
  rw [compareAndSet_eq_set h]

/-- Every cell of a table is the packing of what it holds. -/
def Packed (table : Fingers) : Prop := ∀ cell ∈ table.cells, cell = IdCell.pack cell.load

theorem packed_empty : empty.Packed := by
  intro cell mem
  obtain ⟨-, rfl⟩ := Vector.mem_replicate.1 mem
  rfl

theorem Packed.set (packed : table.Packed) (slot : Fin keyBits) (id : Option Token) :
    (table.set slot id).Packed := by
  intro cell mem
  have hset : cell ∈ table.cells.set slot (IdCell.pack id) slot.isLt := mem
  rcases Vector.mem_or_eq_of_mem_set hset with hmem | rfl
  · exact packed cell hmem
  · rw [IdCell.load_pack]

/-- A cell whose content is exchanged or kept is packed again. -/
theorem packed_compareAndSet {cell : IdCell} (packed : cell = IdCell.pack cell.load) :
    (cell.compareAndSet expected new).2 =
      IdCell.pack (cell.compareAndSet expected new).2.load := by
  rw [IdCell.compareAndSet]
  split
  · rw [IdCell.load_pack]
  · exact packed

theorem Packed.compareAndSet (packed : table.Packed) (slot : Fin keyBits)
    (expected new : Option Token) : (table.compareAndSet slot expected new).2.Packed := by
  rw [compareAndSet_eq_ite]
  split
  · exact packed.set slot new
  · exact packed

theorem Packed.forget (packed : table.Packed) (lost : Token) : (table.forget lost).2.Packed := by
  intro cell mem
  obtain ⟨slot, rfl⟩ := Vector.mem_ofFn.1 mem
  have hslot := packed _ (Vector.getElem_mem slot.isLt)
  rw [forgetSlot]
  split
  · exact hslot
  · exact packed_compareAndSet hslot

/-- A guarded replacement takes place if the slot holds the optional position that is expected. -/
theorem Packed.compareAndSet_eq (packed : table.Packed) (slot : Fin keyBits)
    (expected new : Option Token) :
    table.compareAndSet slot expected new =
      if table.get slot = expected then (true, table.set slot new) else (false, table) := by
  have hcell : table.cells.get slot = IdCell.pack (table.get slot) :=
    packed _ (Vector.getElem_mem slot.isLt)
  simp only [compareAndSet_eq_ite, hcell, IdCell.pack_inj]

/-- A slot of a packed table is recognised whether it is known or not. -/
theorem Packed.get_compareAndSet (packed : table.Packed) (slot : Fin keyBits)
    (new : Option Token) :
    (table.compareAndSet slot (table.get slot) new).2.get slot = new := by
  rw [packed.compareAndSet_eq, if_pos rfl, get_set, if_pos rfl]

/-- Forgetting an identifier clears the routing slots that hold it, and no other slot. -/
theorem get_forget_of_ne {lost : Token} (routing : slot ≠ successorSlot) :
    (table.forget lost).2.get slot =
      if table.get slot = some lost then none else table.get slot := by
  rw [get_forget, forgetSlot, if_neg routing, IdCell.compareAndSet]
  by_cases hheld : table.get slot = some lost
  · have hcell : table.cells[slot] = IdCell.pack (some lost) := IdCell.eq_pack_of_load hheld
    rw [if_pos hcell, if_pos hheld, IdCell.load_pack]
  · have hcell : table.cells[slot] ≠ IdCell.pack (some lost) := by
      intro heq
      apply hheld
      rw [get, heq, IdCell.load_pack]
    rw [if_neg hcell, if_neg hheld]
    rfl

/-- Forgetting an identifier brings no finger. -/
theorem get_of_get_forget {lost : Token} (h : (table.forget lost).2.get slot = some id) :
    table.get slot = some id := by
  rw [get_forget, forgetSlot] at h
  split at h
  · exact h
  · rw [IdCell.compareAndSet] at h
    split at h
    · rw [IdCell.load_pack] at h
      cases h
    · exact h

end Fingers

end RecordRing
