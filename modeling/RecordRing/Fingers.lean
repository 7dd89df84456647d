import RecordRing.IdCell

/-!
# Finger tables

A finger table has one slot for each bit of a position.  Slot `i` of a node holds the node's current
estimate of the owner of the position `2 ^ i` steps clockwise of it; slot 0 is its successor and the
other slots are the routing slots.

The main statements describe each operation slot by slot: `get_set` for a write, and `get_forget`
and `successor_forget` for the removal of an identifier from the routing slots.
-/

namespace RecordRing

/-- A table of 63 packed slots. -/
structure Fingers where
  /-- The slots by index. -/
  cells : Vector IdCell keyBits
  deriving DecidableEq

namespace Fingers

/-- The slot of a number, if the table has it. -/
def slot? (index : Nat) : Except RangeError (Fin keyBits) :=
  if h : index < keyBits then .ok ⟨index, h⟩ else .error (.slotIndex index)

/-- The slot of the successor. -/
def successorSlot : Fin keyBits := ⟨0, by decide⟩

/-- The table with every slot unknown. -/
def empty : Fingers := ⟨Vector.replicate keyBits IdCell.unknown⟩

instance : Inhabited Fingers := ⟨empty⟩

/-- The number of slots. -/
def size (table : Fingers) : Nat := table.cells.toArray.size

/-- The content of a slot. -/
def get (table : Fingers) (slot : Fin keyBits) : Option Token := table.cells[slot].load

/-- The table with a slot overwritten. -/
def set (table : Fingers) (slot : Fin keyBits) (id : Option Token) : Fingers :=
  ⟨table.cells.set slot (IdCell.pack id)⟩

/-- Overwrites a slot if it holds the expected content; the flag says whether it did. -/
def compareAndSet (table : Fingers) (slot : Fin keyBits) (expected new : Option Token) :
    Bool × Fingers :=
  let (swapped, cell) := table.cells[slot].compareAndSet expected new
  (swapped, ⟨table.cells.set slot cell⟩)

/-- The successor, which is the content of slot 0. -/
def successor (table : Fingers) : Option Token := table.get successorSlot

/-- The content of every slot, by index. -/
def entries (table : Fingers) : Vector (Option Token) keyBits := table.cells.map IdCell.load

/-- The known slots with their contents, by index. -/
def known (table : Fingers) : List (Fin keyBits × Token) :=
  (List.finRange keyBits).filterMap fun slot => (table.get slot).map fun id => (slot, id)

/-- The known slots with their contents, from the highest index down. -/
def descending (table : Fingers) : List (Fin keyBits × Token) := table.known.reverse

/-- What becomes of a slot when `id` is forgotten: a routing slot that holds `id` is cleared. -/
def forgetSlot (table : Fingers) (id : Token) (slot : Fin keyBits) : Bool × IdCell :=
  if slot = successorSlot then (false, table.cells[slot])
  else table.cells[slot].compareAndSet (some id) none

/-- Clears every routing slot that holds `id` and counts the slots cleared.  The successor is only
ever replaced, so slot 0 keeps its content. -/
def forget (table : Fingers) (id : Token) : Nat × Fingers :=
  ((List.finRange keyBits).countP fun slot => (table.forgetSlot id slot).1,
    ⟨Vector.ofFn fun slot => (table.forgetSlot id slot).2⟩)

@[simp] theorem get_empty (slot : Fin keyBits) : empty.get slot = none := by
  simp [empty, get, IdCell.unknown]

@[simp] theorem getElem_entries (table : Fingers) (slot : Fin keyBits) :
    table.entries[slot] = table.get slot := by
  simp [entries, get]

theorem get_set (table : Fingers) (slot other : Fin keyBits) (id : Option Token) :
    (table.set slot id).get other = if slot = other then id else table.get other := by
  simp only [get, set, Fin.getElem_fin, Vector.getElem_set, Fin.ext_iff]
  split <;> simp

theorem get_forget (table : Fingers) (id : Token) (slot : Fin keyBits) :
    (table.forget id).2.get slot = (table.forgetSlot id slot).2.load := by
  simp [forget, get]

@[simp] theorem successor_forget (table : Fingers) (id : Token) :
    (table.forget id).2.successor = table.successor := by
  rw [successor, get_forget]
  simp [forgetSlot, successor, get]

/-- The table as inspection output shows it. -/
def inspect (table : Fingers) : String :=
  "[" ++ ", ".intercalate (table.entries.toList.map Token.inspect?) ++ "]"

end Fingers

end RecordRing
