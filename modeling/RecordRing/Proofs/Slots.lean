import Mathlib.Data.Fintype.Basic
import Mathlib.Data.Finset.Card
import RecordRing.Proofs.Fingers

/-!
# Slots as finger tables pack them

A finger table packs each of its slots into one signed word, and a guarded replacement compares
words.  Slots may as well be held as they are, in an array of optional positions.  A call on a table
is answered as on the array that the table shows, and leaves what the array becomes
(`Fingers.Packed.respond_entries`), so no series of calls tells the two apart
(`Fingers.answers_as_slots`).

What each call answers of an array of slots, and leaves of it, is told by `SlotCall.Tells`.

## Implementation notes

A table of arbitrary words need not answer as the slots that it shows: every negative word reads as
an unknown position, and only one of them is recognised.  `Fingers.Packed` excludes the others, and
every operation on a table keeps it so (`Fingers.packed_respond`).
-/

namespace RecordRing

/-- The contents of the slots of a finger table, by index. -/
abbrev Slots := Vector (Option Token) keyBits

/-! ## Calls -/

/-- What can be asked of a finger table. -/
inductive SlotCall : Type where
  /-- The content of a slot. -/
  | get (slot : Fin keyBits)
  /-- A slot is overwritten. -/
  | set (slot : Fin keyBits) (id : Option Token)
  /-- A slot is overwritten if it holds what is expected. -/
  | compareAndSet (slot : Fin keyBits) (expected new : Option Token)
  /-- The routing slots that hold an identifier are cleared. -/
  | forget (id : Token)
  /-- The known slots with their contents, from the highest index down. -/
  | descending
  /-- The content of every slot, by index. -/
  | entries

namespace SlotCall

/-- The type of the answer to a call. -/
@[reducible] def Answer : SlotCall → Type
  | get _ => Option Token
  | set _ _ => Unit
  | compareAndSet _ _ _ => Bool
  | forget _ => Nat
  | descending => List (Fin keyBits × Token)
  | entries => Slots

/-- The answers to a series of calls, and what has become of the table that gives them. -/
def series {Table : Type} (respond : Table → (call : SlotCall) → call.Answer × Table) :
    Table → List SlotCall → List (Σ call : SlotCall, call.Answer) × Table
  | table, [] => ([], table)
  | table, call :: calls =>
    let (answer, next) := respond table call
    let (answers, last) := series respond next calls
    (⟨call, answer⟩ :: answers, last)

end SlotCall

namespace Slots

/-- The routing slots that hold an identifier. -/
def holders (slots : Slots) (id : Token) : Finset (Fin keyBits) :=
  Finset.univ.filter fun slot => slot ≠ Fingers.successorSlot ∧ slots.get slot = some id

/-- The answer of an array of slots to a call, and the slots afterwards. -/
def respond (slots : Slots) : (call : SlotCall) → call.Answer × Slots
  | .get slot => (slots.get slot, slots)
  | .set slot id => ((), slots.set slot id slot.isLt)
  | .compareAndSet slot expected new =>
    if slots.get slot = expected then (true, slots.set slot new slot.isLt) else (false, slots)
  | .forget id =>
    ((slots.holders id).card,
      Vector.ofFn fun slot => if slot ∈ slots.holders id then none else slots.get slot)
  | .descending =>
    ((List.finRange keyBits).reverse.filterMap fun slot => (slots.get slot).map fun id => (slot, id),
      slots)
  | .entries => (slots, slots)

end Slots

/-- What a call answers of an array of slots and leaves of it. -/
def SlotCall.Tells (slots : Slots) : (call : SlotCall) → call.Answer → Slots → Prop
  | .get slot, content, next => content = slots.get slot ∧ next = slots
  | .set slot id, _, next => ∀ other, next.get other = if slot = other then id else slots.get other
  | .compareAndSet slot expected new, swapped, next =>
    (swapped = true ↔ slots.get slot = expected) ∧
      ∀ other, next.get other = if swapped = true ∧ slot = other then new else slots.get other
  | .forget id, count, next =>
    count = (slots.holders id).card ∧
      (∀ slot, next.get slot = if slot ∈ slots.holders id then none else slots.get slot) ∧
      next.get Fingers.successorSlot = slots.get Fingers.successorSlot
  | .descending, listed, next =>
    listed.Pairwise (fun before after => after.1 < before.1) ∧
      (∀ slot id, (slot, id) ∈ listed ↔ slots.get slot = some id) ∧ next = slots
  | .entries, contents, next => contents = slots ∧ next = slots

namespace Slots

variable {slots : Slots} {slot : Fin keyBits} {id : Token}

theorem mem_holders :
    slot ∈ slots.holders id ↔ slot ≠ Fingers.successorSlot ∧ slots.get slot = some id := by
  rw [holders, Finset.mem_filter]
  exact and_iff_right (Finset.mem_univ slot)

end Slots

namespace Fingers

variable {table : Fingers} {slot other : Fin keyBits} {expected new : Option Token} {id : Token}

/-! ## Operations on the slots that are shown -/

theorem get_entries (table : Fingers) (slot : Fin keyBits) :
    table.entries.get slot = table.get slot :=
  getElem_entries table slot

theorem entries_empty : empty.entries = Vector.replicate keyBits none := by
  rw [entries, empty, Vector.map_replicate]
  rfl

theorem entries_set (table : Fingers) (slot : Fin keyBits) (id : Option Token) :
    (table.set slot id).entries = table.entries.set slot id slot.isLt := by
  rw [entries, set, Vector.map_set, IdCell.load_pack]
  rfl

/-- The slots that are cleared when an identifier is forgotten are the routing slots that hold it. -/
theorem forgetSlot_fst_iff :
    (table.forgetSlot id slot).1 = true ↔ slot ∈ Slots.holders table.entries id := by
  rw [Slots.mem_holders, get_entries, forgetSlot]
  split
  · rename_i hfirst
    exact iff_of_false Bool.false_ne_true fun h => h.1 hfirst
  · rename_i hrouting
    rw [and_iff_right hrouting]
    exact ⟨fun h => (get_of_compareAndSet h).1, fun h => compareAndSet_of_get h⟩

theorem forget_fst (table : Fingers) (id : Token) :
    (table.forget id).1 = (Slots.holders table.entries id).card := by
  calc
    (table.forget id).1
        = (List.finRange keyBits).countP fun slot => (table.forgetSlot id slot).1 := rfl
    _ = (List.finRange keyBits).countP fun slot => slot ∈ Slots.holders table.entries id := by
      apply List.countP_congr
      intro slot _
      rw [decide_eq_true_iff]
      exact forgetSlot_fst_iff
    _ = (Finset.univ.filter fun slot => slot ∈ Slots.holders table.entries id).card :=
      List.countP_eq_length_filter
    _ = (Slots.holders table.entries id).card := by rw [Finset.filter_univ_mem]

theorem get_entries_forget (table : Fingers) (id : Token) (slot : Fin keyBits) :
    (table.forget id).2.entries.get slot =
      if slot ∈ Slots.holders table.entries id then none else table.entries.get slot := by
  rw [get_entries, get_entries]
  by_cases hrouting : slot = successorSlot
  · rw [if_neg fun h => (Slots.mem_holders.1 h).1 hrouting, hrouting]
    exact successor_forget table id
  · simp only [Slots.mem_holders, get_entries, hrouting, ne_eq, not_false_eq_true, true_and]
    exact get_forget_of_ne hrouting

theorem descending_eq (table : Fingers) :
    table.descending = (List.finRange keyBits).reverse.filterMap fun slot =>
      (table.entries.get slot).map fun id => (slot, id) := by
  simp only [get_entries, List.filterMap_reverse]
  rfl

/-! ## Series of calls -/

/-- The answer of a finger table to a call, and the table afterwards. -/
def respond (table : Fingers) : (call : SlotCall) → call.Answer × Fingers
  | .get slot => (table.get slot, table)
  | .set slot id => ((), table.set slot id)
  | .compareAndSet slot expected new => table.compareAndSet slot expected new
  | .forget id => table.forget id
  | .descending => (table.descending, table)
  | .entries => (table.entries, table)

theorem packed_respond (packed : table.Packed) (call : SlotCall) :
    (table.respond call).2.Packed := by
  cases call with
  | get slot => exact packed
  | set slot id => exact packed.set slot id
  | compareAndSet slot expected new => exact packed.compareAndSet slot expected new
  | forget id => exact packed.forget id
  | descending => exact packed
  | entries => exact packed

/-- The slots that a table shows give the answer that the table gives, and become those that it shows
afterwards. -/
theorem Packed.respond_entries (packed : table.Packed) (call : SlotCall) :
    Slots.respond table.entries call =
      ((table.respond call).1, (table.respond call).2.entries) := by
  cases call with
  | get slot => simp only [Slots.respond, Fingers.respond, get_entries]
  | set slot id => simp only [Slots.respond, Fingers.respond, entries_set]
  | compareAndSet slot expected new =>
      simp only [Slots.respond, Fingers.respond, packed.compareAndSet_eq, get_entries]
      split
      · rw [entries_set]
      · rfl
  | forget id =>
      apply Prod.ext
      · exact (forget_fst table id).symm
      · apply Vector.ext
        intro index hindex
        simp only [Slots.respond, Vector.getElem_ofFn]
        exact (get_entries_forget table id ⟨index, hindex⟩).symm
  | descending => simp only [Slots.respond, Fingers.respond, descending_eq]
  | entries => rfl

/-- What a table answers, and what its slots become, are as told of the slots that it shows. -/
theorem Packed.tells_respond (packed : table.Packed) (call : SlotCall) :
    call.Tells table.entries (table.respond call).1 (table.respond call).2.entries := by
  cases call with
  | get slot => exact ⟨(get_entries table slot).symm, rfl⟩
  | set slot id =>
      intro other
      simp only [Fingers.respond, get_entries]
      exact get_set table slot other id
  | compareAndSet slot expected new =>
      simp only [SlotCall.Tells, Fingers.respond, packed.compareAndSet_eq, get_entries]
      split
      · rename_i hexpected
        simp [hexpected, get_set]
      · rename_i hother
        simp [hother]
  | forget id =>
      refine ⟨forget_fst table id, get_entries_forget table id, ?_⟩
      simp only [Fingers.respond, get_entries]
      exact successor_forget table id
  | descending =>
      refine ⟨pairwise_descending table, ?_, rfl⟩
      intro slot id
      rw [get_entries]
      exact mem_descending
  | entries => exact ⟨rfl, rfl⟩

/-- Over a series of calls a table answers as the slots that it shows. -/
theorem Packed.series (packed : table.Packed) (calls : List SlotCall) :
    (SlotCall.series respond table calls).2.Packed ∧
      (SlotCall.series respond table calls).1 =
        (SlotCall.series Slots.respond table.entries calls).1 := by
  induction calls generalizing table with
  | nil => exact ⟨packed, rfl⟩
  | cons call calls ih =>
      -- the table that the first call leaves is packed, and it shows what the array has become
      obtain ⟨hlast, hanswers⟩ := ih (packed_respond packed call)
      refine ⟨hlast, ?_⟩
      simp only [SlotCall.series, packed.respond_entries call, hanswers]

/-- The packing of a finger table does not show.  Whatever series of calls it has answered from the
empty table on, its answers are those of an array of 63 optional positions, and so is the answer to
the next call: a guarded replacement takes place if the slot holds the optional position that is
expected, an identifier is forgotten by exactly the routing slots that hold it, whose number is the
answer, and exactly the known slots are listed, from the highest index down. -/
theorem answers_as_slots (calls : List SlotCall) (call : SlotCall) :
    (SlotCall.series respond empty calls).1 =
      (SlotCall.series Slots.respond (Vector.replicate keyBits none) calls).1 ∧
    let table := (SlotCall.series respond empty calls).2
    call.Tells table.entries (table.respond call).1 (table.respond call).2.entries := by
  obtain ⟨hpacked, hanswers⟩ := packed_empty.series calls
  rw [entries_empty] at hanswers
  exact ⟨hanswers, hpacked.tells_respond call⟩

/-- The largest position is not taken for an unknown one, and the successor is not forgotten. -/
example :
    let slot : Fin keyBits := ⟨62, by decide⟩
    let table := (SlotCall.series respond empty [.set successorSlot (some .last),
      .set slot (some .last), .compareAndSet slot none (some .first), .forget .last]).2
    (table.successor, table.get slot) = (some .last, none) := by
  decide

end Fingers

end RecordRing
