import RecordRing.Lock.Sound

/-!
# Record locks

Every operation that reads and writes a record holds the record's lock for its whole duration.  Holders
and waiters are known by tickets; a freed lock goes to the waiter that has waited longest, and a waiter
gives up at its deadline.

A lock table is a registry of locks in which the references are in balance.  All that can be told from
outside is who holds a lock and who waits for it (`LockTable.find?`): a lock that is free is granted
(`acquire_free`), one that is held is awaited or refused (`acquire_held`), and a release leaves nothing
behind when nobody waits and otherwise the first waiter as the holder before the others
(`find?_release`).
-/

namespace RecordRing

/-- The locks that are held or awaited. -/
structure LockTable where
  /-- The mutexes and the references to them. -/
  registry : LockRegistry
  /-- The references are in balance. -/
  sound : registry.Sound

namespace LockTable

/-- The table without held locks. -/
def empty : LockTable := ⟨LockRegistry.empty, LockRegistry.Sound.empty⟩

instance : Inhabited LockTable := ⟨empty⟩

/-- The view of a table: who holds a lock and who waits for it. -/
def find? (table : LockTable) (id : LockId) : Option HeldLock := table.registry.find? id

/-- The number of locks that are held or awaited. -/
def size (table : LockTable) : Nat := table.registry.entries.size

/-- Whether no lock is held or awaited. -/
def isEmpty (table : LockTable) : Bool := table.registry.entries.isEmpty

theorem acquire_sound (table : LockTable) (id : LockId) (now : Nat) (waiter : Waiter) :
    (table.registry.acquire id now waiter).2.Sound := by
  cases h : table.registry.find? id with
  | none => exact (table.sound.acquire_free h now waiter).2.1
  | some lock => exact (table.sound.acquire_held h now waiter).1

/-- Takes a free lock, or waits for a held one unless the deadline has come. -/
def acquire (table : LockTable) (id : LockId) (now : Nat) (waiter : Waiter) :
    LockGrant × LockTable :=
  ((table.registry.acquire id now waiter).1,
    ⟨(table.registry.acquire id now waiter).2, table.acquire_sound id now waiter⟩)

/-- Drops the guard of a lock.  The ticket of the one that gets the lock is returned. -/
def release (table : LockTable) (id : LockId) : Option Nat × LockTable :=
  match h : table.registry.guards.find? (MutexRef.isFor id) with
  | none => (none, table)
  | some guard =>
    ((table.registry.release guard).1,
      ⟨(table.registry.release guard).2, (table.sound.release (List.mem_of_find?_eq_some h)).1⟩)

/-- Lets the attempt of a ticket give up that waits for a lock. -/
def withdraw (table : LockTable) (id : LockId) (ticket : Nat) : LockTable :=
  match h : table.registry.waiting.find? fun ref => ref.isFor id && ref.ticket = ticket with
  | none => table
  | some ref =>
    ⟨table.registry.giveUp ref, (table.sound.giveUp (List.mem_of_find?_eq_some h)).1⟩

/-- The waiters whose deadline has come, with the locks that they wait for. -/
def due (table : LockTable) (now : Nat) : List (LockId × Nat) :=
  table.registry.entries.toList.flatMap fun (id, address) =>
    ((table.registry.mutex address).waiters.filter fun waiter => waiter.deadline ≤ now).map
      fun waiter => (id, waiter.ticket)

/-- Lets every waiter whose deadline has come give up. -/
def expire (table : LockTable) (now : Nat) : LockTable :=
  (table.due now).foldl (fun left (id, ticket) => left.withdraw id ticket) table

/-! ## The view of a table -/

variable {table : LockTable} {id : LockId} {lock : HeldLock}

theorem find?_empty (id : LockId) : empty.find? id = none := rfl

theorem acquire_free (free : table.find? id = none) (now : Nat) (waiter : Waiter) :
    (table.acquire id now waiter).1 = .granted ∧
      ∀ other, (table.acquire id now waiter).2.find? other =
        if id = other then some ⟨waiter.ticket, []⟩ else table.find? other :=
  ⟨(table.sound.acquire_free free now waiter).1, (table.sound.acquire_free free now waiter).2.2⟩

/-- A held lock is refused, and the table looks as before, or it is awaited after all others. -/
theorem acquire_held (held : table.find? id = some lock) (now : Nat) (waiter : Waiter) :
    if waiter.deadline ≤ now then
      (table.acquire id now waiter).1 = .refused ∧
        ∀ other, (table.acquire id now waiter).2.find? other = table.find? other
    else
      (table.acquire id now waiter).1 = .queued ∧
        ∀ other, (table.acquire id now waiter).2.find? other =
          if id = other then some { lock with waiters := lock.waiters ++ [waiter] }
          else table.find? other :=
  (table.sound.acquire_held held now waiter).2

/-- What a release does to a lock. -/
theorem release_spec (table : LockTable) (id : LockId) :
    (table.release id).1 =
        ((table.find? id).bind fun lock => lock.waiters.head?).map Waiter.ticket ∧
      ∀ other, (table.release id).2.find? other =
        if id = other then
          (table.find? id).bind fun lock =>
            lock.waiters.head?.map fun next => ⟨next.ticket, lock.waiters.tail⟩
        else table.find? other := by
  simp only [release]
  split
  · rename_i free
    have hnone : table.find? id = none := by
      rw [find?, LockRegistry.find?, LockRegistry.held, List.head?_filter, free]
      rfl
    rw [hnone]
    refine ⟨rfl, fun other => ?_⟩
    split
    · rename_i same
      rw [← same]
      exact hnone
    · rfl
  · rename_i guard found
    obtain rfl : guard.id = id := LockRegistry.isFor_iff.1 (List.find?_some found)
    exact (table.sound.release (List.mem_of_find?_eq_some found)).2

theorem find?_release (table : LockTable) (id other : LockId) :
    (table.release id).2.find? other =
      if id = other then
        match table.find? id with
        | some ⟨_, next :: rest⟩ => some ⟨next.ticket, rest⟩
        | _ => none
      else table.find? other := by
  rw [(release_spec table id).2]
  rcases table.find? id with _ | ⟨_, _ | _⟩ <;> rfl

/-- The ticket to which a released lock goes. -/
theorem release_fst (held : table.find? id = some lock) :
    (table.release id).1 = lock.waiters.head?.map Waiter.ticket := by
  rw [(release_spec table id).1, held]
  rfl

theorem eraseP_eq_filter {ticket : Nat} {waiters : List Waiter}
    (distinct : (waiters.map Waiter.ticket).Nodup) :
    (waiters.eraseP fun waiter => waiter.ticket = ticket) =
      waiters.filter fun waiter => waiter.ticket ≠ ticket := by
  induction waiters with
  | nil => rfl
  | cons first rest ih =>
      rw [List.map_cons, List.nodup_cons] at distinct
      by_cases h : first.ticket = ticket
      · have hrest : ∀ waiter ∈ rest, waiter.ticket ≠ ticket := by
          rintro waiter hwaiter rfl
          exact distinct.1 (h ▸ List.mem_map_of_mem hwaiter)
        rw [List.eraseP_cons_of_pos (by simp [h]), List.filter_cons_of_neg (by simp [h]),
          List.filter_eq_self.2 fun waiter hwaiter => decide_eq_true (hrest waiter hwaiter)]
      · rw [List.eraseP_cons_of_neg (by simp [h]), List.filter_cons_of_pos (by simp [h]),
          ih distinct.2]

theorem find?_withdraw (table : LockTable) (id other : LockId) (ticket : Nat) :
    (table.withdraw id ticket).find? other =
      if id = other then (table.find? id).map fun held =>
        { held with waiters := held.waiters.eraseP fun waiter => waiter.ticket = ticket }
      else table.find? other := by
  simp only [withdraw]
  split
  · rename_i nobody
    split
    · rename_i same
      subst same
      cases h : table.find? id with
      | none => rfl
      | some lock =>
          have hstays : ∀ waiter ∈ lock.waiters, ¬decide (waiter.ticket = ticket) = true := by
            intro waiter hwaiter same
            have hmem : waiter.ticket ∈ (table.registry.awaited id).map MutexRef.ticket :=
              table.sound.queue_eq h ▸ List.mem_map_of_mem hwaiter
            obtain ⟨ref, href, hticket⟩ := List.mem_map.1 hmem
            obtain ⟨hwaits, hid⟩ := List.mem_filter.1 href
            refine List.find?_eq_none.1 nobody ref hwaits ?_
            rw [hid, hticket, same]
            rfl
          rw [Option.map_some, List.eraseP_of_forall_not hstays]
    · rfl
  · rename_i ref found
    have href := List.find?_some found
    rw [Bool.and_eq_true] at href
    obtain rfl : ref.id = id := LockRegistry.isFor_iff.1 href.1
    obtain rfl : ref.ticket = ticket := of_decide_eq_true href.2
    exact (table.sound.giveUp (List.mem_of_find?_eq_some found)).2 other

/-- A ticket that occurs once in a queue is taken out as one might expect. -/
theorem find?_withdraw_of_nodup (distinct : ∀ lock, table.find? id = some lock →
    (lock.waiters.map Waiter.ticket).Nodup) (other : LockId) (ticket : Nat) :
    (table.withdraw id ticket).find? other =
      if id = other then (table.find? id).map fun held =>
        { held with waiters := held.waiters.filter fun waiter => waiter.ticket ≠ ticket }
      else table.find? other := by
  rw [find?_withdraw]
  cases h : table.find? id with
  | none => rfl
  | some lock => rw [Option.map_some, Option.map_some, eraseP_eq_filter (distinct lock h)]

theorem mem_due {moment ticket : Nat} :
    (id, ticket) ∈ table.due moment ↔
      ∃ lock, table.find? id = some lock ∧
        ∃ waiter ∈ lock.waiters, waiter.deadline ≤ moment ∧ waiter.ticket = ticket := by
  simp only [due, List.mem_flatMap, List.mem_map, List.mem_filter, decide_eq_true_eq, Prod.exists,
    Prod.mk.injEq]
  constructor
  · rintro ⟨other, address, hentry, waiter, ⟨hwaiter, hlate⟩, rfl, hticket⟩
    obtain ⟨lock, hfound, hwaiters⟩ :=
      table.sound.find?_of_entry (Std.TreeMap.mem_toList_iff_getElem?_eq_some.1 hentry)
    exact ⟨lock, hfound, waiter, hwaiters ▸ hwaiter, hlate, hticket⟩
  · rintro ⟨lock, hfound, waiter, hwaiter, hlate, hticket⟩
    obtain ⟨guard, -, -, -, -, hentry, -, hwaiters⟩ := table.sound.held_of_find? hfound
    exact ⟨id, guard.address, Std.TreeMap.mem_toList_iff_getElem?_eq_some.2 hentry, waiter,
      ⟨hwaiters ▸ hwaiter, hlate⟩, rfl, hticket⟩

/-- The names in a table are those of the locks that are held. -/
theorem mem_entries : id ∈ table.registry.entries ↔ (table.find? id).isSome := by
  rw [Std.TreeMap.mem_iff_isSome_getElem?, Option.isSome_iff_ne_none, Option.isSome_iff_ne_none]
  exact not_congr table.sound.find?_eq_none.symm

theorem isEmpty_iff : table.isEmpty = true ↔ ∀ id, table.find? id = none := by
  rw [isEmpty, Std.TreeMap.isEmpty_iff_forall_not_mem]
  exact forall_congr' fun id => by
    rw [mem_entries, Bool.not_eq_true, Option.isSome_eq_false_iff, Option.isNone_iff_eq_none]

end LockTable

end RecordRing
