import RecordRing.Lock.Id

/-!
# The registry of locks

The lock of a record is a mutex that exists only while someone holds it or waits for it.  The mutexes
lie in a memory, and the entries of a registry lead from names to them.  Whoever wants a lock takes a
reference to the mutex of its name and keeps it, first while it waits and then for as long as its guard
lives; the entry is one more reference.  Every mutex counts the references to it.

A reference is given back when a guard is dropped and when an attempt gives up.  After that the entry
is removed if it is the only reference left: a mutex that is still in use stays where the next attempt
finds it.

## Implementation notes

A guard unlocks the mutex that it has a reference to, whatever the entry of its name leads to by then.
That the two are the same is a matter of the counting.
-/

namespace RecordRing

/-- A mutex to which there are counted references. -/
structure SharedMutex where
  /-- The number of references. -/
  references : Nat
  /-- Whether the mutex is locked. -/
  locked : Bool
  /-- Those that wait for the mutex, in the order in which they started to. -/
  waiters : List Waiter
  deriving DecidableEq

/-- A reference to a mutex, with the name under which it was found. -/
structure MutexRef where
  /-- The ticket of the one that has the reference. -/
  ticket : Nat
  /-- The name. -/
  id : LockId
  /-- The place of the mutex in the memory. -/
  address : Nat
  deriving DecidableEq

namespace MutexRef

/-- Whether a reference was found under a name. -/
def isFor (id : LockId) (ref : MutexRef) : Bool := ref.id = id

/-- Whether a reference is that of a ticket to a mutex. -/
def isAt (address ticket : Nat) (ref : MutexRef) : Bool :=
  ref.address = address && ref.ticket = ticket

end MutexRef

/-- The mutexes of the locks that are held or awaited, and the references to them. -/
structure LockRegistry where
  /-- The place of the mutex of each name. -/
  entries : Std.TreeMap LockId Nat
  /-- The mutexes by their places. -/
  mutexes : Std.TreeMap Nat SharedMutex
  /-- The references of the guards. -/
  guards : List MutexRef
  /-- The references of the attempts that wait, in the order in which they started to. -/
  waiting : List MutexRef
  /-- The place of the next mutex. -/
  nextAddress : Nat

namespace LockRegistry

/-- The registry without locks. -/
def empty : LockRegistry := ⟨∅, ∅, [], [], 0⟩

/-- The mutex at a place; where none lies, there are no references to it. -/
def mutex (registry : LockRegistry) (address : Nat) : SharedMutex :=
  registry.mutexes.getD address ⟨0, false, []⟩

/-- The registry with a mutex overwritten. -/
def setMutex (registry : LockRegistry) (address : Nat) (mutex : SharedMutex) : LockRegistry :=
  { registry with mutexes := registry.mutexes.insert address mutex }

/-! ## References -/

/-- Takes a reference to the mutex of a name.  A name without an entry gets a new mutex. -/
def reference (registry : LockRegistry) (id : LockId) : Nat × LockRegistry :=
  match registry.entries[id]? with
  | some address =>
    let found := registry.mutex address
    (address, registry.setMutex address { found with references := found.references + 1 })
  | none =>
    let address := registry.nextAddress
    (address,
      { registry.setMutex address ⟨2, false, []⟩ with
        entries := registry.entries.insert id address
        nextAddress := address + 1 })

/-- Gives a reference back.  A mutex without references is gone. -/
def dereference (registry : LockRegistry) (address : Nat) : LockRegistry :=
  let left := registry.mutex address
  if left.references ≤ 1 then { registry with mutexes := registry.mutexes.erase address }
  else registry.setMutex address { left with references := left.references - 1 }

/-- Removes the entry of a name if it is the only reference to its mutex. -/
def prune (registry : LockRegistry) (id : LockId) : LockRegistry :=
  match registry.entries[id]? with
  | none => registry
  | some address =>
    if (registry.mutex address).references = 1 then
      { registry with entries := registry.entries.erase id }.dereference address
    else registry

/-- Drops a reference: it is given back, and then the entry of its name has to go if nobody else is
interested in it. -/
def drop (registry : LockRegistry) (ref : MutexRef) : LockRegistry :=
  (registry.dereference ref.address).prune ref.id

/-! ## Mutexes -/

/-- Locks a mutex that is free: the reference becomes that of a guard. -/
def lock (registry : LockRegistry) (ref : MutexRef) : LockRegistry :=
  { registry.setMutex ref.address { registry.mutex ref.address with locked := true } with
    guards := ref :: registry.guards }

/-- Waits for a mutex that is locked. -/
def enqueue (registry : LockRegistry) (ref : MutexRef) (deadline : Nat) : LockRegistry :=
  let busy := registry.mutex ref.address
  { registry.setMutex ref.address
      { busy with waiters := busy.waiters ++ [⟨ref.ticket, deadline⟩] } with
    waiting := registry.waiting ++ [ref] }

/-- Unlocks the mutex of a guard, or hands it to the first of those that wait for it, whose ticket is
returned. -/
def unlock (registry : LockRegistry) (guard : MutexRef) : Option Nat × LockRegistry :=
  let busy := registry.mutex guard.address
  match busy.waiters with
  | [] =>
    (none,
      { registry.setMutex guard.address { busy with locked := false } with
        guards := registry.guards.erase guard })
  | next :: rest =>
    let heir := MutexRef.isAt guard.address next.ticket
    (some next.ticket,
      { registry.setMutex guard.address { busy with waiters := rest } with
        guards := (registry.waiting.find? heir).toList ++ registry.guards.erase guard
        waiting := registry.waiting.eraseP heir })

/-- Waits no longer for a mutex. -/
def cancel (registry : LockRegistry) (ref : MutexRef) : LockRegistry :=
  let busy := registry.mutex ref.address
  { registry.setMutex ref.address
      { busy with waiters := busy.waiters.eraseP fun waiter => waiter.ticket = ref.ticket } with
    waiting := registry.waiting.eraseP (MutexRef.isAt ref.address ref.ticket) }

/-! ## Locks -/

/-- Takes the lock of a name if it is free, or waits for it unless the deadline has come. -/
def acquire (registry : LockRegistry) (id : LockId) (now : Nat) (waiter : Waiter) :
    LockGrant × LockRegistry :=
  let (address, found) := registry.reference id
  let ref : MutexRef := ⟨waiter.ticket, id, address⟩
  if (found.mutex address).locked then
    if waiter.deadline ≤ now then (.refused, found.drop ref)
    else (.queued, found.enqueue ref waiter.deadline)
  else (.granted, found.lock ref)

/-- Drops a guard: its mutex is unlocked before its reference is given back.  The ticket of the one
that gets the lock is returned. -/
def release (registry : LockRegistry) (guard : MutexRef) : Option Nat × LockRegistry :=
  let (next, unlocked) := registry.unlock guard
  (next, unlocked.drop guard)

/-- Lets an attempt give up that waits. -/
def giveUp (registry : LockRegistry) (ref : MutexRef) : LockRegistry :=
  (registry.cancel ref).drop ref

end LockRegistry

end RecordRing
