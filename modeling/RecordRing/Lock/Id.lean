import RecordRing.Token
import Std.Data.TreeMap

/-!
# Names of record locks

A lock is named by the storage and the key of its record.  Those who want it are known by tickets, and
each of them waits up to a deadline.
-/

namespace RecordRing

/-- The name of a lock: one record of one storage. -/
structure LockId where
  /-- The storage. -/
  storage : String
  /-- The record's key. -/
  key : Token
  deriving DecidableEq

namespace LockId

/-- A lock's name as a pair. -/
def pair (id : LockId) : String × Token := (id.storage, id.key)

/-- The order of pairs of a storage and a key: first by storage, then by key. -/
def comparePairs : String × Token → String × Token → Ordering :=
  compareLex (compareOn Prod.fst) (compareOn Prod.snd)

instance : Std.TransCmp comparePairs := inferInstanceAs (Std.TransCmp (compareLex _ _))

instance : Ord LockId := ⟨fun a b => comparePairs a.pair b.pair⟩

theorem compare_def (a b : LockId) : compare a b = comparePairs a.pair b.pair := rfl

instance : Std.TransOrd LockId where
  eq_swap {a b} := @Std.OrientedCmp.eq_swap _ comparePairs _ a.pair b.pair
  isLE_trans {a b c} := @Std.TransCmp.isLE_trans _ comparePairs _ a.pair b.pair c.pair

instance : Std.LawfulEqOrd LockId where
  compare_self {a} := @Std.ReflCmp.compare_self _ comparePairs _ a.pair
  eq_of_compare {a b} h := by
    simp only [compare_def, comparePairs, compareLex_eq_eq, compareOn, pair,
      Std.LawfulEqOrd.compare_eq_iff_eq] at h
    cases a; cases b; simp_all

end LockId

/-- One that waits for a lock. -/
structure Waiter where
  /-- The ticket by which the waiter is known. -/
  ticket : Nat
  /-- The moment at which the waiter gives up. -/
  deadline : Nat
  deriving DecidableEq

/-- A lock that is held. -/
structure HeldLock where
  /-- The ticket of the holder. -/
  holder : Nat
  /-- Those that wait, in the order in which they started to. -/
  waiters : List Waiter
  deriving DecidableEq

/-- What becomes of an attempt to take a lock. -/
inductive LockGrant where
  /-- The lock was free. -/
  | granted
  /-- The lock is held, and the ticket waits until its deadline. -/
  | queued
  /-- The lock is held, and the deadline has come. -/
  | refused
  deriving DecidableEq

end RecordRing
