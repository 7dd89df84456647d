import RecordRing.Failure
import RecordRing.Lock

/-!
# Parties competing for locks

Named parties take and give back record locks while a clock runs.  Each attempt to take a lock has a
ticket of its own, and it waits, or ends with the lock or without it.  A party stands where the
latest of its attempts to end has left it; when a later one ends, a lock that the party holds is
given back.

The locks behave as those of a node do: they are kept in a `LockTable`.

## Implementation notes

A lock that is given back goes to an attempt that waits, and the end of this attempt may give another
lock back.  Every such step uses an attempt up, so the number of attempts bounds them.
-/

namespace RecordRing

/-- How an attempt to take a lock has ended. -/
inductive Standing where
  /-- The lock is held. -/
  | held (id : LockId)
  /-- The lock was not free in time. -/
  | gaveUp (failure : Failure)
  deriving DecidableEq

/-- An attempt to take a lock that has not ended. -/
structure Attempt where
  /-- The party that takes the lock. -/
  name : String
  /-- The lock. -/
  id : LockId
  /-- How long the party waits. -/
  timeout : Nat
  /-- The moment at which the party gives up. -/
  deadline : Nat
  deriving DecidableEq

/-- A lock table, a clock, and the attempts of named parties. -/
structure Parties where
  /-- The locks. -/
  table : LockTable
  /-- The present moment, in milliseconds. -/
  now : Nat
  /-- Where each party stands; parties without an attempt that has ended do not stand anywhere. -/
  standings : Std.TreeMap String Standing
  /-- The attempts that wait, by ticket. -/
  attempts : Std.TreeMap Nat Attempt
  /-- The next ticket. -/
  nextTicket : Nat

namespace Parties

/-- No locks are held, and no party has appeared. -/
def empty : Parties := ⟨LockTable.empty, 0, ∅, ∅, 0⟩

instance : Inhabited Parties := ⟨empty⟩

/-- Where a party stands, if one of its attempts has ended. -/
def standing? (parties : Parties) (name : String) : Option Standing := parties.standings[name]?

/-- An attempt that waits and may get a freed lock. -/
def heir? (parties : Parties) (ticket : Option Nat) : Option (Nat × Attempt) :=
  ticket.bind fun number => parties.attempts[number]?.map fun attempt => (number, attempt)

/-- Gives a held lock back, which hands it to its first waiter; a lock that the waiter's party holds
is given back in turn, and so on for at most `depth` waiters. -/
def giveBack : Nat → Parties → LockId → Parties
  | depth, parties, id =>
    let (next, table) := parties.table.release id
    let freed := { parties with table := table }
    match depth, freed.heir? next with
    | depth + 1, some (ticket, attempt) =>
      let granted :=
        { freed with
          attempts := freed.attempts.erase ticket
          standings := freed.standings.insert attempt.name (.held attempt.id) }
      match freed.standing? attempt.name with
      | some (.held other) => granted.giveBack depth other
      | _ => granted
    | _, _ => freed

/-- An attempt of a party ends.  A lock that the party has held until now is given back. -/
def conclude (parties : Parties) (name : String) (standing : Standing) : Parties :=
  let concluded := { parties with standings := parties.standings.insert name standing }
  match parties.standing? name with
  | some (.held id) => concluded.giveBack concluded.attempts.size id
  | _ => concluded

/-- An attempt gives up if it still waits. -/
def giveUp (parties : Parties) (ticket : Nat) : Parties :=
  match parties.attempts[ticket]? with
  | some attempt =>
    { parties with attempts := parties.attempts.erase ticket }.conclude attempt.name
      (.gaveUp (.lockTimeout attempt.id.key attempt.timeout))
  | none => parties

/-- Moves time to a moment, at which the attempts whose deadline has come give up. -/
def moveTo (parties : Parties) (moment : Nat) : Parties :=
  let late := (parties.table.due moment).map Prod.snd
  late.foldl giveUp { parties with table := parties.table.expire moment, now := moment }

/-- The next moment at which an attempt gives up, if one waits. -/
def nextDeadline? (parties : Parties) : Option Nat :=
  (parties.attempts.values.map Attempt.deadline).min?

/-- Lets time pass up to a moment, with at most so many deadlines on the way. -/
def elapse : Nat → Parties → Nat → Parties
  | 0, parties, moment => parties.moveTo moment
  | deadlines + 1, parties, moment =>
    match parties.nextDeadline? with
    | some next =>
      if next < moment then elapse deadlines (parties.moveTo next) moment else parties.moveTo moment
    | none => parties.moveTo moment

/-- Lets some milliseconds pass. -/
def advance (parties : Parties) (millis : Nat) : Parties :=
  parties.elapse parties.attempts.size (parties.now + millis)

/-- Lets time pass up to the end of an attempt, with at most so many deadlines on the way. -/
def await : Nat → Parties → Nat → Parties
  | 0, parties, _ => parties
  | deadlines + 1, parties, ticket =>
    if parties.attempts.contains ticket then
      match parties.nextDeadline? with
      | some next => await deadlines (parties.moveTo next) ticket
      | none => parties
    else parties

/-- A party attempts to take a lock.  Unless it goes on with other things, it waits until it holds
the lock or gives up. -/
def acquire (parties : Parties) (name : String) (id : LockId) (timeout : Nat) (goOn : Bool) :
    Parties :=
  let ticket := parties.nextTicket
  let deadline := parties.now + timeout
  let (grant, table) := parties.table.acquire id parties.now ⟨ticket, deadline⟩
  let attempted := { parties with table := table, nextTicket := ticket + 1 }
  match grant with
  | .granted => attempted.conclude name (.held id)
  | .refused => attempted.conclude name (.gaveUp (.lockTimeout id.key timeout))
  | .queued =>
    let waiting :=
      { attempted with attempts := attempted.attempts.insert ticket ⟨name, id, timeout, deadline⟩ }
    if goOn then waiting else waiting.await waiting.attempts.size ticket

/-- A party gives back the lock it holds; the flag says whether it held one.  A party that gave up
forgets that it did, and attempts that wait go on waiting. -/
def release (parties : Parties) (name : String) : Bool × Parties :=
  let forgetting := { parties with standings := parties.standings.erase name }
  match parties.standing? name with
  | some (.held id) => (true, forgetting.giveBack forgetting.attempts.size id)
  | _ => (false, forgetting)

end Parties

end RecordRing
