import RecordRing.Proofs.CircularOrder
import RecordRing.Proofs.Handover.Single
import RecordRing.Proofs.Ring.Links

/-!
# Joins of a ring with records

A run starts from a closed ring of stable nodes at rest, in which every record lies at the owner of
its key and nowhere else (`Opening`).  Then any number of further nodes join, possibly at the same
time, and no node leaves.

As long as no client works on records (`joining`), no record is lost, altered or invented, and none has
two copies unless a task is about to delete one of them (`Opening.exactly_once`).  If clients also
read, update and delete records at any node but create none (`serving`), every record that they have
not removed has one copy, with all of their updates (`Opening.one_copy`).
-/

namespace RecordRing

/-- A request that does no more than to ask a node where others are. -/
def Request.inquires {shape : Shape} : Request shape → Bool
  | .findSuccessor _ => true
  | .closestPrecedingFinger _ => true
  | .successor => true
  | .predecessor => true
  | _ => false

/-- The rules of a run in which registered nodes without records join the nodes of a ring, and in
which every node may repair its pointers and be asked for them. -/
def joining (ids : List Token) : Rules where
  Welcomes member := ∀ storage key, member.node.store.find? storage key = none
  Permits net handle _ operation :=
    match operation with
    | .join _ => ∃ id, net.idAt? handle = some id ∧ id ∉ ids ∧ net.Registered id
    | .stabilize => True
    | .fixFingers => True
    | .refreshFingers => True
    | .fixPredecessor => True
    | .ringMembers => True
    | .serve request => request.inquires = true
    | _ => False

/-- A stable member of a closed ring with nothing left to do. -/
structure Member.Rested (ids : List Token) (member : Member) : Prop where
  successor : member.node.successor = some (nextOf ids member.node.id)
  predecessor : ∀ before, member.node.predecessor = some before →
    before = previousOf ids member.node.id ∧ before ≠ member.node.id
  stable : member.node.lifecycle = .stable
  pending : member.node.pending = []
  cursor : 1 ≤ member.node.cursor
  locks : ∀ id, member.node.locks.find? id = none
  clear : member.link.faults = []
  silent : member.outbox = [] ∧ member.sending = false

/-- The rules of a run in which, besides, clients make certain calls on records at any node. -/
def serving (ids : List Token) (clients : Clients) : Rules where
  Welcomes member := (joining ids).Welcomes member
  Permits net handle _ operation :=
    match operation with
    | .serve (.record call) => clients call
    | operation => (joining ids).Permits net handle operation

theorem keep_joining (ids : List Token) (id : LockId) : (joining ids).Keep (fun _ => False) id where
  attend {net handle shape operation} permitted := by
    cases operation with
    | serve request => cases request <;> first | rfl | cases permitted
    | _ => first | rfl | cases permitted
  unmade _ _ := not_false
  empty welcome := welcome id.storage id.key

theorem attend_serving (ids : List Token) {clients : Clients} :
    (serving ids clients).Attend clients := by
  intro net handle shape operation permitted
  cases operation with
  | serve request => cases request <;> first | exact permitted | rfl
  | _ => first | rfl | cases permitted

theorem keep_serving (ids : List Token) {clients : Clients} {id : LockId}
    (unmade : ∀ content version, ¬ clients (.create id.storage id.key content version)) :
    (serving ids clients).Keep clients id where
  attend := attend_serving ids
  unmade := unmade
  empty welcome := welcome id.storage id.key

namespace Network

variable {ids : List Token} {net after : Network} {handle : Handle} {id : LockId} {stored : Stored}

/-- A closed ring of stable nodes at rest, with every record at the owner of its key. -/
structure Opening (ids : List Token) (net : Network) : Prop where
  ascending : Ascending ids
  census : ∀ id, id ∈ ids ↔ ∃ handle, net.idAt? handle = some id
  listed : ∀ (id : Token) handle, net.directory[id]? = some handle ↔ net.idAt? handle = some id
  members : ∀ handle, net.script? handle = none
  rested : ∀ handle member, net.member? handle = some member → member.Rested ids
  tasks : ∀ number : Nat, net.tasks[number]? = none
  owned : ∀ handle id stored, net.stored? handle id = some stored →
    net.idAt? handle = some (ownerOf ids id.key)

namespace Opening

/-- The record at the owner of its key. -/
def origin (ids : List Token) (net : Network) (id : LockId) : Option Stored :=
  net.directory[ownerOf ids id.key]?.bind fun handle => net.stored? handle id

theorem origin_eq (opening : net.Opening ids) (found : net.stored? handle id = some stored) :
    origin ids net id = some stored := by
  rw [origin, (opening.listed _ _).2 (opening.owned _ _ _ found), Option.bind_some, found]

theorem unlocked (opening : net.Opening ids) (handle : Handle) (id : LockId) :
    net.lock? handle id = none := by
  cases found : net.member? handle with
  | none => rw [lock?, nodeAt?, found]; rfl
  | some member =>
      rw [lock?_of_nodeAt? (nodeAt?_of_member? found)]
      exact (opening.rested handle member found).locks id

theorem kept (opening : net.Opening ids) (clients : Clients) (id : LockId) :
    net.Kept clients id (origin ids net id) [] := by
  refine Kept.of_idle opening.members opening.tasks opening.unlocked
    (fun handle stored found => opening.origin_eq found) (fun stored found => ?_) ?_
  · obtain ⟨handle, -, hstored⟩ := Option.bind_eq_some_iff.1 found
    exact ⟨handle, hstored⟩
  · intro first second one two hone htwo
    have hfirst := (opening.listed _ _).2 (opening.owned _ _ _ hone)
    have hsecond := (opening.listed _ _).2 (opening.owned _ _ _ htwo)
    exact Option.some.inj (hfirst.symm.trans hsecond)

theorem not_doomed (still : ∀ (number : Nat) task, net.tasks[number]? = some task →
    task.doomed? = none) (handle : Handle) (id : LockId) : ¬ net.Doomed handle id := by
  rintro ⟨number, hdoomed⟩
  obtain ⟨task, htask, hfate⟩ := Option.bind_eq_some_iff.1 hdoomed
  rw [still number task htask] at hfate
  cases hfate

/-- Every record is where it was or elsewhere, once and unaltered, and no record is new. -/
theorem exactly_once (opening : net.Opening ids) (run : Run (joining ids) net after)
    (still : ∀ (number : Nat) task, after.tasks[number]? = some task → task.doomed? = none) :
    (∀ handle id stored, net.stored? handle id = some stored →
      ∃ holder, after.stored? holder id = some stored ∧
        ∀ other twin, after.stored? other id = some twin → other = holder) ∧
    ∀ holder id stored, after.stored? holder id = some stored →
      ∃ handle, net.stored? handle id = some stored := by
  obtain ⟨history, htrace⟩ := Trace.of_run run
  have hkept : ∀ id, after.Sole id (origin ids net id) := by
    intro id
    have h : after.Kept (fun _ => False) id (origin ids net id) history :=
      (opening.kept (fun _ => False) id).trace (keep_joining ids id) htrace
    have hsole := h.sole
    rwa [ledger_spares (h.idle fun asked => asked.elim)] at hsole
  have hstays := not_doomed still
  constructor
  · intro handle id stored found
    obtain ⟨holder, hholder, -⟩ := (hkept id).lasts (opening.origin_eq found)
    exact ⟨holder, hholder, fun other twin htwin =>
      (hkept id).once htwin hholder (hstays other id) (hstays holder id)⟩
  · intro holder id stored found
    obtain ⟨handle, -, hstored⟩ :=
      Option.bind_eq_some_iff.1 ((hkept id).intact found (hstays holder id))
    exact ⟨handle, hstored⟩

/-- A record that clients read, update and delete while nodes join is stored once, as the clients'
calls have left it, and nowhere once it has been removed. -/
theorem one_copy (opening : net.Opening ids) {clients : Clients} {history : List Event}
    (unmade : ∀ content version, ¬ clients (.create id.storage id.key content version))
    (trace : Trace (serving ids clients) net history after)
    (still : ∀ (number : Nat) task, after.tasks[number]? = some task → task.doomed? = none)
    (found : net.stored? handle id = some stored) :
    (∀ value, ledger id (some stored) history = some value →
      ∃ holder, after.stored? holder id = some value ∧
        ∀ other, other ≠ holder → after.stored? other id = none) ∧
    (ledger id (some stored) history = none → ∀ other, after.stored? other id = none) := by
  have hkept : after.Kept clients id (origin ids net id) history :=
    (opening.kept clients id).trace (keep_serving ids unmade) trace
  rw [opening.origin_eq found] at hkept
  have hstays := not_doomed still
  exact ⟨fun value lasts => hkept.stored_once (fun other => hstays other id) lasts,
    fun removed other => hkept.stored?_of_removed removed (hstays other id)⟩

end Opening

end Network

end RecordRing
