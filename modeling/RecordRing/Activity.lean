import RecordRing.Call

/-!
# Activities of a node

What a node is told to do and where it waits while doing it, as data.  An `Operation` is something a
node can be told to do.  A node works on an operation until it needs an answer from elsewhere; the
point where it stopped is a `Frame`, which says what shape of answer is awaited and what shape of
answer the operation will give in the end.  An `Action` is what a node does next, and a `Turn` is
everything that one stretch of work does: the node it leaves, its side effects, and the next action.

## Implementation notes

Between two waits a node works without interruption, so all interleaving of operations happens at
the frames.
-/

namespace RecordRing

/-- The end of a link into the network, as a directory hands it out. -/
abbrev Handle := Nat

/-- How a node reaches a peer: itself without any link, and others over the network. -/
inductive Contact where
  /-- The node itself. -/
  | own
  /-- A peer behind a link. -/
  | remote (handle : Handle)
  deriving DecidableEq, Repr

/-- What a node can be told to do, by the shape of the answer. -/
inductive Operation : Shape → Type where
  /-- Answer a peer. -/
  | serve {shape : Shape} (request : Request shape) : Operation shape
  /-- Found a ring of its own. -/
  | found : Operation .nothing
  /-- Join the ring that a known node belongs to. -/
  | join (known : Token) : Operation .nothing
  /-- Repair the successor and tell it about this node. -/
  | stabilize : Operation .nothing
  /-- Refresh the routing slot under the cursor. -/
  | fixFingers : Operation .nothing
  /-- Refresh every routing slot. -/
  | refreshFingers : Operation .nothing
  /-- Forget a predecessor that has left. -/
  | fixPredecessor : Operation .nothing
  /-- List the ring by walking along successors. -/
  | ringMembers : Operation .ids
  /-- Carry out a record call on the own store under the record's lock. -/
  | attempt {shape : Shape} (call : RecordCall shape) : Operation shape
  /-- Move every record that another node owns. -/
  | migrate : Operation .count
  /-- Move one record to its owner. -/
  | transfer (storage : String) (key owner : Token) : Operation .flag
  /-- Move records on behalf of a requester, and report the end to it. -/
  | migrateFor (requester : Token) : Operation .nothing
  /-- Ask a node for the records of this node's interval. -/
  | askForRecords (source : Token) : Operation .nothing
  /-- Tell a requester that its records have moved. -/
  | reportMoved (requester : Token) : Operation .nothing
  deriving DecidableEq

/-- Where an operation waits, by the shape of the answer it waits for and the shape of the answer
that it will give. -/
inductive Frame : Shape → Shape → Type where
  /-- A lookup has asked a peer for its successor. -/
  | successorAsked (key current : Token) (peer : Contact) (hops : Nat) : Frame .knownId .id
  /-- A lookup has asked the same peer for a closer one. -/
  | fingerAsked (key current successor : Token) (hops : Nat) : Frame .id .id
  /-- A joining node has asked who its successor is. -/
  | placeAsked : Frame .id .nothing
  /-- Nothing is left to do but to acknowledge. -/
  | told : Frame .nothing .nothing
  /-- Successor repair has asked the successor for its predecessor. -/
  | predecessorAsked (successor : Token) (peer : Contact) : Frame .knownId .nothing
  /-- Finger repair looks the owner of a slot's start up. -/
  | slotOwnerAsked (slot : Nat) : Frame .id .nothing
  /-- One slot is being refreshed, and so many are left. -/
  | refreshing (left : Nat) : Frame .nothing .nothing
  /-- A walk along the ring has asked its newest member for the next. -/
  | nextAsked (members : List Token) (newest : Token) : Frame .knownId .ids
  /-- A record call waits for the node to have joined. -/
  | joinAwaited {shape : Shape} (call : RecordCall shape) (since : Nat) : Frame .nothing shape
  /-- A record call has been tried on the own store. -/
  | attempted {shape : Shape} (call : RecordCall shape) : Frame shape shape
  /-- A record call that missed has been handed to the previous owner. -/
  | handedOn {shape : Shape} (call : RecordCall shape) : Frame shape shape
  /-- A record call waits for the record's lock. -/
  | lockAwaited {shape : Shape} (call : RecordCall shape) : Frame .nothing shape
  /-- A record call is with the own store, under the record's lock. -/
  | performed {shape : Shape} (call : RecordCall shape) : Frame shape shape
  /-- Migration has asked for the names of the storages. -/
  | namesAsked : Frame .names .count
  /-- Migration has asked for the keys of a storage. -/
  | keysAsked (storage : String) (storages : List String) (moved : Nat) : Frame .ids .count
  /-- Migration looks the owner of a key up. -/
  | ownerAsked (storage : String) (key : Token) (keys : List Token) (storages : List String)
      (moved : Nat) : Frame .id .count
  /-- Migration moves one record. -/
  | moving (storage : String) (keys : List Token) (storages : List String) (moved : Nat) :
      Frame .flag .count
  /-- A transfer waits for the record's lock. -/
  | transferLockAwaited (storage : String) (key owner : Token) : Frame .nothing .flag
  /-- A transfer reads the record. -/
  | transferRead (storage : String) (key owner : Token) : Frame .record .flag
  /-- A transfer has handed the record to its owner. -/
  | transferHanded (storage : String) (key : Token) (version : UInt64) : Frame .version .flag
  /-- A transfer deletes the local record. -/
  | transferDeleted (storage : String) (key : Token) : Frame .flag .flag
  /-- A migration on behalf of a requester is under way. -/
  | migratingFor (requester : Token) : Frame .count .nothing
  deriving DecidableEq

/-- What a node does next while it works towards an answer of a shape. -/
inductive Action (result : Shape) : Type where
  /-- The operation ends. -/
  | reply (outcome : Outcome result)
  /-- A peer is asked. -/
  | ask {shape : Shape} (peer : Contact) (request : Request shape) (frame : Frame shape result)
  /-- The node carries out another operation first. -/
  | run {shape : Shape} (operation : Operation shape) (frame : Frame shape result)
  /-- The own store is called. -/
  | call {shape : Shape} (call : StoreCall shape) (frame : Frame shape result)
  /-- A record's lock is taken. -/
  | lock (id : LockId) (frame : Frame .nothing result)
  /-- Some milliseconds pass. -/
  | sleep (millis : Nat) (frame : Frame .nothing result)

/-- The events that are counted over all nodes. -/
inductive Counter where
  /-- A lookup gave up. -/
  | hopLimitExceeded
  /-- A successor was replaced by a closer one. -/
  | successorChanged
  /-- A record moved to its owner. -/
  | recordMoved
  deriving DecidableEq, Repr

namespace Counter

/-- Every counter, in the order of their names. -/
def all : List Counter := [recordMoved, hopLimitExceeded, successorChanged]

/-- The name of a counter. -/
def name : Counter → String
  | hopLimitExceeded => "dht_routing_hop_limit_exceeded_total"
  | successorChanged => "dht_successor_changes_total"
  | recordMoved => "dht_migration_records_moved_total"

end Counter

/-- What a stretch of work does besides changing the node. -/
inductive Effect where
  /-- A record's lock is given back. -/
  | release (id : LockId)
  /-- An operation starts on its own. -/
  | spawn (operation : Operation .nothing)
  /-- A report of moved records is handed to the sender of such reports. -/
  | announce (requester : Token)
  /-- An event is counted. -/
  | tally (counter : Counter)
  deriving DecidableEq

end RecordRing
