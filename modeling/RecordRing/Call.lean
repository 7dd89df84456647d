import RecordRing.Failure
import RecordRing.Lock

/-!
# Calls

What may be asked of a record store and of a peer, as data.  Each call has a shape, and the shape
fixes the type of its answer, so an answer of the wrong type cannot be written down.

## Implementation notes

The four record calls appear three times: a client hands them to a node, a node to its own store
under the record's lock, and a node to a peer.  They are one family here.
-/

namespace RecordRing

/-- The shapes that answers come in. -/
inductive Shape where
  /-- An acknowledgement. -/
  | nothing
  /-- A position. -/
  | id
  /-- A position that may be unknown. -/
  | knownId
  /-- The version that a write leaves. -/
  | version
  /-- A record that may be absent. -/
  | record
  /-- A yes or a no. -/
  | flag
  /-- A number of records. -/
  | count
  /-- A list of positions. -/
  | ids
  /-- A list of storage names. -/
  | names
  deriving DecidableEq, Repr

/-- The type of the answers of a shape. -/
@[reducible] def Shape.Value : Shape → Type
  | nothing => Unit
  | id => Token
  | knownId => Option Token
  | version => UInt64
  | record => Option Record
  | flag => Bool
  | count => Nat
  | ids => List Token
  | names => List String

/-- What comes back from a call: an answer of its shape, or the reason why there is none. -/
abbrev Outcome (shape : Shape) := Except Failure shape.Value

/-- The calls on one record. -/
inductive RecordCall : Shape → Type where
  /-- Store a new record. -/
  | create (storage : String) (key : Token) (content : List UInt8) (version : UInt64) :
      RecordCall .version
  /-- Look a record up. -/
  | read (storage : String) (key : Token) : RecordCall .record
  /-- Replace the payload of a record of the given version. -/
  | update (storage : String) (key : Token) (content : List UInt8) (version : UInt64) :
      RecordCall .version
  /-- Remove a record of the given version. -/
  | delete (storage : String) (key : Token) (version : UInt64) : RecordCall .flag
  deriving DecidableEq

namespace RecordCall

/-- The lock that guards the record of a call. -/
def lockId {shape : Shape} : RecordCall shape → LockId
  | create storage key _ _ => ⟨storage, key⟩
  | read storage key => ⟨storage, key⟩
  | update storage key _ _ => ⟨storage, key⟩
  | delete storage key _ => ⟨storage, key⟩

/-- Whether an answer says that a read or a deletion found no record. -/
def misses {shape : Shape} : RecordCall shape → shape.Value → Bool
  | create .., _ => false
  | read .., found => found.isNone
  | update .., _ => false
  | delete .., removed => !removed

end RecordCall

/-- The calls on a record store. -/
inductive StoreCall : Shape → Type where
  /-- A call on one record. -/
  | record {shape : Shape} (call : RecordCall shape) : StoreCall shape
  /-- List the keys of a storage. -/
  | keys (storage : String) : StoreCall .ids
  /-- List the names of the storages. -/
  | names : StoreCall .names
  deriving DecidableEq

/-- Carries out a call on a store under a credential. -/
def Store.perform (store : Store) (credential : Credential) {shape : Shape} :
    StoreCall shape → Except StoreError shape.Value × Store
  | .record (.create storage key content version) =>
    store.create credential storage key content version
  | .record (.read storage key) => (store.read credential storage key, store)
  | .record (.update storage key content version) =>
    store.update credential storage key content version
  | .record (.delete storage key version) => store.delete credential storage key version
  | .keys storage => (store.keys credential storage, store)
  | .names => (store.names credential, store)

/-- The calls that every peer answers. -/
inductive Request : Shape → Type where
  /-- Which node owns this key? -/
  | findSuccessor (key : Token) : Request .id
  /-- Which known peer precedes this key most closely? -/
  | closestPrecedingFinger (key : Token) : Request .id
  /-- Which node follows you? -/
  | successor : Request .knownId
  /-- Which node precedes you? -/
  | predecessor : Request .knownId
  /-- The candidate may be your predecessor. -/
  | notify (candidate : Token) : Request .nothing
  /-- The source has moved its records to you. -/
  | migrationEnded (source : Token) : Request .nothing
  /-- The requester joined in front of you and wants its records. -/
  | requestMigration (requester : Token) : Request .nothing
  /-- A call on one record. -/
  | record {shape : Shape} (call : RecordCall shape) : Request shape
  deriving DecidableEq

/-- The kinds of calls between peers, by which links count, delay and fail them. -/
inductive Method where
  | findSuccessor
  | closestPrecedingFinger
  | successor
  | predecessor
  | notify
  | migrationEnded
  | requestMigration
  | createRecord
  | readRecord
  | updateRecord
  | deleteRecord
  deriving DecidableEq, Repr

namespace Method

/-- Every kind of call. -/
def all : List Method :=
  [findSuccessor, closestPrecedingFinger, successor, predecessor, notify, migrationEnded,
    requestMigration, createRecord, readRecord, updateRecord, deleteRecord]

/-- The name of a kind of call. -/
def name : Method → String
  | findSuccessor => "find_successor"
  | closestPrecedingFinger => "closest_preceding_finger"
  | successor => "successor"
  | predecessor => "predecessor"
  | notify => "notify"
  | migrationEnded => "notify_migration_end"
  | requestMigration => "request_migration"
  | createRecord => "create_record"
  | readRecord => "read_record"
  | updateRecord => "update_record"
  | deleteRecord => "delete_record"

/-- The kind of call of a name. -/
def ofName? (text : String) : Option Method := all.find? fun method => method.name = text

end Method

/-- The kind of a record call. -/
def RecordCall.method {shape : Shape} : RecordCall shape → Method
  | create .. => .createRecord
  | read .. => .readRecord
  | update .. => .updateRecord
  | delete .. => .deleteRecord

/-- The kind of a call to a peer. -/
def Request.method {shape : Shape} : Request shape → Method
  | findSuccessor _ => .findSuccessor
  | closestPrecedingFinger _ => .closestPrecedingFinger
  | successor => .successor
  | predecessor => .predecessor
  | notify _ => .notify
  | migrationEnded _ => .migrationEnded
  | requestMigration _ => .requestMigration
  | record call => call.method

end RecordRing
