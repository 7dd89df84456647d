import RecordRing.Node.Membership

/-!
# Migration

A node that joins asks its successor for the records of its interval.  The successor then goes over
its storages and keys in ascending order, hands every record that another node owns to that owner
under the record's lock, and in the end reports to the requester.  The first record that cannot be
moved ends the pass, and a pass that does not come to its end is not reported.
-/

namespace RecordRing.Node

/-- Goes on to the keys of the next storage that takes part in migration. -/
def migrateStorages (node : Node) (moved : Nat) : List String → Turn .count
  | [] => node.reply (.ok moved)
  | storage :: rest =>
    if node.config.isExcluded storage then node.migrateStorages moved rest
    else node.call (.keys storage) (.keysAsked storage rest moved)

/-- Goes on to the next key of a storage. -/
def migrateKeys (node : Node) (storage : String) (storages : List String) (moved : Nat) :
    List Token → Turn .count
  | [] => node.migrateStorages moved storages
  | key :: rest =>
    node.run (.serve (.findSuccessor key)) (.ownerAsked storage key rest storages moved)

/-- Goes on with a pass when the names of the storages are known. -/
def onNames (node : Node) : Outcome .names → Turn .count
  | .error failure => node.fail failure
  | .ok storages => node.migrateStorages 0 storages

/-- Goes on with a pass when the keys of a storage are known. -/
def onKeys (node : Node) (storage : String) (storages : List String) (moved : Nat) :
    Outcome .ids → Turn .count
  | .error failure => node.fail failure
  | .ok keys => node.migrateKeys storage storages moved keys

/-- Goes on with a pass when the owner of a key is known: a record of another owner is moved. -/
def onOwner (node : Node) (storage : String) (key : Token) (keys : List Token)
    (storages : List String) (moved : Nat) : Outcome .id → Turn .count
  | .error failure => node.fail failure
  | .ok owner =>
    if owner = node.id then node.migrateKeys storage storages moved keys
    else node.run (.transfer storage key owner) (.moving storage keys storages moved)

/-- Goes on with a pass after the transfer of a record. -/
def onMoved (node : Node) (storage : String) (keys : List Token) (storages : List String)
    (moved : Nat) : Outcome .flag → Turn .count
  | .error failure => node.fail failure
  | .ok done => node.migrateKeys storage storages (if done then moved + 1 else moved) keys

/-- Gives the lock of a transferred record back and ends the transfer. -/
def endTransfer (node : Node) (storage : String) (key : Token) (outcome : Outcome .flag) :
    Turn .flag :=
  ⟨node, [.release ⟨storage, key⟩], .reply outcome⟩

/-- Starts the transfer of a record by taking its lock. -/
def transfer (node : Node) (storage : String) (key owner : Token) : Turn .flag :=
  ⟨node, [], .lock ⟨storage, key⟩ (.transferLockAwaited storage key owner)⟩

/-- Goes on with a transfer when the record's lock is held. -/
def onTransferLock (node : Node) (storage : String) (key owner : Token) :
    Outcome .nothing → Turn .flag
  | .error failure => node.fail failure
  | .ok _ => node.call (.record (.read storage key)) (.transferRead storage key owner)

/-- Goes on with a transfer when the record has been read.  A record that has vanished is not
moved. -/
def onTransferRead (node : Node) (around : Surroundings) (storage : String) (key owner : Token) :
    Outcome .record → Turn .flag
  | .error failure => node.endTransfer storage key (.error failure)
  | .ok none => node.endTransfer storage key (.ok false)
  | .ok (some record) =>
    match node.resolve around owner with
    | none => node.endTransfer storage key (.error (.nodeUnreachable owner))
    | some peer =>
      node.ask peer (.record (.create storage key record.content record.version))
        (.transferHanded storage key record.version)

/-- Goes on with a transfer when the owner has answered. -/
def onTransferHanded (node : Node) (storage : String) (key : Token) (version : UInt64) :
    Outcome .version → Turn .flag
  | .error failure => node.endTransfer storage key (.error failure)
  | .ok _ => node.call (.record (.delete storage key version)) (.transferDeleted storage key)

/-- Ends a transfer after the deletion of the local record. -/
def onTransferDeleted (node : Node) (storage : String) (key : Token) : Outcome .flag → Turn .flag
  | .error failure => node.endTransfer storage key (.error failure)
  | .ok _ =>
    let turn := node.endTransfer storage key (.ok true)
    { turn with effects := .tally .recordMoved :: turn.effects }

/-- Ends a pass on behalf of a requester with the report to it. -/
def onMigrated (node : Node) (requester : Token) : Outcome .count → Turn .nothing
  | .error failure => node.fail failure
  | .ok _ => acknowledge (node.reportMigration requester)

/-- Calls a node that the directory knows, and only acknowledges the answer. -/
def callKnown (node : Node) (around : Surroundings) (peer : Token) (request : Request .nothing) :
    Turn .nothing :=
  match around.find? peer with
  | none => node.fail (.nodeUnreachable peer)
  | some handle => node.ask (.remote handle) request .told

end RecordRing.Node
