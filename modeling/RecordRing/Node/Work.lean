import RecordRing.Node.Migration
import RecordRing.Node.Records
import RecordRing.Node.Repair
import RecordRing.Node.Routing

/-!
# The work of a node

A node works in turns.  `Node.start` is the first turn of an operation, and `Node.resume` is the
turn that follows when an awaited answer arrives.
-/

namespace RecordRing.Node

/-- The first turn of the answer to a peer. -/
def serve (node : Node) (around : Surroundings) {shape : Shape} : Request shape → Turn shape
  | .findSuccessor key => node.lookUp around key
  | .closestPrecedingFinger key => node.reply (.ok (node.closestPrecedingFinger around key))
  | .successor => node.reply (.ok node.successor)
  | .predecessor => node.reply (.ok node.predecessor)
  | .notify candidate => acknowledge (node.notified candidate)
  | .migrationEnded source => acknowledge (node.migrationEnded source)
  | .requestMigration requester => acknowledge (node, [.spawn (.migrateFor requester)])
  | .record call => node.enter around call around.now

/-- The first turn of an operation. -/
def start (node : Node) (around : Surroundings) {shape : Shape} : Operation shape → Turn shape
  | .serve request => node.serve around request
  | .found => node.founded.reply (.ok ())
  | .join known => node.join around known
  | .stabilize => node.stabilize around
  | .fixFingers => node.fixFingers
  | .refreshFingers => node.refresh routingSlots
  | .fixPredecessor => (node.fixPredecessor around).reply (.ok ())
  | .ringMembers => node.ringMembers around
  | .attempt call => node.attempt call
  | .migrate => node.call .names .namesAsked
  | .transfer storage key owner => node.transfer storage key owner
  | .migrateFor requester => node.run .migrate (.migratingFor requester)
  | .askForRecords source => node.callKnown around source (.requestMigration node.id)
  | .reportMoved requester => node.callKnown around requester (.migrationEnded node.id)

/-- The turn of a waiting operation when the awaited answer arrives. -/
def resume (node : Node) (around : Surroundings) {shape result : Shape} :
    Frame shape result → Outcome shape → Turn result
  | .successorAsked key current peer hops, outcome => node.onSuccessor key current peer hops outcome
  | .fingerAsked key current successor hops, outcome =>
    node.onFinger around key current successor hops outcome
  | .placeAsked, outcome => node.onPlace around outcome
  | .told, outcome => node.reply outcome
  | .predecessorAsked successor peer, outcome => node.onPredecessor around successor peer outcome
  | .slotOwnerAsked slot, outcome => node.onSlotOwner slot outcome
  | .refreshing left, outcome => node.onRefreshed left outcome
  | .nextAsked members newest, outcome => node.onNext around members newest outcome
  | .joinAwaited call since, outcome => node.onPause around call since outcome
  | .attempted call, outcome => node.onAttempted around call outcome
  | .handedOn call, outcome => node.onHandedOn call outcome
  | .lockAwaited call, outcome => node.onLock call outcome
  | .performed call, outcome => node.onPerformed call outcome
  | .namesAsked, outcome => node.onNames outcome
  | .keysAsked storage storages moved, outcome => node.onKeys storage storages moved outcome
  | .ownerAsked storage key keys storages moved, outcome =>
    node.onOwner storage key keys storages moved outcome
  | .moving storage keys storages moved, outcome => node.onMoved storage keys storages moved outcome
  | .transferLockAwaited storage key owner, outcome =>
    node.onTransferLock storage key owner outcome
  | .transferRead storage key owner, outcome => node.onTransferRead around storage key owner outcome
  | .transferHanded storage key version, outcome =>
    node.onTransferHanded storage key version outcome
  | .transferDeleted storage key, outcome => node.onTransferDeleted storage key outcome
  | .migratingFor requester, outcome => node.onMigrated requester outcome

end RecordRing.Node
