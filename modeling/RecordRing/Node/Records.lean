import RecordRing.Node.Basic

/-!
# Record operations

Every record operation waits out joining and works on the own store under the record's lock.  While
a node merges, a read or a deletion that misses also goes to the node from which the records are
still to arrive; if it misses there as well, or cannot be asked, the own store is tried once more,
because the record may have arrived in the meantime.
-/

namespace RecordRing.Node

/-- The previous owner that a merging node can still ask. -/
def previousOwner (node : Node) : Option Token :=
  if node.lifecycle = .merging then node.migrationSource.filter fun source => source ≠ node.id
  else none

/-- Takes the lock of a call's record. -/
def attempt (node : Node) {shape : Shape} (call : RecordCall shape) : Turn shape :=
  ⟨node, [], .lock call.lockId (.lockAwaited call)⟩

/-- Goes on with a record call when the record's lock is held. -/
def onLock (node : Node) {shape : Shape} (call : RecordCall shape) :
    Outcome .nothing → Turn shape
  | .error failure => node.fail failure
  | .ok _ => node.call (.record call) (.performed call)

/-- Ends a record call on the own store and gives the record's lock back. -/
def onPerformed (node : Node) {shape : Shape} (call : RecordCall shape) (outcome : Outcome shape) :
    Turn shape :=
  ⟨node, [.release call.lockId], .reply outcome⟩

/-- Starts a record call that has waited since a moment for the node to have joined. -/
def enter (node : Node) (around : Surroundings) {shape : Shape} (call : RecordCall shape)
    (since : Nat) : Turn shape :=
  if node.lifecycle = .joining then
    let waited := around.now - since
    match node.config.joinWait with
    | some patience =>
      if patience ≤ waited then node.fail (.joinWaitTimeout node.id waited)
      else ⟨node, [], .sleep node.config.joinPoll (.joinAwaited call since)⟩
    | none => ⟨node, [], .sleep node.config.joinPoll (.joinAwaited call since)⟩
  else node.run (.attempt call) (.attempted call)

/-- Goes on with a record call after a pause for joining. -/
def onPause (node : Node) (around : Surroundings) {shape : Shape} (call : RecordCall shape)
    (since : Nat) : Outcome .nothing → Turn shape
  | .error failure => node.fail failure
  | .ok _ => node.enter around call since

/-- Goes on with a record call after the first attempt on the own store: a miss goes to the previous
owner, if there is one. -/
def onAttempted (node : Node) (around : Surroundings) {shape : Shape} (call : RecordCall shape) :
    Outcome shape → Turn shape
  | .error failure => node.fail failure
  | .ok answer =>
    if call.misses answer then
      match node.previousOwner with
      | none => node.reply (.ok answer)
      | some source =>
        match node.resolve around source with
        | none => node.attempt call
        | some peer => node.ask peer (.record call) (.handedOn call)
    else node.reply (.ok answer)

/-- Goes on with a record call after the previous owner has been asked.  A failure there counts as a
miss. -/
def onHandedOn (node : Node) {shape : Shape} (call : RecordCall shape) : Outcome shape → Turn shape
  | .error _ => node.attempt call
  | .ok answer => if call.misses answer then node.attempt call else node.reply (.ok answer)

end RecordRing.Node
