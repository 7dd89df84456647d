import RecordRing.Activity
import RecordRing.Arc
import RecordRing.Fingers
import RecordRing.Lifecycle

/-!
# Nodes

A node owns the keys in `(predecessor, self]`.  Its state is what it remembers between two stretches
of work; what it can see of the rest of the network at one moment is its `Surroundings`.

A `Turn` is the result of a stretch of work.
-/

namespace RecordRing

/-- What a node sees of the network at one moment. -/
structure Surroundings where
  /-- The present moment, in milliseconds. -/
  now : Nat
  /-- The directory: the link to the peer of an identifier, if there is one. -/
  find? : Token → Option Handle

namespace Surroundings

/-- Whether the directory knows a peer. -/
def knows (around : Surroundings) (id : Token) : Bool := (around.find? id).isSome

end Surroundings

/-- The state of a node. -/
structure Node where
  /-- The position of the node, which is also its name. -/
  id : Token
  /-- The finger table. -/
  fingers : Fingers
  /-- The node before this one, as far as it is known. -/
  predecessor : Option Token
  /-- How far the node has come in taking over its interval. -/
  lifecycle : Lifecycle
  /-- The successor at the moment merging began; records that have not moved yet live there. -/
  migrationSource : Option Token
  /-- The routing slot that is refreshed next. -/
  cursor : Nat
  /-- The records held by this node. -/
  store : Store
  /-- The record locks of this node. -/
  locks : LockTable
  /-- The requesters whose migration ended while this node was not stable, oldest first. -/
  pending : List Token
  /-- The tunables. -/
  config : Config

/-- What a stretch of work of a node leaves behind. -/
structure Turn (result : Shape) where
  /-- The node afterwards. -/
  node : Node
  /-- The side effects, in order. -/
  effects : List Effect
  /-- What the node does next. -/
  action : Action result

namespace Node

/-- A node that has neither founded nor joined a ring. -/
def fresh (id : Token) (store : Store) (config : Config) : Node where
  id := id
  fingers := Fingers.empty
  predecessor := none
  lifecycle := .joining
  migrationSource := none
  cursor := 1
  store := store
  locks := LockTable.empty
  pending := []
  config := config

/-- The node after this one, as far as it is known. -/
def successor (node : Node) : Option Token := node.fingers.successor

/-- The node with its successor overwritten. -/
def setSuccessor (node : Node) (id : Token) : Node :=
  { node with fingers := node.fingers.set Fingers.successorSlot (some id) }

/-- How this node reaches a peer: itself directly, and others through the directory. -/
def resolve (node : Node) (around : Surroundings) (id : Token) : Option Contact :=
  if id = node.id then some .own else (around.find? id).map .remote

/-- Ends the present operation. -/
def reply (node : Node) {result : Shape} (outcome : Outcome result) : Turn result :=
  ⟨node, [], .reply outcome⟩

/-- Ends the present operation without an answer. -/
def fail (node : Node) {result : Shape} (failure : Failure) : Turn result :=
  node.reply (.error failure)

/-- Asks a contact, and waits for its answer. -/
def ask (node : Node) {shape result : Shape} (peer : Contact) (request : Request shape)
    (frame : Frame shape result) : Turn result :=
  ⟨node, [], .ask peer request frame⟩

/-- Carries out another operation first. -/
def run (node : Node) {shape result : Shape} (operation : Operation shape)
    (frame : Frame shape result) : Turn result :=
  ⟨node, [], .run operation frame⟩

/-- Calls the own store. -/
def call (node : Node) {shape result : Shape} (call : StoreCall shape)
    (frame : Frame shape result) : Turn result :=
  ⟨node, [], .call call frame⟩

/-- A node as inspection output shows it. -/
def inspect (node : Node) : String :=
  let id := node.id.inspect
  let state := node.lifecycle.inspect
  let before := Token.inspect? node.predecessor
  let after := Token.inspect? node.successor
  s!"LocalDhtNode \x7b id: {id}, state: {state}, predecessor: {before}, successor: {after} \x7d"

@[simp] theorem successor_setSuccessor (node : Node) (id : Token) :
    (node.setSuccessor id).successor = some id := by
  simp [successor, setSuccessor, Fingers.successor, Fingers.get_set]

end Node

end RecordRing
