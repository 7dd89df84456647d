import RecordRing.Node.Basic

/-!
# Routing

Which node owns a key is found by asking one peer at a time: the peer's successor settles the
question if the key lies between the two, and otherwise the peer names a closer one.  With accurate
fingers the distance to the key halves with every peer; with stale ones the search degrades towards
a walk along successors, and the number of peers it may ask is bounded.
-/

namespace RecordRing.Node

/-- The highest finger strictly between this node and a key that the directory knows, or the node
itself.  Fingers that the directory does not know are passed over and left in place. -/
def closestPrecedingFinger (node : Node) (around : Surroundings) (key : Token) : Token :=
  let closer (entry : Fin keyBits × Token) : Bool :=
    insideOpen node.id key entry.2 && around.knows entry.2
  ((node.fingers.descending.find? closer).map Prod.snd).getD node.id

/-- Asks one more peer about a key, after `hops` peers have been asked. -/
def consult (node : Node) (around : Surroundings) (key current : Token) (hops : Nat) : Turn .id :=
  if hops < node.config.maxHops then
    match node.resolve around current with
    | none => node.fail (.nodeUnreachable current)
    | some peer => node.ask peer .successor (.successorAsked key current peer (hops + 1))
  else
    ⟨node, [.tally .hopLimitExceeded],
      .reply (.error (.hopLimitExceeded key node.config.maxHops))⟩

/-- Looks the owner of a key up: the first node at the key or clockwise of it. -/
def lookUp (node : Node) (around : Surroundings) (key : Token) : Turn .id :=
  match node.successor with
  | none => node.fail (.noSuccessor node.id)
  | some successor =>
    if insideHalfOpen node.id successor key then node.reply (.ok successor)
    else
      let closest := node.closestPrecedingFinger around key
      if closest = node.id then node.reply (.ok successor)
      else node.consult around key closest 0

/-- Goes on with a lookup after a peer has named its successor. -/
def onSuccessor (node : Node) (key current : Token) (peer : Contact) (hops : Nat) :
    Outcome .knownId → Turn .id
  | .error failure => node.fail failure
  | .ok none => node.fail (.noSuccessor current)
  | .ok (some successor) =>
    if insideHalfOpen current successor key then node.reply (.ok successor)
    else node.ask peer (.closestPrecedingFinger key) (.fingerAsked key current successor hops)

/-- Goes on with a lookup after a peer has named a closer one.  A peer that knows none hands the
lookup to its successor. -/
def onFinger (node : Node) (around : Surroundings) (key current successor : Token) (hops : Nat) :
    Outcome .id → Turn .id
  | .error failure => node.fail failure
  | .ok next => node.consult around key (if next = current then successor else next) hops

end RecordRing.Node
