import RecordRing.Node.Basic

/-!
# Ring repair

Three independent actions keep a ring together.  Successor repair adopts the successor's predecessor
as successor when it sits in between, and tells the successor about this node.  Finger repair
refreshes one routing slot at a time.  Predecessor repair forgets a predecessor that has left.

## Implementation notes

A successor that the directory does not know is replaced before any peer is asked.  A replacement is
always known, so one replacement is enough; the number of attempts is bounded by the number of slots
all the same.
-/

namespace RecordRing.Node

/-- The known routing slots' contents, by slot. -/
def routingFingers (node : Node) : List Token :=
  (node.fingers.known.filter fun entry => entry.1 ≠ Fingers.successorSlot).map Prod.snd

/-- Of two positions the one that comes first clockwise of a base; of two at one distance the
left. -/
def nearerOf (base : Token) (a b : Token) : Token :=
  if base.distanceTo b < base.distanceTo a then b else a

/-- The first position of a list clockwise of a base, if the list has any. -/
def nearest? (base : Token) : List Token → Option Token
  | [] => none
  | id :: rest => some (rest.foldl (nearerOf base) id)

/-- The replacement of a lost successor: the nearest other finger that the directory knows, or the
node itself. -/
def replacement (node : Node) (around : Surroundings) : Token :=
  (nearest? node.id (node.routingFingers.filter fun finger =>
    finger ≠ node.id && around.knows finger)).getD node.id

/-- The node with a lost successor forgotten in every routing slot and replaced in slot 0. -/
def replaceSuccessor (node : Node) (around : Surroundings) (lost : Token) : Node :=
  let forgetting := { node with fingers := (node.fingers.forget lost).2 }
  let (_, fingers) :=
    forgetting.fingers.compareAndSet Fingers.successorSlot (some lost)
      (some (forgetting.replacement around))
  { forgetting with fingers := fingers }

/-- A successor that can be reached, and how, after at most `attempts` replacements of lost ones. -/
def reachSuccessor (node : Node) (around : Surroundings) (successor : Token) :
    Nat → Node × Token × Option Contact
  | 0 => (node, successor, node.resolve around successor)
  | attempts + 1 =>
    match node.resolve around successor with
    | some peer => (node, successor, some peer)
    | none =>
      let replaced := node.replaceSuccessor around successor
      let next := replaced.successor.getD (replaced.replacement around)
      reachSuccessor replaced around next attempts

/-- Asks the successor for its predecessor, after replacing the successor if it is lost. -/
def approach (node : Node) (around : Surroundings) (successor : Token) : Turn .nothing :=
  match node.reachSuccessor around successor keyBits with
  | (reached, id, some peer) => reached.ask peer .predecessor (.predecessorAsked id peer)
  | (reached, id, none) => reached.fail (.nodeUnreachable id)

/-- Repairs the successor. -/
def stabilize (node : Node) (around : Surroundings) : Turn .nothing :=
  match node.successor with
  | none => node.fail (.noSuccessor node.id)
  | some successor => node.approach around successor

/-- Tells the successor about this node, unless it is the node itself. -/
def tellSuccessor (node : Node) (successor : Token) (peer : Contact) : Turn .nothing :=
  if successor = node.id then node.reply (.ok ()) else node.ask peer (.notify node.id) .told

/-- Goes on with successor repair after the successor has named its predecessor.  A predecessor in
between is adopted if the successor is still the one asked, and otherwise the repair starts anew. -/
def onPredecessor (node : Node) (around : Surroundings) (successor : Token) (peer : Contact) :
    Outcome .knownId → Turn .nothing
  | .error failure => node.fail failure
  | .ok none => node.tellSuccessor successor peer
  | .ok (some candidate) =>
    if insideOpen node.id successor candidate then
      match node.fingers.compareAndSet Fingers.successorSlot (some successor) (some candidate) with
      | (true, fingers) =>
        let adopting := { node with fingers := fingers }
        let turn :=
          match adopting.resolve around candidate with
          | none => adopting.fail (.nodeUnreachable candidate)
          | some closer => adopting.tellSuccessor candidate closer
        { turn with effects := .tally .successorChanged :: turn.effects }
      | (false, _) => node.stabilize around
    else node.tellSuccessor successor peer

/-- The routing slot after a given one; the last routing slot is followed by the first. -/
def nextSlot (slot : Nat) : Nat := if slot + 1 < keyBits then slot + 1 else 1

/-- Refreshes the routing slot under the cursor and moves the cursor on. -/
def fixFingers (node : Node) : Turn .nothing :=
  let moved := { node with cursor := nextSlot node.cursor }
  match node.id.slotStart node.cursor with
  | .error error => moved.fail (.range error)
  | .ok start => moved.run (.serve (.findSuccessor start)) (.slotOwnerAsked node.cursor)

/-- Enters the owner of a slot's start into the slot. -/
def onSlotOwner (node : Node) (slot : Nat) : Outcome .id → Turn .nothing
  | .error failure => node.fail failure
  | .ok owner =>
    match Fingers.slot? slot with
    | .error error => node.fail (.range error)
    | .ok index =>
      let current := node.fingers.get index
      if current = some owner then node.reply (.ok ())
      else
        { node with fingers := (node.fingers.compareAndSet index current (some owner)).2 }.reply
          (.ok ())

/-- Refreshes `left` routing slots, one after the other. -/
def refresh (node : Node) : Nat → Turn .nothing
  | 0 => node.reply (.ok ())
  | left + 1 => node.run .fixFingers (.refreshing left)

/-- The number of routing slots. -/
def routingSlots : Nat := keyBits - 1

/-- Goes on refreshing after one slot. -/
def onRefreshed (node : Node) (left : Nat) : Outcome .nothing → Turn .nothing
  | .error failure => node.fail failure
  | .ok _ => node.refresh left

/-- Forgets a predecessor that the directory does not know.  The next node to report itself takes
its place. -/
def fixPredecessor (node : Node) (around : Surroundings) : Node :=
  match node.predecessor with
  | some predecessor => if around.knows predecessor then node else { node with predecessor := none }
  | none => node

end RecordRing.Node
