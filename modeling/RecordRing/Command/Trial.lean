import RecordRing.Cluster.Basic
import RecordRing.Hash.Key

/-!
# Trial rings

A trial is a procedure on a cluster that starts empty and whose nodes are named by their numbers:
it founds a ring, lets further nodes join, and puts the ring to use.  A trial either yields a result
or ends in `Trouble`.
-/

namespace RecordRing

/-- Why a command ends without a report. -/
inductive Trouble where
  /-- A ring of no nodes was asked for. -/
  | noNodes
  /-- The name of a node leads to an identifier in use. -/
  | nameTaken (name : String) (id : Token)
  /-- A node could not join. -/
  | joinFailed (id : Token) (failure : Failure)
  /-- The ring was not in order after so many seconds. -/
  | notConverged (seconds : Nat)
  /-- The owner of a record is not in the directory. -/
  | ownerUnknown (owner : Token)
  /-- A node finds another owner for a key than the founder does. -/
  | disagreement (node : Token) (key : String) (seen owner : Token)
  /-- An operation failed. -/
  | failed (failure : Failure)
  /-- An operation of a node has not ended. -/
  | unfinished (node : Token)
  deriving DecidableEq

namespace Trouble

/-- The text of a trouble; a cause follows what it led to. -/
def message : Trouble → String
  | noNodes => "a ring needs at least one node"
  | nameTaken name id =>
    let shown := id.render
    s!"node name {name} collides with an existing id {shown}"
  | joinFailed id failure =>
    let shown := id.render
    let cause := failure.message
    s!"node {shown} failed to join: {cause}"
  | notConverged seconds =>
    let time := Text.elapsed (1000 * seconds)
    s!"ring did not converge within {time}: deadline has elapsed"
  | ownerUnknown owner =>
    let shown := owner.render
    s!"owner {shown} not in directory"
  | disagreement node key seen owner =>
    let shown := node.render
    let found := seen.render
    let expected := owner.render
    s!"node {shown} resolves {key} to {found}, founder to {expected}"
  | failed failure => failure.message
  | unfinished node =>
    let shown := node.render
    s!"node {shown} has not finished an operation"

end Trouble

namespace Cluster

/-- Lets the node of an identifier carry an operation out, and waits for the outcome. -/
def conduct {shape : Shape} (cluster : Cluster) (id : Token) (operation : Operation shape) :
    Option (Outcome shape) × Cluster :=
  match cluster.nodes[id]? with
  | none => (some (.error (.nodeUnreachable id)), cluster)
  | some handle =>
    let (number, launched) := cluster.launch (Network.taskOf (.client []) handle operation)
    let waited := launched.await number
    ((waited.ending? number).bind (Ending.as? shape), waited.forget number)

/-- Whether the nodes of some identifiers form a ring in order: all are stable, and each one and the
next in the circular order of the identifiers know each other.  A node that is alone succeeds itself
and knows no predecessor. -/
def isRingOf (cluster : Cluster) (members : List Token) : Bool :=
  let ids := members.mergeSort (fun a b => decide (a ≤ b))
  let neighbours := ids.zip (ids.rotateLeft 1)
  let stable := members.all fun id =>
    (cluster.node? id).any fun node => decide (node.lifecycle = .stable)
  stable && neighbours.all fun (id, next) =>
    (cluster.node? id).any (fun node => decide (node.successor = some next)) &&
      (cluster.node? next).any fun node =>
        decide (node.predecessor = if 1 < ids.length then some id else none)

end Cluster

/-- A procedure on a cluster that may end in trouble. -/
abbrev Trial := StateT Cluster (Except Trouble)

namespace Trial

/-- The time between two looks at a ring that is not yet in order. -/
def pause : Nat := 10

/-- The name of the node of a number. -/
def nodeName (number : Nat) : String := s!"node-{number}"

/-- Lets a node carry an operation out, and returns the outcome. -/
def attempt {shape : Shape} (id : Token) (operation : Operation shape) : Trial (Outcome shape) :=
  fun cluster =>
    match cluster.conduct id operation with
    | (some outcome, left) => .ok (outcome, left)
    | (none, _) => .error (.unfinished id)

/-- Lets a node carry an operation out that must not fail. -/
def ask {shape : Shape} (id : Token) (operation : Operation shape) : Trial shape.Value := do
  match ← attempt id operation with
  | .ok value => return value
  | .error failure => throw (.failed failure)

/-- The node that another one finds to own a key. -/
def ownerOf (id key : Token) : Trial Token := ask id (.serve (.findSuccessor key))

/-- Adds the node of a number. -/
def add (config : Config) (number : Nat) : Trial Token := do
  let name := nodeName number
  let id := Token.ofKey name
  let cluster ← get
  if cluster.net.directory.contains id then throw (.nameTaken name id)
  else
    set (cluster.addNode (.plain id config))
    return id

/-- Adds the node of a number and lets it join the ring of the founder. -/
def addJoining (config : Config) (founder : Token) (number : Nat) : Trial Token := do
  let id ← add config number
  match ← attempt id (.join founder) with
  | .ok _ => return id
  | .error failure => throw (.joinFailed id failure)

/-- Builds a ring of so many nodes: the first founds it, and the others join through the founder.
The founder and the others are returned. -/
def build (config : Config) : Nat → Trial (Token × List Token)
  | 0 => throw .noNodes
  | others + 1 => do
    let founder ← add config 0
    ask founder .found
    let joined ← (List.range others).mapM fun number => addJoining config founder (number + 1)
    return (founder, joined)

/-- Starts the maintenance of a node. -/
def maintain (id : Token) : Trial Unit := modify fun cluster => cluster.maintain id

/-- Looks at a cluster up to so many times again, with a pause before each look, until the nodes
form a ring in order. -/
def untilRing (members : List Token) : Nat → Cluster → Option Cluster
  | 0, cluster => if cluster.isRingOf members then some cluster else none
  | looks + 1, cluster =>
    if cluster.isRingOf members then some cluster
    else untilRing members looks (cluster.advance pause)

/-- Waits so many seconds at most until the nodes form a ring in order. -/
def awaitRing (members : List Token) (seconds : Nat) : Trial Unit := fun cluster =>
  match untilRing members (1000 * seconds / pause) cluster with
  | some left => .ok ((), left)
  | none => .error (.notConverged seconds)

/-- Repairs the ring in rounds, in the order in which the nodes joined, and then refreshes all
fingers. -/
def repair (members : List Token) (rounds : Nat) : Trial Unit := do
  (List.range rounds).forM fun _ =>
    members.forM fun id => do
      ask id .stabilize
      ask id .fixPredecessor
  members.forM fun id => ask id .refreshFingers

end Trial

end RecordRing
