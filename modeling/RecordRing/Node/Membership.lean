import RecordRing.Node.Basic

/-!
# Membership

How a node founds or joins a ring, accepts a predecessor, and comes to own its interval.

The first predecessor that a joining node accepts starts the merge: the successor of that moment
becomes the migration source and is asked for the records of the node's interval.  The merge ends
when the source reports that they have moved, and then the reports that waited in this node go out.
-/

namespace RecordRing.Node

/-- The node as the only member of a new ring. -/
def founded (node : Node) : Node :=
  { node.setSuccessor node.id with
    predecessor := none
    migrationSource := none
    lifecycle := .stable }

/-- The node at the start of a join. -/
def rejoining (node : Node) : Node :=
  { node with
    lifecycle := .joining
    predecessor := none
    migrationSource := none }

/-- Hands every waiting report to the sender, oldest first. -/
def drainPending (node : Node) : Node × List Effect :=
  ({ node with pending := [] }, node.pending.map .announce)

/-- The merge that the acceptance of a predecessor starts, if the node is joining and knows its
successor.  A node that is its own successor has nobody to take records from and is stable at
once. -/
def beginMerge (node : Node) : Node × List Effect :=
  match node.lifecycle, node.successor with
  | .joining, some source =>
    let merging := { node with migrationSource := some source, lifecycle := .merging }
    if source = node.id then { merging with lifecycle := .stable }.drainPending
    else (merging, [.spawn (.askForRecords source)])
  | _, _ => (node, [])

/-- Whether a candidate is closer than the present predecessor. -/
def isCloser (node : Node) (candidate : Token) : Bool :=
  match node.predecessor with
  | none => true
  | some predecessor => insideOpen predecessor node.id candidate

/-- Accepts a candidate as predecessor if it is another node and closer than the present one. -/
def notified (node : Node) (candidate : Token) : Node × List Effect :=
  if candidate ≠ node.id ∧ node.isCloser candidate then
    { node with predecessor := some candidate }.beginMerge
  else (node, [])

/-- Ends the merge if the report comes from the migration source; other reports and repeated ones
change nothing. -/
def migrationEnded (node : Node) (source : Token) : Node × List Effect :=
  if node.migrationSource = some source ∧ node.lifecycle = .merging then
    { node with lifecycle := .stable }.drainPending
  else (node, [])

/-- Reports the end of a migration to its requester, at once if the node is stable and otherwise
when it becomes so. -/
def reportMigration (node : Node) (requester : Token) : Node × List Effect :=
  if node.lifecycle = .stable then (node, [.announce requester])
  else ({ node with pending := node.pending ++ [requester] }, [])

/-- Acknowledges a change of the node. -/
def acknowledge : Node × List Effect → Turn .nothing
  | (node, effects) => ⟨node, effects, .reply (.ok ())⟩

/-- Joins the ring of a known node.  Every attempt restarts from a clean joining state, so a failed
one may be repeated. -/
def join (node : Node) (around : Surroundings) (known : Token) : Turn .nothing :=
  match node.resolve around known with
  | none => node.fail (.nodeUnreachable known)
  | some peer => node.rejoining.ask peer (.findSuccessor node.id) .placeAsked

/-- Goes on with a join when the place on the ring is known: the successor found there is told. -/
def onPlace (node : Node) (around : Surroundings) : Outcome .id → Turn .nothing
  | .error failure => node.fail failure
  | .ok successor =>
    let placed := node.setSuccessor successor
    match placed.resolve around successor with
    | none => placed.fail (.nodeUnreachable successor)
    | some peer => placed.ask peer (.notify node.id) .told

/-- Goes on with a walk along the ring: a node met before ends it, and any other is asked for the
next. -/
def walk (node : Node) (around : Surroundings) (members : List Token) (next : Token) : Turn .ids :=
  if next ∈ members then node.reply (.ok members)
  else
    match node.resolve around next with
    | none => node.fail (.nodeUnreachable next)
    | some peer => node.ask peer .successor (.nextAsked (members ++ [next]) next)

/-- The ring as seen from here: this node, and every successor up to the first repetition. -/
def ringMembers (node : Node) (around : Surroundings) : Turn .ids :=
  match node.successor with
  | none => node.fail (.noSuccessor node.id)
  | some next => node.walk around [node.id] next

/-- Goes on with a walk after its newest member has named the next. -/
def onNext (node : Node) (around : Surroundings) (members : List Token) (newest : Token) :
    Outcome .knownId → Turn .ids
  | .error failure => node.fail failure
  | .ok none => node.fail (.noSuccessor newest)
  | .ok (some next) => node.walk around members next

end RecordRing.Node
