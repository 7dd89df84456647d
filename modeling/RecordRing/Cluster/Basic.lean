import RecordRing.Network.Schedule

/-!
# Clusters

A cluster is a network whose nodes are known by their identifiers, together with the maintenance
loops that run on them.  It offers the steps of a session from outside: adding nodes and scripted
peers, carrying operations out, and letting time pass.

## Implementation notes

A node that is added under an identifier in use replaces the earlier one here and in the directory;
operations and loops that still hold the earlier one go on with it.
-/

namespace RecordRing

/-- The nodes of a network by identifier, and what has been set going on them. -/
structure Cluster where
  /-- The network. -/
  net : Network
  /-- The present node of each identifier. -/
  nodes : Std.TreeMap Token Handle
  /-- The present scripted peer of each identifier. -/
  scripts : Std.TreeMap Token Handle
  /-- The numbers of the tasks that were set going under a name. -/
  named : Std.TreeMap String Nat
  /-- The numbers of the maintenance loops that run for an identifier. -/
  maintenance : Std.TreeMap Token (List Nat)

/-- How a node is added to a cluster. -/
structure NodeSetup where
  /-- The identifier of the node. -/
  id : Token
  /-- Whether the directory leads to it. -/
  registered : Bool
  /-- The tunables. -/
  config : Config
  /-- The credential to which the node's store is bound. -/
  required : Option Credential
  /-- How long calls on the node's store take. -/
  storeDelay : StoreDelay
  /-- How long calls over the node's link are held back. -/
  delays : List (Method × Nat)

namespace NodeSetup

/-- A registered node with its store open to everyone and nothing held back. -/
def plain (id : Token) (config : Config) : NodeSetup :=
  ⟨id, true, config, none, StoreDelay.zero, []⟩

/-- The member that a setup describes. -/
def member (setup : NodeSetup) : Member where
  node := Node.fresh setup.id (Store.empty setup.required) setup.config
  link := { Link.clear with delays := setup.delays }
  storeDelay := setup.storeDelay
  outbox := []
  sending := false

end NodeSetup

namespace Cluster

/-- The cluster without nodes. -/
def empty : Cluster := ⟨Network.empty, ∅, ∅, ∅, ∅⟩

instance : Inhabited Cluster := ⟨empty⟩

/-- The present member of an identifier. -/
def member? (cluster : Cluster) (id : Token) : Option (Handle × Member) :=
  cluster.nodes[id]?.bind fun handle =>
    (cluster.net.member? handle).map fun member => (handle, member)

/-- The present node of an identifier. -/
def node? (cluster : Cluster) (id : Token) : Option Node :=
  (cluster.member? id).map fun entry => entry.2.node

/-- The identifiers of the nodes in ascending order. -/
def ids (cluster : Cluster) : List Token := cluster.nodes.keys

/-- The cluster with a member overwritten. -/
def setMember (cluster : Cluster) (handle : Handle) (member : Member) : Cluster :=
  { cluster with net := cluster.net.setMember handle member }

/-- Adds a node. -/
def addNode (cluster : Cluster) (setup : NodeSetup) : Cluster :=
  let (handle, net) := cluster.net.attach (.member setup.member)
  { cluster with
    net := if setup.registered then net.register setup.id handle else net
    nodes := cluster.nodes.insert setup.id handle }

/-- Adds a scripted peer, which the directory leads to. -/
def addScript (cluster : Cluster) (script : Script) : Cluster :=
  let (handle, net) := cluster.net.attach (.scripted script)
  { cluster with
    net := net.register script.id handle
    scripts := cluster.scripts.insert script.id handle }

/-- Carries on whatever can go on, without letting time pass. -/
def settle (cluster : Cluster) : Cluster :=
  { cluster with net := cluster.net.settle Network.stepBudget }

/-- Lets some milliseconds pass. -/
def advance (cluster : Cluster) (millis : Nat) : Cluster :=
  { cluster with
    net := cluster.net.elapse Network.stepBudget (cluster.net.now + millis) }

/-- Sets a task going after all others that can go on, and returns its number. -/
def launch (cluster : Cluster) (task : Task) : Nat × Cluster :=
  let (number, net) := cluster.net.addTask task
  (number, { cluster with net := net.makeReady number })

/-- How long an operation is waited for. -/
def patience : Nat := 120000

/-- Waits for a task up to its end, for as long as patience lasts. -/
def await (cluster : Cluster) (number : Nat) : Cluster :=
  { cluster with
    net := cluster.net.await Network.stepBudget number (cluster.net.now + patience) }

/-- The outcome of a task that has ended. -/
def ending? (cluster : Cluster) (number : Nat) : Option Ending := cluster.net.endings[number]?

/-- Forgets the outcome of a task. -/
def forget (cluster : Cluster) (number : Nat) : Cluster :=
  { cluster with net := { cluster.net with endings := cluster.net.endings.erase number } }

/-- The three loops that maintain a member, with the period of each. -/
def upkeep (config : Config) : List (Operation .nothing × Nat) :=
  [(.stabilize, config.stabilizePeriod), (.fixFingers, config.fixFingersPeriod),
    (.fixPredecessor, config.fixPredecessorPeriod)]

/-- The loops of a member that have a period, first ticking now. -/
def loopsOf (now : Nat) (handle : Handle) (config : Config) : List Loop :=
  (upkeep config).filterMap fun (operation, period) =>
    if period = 0 then none else some ⟨handle, operation, period, now, false⟩

/-- Starts the maintenance loops of a member and returns their numbers. -/
def startLoops (net : Network) (handle : Handle) (config : Config) : List Nat × Network :=
  (loopsOf net.now handle config).foldl
    (fun (numbers, left) loop =>
      let (number, added) := left.addTask ⟨.loop loop, .nothing, .answer (.ok ()), .root⟩
      (numbers ++ [number], added.makeReady number))
    ([], net)

/-- Tells a loop to end before its next tick; a loop that waits for the tick ends at once. -/
def stopLoop (net : Network) (number : Nat) : Network :=
  match net.tasks[number]? with
  | some ⟨.loop loop, .nothing, .hold _ next, .root⟩ =>
    (net.putTask number ⟨.loop { loop with stopping := true }, .nothing, next, .root⟩).makeReady
      number
  | some ⟨.loop loop, shape, control, stack⟩ =>
    net.putTask number ⟨.loop { loop with stopping := true }, shape, control, stack⟩
  | _ => net

/-- Tells the maintenance loops of an identifier to end; their numbers are returned if there were
any. -/
def stopMaintenance (cluster : Cluster) (id : Token) : Option (List Nat) × Cluster :=
  match cluster.maintenance[id]? with
  | none => (none, cluster)
  | some numbers =>
    (some numbers,
      { cluster with
        net := numbers.foldl stopLoop cluster.net
        maintenance := cluster.maintenance.erase id })

/-- Starts the maintenance of a node.  Maintenance that runs for the identifier is told to end. -/
def maintain (cluster : Cluster) (id : Token) : Cluster :=
  match cluster.member? id with
  | none => cluster
  | some (handle, member) =>
    let (_, stopped) := cluster.stopMaintenance id
    let (numbers, net) := startLoops stopped.net handle member.node.config
    { stopped with net := net, maintenance := stopped.maintenance.insert id numbers }

/-- Waits for tasks to end, one after the other. -/
def awaitAll (cluster : Cluster) (numbers : List Nat) : Cluster := numbers.foldl await cluster

/-- The tasks of repair rounds: in every round each node repairs its successor and its predecessor,
in the order of the identifiers; with `fingers` every node refreshes its fingers in the end. -/
def roundTasks (handles : List Handle) (rounds : Nat) (fingers : Bool) :
    List (Handle × Operation .nothing) :=
  let round := handles.flatMap fun handle => [(handle, .stabilize), (handle, .fixPredecessor)]
  (List.replicate rounds round).flatten ++
    if fingers then handles.map fun handle => (handle, .refreshFingers) else []

/-- The task that carries out operations one after the other up to the first failure; without
operations there is only a success. -/
def sequence : List (Handle × Operation .nothing) → Except Ending Task
  | [] => .error ⟨.nothing, .ok ()⟩
  | (handle, operation) :: rest => .ok (Network.taskOf (.client rest) handle operation)

end Cluster

end RecordRing
