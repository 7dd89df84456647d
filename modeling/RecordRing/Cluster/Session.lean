import RecordRing.Cluster.Basic

/-!
# Sessions on a cluster

A session is a list of instructions on one cluster.  Every instruction is reported with its result,
the moment after it, and the rows of the nodes that have changed; before the report everything that
can go on without time passing is carried on.
-/

namespace RecordRing

/-- A question to a record store. -/
inductive StoreQuery where
  /-- A call that needs a credential. -/
  | call {shape : Shape} (call : StoreCall shape)
  /-- How many records has this storage? -/
  | count (storage : String)
  /-- Are there no records at all? -/
  | isEmpty

/-- What a session answers to an instruction. -/
inductive Answer where
  /-- The answer of a call. -/
  | value (shape : Shape) (value : shape.Value)
  /-- Something has been set going. -/
  | started
  /-- Something has not ended yet. -/
  | pending
  /-- A text. -/
  | text (text : String)
  /-- Texts in order. -/
  | texts (texts : List String)
  /-- Numbers by name. -/
  | tallies (entries : List (String × Nat))
  /-- The runs of equal slots of a finger table: first slot, last slot, content. -/
  | slots (runs : List (Nat × Nat × Option Token))
  /-- The storages of a store with their records. -/
  | contents (storages : List (String × List Record))
  /-- The identifiers in the directory. -/
  | directory (ids : List Token)

namespace Answer

/-- Nothing to tell. -/
def nothing : Answer := value .nothing ()

/-- A yes or a no. -/
def flag (answer : Bool) : Answer := value .flag answer

end Answer

/-- Why a session has no answer to an instruction. -/
inductive Complaint where
  /-- An operation failed. -/
  | failed (failure : Failure)
  /-- A store refused. -/
  | refused (error : StoreError)
  /-- A field of the instruction leads nowhere. -/
  | unusable (field : String)

/-- A question to a store, answered under a credential. -/
def Store.ask (store : Store) (credential : Credential) :
    StoreQuery → Except StoreError Answer × Store
  | @StoreQuery.call shape call =>
    match store.perform credential call with
    | (.ok value, left) => (.ok (.value shape value), left)
    | (.error error, left) => (.error error, left)
  | .count storage => (.ok (.value .count (store.count storage)), store)
  | .isEmpty => (.ok (.flag store.isEmpty), store)

/-- What a node is told to do in a session. -/
inductive Errand where
  /-- One operation of the node. -/
  | operation {shape : Shape} (operation : Operation shape)
  /-- Some refreshes of single routing slots, up to the first failure. -/
  | fixFingers (times : Nat)
  /-- A call to whatever the directory leads to. -/
  | request {shape : Shape} (request : Request shape)

/-- The instructions of a session. -/
inductive Instruction where
  /-- Add a node. -/
  | node (setup : NodeSetup)
  /-- Add a scripted peer. -/
  | script (script : Script)
  /-- What was a scripted peer asked? -/
  | scriptLog (id : Token)
  /-- Let the directory lead to a node again. -/
  | register (id : Token)
  /-- Let the directory lead nowhere for an identifier. -/
  | unregister (id : Token)
  /-- What is in the directory? -/
  | directory
  /-- Does the directory know an identifier? -/
  | find (id : Token)
  /-- Whom does the directory lead to? -/
  | identify (id : Token)
  /-- Let calls of a kind to a node fail or pass. -/
  | fault (id : Token) (method : Method) (on : Bool)
  /-- Hold calls of a kind to a node back. -/
  | delay (id : Token) (method : Method) (millis : Nat)
  /-- How many calls of each kind has a node seen? -/
  | counts (id : Token)
  /-- How often has each counted event happened? -/
  | tallies
  /-- Let time pass. -/
  | advance (millis : Nat)
  /-- Repair the ring in rounds. -/
  | rounds (count : Nat) (fingers : Bool)
  /-- Start the maintenance of a node. -/
  | maintain (id : Token)
  /-- End the maintenance of a node, and wait for its loops unless told otherwise. -/
  | stop (id : Token) (wait : Bool)
  /-- What is in the store of a node? -/
  | dump (id : Token)
  /-- Ask the store of a node directly, under the given credential or the one it is bound to. -/
  | store (id : Token) (credential : Option Credential) (query : StoreQuery)
  /-- What is in the finger table of a node? -/
  | fingers (id : Token)
  /-- How does a node present itself? -/
  | inspect (id : Token)
  /-- Carry an errand out, or set it going under a name. -/
  | errand (id : Token) (errand : Errand) (name : Option String)
  /-- What has become of a named errand? -/
  | poll (name : String)
  /-- Wait for a named errand. -/
  | wait (name : String)

/-- What a session shows of a node. -/
structure Row where
  /-- The identifier. -/
  id : Token
  /-- The lifecycle state. -/
  lifecycle : Lifecycle
  /-- The predecessor. -/
  predecessor : Option Token
  /-- The successor. -/
  successor : Option Token
  /-- The migration source. -/
  migrationSource : Option Token
  /-- The number of records in the store. -/
  records : Nat
  deriving DecidableEq

/-- The report of an instruction. -/
structure Report where
  /-- The answer, or why there is none. -/
  result : Except Complaint Answer
  /-- The moment after the instruction. -/
  moment : Nat
  /-- The rows that the instruction changed, in the order of the identifiers. -/
  changed : List Row

/-- The row of a node. -/
def Node.row (node : Node) : Row where
  id := node.id
  lifecycle := node.lifecycle
  predecessor := node.predecessor
  successor := node.successor
  migrationSource := node.migrationSource
  records := node.store.total

/-- The runs of equal slots in a list of slot contents that starts at a slot. -/
def slotRuns (start : Nat) : List (Option Token) → List (Nat × Nat × Option Token)
  | [] => []
  | content :: rest =>
    match slotRuns (start + 1) rest with
    | (_, last, next) :: runs =>
      if next = content then (start, last, content) :: runs
      else (start, start, content) :: (start + 1, last, next) :: runs
    | [] => [(start, start, content)]

namespace Cluster

/-- The rows of the present nodes. -/
def rows (cluster : Cluster) : List Row :=
  cluster.nodes.values.filterMap fun handle =>
    (cluster.net.member? handle).map fun member => member.node.row

/-- The rows of the present nodes that were not there before. -/
def changedRows (before after : List Row) : List Row := after.filter fun row => !before.contains row

/-- The answer that an ended task leaves. -/
def answerOf : Ending → Except Complaint Answer
  | ⟨shape, .ok value⟩ => .ok (.value shape value)
  | ⟨_, .error failure⟩ => .error (.failed failure)

/-- How an errand at an identifier begins: with a task, or with its end, if there is nothing to do
or nobody to ask. -/
def errandTask (cluster : Cluster) (id : Token) : Errand → Except Complaint (Except Ending Task)
  | .operation operation =>
    match cluster.nodes[id]? with
    | none => .error (.unusable "id")
    | some handle => .ok (.ok (Network.taskOf (.client []) handle operation))
  | .fixFingers times =>
    match cluster.nodes[id]? with
    | none => .error (.unusable "id")
    | some handle => .ok (sequence (List.replicate times (handle, .fixFingers)))
  | @Errand.request shape request =>
    match cluster.net.directory[id]? with
    | none => .ok (.error ⟨shape, .error (.nodeUnreachable id)⟩)
    | some handle => .ok (.ok ⟨.client [], shape, .send handle request, .root⟩)

/-- Waits for a task and takes its answer. -/
def collect (cluster : Cluster) (number : Nat) : Except Complaint Answer × Cluster :=
  let waited := cluster.await number
  match waited.ending? number with
  | some ending => (answerOf ending, waited.forget number)
  | none => (.ok .pending, waited)

/-- Carries a task out and answers with its outcome. -/
def carryOut (cluster : Cluster) : Except Ending Task → Except Complaint Answer × Cluster
  | .error ending => (answerOf ending, cluster)
  | .ok task =>
    let (number, launched) := cluster.launch task
    launched.collect number

/-- Sets a task going under a name. -/
def launchNamed (cluster : Cluster) (name : String) (beginning : Except Ending Task) : Cluster :=
  match beginning with
  | .ok task =>
    let (number, launched) := cluster.launch task
    { launched with named := launched.named.insert name number }
  | .error ending =>
    let number := cluster.net.nextTask
    { cluster with
      net := { cluster.net with
        nextTask := number + 1
        endings := cluster.net.endings.insert number ending }
      named := cluster.named.insert name number }

/-- Answers what the link of a present node lets read, or changes it. -/
def withLink (cluster : Cluster) (id : Token) (change : Link → Answer × Link) :
    Except Complaint Answer × Cluster :=
  match cluster.member? id with
  | none => (.error (.unusable "id"), cluster)
  | some (handle, member) =>
    let (answer, link) := change member.link
    (.ok answer, cluster.setMember handle { member with link := link })

/-- Answers what a present node lets read. -/
def withNode (cluster : Cluster) (id : Token) (answer : Node → Answer) :
    Except Complaint Answer × Cluster :=
  match cluster.node? id with
  | none => (.error (.unusable "id"), cluster)
  | some node => (.ok (answer node), cluster)

/-- Carries an instruction out. -/
def execute (cluster : Cluster) : Instruction → Except Complaint Answer × Cluster
  | .node setup => (.ok .nothing, cluster.addNode setup)
  | .script script => (.ok .nothing, cluster.addScript script)
  | .scriptLog id =>
    match cluster.scripts[id]?.bind cluster.net.script? with
    | none => (.error (.unusable "id"), cluster)
    | some script => (.ok (.texts script.log.reverse), cluster)
  | .register id =>
    match cluster.nodes[id]? with
    | none => (.error (.unusable "id"), cluster)
    | some handle => (.ok .nothing, { cluster with net := cluster.net.register id handle })
  | .unregister id =>
    (.ok (.flag (cluster.net.directory.contains id)),
      { cluster with net := cluster.net.unregister id })
  | .directory => (.ok (.directory cluster.net.directory.keys), cluster)
  | .find id =>
    let found := if cluster.net.directory.contains id then some id else none
    (.ok (.value .knownId found), cluster)
  | .identify id =>
    if cluster.net.directory.contains id then (.ok (.value .id id), cluster)
    else (.error (.failed (.nodeUnreachable id)), cluster)
  | .fault id method on =>
    cluster.withLink id fun link => (.flag (link.fails method != on), link.setFault method on)
  | .delay id method millis =>
    cluster.withLink id fun link => (.nothing, link.setDelay method millis)
  | .counts id =>
    cluster.withLink id fun link =>
      (.tallies (link.counts.map fun (method, count) => (method.name, count)), link)
  | .tallies =>
    (.ok (.tallies (cluster.net.tallies.map fun (counter, count) => (counter.name, count))),
      cluster)
  | .advance millis => (.ok .nothing, cluster.advance millis)
  | .rounds count fingers =>
    cluster.carryOut (sequence (roundTasks cluster.nodes.values count fingers))
  | .maintain id =>
    if cluster.nodes.contains id then (.ok .nothing, cluster.maintain id)
    else (.error (.unusable "id"), cluster)
  | .stop id wait =>
    match cluster.stopMaintenance id with
    | (none, same) => (.ok (.flag false), same)
    | (some numbers, stopped) =>
      (.ok (.flag true), if wait then stopped.awaitAll numbers else stopped)
  | .dump id => cluster.withNode id fun node => .contents node.store.contents
  | .store id credential query =>
    match cluster.member? id with
    | none => (.error (.unusable "id"), cluster)
    | some (handle, member) =>
      let store := member.node.store
      let presented := credential.getD (store.required.getD Credential.standard)
      let (answer, left) := store.ask presented query
      (answer.mapError .refused,
        cluster.setMember handle { member with node := { member.node with store := left } })
  | .fingers id =>
    cluster.withNode id fun node => .slots (slotRuns 0 node.fingers.entries.toList)
  | .inspect id => cluster.withNode id fun node => .text node.inspect
  | .errand id errand name =>
    match cluster.errandTask id errand, name with
    | .error complaint, _ => (.error complaint, cluster)
    | .ok beginning, none => cluster.carryOut beginning
    | .ok beginning, some name => (.ok .started, cluster.launchNamed name beginning)
  | .poll name =>
    match cluster.named[name]? with
    | none => (.error (.unusable "name"), cluster)
    | some number =>
      match cluster.ending? number with
      | none => (.ok .pending, cluster)
      | some ending =>
        (answerOf ending, { cluster.forget number with named := cluster.named.erase name })
  | .wait name =>
    match cluster.named[name]? with
    | none => (.error (.unusable "name"), cluster)
    | some number =>
      match cluster.collect number with
      | (.ok .pending, waited) => (.ok .pending, waited)
      | (answer, waited) => (answer, { waited with named := waited.named.erase name })

/-- Carries an instruction out, settles the cluster, and reports. -/
def report (cluster : Cluster) (before : List Row) (instruction : Instruction) :
    Report × List Row × Cluster :=
  let (result, after) := cluster.execute instruction
  let settled := after.settle
  let rows := settled.rows
  (⟨result, settled.net.now, changedRows before rows⟩, rows, settled)

/-- The reports of a session on a cluster, given the rows already shown. -/
def session (cluster : Cluster) (before : List Row) : List Instruction → List Report
  | [] => []
  | instruction :: rest =>
    let (report, rows, after) := cluster.report before instruction
    report :: after.session rows rest

end Cluster

end RecordRing
