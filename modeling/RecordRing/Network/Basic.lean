import RecordRing.Network.Endpoint
import RecordRing.Node.Work

/-!
# Networks

A network holds the ends of its links, the directory that maps identifiers to links, and the tasks
at work.  A task is a stack of waiting operations, possibly of several nodes, under a `Control` that
says what happens next.  `Network.step` carries one task on by one step; between two steps of a task
any other task may take its own.

## Implementation notes

The stack is indexed by the shape of the answer that its top frame waits for, so an answer always
fits the frame that receives it.  Waiting for time or for a lock is part of the control, and a task
whose control waits takes no step until it is woken.
-/

namespace RecordRing

/-- Waiting operations, innermost first, by the shape of the answer that is awaited. -/
inductive Stack : Shape → Type where
  /-- Nothing waits: the answer ends the task. -/
  | root {shape : Shape} : Stack shape
  /-- An operation of a member waits, above the operations that wait for it. -/
  | frame {shape result : Shape} (member : Handle) (frame : Frame shape result)
      (below : Stack result) : Stack shape

/-- What happens next to a task whose innermost operation waits for an answer of a shape. -/
inductive Control : Shape → Type where
  /-- The answer arrives. -/
  | answer {shape : Shape} (outcome : Outcome shape) : Control shape
  /-- A member starts an operation. -/
  | start {shape : Shape} (member : Handle) (operation : Operation shape) : Control shape
  /-- A call is sent over a link. -/
  | send {shape : Shape} (peer : Handle) (request : Request shape) : Control shape
  /-- A call arrives at the end of a link. -/
  | arrive {shape : Shape} (peer : Handle) (request : Request shape) : Control shape
  /-- A member's store carries out a call. -/
  | access {shape : Shape} (member : Handle) (call : StoreCall shape) : Control shape
  /-- Time passes up to a moment, and then the task goes on. -/
  | hold {shape : Shape} (moment : Nat) (next : Control shape) : Control shape
  /-- A lock of a member is awaited up to a deadline. -/
  | queue (member : Handle) (id : LockId) (deadline : Nat) : Control .nothing

namespace Control

/-- The moment up to which a control waits, if it waits. -/
def waitsUntil? {shape : Shape} : Control shape → Option Nat
  | .hold moment _ => some moment
  | .queue _ _ deadline => some deadline
  | _ => none

/-- A control after a delay; no delay at all is no wait. -/
def after {shape : Shape} (now delay : Nat) (next : Control shape) : Control shape :=
  if delay = 0 then next else .hold (now + delay) next

end Control

/-- A loop that carries out an operation of a member again and again. -/
structure Loop where
  /-- The member. -/
  member : Handle
  /-- The operation. -/
  operation : Operation .nothing
  /-- The time from one tick to the next. -/
  period : Nat
  /-- The moment of the next tick. -/
  next : Nat
  /-- Whether the loop ends before its next tick. -/
  stopping : Bool

/-- What the end of a task's outermost operation leads to. -/
inductive Purpose where
  /-- Someone wants the outcome; after a success the operations that are left come first. -/
  | client (rest : List (Handle × Operation .nothing))
  /-- Nobody wants the outcome. -/
  | background
  /-- The sender of a member's reports goes on to its next report. -/
  | sender (member : Handle)
  /-- A loop waits for its next tick. -/
  | loop (loop : Loop)

/-- Operations under way. -/
structure Task where
  /-- What the end of the outermost operation leads to. -/
  purpose : Purpose
  /-- The shape of the answer that the innermost operation waits for. -/
  shape : Shape
  /-- What happens next. -/
  control : Control shape
  /-- The operations that wait. -/
  stack : Stack shape

/-- The outcome of a task, with its shape. -/
structure Ending where
  /-- The shape of the answer. -/
  shape : Shape
  /-- The answer, or the reason why there is none. -/
  outcome : Outcome shape

/-- The outcome of an ending as one of a given shape, if it has that shape. -/
def Ending.as? (shape : Shape) (ending : Ending) : Option (Outcome shape) :=
  if h : ending.shape = shape then some (h ▸ ending.outcome) else none

/-- The members of a network, its directory, and the tasks at work. -/
structure Network where
  /-- The present moment, in milliseconds. -/
  now : Nat
  /-- The ends of the links, by handle. -/
  endpoints : Array Endpoint
  /-- The link to the peer of each identifier that can be reached. -/
  directory : Std.TreeMap Token Handle
  /-- The tasks that have not ended, by number. -/
  tasks : Std.TreeMap Nat Task
  /-- The tasks that can go on, in the order in which they became able to. -/
  ready : List Nat
  /-- The tasks that wait for a moment, in the order in which they began to. -/
  waiting : List Nat
  /-- The number of the next task. -/
  nextTask : Nat
  /-- The outcomes of ended tasks that someone wants, by number. -/
  endings : Std.TreeMap Nat Ending
  /-- How often each counted event has happened; events without an entry have not. -/
  tallies : List (Counter × Nat)

namespace Network

/-- The network without links and tasks. -/
def empty : Network where
  now := 0
  endpoints := #[]
  directory := ∅
  tasks := ∅
  ready := []
  waiting := []
  nextTask := 0
  endings := ∅
  tallies := []

instance : Inhabited Network := ⟨empty⟩

/-- The member of a handle, if there is one. -/
def member? (net : Network) (handle : Handle) : Option Member :=
  match net.endpoints[handle]? with
  | some (.member member) => some member
  | _ => none

/-- The scripted peer of a handle, if there is one. -/
def script? (net : Network) (handle : Handle) : Option Script :=
  match net.endpoints[handle]? with
  | some (.scripted script) => some script
  | _ => none

/-- The network with a member overwritten. -/
def setMember (net : Network) (handle : Handle) (member : Member) : Network :=
  { net with endpoints := net.endpoints.setIfInBounds handle (.member member) }

/-- The network with a scripted peer overwritten. -/
def setScript (net : Network) (handle : Handle) (script : Script) : Network :=
  { net with endpoints := net.endpoints.setIfInBounds handle (.scripted script) }

/-- The network with one more end of a link, and the handle to it. -/
def attach (net : Network) (endpoint : Endpoint) : Handle × Network :=
  (net.endpoints.size, { net with endpoints := net.endpoints.push endpoint })

/-- The network with an identifier leading to a link. -/
def register (net : Network) (id : Token) (handle : Handle) : Network :=
  { net with directory := net.directory.insert id handle }

/-- The network with an identifier leading nowhere. -/
def unregister (net : Network) (id : Token) : Network :=
  { net with directory := net.directory.erase id }

/-- What a node of the network sees at present. -/
def surroundings (net : Network) : Surroundings where
  now := net.now
  find? id := net.directory[id]?

/-- The number of times that an event has happened. -/
def tally (net : Network) (counter : Counter) : Nat := (net.tallies.lookup counter).getD 0

/-- The network after one more occurrence of an event. -/
def count (net : Network) (counter : Counter) : Network :=
  { net with
    tallies := (counter, net.tally counter + 1) ::
      net.tallies.filter fun entry => entry.1 ≠ counter }

/-- The network with a task put among those at work. -/
def putTask (net : Network) (number : Nat) (task : Task) : Network :=
  { net with tasks := net.tasks.insert number task }

/-- The network with a task able to go on after all others that can. -/
def makeReady (net : Network) (number : Nat) : Network :=
  { net with ready := net.ready ++ [number], waiting := net.waiting.erase number }

/-- The network with a task among those that wait. -/
def makeWait (net : Network) (number : Nat) : Network :=
  { net with waiting := net.waiting ++ [number] }

/-- Adds a task without making it able to go on, and returns its number. -/
def addTask (net : Network) (task : Task) : Nat × Network :=
  (net.nextTask, { net.putTask net.nextTask task with nextTask := net.nextTask + 1 })

/-- Starts a task after all others that can go on. -/
def spawn (net : Network) (task : Task) : Network :=
  let (number, added) := net.addTask task
  added.makeReady number

/-- The task in which a member carries out an operation. -/
def taskOf (purpose : Purpose) (member : Handle) {shape : Shape} (operation : Operation shape) :
    Task :=
  ⟨purpose, shape, .start member operation, .root⟩

/-- Lets a task that waits for a lock go on as its holder. -/
def grant (net : Network) (number : Nat) : Network :=
  match net.tasks[number]? with
  | some ⟨purpose, .nothing, .queue _ _ _, stack⟩ =>
    (net.putTask number ⟨purpose, .nothing, .answer (.ok ()), stack⟩).makeReady number
  | _ => net

/-- Carries out a side effect of a member's work. -/
def perform (net : Network) (handle : Handle) (effect : Effect) : Network :=
  match net.member? handle with
  | none => net
  | some member =>
    match effect with
    | .release id =>
      let (next, locks) := member.node.locks.release id
      let freed := net.setMember handle { member with node := { member.node with locks := locks } }
      match next with
      | some number => freed.grant number
      | none => freed
    | .spawn operation => net.spawn (taskOf .background handle operation)
    | .announce requester =>
      if member.sending then
        net.setMember handle { member with outbox := member.outbox ++ [requester] }
      else
        (net.setMember handle { member with sending := true }).spawn
          (taskOf (.sender handle) handle (.reportMoved requester))
    | .tally counter => net.count counter

/-- What an action of a member leads to, under the operations that wait for its result. -/
def act (net : Network) (number : Nat) (purpose : Purpose) (handle : Handle) {result : Shape}
    (below : Stack result) : Action result → Network
  | .reply outcome => net.putTask number ⟨purpose, _, .answer outcome, below⟩
  | .ask .own request frame =>
    net.putTask number ⟨purpose, _, .start handle (.serve request), .frame handle frame below⟩
  | .ask (.remote peer) request frame =>
    net.putTask number ⟨purpose, _, .send peer request, .frame handle frame below⟩
  | .run operation frame =>
    net.putTask number ⟨purpose, _, .start handle operation, .frame handle frame below⟩
  | .call call frame =>
    let delay := (net.member? handle).elim 0 fun member => member.storeDelay.of call
    net.putTask number
      ⟨purpose, _, .after net.now delay (.access handle call), .frame handle frame below⟩
  | .sleep millis frame =>
    net.putTask number
      ⟨purpose, _, .after net.now millis (.answer (.ok ())), .frame handle frame below⟩
  | .lock id frame =>
    match net.member? handle with
    | none => net
    | some member =>
      let timeout := member.node.config.lockTimeout
      let deadline := net.now + timeout
      let (grant, locks) := member.node.locks.acquire id net.now ⟨number, deadline⟩
      let control : Control .nothing :=
        match grant with
        | .granted => .answer (.ok ())
        | .queued => .queue handle id deadline
        | .refused => .answer (.error (.lockTimeout id.key timeout))
      (net.setMember handle { member with node := { member.node with locks := locks } }).putTask
        number ⟨purpose, _, control, .frame handle frame below⟩

/-- Drops a task.  A task that stands at a handle without an end cannot go on. -/
def dropTask (net : Network) (number : Nat) : Network :=
  { net with tasks := net.tasks.erase number }

/-- Lets a member work for one turn: its node, its side effects, and its next action. -/
def work (net : Network) (number : Nat) (purpose : Purpose) (handle : Handle) {result : Shape}
    (below : Stack result) (turn : Node → Surroundings → Turn result) : Network :=
  match net.member? handle with
  | none => net.dropTask number
  | some member =>
    let done := turn member.node net.surroundings
    let changed := net.setMember handle { member with node := done.node }
    (done.effects.foldl (fun left effect => left.perform handle effect) changed).act number purpose
      handle below done.action

/-- Sends the next report of a member, or ends the sender when there is none. -/
def sendNext (net : Network) (number : Nat) (handle : Handle) : Network :=
  match net.member? handle with
  | none => net.dropTask number
  | some member =>
    match member.outbox with
    | [] => (net.setMember handle { member with sending := false }).dropTask number
    | requester :: rest =>
      (net.setMember handle { member with outbox := rest }).putTask number
        (taskOf (.sender handle) handle (.reportMoved requester))

/-- How far behind its schedule a loop may be without moving the schedule. -/
def tickTolerance : Nat := 5

/-- The moment of the tick after the one that is due.  A loop that is behind by more than the
tolerance counts its period from the present. -/
def nextTick (now : Nat) (loop : Loop) : Nat :=
  if loop.next + tickTolerance < now then now + loop.period else loop.next + loop.period

/-- Goes on with a loop between two ticks. -/
def goRound (net : Network) (number : Nat) (loop : Loop) : Network :=
  if loop.stopping then net.dropTask number
  else if loop.next ≤ net.now then
    net.putTask number
      (taskOf (.loop { loop with next := nextTick net.now loop }) loop.member loop.operation)
  else
    net.putTask number ⟨.loop loop, .nothing, .hold loop.next (.answer (.ok ())), .root⟩

/-- Ends the outermost operation of a task. -/
def finish (net : Network) (number : Nat) {shape : Shape} (outcome : Outcome shape) :
    Purpose → Network
  | .client [] =>
    { net.dropTask number with endings := net.endings.insert number ⟨shape, outcome⟩ }
  | .client ((handle, operation) :: rest) =>
    match outcome with
    | .ok _ => net.putTask number (taskOf (.client rest) handle operation)
    | .error _ =>
      { net.dropTask number with endings := net.endings.insert number ⟨shape, outcome⟩ }
  | .background => net.dropTask number
  | .sender handle => net.sendNext number handle
  | .loop loop => net.goRound number loop

/-- Sends a call over a link: the link counts it and may hold it back. -/
def send (net : Network) (number : Nat) (purpose : Purpose) (peer : Handle) {shape : Shape}
    (request : Request shape) (stack : Stack shape) : Network :=
  match net.member? peer with
  | none => net.putTask number ⟨purpose, shape, .arrive peer request, stack⟩
  | some member =>
    let counted := net.setMember peer { member with link := member.link.counting request.method }
    counted.putTask number
      ⟨purpose, shape, .after net.now (member.link.delay request.method) (.arrive peer request),
        stack⟩

/-- Lets a call arrive at the end of a link, where it fails, is served by a node, or is answered by
a scripted peer. -/
def arrive (net : Network) (number : Nat) (purpose : Purpose) (peer : Handle) {shape : Shape}
    (request : Request shape) (stack : Stack shape) : Network :=
  match net.endpoints[peer]? with
  | none => net.dropTask number
  | some (.scripted script) =>
    (net.setScript peer (script.asked request)).putTask number
      ⟨purpose, shape, .answer (script.answer request), stack⟩
  | some (.member member) =>
    if member.link.fails request.method then
      net.putTask number
        ⟨purpose, shape, .answer (.error (Link.fault member.node.id request.method)), stack⟩
    else net.putTask number ⟨purpose, shape, .start peer (.serve request), stack⟩

/-- Lets a member's store carry out a call. -/
def access (net : Network) (number : Nat) (purpose : Purpose) (handle : Handle) {shape : Shape}
    (call : StoreCall shape) (stack : Stack shape) : Network :=
  match net.member? handle with
  | none => net.dropTask number
  | some member =>
    let (answer, store) := member.node.store.perform member.node.config.credential call
    let outcome : Outcome shape :=
      match answer with
      | .ok value => .ok value
      | .error error => .error (.store error)
    (net.setMember handle { member with node := { member.node with store := store } }).putTask
      number ⟨purpose, shape, .answer outcome, stack⟩

/-- Carries a task on by one step.  A task that waits takes none. -/
def step (net : Network) (number : Nat) : Network :=
  match net.tasks[number]? with
  | none => net
  | some ⟨purpose, _, .answer outcome, .root⟩ => net.finish number outcome purpose
  | some ⟨purpose, _, .answer outcome, .frame handle frame below⟩ =>
    net.work number purpose handle below fun node around => node.resume around frame outcome
  | some ⟨purpose, _, .start handle operation, stack⟩ =>
    net.work number purpose handle stack fun node around => node.start around operation
  | some ⟨purpose, _, .send peer request, stack⟩ => net.send number purpose peer request stack
  | some ⟨purpose, _, .arrive peer request, stack⟩ => net.arrive number purpose peer request stack
  | some ⟨purpose, _, .access handle call, stack⟩ => net.access number purpose handle call stack
  | some ⟨_, _, .hold _ _, _⟩ => net
  | some ⟨_, _, .queue _ _ _, _⟩ => net

/-- Lets a waiting task go on because its time has come: a pause is over, and a lock that has not
been granted is given up. -/
def wake (net : Network) (number : Nat) : Network :=
  match net.tasks[number]? with
  | some ⟨purpose, shape, .hold _ next, stack⟩ =>
    (net.putTask number ⟨purpose, shape, next, stack⟩).makeReady number
  | some ⟨purpose, _, .queue handle id _, stack⟩ =>
    match net.member? handle with
    | none => net.dropTask number
    | some member =>
      let locks := member.node.locks.withdraw id number
      let timeout := member.node.config.lockTimeout
      ((net.setMember handle { member with node := { member.node with locks := locks } }).putTask
        number ⟨purpose, .nothing, .answer (.error (.lockTimeout id.key timeout)), stack⟩).makeReady
          number
  | _ => net

end Network

end RecordRing
