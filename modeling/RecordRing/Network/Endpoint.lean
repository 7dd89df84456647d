import RecordRing.Node.Basic

/-!
# Ends of links

Behind every link of the network stands a member, which is a node with its store and its link, or a
scripted peer, which gives fixed answers and keeps a log of what it was asked.

A link counts the calls that pass it by kind, holds calls back for a time, and fails calls of chosen
kinds.
-/

namespace RecordRing

/-- A link to a node. -/
structure Link where
  /-- How long calls of a kind are held back; kinds without an entry pass at once. -/
  delays : List (Method × Nat)
  /-- The kinds of calls that fail. -/
  faults : List Method
  /-- How many calls of a kind have been made; kinds without an entry have seen none. -/
  counts : List (Method × Nat)

namespace Link

/-- A link that neither delays nor fails calls, over which none has been made. -/
def clear : Link := ⟨[], [], []⟩

/-- How long a call of a kind is held back.  Asking for a successor is never held back. -/
def delay (link : Link) (method : Method) : Nat :=
  if method = .successor then 0 else (link.delays.lookup method).getD 0

/-- Whether calls of a kind fail. -/
def fails (link : Link) (method : Method) : Bool := link.faults.contains method

/-- How many calls of a kind have been made. -/
def count (link : Link) (method : Method) : Nat := (link.counts.lookup method).getD 0

/-- An association with the value of a key overwritten. -/
def assign (method : Method) (value : Nat) (entries : List (Method × Nat)) : List (Method × Nat) :=
  (method, value) :: entries.filter fun entry => entry.1 ≠ method

/-- The link after one more call of a kind.  Asking for a successor is not counted. -/
def counting (link : Link) (method : Method) : Link :=
  if method = .successor then link
  else { link with counts := assign method (link.count method + 1) link.counts }

/-- The link with the delay of a kind overwritten. -/
def setDelay (link : Link) (method : Method) (millis : Nat) : Link :=
  { link with delays := assign method millis link.delays }

/-- The link with calls of a kind failing or passing. -/
def setFault (link : Link) (method : Method) (on : Bool) : Link :=
  let others := link.faults.filter fun fault => fault ≠ method
  { link with faults := if on then method :: others else others }

/-- What a failing link answers for a node. -/
def fault (node : Token) (method : Method) : Failure :=
  let name := method.name
  .remote node s!"injected {name} fault"

end Link

/-- How long the calls on a store take. -/
structure StoreDelay where
  create : Nat
  read : Nat
  update : Nat
  delete : Nat
  keys : Nat
  names : Nat

namespace StoreDelay

/-- No call takes any time. -/
def zero : StoreDelay := ⟨0, 0, 0, 0, 0, 0⟩

/-- How long a call takes. -/
def of (delay : StoreDelay) {shape : Shape} : StoreCall shape → Nat
  | .record (.create ..) => delay.create
  | .record (.read ..) => delay.read
  | .record (.update ..) => delay.update
  | .record (.delete ..) => delay.delete
  | .keys _ => delay.keys
  | .names => delay.names

end StoreDelay

/-- A node in the network, with its link, and with the sender of its reports of moved records. -/
structure Member where
  /-- The node. -/
  node : Node
  /-- The link over which peers reach the node. -/
  link : Link
  /-- How long calls on the node's store take. -/
  storeDelay : StoreDelay
  /-- The requesters whose reports have been handed to the sender but not sent, oldest first. -/
  outbox : List Token
  /-- Whether the sender is at work. -/
  sending : Bool

/-- A peer that gives fixed answers. -/
structure Script where
  /-- The identifier of the peer. -/
  id : Token
  /-- The successor that it names. -/
  successor : Option Token
  /-- The predecessor that it names. -/
  predecessor : Option Token
  /-- The owner that it names for every key; without one it has no successor yet. -/
  found : Option Token
  /-- The closer peer that it names for every key; without one it names itself. -/
  closest : Option Token
  /-- The record that it has under every key. -/
  record : Option Stored
  /-- Whether it claims to have deleted a record. -/
  deletes : Bool
  /-- What it was asked, latest first. -/
  log : List String

/-- The two hexadecimal digits of a byte. -/
def hexByte (byte : UInt8) : String :=
  let digit (value : Nat) : Char := (Nat.toDigits 16 value).headD '0'
  String.ofList [digit (byte.toNat / 16), digit (byte.toNat % 16)]

/-- A payload in hexadecimal digits. -/
def hex (content : List UInt8) : String := String.join (content.map hexByte)

/-- The log line of a call; asking for a successor leaves none. -/
def Request.logLine? {shape : Shape} (request : Request shape) : Option String :=
  let name := request.method.name
  let parts : Option (List String) :=
    match request with
    | .findSuccessor key => some [key.render]
    | .closestPrecedingFinger key => some [key.render]
    | .successor => none
    | .predecessor => some []
    | .notify candidate => some [candidate.render]
    | .migrationEnded source => some [source.render]
    | .requestMigration requester => some [requester.render]
    | .record (.create storage key content version) =>
      some [storage, key.render, hex content, toString version]
    | .record (.read storage key) => some [storage, key.render]
    | .record (.update storage key content version) =>
      some [storage, key.render, hex content, toString version]
    | .record (.delete storage key version) => some [storage, key.render, toString version]
  parts.map fun words => " ".intercalate (name :: words)

namespace Script

/-- What a scripted peer answers. -/
def answer (script : Script) {shape : Shape} : Request shape → Outcome shape
  | .findSuccessor _ =>
    match script.found with
    | some found => .ok found
    | none => .error (.noSuccessor script.id)
  | .closestPrecedingFinger _ => .ok (script.closest.getD script.id)
  | .successor => .ok script.successor
  | .predecessor => .ok script.predecessor
  | .notify _ => .ok ()
  | .migrationEnded _ => .ok ()
  | .requestMigration _ => .ok ()
  | .record (.create _ _ _ version) => .ok version
  | .record (.read _ key) =>
    .ok (script.record.map fun stored => ⟨key, stored.content, stored.version⟩)
  | .record (.update _ _ _ version) => .ok version
  | .record (.delete ..) => .ok script.deletes

/-- The peer after a call. -/
def asked (script : Script) {shape : Shape} (request : Request shape) : Script :=
  match request.logLine? with
  | some line => { script with log := line :: script.log }
  | none => script

end Script

/-- What stands behind a link. -/
inductive Endpoint where
  /-- A node. -/
  | member (member : Member)
  /-- A peer that gives fixed answers. -/
  | scripted (script : Script)

end RecordRing
