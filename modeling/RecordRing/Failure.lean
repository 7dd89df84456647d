import RecordRing.Store
import RecordRing.Text.Elapsed

/-!
# Failures of ring operations

Why an operation on a node, or a call to a peer, ends without an answer.
-/

namespace RecordRing

/-- Why an operation ends without an answer. -/
inductive Failure where
  /-- The directory holds no peer of this identifier. -/
  | nodeUnreachable (node : Token)
  /-- The node has neither founded nor joined a ring. -/
  | noSuccessor (node : Token)
  /-- A lookup asked as many peers as it may. -/
  | hopLimitExceeded (key : Token) (hops : Nat)
  /-- The lock of a record did not become free in time. -/
  | lockTimeout (key : Token) (timeout : Nat)
  /-- The node was still joining when patience ran out. -/
  | joinWaitTimeout (node : Token) (waited : Nat)
  /-- A peer reported a failure of its own. -/
  | remote (node : Token) (report : String)
  /-- The store refused a call. -/
  | store (error : StoreError)
  /-- A number stood for nothing in the ring's vocabulary. -/
  | range (error : RangeError)
  deriving DecidableEq

namespace Failure

/-- The text of a failure. -/
def message : Failure → String
  | nodeUnreachable node =>
    let shown := node.render
    s!"node {shown} is not reachable through the directory"
  | noSuccessor node =>
    let shown := node.render
    s!"node {shown} has no successor yet"
  | hopLimitExceeded key hops =>
    let shown := key.render
    s!"lookup of key {shown} exceeded {hops} hops"
  | lockTimeout key timeout =>
    let shown := key.render
    let waited := Text.elapsed timeout
    s!"timed out after {waited} waiting for the lock on record {shown}"
  | joinWaitTimeout node waited =>
    let shown := node.render
    let time := Text.elapsed waited
    s!"node {shown} is still joining after {time}"
  | remote node report =>
    let shown := node.render
    s!"remote call to node {shown} failed: {report}"
  | store error => error.message
  | range error => error.message

/-- Whether the failure says that a record is missing. -/
def isNotFound : Failure → Bool
  | store (.notFound _ _) => true
  | _ => false

end Failure

end RecordRing
