import RecordRing.Token

/-!
# The lifecycle of a node

A node joins, merges the records of its interval, and is then stable.  The three states have the
raw bytes 0, 1 and 2.  Apart from the resets of ring creation and joining, a state changes only by a
guarded move, so repeating a move changes nothing.
-/

namespace RecordRing

/-- How far a node has come in taking over its interval. -/
inductive Lifecycle where
  /-- No predecessor has been accepted yet; client traffic waits. -/
  | joining
  /-- Traffic is served while records still arrive from the previous owner. -/
  | merging
  /-- The node is fully responsible for its interval. -/
  | stable
  deriving DecidableEq, Repr, Inhabited

namespace Lifecycle

/-- The byte of a state. -/
def toByte : Lifecycle → UInt8
  | joining => 0
  | merging => 1
  | stable => 2

/-- The state a byte encodes, if it encodes one. -/
def ofByte (raw : UInt8) : Except RangeError Lifecycle :=
  if raw = 0 then .ok joining
  else if raw = 1 then .ok merging
  else if raw = 2 then .ok stable
  else .error (.lifecycle raw)

@[simp] theorem ofByte_toByte (state : Lifecycle) : ofByte state.toByte = .ok state := by
  cases state <;> rfl

/-- The name of a state. -/
def render : Lifecycle → String
  | joining => "JOINING"
  | merging => "MERGING"
  | stable => "STABLE"

/-- A state as inspection output shows it. -/
def inspect : Lifecycle → String
  | joining => "Joining"
  | merging => "Merging"
  | stable => "Stable"

/-- The holder of a state as inspection output shows it. -/
def inspectHeld (state : Lifecycle) : String :=
  let shown := state.inspect
  s!"RingState({shown})"

/-- The guarded move: the state becomes `target` if it was `source`, and the flag says whether it
was. -/
def transition (state source target : Lifecycle) : Bool × Lifecycle :=
  if state = source then (true, target) else (false, state)

end Lifecycle

end RecordRing
