import RecordRing.Text.Quoted

/-!
# Configuration of a node

The tunables of a node, the identity it presents to its own store, and the storages whose records
never move between nodes.  All durations are in milliseconds.

## Implementation notes

Exclusion of a storage ignores the case of the letters `A` to `Z` and of no others.
-/

namespace RecordRing

/-- The identity that a party opening a store presents to it. -/
structure Credential where
  /-- The name of the party. -/
  principal : String
  /-- The secret that goes with the name. -/
  secret : String
  deriving DecidableEq, Repr

namespace Credential

/-- The identity that nodes present when none is configured. -/
def standard : Credential := ⟨"replicator", ""⟩

/-- An identity as inspection output shows it; the secret stays hidden. -/
def inspect (credential : Credential) : String :=
  let principal := Text.quoted credential.principal
  s!"Credential \x7b principal: {principal}, secret: \"<redacted>\" \x7d"

end Credential

/-- The tunables of a node. -/
structure Config where
  /-- The pause between checks while record operations wait out joining. -/
  joinPoll : Nat
  /-- How long record operations wait out joining; without a bound they wait forever. -/
  joinWait : Option Nat
  /-- How long an operation waits for a record lock. -/
  lockTimeout : Nat
  /-- How many peers a lookup may ask. -/
  maxHops : Nat
  /-- The period of successor repair. -/
  stabilizePeriod : Nat
  /-- The period of finger repair. -/
  fixFingersPeriod : Nat
  /-- The period of predecessor repair. -/
  fixPredecessorPeriod : Nat
  /-- The identity for every access to the node's own store. -/
  credential : Credential
  /-- The storages whose records stay where they are. -/
  excluded : List String
  deriving DecidableEq, Repr

namespace Config

/-- The tunables of an ordinary node. -/
def standard : Config where
  joinPoll := 100
  joinWait := some 60000
  lockTimeout := 500
  maxHops := 126
  stabilizePeriod := 1000
  fixFingersPeriod := 200
  fixPredecessorPeriod := 1000
  credential := Credential.standard
  excluded := []

/-- Tunables with short periods. -/
def brisk : Config :=
  { standard with
    joinPoll := 10
    joinWait := some 10000
    lockTimeout := 2000
    stabilizePeriod := 20
    fixFingersPeriod := 5
    fixPredecessorPeriod := 20 }

instance : Inhabited Config := ⟨standard⟩

/-- Equality of names up to the case of the letters `A` to `Z`. -/
def sameName (a b : String) : Bool := a.toList.map Char.toLower = b.toList.map Char.toLower

/-- Whether the records of a storage stay where they are. -/
def isExcluded (config : Config) (storage : String) : Bool :=
  config.excluded.any (sameName storage)

end Config

end RecordRing
