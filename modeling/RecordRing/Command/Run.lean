import RecordRing.Command.Line
import RecordRing.Command.Report
import RecordRing.Command.Trial

/-!
# Running commands

`simulate` lets a maintained ring come into order, stores records at their owners, lets one more
node join, waits until the ring is in order again, and takes stock.  `lookup` repairs a fresh ring
in rounds and asks every node for the owner of one key.  Both work on virtual time.
-/

namespace RecordRing

namespace Trial

/-- The storage of the records of a simulation. -/
def storage : String := "records"

/-- Ordinary tunables with one period for every maintenance loop. -/
def paced (period : Nat) : Config :=
  { Config.standard with
    stabilizePeriod := period
    fixFingersPeriod := period
    fixPredecessorPeriod := period }

/-- Stores the record of a number at the owner of its key. -/
def storeRecord (founder : Token) (number : Nat) : Trial Unit := do
  let key := Token.ofKey s!"record-{number}"
  let owner ← ownerOf founder key
  if (← get).net.directory.contains owner then
    let content := s!"value-{number}".toUTF8.toList
    let _ ← ask owner (.serve (.record (.create storage key content 0)))
  else throw (.ownerUnknown owner)

/-- The keys of the records that a node holds. -/
def keysAt (id : Token) : Trial (List Token) := do
  match (← get).node? id with
  | none => throw (.failed (.nodeUnreachable id))
  | some node =>
    match node.store.keys node.config.credential storage with
    | .ok keys => return keys
    | .error error => throw (.failed (.store error))

/-- Takes stock of a node: what it holds, and the owners of those of its records that belong
elsewhere. -/
def stockOf (founder id : Token) : Trial (Placement × List Token) := do
  let keys ← keysAt id
  let owners ← keys.mapM (ownerOf founder)
  match (← get).node? id with
  | none => throw (.failed (.nodeUnreachable id))
  | some node =>
    return (⟨id, node.lifecycle, keys.length⟩, owners.filter fun owner => decide (owner ≠ id))

/-- Takes stock of a ring that a node has joined late. -/
def takeStock (founder joiner : Token) (members : List Token) : Trial SimulationReport := do
  let ring ← ask founder .ringMembers
  let stock ← members.mapM (stockOf founder)
  let placements := stock.map Prod.fst
  return {
    ring := ring
    nodes := placements.mergeSort fun a b => decide (a.id ≤ b.id)
    joiner := joiner
    moved := ((placements.find? fun placement => placement.id = joiner).map (·.records)).getD 0
    misplaced := (stock.flatMap Prod.snd).length }

/-- Builds a maintained ring, stores records, adds a late joiner, and takes stock. -/
def simulate (nodes records periodMillis settleSeconds : Nat) : Trial SimulationReport := do
  let config := paced (max periodMillis 1)
  let (founder, others) ← build config nodes
  let members := founder :: others
  members.forM maintain
  awaitRing members settleSeconds
  (List.range records).forM (storeRecord founder)
  let joiner ← add config nodes
  ask joiner (.join founder)
  maintain joiner
  awaitRing (members ++ [joiner]) settleSeconds
  takeStock founder joiner (members ++ [joiner])

/-- Builds a ring, repairs it, and finds the owner of a key, on which all nodes must agree. -/
def lookup (key : String) (nodes : Nat) : Trial LookupReport := do
  let (founder, others) ← build Config.standard nodes
  let members := founder :: others
  repair members (nodes + 1)
  let token := Token.ofKey key
  let owner ← ownerOf founder token
  members.forM fun id => do
    let seen ← ownerOf id token
    if seen ≠ owner then throw (.disagreement id key seen owner)
  return ⟨key, token, owner, ← ask founder .ringMembers⟩

end Trial

/-- The procedure of a command. -/
def Command.trial : Command → Trial CommandReport
  | simulate nodes records periodMillis settleSeconds =>
    CommandReport.simulation <$> Trial.simulate nodes records periodMillis settleSeconds
  | lookup key nodes => CommandReport.lookup <$> Trial.lookup key nodes

/-- The report of a command, carried out on an empty cluster. -/
def Command.run (command : Command) : Except Trouble CommandReport :=
  Prod.fst <$> command.trial.run Cluster.empty

/-- What a command line prints. -/
def CommandLine.output (line : CommandLine) : Except Trouble String := do
  return (← line.command.run).printed line.asDocument

end RecordRing
