import RecordRing.Document.Basic
import RecordRing.Lifecycle
import RecordRing.Token

/-!
# Reports of commands

What `simulate` and `lookup` find out, with the two written forms of it: lines of text, and a
document spread over lines.

## Implementation notes

In the text the lifecycle state of a node is filled up to eight columns on the right and the number
of its records to six columns on the left; positions are not filled up.
-/

namespace RecordRing

/-- What one node of a simulated ring holds. -/
structure Placement where
  /-- The identifier of the node. -/
  id : Token
  /-- Its lifecycle state. -/
  lifecycle : Lifecycle
  /-- The number of its records. -/
  records : Nat
  deriving DecidableEq

/-- What a simulation finds out. -/
structure SimulationReport where
  /-- The nodes in the order of successors, from the founder. -/
  ring : List Token
  /-- What every node holds, in the order of the identifiers. -/
  nodes : List Placement
  /-- The node that joined late. -/
  joiner : Token
  /-- The number of records that the late joiner took over. -/
  moved : Nat
  /-- The number of records that are not at their owner. -/
  misplaced : Nat
  deriving DecidableEq

/-- What a lookup finds out. -/
structure LookupReport where
  /-- The key that was looked up. -/
  key : String
  /-- The position of the key. -/
  token : Token
  /-- The node that owns the key. -/
  owner : Token
  /-- The nodes in the order of successors, from the founder. -/
  ring : List Token
  deriving DecidableEq

/-- The report of a command. -/
inductive CommandReport where
  /-- The report of `simulate`. -/
  | simulation (report : SimulationReport)
  /-- The report of `lookup`. -/
  | lookup (report : LookupReport)
  deriving DecidableEq

/-- The line that shows a ring. -/
def ringLine (ring : List Token) : String :=
  let route := " -> ".intercalate (ring.map Token.render)
  s!"ring: {route}\n"

/-- Positions as a document. -/
def tokensDocument (tokens : List Token) : Document :=
  .list (tokens.map fun token => .number token.toNat)

namespace Placement

/-- The line that shows what a node holds, in a ring that a node joined late. -/
def line (placement : Placement) (joiner : Token) : String :=
  let id := placement.id.render
  let state := String.ofList (placement.lifecycle.render.toList.rightpad 8 ' ')
  let count := String.ofList ((toString placement.records).toList.leftpad 6 ' ')
  let marker := if placement.id = joiner then " (joined late)" else ""
  s!"  {id} {state} {count} records{marker}\n"

/-- What a node holds, as a document. -/
def document (placement : Placement) : Document :=
  .fields [("id", .number placement.id.toNat), ("state", .text placement.lifecycle.render),
    ("records", .number placement.records)]

end Placement

namespace SimulationReport

/-- The report in lines of text. -/
def text (report : SimulationReport) : String :=
  let nodes := String.join (report.nodes.map fun placement => placement.line report.joiner)
  ringLine report.ring ++ nodes ++
    s!"moved to joiner: {report.moved}\nmisplaced: {report.misplaced}\n"

/-- The report as a document. -/
def document (report : SimulationReport) : Document :=
  .fields [("command", .text "simulate"), ("ring", tokensDocument report.ring),
    ("nodes", .list (report.nodes.map Placement.document)),
    ("joiner", .number report.joiner.toNat), ("moved", .number report.moved),
    ("misplaced", .number report.misplaced)]

end SimulationReport

namespace LookupReport

/-- The report in lines of text. -/
def text (report : LookupReport) : String :=
  let key := Text.quoted report.key
  let token := report.token.render
  let owner := report.owner.render
  s!"key {key} -> token {token}\nowner: {owner}\n" ++ ringLine report.ring

/-- The report as a document. -/
def document (report : LookupReport) : Document :=
  .fields [("command", .text "lookup"), ("key", .text report.key),
    ("token", .number report.token.toNat), ("owner", .number report.owner.toNat),
    ("ring", tokensDocument report.ring)]

end LookupReport

namespace CommandReport

/-- The report in lines of text. -/
def text : CommandReport → String
  | simulation report => report.text
  | lookup report => report.text

/-- The report as a document. -/
def document : CommandReport → Document
  | simulation report => report.document
  | lookup report => report.document

/-- The report as it is printed. -/
def printed (report : CommandReport) (asDocument : Bool) : String :=
  if asDocument then report.document.spreadText ++ "\n" else report.text

end CommandReport

end RecordRing
