import RecordRing.Activity
import RecordRing.Arc
import RecordRing.Call
import RecordRing.Cluster.Basic
import RecordRing.Cluster.Session
import RecordRing.Command.Line
import RecordRing.Command.Report
import RecordRing.Command.Run
import RecordRing.Command.Trial
import RecordRing.Command.Usage
import RecordRing.Config
import RecordRing.Document.Basic
import RecordRing.Document.Scan
import RecordRing.Failure
import RecordRing.Fingers
import RecordRing.Hash.Key
import RecordRing.Hash.Sip
import RecordRing.IdCell
import RecordRing.Lifecycle
import RecordRing.Lock
import RecordRing.Lock.Balance
import RecordRing.Lock.Id
import RecordRing.Lock.Parties
import RecordRing.Lock.Registry
import RecordRing.Lock.Sound
import RecordRing.Main
import RecordRing.Network.Basic
import RecordRing.Network.Endpoint
import RecordRing.Network.Schedule
import RecordRing.Node.Basic
import RecordRing.Node.Membership
import RecordRing.Node.Migration
import RecordRing.Node.Records
import RecordRing.Node.Repair
import RecordRing.Node.Routing
import RecordRing.Node.Work
import RecordRing.Proofs.CircularOrder
import RecordRing.Proofs.Distance
import RecordRing.Proofs.ExactRouting
import RecordRing.Proofs.Fingers
import RecordRing.Proofs.Network.Contract
import RecordRing.Proofs.Network.Exclusion
import RecordRing.Proofs.Network.Locking
import RecordRing.Proofs.Network.Members
import RecordRing.Proofs.Network.Moves
import RecordRing.Proofs.Network.Onward
import RecordRing.Proofs.Network.Steps
import RecordRing.Proofs.Parties.Course
import RecordRing.Proofs.Ring.Contract
import RecordRing.Proofs.Ring.Convergence
import RecordRing.Proofs.Ring.Departure
import RecordRing.Proofs.Ring.Links
import RecordRing.Proofs.Ring.Repair
import RecordRing.Proofs.Ring.Safety
import RecordRing.Proofs.Ring.Strain
import RecordRing.Proofs.Ring.Turns
import RecordRing.Proofs.Routing
import RecordRing.Record.Basic
import RecordRing.Record.Reader
import RecordRing.Record.Writer
import RecordRing.Store
import RecordRing.Text.Elapsed
import RecordRing.Text.Quoted
import RecordRing.Text.Unprintable
import RecordRing.Token
import RecordRing.Proofs.Handover.Opening
import RecordRing.Proofs.Handover.Doubling
import RecordRing.Proofs.Handover.Pair
import RecordRing.Proofs.Handover.Pass
import RecordRing.Proofs.Handover.Fallback
import RecordRing.Proofs.Ring.Joining
import RecordRing.Proofs.Ring.Merging
import RecordRing.Proofs.Ring.Reach
import RecordRing.Proofs.Cluster.Lookup
import RecordRing.Proofs.Cluster.Simulation
import RecordRing.Proofs.Life.Lifecycle
import RecordRing.Proofs.Life.Reports
import RecordRing.Proofs.Life.Pointers
import RecordRing.Proofs.Life.Notices
import RecordRing.Proofs.Ring.Refresh
import RecordRing.Proofs.Store.Series
import RecordRing.Proofs.Life.Threads
import RecordRing.Proofs.Life.Search
import RecordRing.Proofs.Life.Attempts
import RecordRing.Proofs.Ring.Replacement
import RecordRing.Proofs.Network.Patience
import RecordRing.Proofs.Arcs
import RecordRing.Proofs.Record.RoundTrip
import RecordRing.Proofs.Ring.Orbit
import RecordRing.Proofs.CircularArithmetic
import RecordRing.Proofs.Slots
