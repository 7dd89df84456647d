import RecordRing.Network.Basic

/-!
# Scheduling on virtual time

The tasks of a network are carried on one at a time, first come first served, each until it waits or
ends.  Time moves only when no task can go on, and then straight to the next moment for which one
waits.

## Implementation notes

Tasks that wait for one moment are woken in the order in which they began to wait.  A single task is
carried on for as long as it takes (`runTask`); how often tasks follow one another is bounded, and
`stepBudget` is more than any run of practical length takes.
-/

namespace RecordRing.Network

/-- The bound on the tasks that are carried on in a run. -/
def stepBudget : Nat := 1 <<< 50

/-- Whether a task is among those at work and does not wait. -/
def canGoOn (net : Network) (number : Nat) : Bool :=
  match net.tasks[number]? with
  | some task => task.control.waitsUntil?.isNone
  | none => false

/-- The network when one task has been carried on until it waits or ends. -/
def runTask (net : Network) (number : Nat) : Network :=
  Id.run <| net |> repeatM fun net =>
    pure <| if net.canGoOn number then .inl (net.step number)
      else .inr (if net.tasks.contains number then net.makeWait number else net)

/-- Takes a task out of those that are able to go on. -/
def takeReady (net : Network) (number : Nat) : Network :=
  { net with ready := net.ready.erase number }

/-- Carries tasks on until none can go on. -/
def settle : Nat → Network → Network
  | 0, net => net
  | budget + 1, net =>
    match net.ready with
    | [] => net
    | number :: rest => settle budget (runTask { net with ready := rest } number)

/-- The moment for which a task waits, if it waits. -/
def momentOf? (net : Network) (number : Nat) : Option Nat :=
  net.tasks[number]?.bind fun task => task.control.waitsUntil?

/-- The next moment for which a task waits, if one does. -/
def nextMoment? (net : Network) : Option Nat := (net.waiting.filterMap net.momentOf?).min?

/-- Moves time to a moment and wakes the tasks whose time has come. -/
def moveTo (net : Network) (moment : Nat) : Network :=
  let due := net.waiting.filter fun number =>
    (net.momentOf? number).any fun time => decide (time ≤ moment)
  due.foldl wake { net with now := moment }

/-- Lets time pass up to a moment.  What happens before the moment is carried out; tasks that are
woken at the moment itself are left able to go on. -/
def elapse : Nat → Network → Nat → Network
  | 0, net, _ => net
  | budget + 1, net, moment =>
    let settled := net.settle stepBudget
    match settled.nextMoment? with
    | some next => if next < moment then elapse budget (settled.moveTo next) moment
      else settled.moveTo moment
    | none => settled.moveTo moment

/-- Lets time pass up to a moment, or up to the end of a task if that comes first.  The task itself
goes on before any other. -/
def await : Nat → Network → Nat → Nat → Network
  | 0, net, _, _ => net
  | budget + 1, net, number, moment =>
    if net.canGoOn number then
      await budget ((net.takeReady number).runTask number) number moment
    else if net.tasks.contains number then
      match net.ready with
      | other :: rest =>
        await budget (runTask { net with ready := rest } other) number moment
      | [] =>
        match net.nextMoment? with
        | some next =>
          if next ≤ moment then await budget (net.moveTo next) number moment else net.moveTo moment
        | none => net.moveTo moment
    else net

end RecordRing.Network
