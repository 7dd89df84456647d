import RecordRing.Proofs.Network.Atomic

/-!
# Runs within a number of steps

`runTask` carries a task on for as long as that takes, in a loop that does not reduce.
`runWithin steps` takes up to `steps` steps by recursion and leaves the rest to `runTask`.  The two
agree whatever the number of steps (`runTask_eq_runWithin`), and so do the schedules that are built on
them; a run in which no task takes more steps between two waits can then be computed.
-/

namespace RecordRing.Network

/-- The network when one task has been carried on, the first steps of it by recursion. -/
def runWithin : Nat → Network → Nat → Network
  | 0, net, number => net.runTask number
  | steps + 1, net, number =>
    if net.canGoOn number then runWithin steps (net.step number) number
    else if net.tasks.contains number then net.makeWait number else net

/-- Carries tasks on until none can go on. -/
def settleWithin (steps : Nat) : Nat → Network → Network
  | 0, net => net
  | budget + 1, net =>
    match net.ready with
    | [] => net
    | number :: rest => settleWithin steps budget (runWithin steps { net with ready := rest } number)

/-- Lets time pass up to a moment. -/
def elapseWithin (steps : Nat) : Nat → Network → Nat → Network
  | 0, net, _ => net
  | budget + 1, net, moment =>
    let settled := settleWithin steps stepBudget net
    match settled.nextMoment? with
    | some next =>
      if next < moment then elapseWithin steps budget (settled.moveTo next) moment
      else settled.moveTo moment
    | none => settled.moveTo moment

/-- Lets time pass up to a moment, or up to the end of a task if that comes first. -/
def awaitWithin (steps : Nat) : Nat → Network → Nat → Nat → Network
  | 0, net, _, _ => net
  | budget + 1, net, number, moment =>
    if net.canGoOn number then
      awaitWithin steps budget (runWithin steps (net.takeReady number) number) number moment
    else if net.tasks.contains number then
      match net.ready with
      | other :: rest =>
        awaitWithin steps budget (runWithin steps { net with ready := rest } other) number moment
      | [] =>
        match net.nextMoment? with
        | some next =>
          if next ≤ moment then awaitWithin steps budget (net.moveTo next) number moment
          else net.moveTo moment
        | none => net.moveTo moment
    else net

theorem runTask_eq_runWithin (steps : Nat) : runTask = runWithin steps := by
  funext net number
  induction steps generalizing net with
  | zero => rfl
  | succ steps ih =>
      rw [runWithin]
      split
      · rename_i active
        rw [runTask_of_canGoOn active, ih]
      · rename_i idle
        exact runTask_of_not_canGoOn (Bool.eq_false_iff.2 idle)

theorem settle_eq_settleWithin (steps : Nat) : settle = settleWithin steps := by
  funext budget net
  induction budget generalizing net with
  | zero => rfl
  | succ budget ih =>
      rw [settle, settleWithin]
      cases net.ready with
      | nil => rfl
      | cons number rest =>
          rw [runTask_eq_runWithin steps]
          exact ih _

theorem elapse_eq_elapseWithin (steps : Nat) : elapse = elapseWithin steps := by
  funext budget net moment
  induction budget generalizing net with
  | zero => rfl
  | succ budget ih =>
      rw [elapse, elapseWithin, settle_eq_settleWithin steps]
      cases (settleWithin steps stepBudget net).nextMoment? with
      | none => rfl
      | some next => simp only [ih]

theorem await_eq_awaitWithin (steps : Nat) : await = awaitWithin steps := by
  funext budget net number moment
  induction budget generalizing net with
  | zero => rfl
  | succ budget ih =>
      rw [await, awaitWithin, runTask_eq_runWithin steps]
      cases net.ready with
      | cons other rest => simp only [ih]
      | nil =>
          cases net.nextMoment? with
          | none => simp only [ih]
          | some next => simp only [ih]

end RecordRing.Network
