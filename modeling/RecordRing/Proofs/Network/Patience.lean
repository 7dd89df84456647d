import RecordRing.Network.Schedule
import RecordRing.Proofs.Network.Alone
import RecordRing.Proofs.Network.Atomic
import RecordRing.Proofs.Network.Others
import RecordRing.Proofs.Network.Resting

/-!
# Calls at a node that joins

A record call that comes to a node while it joins waits, and looks after every pause whether the
node has joined.  A pause takes as long on the clock of the network as the node's tunables say, so
the call looks at fixed instants, and what happens to the node between two of them goes unseen.  The
first instant at which the node does not join lets the call proceed, and the first one that uses the
patience up lets it fail (`Admission.decides_at_poll`); until then the call touches nothing but its own
task.

## Implementation notes

Nothing is assumed of the other tasks, nor of the order in which tasks take their steps: anything
may happen to the network as long as the clock stands and the task of the call is left where it
stands, and the steps of the other tasks do so (`Admission.Waits.event_of_step`).  The clock moves no
further than to the next moment for which a task waits, and not while the call can go on.
-/

namespace RecordRing

namespace Network

variable {net : Network} {number moment time : Nat} {purpose : Purpose} {shape : Shape}
  {next : Control shape} {stack : Stack shape} {task : Task}

/-! ## Time and waiting tasks -/

theorem now_wake (net : Network) (number : Nat) : (net.wake number).now = net.now := by
  rw [wake]
  split
  · rfl
  · split <;> rfl
  · rfl

theorem now_act (net : Network) (number : Nat) (purpose : Purpose) (handle : Handle)
    (below : Stack shape) (action : Action shape) :
    (net.act number purpose handle below action).now = net.now := by
  cases action with
  | ask contact request frame => cases contact <;> rfl
  | lock id frame =>
      rw [act]
      split <;> rfl
  | _ => rfl

/-- A turn takes no time. -/
theorem now_work (net : Network) (number : Nat) (purpose : Purpose) (handle : Handle)
    (below : Stack shape) (turn : Node → Surroundings → Turn shape) :
    (net.work number purpose handle below turn).now = net.now := by
  cases found : net.member? handle with
  | none => simp only [work, found, dropTask]
  | some member =>
      have henact := now_enact net handle (turn member.node net.surroundings)
      rw [enact, setNode_eq found] at henact
      simp only [work, found]
      exact (now_act ..).trans henact

/-- A step takes no time. -/
theorem now_step (net : Network) (number : Nat) : (net.step number).now = net.now := by
  rw [step]
  split
  · rfl
  · rename_i purpose shape outcome htask
    obtain ⟨mid, halike, -, -, heq | ⟨-, next, control, heq, -⟩⟩ :=
      finish_cases net number outcome purpose
    · rw [heq]
      exact halike.now
    · rw [heq]
      exact halike.now
  · exact now_work ..
  · exact now_work ..
  · rename_i purpose shape peer request stack htask
    cases found : net.member? peer <;> simp only [send, found] <;> rfl
  · rw [arrive]
    split
    · rfl
    · rfl
    · split <;> rfl
  · rename_i purpose shape handle call stack htask
    cases found : net.member? handle <;> simp only [access, found] <;> rfl
  · rfl
  · rfl

theorem now_moveTo (net : Network) (moment : Nat) : (net.moveTo moment).now = moment := by
  rw [moveTo]
  generalize net.waiting.filter _ = due
  have hfold : ∀ first : Network, (due.foldl wake first).now = first.now := by
    induction due with
    | nil => exact fun _ => rfl
    | cons number rest ih => exact fun first => (ih (first.wake number)).trans (now_wake first number)
  exact hfold { net with now := moment }

/-- The end of a pause. -/
theorem wake_of_hold
    (found : net.tasks[number]? = some ⟨purpose, shape, .hold time next, stack⟩) :
    net.wake number = (net.putTask number ⟨purpose, shape, next, stack⟩).makeReady number := by
  simp only [wake, found]

/-- A task that does not wait is not woken. -/
theorem wake_of_active (found : net.tasks[number]? = some task)
    (active : task.control.waitsUntil? = none) : net.wake number = net := by
  obtain ⟨purpose, shape, control, stack⟩ := task
  cases control with
  | hold _ _ => cases active
  | queue _ _ _ => cases active
  | _ => simp only [wake, found]

theorem getElem?_foldl_wake_of_active (found : net.tasks[number]? = some task)
    (active : task.control.waitsUntil? = none) (due : List Nat) :
    (due.foldl wake net).tasks[number]? = some task := by
  induction due generalizing net with
  | nil => exact found
  | cons head rest ih =>
      apply ih
      by_cases hhead : head = number
      · rw [hhead, wake_of_active found active, found]
      · rw [getElem?_wake_of_ne (Ne.symm hhead), found]

theorem getElem?_foldl_wake_of_not_mem {due : List Nat} (absent : number ∉ due) :
    (due.foldl wake net).tasks[number]? = net.tasks[number]? := by
  induction due generalizing net with
  | nil => rfl
  | cons head rest ih =>
      rw [List.mem_cons, not_or] at absent
      rw [List.foldl_cons, ih absent.2, getElem?_wake_of_ne absent.1]

/-- A pause is over for a task that is woken. -/
theorem getElem?_foldl_wake_of_mem {due : List Nat} (mem : number ∈ due)
    (found : net.tasks[number]? = some ⟨purpose, shape, .hold time next, stack⟩)
    (active : next.waitsUntil? = none) :
    (due.foldl wake net).tasks[number]? = some ⟨purpose, shape, next, stack⟩ := by
  induction due generalizing net with
  | nil => cases mem
  | cons head rest ih =>
      by_cases hhead : head = number
      · have hwoken : (net.wake head).tasks[number]? = some ⟨purpose, shape, next, stack⟩ := by
          rw [hhead, wake_of_hold found]
          exact getElem?_putTask_self _
        exact getElem?_foldl_wake_of_active hwoken active rest
      · have hkept : (net.wake head).tasks[number]? =
            some ⟨purpose, shape, .hold time next, stack⟩ := by
          rw [getElem?_wake_of_ne (Ne.symm hhead), found]
        exact ih ((List.mem_cons.1 mem).resolve_left (Ne.symm hhead)) hkept

/-- A pause that is not over is kept when time passes. -/
theorem getElem?_moveTo_of_lt
    (found : net.tasks[number]? = some ⟨purpose, shape, .hold time next, stack⟩)
    (early : moment < time) : (net.moveTo moment).tasks[number]? =
      some ⟨purpose, shape, .hold time next, stack⟩ := by
  have habsent : number ∉ net.waiting.filter fun number =>
      (net.momentOf? number).any fun time => decide (time ≤ moment) := by
    intro hmem
    have hdue := (List.mem_filter.1 hmem).2
    rw [momentOf?, found, Option.bind_some, Control.waitsUntil?, Option.any_some,
      decide_eq_true_iff] at hdue
    omega
  rw [moveTo, getElem?_foldl_wake_of_not_mem habsent]
  exact found

/-- A pause is over when time has passed up to its end. -/
theorem getElem?_moveTo_of_le (waits : number ∈ net.waiting)
    (found : net.tasks[number]? = some ⟨purpose, shape, .hold time next, stack⟩)
    (active : next.waitsUntil? = none) (due : time ≤ moment) :
    (net.moveTo moment).tasks[number]? = some ⟨purpose, shape, next, stack⟩ := by
  have hmem : number ∈ net.waiting.filter fun number =>
      (net.momentOf? number).any fun time => decide (time ≤ moment) := by
    refine List.mem_filter.2 ⟨waits, ?_⟩
    rw [momentOf?, found, Option.bind_some, Control.waitsUntil?, Option.any_some,
      decide_eq_true_iff]
    exact due
  have hmoved : ({ net with now := moment } : Network).tasks[number]? =
      some ⟨purpose, shape, .hold time next, stack⟩ := found
  exact getElem?_foldl_wake_of_mem hmem hmoved active

/-- The next moment is no later than the end of a pause. -/
theorem nextMoment?_le (waits : number ∈ net.waiting)
    (found : net.tasks[number]? = some ⟨purpose, shape, .hold time next, stack⟩) :
    ∃ first, net.nextMoment? = some first ∧ first ≤ time := by
  have hmoment : net.momentOf? number = some time := by
    rw [momentOf?, found]
    rfl
  have hmem : time ∈ net.waiting.filterMap net.momentOf? :=
    List.mem_filterMap.2 ⟨number, waits, hmoment⟩
  obtain ⟨first, hfirst⟩ := Option.isSome_iff_exists.1 (List.isSome_min?_of_mem hmem)
  exact ⟨first, hfirst, (List.min?_eq_some_iff.1 hfirst).2 time hmem⟩

end Network

/-! ## Polls -/

namespace Node

variable {node : Node} {around : Surroundings} {shape : Shape} {since : Nat}

/-- What a call does that looks whether the node has joined: it proceeds, gives up, or pauses. -/
theorem enter_cases (node : Node) (around : Surroundings) (call : RecordCall shape) (since : Nat) :
    (node.lifecycle ≠ .joining ∧
      node.enter around call since = node.run (.attempt call) (.attempted call)) ∨
    (node.lifecycle = .joining ∧ ∃ patience, node.config.joinWait = some patience ∧
      patience ≤ around.now - since ∧
      node.enter around call since = node.fail (.joinWaitTimeout node.id (around.now - since))) ∨
    (node.lifecycle = .joining ∧
      (∀ patience, node.config.joinWait = some patience → around.now - since < patience) ∧
      node.enter around call since =
        ⟨node, [], .sleep node.config.joinPoll (.joinAwaited call since)⟩) := by
  by_cases hjoining : node.lifecycle = .joining
  · cases hwait : node.config.joinWait with
    | none =>
        refine .inr (.inr ⟨hjoining, nofun, ?_⟩)
        simp only [enter, if_pos hjoining, hwait]
    | some patience =>
        by_cases hlong : patience ≤ around.now - since
        · refine .inr (.inl ⟨hjoining, patience, rfl, hlong, ?_⟩)
          simp only [enter, if_pos hjoining, hwait, if_pos hlong]
        · refine .inr (.inr ⟨hjoining, fun other hother => ?_, ?_⟩)
          · cases hother
            omega
          · simp only [enter, if_pos hjoining, hwait, if_neg hlong]
  · exact .inl ⟨hjoining, by rw [enter, if_neg hjoining]⟩

end Node

/-- A record call that a task carries out at a member of a network, from a moment on. -/
structure Admission where
  /-- The number of the task. -/
  number : Nat
  /-- What the end of the task leads to. -/
  purpose : Purpose
  /-- The member. -/
  handle : Handle
  /-- The name of the member. -/
  id : Token
  /-- The tunables of the member. -/
  config : Config
  /-- The shape of the answer. -/
  shape : Shape
  /-- The call. -/
  call : RecordCall shape
  /-- The operations that wait for the answer. -/
  stack : Stack shape
  /-- The moment at which the call begins. -/
  since : Nat

namespace Admission

/-- The instants at which the call looks whether the member has joined. -/
def poll (call : Admission) (count : Nat) : Nat := call.since + count * call.config.joinPoll

/-- The task when the call begins. -/
def begun (call : Admission) : Task :=
  ⟨call.purpose, call.shape, .start call.handle (.serve (.record call.call)), call.stack⟩

/-- The task during a pause. -/
def paused (call : Admission) (moment : Nat) : Task :=
  ⟨call.purpose, .nothing, .hold moment (.answer (.ok ())),
    .frame call.handle (.joinAwaited call.call call.since) call.stack⟩

/-- The task at the end of a pause. -/
def roused (call : Admission) : Task :=
  ⟨call.purpose, .nothing, .answer (.ok ()),
    .frame call.handle (.joinAwaited call.call call.since) call.stack⟩

/-- The task when the call proceeds to the member's own store. -/
def proceeding (call : Admission) : Task :=
  ⟨call.purpose, call.shape, .start call.handle (.attempt call.call),
    .frame call.handle (.attempted call.call) call.stack⟩

/-- The task when the call has waited too long. -/
def failing (call : Admission) (waited : Nat) : Task :=
  ⟨call.purpose, call.shape, .answer (.error (.joinWaitTimeout call.id waited)), call.stack⟩

/-- The call has proceeded or failed. -/
def Decided (call : Admission) (net : Network) : Prop :=
  net.tasks[call.number]? = some call.proceeding ∨
    ∃ waited, net.tasks[call.number]? = some (call.failing waited)

/-- The member stands in its place, with its name and its tunables. -/
def Stands (call : Admission) (net : Network) : Prop :=
  ∃ node, net.nodeAt? call.handle = some node ∧ node.id = call.id ∧ node.config = call.config

/-- What can happen to a network, while a schedule says in which state the call finds the member
when it looks at it. -/
inductive Event (call : Admission) (schedule : Nat → Lifecycle) : Network → Network → Prop where
  /-- Something else happens, while the clock stands. -/
  | other {net after : Network} (task : after.tasks[call.number]? = net.tasks[call.number]?)
      (now : after.now = net.now) : Event call schedule net after
  /-- The call goes on. -/
  | step {net : Network} {node : Node} (active : net.canGoOn call.number = true)
      (found : net.nodeAt? call.handle = some node) (sees : node.lifecycle = schedule net.now) :
      Event call schedule net (net.step call.number)
  /-- The call waits. -/
  | rest {net : Network} (idle : net.canGoOn call.number = false) :
      Event call schedule net (net.makeWait call.number)
  /-- Time passes, up to the next moment for which a task waits or less. -/
  | pass {net : Network} {moment : Nat} (idle : net.canGoOn call.number = false)
      (waits : call.number ∈ net.waiting)
      (next : ∀ time, net.nextMoment? = some time → moment ≤ time) :
      Event call schedule net (net.moveTo moment)

/-- What happens to a network until a call is decided. -/
inductive Run (call : Admission) (schedule : Nat → Lifecycle) (first : Network) :
    Network → Prop where
  /-- Nothing has happened yet. -/
  | nil (stands : call.Stands first) : Run call schedule first first
  /-- One more thing happens. -/
  | snoc {net after : Network} (run : Run call schedule first net)
      (undecided : ¬ call.Decided net) (event : call.Event schedule net after)
      (stands : call.Stands after) : Run call schedule first after

/-- An instant that lets the call neither proceed nor fail: the member joins, and the patience is
not used up. -/
def Undecided (call : Admission) (schedule : Nat → Lifecycle) (count : Nat) : Prop :=
  schedule (call.poll count) = .joining ∧ ∀ patience, call.config.joinWait = some patience →
    count * call.config.joinPoll < patience

/-- Where a call stands that waits for the member to have joined. -/
inductive Waits (call : Admission) (schedule : Nat → Lifecycle) (net : Network) : Prop where
  /-- The call begins. -/
  | begun (task : net.tasks[call.number]? = some call.begun) (now : net.now = call.since)
  /-- The call pauses up to its next instant. -/
  | paused (count : Nat) (task : net.tasks[call.number]? = some (call.paused (call.poll (count + 1))))
      (early : net.now < call.poll (count + 1)) (earlier : ∀ past ≤ count, call.Undecided schedule past)
  /-- The pause is over. -/
  | roused (count : Nat) (task : net.tasks[call.number]? = some call.roused)
      (now : net.now = call.poll (count + 1)) (earlier : ∀ past ≤ count, call.Undecided schedule past)

/-- Where a call stands that is decided. -/
inductive Ends (call : Admission) (schedule : Nat → Lifecycle) (net : Network) : Prop where
  /-- The member does not join any more. -/
  | proceeds (count : Nat) (task : net.tasks[call.number]? = some call.proceeding)
      (now : net.now = call.poll count) (joined : schedule (call.poll count) ≠ .joining)
      (earlier : ∀ past < count, call.Undecided schedule past)
  /-- The patience is used up. -/
  | fails (count patience : Nat)
      (task : net.tasks[call.number]? = some (call.failing (count * call.config.joinPoll)))
      (now : net.now = call.poll count) (joins : schedule (call.poll count) = .joining)
      (bounded : call.config.joinWait = some patience)
      (long : patience ≤ count * call.config.joinPoll)
      (earlier : ∀ past < count, call.Undecided schedule past)

variable {call : Admission} {schedule : Nat → Lifecycle} {first net after : Network}

theorem Ends.decided (ends : call.Ends schedule net) : call.Decided net := by
  cases ends with
  | proceeds _ task _ _ _ => exact .inl task
  | fails _ _ task _ _ _ _ _ => exact .inr ⟨_, task⟩

/-- What the call does at an instant decides it, or lets it pause up to the next one. -/
theorem looks {node : Node} {count : Nat} (paced : 0 < call.config.joinPoll)
    (found : net.nodeAt? call.handle = some node) (named : node.id = call.id)
    (tuned : node.config = call.config) (sees : node.lifecycle = schedule (call.poll count))
    (now : net.now = call.poll count) (earlier : ∀ past < count, call.Undecided schedule past)
    (works : after = net.work call.number call.purpose call.handle call.stack
      fun _ _ => node.enter net.surroundings call.call call.since) :
    call.Waits schedule after ∨ call.Ends schedule after := by
  have hwaited : net.surroundings.now - call.since = count * call.config.joinPoll := by
    rw [show net.surroundings.now = net.now from rfl, now, poll]
    omega
  rcases node.enter_cases net.surroundings call.call call.since with
    ⟨hjoined, hturn⟩ | ⟨hjoins, patience, hbounded, hlong, hturn⟩ | ⟨hjoins, hpatient, hturn⟩
  · have hafter : after = net.putTask call.number call.proceeding := by
      rw [works, hturn, Network.work_same _ _ _ found rfl]
      rfl
    subst hafter
    exact .inr (.proceeds count (Network.getElem?_putTask_self _) now (sees ▸ hjoined) earlier)
  · have hafter : after =
        net.putTask call.number (call.failing (count * call.config.joinPoll)) := by
      rw [works, hturn, Network.work_same _ _ _ found rfl, hwaited, named]
      rfl
    subst hafter
    rw [hwaited] at hlong
    exact .inr (.fails count patience (Network.getElem?_putTask_self _) now (sees ▸ hjoins)
      (tuned ▸ hbounded) hlong earlier)
  · have hnext : net.now + call.config.joinPoll = call.poll (count + 1) := by
      rw [now, poll, poll, Nat.succ_mul, Nat.add_assoc]
    have hafter : after = net.putTask call.number (call.paused (call.poll (count + 1))) := by
      rw [works, hturn, Network.work_same _ _ _ found rfl, ← hnext, tuned]
      simp only [List.foldl_nil, Network.act, Control.after, if_neg (Nat.ne_of_gt paced)]
      rfl
    subst hafter
    rw [hwaited, tuned] at hpatient
    have hundecided : call.Undecided schedule count := ⟨sees ▸ hjoins, hpatient⟩
    refine .inl (.paused count (Network.getElem?_putTask_self _) ?_ fun past hpast => ?_)
    · exact hnext ▸ Nat.lt_add_of_pos_right paced
    · rcases Nat.lt_or_eq_of_le hpast with hless | rfl
      · exact earlier past hless
      · exact hundecided

/-- A call that waits and can go on looks whether the member has joined. -/
theorem Waits.works (waits : call.Waits schedule net) (active : net.canGoOn call.number = true) :
    ∃ count, net.now = call.poll count ∧ (∀ past < count, call.Undecided schedule past) ∧
      ∀ node, net.nodeAt? call.handle = some node → net.step call.number =
        net.work call.number call.purpose call.handle call.stack
          fun _ _ => node.enter net.surroundings call.call call.since := by
  cases waits with
  | begun task now =>
      have hfirst : net.now = call.poll 0 := by rw [now, poll, Nat.zero_mul, Nat.add_zero]
      refine ⟨0, hfirst, fun _ hnone => absurd hnone (Nat.not_lt_zero _), fun node found => ?_⟩
      have hsince : net.surroundings.now = call.since := now
      simp only [Network.step, task, Admission.begun]
      rw [Network.work_congr _ _ _ _ found, ← hsince]
      rfl
  | paused count task early earlier =>
      rw [Network.canGoOn, task] at active
      cases active
  | roused count task now earlier =>
      refine ⟨count + 1, now, fun past hpast => earlier past (Nat.le_of_lt_succ hpast),
        fun node found => ?_⟩
      simp only [Network.step, task, Admission.roused]
      rw [Network.work_congr _ _ _ _ found]
      rfl

/-- A call that waits touches its own task only: no lock, no record and no peer. -/
theorem Waits.alone (waits : call.Waits schedule net) (stands : call.Stands net) :
    (net.canGoOn call.number = true →
      ∃ task, net.step call.number = net.putTask call.number task) ∧
    (net.canGoOn call.number = false →
      ∃ task, net.wake call.number = (net.putTask call.number task).makeReady call.number) := by
  refine ⟨fun active => ?_, fun idle => ?_⟩
  · obtain ⟨node, hfound, -, -⟩ := stands
    obtain ⟨_, -, -, hworks⟩ := waits.works active
    rw [hworks node hfound]
    rcases node.enter_cases net.surroundings call.call call.since with
      ⟨-, hturn⟩ | ⟨-, _, -, -, hturn⟩ | ⟨-, -, hturn⟩
    · rw [hturn, Network.work_same _ _ _ hfound rfl]
      exact ⟨_, rfl⟩
    · rw [hturn, Network.work_same _ _ _ hfound rfl]
      exact ⟨_, rfl⟩
    · rw [hturn, Network.work_same _ _ _ hfound rfl]
      exact ⟨_, rfl⟩
  · cases waits with
    | begun task _ =>
        rw [Network.canGoOn_of_active task rfl] at idle
        cases idle
    | paused _ task _ _ => exact ⟨call.roused, Network.wake_of_hold task⟩
    | roused _ task _ _ =>
        rw [Network.canGoOn_of_active task rfl] at idle
        cases idle

/-- Time passes while the call waits: it is not carried past the next instant. -/
theorem Waits.pass {moment : Nat} (waits : call.Waits schedule net)
    (idle : net.canGoOn call.number = false) (listed : call.number ∈ net.waiting)
    (next : ∀ time, net.nextMoment? = some time → moment ≤ time) :
    call.Waits schedule (net.moveTo moment) := by
  cases waits with
  | begun task now =>
      rw [Network.canGoOn_of_active task rfl] at idle
      cases idle
  | paused count task early earlier =>
      obtain ⟨time, htime, hle⟩ := Network.nextMoment?_le listed task
      have hmoment : moment ≤ call.poll (count + 1) := Nat.le_trans (next time htime) hle
      rcases Nat.lt_or_eq_of_le hmoment with hearly | hdue
      · exact .paused count (Network.getElem?_moveTo_of_lt task hearly)
          (by rw [Network.now_moveTo]; exact hearly) earlier
      · exact .roused count
          (Network.getElem?_moveTo_of_le listed task rfl (Nat.le_of_eq hdue.symm))
          (by rw [Network.now_moveTo, hdue]) earlier
  | roused count task now earlier =>
      rw [Network.canGoOn_of_active task rfl] at idle
      cases idle

/-- Whatever happens to the network while the call waits, the call waits on or is decided. -/
theorem Waits.event (paced : 0 < call.config.joinPoll) (waits : call.Waits schedule net)
    (stands : call.Stands net) (event : call.Event schedule net after) :
    call.Waits schedule after ∨ call.Ends schedule after := by
  have hsame : ∀ later : Network, later.tasks[call.number]? = net.tasks[call.number]? →
      later.now = net.now → call.Waits schedule later := by
    intro later htask hnow
    cases waits with
    | begun task now => exact .begun (htask.trans task) (hnow.trans now)
    | paused count task early earlier => exact .paused count (htask.trans task) (hnow ▸ early) earlier
    | roused count task now earlier => exact .roused count (htask.trans task) (hnow.trans now) earlier
  cases event with
  | other task now => exact .inl (hsame after task now)
  | @step node active found sees =>
      obtain ⟨other, hother, hnamed, htuned⟩ := stands
      obtain rfl : other = node := Option.some.inj (hother.symm.trans found)
      obtain ⟨count, hnow, hearlier, hworks⟩ := waits.works active
      exact looks paced found hnamed htuned (hnow ▸ sees) hnow hearlier (hworks other found)
  | rest idle => exact .inl (hsame _ rfl rfl)
  | pass idle listed next => exact .inl (waits.pass idle listed next)

theorem Waits.task (waits : call.Waits schedule net) :
    ∃ task, net.tasks[call.number]? = some task ∧ task.control.queue? = none := by
  rcases waits with ⟨htask, -⟩ | ⟨_, htask, -, -⟩ | ⟨_, htask, -, -⟩
  · exact ⟨_, htask, rfl⟩
  · exact ⟨_, htask, rfl⟩
  · exact ⟨_, htask, rfl⟩

/-- A step of another task takes no time and leaves a call that waits where it stands. -/
theorem Waits.event_of_step {other : Nat} (waits : call.Waits schedule net)
    (books : net.Exclusive net.holdings) (ne : call.number ≠ other) :
    call.Event schedule net (net.step other) := by
  obtain ⟨task, htask, hidle⟩ := waits.task
  refine .other ?_ (Network.now_step net other)
  cases h : (net.step other).tasks[call.number]? with
  | none => exact (Network.none_of_step ne h).symm
  | some later =>
      have hbecomes := Network.becomes_step books ne h
      rw [htask] at hbecomes
      cases hbecomes with
      | same => exact htask.symm
      | granted _ _ _ _ _ => cases hidle

theorem Run.stands (run : call.Run schedule first after) : call.Stands after := by
  cases run with
  | nil stands => exact stands
  | snoc _ _ _ stands => exact stands

/-- A call that has been given to a member waits or is decided. -/
theorem Run.waits_or_ends (paced : 0 < call.config.joinPoll)
    (begins : first.tasks[call.number]? = some call.begun) (starts : first.now = call.since)
    (run : call.Run schedule first after) :
    call.Waits schedule after ∨ call.Ends schedule after := by
  induction run with
  | nil _ => exact .inl (.begun begins starts)
  | snoc before undecided event _ ih =>
      rcases ih with hwaits | hends
      · exact hwaits.event paced before.stands event
      · exact absurd hends.decided undecided

/-- No instant before the present has decided a call that waits. -/
theorem Waits.undecided (waits : call.Waits schedule net) (count : Nat)
    (past : call.poll count < net.now) : call.Undecided schedule count := by
  have horder : ∀ later, call.poll count < call.poll (later + 1) → count ≤ later := by
    intro later hless
    rw [poll, poll] at hless
    exact Nat.le_of_lt_succ (Nat.lt_of_mul_lt_mul_right (Nat.lt_of_add_lt_add_left hless))
  cases waits with
  | begun _ now =>
      rw [now, poll] at past
      omega
  | paused later _ early earlier => exact earlier count (horder later (Nat.lt_trans past early))
  | roused later _ now earlier => exact earlier count (horder later (now ▸ past))

/-- A record call that is given to a member waits while the member joins, and touches nothing but
its own task.  It proceeds at the first instant at which the member does not join, if no earlier one
uses its patience up; the first one that does lets it fail, and it fails with the time that it has
waited; and no instant goes by without the call. -/
theorem decides_at_poll (paced : 0 < call.config.joinPoll)
    (begins : first.tasks[call.number]? = some call.begun) (starts : first.now = call.since)
    (run : call.Run schedule first after) :
    (call.Waits schedule after ∧
      (∀ count, call.poll count < after.now → call.Undecided schedule count) ∧
      (after.canGoOn call.number = true →
        ∃ task, after.step call.number = after.putTask call.number task) ∧
      (after.canGoOn call.number = false →
        ∃ task, after.wake call.number = (after.putTask call.number task).makeReady call.number)) ∨
    (∃ count, after.tasks[call.number]? = some call.proceeding ∧ after.now = call.poll count ∧
      schedule (call.poll count) ≠ .joining ∧
      ∀ past < count, call.Undecided schedule past) ∨
    ∃ count patience,
      after.tasks[call.number]? = some (call.failing (count * call.config.joinPoll)) ∧
      after.now = call.poll count ∧ schedule (call.poll count) = .joining ∧
      call.config.joinWait = some patience ∧ patience ≤ count * call.config.joinPoll ∧
      ∀ past < count, call.Undecided schedule past := by
  rcases run.waits_or_ends paced begins starts with hwaits | hends
  · exact .inl ⟨hwaits, hwaits.undecided, hwaits.alone run.stands⟩
  · cases hends with
    | proceeds count task now joined earlier =>
        exact .inr (.inl ⟨count, task, now, joined, earlier⟩)
    | fails count patience task now joins bounded long earlier =>
        exact .inr (.inr ⟨count, patience, task, now, joins, bounded, long, earlier⟩)

end Admission

namespace Barred

/-- A node that is asked for a record, with ten milliseconds between two looks and a patience of
fifteen. -/
def node (lifecycle : Lifecycle) : Node :=
  { Node.fresh (Token.wrapping 500) (.empty none) { Config.brisk with joinWait := some 15 } with
    lifecycle := lifecycle }

/-- The call. -/
def reading : Admission where
  number := 0
  purpose := .client []
  handle := 0
  id := Token.wrapping 500
  config := (node .joining).config
  shape := .record
  call := .read "docs" (Token.wrapping 7)
  stack := .root
  since := 0

/-- The network with the node in another state. -/
def turned (net : Network) (lifecycle : Lifecycle) : Network :=
  { net with endpoints := #[.member ⟨node lifecycle, Link.clear, StoreDelay.zero, [], false⟩] }

/-- The network when the call begins. -/
def seat : Network :=
  turned { Network.empty with tasks := Std.TreeMap.empty.insert 0 reading.begun } .joining

/-- The network when the call has looked once, and the node does not join any more. -/
def away : Network := turned ((seat.step 0).makeWait 0) .stable

/-- The network when the node joins again, before the second look. -/
def back : Network := turned (away.moveTo 7) .joining

/-- The network when the call has looked twice. -/
def patient : Network := ((back.moveTo 10).step 0).makeWait 0

/-- The network when the call has looked three times. -/
def spent : Network := (patient.moveTo 20).step 0

theorem run_spent : reading.Run (fun _ => .joining) seat spent := by
  have hstands (net : Network) (lifecycle : Lifecycle) (h : net.nodeAt? 0 = some (node lifecycle)) :
      reading.Stands net := ⟨_, h, rfl, rfl⟩
  have hopen (net : Network) (h : net.tasks[0]?.map Task.shape = some .nothing) :
      ¬ reading.Decided net := by
    rintro (hproceeds | ⟨waited, hfails⟩)
    · cases h.symm.trans (congrArg (Option.map Task.shape) hproceeds)
    · cases h.symm.trans (congrArg (Option.map Task.shape) hfails)
  have hbegun : ¬ reading.Decided seat := by
    rintro (hproceeds | ⟨waited, hfails⟩)
    · cases hproceeds
    · cases hfails
  have hnext (net : Network) (due moment : Nat) (h : net.nextMoment? = some due)
      (le : moment ≤ due) : ∀ time, net.nextMoment? = some time → moment ≤ time :=
    fun _ htime => Option.some.inj (h.symm.trans htime) ▸ le
  have haway : reading.Run (fun _ => .joining) seat away :=
    .snoc (.snoc (.snoc (.nil (hstands _ .joining rfl)) hbegun (.step rfl rfl rfl)
      (hstands _ .joining rfl)) (hopen _ rfl) (.rest rfl) (hstands _ .joining rfl)) (hopen _ rfl)
      (.other rfl rfl) (hstands _ .stable rfl)
  have hback : reading.Run (fun _ => .joining) seat back :=
    .snoc (.snoc haway (hopen _ rfl) (.pass rfl (by decide) (hnext _ 10 7 (by decide) (by decide)))
      (hstands _ .stable rfl)) (hopen _ rfl) (.other rfl rfl) (hstands _ .joining rfl)
  have hsecond : reading.Run (fun _ => .joining) seat (back.moveTo 10) :=
    .snoc hback (hopen _ rfl) (.pass rfl (by decide) (hnext _ 10 10 (by decide) (by decide)))
      (hstands _ .joining rfl)
  have hpatient : reading.Run (fun _ => .joining) seat patient :=
    .snoc (.snoc hsecond (hopen _ rfl) (.step rfl rfl rfl) (hstands _ .joining rfl)) (hopen _ rfl)
      (.rest rfl) (hstands _ .joining rfl)
  have hthird : reading.Run (fun _ => .joining) seat (patient.moveTo 20) :=
    .snoc hpatient (hopen _ rfl) (.pass rfl (by decide) (hnext _ 20 20 (by decide) (by decide)))
      (hstands _ .joining rfl)
  exact .snoc hthird (hopen _ rfl) (.step rfl rfl rfl) (hstands _ .joining rfl)

/-- The call fails at its third look, five milliseconds after its patience, and does not notice that
the node did not join for a while. -/
theorem decides_at_poll_barred : spent.tasks[0]? = some (reading.failing 20) ∧
    ∀ past < 2, reading.Undecided (fun _ => .joining) past := by
  have hnow : spent.now = 20 := by decide
  have hover : spent.tasks[0]?.map Task.shape ≠ some .nothing := by decide
  rcases Admission.decides_at_poll (by decide) rfl rfl run_spent with
    ⟨hwaits, -⟩ | ⟨_, -, -, hjoined, -⟩ | ⟨count, _, htask, hthen, -, -, -, hearlier⟩
  · cases hwaits with
    | begun _ now => cases hnow.symm.trans now
    | paused _ task _ _ => exact absurd (congrArg (Option.map Task.shape) task) hover
    | roused _ task _ _ => exact absurd (congrArg (Option.map Task.shape) task) hover
  · exact absurd rfl hjoined
  · have hthird : 20 = 0 + count * 10 := hnow.symm.trans hthen
    obtain rfl : count = 2 := by omega
    exact ⟨htask, hearlier⟩

end Barred

end RecordRing
