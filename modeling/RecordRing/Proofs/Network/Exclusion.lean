import RecordRing.Proofs.Network.Locking
import RecordRing.Proofs.Network.Moves

/-!
# Mutual exclusion of work on one record

The lock tables of the nodes and the tasks keep one and the same set of books: what a task holds
according to the places where its operations wait, it holds according to the tables (`Exclusive`).
So no two tasks ever hold one lock (`Exclusive.unique`).

The books are kept by every move of a run, whatever its rules are (`Exclusive.run`).

## Implementation notes

In the middle of a turn a lock may have been given back while the task still stands where it held it.
The books are therefore stated for any account of what the tasks hold; between two steps it is the
account that the tasks give themselves, `Network.holdings`.
-/

namespace RecordRing

variable {shape result : Shape}

/-! ## What tasks hold -/

/-- The locks that waiting operations hold. -/
def Stack.guards {shape : Shape} : Stack shape → List (Handle × LockId)
  | .root => []
  | .frame handle waiting below => waiting.guards?.toList.map (Prod.mk handle) ++ below.guards

/-- None of the waiting operations waits for a lock. -/
def Stack.Calm {shape : Shape} : Stack shape → Prop
  | .root => True
  | .frame _ waiting below => waiting.wants? = none ∧ below.Calm

/-- The lock that is awaited. -/
def Control.queue? {shape : Shape} : Control shape → Option (Handle × LockId)
  | .queue handle id _ => some (handle, id)
  | _ => none

/-- Whether no lock is awaited, also not after a pause. -/
def Control.idle {shape : Shape} : Control shape → Bool
  | .queue .. => false
  | .hold _ next => next.idle
  | _ => true

/-- The locks that a task holds: those of its waiting operations, with the one that has just been
granted. -/
def Control.holds {shape : Shape} : Control shape → Stack shape → List (Handle × LockId)
  | .answer outcome, .frame handle frame below =>
    (frame.holds? outcome).toList.map (Prod.mk handle) ++ below.guards
  | _, stack => stack.guards

/-- The operation that waits for a lock is the innermost one, and it waits for nothing else. -/
def Control.Poised {shape : Shape} : Control shape → Stack shape → Prop
  | .queue handle id _, .frame other frame below =>
    other = handle ∧ frame.wants? = some id ∧ below.Calm
  | .queue .., .root => False
  | .answer _, .frame _ _ below => below.Calm
  | .hold _ next, stack => next.idle = true ∧ stack.Calm
  | _, stack => stack.Calm

/-- The locks that a task holds. -/
def Task.holds (task : Task) : List (Handle × LockId) := task.control.holds task.stack

/-- Only the innermost operation of a task may wait for a lock. -/
def Task.Poised (task : Task) : Prop := task.control.Poised task.stack

theorem Frame.guards?_of_wants? {frame : Frame shape result} {id : LockId}
    (h : frame.wants? = some id) : frame.guards? = none := by
  cases frame with
  | lockAwaited call => rfl
  | transferLockAwaited storage key owner => rfl
  | _ => cases h

namespace Control

variable {control : Control shape} {stack : Stack shape}

theorem poised_of_calm (idle : control.idle = true) (calm : stack.Calm) : control.Poised stack := by
  cases control with
  | queue handle id deadline => cases idle
  | hold moment next => exact ⟨idle, calm⟩
  | answer outcome =>
      cases stack with
      | root => exact calm
      | frame handle frame below => exact calm.2
  | _ => exact calm

theorem holds_of_calm (control : Control shape) (calm : stack.Calm) :
    control.holds stack = stack.guards := by
  cases control with
  | answer outcome =>
      cases stack with
      | root => rfl
      | frame handle frame below =>
          have hwants : frame.wants? = none := calm.1
          have hholds : frame.holds? outcome = frame.guards? := by
            cases outcome <;> simp [Frame.holds?, hwants]
          rw [holds, hholds, Stack.guards]
  | _ => rfl

theorem idle_after (now delay : Nat) (idle : control.idle = true) :
    (Control.after now delay control).idle = true := by
  rw [after]
  split
  · exact idle
  · exact idle

end Control

namespace Task

variable {task : Task} {handle : Handle} {id : LockId} {purpose : Purpose} {deadline : Nat}
  {stack : Stack .nothing}

theorem eq_of_queue? (h : task.control.queue? = some (handle, id)) :
    ∃ purpose deadline stack, task = ⟨purpose, .nothing, .queue handle id deadline, stack⟩ := by
  obtain ⟨purpose, shape, control, stack⟩ := task
  cases control with
  | queue other name deadline =>
      simp only [Control.queue?, Option.some.injEq, Prod.mk.injEq] at h
      obtain ⟨rfl, rfl⟩ := h
      exact ⟨purpose, deadline, stack, rfl⟩
  | _ => cases h

/-- A task that is granted the lock that it waits for holds it in addition. -/
theorem holds_granted (h : Poised ⟨purpose, .nothing, .queue handle id deadline, stack⟩) :
    holds ⟨purpose, .nothing, .answer (.ok ()), stack⟩ =
        (handle, id) :: holds ⟨purpose, .nothing, .queue handle id deadline, stack⟩ ∧
      Poised ⟨purpose, .nothing, .answer (.ok ()), stack⟩ := by
  cases stack with
  | root => exact absurd h not_false
  | frame other frame below =>
      obtain ⟨rfl, hwants, hcalm⟩ := h
      refine ⟨?_, hcalm⟩
      cases frame with
      | lockAwaited call =>
          cases hwants
          rfl
      | transferLockAwaited storage key owner =>
          cases hwants
          rfl
      | _ => cases hwants

/-- A task that gives the lock up that it waits for holds what it has held. -/
theorem holds_refused (h : Poised ⟨purpose, .nothing, .queue handle id deadline, stack⟩)
    (failure : Failure) :
    holds ⟨purpose, .nothing, .answer (.error failure), stack⟩ =
        holds ⟨purpose, .nothing, .queue handle id deadline, stack⟩ ∧
      Poised ⟨purpose, .nothing, .answer (.error failure), stack⟩ := by
  cases stack with
  | root => exact absurd h not_false
  | frame other frame below => exact ⟨rfl, h.2.2⟩

end Task

namespace Network

variable {net after : Network} {number : Nat} {handle : Handle} {id : LockId} {lock : HeldLock}
  {task : Task} {member : Member}

/-- Who holds a lock of a node and who waits for it. -/
def lock? (net : Network) (handle : Handle) (id : LockId) : Option HeldLock :=
  (net.nodeAt? handle).bind fun node => node.locks.find? id

/-- What a task says that it holds. -/
def holdings (net : Network) (number : Nat) : List (Handle × LockId) :=
  net.tasks[number]?.elim [] Task.holds

/-- What the tasks hold when one of them holds something else than it says. -/
def lending (net : Network) (number : Nat) (held : List (Handle × LockId)) (other : Nat) :
    List (Handle × LockId) :=
  if other = number then held else net.holdings other

/-- The tables of the nodes agree with what the tasks hold, and those that wait for a lock wait for
nothing else. -/
structure Exclusive (holdings : Nat → List (Handle × LockId)) (net : Network) : Prop where
  young : ∀ (number : Nat) task, net.tasks[number]? = some task → number < net.nextTask
  poised : ∀ (number : Nat) task, net.tasks[number]? = some task → task.Poised
  held : ∀ number handle id, (handle, id) ∈ holdings number →
    ∃ lock, net.lock? handle id = some lock ∧ lock.holder = number
  once : ∀ number, (holdings number).Nodup
  queued : ∀ handle id lock, net.lock? handle id = some lock → ∀ waiter ∈ lock.waiters,
    ∃ task, net.tasks[waiter.ticket]? = some task ∧ task.control.queue? = some (handle, id)
  distinct : ∀ handle id lock, net.lock? handle id = some lock →
    (lock.waiters.map Waiter.ticket).Nodup

theorem holdings_of_getElem? (found : net.tasks[number]? = some task) :
    net.holdings number = task.holds := by
  rw [holdings, found, Option.elim_some]

theorem lending_self (net : Network) (number : Nat) (held : List (Handle × LockId)) :
    net.lending number held number = held := by
  rw [lending, if_pos rfl]

theorem lending_of_ne {other : Nat} (h : other ≠ number) (held : List (Handle × LockId)) :
    net.lending number held other = net.holdings other := by
  rw [lending, if_neg h]

/-- A task that holds what it says lends nothing. -/
theorem lending_eq (found : net.tasks[number]? = some task) :
    net.lending number task.holds = net.holdings := by
  funext other
  rw [lending]
  split
  · rename_i h
    rw [h, holdings_of_getElem? found]
  · rfl

/-- When one task has become another, it holds what that one holds. -/
theorem holdings_put {new : Task} (tasks : ∀ other : Nat, after.tasks[other]? =
      if number = other then some new else net.tasks[other]?) :
    after.holdings = net.lending number new.holds := by
  funext other
  rw [holdings, tasks, lending]
  by_cases h : number = other
  · rw [if_pos h, if_pos h.symm, Option.elim_some]
  · rw [if_neg h, if_neg (Ne.symm h), holdings]

/-- A task that is granted the lock that it waits for goes on. -/
theorem grant_of_queue {purpose : Purpose} {deadline : Nat} {stack : Stack .nothing}
    (queued : net.tasks[number]? = some ⟨purpose, .nothing, .queue handle id deadline, stack⟩) :
    net.grant number =
      (net.putTask number ⟨purpose, .nothing, .answer (.ok ()), stack⟩).makeReady number := by
  simp only [grant, queued]

/-! ## Views of the lock tables -/

theorem lock?_of_nodeAt? {node : Node} (found : net.nodeAt? handle = some node) (id : LockId) :
    net.lock? handle id = node.locks.find? id := by
  rw [lock?, found, Option.bind_some]

theorem lock?_congr (h : ∀ handle, after.nodeAt? handle = net.nodeAt? handle) :
    after.lock? = net.lock? := by
  funext handle id
  rw [lock?, h, lock?]

theorem lock?_of_member? (h : after.member? = net.member?) : after.lock? = net.lock? :=
  lock?_congr fun handle => by rw [nodeAt?, h, nodeAt?]

theorem lock?_setMember (found : net.member? handle = some member) (new : Member)
    (other : Handle) (id : LockId) :
    (net.setMember handle new).lock? other id =
      if handle = other then new.node.locks.find? id else net.lock? other id := by
  rw [lock?, nodeAt?_setMember found]
  split
  · rfl
  · rfl

/-- Overwriting a member by one whose table looks the same. -/
theorem lock?_setMember_alike (found : net.member? handle = some member) (new : Member)
    (same : ∀ name, new.node.locks.find? name = member.node.locks.find? name) :
    (net.setMember handle new).lock? = net.lock? := by
  funext other id
  rw [lock?_setMember found]
  split
  · rename_i h
    rw [same, ← h, lock?_of_nodeAt? (nodeAt?_of_member? found)]
  · rfl

theorem lock?_setMember_same (found : net.member? handle = some member) {new : Member}
    (same : new.node.locks = member.node.locks) : (net.setMember handle new).lock? = net.lock? :=
  lock?_setMember_alike found new fun name => congrArg (LockTable.find? · name) same

/-- Overwriting one lock of a member. -/
theorem lock?_withLocks (found : net.member? handle = some member) {table : LockTable}
    {entry : Option HeldLock} (changed : ∀ name, table.find? name =
      if id = name then entry else member.node.locks.find? name) (other : Handle) (name : LockId) :
    (net.setMember handle (member.withLocks table)).lock? other name =
      if (handle, id) = (other, name) then entry else net.lock? other name := by
  rw [lock?_setMember found]
  by_cases hhandle : handle = other
  · subst hhandle
    rw [if_pos rfl, lock?_of_nodeAt? (nodeAt?_of_member? found)]
    refine (changed name).trans ?_
    by_cases hname : id = name
    · rw [if_pos hname, if_pos (by rw [hname])]
    · rw [if_neg hname, if_neg fun h => hname (congrArg Prod.snd h)]
  · rw [if_neg hhandle, if_neg fun h => hhandle (congrArg Prod.fst h)]

/-! ## Keeping the books -/

variable {holdings : Nat → List (Handle × LockId)} {held rest : List (Handle × LockId)}
  {old new : Task}

namespace Exclusive

/-- The same tables and the same tasks. -/
theorem of_same (books : net.Exclusive holdings) (locks : after.lock? = net.lock?)
    (tasks : after.tasks = net.tasks) (next : after.nextTask = net.nextTask) :
    after.Exclusive holdings := by
  refine ⟨?_, ?_, ?_, books.once, ?_, ?_⟩
  · rw [tasks, next]
    exact books.young
  · rw [tasks]
    exact books.poised
  · rw [locks]
    exact books.held
  · rw [locks, tasks]
    exact books.queued
  · rw [locks]
    exact books.distinct

/-- The next number belongs to no task. -/
theorem next_free (books : net.Exclusive holdings) : net.tasks[net.nextTask]? = none := by
  cases hfound : net.tasks[net.nextTask]? with
  | none => rfl
  | some task => exact absurd (books.young _ _ hfound) (Nat.lt_irrefl _)

/-- No two tasks hold one lock. -/
theorem unique (books : net.Exclusive holdings) {first second : Nat}
    (h : (handle, id) ∈ holdings first) (h' : (handle, id) ∈ holdings second) :
    first = second := by
  obtain ⟨lock, hlock, rfl⟩ := books.held _ _ _ h
  obtain ⟨twin, htwin, rfl⟩ := books.held _ _ _ h'
  rw [hlock, Option.some.injEq] at htwin
  rw [htwin]

/-- A task that waits for no lock is nowhere in a queue. -/
theorem not_queued (books : net.Exclusive holdings) (stale : net.tasks[number]? = some old)
    (idle : old.control.queue? = none) {waiter : Waiter} (found : net.lock? handle id = some lock)
    (mem : waiter ∈ lock.waiters) : waiter.ticket ≠ number := by
  rintro rfl
  obtain ⟨task, htask, hqueue⟩ := books.queued _ _ _ found _ mem
  rw [stale, Option.some.injEq] at htask
  rw [← htask, idle] at hqueue
  cases hqueue

/-- A task that goes on keeps its number. -/
theorem young_put (books : net.Exclusive holdings) (stale : net.tasks[number]? = some old)
    (tasks : ∀ other : Nat, after.tasks[other]? =
      if number = other then some new else net.tasks[other]?)
    (next : after.nextTask = net.nextTask) (other : Nat) (task : Task)
    (found : after.tasks[other]? = some task) : other < after.nextTask := by
  rw [next]
  rw [tasks] at found
  split at found
  · rename_i h
    exact h ▸ books.young _ _ stale
  · exact books.young other task found

theorem poised_put (books : net.Exclusive holdings)
    (tasks : ∀ other : Nat, after.tasks[other]? =
      if number = other then some new else net.tasks[other]?)
    (poised : new.Poised) (other : Nat) (task : Task)
    (found : after.tasks[other]? = some task) : task.Poised := by
  rw [tasks] at found
  split at found
  · rw [← Option.some.inj found]
    exact poised
  · exact books.poised other task found

/-- A task that waits for no lock goes on and holds what has been set aside for it. -/
theorem putTask (books : net.Exclusive (net.lending number held))
    (stale : net.tasks[number]? = some old) (idle : old.control.queue? = none)
    (holds : new.holds = held) (poised : new.Poised) :
    (net.putTask number new).Exclusive (net.putTask number new).holdings := by
  rw [holdings_put (getElem?_putTask new), holds]
  refine ⟨books.young_put stale (getElem?_putTask new) rfl,
    books.poised_put (getElem?_putTask new) poised, books.held, books.once, ?_, books.distinct⟩
  intro handle id lock hlock waiter hmem
  have hne := books.not_queued stale idle hlock hmem
  rw [getElem?_putTask, if_neg hne.symm]
  exact books.queued handle id lock hlock waiter hmem

/-- What a task holds is set aside for it. -/
theorem lend (books : net.Exclusive net.holdings) (stale : net.tasks[number]? = some old)
    (holds : old.holds = held) : net.Exclusive (net.lending number held) := by
  rw [← holds, lending_eq stale]
  exact books

/-- A task that waits for no lock goes on and holds what it has held. -/
theorem replaceTask (books : net.Exclusive net.holdings) (stale : net.tasks[number]? = some old)
    (idle : old.control.queue? = none) (holds : new.holds = old.holds) (poised : new.Poised) :
    (net.putTask number new).Exclusive (net.putTask number new).holdings :=
  (books.lend stale rfl).putTask stale idle holds poised

/-- A task that is in no queue is dropped. -/
theorem dropTask (books : net.Exclusive (net.lending number held))
    (free : ∀ {handle id lock waiter}, net.lock? handle id = some lock → waiter ∈ lock.waiters →
      waiter.ticket ≠ number) :
    (net.dropTask number).Exclusive (net.dropTask number).holdings := by
  have hat : ∀ other, (net.dropTask number).holdings other =
      if other = number then [] else net.lending number held other := by
    intro other
    rw [Network.holdings, getElem?_dropTask]
    by_cases h : number = other
    · rw [if_pos h, if_pos h.symm, Option.elim_none]
    · rw [if_neg h, if_neg (Ne.symm h), lending_of_ne (Ne.symm h), Network.holdings]
  refine ⟨?_, ?_, ?_, ?_, ?_, books.distinct⟩
  · intro other task htask
    rw [getElem?_dropTask] at htask
    split at htask
    · cases htask
    · exact books.young other task htask
  · intro other task htask
    rw [getElem?_dropTask] at htask
    split at htask
    · cases htask
    · exact books.poised other task htask
  · intro other handle id hmem
    rw [hat] at hmem
    split at hmem
    · cases hmem
    · exact books.held other handle id hmem
  · intro other
    rw [hat]
    split
    · exact List.nodup_nil
    · exact books.once other
  · intro handle id lock hlock waiter hmem
    have hne := free hlock hmem
    rw [getElem?_dropTask, if_neg hne.symm]
    exact books.queued handle id lock hlock waiter hmem

theorem getElem?_spawn (net : Network) (task : Task) (other : Nat) :
    (net.spawn task).tasks[other]? =
      if net.nextTask = other then some task else net.tasks[other]? :=
  getElem?_putTask task other

/-- A new task that holds nothing leaves everybody with what they hold. -/
theorem holdings_spawn (books : net.Exclusive holdings) (holds : new.holds = []) :
    (net.spawn new).holdings = net.holdings := by
  funext other
  rw [Network.holdings, getElem?_spawn]
  split
  · rename_i h
    rw [Option.elim_some, holds, Network.holdings, ← h, books.next_free, Option.elim_none]
  · rfl

theorem lending_spawn (books : net.Exclusive holdings) (holds : new.holds = []) :
    (net.spawn new).lending number held = net.lending number held := by
  funext other
  rw [lending, lending, books.holdings_spawn holds]

theorem spawn (books : net.Exclusive holdings) (poised : new.Poised) :
    (net.spawn new).Exclusive holdings := by
  refine ⟨?_, ?_, books.held, books.once, ?_, books.distinct⟩
  · intro other task htask
    rw [getElem?_spawn] at htask
    split at htask
    · rename_i h
      exact h ▸ Nat.lt_succ_self net.nextTask
    · exact Nat.lt_succ_of_lt (books.young other task htask)
  · intro other task htask
    rw [getElem?_spawn] at htask
    split at htask
    · rw [← Option.some.inj htask]
      exact poised
    · exact books.poised other task htask
  · intro handle id lock hlock waiter hmem
    obtain ⟨task, htask, hqueue⟩ := books.queued handle id lock hlock waiter hmem
    have hne : net.nextTask ≠ waiter.ticket := Nat.ne_of_gt (books.young _ _ htask)
    rw [getElem?_spawn, if_neg hne]
    exact ⟨task, htask, hqueue⟩

/-! ### Giving a lock back -/

theorem lock?_release (found : net.member? handle = some member)
    (held : net.lock? handle id = some lock) (other : Handle) (name : LockId) :
    (net.setMember handle (member.withLocks (member.node.locks.release id).2)).lock? other name =
      if (handle, id) = (other, name) then
        match lock.waiters with
        | [] => none
        | next :: more => some ⟨next.ticket, more⟩
      else net.lock? other name := by
  rw [lock?_of_nodeAt? (nodeAt?_of_member? found)] at held
  refine lock?_withLocks found (fun name => ?_) other name
  rw [LockTable.find?_release, held]
  rcases lock with ⟨holder, _ | ⟨next, more⟩⟩ <;> rfl

/-- Who gives a lock back holds it no longer, and nobody else holds it. -/
theorem mem_lending_tail (books : net.Exclusive (net.lending number ((handle, id) :: rest)))
    {other : Nat} {place : Handle} {name : LockId}
    (mem : (place, name) ∈ net.lending number rest other) :
    (handle, id) ≠ (place, name) ∧
      (place, name) ∈ net.lending number ((handle, id) :: rest) other := by
  have honce := books.once number
  rw [lending_self, List.nodup_cons] at honce
  by_cases h : other = number
  · subst h
    rw [lending_self] at mem ⊢
    exact ⟨fun heq => honce.1 (heq ▸ mem), List.mem_cons_of_mem _ mem⟩
  · rw [lending_of_ne h] at mem ⊢
    refine ⟨fun heq => h ?_, mem⟩
    have hmine : (handle, id) ∈ net.lending number ((handle, id) :: rest) number := by
      rw [lending_self]
      exact List.mem_cons_self ..
    have hother : (handle, id) ∈ net.lending number ((handle, id) :: rest) other := by
      rw [lending_of_ne h, heq]
      exact mem
    exact books.unique hother hmine

theorem nodup_lending_tail (books : net.Exclusive (net.lending number ((handle, id) :: rest)))
    (other : Nat) : (net.lending number rest other).Nodup := by
  have honce := books.once other
  by_cases h : other = number
  · rw [h, lending_self] at honce ⊢
    exact (List.nodup_cons.1 honce).2
  · rw [lending_of_ne h] at honce ⊢
    exact honce

/-- A lock that nobody waits for is given back. -/
theorem release_last (books : net.Exclusive (net.lending number ((handle, id) :: rest)))
    (found : net.member? handle = some member) (held : net.lock? handle id = some lock)
    (last : lock.waiters = []) :
    Exclusive (net.lending number rest)
      (net.setMember handle (member.withLocks (member.node.locks.release id).2)) := by
  have hlock := lock?_release found held
  rw [last] at hlock
  have hfree : ∀ {other name later},
      (net.setMember handle (member.withLocks (member.node.locks.release id).2)).lock? other name =
        some later → net.lock? other name = some later := by
    intro other name later h
    rw [hlock] at h
    split at h
    · cases h
    · exact h
  refine ⟨books.young, books.poised, ?_, books.nodup_lending_tail, ?_, ?_⟩
  · intro other place name hmem
    obtain ⟨hne, hbefore⟩ := books.mem_lending_tail hmem
    rw [hlock, if_neg hne]
    exact books.held other place name hbefore
  · exact fun other name later h => books.queued other name later (hfree h)
  · exact fun other name later h => books.distinct other name later (hfree h)

/-- A lock goes to the task that has waited longest for it. -/
theorem release_next {freed : Network}
    (books : net.Exclusive (net.lending number ((handle, id) :: rest)))
    (stale : net.tasks[number]? = some old) (idle : old.control.queue? = none)
    (held : net.lock? handle id = some lock)
    {next : Waiter} {more : List Waiter} (first : lock.waiters = next :: more)
    (locks : ∀ other name, freed.lock? other name =
      if (handle, id) = (other, name) then some ⟨next.ticket, more⟩ else net.lock? other name)
    (tasks : freed.tasks = net.tasks) (count : freed.nextTask = net.nextTask) :
    Exclusive ((freed.grant next.ticket).lending number rest) (freed.grant next.ticket) := by
  have hnext : next ∈ lock.waiters := first ▸ List.mem_cons_self ..
  have hother : next.ticket ≠ number := books.not_queued stale idle held hnext
  obtain ⟨task, htask, hqueue⟩ := books.queued _ _ _ held _ hnext
  obtain ⟨purpose, deadline, stack, rfl⟩ := Task.eq_of_queue? hqueue
  obtain ⟨hholds, hpoised⟩ := Task.holds_granted (books.poised _ _ htask)
  let granted : Task := ⟨purpose, .nothing, .answer (.ok ()), stack⟩
  rw [grant_of_queue (tasks ▸ htask)]
  let after := (freed.putTask next.ticket granted).makeReady next.ticket
  have htasks : ∀ other : Nat, after.tasks[other]? =
      if next.ticket = other then some granted else net.tasks[other]? := by
    intro other
    rw [← tasks]
    exact getElem?_putTask granted other
  have hlock : ∀ other name, after.lock? other name =
      if (handle, id) = (other, name) then some ⟨next.ticket, more⟩ else net.lock? other name :=
    locks
  have hdistinct := books.distinct _ _ _ held
  rw [first, List.map_cons, List.nodup_cons] at hdistinct
  -- apart from the lock itself, everybody holds what they held before
  have hat : ∀ other, after.lending number rest other =
      if other = next.ticket then (handle, id) :: net.holdings other
      else net.lending number rest other := by
    intro other
    rw [lending, holdings_put htasks]
    by_cases h : other = next.ticket
    · subst h
      rw [if_neg hother, if_pos rfl, lending_self, holdings_of_getElem? htask]
      exact hholds
    · rw [if_neg h, lending_of_ne h, lending]
  refine ⟨books.young_put htask htasks count, books.poised_put htasks hpoised, ?_, ?_, ?_, ?_⟩
  · intro other place name hmem
    rw [hat] at hmem
    have hrest : (place, name) ∈ net.lending number rest other →
        ∃ lock, after.lock? place name = some lock ∧ lock.holder = other := by
      intro hold
      obtain ⟨hne, hbefore⟩ := books.mem_lending_tail hold
      rw [hlock, if_neg hne]
      exact books.held other place name hbefore
    split at hmem
    · rename_i h
      rcases List.mem_cons.1 hmem with heq | hmem
      · rw [hlock, if_pos heq.symm]
        exact ⟨_, rfl, h.symm⟩
      · refine hrest ?_
        rw [lending_of_ne (h ▸ hother)]
        exact hmem
    · exact hrest hmem
  · intro other
    have hrest := books.nodup_lending_tail other
    rw [hat]
    split
    · rename_i h
      have hne : other ≠ number := h ▸ hother
      rw [← lending_of_ne hne rest]
      exact List.nodup_cons.2 ⟨fun hmem => (books.mem_lending_tail hmem).1 rfl, hrest⟩
    · exact hrest
  · intro other name later hlater waiter hmem
    rw [hlock] at hlater
    rw [htasks]
    split at hlater
    · rename_i h
      obtain ⟨rfl, rfl⟩ := Prod.mk.inj h
      rw [← Option.some.inj hlater] at hmem
      have hne : next.ticket ≠ waiter.ticket := by
        intro heq
        exact hdistinct.1 (heq ▸ List.mem_map_of_mem hmem)
      rw [if_neg hne]
      exact books.queued _ _ _ held _ (first ▸ List.mem_cons_of_mem _ hmem)
    · rename_i h
      obtain ⟨task, hold, hwaits⟩ := books.queued _ _ _ hlater _ hmem
      have hne : next.ticket ≠ waiter.ticket := by
        intro heq
        rw [← heq, htask, Option.some.injEq] at hold
        rw [← hold] at hwaits
        exact h (Option.some.inj hwaits)
      rw [if_neg hne]
      exact ⟨task, hold, hwaits⟩
  · intro other name later hlater
    rw [hlock] at hlater
    split at hlater
    · rw [← Option.some.inj hlater]
      exact hdistinct.2
    · exact books.distinct other name later hlater

/-! ### Turns -/

theorem holds_taskOf (purpose : Purpose) (handle : Handle) (operation : Operation shape) :
    (taskOf purpose handle operation).holds = [] := rfl

theorem poised_taskOf (purpose : Purpose) (handle : Handle) (operation : Operation shape) :
    (taskOf purpose handle operation).Poised := trivial

theorem setMember (books : net.Exclusive (net.lending number held))
    (found : net.member? handle = some member) {new : Member}
    (same : new.node.locks = member.node.locks) :
    (net.setMember handle new).Exclusive ((net.setMember handle new).lending number held) :=
  books.of_same (lock?_setMember_same found same) rfl rfl

/-- A side effect of a turn.  What it gives back is held no longer. -/
theorem perform (books : net.Exclusive (net.lending number held))
    (stale : net.tasks[number]? = some old) (idle : old.control.queue? = none)
    (found : net.member? handle = some member) {effect : Effect}
    (given : held = effect.released?.toList.map (Prod.mk handle) ++ rest) :
    (net.perform handle effect).Exclusive ((net.perform handle effect).lending number rest) := by
  cases effect with
  | release id =>
      obtain rfl : held = (handle, id) :: rest := given
      have hmine : (handle, id) ∈ net.lending number ((handle, id) :: rest) number := by
        rw [lending_self]
        exact List.mem_cons_self ..
      obtain ⟨lock, hlock, -⟩ := books.held _ _ _ hmine
      have hlocks := hlock
      rw [lock?_of_nodeAt? (nodeAt?_of_member? found)] at hlocks
      rw [perform_release found, LockTable.release_fst hlocks]
      cases hwaiters : lock.waiters with
      | nil => exact books.release_last found hlock hwaiters
      | cons next more =>
          refine books.release_next stale idle hlock hwaiters (fun other name => ?_) rfl rfl
          rw [lock?_release found hlock, hwaiters]
  | spawn operation =>
      obtain rfl : held = rest := given
      rw [perform_spawn found, books.lending_spawn (holds_taskOf ..)]
      exact books.spawn (poised_taskOf ..)
  | announce requester =>
      obtain rfl : held = rest := given
      rw [perform_announce found]
      split
      · exact books.setMember found rfl
      · have hsending := books.setMember found
          (show ({ member with sending := true } : Member).node.locks = member.node.locks from rfl)
        rw [hsending.lending_spawn (holds_taskOf ..)]
        exact hsending.spawn (poised_taskOf ..)
  | tally counter =>
      obtain rfl : held = rest := given
      rw [perform_tally found]
      exact books.of_same rfl rfl rfl

end Exclusive

/-- A side effect of a task's turn leaves the task where it stands. -/
theorem task_perform (books : net.Exclusive holdings) (stale : net.tasks[number]? = some old)
    (idle : old.control.queue? = none) (handle : Handle) (effect : Effect) :
    (net.perform handle effect).tasks[number]? = some old := by
  have hspawned : ∀ {other : Network} (task : Task), other.tasks = net.tasks →
      other.nextTask = net.nextTask → (other.spawn task).tasks[number]? = some old := by
    intro other task htasks hnext
    refine (getElem?_putTask task number).trans ?_
    rw [if_neg, htasks, stale]
    rw [hnext]
    exact Nat.ne_of_gt (books.young _ _ stale)
  cases found : net.member? handle with
  | none =>
      rw [perform_none found]
      exact stale
  | some member =>
      cases effect with
      | release id =>
          rw [perform_release found]
          split
          · rename_i next hnext
            rw [grant]
            split
            · rename_i purpose other name deadline stack hqueued
              refine (getElem?_putTask _ number).trans ?_
              rw [if_neg]
              · exact stale
              · rintro rfl
                have hsame := stale.symm.trans hqueued
                rw [Option.some.injEq] at hsame
                rw [hsame] at idle
                cases idle
            · exact stale
          · exact stale
      | spawn operation =>
          rw [perform_spawn found]
          exact hspawned _ rfl rfl
      | announce requester =>
          rw [perform_announce found]
          split
          · exact stale
          · exact hspawned _ rfl rfl
      | tally counter =>
          rw [perform_tally found]
          exact stale

/-- A side effect leaves a member at every handle where one stands. -/
theorem exists_member_perform (found : net.member? handle = some member) (effect : Effect) :
    ∃ later, (net.perform handle effect).member? handle = some later := by
  have hmembers := (akin_perform net handle effect).members handle
  rw [found, Option.map_some] at hmembers
  obtain ⟨later, hlater, -⟩ := Option.map_eq_some_iff.1 hmembers
  exact ⟨later, hlater⟩

namespace Exclusive

/-- The side effects of a turn.  What they give back is held no longer. -/
theorem performs (books : net.Exclusive (net.lending number held))
    (stale : net.tasks[number]? = some old) (idle : old.control.queue? = none)
    (found : net.member? handle = some member) {effects : List Effect}
    (given : held = (effects.filterMap Effect.released?).map (Prod.mk handle) ++ rest) :
    let last := effects.foldl (fun left effect => left.perform handle effect) net
    last.Exclusive (last.lending number rest) ∧ last.tasks[number]? = some old ∧
      ∃ later, last.member? handle = some later := by
  induction effects generalizing net held member with
  | nil =>
      obtain rfl : held = rest := given
      exact ⟨books, stale, member, found⟩
  | cons effect others ih =>
      have hgiven : held = effect.released?.toList.map (Prod.mk handle) ++
          ((others.filterMap Effect.released?).map (Prod.mk handle) ++ rest) := by
        rw [given, List.filterMap_cons, ← List.append_assoc]
        cases effect.released? <;> rfl
      obtain ⟨later, hlater⟩ := exists_member_perform found effect
      exact ih (books.perform stale idle found hgiven) (task_perform books stale idle handle effect)
        hlater rfl

/-- A task takes a free lock. -/
theorem take (books : net.Exclusive (net.lending number held))
    (found : net.member? handle = some member) (free : net.lock? handle id = none)
    {table : LockTable} (taken : ∀ name, table.find? name =
      if id = name then some ⟨number, []⟩ else member.node.locks.find? name) :
    Exclusive ((net.setMember handle (member.withLocks table)).lending number ((handle, id) :: held))
      (net.setMember handle (member.withLocks table)) := by
  have hlock := lock?_withLocks found taken
  have hfresh : ∀ {other handle' id'}, (handle', id') ∈ net.lending number held other →
      (handle, id) ≠ (handle', id') := by
    intro other handle' id' hmem heq
    obtain ⟨lock, hold, -⟩ := books.held other handle' id' hmem
    obtain ⟨rfl, rfl⟩ := Prod.mk.inj heq
    rw [free] at hold
    cases hold
  refine ⟨books.young, books.poised, ?_, ?_, ?_, ?_⟩
  · intro other handle' id' hmem
    rw [hlock]
    by_cases h : other = number
    · subst h
      rw [lending_self] at hmem
      rcases List.mem_cons.1 hmem with heq | hmem
      · rw [if_pos heq.symm]
        exact ⟨_, rfl, rfl⟩
      · have hold : (handle', id') ∈ net.lending other held other := by
          rw [lending_self]
          exact hmem
        rw [if_neg (hfresh hold)]
        exact books.held other handle' id' hold
    · have hold : (handle', id') ∈ net.lending number held other := by
        rw [lending_of_ne h] at hmem ⊢
        exact hmem
      rw [if_neg (hfresh hold)]
      exact books.held other handle' id' hold
  · intro other
    have hold := books.once other
    by_cases h : other = number
    · subst h
      rw [lending_self] at hold ⊢
      refine List.nodup_cons.2 ⟨fun hmem => ?_, hold⟩
      have hold : (handle, id) ∈ net.lending other held other := by
        rw [lending_self]
        exact hmem
      exact hfresh hold rfl
    · rw [lending_of_ne h] at hold ⊢
      exact hold
  · intro other name lock h waiter hmem
    rw [hlock] at h
    split at h
    · rw [← Option.some.inj h] at hmem
      cases hmem
    · exact books.queued other name lock h waiter hmem
  · intro other name lock h
    rw [hlock] at h
    split at h
    · rw [← Option.some.inj h]
      exact List.nodup_nil
    · exact books.distinct other name lock h

/-- A task waits for a held lock after all others. -/
theorem enqueue {frame : Frame .nothing result} {below : Stack result} {purpose : Purpose}
    {deadline : Nat} (books : net.Exclusive (net.lending number held))
    (stale : net.tasks[number]? = some old) (idle : old.control.queue? = none)
    (found : net.member? handle = some member) (taken : net.lock? handle id = some lock)
    {table : LockTable} (queued : ∀ name, table.find? name =
      if id = name then some { lock with waiters := lock.waiters ++ [⟨number, deadline⟩] }
      else member.node.locks.find? name)
    (holds : (Stack.frame handle frame below).guards = held)
    (poised : Control.Poised (.queue handle id deadline) (.frame handle frame below)) :
    let after := (net.setMember handle (member.withLocks table)).putTask number
      ⟨purpose, .nothing, .queue handle id deadline, .frame handle frame below⟩
    after.Exclusive after.holdings := by
  intro after
  let waiting : Task := ⟨purpose, .nothing, .queue handle id deadline, .frame handle frame below⟩
  have htasks : ∀ other : Nat, after.tasks[other]? =
      if number = other then some waiting else net.tasks[other]? := getElem?_putTask waiting
  have hlock : ∀ other name, after.lock? other name =
      if (handle, id) = (other, name) then
        some { lock with waiters := lock.waiters ++ [⟨number, deadline⟩] }
      else net.lock? other name := lock?_withLocks found queued
  have hat : after.holdings = net.lending number held := holds ▸ holdings_put htasks
  rw [hat]
  refine ⟨books.young_put stale htasks rfl, books.poised_put htasks poised, ?_,
    books.once, ?_, ?_⟩
  · intro other handle' id' hmem
    obtain ⟨twin, htwin, hholder⟩ := books.held other handle' id' hmem
    rw [hlock]
    split
    · rename_i h
      obtain ⟨rfl, rfl⟩ := Prod.mk.inj h
      rw [taken, Option.some.injEq] at htwin
      exact ⟨_, rfl, htwin ▸ hholder⟩
    · exact ⟨twin, htwin, hholder⟩
  · intro other name later hlater waiter hmem
    rw [hlock] at hlater
    rw [htasks]
    split at hlater
    · rename_i h
      obtain ⟨rfl, rfl⟩ := Prod.mk.inj h
      rw [← Option.some.inj hlater] at hmem
      rcases List.mem_append.1 hmem with hold | hnew
      · have hne := books.not_queued stale idle taken hold
        rw [if_neg hne.symm]
        exact books.queued _ _ _ taken _ hold
      · obtain rfl := List.mem_singleton.1 hnew
        rw [if_pos rfl]
        exact ⟨_, rfl, rfl⟩
    · have hne := books.not_queued stale idle hlater hmem
      rw [if_neg hne.symm]
      exact books.queued _ _ _ hlater _ hmem
  · intro other name later hlater
    rw [hlock] at hlater
    split at hlater
    · rename_i h
      obtain ⟨rfl, rfl⟩ := Prod.mk.inj h
      rw [← Option.some.inj hlater, List.map_append, List.nodup_append]
      refine ⟨books.distinct _ _ _ taken, by simp, ?_⟩
      intro ticket hold other hother
      obtain ⟨waiter, hwaiter, rfl⟩ := List.mem_map.1 hold
      obtain rfl : other = number := by simpa using hother
      exact books.not_queued stale idle taken hwaiter
    · exact books.distinct other name later hlater

/-- What a turn does next.  The lock that it still holds is guarded by the frame that it leaves. -/
theorem act {action : Action result} {below : Stack result} {purpose : Purpose}
    (books : net.Exclusive
      (net.lending number (action.guards?.toList.map (Prod.mk handle) ++ below.guards)))
    (stale : net.tasks[number]? = some old) (idle : old.control.queue? = none)
    (found : net.member? handle = some member) (poised : action.Poised) (calm : below.Calm) :
    (net.act number purpose handle below action).Exclusive
      (net.act number purpose handle below action).holdings := by
  -- every action but the taking of a lock leads to a task that waits for none
  have hsimple : ∀ {shape : Shape} {control : Control shape} {frame : Frame shape result},
      frame.wants? = none → action.guards? = frame.guards? → control.idle = true →
      (net.putTask number ⟨purpose, shape, control, .frame handle frame below⟩).Exclusive
        (net.putTask number ⟨purpose, shape, control, .frame handle frame below⟩).holdings := by
    intro shape control frame hwants hguards hidle
    have hcalm : (Stack.frame handle frame below).Calm := ⟨hwants, calm⟩
    refine books.putTask stale idle ?_ (Control.poised_of_calm hidle hcalm)
    rw [hguards]
    exact Control.holds_of_calm control hcalm
  cases action with
  | reply outcome =>
      have hpoised : Control.Poised (.answer outcome) below :=
        Control.poised_of_calm rfl calm
      exact books.putTask stale idle (Control.holds_of_calm _ calm) hpoised
  | ask contact request frame =>
      cases contact with
      | own => exact hsimple poised rfl rfl
      | remote peer => exact hsimple poised rfl rfl
  | run operation frame => exact hsimple poised rfl rfl
  | call asked frame => exact hsimple poised rfl (Control.idle_after _ _ rfl)
  | sleep millis frame => exact hsimple poised rfl (Control.idle_after _ _ rfl)
  | lock id frame =>
      have hguards : frame.guards? = none := Frame.guards?_of_wants? poised
      have hbooks : net.Exclusive (net.lending number below.guards) := by
        have hbefore := books
        rw [Action.guards?, hguards] at hbefore
        exact hbefore
      have hstack : (Stack.frame handle frame below).guards = below.guards := by
        rw [Stack.guards, hguards]
        rfl
      have hpoised : Control.Poised (.queue handle id (net.now + member.node.config.lockTimeout))
          (.frame handle frame below) := ⟨rfl, poised, calm⟩
      have hlock := lock?_of_nodeAt? (nodeAt?_of_member? found) id
      simp only [Network.act, found]
      cases hheld : member.node.locks.find? id with
      | none =>
          obtain ⟨hgrant, htable⟩ := LockTable.acquire_free hheld net.now
            ⟨number, net.now + member.node.config.lockTimeout⟩
          simp only [hgrant]
          refine (hbooks.take found (hlock.trans hheld) htable).putTask stale idle ?_ calm
          have hholds : frame.holds? (.ok ()) = some id := by
            rw [Frame.holds?, hguards, poised, Option.none_or]
          rw [Task.holds, Control.holds, hholds]
          rfl
      | some lock =>
          have hacquire := LockTable.acquire_held hheld net.now
            ⟨number, net.now + member.node.config.lockTimeout⟩
          split at hacquire
          · obtain ⟨hrefused, hsame⟩ := hacquire
            simp only [hrefused]
            have halike := lock?_setMember_alike found
              (member.withLocks (member.node.locks.acquire id net.now
                ⟨number, net.now + member.node.config.lockTimeout⟩).2) hsame
            have hrefuses := hbooks.of_same halike rfl rfl
            refine hrefuses.putTask stale idle ?_ calm
            rw [Task.holds, Control.holds, Frame.holds?, hguards]
            rfl
          · obtain ⟨hqueued, htable⟩ := hacquire
            simp only [hqueued]
            exact hbooks.enqueue stale idle found (hlock.trans hheld) htable hstack hpoised

/-- A turn of a member that keeps the books. -/
theorem work {turn : Node → Surroundings → Turn result} {below : Stack result} {purpose : Purpose}
    {hold : Option LockId} {plain : Bool} (books : net.Exclusive net.holdings)
    (stale : net.tasks[number]? = some old) (idle : old.control.queue? = none)
    (holds : old.holds = hold.toList.map (Prod.mk handle) ++ below.guards) (calm : below.Calm)
    (orderly : ∀ node, net.nodeAt? handle = some node →
      (turn node net.surroundings).Orderly node hold plain) :
    (net.work number purpose handle below turn).Exclusive
      (net.work number purpose handle below turn).holdings := by
  have hlent := books.lend stale rfl
  cases found : net.member? handle with
  | none =>
      simp only [Network.work, found]
      exact hlent.dropTask (hlent.not_queued stale idle)
  | some member =>
      have horderly := orderly _ (nodeAt?_of_member? found)
      have hlocks : (turn member.node net.surroundings).node.locks = member.node.locks :=
        congrArg (fun belongings => belongings.2.2.1) horderly.same
      simp only [Network.work, found]
      let done := turn member.node net.surroundings
      let changed := net.setMember handle { member with node := done.node }
      have hchanged : changed.Exclusive (changed.lending number old.holds) :=
        hlent.setMember found hlocks
      have hfound : changed.member? handle = some { member with node := done.node } := by
        rw [member?_setMember found, if_pos rfl]
      have hgiven : old.holds = (done.effects.filterMap Effect.released?).map (Prod.mk handle) ++
          (done.action.guards?.toList.map (Prod.mk handle) ++ below.guards) := by
        rw [holds, ← horderly.balance, List.map_append, List.append_assoc]
      obtain ⟨hlast, hstale, later, hlater⟩ := hchanged.performs stale idle hfound hgiven
      exact hlast.act hstale idle hlater horderly.poised calm

end Exclusive

/-! ## Every move keeps the books -/

namespace Exclusive

theorem sendNext (books : net.Exclusive net.holdings) (stale : net.tasks[number]? = some old)
    (idle : old.control.queue? = none) (holds : old.holds = []) (handle : Handle) :
    (net.sendNext number handle).Exclusive (net.sendNext number handle).holdings := by
  have hlent := books.lend stale rfl
  cases found : net.member? handle with
  | none =>
      simp only [Network.sendNext, found]
      exact hlent.dropTask (hlent.not_queued stale idle)
  | some member =>
      simp only [Network.sendNext, found]
      split
      · have hidle := hlent.setMember found
          (show ({ member with sending := false } : Member).node.locks = member.node.locks from rfl)
        exact hidle.dropTask (hidle.not_queued stale idle)
      · rename_i requester rest hbox
        have hless := hlent.setMember found
          (show ({ member with outbox := rest } : Member).node.locks = member.node.locks from rfl)
        exact hless.putTask stale idle holds.symm (poised_taskOf ..)

theorem finish {outcome : Outcome shape} {purpose : Purpose} (books : net.Exclusive net.holdings)
    (stale : net.tasks[number]? = some ⟨purpose, shape, .answer outcome, .root⟩) :
    (net.finish number outcome purpose).Exclusive (net.finish number outcome purpose).holdings := by
  have hlent : net.Exclusive (net.lending number []) := books.lend stale rfl
  have hdropped := hlent.dropTask (hlent.not_queued stale rfl)
  cases purpose with
  | client rest =>
      match rest, outcome with
      | [], _ => exact hdropped.of_same rfl rfl rfl
      | (handle, operation) :: rest, .ok _ =>
          exact hlent.putTask stale rfl (holds_taskOf ..) (poised_taskOf ..)
      | _ :: _, .error _ => exact hdropped.of_same rfl rfl rfl
  | background => exact hdropped
  | sender handle => exact books.sendNext stale rfl rfl handle
  | loop loop =>
      simp only [Network.finish, goRound]
      split
      · exact hdropped
      · split
        · exact hlent.putTask stale rfl (holds_taskOf ..) (poised_taskOf ..)
        · exact hlent.putTask stale rfl rfl ⟨rfl, trivial⟩

theorem send {purpose : Purpose} {peer : Handle} {request : Request shape} {stack : Stack shape}
    (books : net.Exclusive net.holdings)
    (stale : net.tasks[number]? = some ⟨purpose, shape, .send peer request, stack⟩) :
    (net.send number purpose peer request stack).Exclusive
      (net.send number purpose peer request stack).holdings := by
  have hcalm : stack.Calm := books.poised _ _ stale
  cases found : net.member? peer with
  | none =>
      simp only [Network.send, found]
      exact books.replaceTask stale rfl rfl hcalm
  | some member =>
      simp only [Network.send, found]
      let link := member.link.counting request.method
      have hlent : net.Exclusive (net.lending number stack.guards) := books.lend stale rfl
      have hcounted := hlent.setMember found
        (show ({ member with link := link } : Member).node.locks = member.node.locks from rfl)
      exact hcounted.putTask stale rfl (Control.holds_of_calm _ hcalm)
        (Control.poised_of_calm (Control.idle_after _ _ rfl) hcalm)

theorem arrive {purpose : Purpose} {peer : Handle} {request : Request shape} {stack : Stack shape}
    (books : net.Exclusive net.holdings)
    (stale : net.tasks[number]? = some ⟨purpose, shape, .arrive peer request, stack⟩) :
    (net.arrive number purpose peer request stack).Exclusive
      (net.arrive number purpose peer request stack).holdings := by
  have hcalm : stack.Calm := books.poised _ _ stale
  have hlent : net.Exclusive (net.lending number stack.guards) := books.lend stale rfl
  have hanswer : ∀ outcome : Outcome shape, Control.Poised (.answer outcome) stack := fun _ =>
    Control.poised_of_calm rfl hcalm
  rw [Network.arrive]
  split
  · exact hlent.dropTask (hlent.not_queued stale rfl)
  · rename_i script hscript
    have hnone : net.member? peer = none := by rw [member?, hscript]
    have hlocks : (net.setScript peer (script.asked request)).lock? = net.lock? := by
      refine lock?_of_member? ?_
      funext other
      by_cases h : peer = other
      · subst h
        have hsize := (Array.getElem?_eq_some_iff.1 hscript).1
        rw [hnone]
        simp [member?, setScript, hsize]
      · simp [member?, setScript, h]
    have hasked : (net.setScript peer (script.asked request)).Exclusive
        ((net.setScript peer (script.asked request)).lending number stack.guards) :=
      hlent.of_same hlocks rfl rfl
    exact hasked.putTask stale rfl (Control.holds_of_calm _ hcalm) (hanswer _)
  · split
    · exact hlent.putTask stale rfl (Control.holds_of_calm _ hcalm) (hanswer _)
    · exact hlent.putTask stale rfl rfl hcalm

theorem access {purpose : Purpose} {handle : Handle} {call : StoreCall shape} {stack : Stack shape}
    (books : net.Exclusive net.holdings)
    (stale : net.tasks[number]? = some ⟨purpose, shape, .access handle call, stack⟩) :
    (net.access number purpose handle call stack).Exclusive
      (net.access number purpose handle call stack).holdings := by
  have hcalm : stack.Calm := books.poised _ _ stale
  have hlent : net.Exclusive (net.lending number stack.guards) := books.lend stale rfl
  cases found : net.member? handle with
  | none =>
      simp only [Network.access, found]
      exact hlent.dropTask (hlent.not_queued stale rfl)
  | some member =>
      simp only [Network.access, found]
      let store := (member.node.store.perform member.node.config.credential call).2
      have hstored := hlent.setMember found (show ({ member with
        node := { member.node with store := store } } : Member).node.locks = member.node.locks from rfl)
      exact hstored.putTask stale rfl (Control.holds_of_calm _ hcalm)
        (Control.poised_of_calm rfl hcalm)

/-- A step of a task keeps the books. -/
theorem step (books : net.Exclusive net.holdings) (number : Nat) :
    (net.step number).Exclusive (net.step number).holdings := by
  rw [Network.step]
  split
  · exact books
  · rename_i purpose shape outcome htask
    exact books.finish htask
  · rename_i purpose shape outcome result handle frame below htask
    exact books.work htask rfl rfl (books.poised _ _ htask)
      fun node _ => node.orderly_resume net.surroundings frame outcome
  · rename_i purpose shape handle operation stack htask
    refine books.work htask rfl ?_ (books.poised _ _ htask)
      fun node _ => node.orderly_start net.surroundings operation
    rfl
  · rename_i purpose shape peer request stack htask
    exact books.send htask
  · rename_i purpose shape peer request stack htask
    exact books.arrive htask
  · rename_i purpose shape handle call stack htask
    exact books.access htask
  · exact books
  · exact books

/-- A task that gives a lock up is taken out of its queue. -/
theorem withdraw {purpose : Purpose} {deadline : Nat} {stack : Stack .nothing}
    (books : net.Exclusive net.holdings)
    (stale : net.tasks[number]? = some ⟨purpose, .nothing, .queue handle id deadline, stack⟩)
    (found : net.member? handle = some member) (failure : Failure) :
    let after := (net.setMember handle
      (member.withLocks (member.node.locks.withdraw id number))).putTask number
        ⟨purpose, .nothing, .answer (.error failure), stack⟩
    after.Exclusive after.holdings := by
  intro after
  obtain ⟨hholds, hpoised⟩ := Task.holds_refused (books.poised _ _ stale) failure
  let refused : Task := ⟨purpose, .nothing, .answer (.error failure), stack⟩
  have htasks : ∀ other : Nat, after.tasks[other]? =
      if number = other then some refused else net.tasks[other]? := getElem?_putTask refused
  have hlock : ∀ other name, after.lock? other name =
      if (handle, id) = (other, name) then (net.lock? handle id).map fun held =>
        { held with waiters := held.waiters.filter fun waiter => waiter.ticket ≠ number }
      else net.lock? other name := by
    have hlook := lock?_of_nodeAt? (nodeAt?_of_member? found) id
    rw [hlook]
    refine lock?_withLocks found fun name => LockTable.find?_withdraw_of_nodup ?_ name number
    exact fun lock hfound => books.distinct handle id lock (hlook.trans hfound)
  have hat : after.holdings = net.holdings := by
    rw [holdings_put htasks, ← lending_eq stale]
    exact congrArg (net.lending number) hholds
  rw [hat]
  -- who is still in a queue was there before, and it is not the task that gives up
  have hstill : ∀ {other name later}, after.lock? other name = some later →
      ∃ before, net.lock? other name = some before ∧ later.holder = before.holder ∧
        ∀ waiter ∈ later.waiters, waiter ∈ before.waiters ∧ waiter.ticket ≠ number := by
    intro other name later hlater
    rw [hlock] at hlater
    split at hlater
    · rename_i h
      obtain ⟨rfl, rfl⟩ := Prod.mk.inj h
      obtain ⟨before, hbefore, rfl⟩ := Option.map_eq_some_iff.1 hlater
      refine ⟨before, hbefore, rfl, fun waiter hmem => ?_⟩
      simpa using hmem
    · rename_i h
      refine ⟨later, hlater, rfl, fun waiter hmem => ⟨hmem, ?_⟩⟩
      rintro rfl
      obtain ⟨task, htask, hqueue⟩ := books.queued _ _ _ hlater _ hmem
      rw [stale, Option.some.injEq] at htask
      rw [← htask] at hqueue
      exact h (Option.some.inj hqueue)
  refine ⟨books.young_put stale htasks rfl, books.poised_put htasks hpoised, ?_,
    books.once, ?_, ?_⟩
  · intro other handle' id' hmem
    obtain ⟨lock, hheld, hholder⟩ := books.held other handle' id' hmem
    rw [hlock]
    split
    · rename_i h
      obtain ⟨rfl, rfl⟩ := Prod.mk.inj h
      rw [hheld]
      exact ⟨_, rfl, hholder⟩
    · exact ⟨lock, hheld, hholder⟩
  · intro other name later hlater waiter hmem
    obtain ⟨before, hbefore, -, hwaiters⟩ := hstill hlater
    obtain ⟨hold, hne⟩ := hwaiters waiter hmem
    rw [htasks, if_neg hne.symm]
    exact books.queued _ _ _ hbefore _ hold
  · intro other name later hlater
    rw [hlock] at hlater
    split at hlater
    · obtain ⟨before, hbefore, rfl⟩ := Option.map_eq_some_iff.1 hlater
      exact (books.distinct _ _ _ hbefore).sublist ((List.filter_sublist).map _)
    · exact books.distinct other name later hlater

/-- Waking a task keeps the books. -/
theorem wake (books : net.Exclusive net.holdings) (number : Nat) :
    (net.wake number).Exclusive (net.wake number).holdings := by
  rw [Network.wake]
  split
  · rename_i purpose shape moment next stack htask
    obtain ⟨hidle, hcalm⟩ := books.poised _ _ htask
    let woken := net.putTask number ⟨purpose, shape, next, stack⟩
    have hnext : woken.Exclusive woken.holdings := books.replaceTask htask rfl
      (Control.holds_of_calm next hcalm) (Control.poised_of_calm hidle hcalm)
    exact hnext.of_same rfl rfl rfl
  · rename_i purpose handle id deadline stack htask
    split
    · rename_i missing
      have hlent : net.Exclusive (net.lending number (net.holdings number)) := by
        rw [holdings_of_getElem? htask, lending_eq htask]
        exact books
      refine hlent.dropTask fun {other name lock waiter} hlock hmem => ?_
      rintro rfl
      obtain ⟨task, hsame, hqueue⟩ := books.queued _ _ _ hlock _ hmem
      rw [htask, Option.some.injEq] at hsame
      rw [← hsame] at hqueue
      obtain ⟨rfl, rfl⟩ := Prod.mk.inj (Option.some.inj hqueue)
      rw [lock?, nodeAt?, missing] at hlock
      cases hlock
    · rename_i member found
      exact (books.withdraw htask found _).of_same rfl rfl rfl
  · exact books

/-- A network without tasks in which no lock is held. -/
theorem of_idle (tasks : ∀ number : Nat, net.tasks[number]? = none)
    (free : ∀ handle id, net.lock? handle id = none) : net.Exclusive net.holdings := by
  have hnothing : ∀ number, net.holdings number = [] := fun number => by
    rw [Network.holdings, tasks, Option.elim_none]
  refine ⟨?_, ?_, ?_, ?_, ?_, ?_⟩
  · intro number task htask
    rw [tasks] at htask
    cases htask
  · intro number task htask
    rw [tasks] at htask
    cases htask
  · intro number handle id hmem
    rw [hnothing] at hmem
    cases hmem
  · intro number
    rw [hnothing]
    exact List.nodup_nil
  · intro handle id lock hlock
    rw [free] at hlock
    cases hlock
  · intro handle id lock hlock
    rw [free] at hlock
    cases hlock

/-- A move keeps the books. -/
theorem move {rules : Rules} (books : net.Exclusive net.holdings) (move : Move rules net after) :
    after.Exclusive after.holdings := by
  cases move with
  | attach fresh new welcome =>
      rename_i member
      obtain ⟨id, store, config, hfresh⟩ := fresh.fresh
      refine books.of_same ?_ rfl rfl
      funext handle name
      rw [lock?, nodeAt?_attach]
      split
      · rename_i h
        rw [Option.bind_some, hfresh, h, lock?, nodeAt?_size]
        exact LockTable.find?_empty name
      · rfl
  | register found => exact books.of_same rfl rfl rfl
  | launch later permitted =>
      rw [books.holdings_spawn (holds_taskOf ..)]
      exact books.spawn (poised_taskOf ..)
  | step first => exact books.step _
  | wake => exact books.wake _
  | pass now ready waiting => exact books.of_same rfl rfl rfl

/-- A run keeps the books. -/
theorem run {rules : Rules} (books : net.Exclusive net.holdings) (run : Run rules net after) :
    after.Exclusive after.holdings := by
  induction run with
  | refl => exact books
  | tail _ hmove ih => exact ih.move hmove

end Exclusive

end Network

end RecordRing
