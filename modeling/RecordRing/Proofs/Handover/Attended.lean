import RecordRing.Proofs.Handover.Progress

/-!
# Staged runs

In a run in which clients call record operations and start transfers, and passes start others, every
task stands at a stage of its job, whatever order the tasks take their steps in (`Attended.move`).  So
an operation that has ended has the outcome that the history shows (`Attended.backed`), and every move
means one of four things for a record (`Shift`).

## Implementation notes

A task keeps its number, and no number is given to a second task, so the events of a task can be told
by its number.
-/

namespace RecordRing

/-! ## What clients may ask for -/

/-- An operation that is one of the clients' calls, a transfer, or touches no record. -/
def Operation.Attends (clients : Clients) {shape : Shape} : Operation shape → Prop
  | .serve (.record call) => clients call
  | .transfer .. => True
  | operation => operation.plain = true

/-- The rules of a run let clients make certain calls on records, and transfer them. -/
def Rules.Attend (rules : Rules) (clients : Clients) : Prop :=
  ∀ {net handle shape} {operation : Operation shape},
    rules.Permits net handle operation → operation.Attends clients

/-- The outcome of an operation can be read back from a history. -/
def Operation.Backed {shape : Shape} (history : List Event) (number : Nat) :
    Operation shape → Outcome shape → Prop
  | .serve (.record call), outcome => call.Backed history number outcome
  | .transfer storage key _, outcome =>
    outcome = .ok true → ∃ source, .dropped number source ⟨storage, key⟩ ∈ history
  | _, _ => True

section Stages

variable {clients : Clients} {net after : Network} {history later : List Event}
  {number nextTask other : Nat} {shape : Shape} {operation : Operation shape}

/-- An operation that clients may ask for starts at a stage of its job. -/
theorem Stage.of_start (handle : Handle) (attends : operation.Attends clients)
    (fresh : history.countP (Event.hits number) = 0) :
    Stage clients net history number operation.job (.start handle operation) .root := by
  cases operation with
  | serve request =>
      cases request with
      | record call => exact .calling attends fresh (.called handle .rest)
      | _ => exact .plain attends rfl
  | transfer storage key owner => exact .hauling (.started owner)
  | _ => exact .plain attends rfl

/-- A task that has ended knows its outcome from the history. -/
theorem Stage.backed {outcome : Outcome shape}
    (stage : Stage clients net history number operation.job (.answer outcome) .root) :
    operation.Backed history number outcome := by
  cases operation with
  | serve request =>
      cases request with
      | record call =>
          cases stage with
          | calling asked fresh serving => cases serving
          | called asked backed served =>
              cases served with
              | passed relay => exact backed
      | _ => trivial
  | transfer storage key owner =>
      cases stage with
      | hauling hauling =>
          cases hauling with
          | handing opens copy serving => cases serving
      | hauled shown => exact shown
  | _ => trivial

theorem Operation.Backed.mono {outcome : Outcome shape}
    (backed : operation.Backed history number outcome) (grows : ∀ event ∈ history, event ∈ later)
    (same : later.countP (Event.hits number) = history.countP (Event.hits number)) :
    operation.Backed later number outcome := by
  cases operation with
  | serve request =>
      cases request with
      | record call => exact RecordCall.Backed.mono backed grows same
      | _ => trivial
  | transfer storage key owner =>
      intro heq
      obtain ⟨source, hshown⟩ := backed heq
      exact ⟨source, grows _ hshown⟩
  | _ => trivial

/-- Events of other tasks do not concern the outcome of a task. -/
theorem Event.countP_hits_eq_zero {events : List Event}
    (apart : ∀ event ∈ events, event.number ≠ other) : events.countP (hits other) = 0 := by
  rw [List.countP_eq_zero]
  intro event hevent hhits
  refine apart event hevent ?_
  cases event with
  | served number handle call answer =>
      rw [hits, Bool.and_eq_true] at hhits
      exact of_decide_eq_true hhits.1
  | _ => cases hhits

theorem Event.countP_hits_append {events : List Event}
    (apart : ∀ event ∈ events, event.number ≠ other) :
    (history ++ events).countP (hits other) = history.countP (hits other) := by
  rw [List.countP_append, countP_hits_eq_zero apart, Nat.add_zero]

theorem Task.Becomes.staged {before : Option Task} {task : Task}
    (becomes : Task.Becomes nextTask other before task)
    (staged : ∀ old, before = some old → old.Staged clients net history other)
    (young : ∀ event ∈ history, event.number < nextTask) :
    task.Staged clients net history other := by
  cases becomes with
  | same => exact staged task rfl
  | granted purpose handle id deadline stack =>
      obtain ⟨hstands, job, hstage, hbegun⟩ := staged _ rfl
      exact ⟨hstands, job, (hstage.answered (.ok ())).1, hbegun⟩
  | spawned handle late later plain =>
      refine ⟨trivial, .other, .plain plain rfl, fun handle shape operation h => ?_⟩
      exact absurd (young _ h) (Nat.not_lt.2 late)

theorem Task.Becomes.doomed?_eq {before : Option Task} {task : Task}
    (becomes : Task.Becomes nextTask other before task)
    (staged : ∀ old, before = some old → old.Staged clients net history other) :
    task.doomed? = before.bind Task.doomed? := by
  cases becomes with
  | same => rfl
  | granted purpose handle id deadline stack =>
      obtain ⟨-, job, hstage, -⟩ := staged _ rfl
      exact (hstage.answered (.ok ())).2
  | spawned handle late later plain => rfl

end Stages

namespace Network

variable {clients : Clients} {rules : Rules} {net after : Network} {history events : List Event}
  {number other : Nat} {handle : Handle} {id : LockId} {kept : Option Stored}

/-! ## Doomed copies -/

/-- The record that a task is about to delete, and where. -/
def doomedBy? (net : Network) (number : Nat) : Option (Handle × LockId) :=
  net.tasks[number]?.bind Task.doomed?

/-- A task is about to delete a copy of a record. -/
def Doomed (net : Network) (handle : Handle) (id : LockId) : Prop :=
  ∃ number, net.doomedBy? number = some (handle, id)

theorem doomedBy?_of_task (found : net.tasks[number]? = some task) :
    net.doomedBy? number = task.doomed? := by
  rw [doomedBy?, found, Option.bind_some]

theorem not_doomed_of_idle (tasks : ∀ number : Nat, net.tasks[number]? = none) :
    ¬ net.Doomed handle id := by
  rintro ⟨number, hdoomed⟩
  rw [doomedBy?, tasks] at hdoomed
  cases hdoomed

theorem doomed_iff (same : after.doomedBy? = net.doomedBy?) :
    after.Doomed handle id ↔ net.Doomed handle id := by
  rw [Doomed, same, Doomed]

/-! ## What a move means for a record -/

/-- What a move means for one record, with what it shows. -/
inductive Shift (net : Network) (clients : Clients) (after : Network) (id : LockId) (events : List Event) :
    Prop where
  /-- All copies stay as they are. -/
  | rests (stored : ∀ handle, after.stored? handle id = net.stored? handle id)
      (doomed : ∀ handle, after.Doomed handle id ↔ net.Doomed handle id)
      (spares : ∀ event ∈ events, event.Spares id)
  /-- A node stores a copy of the record, which dooms the one that it has been copied from. -/
  | handed {source peer : Handle} {stored : Stored} (copy : net.stored? source id = some stored)
      (free : net.stored? peer id = none) (writes : net.Writes after peer id (some stored))
      (stays : ¬ net.Doomed source id) (apart : ¬ net.Doomed peer id)
      (doomed : ∀ handle, after.Doomed handle id ↔ net.Doomed handle id ∨ handle = source)
      (spares : ∀ event ∈ events, event.Spares id)
  /-- A node deletes a doomed copy. -/
  | dropped {source : Handle} (fated : net.Doomed source id)
      (writes : net.Writes after source id none)
      (doomed : ∀ handle, after.Doomed handle id ↔ net.Doomed handle id ∧ handle ≠ source)
      (spares : ∀ event ∈ events, event.Spares id)
  /-- A store carries out the update or the deletion of a client. -/
  | edited {kind : Shape} {call : RecordCall kind} {peer : Handle} {stored : Stored} {event : Event}
      (asked : clients call) (names : call.lockId = id)
      (copy : net.stored? peer id = some stored) (stays : ¬ net.Doomed peer id)
      (writes : net.Writes after peer id (event.replay id (some stored)))
      (doomed : ∀ handle, after.Doomed handle id ↔ net.Doomed handle id)
      (shows : events = [event])
      (large : event.overruns id = true → UInt64.size ≤ stored.version.toNat + 1)

/-- The record that the next step of a task creates for a client, and where. -/
def creates? (net : Network) (number : Nat) : Option (Handle × LockId) :=
  net.tasks[number]?.bind Task.creates?

/-- The next step of a task gives a node a record that a client creates. -/
structure Creates (net : Network) (clients : Clients) (number : Nat) (id : LockId) (peer : Handle)
    (stored : Stored) : Prop where
  asked : clients (.create id.storage id.key stored.content stored.version)
  makes : net.creates? number = some (peer, id)
  free : net.stored? peer id = none
  writes : net.Writes (net.step number) peer id (some stored)
  doomed : ∀ handle, (net.step number).Doomed handle id ↔ net.Doomed handle id

/-! ## Staged networks -/

/-- Every task stands at a stage of its job, and the ended ones had the outcomes that the history
shows. -/
structure Attended (clients : Clients) (history : List Event) (net : Network) : Prop where
  members : ∀ handle, net.script? handle = none
  young : ∀ event ∈ history, event.number < net.nextTask
  staged : ∀ (number : Nat) task, net.tasks[number]? = some task →
    task.Staged clients net history number
  ended : ∀ number shape (outcome : Outcome shape), .ended number outcome ∈ history →
    net.tasks[number]? = none
  backed : ∀ {number handle shape} {operation : Operation shape} {outcome : Outcome shape},
    .begun number handle operation ∈ history → .ended number outcome ∈ history →
    operation.Backed history number outcome

namespace Attended

theorem of_idle (members : ∀ handle, net.script? handle = none)
    (tasks : ∀ number : Nat, net.tasks[number]? = none) : net.Attended clients [] := by
  refine ⟨members, fun event h => (List.not_mem_nil h).elim, fun number task h => ?_,
    fun number shape outcome h => (List.not_mem_nil h).elim, fun h _ => (List.not_mem_nil h).elim⟩
  rw [tasks] at h
  cases h

/-- A task that is about to delete a copy holds its lock. -/
theorem of_doomed (attended : net.Attended clients history)
    (doomed : net.doomedBy? number = some (handle, id)) :
    (∃ stored, net.stored? handle id = some stored) ∧ (handle, id) ∈ net.holdings number := by
  obtain ⟨task, htask, hdoomed⟩ := Option.bind_eq_some_iff.1 doomed
  obtain ⟨job, hstage, -⟩ := (attended.staged number task htask).stage
  obtain ⟨hstored, hguards⟩ := hstage.of_doomed hdoomed
  rw [holdings_of_getElem? htask]
  exact ⟨hstored, task.control.mem_holds hguards⟩

/-- Moves that show nothing. -/
theorem of_quiet (attended : net.Attended clients history) (scripts : after.script? = net.script?)
    (grows : net.nextTask ≤ after.nextTask)
    (staged : ∀ (number : Nat) task, after.tasks[number]? = some task →
      task.Staged clients after history number)
    (ended : ∀ number : Nat, net.tasks[number]? = none → after.tasks[number]? = none) :
    after.Attended clients history := by
  refine ⟨fun handle => ?_, fun event h => Nat.lt_of_lt_of_le (attended.young event h) grows, staged,
    fun number shape outcome h => ended number (attended.ended number shape outcome h),
    attended.backed⟩
  rw [scripts]
  exact attended.members handle

/-! ## Steps -/

theorem doomedBy?_step (attended : net.Attended clients history)
    (books : net.Exclusive net.holdings) (ne : other ≠ number) :
    (net.step number).doomedBy? other = net.doomedBy? other := by
  rw [doomedBy?, doomedBy?]
  cases hlater : (net.step number).tasks[other]? with
  | none => rw [none_of_step ne hlater]
  | some task => exact (becomes_step books ne hlater).doomed?_eq (attended.staged other)

end Attended

end Network

/-- A step changes only records whose lock the task holds, and closes no store. -/
theorem Progress.keeps {clients : Clients} {net after : Network} {number : Nat} {task : Task}
    {later : Option Task} (progress : Progress clients net number task after later) :
    (∀ handle, net.Present handle → after.Present handle) ∧
    (∀ handle, net.Opens handle → after.Opens handle) ∧
    ∀ handle id, (handle, id) ∉ task.holds → after.stored? handle id = net.stored? handle id := by
  have hwrites : ∀ {peer : Handle} {name : LockId} {value : Option Stored},
      net.Writes after peer name value → (peer, name) ∈ task.holds →
      (∀ handle, net.Present handle → after.Present handle) ∧
      (∀ handle, net.Opens handle → after.Opens handle) ∧
      ∀ handle id, (handle, id) ∉ task.holds → after.stored? handle id = net.stored? handle id := by
    intro peer name value writes held
    refine ⟨writes.present, writes.opens, fun handle id free => ?_⟩
    exact writes.stored?_of_ne fun heq => free (heq ▸ held)
  cases progress with
  | still steady silent doomed =>
      exact ⟨fun _ => steady.present, fun _ => steady.opens, fun handle id _ => steady.stored? handle id⟩
  | handed held guarded copy free writes silent stays doomed => exact hwrites writes held
  | dropped held writes shows fated doomed => exact hwrites writes held
  | edited asked held copy writes shows replays spares keeps large stays doomed =>
      exact hwrites writes held
  | created asked makes held free writes silent stays doomed => exact hwrites writes held

namespace Network

variable {clients : Clients} {rules : Rules} {net after : Network} {history events : List Event}
  {number other : Nat} {handle : Handle} {id : LockId} {kept : Option Stored}

namespace Attended

theorem staged_step (attended : net.Attended clients history) (books : net.Exclusive net.holdings)
    {task : Task} (htask : net.tasks[number]? = some task) (other : Nat) (later : Task)
    (found : (net.step number).tasks[other]? = some later) :
    later.Staged clients (net.step number) (history ++ net.events number) other := by
  have hadvance := (attended.staged number task htask).step htask attended.members
  by_cases h : other = number
  · subst h
    exact hadvance.next later found
  · have hyoung : ∀ event ∈ history ++ net.events number, event.number < net.nextTask := by
      intro event hevent
      rcases List.mem_append.1 hevent with hold | hnew
      · exact attended.young event hold
      · rw [number_of_mem_events hnew]
        exact books.young number task htask
    refine (becomes_step books h found).staged (fun old hold => ?_) hyoung
    have hkeeps := hadvance.progress.keeps
    refine (attended.staged other old hold).mono hkeeps.2.1 (fun event => List.mem_append_left _)
      (Event.countP_hits_append fun event hevent => ?_) hkeeps.1 (fun handle id hguards => ?_)
      fun handle shape operation hbegun =>
        (List.mem_append.1 hbegun).resolve_right (begun_notMem_events other handle operation)
    · rw [number_of_mem_events hevent]
      exact Ne.symm h
    · refine hkeeps.2.2 handle id fun hmine => h ?_
      rw [← holdings_of_getElem? htask] at hmine
      have hother : (handle, id) ∈ net.holdings other := by
        rw [holdings_of_getElem? hold]
        exact old.control.mem_holds hguards
      exact books.unique hother hmine

/-- A step of a task leads to a staged network. -/
theorem step (attended : net.Attended clients history) (books : net.Exclusive net.holdings)
    (number : Nat) : (net.step number).Attended clients (history ++ net.events number) := by
  cases htask : net.tasks[number]? with
  | none =>
      have hstep : net.step number = net := by simp only [Network.step, htask]
      rw [hstep, events_none htask, List.append_nil]
      exact attended
  | some task =>
      have hlast : ∀ other, net.tasks[other]? = none → other < net.nextTask →
          (net.step number).tasks[other]? = none := by
        intro other hnone hlt
        cases hlater : (net.step number).tasks[other]? with
        | none => rfl
        | some later =>
            have hne : other ≠ number := by
              rintro rfl
              rw [htask] at hnone
              cases hnone
            have hbecomes := becomes_step books hne hlater
            rw [hnone] at hbecomes
            cases hbecomes with
            | spawned handle late later plain => exact absurd hlt (Nat.not_lt.2 late)
      refine ⟨fun handle => ?_, fun event hevent => ?_, attended.staged_step books htask,
        fun other shape outcome h => ?_, fun hbegun hends => ?_⟩
      · rw [script?_step attended.members number]
        exact attended.members handle
      · refine Nat.lt_of_lt_of_le ?_ (nextTask_step net number)
        rcases List.mem_append.1 hevent with hold | hnew
        · exact attended.young event hold
        · rw [number_of_mem_events hnew]
          exact books.young number task htask
      · rcases List.mem_append.1 h with hold | hnew
        · exact hlast other (attended.ended other shape outcome hold) (attended.young _ hold)
        · obtain ⟨rfl, htask⟩ := task_of_ended hnew
          rw [step_root htask]
          exact (getElem?_dropTask other).trans (if_pos rfl)
      · rename_i other handle shape operation outcome
        have hbefore := (List.mem_append.1 hbegun).resolve_right
          (begun_notMem_events other handle operation)
        rcases List.mem_append.1 hends with hold | hnew
        · refine (attended.backed hbefore hold).mono (fun event => List.mem_append_left _) ?_
          refine Event.countP_hits_append fun event hevent => ?_
          rw [number_of_mem_events hevent]
          rintro rfl
          rw [attended.ended _ _ _ hold] at htask
          cases htask
        · obtain ⟨rfl, hroot⟩ := task_of_ended hnew
          obtain ⟨-, job, hstage, hjob⟩ := attended.staged _ _ hroot
          obtain ⟨-, rfl⟩ := hjob _ _ _ hbefore
          refine hstage.backed.mono (fun event => List.mem_append_left _) ?_
          rw [List.countP_append, events_root hroot]
          rfl

/-! ### Copies that are about to be deleted -/

/-- What a task holds, no other task is about to delete. -/
theorem eq_of_doomed (attended : net.Attended clients history) (books : net.Exclusive net.holdings)
    (htask : net.tasks[number]? = some task) (held : (handle, id) ∈ task.holds)
    (doomed : net.doomedBy? other = some (handle, id)) : other = number := by
  rw [← holdings_of_getElem? htask] at held
  exact books.unique (attended.of_doomed doomed).2 held

theorem not_doomed_of_holds (attended : net.Attended clients history)
    (books : net.Exclusive net.holdings) (htask : net.tasks[number]? = some task)
    (held : (handle, id) ∈ task.holds) (free : task.doomed? = none) : ¬ net.Doomed handle id := by
  rintro ⟨other, hdoomed⟩
  rw [attended.eq_of_doomed books htask held hdoomed, doomedBy?_of_task htask, free] at hdoomed
  cases hdoomed

/-- A step after which the task is about to delete what it was about to delete. -/
theorem doomed_step_same (attended : net.Attended clients history)
    (books : net.Exclusive net.holdings) (htask : net.tasks[number]? = some task)
    (same : (net.step number).doomedBy? number = task.doomed?) (handle : Handle) (id : LockId) :
    (net.step number).Doomed handle id ↔ net.Doomed handle id := by
  refine doomed_iff (funext fun other => ?_)
  by_cases h : other = number
  · rw [h, same, doomedBy?_of_task htask]
  · exact attended.doomedBy?_step books h

/-- A step after which the task is about to delete a copy. -/
theorem doomed_step_gained (attended : net.Attended clients history)
    (books : net.Exclusive net.holdings) (htask : net.tasks[number]? = some task)
    (free : task.doomed? = none) {copy : Handle × LockId}
    (doomed : (net.step number).doomedBy? number = some copy) (handle : Handle) (id : LockId) :
    (net.step number).Doomed handle id ↔ net.Doomed handle id ∨ (handle, id) = copy := by
  constructor
  · rintro ⟨other, hother⟩
    by_cases h : other = number
    · subst h
      exact Or.inr (Option.some.inj (hother.symm.trans doomed))
    · exact Or.inl ⟨other, (attended.doomedBy?_step books h).symm.trans hother⟩
  · rintro (⟨other, hother⟩ | heq)
    · refine ⟨other, (attended.doomedBy?_step books ?_).trans hother⟩
      rintro rfl
      rw [doomedBy?_of_task htask, free] at hother
      cases hother
    · exact ⟨number, heq ▸ doomed⟩

/-- A step after which the task has deleted the copy that it was about to delete. -/
theorem doomed_step_lost (attended : net.Attended clients history)
    (books : net.Exclusive net.holdings) (htask : net.tasks[number]? = some task)
    {copy : Handle × LockId} (held : copy ∈ task.holds) (fated : task.doomed? = some copy)
    (free : (net.step number).doomedBy? number = none) (handle : Handle) (id : LockId) :
    (net.step number).Doomed handle id ↔ net.Doomed handle id ∧ (handle, id) ≠ copy := by
  constructor
  · rintro ⟨other, hother⟩
    have hne : other ≠ number := by
      rintro rfl
      cases hother.symm.trans free
    rw [attended.doomedBy?_step books hne] at hother
    exact ⟨⟨other, hother⟩, fun heq => hne (attended.eq_of_doomed books htask (heq ▸ held) hother)⟩
  · rintro ⟨⟨other, hother⟩, hnot⟩
    refine ⟨other, (attended.doomedBy?_step books ?_).trans hother⟩
    rintro rfl
    exact hnot (Option.some.inj (hother.symm.trans ((doomedBy?_of_task htask).trans fated)))

/-- What a step of a task means for a record, unless it creates the record for a client. -/
theorem shift_or_creates (attended : net.Attended clients history)
    (books : net.Exclusive net.holdings) (number : Nat) :
    net.Shift clients (net.step number) id (net.events number) ∨
      ∃ peer stored, net.Creates clients number id peer stored := by
  cases htask : net.tasks[number]? with
  | none =>
      have hstep : net.step number = net := by simp only [Network.step, htask]
      rw [hstep, events_none htask]
      exact .inl (.rests (fun _ => rfl) (fun _ => Iff.rfl) fun event h => (List.not_mem_nil h).elim)
  | some task =>
      have hstays : ∀ {place name}, (place, name) ∈ task.holds → task.doomed? = none →
          ¬ net.Doomed place name := attended.not_doomed_of_holds books htask
      have hwritten : ∀ {place name value}, net.Writes (net.step number) place name value →
          name ≠ id → ∀ handle, (net.step number).stored? handle id = net.stored? handle id :=
        fun hwrites hne handle => hwrites.stored?_of_ne fun heq => hne (congrArg Prod.snd heq)
      rcases ((attended.staged number task htask).step htask attended.members).progress with
        ⟨steady, silent, doomed⟩ |
        ⟨held, guarded, copy, free, writes, silent, stays, doomed⟩ |
        ⟨held, writes, shows, fated, doomed⟩ |
        ⟨asked, held, copy, writes, shows, replays, spares, keeps, large, stays, doomed⟩ |
        ⟨asked, makes, held, free, writes, silent, stays, doomed⟩
      · exact .inl (.rests (fun handle => steady.stored? handle id)
          (fun handle => attended.doomed_step_same books htask doomed handle id)
          fun event h => (silent event h).spares id)
      · rename_i source peer name stored
        have hdoomed := attended.doomed_step_gained books htask stays doomed
        left
        by_cases hname : name = id
        · subst hname
          refine .handed copy free writes (hstays guarded stays) (hstays held stays)
            (fun handle => ?_) fun event h => (silent event h).spares name
          rw [hdoomed, Prod.mk.injEq, and_iff_left rfl]
        · refine .rests (hwritten writes hname) (fun handle => ?_)
            fun event h => (silent event h).spares id
          rw [hdoomed]
          exact or_iff_left fun heq => hname (congrArg Prod.snd heq).symm
      · rename_i source name
        have hdoomed := attended.doomed_step_lost books htask held fated doomed
        have hspares : ∀ event ∈ net.events number, event.Spares id := by
          intro event h
          rw [shows, List.mem_singleton] at h
          rw [h]
          exact ⟨rfl, rfl, fun _ => rfl⟩
        left
        by_cases hname : name = id
        · subst hname
          refine .dropped ⟨number, (doomedBy?_of_task htask).trans fated⟩ writes (fun handle => ?_)
            hspares
          rw [hdoomed, ne_eq, Prod.mk.injEq, and_iff_left rfl]
        · refine .rests (hwritten writes hname) (fun handle => ?_) hspares
          rw [hdoomed]
          exact and_iff_left fun heq => hname (congrArg Prod.snd heq).symm
      · rename_i kind call peer stored value event
        have hdoomed := attended.doomed_step_same books htask (doomed.trans stays.symm)
        left
        by_cases hname : call.lockId = id
        · subst hname
          exact .edited asked rfl copy (hstays held stays) (replays ▸ writes) (hdoomed · _) shows
            (large _)
        · refine .rests (hwritten writes hname) (hdoomed · id) fun other h => ?_
          rw [shows, List.mem_singleton] at h
          rw [h]
          exact spares id (Ne.symm hname)
      · rename_i storage key content version peer
        have hdoomed := attended.doomed_step_same books htask (doomed.trans stays.symm)
        by_cases hname : (⟨storage, key⟩ : LockId) = id
        · subst hname
          have hcreates : net.creates? number = some (peer, ⟨storage, key⟩) := by
            rw [creates?, htask, Option.bind_some, makes]
          exact .inr ⟨peer, ⟨content, version⟩, asked, hcreates, free, writes, (hdoomed · _)⟩
        · exact .inl (.rests (hwritten writes hname) (hdoomed · id)
            fun event h => (silent event h).spares id)

/-- What a step of a task means for a record that no client creates. -/
theorem shift_step (attended : net.Attended clients history) (books : net.Exclusive net.holdings)
    (unmade : ∀ content version, ¬ clients (.create id.storage id.key content version))
    (number : Nat) : net.Shift clients (net.step number) id (net.events number) :=
  (attended.shift_or_creates books number).resolve_right
    fun ⟨_, _, creates⟩ => unmade _ _ creates.asked

/-! ## Waiting tasks -/

/-- A task that is woken goes on where it stood, or its lock is refused. -/
theorem wake_mine (attended : net.Attended clients history) (number : Nat) :
    (∀ task, (net.wake number).tasks[number]? = some task →
      task.Staged clients net history number) ∧
      (net.wake number).doomedBy? number = net.doomedBy? number := by
  have hkept : net.wake number = net →
      (∀ task, (net.wake number).tasks[number]? = some task →
        task.Staged clients net history number) ∧
        (net.wake number).doomedBy? number = net.doomedBy? number := by
    intro heq
    rw [heq]
    exact ⟨attended.staged number, rfl⟩
  have hput : ∀ {old new : Task} {mid : Network}, net.tasks[number]? = some old →
      net.wake number = (mid.putTask number new).makeReady number →
      new.Staged clients net history number → new.doomed? = old.doomed? →
      (∀ task, (net.wake number).tasks[number]? = some task →
        task.Staged clients net history number) ∧
        (net.wake number).doomedBy? number = net.doomedBy? number := by
    intro old new mid hold heq hstaged hdoomed
    have hfound : (net.wake number).tasks[number]? = some new := by
      rw [heq]
      exact getElem?_putTask_self new
    refine ⟨fun task htask => ?_, ?_⟩
    · rw [hfound, Option.some.injEq] at htask
      exact htask ▸ hstaged
    · rw [doomedBy?_of_task hfound, doomedBy?_of_task hold, hdoomed]
  cases htask : net.tasks[number]? with
  | none => exact hkept (by simp only [Network.wake, htask])
  | some task =>
      obtain ⟨purpose, shape, control, stack⟩ := task
      obtain ⟨hstands, job, hstage, hbegun⟩ := attended.staged number _ htask
      cases control with
      | hold moment next =>
          have hstaged : Task.Staged clients net history number ⟨purpose, shape, next, stack⟩ :=
            ⟨hstands, job, hstage.next, hbegun⟩
          exact hput htask (by simp only [Network.wake, htask]; rfl) hstaged rfl
      | queue handle id deadline =>
          cases found : net.member? handle with
          | none =>
              have hnone : (net.wake number).tasks[number]? = none := by
                simp only [Network.wake, htask, found]
                rw [getElem?_dropTask, if_pos rfl]
              refine ⟨fun task h => ?_, ?_⟩
              · rw [hnone] at h
                cases h
              · rw [doomedBy?, hnone, doomedBy?, htask]
                rfl
          | some member =>
              let failure := Failure.lockTimeout id.key member.node.config.lockTimeout
              obtain ⟨hrefused, hdoomed⟩ := hstage.answered (.error failure)
              have hstaged : Task.Staged clients net history number
                  ⟨purpose, .nothing, .answer (.error failure), stack⟩ :=
                ⟨hstands, job, hrefused, hbegun⟩
              exact hput htask (by simp only [Network.wake, htask, found]; rfl) hstaged hdoomed
      | _ => exact hkept (by simp only [Network.wake, htask])

theorem doomedBy?_wake (attended : net.Attended clients history) (number : Nat) :
    (net.wake number).doomedBy? = net.doomedBy? := by
  funext other
  by_cases h : other = number
  · rw [h]
    exact (attended.wake_mine number).2
  · rw [doomedBy?, doomedBy?]
    cases hlater : (net.wake number).tasks[other]? with
    | none => rw [none_of_wake h hlater]
    | some task => rw [becomes_wake h hlater]

/-- Waking a task leaves all tasks staged. -/
theorem wake (attended : net.Attended clients history) (number : Nat) :
    (net.wake number).Attended clients history := by
  have hsteady := steady_wake net number
  have hmono : ∀ {other : Nat} {task : Task}, task.Staged clients net history other →
      task.Staged clients (net.wake number) history other := fun hstaged =>
    hstaged.mono (fun _ => hsteady.opens) (fun _ h => h) rfl (fun _ => hsteady.present)
      (fun handle id _ => hsteady.stored? handle id) (fun _ _ _ h => h)
  refine attended.of_quiet (akin_wake net number).scripts
    (Nat.le_of_eq (nextTask_wake net number).symm) (fun other task htask => ?_) fun other hnone => ?_
  · by_cases h : other = number
    · subst h
      exact hmono ((attended.wake_mine other).1 task htask)
    · exact hmono (attended.staged other task (becomes_wake h htask))
  · cases hlater : (net.wake number).tasks[other]? with
    | none => rfl
    | some task =>
        have hne : other ≠ number := by
          rintro rfl
          have hstep : net.wake other = net := by simp only [Network.wake, hnone]
          rw [hstep, hnone] at hlater
          cases hlater
        rw [← hnone]
        exact (becomes_wake hne hlater).symm

/-! ## New tasks and members -/

/-- A member is told to carry out an operation. -/
theorem launch (attended : net.Attended clients history) {purpose : Purpose} {shape : Shape}
    {operation : Operation shape} (attends : operation.Attends clients) :
    (net.spawn (taskOf purpose handle operation)).Attended clients
      (history ++ purpose.begins net.nextTask handle operation) := by
  let after := net.spawn (taskOf purpose handle operation)
  have hsteady : net.Steady after := .of_member? rfl
  have hat : ∀ other, after.tasks[other]? =
      if net.nextTask = other then some (taskOf purpose handle operation) else net.tasks[other]? :=
    fun other => Exclusive.getElem?_spawn net _ other
  have hhits : ∀ other, (history ++ purpose.begins net.nextTask handle operation).countP
      (Event.hits other) = history.countP (Event.hits other) := by
    intro other
    rw [List.countP_append, Nat.add_eq_left, List.countP_eq_zero]
    intro event hevent
    rw [(Purpose.mem_begins hevent).2]
    exact Bool.false_ne_true
  have hended : ∀ {other shape} {outcome : Outcome shape},
      .ended other outcome ∈ history ++ purpose.begins net.nextTask handle operation →
      .ended other outcome ∈ history := by
    intro other shape outcome h
    exact (List.mem_append.1 h).resolve_right fun hnew => nomatch (Purpose.mem_begins hnew).2
  have hbegun : ∀ {other place shape} {asked : Operation shape}, other ≠ net.nextTask →
      .begun other place asked ∈ history ++ purpose.begins net.nextTask handle operation →
      .begun other place asked ∈ history := by
    intro other place shape asked hne h
    refine (List.mem_append.1 h).resolve_right fun hnew => hne ?_
    cases (Purpose.mem_begins hnew).2
    rfl
  refine ⟨attended.members, fun event hevent => ?_, fun other task htask => ?_,
    fun other shape outcome h => ?_, fun hstarts hends => ?_⟩
  · show event.number < net.nextTask + 1
    rcases List.mem_append.1 hevent with hold | hnew
    · exact Nat.lt_succ_of_lt (attended.young event hold)
    · rw [(Purpose.mem_begins hnew).2]
      exact Nat.lt_succ_self _
  · rw [hat] at htask
    split at htask
    · rename_i heq
      subst heq
      cases htask
      have hfresh : history.countP (Event.hits net.nextTask) = 0 :=
        Event.countP_hits_eq_zero fun event hevent => Nat.ne_of_lt (attended.young event hevent)
      refine ⟨trivial, operation.job, Stage.of_start handle attends ((hhits _).trans hfresh), ?_⟩
      intro place shape asked h
      have hnew := (List.mem_append.1 h).resolve_left
        fun hold => Nat.lt_irrefl _ (attended.young _ hold)
      obtain ⟨hpurpose, heq⟩ := Purpose.mem_begins hnew
      cases heq
      exact ⟨hpurpose, rfl⟩
    · rename_i hne
      exact (attended.staged other task htask).mono (fun _ => hsteady.opens)
        (fun event => List.mem_append_left _) (hhits other) (fun _ => hsteady.present)
        (fun handle id _ => hsteady.stored? handle id) fun _ _ _ => hbegun (Ne.symm hne)
  · have hold := hended h
    rw [hat, if_neg]
    · exact attended.ended other shape outcome hold
    · rintro rfl
      exact Nat.lt_irrefl _ (attended.young _ hold)
  · rename_i other place shape asked outcome
    have hold := hended hends
    have hne : other ≠ net.nextTask := by
      rintro rfl
      exact Nat.lt_irrefl _ (attended.young _ hold)
    exact (attended.backed (hbegun hne hstarts) hold).mono (fun event => List.mem_append_left _)
      (hhits other)

theorem doomedBy?_launch (books : net.Exclusive net.holdings) {purpose : Purpose} {shape : Shape}
    {operation : Operation shape} :
    (net.spawn (taskOf purpose handle operation)).doomedBy? = net.doomedBy? := by
  funext other
  rw [doomedBy?, Exclusive.getElem?_spawn, doomedBy?]
  split
  · rename_i heq
    rw [← heq, books.next_free]
    rfl
  · rfl

/-- A member is added. -/
theorem attach (attended : net.Attended clients history) (member : Member) :
    (net.attach (.member member)).2.Attended clients history := by
  let after := (net.attach (.member member)).2
  have hold : ∀ {handle node}, net.nodeAt? handle = some node →
      after.nodeAt? handle = some node := by
    intro handle node found
    refine (nodeAt?_attach net member handle).trans ?_
    rw [if_neg]
    · exact found
    · rintro rfl
      rw [nodeAt?_size] at found
      cases found
  refine attended.of_quiet (script?_attach net member) (Nat.le_refl _) (fun number task htask => ?_)
    fun number hnone => hnone
  have hstaged := attended.staged number task htask
  refine hstaged.mono (fun handle ⟨node, found, hopens⟩ => ⟨node, hold found, hopens⟩)
    (fun event h => h) rfl (fun handle ⟨node, found⟩ => ⟨node, hold found⟩)
    (fun handle id hguards => ?_) fun _ _ _ h => h
  obtain ⟨node, found⟩ := hstaged.stands.of_mem_guards hguards
  have hlater : after.nodeAt? handle = some node := hold found
  rw [stored?_of_nodeAt? found, stored?_of_nodeAt? hlater]

theorem of_same (attended : net.Attended clients history)
    (endpoints : after.endpoints = net.endpoints) (tasks : after.tasks = net.tasks)
    (nextTask : after.nextTask = net.nextTask) : after.Attended clients history := by
  have hsteady : net.Steady after := .of_member? (member?_congr endpoints)
  refine attended.of_quiet (script?_congr endpoints) (Nat.le_of_eq nextTask.symm)
    (fun number task htask => ?_) fun number hnone => ?_
  · rw [tasks] at htask
    exact (attended.staged number task htask).mono (fun _ => hsteady.opens) (fun event h => h) rfl
      (fun _ => hsteady.present) (fun handle id _ => hsteady.stored? handle id) fun _ _ _ h => h
  · rw [tasks]
    exact hnone

/-! ## Moves -/

/-- A move leads to a staged network. -/
theorem move (attend : rules.Attend clients) (attended : net.Attended clients history)
    (books : net.Exclusive net.holdings) (traced : Traced rules net events after) :
    after.Attended clients (history ++ events) := by
  cases traced with
  | attach fresh new welcome =>
      rw [List.append_nil]
      exact attended.attach _
  | register found =>
      rw [List.append_nil]
      exact attended.of_same rfl rfl rfl
  | launch later permitted => exact attended.launch (attend permitted)
  | step first => exact attended.step books _
  | wake =>
      rw [List.append_nil]
      exact attended.wake _
  | pass now ready waiting =>
      rw [List.append_nil]
      exact attended.of_same rfl rfl rfl

end Attended

end Network

/-- No client creates a record, and no node brings a copy of it. -/
structure Rules.Keep (rules : Rules) (clients : Clients) (id : LockId) : Prop where
  attend : rules.Attend clients
  unmade : ∀ content version, ¬ clients (.create id.storage id.key content version)
  empty : ∀ {member}, rules.Welcomes member → member.node.store.find? id.storage id.key = none

namespace Network

variable {clients : Clients} {rules : Rules} {net after : Network} {history events : List Event}
  {id : LockId}

/-- A member without a record leaves the record where it is. -/
theorem stored?_attach {member : Member} (empty : member.node.store.find? id.storage id.key = none)
    (handle : Handle) : (net.attach (.member member)).2.stored? handle id = net.stored? handle id := by
  rw [stored?, nodeAt?_attach, stored?]
  split
  · rename_i h
    rw [h, nodeAt?_size, Option.bind_some, empty]
    rfl
  · rfl

/-- All moves but the steps of tasks leave every record where it is. -/
theorem Attended.step_or_rests
    (empty : ∀ {member}, rules.Welcomes member → member.node.store.find? id.storage id.key = none)
    (attended : net.Attended clients history) (books : net.Exclusive net.holdings)
    (traced : Traced rules net events after) :
    (∃ number, after = net.step number ∧ events = net.events number) ∨
    (∀ handle, after.stored? handle id = net.stored? handle id) ∧
      (∀ handle, after.Doomed handle id ↔ net.Doomed handle id) ∧
      ∀ event ∈ events, event.Silent := by
  have hsilent : ∀ event ∈ ([] : List Event), event.Silent :=
    fun event h => (List.not_mem_nil h).elim
  cases traced with
  | attach fresh new welcome =>
      exact Or.inr ⟨stored?_attach (empty welcome), fun _ => Iff.rfl, hsilent⟩
  | register found => exact Or.inr ⟨fun _ => rfl, fun _ => Iff.rfl, hsilent⟩
  | launch later permitted =>
      refine Or.inr ⟨fun _ => rfl, fun _ => doomed_iff (doomedBy?_launch books), fun event h => ?_⟩
      rw [(Purpose.mem_begins h).2]
      exact ⟨fun _ => ⟨rfl, rfl, fun _ => rfl⟩, fun _ => rfl⟩
  | step first => exact Or.inl ⟨_, rfl, rfl⟩
  | wake =>
      exact Or.inr ⟨fun handle => (steady_wake net _).stored? handle id,
        fun _ => doomed_iff (attended.doomedBy?_wake _), hsilent⟩
  | pass now ready waiting => exact Or.inr ⟨fun _ => rfl, fun _ => Iff.rfl, hsilent⟩

/-- What a move means for a record. -/
theorem Attended.shift (keep : rules.Keep clients id) (attended : net.Attended clients history)
    (books : net.Exclusive net.holdings) (traced : Traced rules net events after) :
    net.Shift clients after id events := by
  rcases attended.step_or_rests keep.empty books traced with
    ⟨number, rfl, rfl⟩ | ⟨stored, doomed, silent⟩
  · exact attended.shift_step books keep.unmade number
  · exact .rests stored doomed fun event h => (silent event h).spares id

/-- A step that ends the transfer of a record deletes its copy at the source and nothing else. -/
theorem Attended.drop_step {number : Nat} {event : Event} (attended : net.Attended clients history)
    (shown : event ∈ net.events number) (drops : event.drops id = true) :
    ∃ source, net.events number = [.dropped number source id] ∧
      (∃ stored, net.stored? source id = some stored) ∧
      net.Writes (net.step number) source id none := by
  cases htask : net.tasks[number]? with
  | none =>
      rw [events_none htask] at shown
      cases shown
  | some task =>
      have hsilent : (∀ event ∈ net.events number, event.Silent) → False := fun silent => by
        rw [(silent event shown).stays] at drops
        cases drops
      cases ((attended.staged number task htask).step htask attended.members).progress with
      | still steady silent doomed => exact (hsilent silent).elim
      | handed held guarded copy free writes silent stays doomed => exact (hsilent silent).elim
      | dropped held writes shows fated doomed =>
          rename_i source name
          rw [shows, List.mem_singleton] at shown
          subst shown
          have hname : name = id := of_decide_eq_true drops
          subst hname
          have hdoomed : net.doomedBy? number = some (source, name) :=
            (doomedBy?_of_task htask).trans fated
          exact ⟨source, shows, (attended.of_doomed hdoomed).1, writes⟩
      | edited asked held copy writes shows replays spares keeps large stays doomed =>
          rw [shows, List.mem_singleton] at shown
          subst shown
          rw [keeps] at drops
          cases drops
      | created asked makes held free writes silent stays doomed => exact (hsilent silent).elim

end Network

end RecordRing
