import RecordRing.Proofs.Network.Leads
import RecordRing.Proofs.Network.Moves

/-!
# Histories of runs

A run leaves a history: which operations were begun and with which outcome they ended, which record
calls the stores have answered, and which records transfers have deleted after handing them over
(`Trace`).  Read from its beginning, the history says what a record is at present (`ledger`): every
update replaces it and every deletion removes it, whatever copies transfers make in between.

## Implementation notes

A call that is answered by an error has changed nothing, except for an update at the largest version,
which replaces the payload all the same.  So such an update is part of the history, too.
-/

namespace RecordRing

/-- What a move shows of the work on records. -/
inductive Event where
  /-- A client's operation has begun as the task of a number. -/
  | begun (number : Nat) (handle : Handle) {shape : Shape} (operation : Operation shape)
  /-- A node's store has answered a record call of a client or a peer. -/
  | served (number : Nat) (handle : Handle) {kind : Shape} (call : RecordCall kind)
      (answer : kind.Value)
  /-- A node's store has replaced the payload of a record whose version cannot grow. -/
  | overran (number : Nat) (handle : Handle) {kind : Shape} (call : RecordCall kind)
  /-- A transfer has deleted a record that it has handed over. -/
  | dropped (number : Nat) (handle : Handle) (id : LockId)
  /-- A client's operation has ended. -/
  | ended (number : Nat) {shape : Shape} (outcome : Outcome shape)

namespace Event

/-- The number of the task that an event is about. -/
def number : Event → Nat
  | begun number _ _ => number
  | served number _ _ _ => number
  | overran number _ _ => number
  | dropped number _ _ => number
  | ended number _ => number

/-- What the answer of a store to a record call shows. -/
def ofAnswer (number : Nat) (handle : Handle) {kind : Shape} (call : RecordCall kind) :
    Except StoreError kind.Value → List Event
  | .ok answer => [.served number handle call answer]
  | .error .versionOverflow => [.overran number handle call]
  | .error _ => []

/-- What becomes of a record with an event. -/
def replay (id : LockId) (kept : Option Stored) : Event → Option Stored
  | served _ _ (.update storage key content _) _ =>
    if ⟨storage, key⟩ = id then kept.map fun stored => ⟨content, stored.version + 1⟩ else kept
  | served _ _ (.delete storage key _) removed =>
    if ⟨storage, key⟩ = id ∧ removed = true then none else kept
  | overran _ _ (.update storage key content _) =>
    if ⟨storage, key⟩ = id then kept.map fun stored => ⟨content, stored.version⟩ else kept
  | _ => kept

/-- The payload that an event gives to a record. -/
def payload? (id : LockId) : Event → Option (List UInt8)
  | served _ _ (.update storage key content _) _ =>
    if ⟨storage, key⟩ = id then some content else none
  | _ => none

/-- Whether an event removes a record. -/
def removes (id : LockId) : Event → Bool
  | served _ _ (.delete storage key _) removed => ⟨storage, key⟩ = id && removed
  | _ => false

/-- Whether an event replaces the payload of a record whose version cannot grow. -/
def overruns (id : LockId) : Event → Bool
  | overran _ _ (.update storage key _ _) => ⟨storage, key⟩ = id
  | _ => false

/-- Whether an event is the answer of a store to a task's call, other than a miss. -/
def hits (number : Nat) : Event → Bool
  | served other _ call answer => other = number && !call.misses answer
  | _ => false

/-- Whether an event is the end of a record's transfer at its source. -/
def drops (id : LockId) : Event → Bool
  | dropped _ _ other => other = id
  | _ => false

end Event

/-- What the answer of a store to a record call shows, by the operation that waits for it. -/
def Frame.shows {shape result kind : Shape} (number : Nat) (handle : Handle) (call : RecordCall kind)
    (answer : Except StoreError kind.Value) : Frame shape result → List Event
  | .performed _ => Event.ofAnswer number handle call answer
  | .transferDeleted storage key =>
    match answer with
    | .ok _ => [.dropped number handle ⟨storage, key⟩]
    | .error _ => []
  | _ => []

/-- The record that a waiting operation deletes. -/
def Frame.drops? {shape result : Shape} : Frame shape result → Option LockId
  | .transferDeleted storage key => some ⟨storage, key⟩
  | _ => none

/-- What the end of a task's outermost operation shows. -/
def Purpose.ends {shape : Shape} (number : Nat) (outcome : Outcome shape) : Purpose → List Event
  | .client [] => [.ended number outcome]
  | _ => []

/-- What the next step of a task shows. -/
def Network.events (net : Network) (number : Nat) : List Event :=
  match net.tasks[number]? with
  | some ⟨purpose, _, .answer outcome, .root⟩ => purpose.ends number outcome
  | some ⟨_, _, .access handle (.record call), .frame _ frame _⟩ =>
    match net.nodeAt? handle with
    | none => []
    | some node =>
      frame.shows number handle call
        (node.store.perform node.config.credential (.record call)).1
  | _ => []

/-- What the launch of an operation shows. -/
def Purpose.begins {shape : Shape} (number : Nat) (handle : Handle) (operation : Operation shape) :
    Purpose → List Event
  | .client [] => [.begun number handle operation]
  | _ => []

/-- One move of a run, with what it shows. -/
inductive Traced (rules : Rules) : Network → List Event → Network → Prop where
  | attach {net : Network} {member : Member} (fresh : member.Fresh)
      (new : ∀ handle node, net.nodeAt? handle = some node → node.id ≠ member.node.id)
      (welcome : rules.Welcomes member) : Traced rules net [] (net.attach (.member member)).2
  | register {net : Network} {handle : Handle} {node : Node}
      (found : net.nodeAt? handle = some node) : Traced rules net [] (net.register node.id handle)
  | launch {net : Network} {purpose : Purpose} {handle : Handle} {shape : Shape}
      {operation : Operation shape} (later : purpose.All fun member next => rules.Permits net member next)
      (permitted : rules.Permits net handle operation) :
      Traced rules net (purpose.begins net.nextTask handle operation)
        (net.spawn (Network.taskOf purpose handle operation))
  | step {net : Network} {number : Nat} (first : net.replaces number = false) :
      Traced rules net (net.events number) (net.step number)
  | wake {net : Network} {number : Nat} : Traced rules net [] (net.wake number)
  | pass {net : Network} (now : Nat) (ready waiting : List Nat) :
      Traced rules net [] { net with now := now, ready := ready, waiting := waiting }

/-- Any number of moves, with what they show. -/
inductive Trace (rules : Rules) (start : Network) : List Event → Network → Prop where
  | start : Trace rules start [] start
  | move {history events : List Event} {net after : Network} (trace : Trace rules start history net)
      (traced : Traced rules net events after) : Trace rules start (history ++ events) after

/-- What a task shows in a number of steps. -/
def Network.shown (net : Network) (number : Nat) : Nat → List Event
  | 0 => []
  | count + 1 => net.events number ++ (net.step number).shown number count

/-- The network after a member has been told to carry out an operation and its task has taken a number
of steps. -/
def Network.ordered (net : Network) (handle : Handle) {shape : Shape} (operation : Operation shape)
    (count : Nat) : Network :=
  (net.spawn (Network.taskOf (.client []) handle operation)).steps (List.replicate count net.nextTask)

/-- What an operation shows that a member has been told to carry out. -/
def Network.order (net : Network) (handle : Handle) {shape : Shape} (operation : Operation shape)
    (count : Nat) : List Event :=
  .begun net.nextTask handle operation ::
    (net.spawn (Network.taskOf (.client []) handle operation)).shown net.nextTask count

/-- What a record is after a history. -/
def ledger (id : LockId) (origin : Option Stored) (history : List Event) : Option Stored :=
  history.foldl (Event.replay id) origin

/-- The payloads that a history gives to a record, oldest first. -/
def payloads (id : LockId) (history : List Event) : List (List UInt8) :=
  history.filterMap (Event.payload? id)

variable {rules : Rules} {start net after : Network} {history events more : List Event}
  {id : LockId} {number : Nat}

/-! ## Traces and runs -/

theorem Traced.move (traced : Traced rules net events after) : Move rules net after := by
  cases traced with
  | attach fresh new welcome => exact .attach fresh new welcome
  | register found => exact .register found
  | launch later permitted => exact .launch later permitted
  | step first => exact .step first
  | wake => exact .wake
  | pass now ready waiting => exact .pass now ready waiting

theorem Move.traced (move : Move rules net after) : ∃ events, Traced rules net events after := by
  cases move with
  | attach fresh new welcome => exact ⟨_, .attach fresh new welcome⟩
  | register found => exact ⟨_, .register found⟩
  | launch later permitted => exact ⟨_, .launch later permitted⟩
  | step first => exact ⟨_, .step first⟩
  | wake => exact ⟨_, .wake⟩
  | pass now ready waiting => exact ⟨_, .pass now ready waiting⟩

theorem Trace.run (trace : Trace rules start history net) : Run rules start net := by
  induction trace with
  | start => exact .refl
  | move trace traced ih => exact ih.tail traced.move

/-- Every run leaves a history. -/
theorem Trace.of_run (run : Run rules start net) : ∃ history, Trace rules start history net := by
  induction run with
  | refl => exact ⟨[], .start⟩
  | tail run move ih =>
      obtain ⟨history, htrace⟩ := ih
      obtain ⟨events, htraced⟩ := move.traced
      exact ⟨history ++ events, htrace.move htraced⟩

theorem Trace.trans (trace : Trace rules start history net) (later : Trace rules net more after) :
    Trace rules start (history ++ more) after := by
  induction later with
  | start => rwa [List.append_nil]
  | move later traced ih =>
      rw [← List.append_assoc]
      exact ih.move traced

theorem Trace.of_steps {count : Nat}
    (orderly : net.isOrderly (List.replicate count number) = true) :
    Trace rules net (net.shown number count) (net.steps (List.replicate count number)) := by
  induction count generalizing net with
  | zero => exact .start
  | succ count ih =>
      rw [List.replicate_succ, Network.isOrderly, Bool.and_eq_true, Bool.not_eq_true'] at orderly
      exact (Trace.start.move (.step orderly.1)).trans (ih orderly.2)

theorem Trace.of_order {handle : Handle} {shape : Shape} {operation : Operation shape} {count : Nat}
    (permitted : rules.Permits net handle operation)
    (orderly : (net.spawn (Network.taskOf (.client []) handle operation)).isOrderly
      (List.replicate count net.nextTask) = true) :
    Trace rules net (net.order handle operation count) (net.ordered handle operation count) := by
  have hlaunch : Traced rules net [.begun net.nextTask handle operation]
      (net.spawn (Network.taskOf (.client []) handle operation)) :=
    have hlater : (Purpose.client []).All fun member next => rules.Permits net member next :=
      fun _ h => absurd h List.not_mem_nil
    .launch hlater permitted
  exact (Trace.start.move hlaunch).trans (.of_steps orderly)

/-! ## Events of a step -/

theorem Purpose.mem_ends {shape : Shape} {outcome : Outcome shape} {purpose : Purpose}
    {event : Event} (h : event ∈ purpose.ends number outcome) :
    purpose = .client [] ∧ event = .ended number outcome := by
  match purpose, h with
  | .client [], h => exact ⟨rfl, List.mem_singleton.1 h⟩

theorem Purpose.mem_begins {shape : Shape} {handle : Handle} {operation : Operation shape}
    {purpose : Purpose} {event : Event} (h : event ∈ purpose.begins number handle operation) :
    purpose = .client [] ∧ event = .begun number handle operation := by
  match purpose, h with
  | .client [], h => exact ⟨rfl, List.mem_singleton.1 h⟩

/-- What the answer of a store shows is the answer, or the update of a record whose version cannot grow,
or the end of a transfer. -/
theorem Frame.mem_shows {shape result kind : Shape} {handle : Handle} {call : RecordCall kind}
    {answer : Except StoreError kind.Value} {frame : Frame shape result} {event : Event}
    (h : event ∈ frame.shows number handle call answer) :
    (∃ value, event = .served number handle call value) ∨ event = .overran number handle call ∨
      ∃ id, frame.drops? = some id ∧ event = .dropped number handle id := by
  cases frame with
  | performed waiting =>
      rcases answer with failure | value
      · cases failure with
        | versionOverflow => exact Or.inr (Or.inl (List.mem_singleton.1 h))
        | _ => cases h
      · exact Or.inl ⟨value, List.mem_singleton.1 h⟩
  | transferDeleted storage key =>
      cases answer with
      | ok value => exact Or.inr (Or.inr ⟨⟨storage, key⟩, rfl, List.mem_singleton.1 h⟩)
      | error failure => cases h
  | _ => cases h

/-- A step shows the end of a client's operation, or the answer of a store to a call. -/
theorem Network.mem_events {event : Event} (h : event ∈ net.events number) :
    (∃ shape, ∃ outcome : Outcome shape,
      net.tasks[number]? = some ⟨.client [], shape, .answer outcome, .root⟩ ∧
      event = .ended number outcome) ∨
    ∃ purpose shape result handle place below value, ∃ call : RecordCall shape,
      ∃ frame : Frame shape result,
      net.tasks[number]? =
        some ⟨purpose, shape, .access handle (.record call), .frame place frame below⟩ ∧
      event ∈ frame.shows number handle call value := by
  rw [events] at h
  split at h
  · rename_i purpose shape outcome htask
    obtain ⟨rfl, hevent⟩ := Purpose.mem_ends h
    exact Or.inl ⟨shape, outcome, htask, hevent⟩
  · rename_i purpose shape handle call result place frame below htask
    split at h
    · cases h
    · exact Or.inr ⟨purpose, shape, result, handle, place, below, _, call, frame, htask, h⟩
  · cases h

/-- A step shows something of its own task only. -/
theorem Network.number_of_mem_events {event : Event} (h : event ∈ net.events number) :
    event.number = number := by
  rcases mem_events h with ⟨shape, outcome, -, rfl⟩ |
    ⟨purpose, shape, result, handle, place, below, value, call, frame, -, hshows⟩
  · rfl
  · rcases Frame.mem_shows hshows with ⟨value, rfl⟩ | rfl | ⟨id, -, rfl⟩
    · rfl
    · rfl
    · rfl

/-- A step begins no operation of a client. -/
theorem Network.begun_notMem_events {shape : Shape} (other : Nat) (handle : Handle)
    (operation : Operation shape) : .begun other handle operation ∉ net.events number := by
  intro h
  rcases mem_events h with ⟨shape, outcome, -, heq⟩ |
    ⟨purpose, shape, result, handle, place, below, value, call, frame, -, hshows⟩
  · cases heq
  · rcases Frame.mem_shows hshows with ⟨value, heq⟩ | heq | ⟨id, -, heq⟩
    · cases heq
    · cases heq
    · cases heq

/-- An operation of a client ends with the answer that its task has come to. -/
theorem Network.task_of_ended {shape : Shape} {other : Nat} {outcome : Outcome shape}
    (h : .ended other outcome ∈ net.events number) : other = number ∧
      net.tasks[number]? = some ⟨.client [], shape, .answer outcome, .root⟩ := by
  rcases mem_events h with ⟨shape, outcome, htask, heq⟩ |
    ⟨purpose, shape, result, handle, place, below, value, call, frame, -, hshows⟩
  · cases heq
    exact ⟨rfl, htask⟩
  · rcases Frame.mem_shows hshows with ⟨value, heq⟩ | heq | ⟨id, -, heq⟩
    · cases heq
    · cases heq
    · cases heq

/-! ## What a record is -/

theorem ledger_append (id : LockId) (origin : Option Stored) (history events : List Event) :
    ledger id origin (history ++ events) = ledger id (ledger id origin history) events :=
  List.foldl_append ..

theorem Event.replay_none (id : LockId) (event : Event) : event.replay id none = none := by
  cases event with
  | served number handle call answer => cases call <;> simp [replay]
  | overran number handle call => cases call <;> simp [replay]
  | _ => rfl

theorem ledger_none (id : LockId) (history : List Event) : ledger id none history = none := by
  induction history with
  | nil => rfl
  | cons event rest ih =>
      rw [ledger, List.foldl_cons, Event.replay_none]
      exact ih

/-- An event removes a record, or it replaces the payload and lets the version grow, or it replaces
the payload of a record whose version cannot grow, or it leaves the record as it is. -/
theorem Event.replay_cases (id : LockId) (stored : Stored) (event : Event) :
    event.removes id = true ∧ event.replay id (some stored) = none ∨
    event.removes id = false ∧ event.overruns id = false ∧
      event.replay id (some stored) = some ((event.payload? id).elim stored fun content =>
        ⟨content, stored.version + 1⟩) ∨
    event.removes id = false ∧ event.overruns id = true ∧ (event.replay id (some stored)).isSome := by
  cases event with
  | served number handle call answer =>
      cases call with
      | update storage key content version =>
          by_cases h : (⟨storage, key⟩ : LockId) = id <;> simp [replay, removes, overruns, payload?, h]
      | delete storage key version =>
          by_cases h : (⟨storage, key⟩ : LockId) = id <;> cases answer <;>
            simp [replay, removes, overruns, payload?, h]
      | _ => simp [replay, removes, overruns, payload?]
  | overran number handle call =>
      cases call with
      | update storage key content version =>
          by_cases h : (⟨storage, key⟩ : LockId) = id <;> simp [replay, removes, overruns, payload?, h]
      | _ => simp [replay, removes, overruns, payload?]
  | _ => exact Or.inr (Or.inl ⟨rfl, rfl, rfl⟩)

/-- A record is gone after a history exactly if the history removes it. -/
theorem ledger_eq_none (stored : Stored) (history : List Event) :
    ledger id (some stored) history = none ↔ ∃ event ∈ history, event.removes id = true := by
  induction history generalizing stored with
  | nil => simp [ledger]
  | cons event rest ih =>
      rw [ledger, List.foldl_cons]
      rcases event.replay_cases id stored with ⟨hremoves, hreplay⟩ | ⟨hkeeps, -, hreplay⟩ |
        ⟨hkeeps, -, hreplay⟩
      · rw [hreplay]
        exact iff_of_true (ledger_none id rest) ⟨event, List.mem_cons_self .., hremoves⟩
      · rw [hreplay]
        refine (ih _).trans ?_
        simp [hkeeps]
      · obtain ⟨later, hlater⟩ := Option.isSome_iff_exists.1 hreplay
        rw [hlater]
        refine (ih _).trans ?_
        simp [hkeeps]

/-- What a history makes of a record that it does not remove: the payload is the last one that it
gives to the record, and the version grows with each. -/
theorem ledger_eq (stored : Stored) (history : List Event)
    (keeps : ∀ event ∈ history, event.removes id = false)
    (grows : ∀ event ∈ history, event.overruns id = false) :
    ledger id (some stored) history = some ⟨(payloads id history).getLastD stored.content,
      stored.version + UInt64.ofNat (payloads id history).length⟩ := by
  induction history generalizing stored with
  | nil => simp [ledger, payloads]
  | cons event rest ih =>
      have hkeeps := keeps event (List.mem_cons_self ..)
      have hgrows := grows event (List.mem_cons_self ..)
      have hreplay : event.replay id (some stored) = some ((event.payload? id).elim stored
          fun content => ⟨content, stored.version + 1⟩) := by
        rcases event.replay_cases id stored with ⟨h, -⟩ | ⟨-, -, h⟩ | ⟨-, h, -⟩
        · rw [hkeeps] at h
          cases h
        · exact h
        · rw [hgrows] at h
          cases h
      have hrest := fun later => ih later (fun e he => keeps e (List.mem_cons_of_mem _ he))
        fun e he => grows e (List.mem_cons_of_mem _ he)
      rw [ledger, List.foldl_cons, hreplay]
      refine (hrest _).trans ?_
      cases hpayload : event.payload? id with
      | none => simp [payloads, hpayload]
      | some content =>
          have hlist : payloads id (event :: rest) = content :: payloads id rest := by
            simp [payloads, hpayload]
          rw [hlist, List.getLastD_cons, List.length_cons, Option.elim_some, Nat.add_comm,
            UInt64.ofNat_add, ← UInt64.add_assoc]
          rfl

end RecordRing
