import RecordRing.Proofs.Handover.History
import RecordRing.Proofs.Handover.Serving

/-!
# The stages of work on records

A transfer takes the record's lock, reads the record, hands it to its owner, and deletes it.
`Hauling` lists the places at which a transfer can stand, with what is known there of the record at
its source, and `Stage` lists the places at which any task can stand: it serves a record call of a
client, it transfers a record, or it is plain.

From the moment at which the owner has stored the record up to the deletion at the source there are
two copies, and the one at the source is doomed (`Control.doomed?`).

## Implementation notes

What is known at a stage stays true while other tasks take their steps, because the task holds the
record's lock at the source (`Stage.mono`).  A stage also says what the history shows of the task's
work, so that the outcome with which it ends can be read back from the history.
-/

namespace RecordRing

namespace Network

/-- What the answer to the reading of a record means for the record. -/
def Reads (net : Network) (handle : Handle) (id : LockId) : Outcome .record → Prop
  | .ok (some record) =>
    net.Opens handle ∧ net.stored? handle id = some ⟨record.content, record.version⟩
  | .ok none => net.stored? handle id = none
  | .error _ => True

end Network

/-- The places at which a transfer of a record from a node can stand. -/
inductive Hauling (net : Network) (history : List Event) (number : Nat) (handle : Handle)
    (storage : String) (key : Token) (below : Stack .flag) :
    {shape : Shape} → Control shape → Stack shape → Prop where
  | started (owner : Token) : Hauling net history number handle storage key below
      (.start handle (.transfer storage key owner)) below
  | queued (owner : Token) (deadline : Nat) : Hauling net history number handle storage key below
      (.queue handle ⟨storage, key⟩ deadline)
      (.frame handle (.transferLockAwaited storage key owner) below)
  | locked (owner : Token) (outcome : Outcome .nothing) :
      Hauling net history number handle storage key below (.answer outcome)
        (.frame handle (.transferLockAwaited storage key owner) below)
  | reading (owner : Token) : Hauling net history number handle storage key below
      (.access handle (.record (.read storage key)))
      (.frame handle (.transferRead storage key owner) below)
  | read (owner : Token) {outcome : Outcome .record}
      (reads : net.Reads handle ⟨storage, key⟩ outcome) :
      Hauling net history number handle storage key below (.answer outcome)
        (.frame handle (.transferRead storage key owner) below)
  | handing {content : List UInt8} {version : UInt64} {shape : Shape} {control : Control shape}
      {stack : Stack shape} (opens : net.Opens handle)
      (copy : net.stored? handle ⟨storage, key⟩ = some ⟨content, version⟩)
      (serving : Serving (.create storage key content version)
        (.frame handle (.transferHanded storage key version) below) control stack) :
      Hauling net history number handle storage key below control stack
  | refused {content : List UInt8} {version : UInt64} {failure : Failure}
      {control : Control .version} {stack : Stack .version}
      (served : Served (.create storage key content version)
        (.frame handle (.transferHanded storage key version) below) (.error failure) control stack) :
      Hauling net history number handle storage key below control stack
  | accepted {content : List UInt8} {version answer : UInt64} {control : Control .version}
      {stack : Stack .version} (opens : net.Opens handle)
      (copy : net.stored? handle ⟨storage, key⟩ = some ⟨content, version⟩)
      (served : Served (.create storage key content version)
        (.frame handle (.transferHanded storage key version) below) (.ok answer) control stack) :
      Hauling net history number handle storage key below control stack
  | deleting {content : List UInt8} {version : UInt64} (opens : net.Opens handle)
      (copy : net.stored? handle ⟨storage, key⟩ = some ⟨content, version⟩) :
      Hauling net history number handle storage key below
        (.access handle (.record (.delete storage key version)))
        (.frame handle (.transferDeleted storage key) below)
  | deleted (shown : .dropped number handle ⟨storage, key⟩ ∈ history) :
      Hauling net history number handle storage key below (.answer (.ok true))
        (.frame handle (.transferDeleted storage key) below)
  | held {shape : Shape} {next : Control shape} {stack : Stack shape} (moment : Nat)
      (hauling : Hauling net history number handle storage key below next stack) :
      Hauling net history number handle storage key below (.hold moment next) stack

/-! ## What tasks work at -/

/-- What a task has been launched for, as far as records are concerned. -/
inductive Job where
  /-- A call on one record. -/
  | call {kind : Shape} (call : RecordCall kind)
  /-- The transfer of one record. -/
  | transfer (storage : String) (key : Token)
  /-- Anything else. -/
  | other

/-- What an operation is launched for. -/
def Operation.job {shape : Shape} : Operation shape → Job
  | .serve (.record call) => .call call
  | .transfer storage key _ => .transfer storage key
  | _ => .other

/-- The outcome of a record call can be read back from a history: an answer other than a miss is the
only one that a store has given to the task, and otherwise no store has given one. -/
structure RecordCall.Backed {kind : Shape} (call : RecordCall kind) (history : List Event)
    (number : Nat) (outcome : Outcome kind) : Prop where
  count : history.countP (Event.hits number) = if call.hits outcome = true then 1 else 0
  shown : ∀ answer, outcome = .ok answer → call.misses answer = false →
    ∃ peer, .served number peer call answer ∈ history

/-- The calls on records that clients may make. -/
abbrev Clients := ∀ {kind : Shape}, RecordCall kind → Prop

/-- The places at which a task with a job can stand. -/
inductive Stage (clients : Clients) (net : Network) (history : List Event) (number : Nat) :
    Job → {shape : Shape} → Control shape → Stack shape → Prop where
  | plain {shape : Shape} {control : Control shape} {stack : Stack shape}
      (control_plain : control.plain = true) (stack_plain : stack.plain = true) :
      Stage clients net history number .other control stack
  | passing {handle : Handle} {storage : String} {key : Token} {below : Stack .flag} {shape : Shape}
      {control : Control shape} {stack : Stack shape} (below_plain : below.plain = true)
      (hauling : Hauling net history number handle storage key below control stack) :
      Stage clients net history number .other control stack
  | calling {kind : Shape} {call : RecordCall kind} {shape : Shape} {control : Control shape}
      {stack : Stack shape} (asked : clients call)
      (fresh : history.countP (Event.hits number) = 0)
      (serving : Serving call .root control stack) :
      Stage clients net history number (.call call) control stack
  | called {kind : Shape} {call : RecordCall kind} {outcome : Outcome kind} {control : Control kind}
      {stack : Stack kind} (asked : clients call) (backed : call.Backed history number outcome)
      (served : Served call .root outcome control stack) :
      Stage clients net history number (.call call) control stack
  | hauling {handle : Handle} {storage : String} {key : Token} {shape : Shape}
      {control : Control shape} {stack : Stack shape}
      (hauling : Hauling net history number handle storage key .root control stack) :
      Stage clients net history number (.transfer storage key) control stack
  | hauled {storage : String} {key : Token} {outcome : Outcome .flag}
      (shown : outcome = .ok true → ∃ source, .dropped number source ⟨storage, key⟩ ∈ history) :
      Stage clients net history number (.transfer storage key) (.answer outcome) .root

/-- A task stands at a stage of its job, and members stand where its operations wait. -/
structure Task.Staged (clients : Clients) (net : Network) (history : List Event) (number : Nat)
    (task : Task) : Prop where
  stands : task.stack.Stands net
  stage : ∃ job, Stage clients net history number job task.control task.stack ∧
    ∀ handle shape (operation : Operation shape), .begun number handle operation ∈ history →
      task.purpose = .client [] ∧ job = operation.job

/-! ## Doomed copies -/

/-- The record that a waiting operation has handed to its owner. -/
def Frame.handed? {shape result : Shape} : Frame shape result → Option LockId
  | .transferHanded storage key _ => some ⟨storage, key⟩
  | _ => none

/-- Whether a waiting operation passes the outcome of its call on. -/
def Frame.relays {shape result : Shape} : Frame shape result → Bool
  | .attempted _ => true
  | .handedOn _ => true
  | .performed _ => true
  | _ => false

/-- The record, and where it lies, that has been handed to its owner when the awaited answer is the
owner's. -/
def Stack.source? {shape : Shape} : Stack shape → Option (Handle × LockId)
  | .root => none
  | .frame handle waiting below =>
    match waiting.handed? with
    | some id => some (handle, id)
    | none => if waiting.relays then below.source? else none

/-- The record, and where it lies, that the innermost operation deletes. -/
def Stack.drops? {shape : Shape} : Stack shape → Option (Handle × LockId)
  | .root => none
  | .frame handle waiting _ => waiting.drops?.map (Prod.mk handle)

/-- The record, and where it lies, that a task is about to delete because its owner has stored
it. -/
def Control.doomed? {shape : Shape} : Control shape → Stack shape → Option (Handle × LockId)
  | .answer (.ok _), stack => stack.source?
  | .access _ _, stack => stack.drops?
  | .hold _ next, stack => next.doomed? stack
  | _, _ => none

/-- The record, and where it lies, that a task is about to delete. -/
def Task.doomed? (task : Task) : Option (Handle × LockId) := task.control.doomed? task.stack

/-- The record that a task is about to create for a client, and where.  No transfer waits for the
answer. -/
def Control.creates? {shape : Shape} : Control shape → Stack shape → Option (Handle × LockId)
  | .access handle (.record (.create storage key _ _)), stack =>
    if stack.source? = none then some (handle, ⟨storage, key⟩) else none
  | _, _ => none

/-- The record that a task is about to create for a client, and where. -/
def Task.creates? (task : Task) : Option (Handle × LockId) := task.control.creates? task.stack

/-! ## What lasts -/

/-- A task holds at least what its waiting operations guard. -/
theorem Control.mem_holds {shape : Shape} {stack : Stack shape} {lock : Handle × LockId}
    (control : Control shape) (h : lock ∈ stack.guards) : lock ∈ control.holds stack := by
  cases control with
  | answer outcome =>
      cases stack with
      | root => exact h
      | frame handle frame below =>
          rw [holds]
          rcases List.mem_append.1 h with hfirst | hrest
          · refine List.mem_append_left _ ?_
            cases hguards : frame.guards? with
            | none =>
                rw [hguards] at hfirst
                cases hfirst
            | some id =>
                rw [hguards] at hfirst
                have hholds : frame.holds? outcome = some id := by
                  cases outcome <;> simp [Frame.holds?, hguards]
                rw [hholds]
                exact hfirst
          · exact List.mem_append_right _ hrest
  | _ => exact h

/-- A transfer stands where it stood as long as the records stay whose locks the task holds. -/
theorem Hauling.mono {net after : Network} {history later : List Event} {number : Nat}
    {handle : Handle} {storage : String} {key : Token} {below : Stack .flag} {shape : Shape}
    {control : Control shape} {stack : Stack shape}
    (hauling : Hauling net history number handle storage key below control stack)
    (opens : ∀ handle, net.Opens handle → after.Opens handle)
    (kept : ∀ handle id, (handle, id) ∈ stack.guards →
      after.stored? handle id = net.stored? handle id)
    (grows : ∀ event ∈ history, event ∈ later) :
    Hauling after later number handle storage key below control stack := by
  induction hauling with
  | started owner => exact .started owner
  | queued owner deadline => exact .queued owner deadline
  | locked owner outcome => exact .locked owner outcome
  | reading owner => exact .reading owner
  | read owner reads =>
      refine .read owner ?_
      have hsame := kept handle ⟨storage, key⟩ (List.mem_cons_self ..)
      revert reads
      rename_i outcome
      rcases outcome with failure | _ | record
      · exact fun _ => trivial
      · exact fun h => hsame.trans h
      · exact fun h => ⟨opens _ h.1, hsame.trans h.2⟩
  | handing hopens copy serving =>
      have hguards := serving.mem_guards (List.mem_cons_self ..)
      exact .handing (opens _ hopens) ((kept _ _ hguards).trans copy) serving
  | refused served => exact .refused served
  | accepted hopens copy served =>
      have hguards := served.mem_guards (List.mem_cons_self ..)
      exact .accepted (opens _ hopens) ((kept _ _ hguards).trans copy) served
  | deleting hopens copy =>
      exact .deleting (opens _ hopens) ((kept _ _ (List.mem_cons_self ..)).trans copy)
  | deleted shown => exact .deleted (grows _ shown)
  | held moment hauling ih => exact .held moment (ih kept)

theorem RecordCall.Backed.mono {kind : Shape} {call : RecordCall kind} {history later : List Event}
    {number : Nat} {outcome : Outcome kind} (backed : call.Backed history number outcome)
    (grows : ∀ event ∈ history, event ∈ later)
    (same : later.countP (Event.hits number) = history.countP (Event.hits number)) :
    call.Backed later number outcome := by
  refine ⟨same.trans backed.count, fun answer heq hmisses => ?_⟩
  obtain ⟨peer, hshown⟩ := backed.shown answer heq hmisses
  exact ⟨peer, grows _ hshown⟩

section Mono

variable {clients : Clients} {net after : Network} {history later : List Event} {number : Nat}
  (opens : ∀ handle, net.Opens handle → after.Opens handle)
  (grows : ∀ event ∈ history, event ∈ later)
  (same : later.countP (Event.hits number) = history.countP (Event.hits number))

include opens grows same

/-- A stage lasts as long as the records stay whose locks the task holds. -/
theorem Stage.mono {job : Job} {shape : Shape} {control : Control shape} {stack : Stack shape}
    (stage : Stage clients net history number job control stack)
    (kept : ∀ handle id, (handle, id) ∈ stack.guards →
      after.stored? handle id = net.stored? handle id) :
    Stage clients after later number job control stack := by
  cases stage with
  | plain control_plain stack_plain => exact .plain control_plain stack_plain
  | passing below_plain hauling => exact .passing below_plain (hauling.mono opens kept grows)
  | calling asked fresh serving => exact .calling asked (same.trans fresh) serving
  | called asked backed served => exact .called asked (backed.mono grows same) served
  | hauling hauling => exact .hauling (hauling.mono opens kept grows)
  | hauled shown =>
      refine .hauled fun heq => ?_
      obtain ⟨source, hshown⟩ := shown heq
      exact ⟨source, grows _ hshown⟩

theorem Task.Staged.mono {task : Task} (staged : task.Staged clients net history number)
    (present : ∀ handle, net.Present handle → after.Present handle)
    (kept : ∀ handle id, (handle, id) ∈ task.stack.guards →
      after.stored? handle id = net.stored? handle id)
    (begun : ∀ handle shape (operation : Operation shape),
      .begun number handle operation ∈ later → .begun number handle operation ∈ history) :
    task.Staged clients after later number := by
  obtain ⟨job, hstage, hbegun⟩ := staged.stage
  exact ⟨staged.stands.mono present, job, hstage.mono opens grows same kept,
    fun handle shape operation h => hbegun handle shape operation (begun handle shape operation h)⟩

end Mono

/-! ## Which copies are doomed -/

theorem Stack.source?_plain {shape : Shape} {stack : Stack shape} (plain : stack.plain = true) :
    stack.source? = none := by
  cases stack with
  | root => rfl
  | frame handle waiting below =>
      rw [Stack.plain, Bool.and_eq_true] at plain
      cases waiting <;> first | rfl | cases plain.1

theorem Control.doomed?_plain {shape : Shape} {control : Control shape} {stack : Stack shape}
    (control_plain : control.plain = true) (stack_plain : stack.plain = true) :
    control.doomed? stack = none := by
  induction control with
  | answer outcome =>
      cases outcome with
      | error failure => rfl
      | ok value => exact Stack.source?_plain stack_plain
  | access handle call =>
      cases stack with
      | root => rfl
      | frame other waiting below =>
          rw [Stack.plain, Bool.and_eq_true] at stack_plain
          cases waiting <;> first | rfl | cases stack_plain.1
  | hold moment next ih => exact ih control_plain stack_plain
  | _ => rfl

theorem Control.doomed?_after {shape : Shape} (now delay : Nat) (next : Control shape)
    (stack : Stack shape) : (Control.after now delay next).doomed? stack = next.doomed? stack := by
  rw [after]
  split
  · rfl
  · rfl

theorem Relay.source? {kind : Shape} {call : RecordCall kind} {rest stack : Stack kind}
    (relay : Relay call rest stack) : stack.source? = rest.source? := by
  induction relay with
  | rest => rfl
  | attempted peer relay ih => exact ih
  | handedOn peer fallible relay ih => exact ih

theorem Serving.doomed? {kind shape : Shape} {call : RecordCall kind} {rest : Stack kind}
    {control : Control shape} {stack : Stack shape} (serving : Serving call rest control stack) :
    control.doomed? stack = none := by
  induction serving with
  | paused peer since outcome relay => cases outcome <;> rfl
  | locked peer outcome relay => cases outcome <;> rfl
  | held moment serving ih => exact ih
  | _ => rfl

theorem Served.doomed?_error {kind : Shape} {call : RecordCall kind} {rest : Stack kind}
    {failure : Failure} {control : Control kind} {stack : Stack kind}
    (served : Served call rest (.error failure) control stack) :
    control.doomed? stack = none := by
  cases served <;> rfl

theorem Served.doomed?_ok {kind : Shape} {call : RecordCall kind} {rest : Stack kind}
    {answer : kind.Value} {control : Control kind} {stack : Stack kind}
    (served : Served call rest (.ok answer) control stack) :
    control.doomed? stack = rest.source? := by
  cases served with
  | performed peer relay => exact relay.source?
  | passed relay => exact relay.source?

theorem Served.doomed?_root {kind : Shape} {call : RecordCall kind} {outcome : Outcome kind}
    {control : Control kind} {stack : Stack kind} (served : Served call .root outcome control stack) :
    control.doomed? stack = none := by
  cases outcome with
  | error failure => exact served.doomed?_error
  | ok answer => exact served.doomed?_ok

/-- A doomed copy is there, and the task that is about to delete it holds its lock. -/
theorem Hauling.of_doomed {net : Network} {history : List Event} {number : Nat} {source : Handle}
    {storage : String} {key : Token} {below : Stack .flag} {shape : Shape} {control : Control shape}
    {stack : Stack shape} {handle : Handle} {id : LockId}
    (hauling : Hauling net history number source storage key below control stack)
    (doomed : control.doomed? stack = some (handle, id)) :
    (∃ stored, net.stored? handle id = some stored) ∧ (handle, id) ∈ stack.guards := by
  induction hauling with
  | locked owner outcome => cases outcome <;> cases doomed
  | read owner reads =>
      rename_i outcome
      cases outcome <;> cases doomed
  | handing opens copy serving =>
      rw [serving.doomed?] at doomed
      cases doomed
  | refused served =>
      rw [served.doomed?_error] at doomed
      cases doomed
  | accepted opens copy served =>
      have hguards := served.mem_guards (List.mem_cons_self ..)
      rw [served.doomed?_ok] at doomed
      cases doomed
      exact ⟨⟨_, copy⟩, hguards⟩
  | deleting opens copy =>
      cases doomed
      exact ⟨⟨_, copy⟩, List.mem_cons_self ..⟩
  | held moment hauling ih => exact ih doomed
  | _ => cases doomed

theorem Stage.of_doomed {clients : Clients} {net : Network} {history : List Event} {number : Nat}
    {job : Job} {shape : Shape} {control : Control shape} {stack : Stack shape} {handle : Handle}
    {id : LockId} (stage : Stage clients net history number job control stack)
    (doomed : control.doomed? stack = some (handle, id)) :
    (∃ stored, net.stored? handle id = some stored) ∧ (handle, id) ∈ stack.guards := by
  cases stage with
  | plain control_plain stack_plain =>
      rw [Control.doomed?_plain control_plain stack_plain] at doomed
      cases doomed
  | passing below_plain hauling => exact hauling.of_doomed doomed
  | calling asked fresh serving =>
      rw [serving.doomed?] at doomed
      cases doomed
  | called asked backed served =>
      rw [served.doomed?_root] at doomed
      cases doomed
  | hauling hauling => exact hauling.of_doomed doomed
  | hauled shown =>
      rename_i outcome
      cases outcome <;> cases doomed

/-! ## Waiting -/

theorem Hauling.delayed {net : Network} {history : List Event} {number : Nat} {handle : Handle}
    {storage : String} {key : Token} {below : Stack .flag} {shape : Shape} {next : Control shape}
    {stack : Stack shape} (now delay : Nat)
    (hauling : Hauling net history number handle storage key below next stack) :
    Hauling net history number handle storage key below (Control.after now delay next) stack := by
  rw [Control.after]
  split
  · exact hauling
  · exact .held _ hauling

/-- A transfer that waits for a lock and is granted or refused it. -/
theorem Hauling.answered {net : Network} {history : List Event} {number : Nat} {source : Handle}
    {storage : String} {key : Token} {below : Stack .flag} {handle : Handle} {id : LockId}
    {deadline : Nat} {stack : Stack .nothing}
    (hauling : Hauling net history number source storage key below (.queue handle id deadline) stack)
    (outcome : Outcome .nothing) :
    Hauling net history number source storage key below (.answer outcome) stack ∧
      (Control.answer outcome).doomed? stack = none := by
  cases hauling with
  | queued owner deadline =>
      refine ⟨.locked owner outcome, ?_⟩
      cases outcome <;> rfl
  | handing opens copy serving =>
      have hserving := serving.answered outcome
      exact ⟨.handing opens copy hserving, hserving.doomed?⟩

/-- A transfer that is held back stands where it will go on. -/
theorem Hauling.next {net : Network} {history : List Event} {number : Nat} {handle : Handle}
    {storage : String} {key : Token} {below : Stack .flag} {shape : Shape} {moment : Nat}
    {next : Control shape} {stack : Stack shape}
    (hauling : Hauling net history number handle storage key below (.hold moment next) stack) :
    Hauling net history number handle storage key below next stack := by
  cases hauling with
  | handing opens copy serving => exact .handing opens copy serving.next
  | refused served => cases served
  | accepted opens copy served => cases served
  | held moment hauling => exact hauling

section Waiting

variable {clients : Clients} {net : Network} {history : List Event} {number : Nat} {job : Job}

/-- A task that waits for a lock and is granted or refused it. -/
theorem Stage.answered {handle : Handle} {id : LockId} {deadline : Nat} {stack : Stack .nothing}
    (stage : Stage clients net history number job (.queue handle id deadline) stack)
    (outcome : Outcome .nothing) :
    Stage clients net history number job (.answer outcome) stack ∧
      (Control.answer outcome).doomed? stack = none := by
  cases stage with
  | plain control_plain stack_plain => cases control_plain
  | passing below_plain hauling =>
      obtain ⟨hnext, hdoomed⟩ := hauling.answered outcome
      exact ⟨.passing below_plain hnext, hdoomed⟩
  | calling asked fresh serving =>
      have hserving := serving.answered outcome
      exact ⟨.calling asked fresh hserving, hserving.doomed?⟩
  | called asked backed served => cases served
  | hauling hauling =>
      obtain ⟨hnext, hdoomed⟩ := hauling.answered outcome
      exact ⟨.hauling hnext, hdoomed⟩

/-- A task that is held back stands where it will go on. -/
theorem Stage.next {shape : Shape} {moment : Nat} {next : Control shape} {stack : Stack shape}
    (stage : Stage clients net history number job (.hold moment next) stack) :
    Stage clients net history number job next stack := by
  cases stage with
  | plain control_plain stack_plain => exact .plain control_plain stack_plain
  | passing below_plain hauling => exact .passing below_plain hauling.next
  | calling asked fresh serving => exact .calling asked fresh serving.next
  | called asked backed served => cases served
  | hauling hauling => exact .hauling hauling.next

end Waiting

/-! ## Calls on stores -/

variable {clients : Clients} {net : Network} {history : List Event} {number : Nat} {job : Job}
  {handle : Handle}

/-- A task that creates a record does so for a call that it carries out. -/
theorem Stage.stack_of_creating {storage : String} {key : Token} {content : List UInt8}
    {version : UInt64} {stack : Stack .version}
    (stage : Stage clients net history number job
      (.access handle (.record (.create storage key content version))) stack) :
    ∃ below, stack = .frame handle (.performed (.create storage key content version)) below := by
  have hserving : ∀ {kind : Shape} {call : RecordCall kind} {rest : Stack kind},
      Serving call rest (.access handle (.record (.create storage key content version))) stack →
      ∃ below, stack = .frame handle (.performed (.create storage key content version)) below := by
    intro kind call rest serving
    cases serving with
    | performing peer relay => exact ⟨_, rfl⟩
  cases stage with
  | plain control_plain stack_plain => cases control_plain
  | passing below_plain hauling =>
      cases hauling with
      | handing opens copy serving => exact hserving serving
      | refused served => cases served
      | accepted opens copy served => cases served
  | calling asked fresh serving => exact hserving serving
  | called asked backed served => cases served
  | hauling hauling =>
      cases hauling with
      | handing opens copy serving => exact hserving serving
      | refused served => cases served
      | accepted opens copy served => cases served

/-- A task that calls a store about a record waits where it calls. -/
theorem Stage.place_of_access {shape result : Shape} {call : RecordCall shape}
    {place : Handle} {frame : Frame shape result} {below : Stack result}
    (stage : Stage clients net history number job (.access handle (.record call))
      (.frame place frame below)) : place = handle := by
  have hhauling : ∀ {source : Handle} {storage : String} {key : Token} {rest : Stack .flag},
      Hauling net history number source storage key rest (.access handle (.record call))
        (.frame place frame below) → place = handle := by
    intro source storage key rest hauling
    cases hauling with
    | reading owner => rfl
    | handing opens copy serving =>
        cases serving with
        | performing peer relay => rfl
    | refused served => cases served
    | accepted opens copy served => cases served
    | deleting opens copy => rfl
  cases stage with
  | plain control_plain stack_plain => cases control_plain
  | passing below_plain hauling => exact hhauling hauling
  | calling asked fresh serving =>
      cases serving with
      | performing peer relay => rfl
  | called asked backed served => cases served
  | hauling hauling => exact hhauling hauling

end RecordRing
