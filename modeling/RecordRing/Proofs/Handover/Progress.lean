import RecordRing.Proofs.Handover.Stages

/-!
# The progress of work on records

Every step of a staged task leads to a staged task (`Task.Staged.step`), and `Progress` says what the
step means for the records.  An owner stores a copy of a record that its source still keeps, which
dooms the copy at the source; a source deletes a doomed copy; and a store carries out the call of a
client.  All other steps leave the records in place and doom none.
-/

namespace RecordRing

/-! ## Events that leave records as they are -/

/-- An event does not concern a record. -/
structure Event.Spares (id : LockId) (event : Event) : Prop where
  keeps : event.removes id = false
  grows : event.overruns id = false
  same : ∀ kept, event.replay id kept = kept

/-- An event concerns no record. -/
structure Event.Silent (event : Event) : Prop where
  spares : ∀ id, event.Spares id
  stays : ∀ id, event.drops id = false

theorem Event.silent_ended (number : Nat) {shape : Shape} (outcome : Outcome shape) :
    (ended number outcome).Silent :=
  ⟨fun _ => ⟨rfl, rfl, fun _ => rfl⟩, fun _ => rfl⟩

theorem Event.silent_created (number : Nat) (handle : Handle) (storage : String) (key : Token)
    (content : List UInt8) (version answer : UInt64) :
    (served number handle (.create storage key content version) answer).Silent :=
  ⟨fun _ => ⟨rfl, rfl, fun _ => rfl⟩, fun _ => rfl⟩

/-- A call that leaves the records in place shows nothing else. -/
theorem Event.silent_of_idles {kind : Shape} {call : RecordCall kind}
    {answer : Except StoreError kind.Value} (idles : call.idles answer = true) {number : Nat}
    {handle : Handle} {event : Event} (h : event ∈ ofAnswer number handle call answer) :
    event.Silent := by
  rcases answer with failure | answer
  · cases failure with
    | versionOverflow =>
        rw [List.mem_singleton.1 h]
        cases call with
        | update storage key content version => simp [RecordCall.idles] at idles
        | _ => exact ⟨fun _ => ⟨rfl, rfl, fun _ => rfl⟩, fun _ => rfl⟩
    | _ => cases h
  · rw [List.mem_singleton.1 h]
    cases call with
    | create storage key content version => cases idles
    | read storage key => exact ⟨fun _ => ⟨rfl, rfl, fun _ => rfl⟩, fun _ => rfl⟩
    | update storage key content version => cases idles
    | delete storage key version =>
        have hmissed : answer = false := by simpa [RecordCall.idles] using idles
        subst hmissed
        exact ⟨fun _ => ⟨by simp [removes], rfl, fun _ => by simp [replay]⟩, fun _ => rfl⟩

namespace Network

variable {net after : Network} {number : Nat} {handle : Handle} {shape result kind : Shape}
  {purpose : Purpose} {frame : Frame shape result} {outcome : Outcome shape} {below : Stack result}
  {operation : Operation shape} {request : Request shape} {stack : Stack shape} {node : Node}

theorem events_none (h : net.tasks[number]? = none) : net.events number = [] := by
  simp only [events, h]

theorem events_root (h : net.tasks[number]? = some ⟨purpose, shape, .answer outcome, .root⟩) :
    net.events number = purpose.ends number outcome := by
  simp only [events, h]

theorem events_answer
    (h : net.tasks[number]? = some ⟨purpose, shape, .answer outcome, .frame handle frame below⟩) :
    net.events number = [] := by
  simp only [events, h]

theorem events_access {call : RecordCall shape} (found : net.nodeAt? handle = some node)
    (h : net.tasks[number]? =
      some ⟨purpose, shape, .access handle (.record call), .frame handle frame below⟩) :
    net.events number = frame.shows number handle call
      (node.store.perform node.config.credential (.record call)).1 := by
  simp only [events, h, found]

/-- Only the end of a task and the calls on stores show anything. -/
theorem events_eq_nil {control : Control shape}
    (h : net.tasks[number]? = some ⟨purpose, shape, control, stack⟩)
    (running : ∀ outcome, control ≠ .answer outcome)
    (early : ∀ handle call, control ≠ .access handle call) : net.events number = [] := by
  cases control with
  | answer outcome => exact absurd rfl (running outcome)
  | access handle call => exact absurd rfl (early handle call)
  | _ => simp only [events, h]

end Network

/-- What a step of a task means for the records, and what the task becomes. -/
inductive Progress (clients : Clients) (net : Network) (number : Nat) (task : Task) (after : Network)
    (later : Option Task) : Prop where
  /-- The records stay as they are. -/
  | still (steady : net.Steady after) (silent : ∀ event ∈ net.events number, event.Silent)
      (doomed : later.bind Task.doomed? = task.doomed?)
  /-- The owner has stored the record. -/
  | handed {source peer : Handle} {id : LockId} {stored : Stored}
      (held : (peer, id) ∈ task.holds) (guarded : (source, id) ∈ task.holds)
      (copy : net.stored? source id = some stored) (free : net.stored? peer id = none)
      (writes : net.Writes after peer id (some stored))
      (silent : ∀ event ∈ net.events number, event.Silent) (stays : task.doomed? = none)
      (doomed : later.bind Task.doomed? = some (source, id))
  /-- The source has deleted the record. -/
  | dropped {source : Handle} {id : LockId} (held : (source, id) ∈ task.holds)
      (writes : net.Writes after source id none)
      (shows : net.events number = [.dropped number source id])
      (fated : task.doomed? = some (source, id)) (doomed : later.bind Task.doomed? = none)
  /-- A store has carried out the update or the deletion of a client. -/
  | edited {kind : Shape} {call : RecordCall kind} {peer : Handle} {stored : Stored}
      {value : Option Stored} {event : Event} (asked : clients call)
      (held : (peer, call.lockId) ∈ task.holds)
      (copy : net.stored? peer call.lockId = some stored)
      (writes : net.Writes after peer call.lockId value) (shows : net.events number = [event])
      (replays : event.replay call.lockId (some stored) = value)
      (spares : ∀ id, id ≠ call.lockId → event.Spares id) (keeps : ∀ id, event.drops id = false)
      (large : ∀ id, event.overruns id = true → UInt64.size ≤ stored.version.toNat + 1)
      (stays : task.doomed? = none) (doomed : later.bind Task.doomed? = none)
  /-- A store has created the record of a client. -/
  | created {storage : String} {key : Token} {content : List UInt8} {version : UInt64}
      {peer : Handle} (asked : clients (.create storage key content version))
      (makes : task.creates? = some (peer, ⟨storage, key⟩))
      (held : (peer, ⟨storage, key⟩) ∈ task.holds)
      (free : net.stored? peer ⟨storage, key⟩ = none)
      (writes : net.Writes after peer ⟨storage, key⟩ (some ⟨content, version⟩))
      (silent : ∀ event ∈ net.events number, event.Silent) (stays : task.doomed? = none)
      (doomed : later.bind Task.doomed? = none)

/-- A step of a task makes progress, and the task, if it goes on, is then as wanted. -/
structure Advance (clients : Clients) (net : Network) (history : List Event) (number : Nat)
    (task : Task) (wanted : Network → List Event → Task → Prop) : Prop where
  progress : Progress clients net number task (net.step number) (net.step number).tasks[number]?
  next : ∀ next, (net.step number).tasks[number]? = some next →
    wanted (net.step number) (history ++ net.events number) next

namespace Advance

variable {clients : Clients} {net : Network} {history : List Event} {number : Nat} {task next : Task}
  {wanted weaker : Network → List Event → Task → Prop} {purpose : Purpose} {shape result : Shape}
  {handle : Handle}

theorem imp (advance : Advance clients net history number task wanted)
    (h : ∀ next, wanted (net.step number) (history ++ net.events number) next →
      weaker (net.step number) (history ++ net.events number) next) :
    Advance clients net history number task weaker :=
  ⟨advance.progress, fun next hnext => h next (advance.next next hnext)⟩

/-! ## Steps that leave the records in place -/

/-- A task goes on. -/
theorem on (steady : net.Steady (net.step number))
    (silent : ∀ event ∈ net.events number, event.Silent)
    (found : (net.step number).tasks[number]? = some next)
    (meets : wanted (net.step number) (history ++ net.events number) next)
    (doomed : next.doomed? = task.doomed?) : Advance clients net history number task wanted := by
  refine ⟨.still steady silent ?_, fun other hother => ?_⟩
  · rw [found]
    exact doomed
  · rw [found, Option.some.injEq] at hother
    exact hother ▸ meets

/-- A task goes on and shows nothing. -/
theorem on_quiet (steady : net.Steady (net.step number)) (quiet : net.events number = [])
    (found : (net.step number).tasks[number]? = some next)
    (meets : wanted (net.step number) history next) (doomed : next.doomed? = task.doomed?) :
    Advance clients net history number task wanted := by
  refine .on steady (by simp [quiet]) found ?_ doomed
  rw [quiet, List.append_nil]
  exact meets

/-- A task ends. -/
theorem ended (steady : net.Steady (net.step number))
    (silent : ∀ event ∈ net.events number, event.Silent)
    (gone : (net.step number).tasks[number]? = none) (doomed : task.doomed? = none) :
    Advance clients net history number task wanted := by
  refine ⟨.still steady silent ?_, fun next hnext => ?_⟩
  · rw [gone, doomed]
    rfl
  · rw [gone] at hnext
    cases hnext

/-- A task that waits stays as it is. -/
theorem wait (htask : net.tasks[number]? = some task) (stays : net.step number = net)
    (quiet : net.events number = []) (meets : wanted net history task) :
    Advance clients net history number task wanted := by
  refine .on_quiet ?_ quiet ?_ ?_ rfl
  · rw [stays]
    exact .refl net
  · rw [stays]
    exact htask
  · rw [stays]
    exact meets

/-- The turn of a member. -/
theorem of_work {turn : Node → Surroundings → Turn result} {below : Stack result}
    {hold : Option LockId} {plain : Bool}
    (steps : net.step number = net.work number purpose handle below turn)
    (quiet : net.events number = [])
    (orderly : ∀ node around, (turn node around).Orderly node hold plain)
    (missing : net.nodeAt? handle = none → task.doomed? = none)
    (leads : net.Steady (net.step number) → ∀ node, net.nodeAt? handle = some node → ∀ next,
      (turn node net.surroundings).action.Leaves purpose handle below next →
      wanted (net.step number) history next ∧ next.doomed? = task.doomed?) :
    Advance clients net history number task wanted := by
  have hsteady : net.Steady (net.step number) := by
    rw [steps]
    exact Network.steady_work fun node _ => orderly node net.surroundings
  cases found : net.nodeAt? handle with
  | none =>
      refine .ended hsteady (by simp [quiet]) ?_ (missing found)
      rw [steps, Network.work_of_none found, Network.getElem?_dropTask, if_pos rfl]
  | some node =>
      obtain ⟨next, hnext, hleaves⟩ : ∃ next, (net.step number).tasks[number]? = some next ∧
          (turn node net.surroundings).action.Leaves purpose handle below next := by
        rw [steps]
        exact Network.leaves_work found turn below
      obtain ⟨hwanted, hdoomed⟩ := leads hsteady node found next hleaves
      exact .on_quiet hsteady quiet hnext hwanted hdoomed

/-- The turn of a member that carries an operation on. -/
theorem of_resume {frame : Frame shape result} {outcome : Outcome shape} {below : Stack result}
    (htask : net.tasks[number]? =
      some ⟨purpose, shape, .answer outcome, .frame handle frame below⟩)
    (missing : net.nodeAt? handle = none →
      Task.doomed? ⟨purpose, shape, .answer outcome, .frame handle frame below⟩ = none)
    (leads : net.Steady (net.step number) → ∀ node, net.nodeAt? handle = some node → ∀ next,
      (node.resume net.surroundings frame outcome).action.Leaves purpose handle below next →
      wanted (net.step number) history next ∧
        next.doomed? = Task.doomed? ⟨purpose, shape, .answer outcome, .frame handle frame below⟩) :
    Advance clients net history number
      ⟨purpose, shape, .answer outcome, .frame handle frame below⟩ wanted :=
  .of_work (Network.step_answer htask) (Network.events_answer htask)
    (fun node around => node.orderly_resume around frame outcome) missing leads

/-- The first turn of a member's operation. -/
theorem of_start {operation : Operation shape} {stack : Stack shape}
    (htask : net.tasks[number]? = some ⟨purpose, shape, .start handle operation, stack⟩)
    (leads : net.Steady (net.step number) → ∀ node, net.nodeAt? handle = some node → ∀ next,
      (node.start net.surroundings operation).action.Leaves purpose handle stack next →
      wanted (net.step number) history next ∧ next.doomed? = none) :
    Advance clients net history number ⟨purpose, shape, .start handle operation, stack⟩ wanted :=
  .of_work (Network.step_start htask) (Network.events_eq_nil htask (by simp) (by simp))
    (fun node around => node.orderly_start around operation) (fun _ => rfl) leads

end Advance

variable {clients : Clients} {net : Network} {history : List Event} {number : Nat} {task : Task}
  {purpose : Purpose} {shape result : Shape} {handle : Handle}

/-! ## Plain tasks -/

/-- What becomes of a task with a job: it goes on with it, or a purpose of several operations goes on
to its next one. -/
inductive Stage.Next (clients : Clients) (purpose : Purpose) (job : Job) (number : Nat) (net : Network)
    (history : List Event) : Task → Prop where
  | on {shape : Shape} {control : Control shape} {stack : Stack shape}
      (stage : Stage clients net history number job control stack) :
      Next clients purpose job number net history ⟨purpose, shape, control, stack⟩
  | anew {next : Purpose} {control : Control .nothing} (many : purpose ≠ .client [])
      (control_plain : control.plain = true) :
      Next clients purpose job number net history ⟨next, .nothing, control, .root⟩

/-- A plain turn leads to a plain task or to the start of a transfer. -/
theorem Stage.next_of_leaves {below : Stack result} {action : Action result} {next : Task}
    (plain : action.Plain) (below_plain : below.plain = true)
    (leaves : action.Leaves purpose handle below next) :
    Stage.Next clients purpose .other number net history next ∧ next.doomed? = none := by
  have hstack : ∀ {shape : Shape} {frame : Frame shape result}, frame.plain = true →
      (Stack.frame handle frame below).plain = true := fun hframe => by
    rw [Stack.plain, hframe, below_plain]
    rfl
  have hplain : ∀ {shape : Shape} {control : Control shape} {stack : Stack shape},
      control.plain = true → stack.plain = true →
      Stage.Next clients purpose .other number net history ⟨purpose, shape, control, stack⟩ ∧
        Task.doomed? ⟨purpose, shape, control, stack⟩ = none := fun hcontrol hstack =>
    ⟨.on (.plain hcontrol hstack), Control.doomed?_plain hcontrol hstack⟩
  cases leaves with
  | reply outcome => exact hplain rfl below_plain
  | own request frame => exact hplain plain.1 (hstack plain.2)
  | remote peer request frame => exact hplain plain.1 (hstack plain.2)
  | run operation frame =>
      cases operation with
      | transfer storage key owner => exact ⟨.on (.passing (hstack plain.2) (.started owner)), rfl⟩
      | _ => exact hplain plain.1 (hstack plain.2)
  | call asked frame now delay => exact hplain (Control.plain_after _ _ plain.1) (hstack plain.2)
  | sleep millis frame now => exact absurd plain not_false
  | taken id frame outcome => exact absurd plain not_false
  | queued id frame deadline => exact absurd plain not_false

/-- The end of a task's outermost operation. -/
theorem Advance.of_root {outcome : Outcome shape} {job : Job}
    (htask : net.tasks[number]? = some ⟨purpose, shape, .answer outcome, .root⟩) :
    Advance clients net history number ⟨purpose, shape, .answer outcome, .root⟩
      (Stage.Next clients purpose job number) := by
  have hfree : Task.doomed? ⟨purpose, shape, .answer outcome, .root⟩ = none := by
    cases outcome <;> rfl
  have hsilent : ∀ event ∈ net.events number, event.Silent := by
    intro event hevent
    rw [Network.events_root htask] at hevent
    rw [(Purpose.mem_ends hevent).2]
    exact Event.silent_ended number outcome
  have hafter : net.Steady (net.step number) := by
    rw [Network.step_root htask]
    exact Network.steady_finish net number outcome purpose
  rcases Network.task_finish net number outcome purpose with hnone |
    ⟨hmany, next, control, hplain, hfound⟩
  · rw [← Network.step_root htask] at hnone
    exact .ended hafter hsilent hnone hfree
  · rw [← Network.step_root htask] at hfound
    exact .on hafter hsilent hfound (.anew hmany hplain)
      ((Control.doomed?_plain hplain rfl).trans hfree.symm)

theorem Advance.of_plain {control : Control shape} {stack : Stack shape}
    (htask : net.tasks[number]? = some ⟨purpose, shape, control, stack⟩)
    (members : ∀ handle, net.script? handle = none)
    (control_plain : control.plain = true) (stack_plain : stack.plain = true) :
    Advance clients net history number ⟨purpose, shape, control, stack⟩
      (Stage.Next clients purpose .other number) := by
  have hfree : Task.doomed? ⟨purpose, shape, control, stack⟩ = none :=
    Control.doomed?_plain control_plain stack_plain
  have hnext : ∀ {next : Control shape}, net.Steady (net.step number) →
      net.events number = [] →
      (net.step number).tasks[number]? = some ⟨purpose, shape, next, stack⟩ → next.plain = true →
      Advance clients net history number ⟨purpose, shape, control, stack⟩
        (Stage.Next clients purpose .other number) :=
    fun hsteady hquiet hfound hplain =>
      .on_quiet hsteady hquiet hfound (.on (.plain hplain stack_plain))
      ((Control.doomed?_plain hplain stack_plain).trans hfree.symm)
  have hsteady : (∀ handle call, control ≠ .access handle call) → net.Steady (net.step number) := by
    intro hother
    refine Network.steady_step number fun purpose shape handle call stack h => ?_
    rw [htask, Option.some.injEq] at h
    cases h
    exact hother handle call rfl
  cases control with
  | answer outcome =>
      cases stack with
      | root => exact .of_root htask
      | frame handle frame below =>
          rw [Stack.plain, Bool.and_eq_true] at stack_plain
          refine .of_resume htask (fun _ => hfree) fun _ node found next hleaves => ?_
          have hplain := (node.orderly_resume net.surroundings frame outcome).plain stack_plain.1
          obtain ⟨hwanted, hdoomed⟩ := Stage.next_of_leaves hplain stack_plain.2 hleaves
          exact ⟨hwanted, hdoomed.trans hfree.symm⟩
  | start handle operation =>
      refine .of_start htask fun _ node found next hleaves => ?_
      have hplain := (node.orderly_start net.surroundings operation).plain control_plain
      exact Stage.next_of_leaves hplain stack_plain hleaves
  | send peer request =>
      obtain ⟨now, delay, hfound⟩ := Network.task_send net number purpose peer request stack
      rw [← Network.step_send htask] at hfound
      exact hnext (hsteady (by simp)) (Network.events_eq_nil htask (by simp) (by simp)) hfound
        (Control.plain_after now delay control_plain)
  | arrive peer request =>
      have hquiet := Network.events_eq_nil htask (by simp) (by simp)
      rcases Network.task_arrive members number purpose peer request stack with hnone |
        ⟨failure, hfound⟩ | hfound
      · rw [← Network.step_arrive htask] at hnone
        exact .ended (hsteady (by simp)) (by simp [hquiet]) hnone hfree
      · rw [← Network.step_arrive htask] at hfound
        exact hnext (hsteady (by simp)) hquiet hfound rfl
      · rw [← Network.step_arrive htask] at hfound
        exact hnext (hsteady (by simp)) hquiet hfound control_plain
  | access handle call =>
      have hquiet : net.events number = [] := by
        cases call with
        | record call => cases control_plain
        | _ => simp only [Network.events, htask]
      cases found : net.nodeAt? handle with
      | none =>
          have hdrop := (Network.step_access htask).trans
            (Network.access_of_none found number purpose call stack)
          refine .ended ?_ (by simp [hquiet]) ?_ hfree
          · rw [hdrop]
            exact .of_member? rfl
          · rw [hdrop, Network.getElem?_dropTask, if_pos rfl]
      | some node =>
          obtain ⟨answer, hsame⟩ : ∃ answer : Outcome shape,
              net.step number = net.putTask number ⟨purpose, shape, .answer answer, stack⟩ :=
            ⟨_, (Network.step_access htask).trans (Network.access_same found number purpose stack
              (Store.perform_plain _ _ control_plain))⟩
          have hafter : net.Steady (net.step number) := by
            rw [hsame]
            exact .of_member? rfl
          have hfound : (net.step number).tasks[number]? =
              some ⟨purpose, shape, .answer answer, stack⟩ := by
            rw [hsame]
            exact Network.getElem?_putTask_self _
          exact hnext hafter hquiet hfound rfl
  | hold moment next =>
      have hstays : net.step number = net := by simp only [Network.step, htask]
      exact .wait htask hstays (Network.events_eq_nil htask (by simp) (by simp))
        (.on (.plain control_plain stack_plain))
  | queue handle id deadline => cases control_plain

/-! ## Record calls on their way -/

section Calls

variable {kind : Shape} {call : RecordCall kind} {rest : Stack kind}
  {wanted : Network → List Event → Task → Prop}

/-- A step of a task that serves a record call and is not at its store yet. -/
theorem Advance.of_serving {control : Control shape} {stack : Stack shape}
    (serving : Serving call rest control stack)
    (htask : net.tasks[number]? = some ⟨purpose, shape, control, stack⟩)
    (members : ∀ handle, net.script? handle = none)
    (early : ∀ handle call, control ≠ .access handle call)
    (on : net.Steady (net.step number) → ∀ {shape : Shape} {control : Control shape}
      {stack : Stack shape}, Serving call rest control stack →
      wanted (net.step number) history ⟨purpose, shape, control, stack⟩)
    (failed : net.Steady (net.step number) → ∀ {failure : Failure} {control : Control kind}
      {stack : Stack kind}, Served call rest (.error failure) control stack →
      wanted (net.step number) history ⟨purpose, kind, control, stack⟩) :
    Advance clients net history number ⟨purpose, shape, control, stack⟩ wanted := by
  have hfree : Task.doomed? ⟨purpose, shape, control, stack⟩ = none := serving.doomed?
  have hsteady : net.Steady (net.step number) := by
    refine Network.steady_step number fun purpose shape handle call stack h => ?_
    rw [htask, Option.some.injEq] at h
    cases h
    exact early handle call rfl
  have hquiet : net.events number = [] := by
    cases serving with
    | paused peer since outcome relay => exact Network.events_answer htask
    | locked peer outcome relay => exact Network.events_answer htask
    | performing peer relay => exact absurd rfl (early peer (.record call))
    | _ => exact Network.events_eq_nil htask (by simp) (by simp)
  have hnext := serving.step htask members early
  revert hnext
  generalize hlater : (net.step number).tasks[number]? = next
  intro hnext
  cases hnext with
  | ended => exact .ended hsteady (by simp [hquiet]) hlater hfree
  | on serving =>
      exact .on_quiet hsteady hquiet hlater (on hsteady serving) (serving.doomed?.trans hfree.symm)
  | failed failure served =>
      exact .on_quiet hsteady hquiet hlater (failed hsteady served)
        (served.doomed?_error.trans hfree.symm)

/-- A step of a task on the way back from a record call, up to the operations that wait for it. -/
theorem Advance.of_served {outcome : Outcome kind} {control : Control kind} {stack : Stack kind}
    (served : Served call rest outcome control stack)
    (htask : net.tasks[number]? = some ⟨purpose, kind, control, stack⟩)
    (stands : stack.Stands net) (free : call.Fallible → rest.source? = none)
    (on : net.Steady (net.step number) → ∀ {control : Control kind} {stack : Stack kind},
      Served call rest outcome control stack →
      wanted (net.step number) history ⟨purpose, kind, control, stack⟩)
    (again : net.Steady (net.step number) → call.Fallible → call.hits outcome = false →
      ∀ {shape : Shape} {control : Control shape} {stack : Stack shape},
      Serving call rest control stack →
      wanted (net.step number) history ⟨purpose, shape, control, stack⟩)
    (back : stack = rest → control = .answer outcome →
      Advance clients net history number ⟨purpose, kind, control, stack⟩ wanted) :
    Advance clients net history number ⟨purpose, kind, control, stack⟩ wanted := by
  have hanswer : control = .answer outcome := by cases served <;> rfl
  have hsteady : net.Steady (net.step number) := by
    refine Network.steady_step number fun purpose shape handle call stack h => ?_
    rw [htask, Option.some.injEq] at h
    cases h
    cases hanswer
  by_cases hrest : stack = rest
  · exact back hrest hanswer
  · obtain ⟨task, hnext, hlater⟩ := (served.step stands htask).resolve_left fun h => hrest h.2
    have hquiet : net.events number = [] := by
      cases served with
      | performed peer relay => exact Network.events_answer htask
      | passed relay =>
          cases relay with
          | rest => exact absurd rfl hrest
          | attempted peer relay => exact Network.events_answer htask
          | handedOn peer fallible relay => exact Network.events_answer htask
    cases hlater with
    | on later =>
        refine .on_quiet hsteady hquiet hnext (on hsteady later) ?_
        cases outcome with
        | error failure => exact later.doomed?_error.trans served.doomed?_error.symm
        | ok answer => exact later.doomed?_ok.trans served.doomed?_ok.symm
    | again fallible misses serving =>
        refine .on_quiet hsteady hquiet hnext (again hsteady fallible misses serving) ?_
        refine serving.doomed?.trans ?_
        cases outcome with
        | error failure => exact served.doomed?_error.symm
        | ok answer => exact (served.doomed?_ok.trans (free fallible)).symm

end Calls

/-! ## Record calls at a store -/

/-- A store carries out a record call of a client or a peer. -/
theorem Network.carried_step {kind : Shape} {call : RecordCall kind} {below : Stack kind}
    {peer : Handle} (present : net.Present peer)
    (htask : net.tasks[number]? = some ⟨purpose, kind, .access peer (.record call),
      .frame peer (.performed call) below⟩) :
    ∃ answer, net.Carried (net.step number) peer call answer ∧
      net.events number = Event.ofAnswer number peer call answer ∧
      (net.step number).tasks[number]? = some ⟨purpose, kind, .answer (answer.mapError .store),
        .frame peer (.performed call) below⟩ := by
  obtain ⟨node, found⟩ := present
  have hcarried := carried_access found number purpose call (.frame peer (.performed call) below)
  refine ⟨_, ?_, events_access found htask, ?_⟩
  · rw [step_access htask]
    exact hcarried
  · obtain ⟨outcome, heq, haccess⟩ := access_eq found number purpose (.record call)
      (.frame peer (.performed call) below)
    rw [step_access htask, haccess, ← heq]
    exact getElem?_putTask_self _

theorem RecordCall.backed_ofAnswer {kind : Shape} (call : RecordCall kind) {peer : Handle}
    (fresh : history.countP (Event.hits number) = 0) (answer : Except StoreError kind.Value) :
    call.Backed (history ++ Event.ofAnswer number peer call answer) number
      (answer.mapError .store) := by
  rcases answer with failure | answer
  · refine ⟨?_, fun _ h => nomatch h⟩
    rw [List.countP_append, fresh]
    cases failure <;> rfl
  · refine ⟨?_, fun value heq _ => ⟨peer, ?_⟩⟩
    · rw [List.countP_append, fresh]
      have hkind : hits call ((Except.ok answer).mapError .store) = !call.misses answer := rfl
      cases hmiss : call.misses answer <;> simp [Event.ofAnswer, hkind, hmiss, Event.hits]
    · cases heq
      exact List.mem_append_right _ (List.mem_singleton.2 rfl)

section Clients

variable {kind : Shape} {call : RecordCall kind} (asked : clients call)

include asked

/-- The store carries out a client's call. -/
theorem Advance.of_performing {peer : Handle} {below : Stack kind}
    (fresh : history.countP (Event.hits number) = 0) (relay : Relay call .root below)
    (stands : Stack.Stands net (.frame peer (.performed call) below))
    (htask : net.tasks[number]? = some ⟨purpose, kind, .access peer (.record call),
      .frame peer (.performed call) below⟩) :
    Advance clients net history number
      ⟨purpose, kind, .access peer (.record call), .frame peer (.performed call) below⟩
      (Stage.Next clients purpose (.call call) number) := by
  obtain ⟨answer, hcarried, hshows, hfound⟩ := Network.carried_step stands.1 htask
  have hserved : Served call .root (answer.mapError .store) (.answer (answer.mapError .store))
      (.frame peer (.performed call) below) := .performed peer relay
  have hdoomed : (net.step number).tasks[number]?.bind Task.doomed? = none := by
    rw [hfound]
    exact hserved.doomed?_root
  refine ⟨?_, fun next hnext => ?_⟩
  · have hheld : (peer, call.lockId) ∈ Task.holds ⟨purpose, kind, .access peer (.record call),
        .frame peer (.performed call) below⟩ := List.mem_cons_self ..
    cases hcarried with
    | idle idles steady =>
        exact .still steady (fun event h => Event.silent_of_idles idles (hshows ▸ h)) hdoomed
    | created storage key content version free writes =>
        have hmakes : Task.creates? ⟨purpose, .version,
            .access peer (.record (.create storage key content version)),
            .frame peer (.performed (.create storage key content version)) below⟩ =
              some (peer, ⟨storage, key⟩) := if_pos relay.source?
        refine .created asked hmakes hheld free writes (fun event h => ?_) rfl hdoomed
        rw [hshows] at h
        rw [List.mem_singleton.1 h]
        exact Event.silent_created ..
    | updated storage key content copy small writes =>
        refine .edited asked hheld copy writes hshows ?_ ?_ (fun _ => rfl) (fun id h => absurd h Bool.false_ne_true)
          rfl hdoomed
        · simp [Event.replay, RecordCall.lockId]
        · exact fun id hne => ⟨rfl, rfl, fun kept => if_neg hne.symm⟩
    | overran storage key content copy large writes =>
        refine .edited asked hheld copy writes hshows ?_ ?_ (fun _ => rfl) (fun id h => large)
          rfl hdoomed
        · simp [Event.replay, RecordCall.lockId]
        · exact fun id hne => ⟨rfl, decide_eq_false hne.symm, fun kept => if_neg hne.symm⟩
    | deleted storage key copy writes =>
        refine .edited asked hheld copy writes hshows ?_ ?_ (fun _ => rfl) (fun id h => absurd h Bool.false_ne_true)
          rfl hdoomed
        · simp [Event.replay, RecordCall.lockId]
        · refine fun id hne => ⟨?_, rfl, fun kept => if_neg fun h => hne h.1.symm⟩
          have hname : (⟨storage, key⟩ : LockId) ≠ id := hne.symm
          simp [Event.removes, hname]
  · rw [hfound, Option.some.injEq] at hnext
    subst hnext
    rw [hshows]
    exact .on (.called asked (call.backed_ofAnswer fresh answer) hserved)

/-- A step of a task that carries out a call for a client. -/
theorem Advance.of_calling {control : Control shape} {stack : Stack shape}
    (fresh : history.countP (Event.hits number) = 0) (serving : Serving call .root control stack)
    (htask : net.tasks[number]? = some ⟨purpose, shape, control, stack⟩)
    (members : ∀ handle, net.script? handle = none) (stands : stack.Stands net) :
    Advance clients net history number ⟨purpose, shape, control, stack⟩
      (Stage.Next clients purpose (.call call) number) := by
  by_cases hearly : ∀ handle call, control ≠ .access handle call
  · refine .of_serving serving htask members hearly (fun _ {_ _ _} later => ?_)
      fun _ {failure _ _} served => ?_
    · exact .on (.calling asked fresh later)
    · have hbacked : call.Backed history number (.error failure) := ⟨fresh, fun _ h => nomatch h⟩
      exact .on (.called asked hbacked served)
  · cases serving with
    | performing peer relay => exact .of_performing asked fresh relay stands htask
    | _ => exact absurd (by simp) hearly

/-- A step of a task whose call for a client has been carried out. -/
theorem Advance.of_called {outcome : Outcome kind} {control : Control kind} {stack : Stack kind}
    (backed : call.Backed history number outcome) (served : Served call .root outcome control stack)
    (htask : net.tasks[number]? = some ⟨purpose, kind, control, stack⟩)
    (stands : stack.Stands net) :
    Advance clients net history number ⟨purpose, kind, control, stack⟩
      (Stage.Next clients purpose (.call call) number) := by
  refine .of_served served htask stands (fun _ => rfl) (fun _ {_ _} later => ?_)
    (fun _ fallible misses {_ _ _} serving => ?_) fun hroot hanswer => ?_
  · exact .on (.called asked backed later)
  · have hfresh : history.countP (Event.hits number) = 0 := by rw [backed.count, misses]; rfl
    exact .on (.calling asked hfresh serving)
  · subst hroot hanswer
    exact .of_root htask

end Clients

/-! ## Transfers -/

/-- What becomes of a task that transfers a record: it goes on, or the transfer has ended. -/
inductive Hauling.Next (purpose : Purpose) (handle : Handle) (storage : String) (key : Token)
    (below : Stack .flag) (number : Nat) (net : Network) (history : List Event) : Task → Prop where
  | on {shape : Shape} {control : Control shape} {stack : Stack shape}
      (hauling : Hauling net history number handle storage key below control stack) :
      Next purpose handle storage key below number net history ⟨purpose, shape, control, stack⟩
  | back {outcome : Outcome .flag}
      (shown : outcome = .ok true → ∃ source, .dropped number source ⟨storage, key⟩ ∈ history) :
      Next purpose handle storage key below number net history
        ⟨purpose, .flag, .answer outcome, below⟩

section Transfers

variable {storage : String} {key owner : Token} {below : Stack .flag}

theorem Network.Reads.steady {after : Network} {id : LockId} {outcome : Outcome .record}
    (steady : net.Steady after) (reads : net.Reads handle id outcome) :
    after.Reads handle id outcome := by
  rcases outcome with failure | _ | record
  · trivial
  · exact (steady.stored? handle id).trans reads
  · exact ⟨steady.opens reads.1, (steady.stored? handle id).trans reads.2⟩

theorem Advance.of_started
    (htask : net.tasks[number]? =
      some ⟨purpose, .flag, .start handle (.transfer storage key owner), below⟩) :
    Advance clients net history number
      ⟨purpose, .flag, .start handle (.transfer storage key owner), below⟩
      (Hauling.Next purpose handle storage key below number) := by
  refine .of_start htask fun _ node found next hleaves => ?_
  cases hleaves with
  | taken id frame outcome =>
      refine ⟨.on (.locked owner outcome), ?_⟩
      cases outcome <;> rfl
  | queued id frame deadline => exact ⟨.on (.queued owner deadline), rfl⟩

theorem Advance.of_locked {outcome : Outcome .nothing}
    (htask : net.tasks[number]? = some ⟨purpose, .nothing, .answer outcome,
      .frame handle (.transferLockAwaited storage key owner) below⟩) :
    Advance clients net history number
      ⟨purpose, .nothing, .answer outcome,
        .frame handle (.transferLockAwaited storage key owner) below⟩
      (Hauling.Next purpose handle storage key below number) := by
  have hfree : Task.doomed? ⟨purpose, .nothing, .answer outcome,
      .frame handle (.transferLockAwaited storage key owner) below⟩ = none := by
    cases outcome <;> rfl
  refine .of_resume htask (fun _ => hfree) fun _ node found next hleaves => ?_
  rw [hfree]
  cases outcome with
  | error failure =>
      cases hleaves with
      | reply outcome => exact ⟨.back (by simp), rfl⟩
  | ok granted =>
      cases hleaves with
      | call asked frame now delay =>
          exact ⟨.on ((Hauling.reading owner).delayed now delay), Control.doomed?_after ..⟩

theorem Advance.of_reading (present : net.Present handle)
    (htask : net.tasks[number]? = some ⟨purpose, .record,
      .access handle (.record (.read storage key)),
      .frame handle (.transferRead storage key owner) below⟩) :
    Advance clients net history number
      ⟨purpose, .record, .access handle (.record (.read storage key)),
        .frame handle (.transferRead storage key owner) below⟩
      (Hauling.Next purpose handle storage key below number) := by
  obtain ⟨node, found⟩ := present
  have hstored := Network.stored?_of_nodeAt? found ⟨storage, key⟩
  obtain ⟨outcome, heq, hsame⟩ : ∃ outcome : Outcome .record,
      outcome = (node.store.read node.config.credential storage key).mapError .store ∧
      net.step number = net.putTask number ⟨purpose, .record, .answer outcome,
        .frame handle (.transferRead storage key owner) below⟩ :=
    ⟨_, rfl, (Network.step_access htask).trans (Network.access_same found number purpose _ rfl)⟩
  have hreads : net.Reads handle ⟨storage, key⟩ outcome := by
    rw [heq, Store.read]
    split
    · rename_i hopens
      cases hfind : node.store.find? storage key with
      | none => exact hstored.trans hfind
      | some stored => exact ⟨⟨node, found, hopens⟩, hstored.trans hfind⟩
    · trivial
  have hsteady : net.Steady (net.step number) := by
    rw [hsame]
    exact .of_member? rfl
  refine .on_quiet hsteady (Network.events_access found htask) ?_
    (.on (.read owner (hreads.steady hsteady))) ?_
  · rw [hsame]
    exact Network.getElem?_putTask_self _
  · cases outcome <;> rfl

theorem Advance.of_read (free : below.source? = none) {outcome : Outcome .record}
    (htask : net.tasks[number]? = some ⟨purpose, .record, .answer outcome,
      .frame handle (.transferRead storage key owner) below⟩)
    (reads : net.Reads handle ⟨storage, key⟩ outcome) :
    Advance clients net history number
      ⟨purpose, .record, .answer outcome, .frame handle (.transferRead storage key owner) below⟩
      (Hauling.Next purpose handle storage key below number) := by
  have hfree : Task.doomed? ⟨purpose, .record, .answer outcome,
      .frame handle (.transferRead storage key owner) below⟩ = none := by
    cases outcome <;> rfl
  refine .of_resume htask (fun _ => hfree) fun hsteady node found next hleaves => ?_
  rw [hfree]
  have hread := reads.steady hsteady
  rcases outcome with failure | _ | record
  · cases hleaves with
    | reply outcome => exact ⟨.back (by simp), rfl⟩
  · cases hleaves with
    | reply outcome => exact ⟨.back (by simp), free⟩
  · rw [Node.resume, Node.onTransferRead] at hleaves
    split at hleaves
    · cases hleaves with
      | reply outcome => exact ⟨.back (by simp), rfl⟩
    · cases hleaves with
      | own request frame => exact ⟨.on (.handing hread.1 hread.2 (.called handle .rest)), rfl⟩
      | remote peer request frame =>
          exact ⟨.on (.handing hread.1 hread.2 (.sent peer .rest)), rfl⟩

/-- The owner's store creates the copy that it has been handed. -/
theorem Advance.of_handed {peer : Handle} {content : List UInt8} {version : UInt64}
    {stack : Stack .version}
    (opens : net.Opens handle)
    (copy : net.stored? handle ⟨storage, key⟩ = some ⟨content, version⟩)
    (relay : Relay (.create storage key content version)
      (.frame handle (.transferHanded storage key version) below) stack)
    (present : net.Present peer)
    (htask : net.tasks[number]? = some ⟨purpose, .version,
      .access peer (.record (.create storage key content version)),
      .frame peer (.performed (.create storage key content version)) stack⟩) :
    Advance clients net history number
      ⟨purpose, .version, .access peer (.record (.create storage key content version)),
        .frame peer (.performed (.create storage key content version)) stack⟩
      (Hauling.Next purpose handle storage key below number) := by
  obtain ⟨answer, hcarried, hshows, hfound⟩ := Network.carried_step present htask
  have hguarded : (handle, ⟨storage, key⟩) ∈ Task.holds ⟨purpose, .version,
      .access peer (.record (.create storage key content version)),
      .frame peer (.performed (.create storage key content version)) stack⟩ := by
    refine List.mem_append_right _ ?_
    rw [relay.guards]
    exact List.mem_cons_self ..
  cases hcarried with
  | idle idles steady =>
      rcases answer with error | answer
      · have hserved : Served (.create storage key content version)
            (.frame handle (.transferHanded storage key version) below) (.error (.store error))
            (.answer (.error (.store error)))
            (.frame peer (.performed (.create storage key content version)) stack) :=
          .performed peer relay
        refine .on steady (fun event h => Event.silent_of_idles idles (hshows ▸ h)) hfound
          (.on (.refused hserved)) hserved.doomed?_error
      · cases idles
  | created storage key content version copied writes =>
      have hserved : Served (.create storage key content version)
          (.frame handle (.transferHanded storage key version) below) (.ok version)
          (.answer (.ok version))
          (.frame peer (.performed (.create storage key content version)) stack) :=
        .performed peer relay
      have hne : (peer, (⟨storage, key⟩ : LockId)) ≠ (handle, ⟨storage, key⟩) := by
        intro h
        obtain ⟨rfl, -⟩ := Prod.mk.inj h
        rw [copied] at copy
        cases copy
      refine ⟨.handed (List.mem_cons_self ..) hguarded copy copied writes (fun event h => ?_) rfl ?_,
        fun next hnext => ?_⟩
      · rw [hshows] at h
        rw [List.mem_singleton.1 h]
        exact Event.silent_created ..
      · rw [hfound]
        exact hserved.doomed?_ok
      · rw [hfound, Option.some.injEq] at hnext
        subst hnext
        exact .on (.accepted (writes.opens _ opens) ((writes.stored?_of_ne hne).trans copy) hserved)

/-- The source deletes a record that it has handed over. -/
theorem Advance.of_deleting {content : List UInt8} {version : UInt64} (opens : net.Opens handle)
    (copy : net.stored? handle ⟨storage, key⟩ = some ⟨content, version⟩)
    (htask : net.tasks[number]? = some ⟨purpose, .flag,
      .access handle (.record (.delete storage key version)),
      .frame handle (.transferDeleted storage key) below⟩) :
    Advance clients net history number
      ⟨purpose, .flag, .access handle (.record (.delete storage key version)),
        .frame handle (.transferDeleted storage key) below⟩
      (Hauling.Next purpose handle storage key below number) := by
  obtain ⟨node, found, hopens⟩ := opens
  have hperform : node.store.perform node.config.credential
      (.record (.delete storage key version)) = (.ok true, node.store.drop storage key) := by
    rw [Network.stored?_of_nodeAt? found] at copy
    exact Store.delete_eq hopens copy
  have hshows : net.events number = [.dropped number handle ⟨storage, key⟩] := by
    rw [Network.events_access found htask, hperform]
    rfl
  obtain ⟨outcome, rfl, haccess⟩ := Network.access_eq found number purpose
    (.record (.delete storage key version)) (.frame handle (.transferDeleted storage key) below)
  rw [← Network.step_access htask, hperform] at haccess
  have hwrites : net.Writes (net.step number) handle ⟨storage, key⟩ none := by
    rw [haccess]
    exact Network.writes_setNode found
      (fun other name => node.store.find?_drop storage other key name) (fun _ => rfl) number _
  have hfound : (net.step number).tasks[number]? = some ⟨purpose, .flag, .answer (.ok true),
      .frame handle (.transferDeleted storage key) below⟩ := by
    rw [haccess]
    exact Network.getElem?_putTask_self _
  refine ⟨.dropped (List.mem_cons_self ..) hwrites hshows rfl ?_, fun next hnext => ?_⟩
  · rw [hfound]
    rfl
  · rw [hfound, Option.some.injEq] at hnext
    subst hnext
    rw [hshows]
    exact .on (.deleted (List.mem_append_right _ (List.mem_singleton.2 rfl)))

/-- A step of a task that transfers a record. -/
theorem Advance.of_hauling {control : Control shape} {stack : Stack shape}
    (free : below.source? = none)
    (hauling : Hauling net history number handle storage key below control stack)
    (htask : net.tasks[number]? = some ⟨purpose, shape, control, stack⟩)
    (members : ∀ handle, net.script? handle = none) (stands : stack.Stands net) :
    Advance clients net history number ⟨purpose, shape, control, stack⟩
      (Hauling.Next purpose handle storage key below number) := by
  have hhauling := hauling
  cases hauling with
  | started owner => exact .of_started htask
  | queued owner deadline =>
      have hstays : net.step number = net := by simp only [Network.step, htask]
      exact .wait htask hstays (Network.events_eq_nil htask (by simp) (by simp)) (.on hhauling)
  | locked owner outcome => exact .of_locked htask
  | reading owner => exact .of_reading stands.1 htask
  | read owner reads => exact .of_read free htask reads
  | handing opens copy serving =>
      by_cases hearly : ∀ handle call, control ≠ .access handle call
      · refine .of_serving serving htask members hearly (fun hsteady {_ _ _} later => ?_)
          fun hsteady {_ _ _} served => ?_
        · exact .on (.handing (hsteady.opens opens) ((hsteady.stored? _ _).trans copy) later)
        · exact .on (.refused served)
      · cases serving with
        | performing peer relay => exact .of_handed opens copy relay stands.1 htask
        | _ => exact absurd (by simp) hearly
  | refused served =>
      have hnever := RecordCall.not_fallible_create storage key
      refine .of_served served htask stands (fun h => absurd h (hnever _ _))
        (fun _ {_ _} later => .on (.refused later)) (fun _ h => absurd h (hnever _ _))
        fun hrest hanswer => ?_
      subst hrest hanswer
      refine .of_resume htask (fun _ => rfl) fun _ node found next hleaves => ?_
      cases hleaves with
      | reply outcome => exact ⟨.back (by simp), rfl⟩
  | accepted opens copy served =>
      have hnever := RecordCall.not_fallible_create storage key
      refine .of_served served htask stands (fun h => absurd h (hnever _ _))
        (fun hsteady {_ _} later => .on (.accepted (hsteady.opens opens)
          ((hsteady.stored? _ _).trans copy) later)) (fun _ h => absurd h (hnever _ _))
        fun hrest hanswer => ?_
      subst hrest hanswer
      refine .of_resume htask (fun hnone => ?_) fun hsteady node found next hleaves => ?_
      · obtain ⟨node, found⟩ := stands.1
        rw [found] at hnone
        cases hnone
      · cases hleaves with
        | call asked frame now delay =>
            refine ⟨.on ?_, Control.doomed?_after ..⟩
            exact (Hauling.deleting (hsteady.opens opens)
              ((hsteady.stored? _ _).trans copy)).delayed now delay
  | deleting opens copy => exact .of_deleting opens copy htask
  | deleted shown =>
      refine .of_resume htask (fun _ => rfl) fun _ node found next hleaves => ?_
      cases hleaves with
      | reply outcome => exact ⟨.back fun _ => ⟨handle, shown⟩, free⟩
  | held moment hauling =>
      have hstays : net.step number = net := by simp only [Network.step, htask]
      exact .wait htask hstays (Network.events_eq_nil htask (by simp) (by simp)) (.on hhauling)

end Transfers

/-! ## Steps of staged tasks -/

/-- A step of a task keeps to the task's job, unless it goes on to the next operation of several. -/
theorem Stage.step {job : Job} {control : Control shape} {stack : Stack shape}
    (stage : Stage clients net history number job control stack)
    (htask : net.tasks[number]? = some ⟨purpose, shape, control, stack⟩)
    (members : ∀ handle, net.script? handle = none) (stands : stack.Stands net) :
    Advance clients net history number ⟨purpose, shape, control, stack⟩
      (Stage.Next clients purpose job number) := by
  cases stage with
  | plain control_plain stack_plain => exact .of_plain htask members control_plain stack_plain
  | passing below_plain hauling =>
      have hfree := Stack.source?_plain below_plain
      refine (Advance.of_hauling hfree hauling htask members stands).imp fun next hnext => ?_
      cases hnext with
      | on later => exact .on (.passing below_plain later)
      | back shown => exact .on (.plain rfl below_plain)
  | calling asked fresh serving => exact .of_calling asked fresh serving htask members stands
  | called asked backed served => exact .of_called asked backed served htask stands
  | hauling hauling =>
      refine (Advance.of_hauling rfl hauling htask members stands).imp fun next hnext => ?_
      cases hnext with
      | on later => exact .on (.hauling later)
      | back shown => exact .on (.hauled shown)
  | hauled shown => exact .of_root htask

/-- A step of a staged task leads to a staged task. -/
theorem Task.Staged.step (staged : task.Staged clients net history number)
    (htask : net.tasks[number]? = some task) (members : ∀ handle, net.script? handle = none) :
    Advance clients net history number task fun net history next =>
      next.Staged clients net history number := by
  obtain ⟨purpose, shape, control, stack⟩ := task
  obtain ⟨job, hstage, hbegun⟩ := staged.stage
  have hadvance := hstage.step htask members staged.stands
  refine ⟨hadvance.progress, fun next hnext => ?_⟩
  have hold : ∀ {handle shape} {operation : Operation shape},
      .begun number handle operation ∈ history ++ net.events number →
      .begun number handle operation ∈ history := fun h =>
    (List.mem_append.1 h).resolve_right (Network.begun_notMem_events _ _ _)
  refine ⟨Network.stands_step members htask staged.stands hnext, ?_⟩
  cases hadvance.next next hnext with
  | on later => exact ⟨job, later, fun handle shape operation h => hbegun _ _ _ (hold h)⟩
  | anew many control_plain =>
      exact ⟨.other, .plain control_plain rfl, fun handle shape operation h =>
        absurd (hbegun _ _ _ (hold h)).1 many⟩

end RecordRing
