import Mathlib.Order.Basic
import RecordRing.Proofs.Network.Residents

/-!
# Networks at rest

Between two tasks that the scheduler carries on, every task of a prompt network stands before an
operation or waits for the next tick of a loop (`Task.Rests`), and some reports are still to be sent.
A network is calm when all these operations and reports are permitted ones (`Calm`).

A `Regime` says what holds of a calm network and which operations are permitted; every permitted
operation comes to its end without a wait and leads to a calm network again, possibly at a later
stage.  Then so does everything that the scheduler does (`Regime.runTask`, `Regime.elapse`).

## Implementation notes

Operations are permitted to identifiers, not to handles, because the directory does not change while
time passes.
-/

namespace RecordRing

open Network

/-- A task stands before a permitted operation, or between two ticks of a loop of one. -/
inductive Task.Rests (allowed : Token → Operation .nothing → Prop)
    (directory : Std.TreeMap Token Handle) : Task → Prop where
  /-- Nobody waits for the operation. -/
  | background {id : Token} {handle : Handle} {operation : Operation .nothing}
      (listed : directory[id]? = some handle) (permitted : allowed id operation) :
      Rests allowed directory (taskOf .background handle operation)
  /-- A report is about to be sent. -/
  | sender {id requester : Token} {handle : Handle} (listed : directory[id]? = some handle)
      (permitted : allowed id (.reportMoved requester)) :
      Rests allowed directory (taskOf (.sender handle) handle (.reportMoved requester))
  /-- A loop waits for a tick, or has been woken for it. -/
  | ticking {id : Token} {loop : Loop} {control : Control .nothing}
      (listed : directory[id]? = some loop.member) (permitted : allowed id loop.operation)
      (paced : 1 ≤ loop.period)
      (idle : control = .answer (.ok ()) ∨ ∃ moment, control = .hold moment (.answer (.ok ()))) :
      Rests allowed directory ⟨.loop loop, .nothing, control, .root⟩

/-- The directory has grown, or more is permitted. -/
theorem Task.Rests.grow {allowed more : Token → Operation .nothing → Prop}
    {directory later : Std.TreeMap Token Handle} {task : Task}
    (rests : task.Rests allowed directory)
    (listed : ∀ (id : Token) handle, directory[id]? = some handle → later[id]? = some handle)
    (grows : ∀ (id : Token) handle, directory[id]? = some handle → ∀ operation,
      allowed id operation → more id operation) : task.Rests more later := by
  cases rests with
  | background found permitted =>
      exact .background (listed _ _ found) (grows _ _ found _ permitted)
  | sender found permitted => exact .sender (listed _ _ found) (grows _ _ found _ permitted)
  | ticking found permitted paced idle =>
      exact .ticking (listed _ _ found) (grows _ _ found _ permitted) paced idle

/-- The requesters of a member whose reports have not been sent. -/
def Member.owed (member : Member) : List Token := member.outbox ++ member.node.pending

/-- A side effect that leads to nothing but permitted operations. -/
def Effect.Fits (allowed : Token → Operation .nothing → Prop) (id : Token) : Effect → Prop
  | .release _ => False
  | .spawn operation => allowed id operation
  | .announce requester => allowed id (.reportMoved requester)
  | .tally _ => True

namespace Network

variable {net after last loaded : Network} {allowed more : Token → Operation .nothing → Prop}
  {id requester : Token} {number : Nat} {handle : Handle} {member : Member} {node new : Node}
  {shape result : Shape} {task : Task} {operation : Operation .nothing} {config : Config}
  {members : List Token}

/-- All tasks rest, and what they and the reports that are left will do is permitted. -/
structure Calm (allowed : Token → Operation .nothing → Prop) (net : Network) : Prop where
  tasks : ∀ (number : Nat) task, net.tasks[number]? = some task → task.Rests allowed net.directory
  reports : ∀ (id : Token) handle member, net.directory[id]? = some handle →
    net.member? handle = some member → ∀ requester ∈ member.owed, allowed id (.reportMoved requester)

namespace Calm

theorem mono (calm : net.Calm allowed) (grows : ∀ (id : Token) handle,
    net.directory[id]? = some handle → ∀ operation, allowed id operation → more id operation) :
    net.Calm more where
  tasks number task found := (calm.tasks number task found).grow (fun _ _ h => h) grows
  reports id handle member listed found requester mem :=
    grows id handle listed _ (calm.reports id handle member listed found requester mem)

/-- Nothing is added to the tasks and to the reports. -/
theorem of_less (calm : net.Calm allowed) (directory : after.directory = net.directory)
    (tasks : ∀ (number : Nat) task, after.tasks[number]? = some task →
      net.tasks[number]? = some task)
    (owed : ∀ handle later, after.member? handle = some later →
      ∃ member, net.member? handle = some member ∧ ∀ requester ∈ later.owed,
        requester ∈ member.owed) : after.Calm allowed where
  tasks number task found := directory ▸ calm.tasks number task (tasks number task found)
  reports id handle later listed found requester mem := by
    obtain ⟨member, hmember, hless⟩ := owed handle later found
    exact calm.reports id handle member (directory ▸ listed) hmember requester (hless requester mem)

/-- The members are the same. -/
theorem congr (calm : net.Calm allowed) (directory : after.directory = net.directory)
    (tasks : ∀ (number : Nat) task, after.tasks[number]? = some task →
      net.tasks[number]? = some task)
    (endpoints : after.endpoints = net.endpoints) : after.Calm allowed :=
  calm.of_less directory tasks fun _ later found =>
    ⟨later, member?_congr endpoints ▸ found, fun _ h => h⟩

theorem same (calm : net.Calm allowed) (same : net.Same after) : after.Calm allowed := by
  refine calm.of_less same.directory (fun number task found => same.tasks ▸ found) ?_
  intro handle later found
  obtain ⟨member, hmember, huncounted⟩ := same.symm.member? found
  refine ⟨member, hmember, fun requester mem => ?_⟩
  simp only [Member.uncounted, Member.mk.injEq] at huncounted
  rw [Member.owed, huncounted.1, huncounted.2.2.2.1]
  exact mem

/-- A task is put among those that rest. -/
theorem putTask (calm : net.Calm allowed) (rests : task.Rests allowed net.directory) :
    (net.putTask number task).Calm allowed where
  tasks other found := by
    intro hfound
    rw [getElem?_putTask] at hfound
    split at hfound
    · rw [← Option.some.inj hfound]
      exact rests
    · exact calm.tasks other found hfound
  reports := calm.reports

theorem spawn (calm : net.Calm allowed) (rests : task.Rests allowed net.directory) :
    (net.spawn task).Calm allowed := by
  have hput : (net.putTask net.nextTask task).Calm allowed := calm.putTask rests
  exact hput.congr rfl (fun _ _ found => found) rfl

/-- A member is overwritten by one that owes permitted reports. -/
theorem setMember (calm : net.Calm allowed) {new : Member}
    (found : net.member? handle = some member)
    (owed : ∀ id, net.directory[id]? = some handle → ∀ requester ∈ new.owed,
      allowed id (.reportMoved requester)) : (net.setMember handle new).Calm allowed where
  tasks := calm.tasks
  reports id other later listed hlater := by
    rw [member?_setMember found] at hlater
    split at hlater
    · rename_i heq
      cases hlater
      exact owed id (heq ▸ listed)
    · exact calm.reports id other later listed hlater

/-- A node is overwritten by one with permitted reports. -/
theorem setNode (calm : net.Calm allowed)
    (pending : ∀ id, net.directory[id]? = some handle → ∀ requester ∈ new.pending,
      allowed id (.reportMoved requester)) : (net.setNode handle new).Calm allowed := by
  cases found : net.member? handle with
  | none => simpa only [Network.setNode, found] using calm
  | some member =>
      rw [setNode_eq found]
      refine calm.setMember found fun id listed requester mem => ?_
      rcases List.mem_append.1 mem with hsent | hleft
      · exact calm.reports id handle member listed found requester (List.mem_append_left _ hsent)
      · exact pending id listed requester hleft

/-- A node is overwritten by one with the same reports. -/
theorem setNode_same (calm : net.Calm allowed) (stands : net.nodeAt? handle = some node)
    (pending : new.pending = node.pending) : (net.setNode handle new).Calm allowed := by
  refine calm.setNode fun id listed requester mem => ?_
  obtain ⟨member, hmember, rfl⟩ := nodeAt?_eq_some.1 stands
  exact calm.reports id handle member listed hmember requester
    (List.mem_append_right _ (pending ▸ mem))

theorem perform (calm : net.Calm allowed) (listed : net.directory[id]? = some handle)
    (alone : ∀ other, net.directory[other]? = some handle → other = id) {effect : Effect}
    (fits : effect.Fits allowed id) : (net.perform handle effect).Calm allowed := by
  cases found : net.member? handle with
  | none =>
      rw [perform_none found]
      exact calm
  | some member =>
      cases effect with
      | release id => exact fits.elim
      | spawn operation =>
          rw [perform_spawn found]
          exact calm.spawn (.background listed fits)
      | announce requester =>
          rw [perform_announce found]
          split
          · refine calm.setMember found fun other hother asker mem => ?_
            cases alone other hother
            rw [Member.owed, List.mem_append, List.mem_append, List.mem_singleton] at mem
            rcases mem with (hold | rfl) | hleft
            · exact calm.reports id handle member listed found asker (List.mem_append_left _ hold)
            · exact fits
            · exact calm.reports id handle member listed found asker (List.mem_append_right _ hleft)
          · refine (calm.setMember found fun other hother => ?_).spawn (.sender listed fits)
            exact calm.reports other handle member hother found
      | tally counter =>
          rw [perform_tally found]
          exact calm.congr rfl (fun _ _ hfound => hfound) rfl

/-- A turn whose side effects are permitted. -/
theorem enact (calm : net.Calm allowed) (populated : net.Populated config members)
    (houses : net.Houses id handle node) {turn : Turn result}
    (pending : ∀ requester ∈ turn.node.pending, allowed id (.reportMoved requester))
    (fits : ∀ effect ∈ turn.effects, effect.Fits allowed id) :
    (net.enact handle turn).Calm allowed := by
  have halone (other : Token) (hother : net.directory[other]? = some handle) : other = id :=
    populated.handle_inj ⟨hother, houses.stands⟩ houses
  have hset : (net.setNode handle turn.node).Calm allowed := by
    refine calm.setNode fun other hother => ?_
    cases halone other hother
    exact pending
  have hdirectory := directory_setNode net handle turn.node
  rw [Network.enact]
  generalize net.setNode handle turn.node = first at hset hdirectory
  generalize turn.effects = effects at fits
  induction effects generalizing first with
  | nil => exact hset
  | cons effect rest ih =>
      refine ih _ (hset.perform (hdirectory ▸ houses.listed) (hdirectory ▸ halone)
        (fits effect List.mem_cons_self)) ?_ fun other hother =>
          fits other (List.mem_cons_of_mem effect hother)
      exact (akin_perform first handle effect).directory.trans hdirectory

end Calm

/-! ## Work takes no time -/

theorem now_perform (net : Network) (handle : Handle) (effect : Effect) :
    (net.perform handle effect).now = net.now := by
  cases found : net.member? handle with
  | none => rw [perform_none found]
  | some member =>
      cases effect with
      | release id =>
          rw [perform_release found]
          split
          · rw [grant]
            split <;> rfl
          · rfl
      | spawn operation => rw [perform_spawn found]; rfl
      | announce requester =>
          rw [perform_announce found]
          split <;> rfl
      | tally counter => rw [perform_tally found]; rfl

theorem now_enact (net : Network) (handle : Handle) (turn : Turn result) :
    (net.enact handle turn).now = net.now := by
  refine Eq.trans ?_ (now_setNode net handle turn.node)
  rw [enact]
  generalize net.setNode handle turn.node = first
  induction turn.effects generalizing first with
  | nil => rfl
  | cons effect rest ih => exact (ih _).trans (now_perform first handle effect)

theorem directory_enact (net : Network) (handle : Handle) (turn : Turn result) :
    (net.enact handle turn).directory = net.directory :=
  (akin_performs _ handle turn.effects).directory.trans (directory_setNode ..)

/-- Work without a wait is done at one moment and leaves the directory as it is. -/
theorem Yields.unmoved {turn : Turn result} {outcome : Outcome result}
    (yields : Yields number net handle turn outcome after) :
    after.now = net.now ∧ after.directory = net.directory := by
  induction yields with
  | @reply result net handle turn outcome acts =>
      exact ⟨now_enact net handle turn, directory_enact net handle turn⟩
  | @ask result shape net next mid after handle turn outcome contact request frame asked node
      answer acts passes meets serves found resumes ihserves ihresumes =>
      have hpassed : next.now = (net.enact handle turn).now ∧
          next.directory = (net.enact handle turn).directory := by
        cases contact with
        | own => exact ⟨congrArg Network.now passes, congrArg Network.directory passes⟩
        | remote peer =>
            obtain ⟨member, -, -, -, rfl⟩ := passes
            exact ⟨rfl, rfl⟩
      exact ⟨ihresumes.1.trans (ihserves.1.trans (hpassed.1.trans (now_enact ..))),
        ihresumes.2.trans (ihserves.2.trans (hpassed.2.trans (directory_enact ..)))⟩
  | run acts meets starts found resumes ihstarts ihresumes =>
      exact ⟨ihresumes.1.trans (ihstarts.1.trans (now_enact ..)),
        ihresumes.2.trans (ihstarts.2.trans (directory_enact ..))⟩
  | call acts meets prompt found resumes ih =>
      exact ⟨ih.1.trans (now_enact ..), ih.2.trans (directory_enact ..)⟩
  | lock acts meets free found resumes ih =>
      exact ⟨ih.1.trans (now_enact ..), ih.2.trans (directory_enact ..)⟩

theorem Achieves.unmoved {turn : Turn result} {post : Outcome result → Network → Prop}
    (h : Achieves number net handle turn post) :
    Achieves number net handle turn fun outcome after =>
      post outcome after ∧ after.directory = net.directory := by
  obtain ⟨outcome, after, hyields, hpost⟩ := h
  exact ⟨outcome, after, hyields, hpost, hyields.unmoved.2⟩

/-! ## Regimes -/

/-- The number of reports that the sender of a member has not begun. -/
def backlog (net : Network) (handle : Handle) : Nat :=
  (net.member? handle).elim 0 fun member => member.outbox.length

/-- A task has ended or waits. -/
def Stops (net : Network) (number : Nat) : Prop :=
  net.tasks[number]? = none ∨
    ∃ task, net.tasks[number]? = some task ∧ task.control.waitsUntil? ≠ none

/-- What holds of a calm network from stage to stage. -/
structure Regime (σ : Type) [Preorder σ] where
  /-- The operations that are permitted at a stage. -/
  allowed : σ → Token → Operation .nothing → Prop
  /-- What holds at a stage. -/
  holds : σ → Network → Prop
  /-- What has been permitted stays permitted. -/
  grows : ∀ {early late : σ}, early ≤ late → ∀ id operation, allowed early id operation →
    allowed late id operation
  /-- Numbers of tasks are given out one after the other. -/
  numbered : ∀ {stage : σ} {net : Network}, holds stage net → net.Numbered
  /-- Only the nodes and the directory matter. -/
  frame : ∀ {stage : σ} {net after : Network}, net.Keeps after → holds stage net →
    holds stage after
  /-- Every permitted operation comes to its end without a wait, and a report adds no report to
  those of its sender. -/
  serves : ∀ {stage : σ} {net : Network} {id : Token} {handle : Handle}
    {operation : Operation .nothing} (number : Nat), holds stage net → net.Calm (allowed stage) →
    net.directory[id]? = some handle → allowed stage id operation →
    ∃ node, net.nodeAt? handle = some node ∧
      Achieves number net handle (node.start net.surroundings operation) fun _ after =>
        ∃ later, stage ≤ later ∧ holds later after ∧ after.Calm (allowed later) ∧
          ∀ requester, operation = .reportMoved requester → after.backlog handle ≤ net.backlog handle

namespace Regime

variable {σ : Type} [Preorder σ] (regime : Regime σ) {stage : σ} {loop : Loop}
  {outcome : Outcome .nothing}

/-- A network is at rest at a stage. -/
structure Rests (stage : σ) (net : Network) : Prop where
  holds : regime.holds stage net
  calm : net.Calm (regime.allowed stage)

variable {regime}

namespace Rests

/-- The directory and the members are the same, and no task is new. -/
theorem congr (rests : regime.Rests stage net) (directory : after.directory = net.directory)
    (endpoints : after.endpoints = net.endpoints)
    (tasks : ∀ (number : Nat) task, after.tasks[number]? = some task →
      net.tasks[number]? = some task)
    (numbered : net.Numbered → after.Numbered) : regime.Rests stage after :=
  ⟨regime.frame (.of_endpoints directory endpoints numbered) rests.holds,
    rests.calm.congr directory tasks endpoints⟩

/-- One of the tasks is overwritten by one that rests. -/
theorem putTask (rests : regime.Rests stage net) (old : number < net.nextTask)
    (idle : task.Rests (regime.allowed stage) net.directory) :
    regime.Rests stage (net.putTask number task) := by
  have hkeeps : net.Keeps (net.putTask number task) := by
    refine .of_endpoints rfl rfl fun numbered => ⟨fun other found hfound => ?_, numbered.ready,
      numbered.waiting⟩
    rw [getElem?_putTask] at hfound
    split at hfound
    · rename_i heq
      exact heq ▸ old
    · exact numbered.tasks other found hfound
  exact ⟨regime.frame hkeeps rests.holds, rests.calm.putTask idle⟩

/-- A network with one more task that rests. -/
theorem bears (rests : regime.Rests stage net) (bears : net.Bears number task loaded)
    (idle : task.Rests (regime.allowed stage) net.directory) : regime.Rests stage loaded := by
  refine (rests.putTask bears.old idle).congr bears.directory bears.endpoints
    (fun other found hfound => ?_) fun numbered => numbered.congr (fun other => ?_)
      (congrArg Network.ready bears.rest :) (congrArg Network.waiting bears.rest :)
      (Nat.le_of_eq bears.nextTask.symm)
  · rwa [getElem?_putTask, ← bears.tasks]
  · rw [getElem?_putTask, ← bears.tasks]

/-- A network whose one more task is gone. -/
theorem dropped (rests : regime.Rests stage net) (bears : net.Bears number task loaded) :
    regime.Rests stage (loaded.dropTask number) := by
  have htasks (other : Nat) : (loaded.dropTask number).tasks[other]? = net.tasks[other]? := by
    rw [getElem?_dropTask, bears.tasks]
    split
    · rename_i heq
      rw [← heq, bears.free]
    · rfl
  exact rests.congr bears.directory bears.endpoints (fun other found hfound => htasks other ▸ hfound)
    fun numbered => numbered.congr htasks (congrArg Network.ready bears.rest :)
      (congrArg Network.waiting bears.rest :) (Nat.le_of_eq bears.nextTask.symm)

/-- A task is taken out of a network at rest. -/
theorem unload (rests : regime.Rests stage net) (found : net.tasks[number]? = some task) :
    (net.dropTask number).Bears number task net ∧ regime.Rests stage (net.dropTask number) := by
  have hnumbered := regime.numbered rests.holds
  have hless (other : Nat) (left : Task) (h : (net.dropTask number).tasks[other]? = some left) :
      net.tasks[other]? = some left := by
    rw [getElem?_dropTask] at h
    split at h
    · cases h
    · exact h
  refine ⟨⟨?_, hnumbered.tasks number task found, fun other => ?_, rfl⟩, ?_⟩
  · rw [getElem?_dropTask, if_pos rfl]
  · rw [getElem?_dropTask]
    split
    · rename_i heq
      rw [← heq, found]
    · rfl
  · exact rests.congr rfl rfl hless fun numbered =>
      ⟨fun other left h => numbered.tasks other left (hless other left h), numbered.ready,
        numbered.waiting⟩

/-- A permitted operation is carried on to its end. -/
theorem performs {operation : Operation .nothing} {purpose : Purpose}
    (rests : regime.Rests stage net)
    (bears : net.Bears number (taskOf purpose handle operation) loaded)
    (listed : net.directory[id]? = some handle) (permitted : regime.allowed stage id operation) :
    ∃ later outcome after ended, stage ≤ later ∧ regime.Rests later after ∧
      Straight number loaded ended ∧
      after.Bears number ⟨purpose, .nothing, .answer outcome, .root⟩ ended ∧
      after.now = net.now ∧ after.directory = net.directory ∧
      ∀ requester, operation = .reportMoved requester →
        after.backlog handle ≤ net.backlog handle := by
  obtain ⟨node, hnode, outcome, after, hyields, later, hlater, hholds, hcalm, hbacklog⟩ :=
    regime.serves number rests.holds rests.calm listed permitted
  have hturns := turns_of_start bears.found (bears.nodeAt? handle ▸ hnode)
  rw [bears.surroundings] at hturns
  obtain ⟨ended, hstraight, hended⟩ := hyields.straight bears rfl hnode hturns
  exact ⟨later, outcome, after, ended, hlater, ⟨hholds, hcalm⟩, hstraight, hended,
    hyields.unmoved.1, hyields.unmoved.2, hbacklog⟩

/-- A loop goes round until its next tick lies ahead. -/
theorem rounds (rests : regime.Rests stage net)
    (bears : net.Bears number ⟨.loop loop, .nothing, .answer outcome, .root⟩ loaded)
    (listed : net.directory[id]? = some loop.member)
    (permitted : regime.allowed stage id loop.operation) (paced : 1 ≤ loop.period) :
    ∃ later ended, stage ≤ later ∧ regime.Rests later ended ∧ Straight number loaded ended ∧
      ended.Stops number := by
  -- every round moves the next tick ahead
  induction hgap : net.now + 1 - loop.next using Nat.strongRecOn
    generalizing stage net loaded loop outcome with
  | ind gap ih =>
  have hactive := straight_step (canGoOn_of_active bears.found rfl)
  have hstep : loaded.step number = loaded.goRound number loop := step_root bears.found
  rw [hstep, goRound, bears.now] at hactive
  split at hactive
  · exact ⟨stage, _, le_refl stage, rests.dropped bears, hactive,
      Or.inl (by rw [getElem?_dropTask, if_pos rfl])⟩
  · split at hactive
    · rename_i hdue
      obtain ⟨later, answer, after, begun, hlater, hafter, hstraight, hbegun, hnow, hdirectory, -⟩ :=
        rests.performs (bears.putTask (taskOf (.loop { loop with next := nextTick net.now loop })
          loop.member loop.operation)) listed permitted
      have hahead : loop.next < nextTick net.now loop := by
        rw [nextTick]
        split <;> omega
      have hless : after.now + 1 - nextTick net.now loop < gap := by
        rw [hnow, ← hgap]
        exact Nat.sub_lt_sub_left (Nat.lt_succ_of_le hdue) hahead
      obtain ⟨last, ended, hlast, hended, hon, hstops⟩ := ih _ hless hafter hbegun
        (hdirectory ▸ listed) (regime.grows hlater _ _ permitted) paced rfl
      exact ⟨last, ended, le_trans hlater hlast, hended, (hactive.trans hstraight).trans hon, hstops⟩
    · have hidle := bears.putTask ⟨.loop loop, .nothing, .hold loop.next (.answer (.ok ())), .root⟩
      refine ⟨stage, _, le_refl stage, rests.bears hidle ?_, hactive, Or.inr ⟨_, hidle.found, ?_⟩⟩
      · exact .ticking listed permitted paced (Or.inr ⟨_, rfl⟩)
      · exact Option.some_ne_none _

/-- A sender goes on until no report is left. -/
theorem sends (rests : regime.Rests stage net)
    (bears : net.Bears number ⟨.sender handle, .nothing, .answer outcome, .root⟩ loaded)
    (listed : net.directory[id]? = some handle) :
    ∃ later ended, stage ≤ later ∧ regime.Rests later ended ∧ Straight number loaded ended ∧
      ended.Stops number := by
  -- every report leaves fewer reports
  induction hcount : net.backlog handle using Nat.strongRecOn
    generalizing stage net loaded outcome with
  | ind count ih =>
  have hactive := straight_step (canGoOn_of_active bears.found rfl)
  have hstep : loaded.step number = loaded.sendNext number handle := step_root bears.found
  rw [hstep, sendNext, bears.member?] at hactive
  split at hactive
  · exact ⟨stage, _, le_refl stage, rests.dropped bears, hactive,
      Or.inl (by rw [getElem?_dropTask, if_pos rfl])⟩
  · rename_i member hmember
    split at hactive
    · have hfreed : regime.Rests stage (net.setMember handle { member with sending := false }) :=
        ⟨regime.frame (.setMember hmember rfl) rests.holds, rests.calm.setMember hmember
          fun other hother => rests.calm.reports other handle member hother hmember⟩
      exact ⟨stage, _, le_refl stage, hfreed.dropped (bears.setMember handle _), hactive,
        Or.inl (by rw [getElem?_dropTask, if_pos rfl])⟩
    · rename_i requester rest hrest
      have howed (other : Token) (hother : net.directory[other]? = some handle) :=
        rests.calm.reports other handle member hother hmember
      have hsent : regime.Rests stage (net.setMember handle { member with outbox := rest }) := by
        refine ⟨regime.frame (.setMember hmember rfl) rests.holds, rests.calm.setMember hmember
          fun other hother asker hasker => howed other hother asker ?_⟩
        rw [Member.owed, hrest]
        exact List.mem_cons_of_mem requester hasker
      obtain ⟨later, answer, after, begun, hlater, hafter, hstraight, hbegun, -, hdirectory, hless⟩ :=
        hsent.performs ((bears.setMember handle { member with outbox := rest }).putTask
          (taskOf (.sender handle) handle (.reportMoved requester))) listed
          (howed id listed requester (by rw [Member.owed, hrest]; exact List.mem_cons_self ..))
      have hfewer : after.backlog handle < count := by
        refine Nat.lt_of_le_of_lt (hless requester rfl) ?_
        rw [← hcount, backlog, backlog, member?_setMember hmember, if_pos rfl, hmember,
          Option.elim_some, Option.elim_some, hrest]
        exact Nat.lt_succ_self _
      obtain ⟨last, ended, hlast, hended, hon, hstops⟩ :=
        ih _ hfewer hafter hbegun (hdirectory ▸ listed) rfl
      exact ⟨last, ended, le_trans hlater hlast, hended, (hactive.trans hstraight).trans hon, hstops⟩

/-- Whichever task is carried on, the network is at rest afterwards. -/
theorem runTask (rests : regime.Rests stage net) (number : Nat) :
    ∃ later, stage ≤ later ∧ regime.Rests later (net.runTask number) := by
  suffices h : ∃ later ended, stage ≤ later ∧ regime.Rests later ended ∧
      Straight number net ended ∧ ended.Stops number by
    obtain ⟨later, ended, hlater, hended, hstraight, hgone | ⟨task, hfound, hwaits⟩⟩ := h
    · exact ⟨later, hlater, hstraight.runTask_of_ended hgone ▸ hended⟩
    · refine ⟨later, hlater, hstraight.runTask_of_waits hfound hwaits ▸ ?_⟩
      refine hended.congr rfl rfl (fun _ _ h => h) fun numbered => ⟨numbered.tasks, numbered.ready,
        fun other hother => ?_⟩
      rcases List.mem_append.1 hother with hold | hnew
      · exact numbered.waiting other hold
      · rw [List.mem_singleton.1 hnew]
        exact numbered.tasks number task hfound
  cases hfound : net.tasks[number]? with
  | none => exact ⟨stage, net, le_refl stage, rests, Straight.refl number net, Or.inl hfound⟩
  | some task =>
      obtain ⟨hbears, hunloaded⟩ := rests.unload hfound
      cases rests.calm.tasks number task hfound with
      | background listed permitted =>
          obtain ⟨later, answer, after, ended, hlater, hafter, hstraight, hended, -⟩ :=
            hunloaded.performs hbears listed permitted
          have hstep : ended.step number = ended.dropTask number := step_root hended.found
          exact ⟨later, _, hlater, hafter.dropped hended,
            hstraight.trans (hstep ▸ straight_step (canGoOn_of_active hended.found rfl)),
            Or.inl (by rw [getElem?_dropTask, if_pos rfl])⟩
      | sender listed permitted =>
          obtain ⟨later, answer, after, ended, hlater, hafter, hstraight, hended, -, hdirectory, -⟩ :=
            hunloaded.performs hbears listed permitted
          obtain ⟨last, left, hlast, hleft, hon, hstops⟩ :=
            hafter.sends hended (hdirectory ▸ listed)
          exact ⟨last, left, le_trans hlater hlast, hleft, hstraight.trans hon, hstops⟩
      | ticking listed permitted paced idle =>
          rcases idle with rfl | ⟨moment, rfl⟩
          · exact hunloaded.rounds hbears listed permitted paced
          · exact ⟨stage, net, le_refl stage, rests, Straight.refl number net,
              Or.inr ⟨_, hfound, Option.some_ne_none _⟩⟩

/-- One of the tasks is overwritten by one that rests, and told to go on. -/
theorem revive (rests : regime.Rests stage net) (old : number < net.nextTask)
    (idle : task.Rests (regime.allowed stage) net.directory) :
    regime.Rests stage ((net.putTask number task).makeReady number) := by
  refine (rests.putTask old idle).congr rfl rfl (fun _ _ h => h) fun numbered =>
    ⟨numbered.tasks, fun other hother => ?_,
      fun other hother => numbered.waiting other (List.mem_of_mem_erase hother)⟩
  rcases List.mem_append.1 hother with hmem | hnew
  · exact numbered.ready other hmem
  · exact List.mem_singleton.1 hnew ▸ old

/-- A task that rests is started. -/
theorem spawn (rests : regime.Rests stage net)
    (idle : task.Rests (regime.allowed stage) net.directory) :
    regime.Rests stage (net.spawn task) :=
  ⟨regime.frame (.spawn net task) rests.holds, rests.calm.spawn idle⟩

/-- A task that waits for its tick is woken. -/
theorem wake (rests : regime.Rests stage net) (number : Nat) :
    regime.Rests stage (net.wake number) := by
  rw [Network.wake]
  split
  · rename_i purpose shape moment next stack hfound
    have hold := (regime.numbered rests.holds).tasks number _ hfound
    cases rests.calm.tasks number _ hfound with
    | ticking listed permitted paced idle =>
        rcases idle with hno | ⟨other, hidle⟩
        · cases hno
        · cases hidle
          exact rests.revive hold (.ticking listed permitted paced (Or.inl rfl))
  · rename_i hfound
    cases rests.calm.tasks number _ hfound with
    | ticking listed permitted paced idle =>
        rcases idle with hno | ⟨other, hno⟩
        · cases hno
        · cases hno
  · exact rests

/-- Time moves on. -/
theorem moveTo (rests : regime.Rests stage net) (moment : Nat) :
    regime.Rests stage (net.moveTo moment) := by
  have hmoved : regime.Rests stage { net with now := moment } :=
    rests.congr rfl rfl (fun _ _ h => h) fun numbered =>
      ⟨numbered.tasks, numbered.ready, numbered.waiting⟩
  rw [Network.moveTo]
  generalize ({ net with now := moment } : Network) = first at hmoved
  generalize net.waiting.filter _ = due
  induction due generalizing first with
  | nil => exact hmoved
  | cons number rest ih => exact ih _ (hmoved.wake number)

/-- Whatever can go on is carried on. -/
theorem settle (rests : regime.Rests stage net) (budget : Nat) :
    ∃ later, stage ≤ later ∧ regime.Rests later (net.settle budget) := by
  induction budget generalizing stage net with
  | zero => exact ⟨stage, le_refl stage, rests⟩
  | succ budget ih =>
      rw [Network.settle]
      split
      · exact ⟨stage, le_refl stage, rests⟩
      · rename_i number rest hready
        have htaken : regime.Rests stage { net with ready := rest } :=
          rests.congr rfl rfl (fun _ _ h => h) fun numbered => ⟨numbered.tasks,
            fun other hother => numbered.ready other (hready ▸ List.mem_cons_of_mem number hother),
            numbered.waiting⟩
        obtain ⟨later, hlater, hrun⟩ := htaken.runTask number
        obtain ⟨last, hlast, hsettled⟩ := ih hrun
        exact ⟨last, le_trans hlater hlast, hsettled⟩

/-- Time passes. -/
theorem elapse (rests : regime.Rests stage net) (budget moment : Nat) :
    ∃ later, stage ≤ later ∧ regime.Rests later (net.elapse budget moment) := by
  induction budget generalizing stage net with
  | zero => exact ⟨stage, le_refl stage, rests⟩
  | succ budget ih =>
      obtain ⟨settled, hsettled, hrests⟩ := rests.settle stepBudget
      rw [Network.elapse]
      split
      · rename_i next hnext
        split
        · obtain ⟨last, hlast, helapsed⟩ := ih (hrests.moveTo next)
          exact ⟨last, le_trans hsettled hlast, helapsed⟩
        · exact ⟨settled, hsettled, hrests.moveTo moment⟩
      · exact ⟨settled, hsettled, hrests.moveTo moment⟩

end Rests

end Regime

end Network

end RecordRing
