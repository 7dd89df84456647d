import RecordRing.Proofs.Network.Records
import RecordRing.Proofs.Network.Steps

/-!
# What a step of a task leads to

A turn of a member leads to the task that its action says (`leaves_work`), and every other step of a
task leads to one of a few tasks.  The members at which the operations of a task wait are there for
good (`Stack.Stands`), so a task ends in the midst of its work only when it calls a member that has
never been there.
-/

namespace RecordRing

/-! ## Plain tasks -/

/-- Whether all waiting operations are plain. -/
def Stack.plain {shape : Shape} : Stack shape → Bool
  | .root => true
  | .frame _ waiting below => waiting.plain && below.plain

/-- Whether what happens next touches no record. -/
def Control.plain {shape : Shape} : Control shape → Bool
  | .answer _ => true
  | .start _ operation => operation.plain
  | .send _ request => request.plain
  | .arrive _ request => request.plain
  | .access _ call => call.plain
  | .hold _ next => next.plain
  | .queue .. => false

theorem Control.plain_after {shape : Shape} (now delay : Nat) {next : Control shape}
    (plain : next.plain = true) : (Control.after now delay next).plain = true := by
  rw [after]
  split
  · exact plain
  · exact plain

/-- An operation that is only acknowledged touches no record on its own. -/
theorem Operation.plain_of_nothing (operation : Operation .nothing) : operation.plain = true := by
  cases operation with
  | serve request =>
      cases request with
      | record call => cases call
      | _ => rfl
  | attempt call => cases call
  | _ => rfl

/-- Members stand at all places where operations wait. -/
def Stack.Stands {shape : Shape} (net : Network) : Stack shape → Prop
  | .root => True
  | .frame handle _ below => net.Present handle ∧ below.Stands net

theorem Stack.Stands.mono {shape : Shape} {net after : Network} {stack : Stack shape}
    (present : ∀ handle, net.Present handle → after.Present handle) (h : stack.Stands net) :
    stack.Stands after := by
  induction stack with
  | root => trivial
  | frame handle waiting below ih => exact ⟨present _ h.1, ih h.2⟩

theorem Stack.Stands.of_mem_guards {shape : Shape} {net : Network} {stack : Stack shape}
    {handle : Handle} {id : LockId} (h : stack.Stands net) (guards : (handle, id) ∈ stack.guards) :
    net.Present handle := by
  induction stack with
  | root => cases guards
  | frame place waiting below ih =>
      rcases List.mem_append.1 guards with hfirst | hrest
      · obtain ⟨name, -, heq⟩ := List.mem_map.1 hfirst
        obtain ⟨rfl, -⟩ := Prod.mk.inj heq
        exact h.1
      · exact ih h.2 hrest

/-! ## What a turn leads to -/

/-- The task that an action of a member leads to, under the operations that wait for its result. -/
inductive Action.Leaves (purpose : Purpose) (handle : Handle) {result : Shape}
    (below : Stack result) : Action result → Task → Prop where
  | reply (outcome : Outcome result) :
      Leaves purpose handle below (.reply outcome) ⟨purpose, result, .answer outcome, below⟩
  | own {shape : Shape} (request : Request shape) (frame : Frame shape result) :
      Leaves purpose handle below (.ask .own request frame)
        ⟨purpose, shape, .start handle (.serve request), .frame handle frame below⟩
  | remote {shape : Shape} (peer : Handle) (request : Request shape) (frame : Frame shape result) :
      Leaves purpose handle below (.ask (.remote peer) request frame)
        ⟨purpose, shape, .send peer request, .frame handle frame below⟩
  | run {shape : Shape} (operation : Operation shape) (frame : Frame shape result) :
      Leaves purpose handle below (.run operation frame)
        ⟨purpose, shape, .start handle operation, .frame handle frame below⟩
  | call {shape : Shape} (asked : StoreCall shape) (frame : Frame shape result) (now delay : Nat) :
      Leaves purpose handle below (.call asked frame)
        ⟨purpose, shape, .after now delay (.access handle asked), .frame handle frame below⟩
  | sleep (millis : Nat) (frame : Frame .nothing result) (now : Nat) :
      Leaves purpose handle below (.sleep millis frame)
        ⟨purpose, .nothing, .after now millis (.answer (.ok ())), .frame handle frame below⟩
  | taken (id : LockId) (frame : Frame .nothing result) (outcome : Outcome .nothing) :
      Leaves purpose handle below (.lock id frame)
        ⟨purpose, .nothing, .answer outcome, .frame handle frame below⟩
  | queued (id : LockId) (frame : Frame .nothing result) (deadline : Nat) :
      Leaves purpose handle below (.lock id frame)
        ⟨purpose, .nothing, .queue handle id deadline, .frame handle frame below⟩

namespace Network

variable {net after : Network} {number : Nat} {handle : Handle} {shape result : Shape}
  {purpose : Purpose} {node : Node}

theorem leaves_act {member : Member} (found : net.member? handle = some member)
    (below : Stack result) (action : Action result) :
    ∃ task, (net.act number purpose handle below action).tasks[number]? = some task ∧
      action.Leaves purpose handle below task := by
  cases action with
  | reply outcome => exact ⟨_, getElem?_putTask_self _, .reply outcome⟩
  | ask contact request frame =>
      cases contact with
      | own => exact ⟨_, getElem?_putTask_self _, .own request frame⟩
      | remote peer => exact ⟨_, getElem?_putTask_self _, .remote peer request frame⟩
  | run operation frame => exact ⟨_, getElem?_putTask_self _, .run operation frame⟩
  | call asked frame => exact ⟨_, getElem?_putTask_self _, .call asked frame _ _⟩
  | sleep millis frame => exact ⟨_, getElem?_putTask_self _, .sleep millis frame _⟩
  | lock id frame =>
      simp only [act, found]
      refine ⟨_, getElem?_putTask_self _, ?_⟩
      split
      · exact .taken id frame _
      · exact .queued id frame _
      · exact .taken id frame _

/-- A turn of a member leads to the task that its action says. -/
theorem leaves_work (found : net.nodeAt? handle = some node)
    (turn : Node → Surroundings → Turn result) (below : Stack result) :
    ∃ task, (net.work number purpose handle below turn).tasks[number]? = some task ∧
      (turn node net.surroundings).action.Leaves purpose handle below task := by
  obtain ⟨member, hm, rfl⟩ := nodeAt?_eq_some.1 found
  simp only [work, hm]
  let done := turn member.node net.surroundings
  let changed := net.setMember handle { member with node := done.node }
  have hchanged : changed.member? handle = some { member with node := done.node } := by
    rw [member?_setMember hm, if_pos rfl]
  have hlater : ∀ (effects : List Effect) {mid : Network} {member : Member},
      mid.member? handle = some member → ∃ later,
        (effects.foldl (fun left effect => left.perform handle effect) mid).member? handle =
          some later := by
    intro effects
    induction effects with
    | nil => exact fun h => ⟨_, h⟩
    | cons effect rest ih =>
        intro mid member h
        obtain ⟨next, hnext⟩ := exists_member_perform h effect
        exact ih hnext
  obtain ⟨later, hfound⟩ := hlater done.effects hchanged
  exact leaves_act hfound below done.action

/-- A member that is missing ends the task. -/
theorem work_of_none (missing : net.nodeAt? handle = none)
    (turn : Node → Surroundings → Turn result) (below : Stack result) :
    net.work number purpose handle below turn = net.dropTask number := by
  have hm : net.member? handle = none := Option.map_eq_none_iff.1 missing
  simp only [work, hm]

end Network

namespace Network

variable {net after : Network} {number : Nat} {handle : Handle} {shape result : Shape}
  {purpose : Purpose}

variable {frame : Frame shape result} {outcome : Outcome shape} {below : Stack result}
  {operation : Operation shape} {request : Request shape} {call : StoreCall shape}
  {stack : Stack shape} {peer : Handle}

theorem step_root (h : net.tasks[number]? = some ⟨purpose, shape, .answer outcome, .root⟩) :
    net.step number = net.finish number outcome purpose := by
  simp only [step, h]

theorem step_answer
    (h : net.tasks[number]? = some ⟨purpose, shape, .answer outcome, .frame handle frame below⟩) :
    net.step number =
      net.work number purpose handle below fun node around => node.resume around frame outcome := by
  simp only [step, h]

theorem step_start
    (h : net.tasks[number]? = some ⟨purpose, shape, .start handle operation, stack⟩) :
    net.step number =
      net.work number purpose handle stack fun node around => node.start around operation := by
  simp only [step, h]

theorem step_send (h : net.tasks[number]? = some ⟨purpose, shape, .send peer request, stack⟩) :
    net.step number = net.send number purpose peer request stack := by
  simp only [step, h]

theorem step_arrive (h : net.tasks[number]? = some ⟨purpose, shape, .arrive peer request, stack⟩) :
    net.step number = net.arrive number purpose peer request stack := by
  simp only [step, h]

theorem step_access (h : net.tasks[number]? = some ⟨purpose, shape, .access handle call, stack⟩) :
    net.step number = net.access number purpose handle call stack := by
  simp only [step, h]

/-- A call that is sent arrives at the end of the link, possibly after a delay. -/
theorem task_send (net : Network) (number : Nat) (purpose : Purpose) (peer : Handle)
    (request : Request shape) (stack : Stack shape) : ∃ now delay,
      (net.send number purpose peer request stack).tasks[number]? =
        some ⟨purpose, shape, .after now delay (.arrive peer request), stack⟩ := by
  cases found : net.member? peer with
  | none =>
      simp only [send, found]
      refine ⟨0, 0, getElem?_putTask_self _⟩
  | some member =>
      simp only [send, found]
      exact ⟨_, _, getElem?_putTask_self _⟩

/-- A call that arrives ends the task, fails, or is served. -/
theorem task_arrive (members : ∀ handle, net.script? handle = none) (number : Nat)
    (purpose : Purpose) (peer : Handle) (request : Request shape) (stack : Stack shape) :
    (net.arrive number purpose peer request stack).tasks[number]? = none ∨
    (∃ failure, (net.arrive number purpose peer request stack).tasks[number]? =
      some ⟨purpose, shape, .answer (.error failure), stack⟩) ∨
    (net.arrive number purpose peer request stack).tasks[number]? =
      some ⟨purpose, shape, .start peer (.serve request), stack⟩ := by
  rw [arrive]
  split
  · refine Or.inl ?_
    rw [getElem?_dropTask, if_pos rfl]
  · rename_i script hscript
    have hnone := members peer
    rw [script?, hscript] at hnone
    cases hnone
  · split
    · exact Or.inr (Or.inl ⟨_, getElem?_putTask_self _⟩)
    · exact Or.inr (Or.inr (getElem?_putTask_self _))

/-- A task that has ended is gone, or it goes on with an operation that touches no record; a task of
one operation is gone. -/
theorem task_finish (net : Network) (number : Nat) (outcome : Outcome shape) (purpose : Purpose) :
    (net.finish number outcome purpose).tasks[number]? = none ∨
    purpose ≠ .client [] ∧ ∃ next control, control.plain = true ∧
      (net.finish number outcome purpose).tasks[number]? =
        some ⟨next, .nothing, control, .root⟩ := by
  obtain ⟨mid, -, -, -, heq | ⟨hmany, next, control, heq, hcontrol⟩⟩ :=
    finish_cases net number outcome purpose
  · rw [heq, getElem?_dropTask, if_pos rfl]
    exact .inl rfl
  · have hplain : control.plain = true := by
      rcases hcontrol with ⟨handle, operation, rfl⟩ | ⟨moment, outcome, rfl⟩
      · exact operation.plain_of_nothing
      · rfl
    rw [heq]
    exact .inr ⟨hmany, next, control, hplain, getElem?_putTask_self _⟩

/-! ## Records that appear -/

/-- A record appears in a store only when the store creates it. -/
theorem creating_of_appears {id : LockId} {stored : Stored} (gone : net.stored? handle id = none)
    (later : (net.step number).stored? handle id = some stored) :
    ∃ purpose content version stack, net.tasks[number]? = some ⟨purpose, .version,
      .access handle (.record (.create id.storage id.key content version)), stack⟩ := by
  have hchanged : ¬ net.Steady (net.step number) := fun steady => by
    rw [steady.stored?, gone] at later
    cases later
  have hother : (∀ purpose shape place (call : StoreCall shape) stack,
      net.tasks[number]? ≠ some ⟨purpose, shape, .access place call, stack⟩) → False :=
    fun h => hchanged (steady_step number h)
  cases htask : net.tasks[number]? with
  | none => exact (hother fun _ _ _ _ _ h => nomatch htask.symm.trans h).elim
  | some task =>
      obtain ⟨purpose, shape, control, stack⟩ := task
      cases control with
      | access place call =>
          have hstep := step_access htask
          cases found : net.nodeAt? place with
          | none =>
              refine absurd ?_ hchanged
              rw [hstep, access_of_none found]
              exact .of_member? rfl
          | some node =>
              have hsame : (node.store.perform node.config.credential call).2 = node.store →
                  False := by
                intro hsame
                refine hchanged ?_
                rw [hstep, access_same found number purpose stack hsame]
                exact .of_member? rfl
              cases call with
              | keys storage => exact (hsame rfl).elim
              | names => exact (hsame rfl).elim
              | record call =>
                  have hcarried := carried_access found number purpose call stack
                  rw [← hstep] at hcarried
                  -- the record that has been written is the one that appears
                  have hwritten : ∀ {name value}, net.Writes (net.step number) place name value →
                      place = handle ∧ name = id ∧ value = some stored := by
                    intro name value writes
                    rw [writes.stored?, gone] at later
                    split at later
                    · rename_i heq
                      obtain ⟨hplace, hname⟩ := Prod.mk.inj heq
                      exact ⟨hplace, hname, later⟩
                    · cases later
                  revert hcarried
                  generalize (node.store.perform node.config.credential (.record call)).1 = answer
                  intro hcarried
                  cases hcarried with
                  | idle idles steady => exact absurd steady hchanged
                  | created storage key content version free writes =>
                      obtain ⟨rfl, rfl, -⟩ := hwritten writes
                      exact ⟨purpose, content, version, stack, rfl⟩
                  | updated storage key content copy small writes =>
                      obtain ⟨rfl, rfl, -⟩ := hwritten writes
                      rw [gone] at copy
                      cases copy
                  | overran storage key content copy large writes =>
                      obtain ⟨rfl, rfl, -⟩ := hwritten writes
                      rw [gone] at copy
                      cases copy
                  | deleted storage key copy writes =>
                      obtain ⟨-, -, hvalue⟩ := hwritten writes
                      cases hvalue
      | _ =>
          refine (hother fun _ _ _ _ _ h => ?_).elim
          rw [htask] at h
          cases h

/-! ## Members that stay -/

theorem Akin.present (akin : net.Akin after) (h : net.Present handle) : after.Present handle := by
  obtain ⟨node, found⟩ := h
  have hnodes := akin.nodes handle
  rw [found, Option.map_some] at hnodes
  obtain ⟨later, hlater, -⟩ := Option.map_eq_some_iff.1 hnodes
  exact ⟨later, hlater⟩

theorem present_setNode (h : net.Present handle) (other : Handle) (node : Node) :
    (net.setNode other node).Present handle := by
  obtain ⟨old, found⟩ := h
  rw [Present, nodeAt?_setNode, found]
  split
  · exact ⟨node, rfl⟩
  · exact ⟨old, rfl⟩

/-- A step removes no member. -/
theorem present_step (members : ∀ handle, net.script? handle = none) (number : Nat)
    (h : net.Present handle) : (net.step number).Present handle := by
  rcases akin_step_or_turn members number with hakin | ⟨_, _, _, _, _, _, -, -, hakin⟩ |
    ⟨_, _, _, _, _, _, _, _, -, -, hakin⟩
  · exact hakin.present h
  · exact hakin.present (present_setNode h _ _)
  · exact hakin.present (present_setNode h _ _)

/-- The waiting operations stay, with the one that a turn leaves behind on top of them. -/
theorem stands_of_leaves {node : Node} {below : Stack result} {action : Action result} {task : Task}
    (found : net.nodeAt? handle = some node) (stands : below.Stands net)
    (leaves : action.Leaves purpose handle below task) : task.stack.Stands net := by
  cases leaves with
  | reply outcome => exact stands
  | _ => exact ⟨⟨node, found⟩, stands⟩

theorem stands_of_work {turn : Node → Surroundings → Turn result} {below : Stack result}
    {next : Task}
    (stands : below.Stands net)
    (h : (net.work number purpose handle below turn).tasks[number]? = some next) :
    next.stack.Stands net := by
  cases found : net.nodeAt? handle with
  | none =>
      rw [work_of_none found, getElem?_dropTask, if_pos rfl] at h
      cases h
  | some node =>
      obtain ⟨task, htask, hleaves⟩ : ∃ task,
          (net.work number purpose handle below turn).tasks[number]? = some task ∧
          (turn node net.surroundings).action.Leaves purpose handle below task :=
        leaves_work found turn below
      rw [htask, Option.some.injEq] at h
      exact h ▸ stands_of_leaves found stands hleaves

/-- A step leaves members at all places where the operations of its task wait. -/
theorem stands_step (members : ∀ handle, net.script? handle = none) {task next : Task}
    (htask : net.tasks[number]? = some task) (stands : task.stack.Stands net)
    (h : (net.step number).tasks[number]? = some next) : next.stack.Stands (net.step number) := by
  refine Stack.Stands.mono (fun _ => present_step members number) ?_
  obtain ⟨purpose, shape, control, stack⟩ := task
  have hsame : ∀ {control : Control shape},
      (net.step number).tasks[number]? = some ⟨purpose, shape, control, stack⟩ →
      next.stack.Stands net := by
    intro control hfound
    rw [hfound, Option.some.injEq] at h
    exact h ▸ stands
  cases control with
  | answer outcome =>
      cases stack with
      | root =>
          rw [step_root htask] at h
          rcases task_finish net number outcome purpose with hnone | ⟨-, later, control, -, hsome⟩
          · rw [hnone] at h
            cases h
          · rw [hsome, Option.some.injEq] at h
            exact h ▸ trivial
      | frame handle frame below =>
          rw [step_answer htask] at h
          exact stands_of_work stands.2 h
  | start handle operation =>
      rw [step_start htask] at h
      exact stands_of_work stands h
  | send peer request =>
      obtain ⟨now, delay, hfound⟩ := task_send net number purpose peer request stack
      rw [step_send htask] at hsame
      exact hsame hfound
  | arrive peer request =>
      rw [step_arrive htask] at h hsame
      rcases task_arrive members number purpose peer request stack with hnone | ⟨failure, hfound⟩ |
        hfound
      · rw [hnone] at h
        cases h
      · exact hsame hfound
      · exact hsame hfound
  | access handle call =>
      rw [step_access htask] at h hsame
      cases found : net.nodeAt? handle with
      | none =>
          rw [access_of_none found, getElem?_dropTask, if_pos rfl] at h
          cases h
      | some node =>
          obtain ⟨outcome, -, haccess⟩ := access_eq found number purpose call stack
          refine @hsame (.answer outcome) ?_
          rw [haccess]
          exact getElem?_putTask_self _
  | hold moment control =>
      have hstep : net.step number = net := by simp only [step, htask]
      rw [hstep] at hsame
      exact hsame htask
  | queue handle id deadline =>
      have hstep : net.step number = net := by simp only [step, htask]
      rw [hstep] at hsame
      exact hsame htask

end Network

end RecordRing
