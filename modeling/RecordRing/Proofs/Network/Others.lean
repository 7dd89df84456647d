import RecordRing.Proofs.Network.Exclusion

/-!
# What a step of one task means to the others

A step of a task leaves every other task where it stands, except that it may grant a lock that
another task waits for, and it may start new tasks, which are plain (`becomes_step`).  It leaves the
records of all nodes in place unless a store carries out a call (`steady_step`).
-/

namespace RecordRing

/-- A node's name, its records and its tunables. -/
def Node.holding (node : Node) : Token × Store × Config := (node.id, node.store, node.config)

/-- What becomes of the task of a number, if there is one, while another one takes a step. -/
inductive Task.Becomes (nextTask other : Nat) : Option Task → Task → Prop where
  /-- The task stands where it stood. -/
  | same (task : Task) : Becomes nextTask other (some task) task
  /-- The task has been granted the lock that it waited for. -/
  | granted (purpose : Purpose) (handle : Handle) (id : LockId) (deadline : Nat)
      (stack : Stack .nothing) :
      Becomes nextTask other (some ⟨purpose, .nothing, .queue handle id deadline, stack⟩)
        ⟨purpose, .nothing, .answer (.ok ()), stack⟩
  /-- The task is new, and its number has not been given to any other. -/
  | spawned {purpose : Purpose} (handle : Handle) {shape : Shape} {operation : Operation shape}
      (late : nextTask ≤ other) (later : purpose.All fun _ operation => operation.plain = true)
      (plain : operation.plain = true) :
      Becomes nextTask other none (Network.taskOf purpose handle operation)

theorem Task.Becomes.trans {nextTask later other : Nat} {first : Option Task} {task last : Task}
    (h : Becomes nextTask other first task) (h' : Becomes later other (some task) last) :
    Becomes nextTask other first last := by
  cases h' with
  | same => exact h
  | granted purpose handle id deadline stack =>
      cases h with
      | same => exact .granted purpose handle id deadline stack

theorem Task.Becomes.sooner {nextTask later other : Nat} {first : Option Task} {task : Task}
    (h : Becomes later other first task) (le : nextTask ≤ later) :
    Becomes nextTask other first task := by
  cases h with
  | same => exact .same task
  | granted purpose handle id deadline stack => exact .granted purpose handle id deadline stack
  | spawned handle late later plain => exact .spawned handle (Nat.le_trans le late) later plain

namespace Network

variable {net after last : Network} {number other : Nat} {handle : Handle} {shape result : Shape}
  {purpose : Purpose} {member : Member} {old task : Task} {effect : Effect}

/-! ## Records -/

/-- Every node has kept its records. -/
structure Steady (net after : Network) : Prop where
  nodes : ∀ handle, (after.nodeAt? handle).map Node.holding = (net.nodeAt? handle).map Node.holding

namespace Steady

theorem refl (net : Network) : net.Steady net := ⟨fun _ => rfl⟩

theorem trans (h : net.Steady after) (h' : after.Steady last) : net.Steady last :=
  ⟨fun handle => (h'.nodes handle).trans (h.nodes handle)⟩

theorem of_member? (h : after.member? = net.member?) : net.Steady after :=
  ⟨fun handle => by rw [nodeAt?, h, nodeAt?]⟩

theorem setMember (found : net.member? handle = some member) {new : Member}
    (same : new.node.holding = member.node.holding) : net.Steady (net.setMember handle new) := by
  refine ⟨fun other => ?_⟩
  rw [nodeAt?_setMember found]
  split
  · rename_i h
    subst h
    rw [nodeAt?_of_member? found, Option.map_some, Option.map_some, same]
  · rfl

theorem of_alike (h : net.Alike after) : net.Steady after :=
  ⟨fun handle => by rw [h.nodeAt?]⟩

end Steady

theorem steady_perform (net : Network) (handle : Handle) (effect : Effect) :
    net.Steady (net.perform handle effect) := by
  cases found : net.member? handle with
  | none =>
      rw [perform_none found]
      exact .refl net
  | some member =>
      cases effect with
      | release id =>
          rw [perform_release found]
          have hfreed : net.Steady (net.setMember handle
              (member.withLocks (member.node.locks.release id).2)) := .setMember found rfl
          split
          · exact hfreed.trans (.of_member? member?_grant)
          · exact hfreed
      | spawn operation =>
          rw [perform_spawn found]
          exact .of_member? rfl
      | announce requester =>
          rw [perform_announce found]
          split
          · exact .setMember found rfl
          · have hsending : net.Steady (net.setMember handle { member with sending := true }) :=
              .setMember found rfl
            exact hsending.trans (.of_member? (member?_spawn _))
      | tally counter =>
          rw [perform_tally found]
          exact .of_member? rfl

theorem steady_performs (net : Network) (handle : Handle) (effects : List Effect) :
    net.Steady (effects.foldl (fun left effect => left.perform handle effect) net) := by
  induction effects generalizing net with
  | nil => exact .refl net
  | cons effect rest ih => exact (steady_perform net handle effect).trans (ih _)

theorem steady_act (net : Network) (number : Nat) (purpose : Purpose) (handle : Handle)
    (below : Stack result) (action : Action result) :
    net.Steady (net.act number purpose handle below action) := by
  cases action with
  | reply outcome => exact .of_member? rfl
  | ask contact request frame =>
      cases contact with
      | own => exact .of_member? rfl
      | remote peer => exact .of_member? rfl
  | run operation frame => exact .of_member? rfl
  | call call frame => exact .of_member? rfl
  | sleep millis frame => exact .of_member? rfl
  | lock id frame =>
      cases found : net.member? handle with
      | none =>
          simp only [act, found]
          exact .refl net
      | some member =>
          simp only [act, found]
          let locks := (member.node.locks.acquire id net.now
            ⟨number, net.now + member.node.config.lockTimeout⟩).2
          have hlocked : net.Steady (net.setMember handle (member.withLocks locks)) :=
            .setMember found rfl
          exact hlocked.trans (.of_member? rfl)

theorem steady_work {turn : Node → Surroundings → Turn result} {below : Stack result}
    {hold : Option LockId} {plain : Bool}
    (orderly : ∀ node, net.nodeAt? handle = some node →
      (turn node net.surroundings).Orderly node hold plain) :
    net.Steady (net.work number purpose handle below turn) := by
  cases found : net.member? handle with
  | none =>
      simp only [work, found]
      exact .of_member? rfl
  | some member =>
      have hsame := (orderly _ (nodeAt?_of_member? found)).same
      have hholding : (turn member.node net.surroundings).node.holding = member.node.holding :=
        congrArg (fun belongings => (belongings.1, belongings.2.1, belongings.2.2.2)) hsame
      simp only [work, found]
      exact (Steady.setMember found hholding).trans
        ((steady_performs _ handle _).trans (steady_act _ number purpose handle below _))

theorem steady_finish (net : Network) (number : Nat) (outcome : Outcome shape)
    (purpose : Purpose) : net.Steady (net.finish number outcome purpose) := by
  obtain ⟨mid, halike, -, -, heq | ⟨-, next, control, heq, -⟩⟩ :=
    finish_cases net number outcome purpose
  · rw [heq]
    exact (Steady.of_alike halike).trans (.of_member? rfl)
  · rw [heq]
    exact (Steady.of_alike halike).trans (.of_member? rfl)

theorem steady_send (net : Network) (number : Nat) (purpose : Purpose) (peer : Handle)
    (request : Request shape) (stack : Stack shape) :
    net.Steady (net.send number purpose peer request stack) := by
  cases found : net.member? peer with
  | none =>
      simp only [send, found]
      exact .of_member? rfl
  | some member =>
      simp only [send, found]
      have hcounted : net.Steady (net.setMember peer
          { member with link := member.link.counting request.method }) := .setMember found rfl
      exact hcounted.trans (.of_member? rfl)

theorem steady_arrive (net : Network) (number : Nat) (purpose : Purpose) (peer : Handle)
    (request : Request shape) (stack : Stack shape) :
    net.Steady (net.arrive number purpose peer request stack) := by
  rw [arrive]
  split
  · exact .of_member? rfl
  · rename_i script hscript
    refine .of_member? ?_
    funext other
    by_cases h : peer = other
    · subst h
      have hsize := (Array.getElem?_eq_some_iff.1 hscript).1
      have hnone : net.member? peer = none := by rw [member?, hscript]
      rw [hnone]
      simp [member?, setScript, putTask, hsize]
    · simp [member?, setScript, putTask, h]
  · split <;> exact .of_member? rfl

/-- Only the carrying out of a call on a store changes records. -/
theorem steady_step (number : Nat)
    (other : ∀ purpose shape handle (call : StoreCall shape) stack,
      net.tasks[number]? ≠ some ⟨purpose, shape, .access handle call, stack⟩) :
    net.Steady (net.step number) := by
  rw [step]
  split
  · exact .refl net
  · exact steady_finish ..
  · rename_i purpose shape outcome result handle frame below htask
    exact steady_work fun node _ => node.orderly_resume net.surroundings frame outcome
  · rename_i purpose shape handle operation stack htask
    exact steady_work fun node _ => node.orderly_start net.surroundings operation
  · exact steady_send ..
  · exact steady_arrive ..
  · rename_i purpose shape handle call stack htask
    exact absurd htask (other purpose shape handle call stack)
  · exact .refl net
  · exact .refl net

theorem steady_wake (net : Network) (number : Nat) : net.Steady (net.wake number) := by
  rw [wake]
  split
  · exact .of_member? rfl
  · rename_i purpose handle id deadline stack htask
    split
    · exact .of_member? rfl
    · rename_i member found
      have hfreed : net.Steady (net.setMember handle
          (member.withLocks (member.node.locks.withdraw id number))) := .setMember found rfl
      exact hfreed.trans (.of_member? rfl)
  · exact .refl net

/-! ## Numbers of tasks -/

theorem nextTask_grant (net : Network) (number : Nat) :
    (net.grant number).nextTask = net.nextTask := by
  rw [grant]
  split <;> rfl

theorem nextTask_perform (net : Network) (handle : Handle) (effect : Effect) :
    net.nextTask ≤ (net.perform handle effect).nextTask := by
  cases found : net.member? handle with
  | none => exact Nat.le_of_eq (congrArg nextTask (perform_none found effect).symm)
  | some member =>
      cases effect with
      | release id =>
          rw [perform_release found]
          split
          · rw [nextTask_grant]
            exact Nat.le_refl _
          · exact Nat.le_refl _
      | spawn operation =>
          rw [perform_spawn found]
          exact Nat.le_succ _
      | announce requester =>
          rw [perform_announce found]
          split
          · exact Nat.le_refl _
          · exact Nat.le_succ _
      | tally counter =>
          rw [perform_tally found]
          exact Nat.le_refl _

theorem nextTask_performs (net : Network) (handle : Handle) (effects : List Effect) :
    net.nextTask ≤
      (effects.foldl (fun left effect => left.perform handle effect) net).nextTask := by
  induction effects generalizing net with
  | nil => exact Nat.le_refl _
  | cons effect rest ih => exact Nat.le_trans (nextTask_perform net handle effect) (ih _)

theorem nextTask_act (net : Network) (number : Nat) (purpose : Purpose) (handle : Handle)
    (below : Stack result) (action : Action result) :
    (net.act number purpose handle below action).nextTask = net.nextTask := by
  cases action with
  | ask contact request frame => cases contact <;> rfl
  | lock id frame =>
      cases found : net.member? handle with
      | none => simp only [act, found]
      | some member =>
          simp only [act, found]
          rfl
  | _ => rfl

theorem nextTask_work (net : Network) (number : Nat) (purpose : Purpose) (handle : Handle)
    (below : Stack result) (turn : Node → Surroundings → Turn result) :
    net.nextTask ≤ (net.work number purpose handle below turn).nextTask := by
  cases found : net.member? handle with
  | none =>
      simp only [work, found]
      exact Nat.le_refl _
  | some member =>
      simp only [work, found]
      rw [nextTask_act]
      exact nextTask_performs (net.setMember handle _) handle _

theorem nextTask_finish (net : Network) (number : Nat) (outcome : Outcome shape)
    (purpose : Purpose) : (net.finish number outcome purpose).nextTask = net.nextTask := by
  obtain ⟨mid, -, -, hsame, heq | ⟨-, next, control, heq, -⟩⟩ :=
    finish_cases net number outcome purpose
  · rw [heq]
    exact hsame
  · rw [heq]
    exact hsame

/-- A step takes no number back. -/
theorem nextTask_step (net : Network) (number : Nat) :
    net.nextTask ≤ (net.step number).nextTask := by
  rw [step]
  split
  · exact Nat.le_refl _
  · exact Nat.le_of_eq (nextTask_finish ..).symm
  · exact nextTask_work ..
  · exact nextTask_work ..
  · rename_i purpose shape peer request stack htask
    cases found : net.member? peer <;> simp only [send, found] <;> exact Nat.le_refl _
  · rw [arrive]
    split
    · exact Nat.le_refl _
    · exact Nat.le_refl _
    · split <;> exact Nat.le_refl _
  · rename_i purpose shape handle call stack htask
    cases found : net.member? handle <;> simp only [access, found] <;> exact Nat.le_refl _
  · exact Nat.le_refl _
  · exact Nat.le_refl _

theorem nextTask_wake (net : Network) (number : Nat) :
    (net.wake number).nextTask = net.nextTask := by
  rw [wake]
  split
  · rfl
  · split <;> rfl
  · rfl

/-! ## Other tasks -/

theorem becomes_same (h : net.tasks[other]? = some task) :
    Task.Becomes net.nextTask other net.tasks[other]? task := by
  rw [h]
  exact .same task

/-- Putting one task in its place leaves the others where they stand. -/
theorem becomes_putTask (net : Network) (number : Nat) (new : Task) (ne : other ≠ number)
    (h : (net.putTask number new).tasks[other]? = some task) :
    Task.Becomes net.nextTask other net.tasks[other]? task := by
  rw [getElem?_putTask, if_neg ne.symm] at h
  exact becomes_same h

theorem becomes_dropTask (net : Network) (number : Nat)
    (h : (net.dropTask number).tasks[other]? = some task) :
    Task.Becomes net.nextTask other net.tasks[other]? task := by
  rw [getElem?_dropTask] at h
  split at h
  · cases h
  · exact becomes_same h

theorem becomes_spawn {holdings : Nat → List (Handle × LockId)} (books : net.Exclusive holdings)
    (handle : Handle) {operation : Operation shape}
    (later : purpose.All fun _ operation => operation.plain = true) (plain : operation.plain = true)
    (h : (net.spawn (taskOf purpose handle operation)).tasks[other]? = some task) :
    Task.Becomes net.nextTask other net.tasks[other]? task := by
  rw [Exclusive.getElem?_spawn] at h
  split at h
  · rename_i heq
    rw [← heq, books.next_free, ← Option.some.inj h]
    exact .spawned handle (Nat.le_refl _) later plain
  · exact becomes_same h

theorem becomes_grant (net : Network) (number : Nat)
    (h : (net.grant number).tasks[other]? = some task) :
    Task.Becomes net.nextTask other net.tasks[other]? task := by
  rw [grant] at h
  split at h
  · rename_i purpose handle id deadline stack hqueued
    have hput : ((net.putTask number ⟨purpose, .nothing, .answer (.ok ()), stack⟩).makeReady
        number).tasks[other]? =
          if number = other then some ⟨purpose, .nothing, .answer (.ok ()), stack⟩
          else net.tasks[other]? := getElem?_putTask _ other
    rw [hput] at h
    split at h
    · rename_i heq
      rw [← heq, hqueued, ← Option.some.inj h]
      exact .granted purpose handle id deadline stack
    · exact becomes_same h
  · exact becomes_same h

theorem becomes_perform {holdings : Nat → List (Handle × LockId)} (books : net.Exclusive holdings)
    (spawns : ∀ operation, effect = .spawn operation → operation.plain = true)
    (h : (net.perform handle effect).tasks[other]? = some task) :
    Task.Becomes net.nextTask other net.tasks[other]? task := by
  cases found : net.member? handle with
  | none =>
      rw [perform_none found] at h
      exact becomes_same h
  | some member =>
      cases effect with
      | release id =>
          rw [perform_release found] at h
          let freed := net.setMember handle (member.withLocks (member.node.locks.release id).2)
          split at h
          · rename_i next hnext
            have hgrant : Task.Becomes freed.nextTask other freed.tasks[other]? task :=
              becomes_grant freed next h
            exact hgrant
          · exact becomes_same h
      | spawn operation =>
          rw [perform_spawn found] at h
          have hlater : Purpose.background.All fun _ operation => operation.plain = true := trivial
          exact becomes_spawn books handle hlater (spawns operation rfl) h
      | announce requester =>
          rw [perform_announce found] at h
          split at h
          · exact becomes_same h
          · have hsending : Exclusive holdings
                (net.setMember handle { member with sending := true }) :=
              books.of_same (lock?_setMember_same found rfl) rfl rfl
            have hlater : (Purpose.sender handle).All fun _ operation => operation.plain = true :=
              trivial
            have hspawn := becomes_spawn hsending handle hlater rfl h
            exact hspawn
      | tally counter =>
          rw [perform_tally found] at h
          exact becomes_same h

theorem none_of_putTask {mid : Network} {key : Nat} {new : Task} (same : mid.tasks = net.tasks)
    (h : (mid.putTask key new).tasks[other]? = none) : net.tasks[other]? = none := by
  rw [getElem?_putTask] at h
  split at h
  · cases h
  · rw [← same]
    exact h

theorem none_of_dropTask {mid : Network} (same : mid.tasks = net.tasks) (ne : other ≠ number)
    (h : (mid.dropTask number).tasks[other]? = none) : net.tasks[other]? = none := by
  rw [getElem?_dropTask, if_neg ne.symm, same] at h
  exact h

/-- A side effect ends no task. -/
theorem none_of_perform (h : (net.perform handle effect).tasks[other]? = none) :
    net.tasks[other]? = none := by
  cases found : net.member? handle with
  | none =>
      rw [perform_none found] at h
      exact h
  | some member =>
      cases effect with
      | release id =>
          rw [perform_release found] at h
          split at h
          · rw [grant] at h
            split at h
            · exact none_of_putTask rfl h
            · exact h
          · exact h
      | spawn operation =>
          rw [perform_spawn found] at h
          exact none_of_putTask rfl h
      | announce requester =>
          rw [perform_announce found] at h
          split at h
          · exact h
          · exact none_of_putTask rfl h
      | tally counter =>
          rw [perform_tally found] at h
          exact h

theorem becomes_performs {held rest : List (Handle × LockId)}
    (books : net.Exclusive (net.lending number held)) (stale : net.tasks[number]? = some old)
    (idle : old.control.queue? = none) (found : net.member? handle = some member)
    {effects : List Effect}
    (given : held = (effects.filterMap Effect.released?).map (Prod.mk handle) ++ rest)
    (spawns : ∀ operation, .spawn operation ∈ effects → operation.plain = true)
    (h : (effects.foldl (fun left effect => left.perform handle effect) net).tasks[other]? =
      some task) : Task.Becomes net.nextTask other net.tasks[other]? task := by
  induction effects generalizing net held member with
  | nil => exact becomes_same h
  | cons effect others ih =>
      have hgiven : held = effect.released?.toList.map (Prod.mk handle) ++
          ((others.filterMap Effect.released?).map (Prod.mk handle) ++ rest) := by
        rw [given, List.filterMap_cons, ← List.append_assoc]
        cases effect.released? <;> rfl
      obtain ⟨later, hlater⟩ := exists_member_perform found effect
      have hspawns : ∀ operation, effect = .spawn operation → operation.plain = true :=
        fun operation heq => spawns operation (heq ▸ List.mem_cons_self ..)
      have hrest := ih (books.perform stale idle found hgiven)
        (task_perform books stale idle handle effect) hlater rfl
        (fun operation hmem => spawns operation (List.mem_cons_of_mem _ hmem)) h
      cases hfirst : (net.perform handle effect).tasks[other]? with
      | none =>
          rw [hfirst] at hrest
          rw [none_of_perform hfirst]
          exact hrest.sooner (nextTask_perform net handle effect)
      | some before =>
          rw [hfirst] at hrest
          exact (becomes_perform books hspawns hfirst).trans hrest

theorem becomes_act (net : Network) (number : Nat) (purpose : Purpose) (handle : Handle)
    (below : Stack result) (action : Action result) (ne : other ≠ number)
    (h : (net.act number purpose handle below action).tasks[other]? = some task) :
    net.tasks[other]? = some task := by
  have hput : ∀ {mid : Network} {new : Task}, mid.tasks = net.tasks →
      (mid.putTask number new).tasks[other]? = some task → net.tasks[other]? = some task := by
    intro mid new hsame hsome
    rw [getElem?_putTask, if_neg ne.symm, hsame] at hsome
    exact hsome
  cases action with
  | reply outcome => exact hput rfl h
  | ask contact request frame =>
      cases contact with
      | own => exact hput rfl h
      | remote peer => exact hput rfl h
  | run operation frame => exact hput rfl h
  | call call frame => exact hput rfl h
  | sleep millis frame => exact hput rfl h
  | lock id frame =>
      cases found : net.member? handle with
      | none =>
          simp only [act, found] at h
          exact h
      | some member =>
          simp only [act, found] at h
          exact hput rfl h

theorem becomes_work {turn : Node → Surroundings → Turn result} {below : Stack result}
    {hold : Option LockId} {plain : Bool} (books : net.Exclusive net.holdings)
    (stale : net.tasks[number]? = some old) (idle : old.control.queue? = none)
    (holds : old.holds = hold.toList.map (Prod.mk handle) ++ below.guards)
    (orderly : ∀ node, net.nodeAt? handle = some node →
      (turn node net.surroundings).Orderly node hold plain) (ne : other ≠ number)
    (h : (net.work number purpose handle below turn).tasks[other]? = some task) :
    Task.Becomes net.nextTask other net.tasks[other]? task := by
  cases found : net.member? handle with
  | none =>
      simp only [work, found] at h
      exact becomes_dropTask net number h
  | some member =>
      have horderly := orderly _ (nodeAt?_of_member? found)
      have hlocks : (turn member.node net.surroundings).node.locks = member.node.locks :=
        congrArg (fun belongings => belongings.2.2.1) horderly.same
      simp only [work, found] at h
      let done := turn member.node net.surroundings
      let changed := net.setMember handle { member with node := done.node }
      have hchanged : changed.Exclusive (changed.lending number old.holds) :=
        (books.lend stale rfl).setMember found hlocks
      have hfound : changed.member? handle = some { member with node := done.node } := by
        rw [member?_setMember found, if_pos rfl]
      have hgiven : old.holds = (done.effects.filterMap Effect.released?).map (Prod.mk handle) ++
          (done.action.guards?.toList.map (Prod.mk handle) ++ below.guards) := by
        rw [holds, ← horderly.balance, List.map_append, List.append_assoc]
      have hbefore := becomes_act _ number purpose handle below _ ne h
      have hperformed : Task.Becomes changed.nextTask other changed.tasks[other]? task :=
        becomes_performs hchanged stale idle hfound hgiven horderly.spawns hbefore
      exact hperformed

theorem becomes_finish {outcome : Outcome shape} (ne : other ≠ number)
    (h : (net.finish number outcome purpose).tasks[other]? = some task) :
    Task.Becomes net.nextTask other net.tasks[other]? task := by
  obtain ⟨mid, -, htasks, hcount, heq | ⟨-, next, control, heq, -⟩⟩ :=
    finish_cases net number outcome purpose
  · rw [heq] at h
    rw [← htasks, ← hcount]
    exact becomes_dropTask mid number h
  · rw [heq] at h
    rw [← htasks, ← hcount]
    exact becomes_putTask mid number _ ne h

/-- What a step of one task makes of another. -/
theorem becomes_step (books : net.Exclusive net.holdings) (ne : other ≠ number)
    (h : (net.step number).tasks[other]? = some task) :
    Task.Becomes net.nextTask other net.tasks[other]? task := by
  rw [step] at h
  split at h
  · exact becomes_same h
  · exact becomes_finish ne h
  · rename_i purpose shape outcome result handle frame below htask
    exact becomes_work books htask rfl rfl
      (fun node _ => node.orderly_resume net.surroundings frame outcome) ne h
  · rename_i purpose shape handle operation stack htask
    have hholds : Task.holds ⟨purpose, shape, .start handle operation, stack⟩ =
        (none : Option LockId).toList.map (Prod.mk handle) ++ stack.guards := rfl
    exact becomes_work books htask rfl hholds
      (fun node _ => node.orderly_start net.surroundings operation) ne h
  · rename_i purpose shape peer request stack htask
    cases found : net.member? peer with
    | none =>
        simp only [send, found] at h
        exact becomes_putTask net number _ ne h
    | some member =>
        simp only [send, found] at h
        exact becomes_putTask (net.setMember peer _) number _ ne h
  · rename_i purpose shape peer request stack htask
    rw [arrive] at h
    split at h
    · exact becomes_dropTask net number h
    · exact becomes_putTask (net.setScript peer _) number _ ne h
    · split at h
      · exact becomes_putTask net number _ ne h
      · exact becomes_putTask net number _ ne h
  · rename_i purpose shape handle call stack htask
    cases found : net.member? handle with
    | none =>
        simp only [access, found] at h
        exact becomes_dropTask net number h
    | some member =>
        simp only [access, found] at h
        exact becomes_putTask (net.setMember handle _) number _ ne h
  · exact becomes_same h
  · exact becomes_same h

theorem none_of_performs {effects : List Effect}
    (h : (effects.foldl (fun left effect => left.perform handle effect) net).tasks[other]? = none) :
    net.tasks[other]? = none := by
  induction effects generalizing net with
  | nil => exact h
  | cons effect rest ih => exact none_of_perform (ih h)

theorem none_of_act {below : Stack result} {action : Action result}
    (h : (net.act number purpose handle below action).tasks[other]? = none) :
    net.tasks[other]? = none := by
  cases action with
  | reply outcome => exact none_of_putTask rfl h
  | ask contact request frame =>
      cases contact with
      | own => exact none_of_putTask rfl h
      | remote peer => exact none_of_putTask rfl h
  | run operation frame => exact none_of_putTask rfl h
  | call call frame => exact none_of_putTask rfl h
  | sleep millis frame => exact none_of_putTask rfl h
  | lock id frame =>
      cases found : net.member? handle with
      | none =>
          simp only [act, found] at h
          exact h
      | some member =>
          simp only [act, found] at h
          exact none_of_putTask rfl h

theorem none_of_work {turn : Node → Surroundings → Turn result} {below : Stack result}
    (ne : other ≠ number)
    (h : (net.work number purpose handle below turn).tasks[other]? = none) :
    net.tasks[other]? = none := by
  cases found : net.member? handle with
  | none =>
      simp only [work, found] at h
      exact none_of_dropTask rfl ne h
  | some member =>
      simp only [work, found] at h
      have hchanged := none_of_performs (none_of_act h)
      exact hchanged

theorem none_of_finish {outcome : Outcome shape} (ne : other ≠ number)
    (h : (net.finish number outcome purpose).tasks[other]? = none) :
    net.tasks[other]? = none := by
  obtain ⟨mid, -, hsame, -, heq | ⟨-, next, control, heq, -⟩⟩ :=
    finish_cases net number outcome purpose
  · rw [heq] at h
    exact none_of_dropTask hsame ne h
  · rw [heq] at h
    exact none_of_putTask hsame h

/-- A step of one task ends no other. -/
theorem none_of_step (ne : other ≠ number) (h : (net.step number).tasks[other]? = none) :
    net.tasks[other]? = none := by
  rw [step] at h
  split at h
  · exact h
  · exact none_of_finish ne h
  · exact none_of_work ne h
  · exact none_of_work ne h
  · rename_i purpose shape peer request stack htask
    cases found : net.member? peer with
    | none =>
        simp only [send, found] at h
        exact none_of_putTask rfl h
    | some member =>
        simp only [send, found] at h
        exact none_of_putTask rfl h
  · rw [arrive] at h
    split at h
    · exact none_of_dropTask rfl ne h
    · exact none_of_putTask rfl h
    · split at h
      · exact none_of_putTask rfl h
      · exact none_of_putTask rfl h
  · rename_i purpose shape handle call stack htask
    cases found : net.member? handle with
    | none =>
        simp only [access, found] at h
        exact none_of_dropTask rfl ne h
    | some member =>
        simp only [access, found] at h
        exact none_of_putTask rfl h
  · exact h
  · exact h

/-- Waking a task leaves the others as they are. -/
theorem getElem?_wake_of_ne (ne : other ≠ number) :
    (net.wake number).tasks[other]? = net.tasks[other]? := by
  have hput : ∀ task : Task, (net.putTask number task).tasks[other]? = net.tasks[other]? := by
    intro task
    rw [getElem?_putTask, if_neg ne.symm]
  rw [wake]
  split
  · exact hput _
  · split
    · rw [getElem?_dropTask, if_neg ne.symm]
    · exact hput _
  · rfl

theorem none_of_wake (ne : other ≠ number) (h : (net.wake number).tasks[other]? = none) :
    net.tasks[other]? = none :=
  (getElem?_wake_of_ne ne).symm.trans h

theorem becomes_wake (ne : other ≠ number) (h : (net.wake number).tasks[other]? = some task) :
    net.tasks[other]? = some task :=
  (getElem?_wake_of_ne ne).symm.trans h

end Network

end RecordRing
