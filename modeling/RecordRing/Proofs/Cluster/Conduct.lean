import RecordRing.Command.Trial
import RecordRing.Proofs.Network.Residents

/-!
# Operations of a cluster

When the node of an identifier is told to carry out an operation that does not wait, the operation
is over before any other task goes on.  So the cluster ends up with the outcome and the network that
the work of the node comes to (`Cluster.conduct_eq`).
-/

namespace RecordRing

namespace Network

variable {net after last : Network} {number : Nat} {handle : Handle} {shape : Shape} {task : Task}

/-- Two networks are the same but for the outcomes that are kept. -/
structure Like (net after : Network) : Prop where
  tasks : ∀ number : Nat, after.tasks[number]? = net.tasks[number]?
  rest : { after with tasks := net.tasks, endings := net.endings } = net

theorem Like.keeps (h : net.Like after) : net.Keeps after :=
  .of_endpoints (congrArg Network.directory h.rest :) (congrArg Network.endpoints h.rest :)
    fun numbered => numbered.congr h.tasks (congrArg Network.ready h.rest :)
      (congrArg Network.waiting h.rest :) (Nat.le_of_eq (congrArg Network.nextTask h.rest :).symm)

/-- A task that is told to start at once is one more task of the network. -/
theorem Numbered.bears_launched (numbered : net.Numbered) (task : Task) :
    net.numbering.Bears net.nextTask task
      (((net.addTask task).2.makeReady net.nextTask).takeReady net.nextTask) := by
  refine ⟨?_, Nat.lt_succ_self _, fun other => getElem?_putTask task other, ?_⟩
  · refine Option.eq_none_iff_forall_ne_some.mpr fun other hother => ?_
    exact Nat.lt_irrefl _ (numbered.tasks _ _ hother)
  · have hready : (net.ready ++ [net.nextTask]).erase net.nextTask = net.ready := by
      rw [List.erase_append_right _ fun hmem => Nat.lt_irrefl _ (numbered.ready _ hmem)]
      simp
    have hwaiting : net.waiting.erase net.nextTask = net.waiting :=
      List.erase_of_not_mem fun hmem => Nat.lt_irrefl _ (numbered.waiting _ hmem)
    simp only [numbering, takeReady, makeReady, addTask, putTask, hready, hwaiting]

/-- A task that comes to its outcome without a wait is over when it has been carried on. -/
theorem runTask_of_answer {loaded ended : Network} {outcome : Outcome shape}
    (straight : Straight number loaded ended)
    (bears : after.Bears number ⟨.client [], shape, .answer outcome, .root⟩ ended) :
    ∃ left, loaded.runTask number = left ∧ after.Like left ∧
      left.endings[number]? = some ⟨shape, outcome⟩ ∧ left.tasks[number]? = none := by
  have hstep : ended.step number = { ended.dropTask number with
      endings := ended.endings.insert number ⟨shape, outcome⟩ } := step_root bears.found
  have htasks (other : Nat) : (ended.step number).tasks[other]? = after.tasks[other]? := by
    rw [hstep]
    refine (getElem?_dropTask other).trans ?_
    split
    · rename_i heq
      rw [← heq, bears.free]
    · rename_i hne
      rw [bears.tasks, if_neg hne]
  have hended : (ended.step number).tasks[number]? = none := (htasks number).trans bears.free
  have hstraight := straight.trans (straight_step (canGoOn_of_active bears.found rfl))
  refine ⟨_, hstraight.runTask_of_ended hended, ⟨htasks, ?_⟩, ?_, hended⟩
  · rw [hstep]
    exact congrArg (fun left : Network => { left with endings := after.endings }) bears.rest
  · rw [hstep]
    exact Std.TreeMap.getElem?_insert_self

end Network

namespace Cluster

open Network

variable {cluster : Cluster} {id : Token} {handle : Handle} {shape : Shape} {after : Network}

/-- An operation that does not wait is over before any other task goes on. -/
theorem conduct_eq {operation : Operation shape} {outcome : Outcome shape}
    (numbered : cluster.net.Numbered) (found : cluster.nodes[id]? = some handle)
    (performs :
      Performs cluster.net.nextTask cluster.net.numbering handle operation outcome after) :
    ∃ left, cluster.conduct id operation = (some outcome, { cluster with net := left }) ∧
      after.Like left := by
  obtain ⟨node, hnode, hyields⟩ := performs
  let number := cluster.net.nextTask
  let task := taskOf (.client []) handle operation
  let begun := (cluster.net.addTask task).2.makeReady number
  have hbears : cluster.net.numbering.Bears number task (begun.takeReady number) :=
    numbered.bears_launched task
  have hturns := turns_of_start hbears.found (hbears.nodeAt? handle ▸ hnode)
  rw [hbears.surroundings] at hturns
  obtain ⟨ended, hstraight, hended⟩ := hyields.straight hbears rfl hnode hturns
  obtain ⟨left, hrun, hlike, hending, hgone⟩ := runTask_of_answer hstraight hended
  have hactive : begun.canGoOn number = true := hturns.active
  have hstopped : left.canGoOn number = false := by
    rw [canGoOn, hgone]
  have hcontains : left.tasks.contains number = false := by
    rw [Std.TreeMap.contains_eq_isSome_getElem?, hgone, Option.isSome_none]
  have hawait (moment : Nat) : begun.await stepBudget number moment = left := by
    obtain ⟨budget, hbudget⟩ := Nat.exists_eq_add_of_le (show 2 ≤ stepBudget by decide)
    rw [hbudget, Nat.add_comm, Network.await, if_pos hactive, hrun, Network.await,
      if_neg (by simp [hstopped]), if_neg (by simp [hcontains])]
  refine ⟨{ left with endings := left.endings.erase number }, ?_, hlike.tasks, hlike.rest⟩
  have hwaited : (cluster.launch task).2.await number = { cluster with net := left } := by
    simp only [launch, Cluster.await]
    rw [← hawait (begun.now + patience)]
    rfl
  have hnumber : (cluster.launch task).1 = number := rfl
  simp only [conduct, found]
  rw [show cluster.launch (taskOf (.client []) handle operation) =
    (number, (cluster.launch task).2) from rfl]
  have hanswer : left.endings[number]?.bind (Ending.as? shape) = some outcome := by
    rw [hending, Option.bind_some, Ending.as?, dif_pos rfl]
  simp only [hwaited, ending?, hanswer, forget]

end Cluster

end RecordRing
