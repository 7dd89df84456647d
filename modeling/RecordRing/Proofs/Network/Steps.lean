import RecordRing.Proofs.Network.Members

/-!
# What a step does to the nodes

Of all the steps of a task only a turn changes a node beyond its records and locks
(`akin_step_or_turn`), and a turn changes the one node that takes it.
-/

namespace RecordRing.Network

variable {net after : Network} {number handle : Nat} {shape result : Shape} {purpose : Purpose}
  {member : Member} {node : Node}

theorem akin_act (net : Network) (number : Nat) (purpose : Purpose) (handle : Handle)
    (below : Stack result) (action : Action result) :
    net.Akin (net.act number purpose handle below action) := by
  cases action with
  | reply outcome => exact Akin.of_same rfl rfl
  | ask contact request frame =>
      cases contact with
      | own => exact Akin.of_same rfl rfl
      | remote peer => exact Akin.of_same rfl rfl
  | run operation frame => exact Akin.of_same rfl rfl
  | call call frame => exact Akin.of_same rfl rfl
  | sleep millis frame => exact Akin.of_same rfl rfl
  | lock id frame =>
      cases found : net.member? handle with
      | none =>
          simp only [act, found]
          exact Akin.refl net
      | some member =>
          simp only [act, found]
          have hlocked : net.Akin (net.setMember handle (member.withLocks
              (member.node.locks.acquire id net.now
                ⟨number, net.now + member.node.config.lockTimeout⟩).2)) :=
            Akin.setMember found rfl
          exact hlocked.trans (Akin.of_same rfl rfl)

/-- A turn overwrites the node that takes it. -/
theorem akin_work (below : Stack result) (turn : Node → Surroundings → Turn result)
    (found : net.nodeAt? handle = some node) :
    (net.setNode handle (turn node net.surroundings).node).Akin
      (net.work number purpose handle below turn) := by
  obtain ⟨member, hm, rfl⟩ := nodeAt?_eq_some.1 found
  simp only [work, hm, setNode_eq hm]
  exact (akin_performs _ handle _).trans (akin_act ..)

theorem akin_work_of_none (below : Stack result) (turn : Node → Surroundings → Turn result)
    (missing : net.nodeAt? handle = none) :
    net.Akin (net.work number purpose handle below turn) := by
  have hm : net.member? handle = none := Option.map_eq_none_iff.1 missing
  simp only [work, hm]
  exact Akin.of_same rfl rfl

/-- How a task goes on when its outermost operation has ended.  It is dropped, or it starts an
operation that is only acknowledged, or it waits for the next tick of its loop.  Up to then the nodes
and all tasks are left as they were. -/
theorem finish_cases (net : Network) (number : Nat) (outcome : Outcome shape) (purpose : Purpose) :
    ∃ mid : Network, net.Alike mid ∧ mid.tasks = net.tasks ∧ mid.nextTask = net.nextTask ∧
      (net.finish number outcome purpose = mid.dropTask number ∨
        purpose ≠ .client [] ∧ ∃ next control,
          net.finish number outcome purpose =
            mid.putTask number ⟨next, .nothing, control, .root⟩ ∧
          ((∃ handle operation, control = .start handle operation) ∨
            ∃ moment outcome, control = .hold moment (.answer outcome))) := by
  cases purpose with
  | client rest =>
      let ended : Network := { net with endings := net.endings.insert number ⟨shape, outcome⟩ }
      cases rest with
      | nil => exact ⟨ended, .of_same rfl rfl rfl, rfl, rfl, .inl rfl⟩
      | cons next rest =>
          cases outcome with
          | ok value =>
              exact ⟨net, .refl net, rfl, rfl, .inr ⟨by simp, _, _, rfl, .inl ⟨_, _, rfl⟩⟩⟩
          | error failure => exact ⟨ended, .of_same rfl rfl rfl, rfl, rfl, .inl rfl⟩
  | background => exact ⟨net, .refl net, rfl, rfl, .inl rfl⟩
  | sender handle =>
      cases found : net.member? handle with
      | none =>
          simp only [finish, sendNext, found]
          exact ⟨net, .refl net, rfl, rfl, .inl rfl⟩
      | some member =>
          simp only [finish, sendNext, found]
          split
          · exact ⟨net.setMember handle { member with sending := false }, .setMember found rfl, rfl,
              rfl, .inl rfl⟩
          · rename_i requester rest hbox
            exact ⟨net.setMember handle { member with outbox := rest }, .setMember found rfl, rfl,
              rfl, .inr ⟨by simp, _, _, rfl, .inl ⟨_, _, rfl⟩⟩⟩
  | loop loop =>
      simp only [finish, goRound]
      refine ⟨net, .refl net, rfl, rfl, ?_⟩
      split
      · exact .inl rfl
      · split
        · exact .inr ⟨by simp, _, _, rfl, .inl ⟨_, _, rfl⟩⟩
        · exact .inr ⟨by simp, _, _, rfl, .inr ⟨_, _, rfl⟩⟩

theorem akin_finish (net : Network) (number : Nat) (outcome : Outcome shape) (purpose : Purpose) :
    net.Akin (net.finish number outcome purpose) := by
  obtain ⟨mid, halike, -, -, heq | ⟨-, next, control, heq, -⟩⟩ :=
    finish_cases net number outcome purpose
  · rw [heq]
    exact halike.akin.trans (Akin.of_same rfl rfl)
  · rw [heq]
    exact halike.akin.trans (Akin.of_same rfl rfl)

theorem akin_send (net : Network) (number : Nat) (purpose : Purpose) (peer : Handle)
    (request : Request shape) (stack : Stack shape) :
    net.Akin (net.send number purpose peer request stack) := by
  cases found : net.member? peer with
  | none =>
      simp only [send, found]
      exact Akin.of_same rfl rfl
  | some member =>
      simp only [send, found]
      have hcounted : net.Akin (net.setMember peer
          { member with link := member.link.counting request.method }) :=
        Akin.setMember found (by rw [Member.core, Link.faults_counting]; rfl)
      exact hcounted.trans (Akin.of_same rfl rfl)

theorem akin_arrive (members : ∀ handle, net.script? handle = none) (number : Nat)
    (purpose : Purpose) (peer : Handle) (request : Request shape) (stack : Stack shape) :
    net.Akin (net.arrive number purpose peer request stack) := by
  rw [arrive]
  split
  · exact Akin.of_same rfl rfl
  · rename_i script hscript
    have hnone := members peer
    rw [script?, hscript] at hnone
    cases hnone
  · split <;> exact Akin.of_same rfl rfl

theorem akin_access (net : Network) (number : Nat) (purpose : Purpose) (handle : Handle)
    (call : StoreCall shape) (stack : Stack shape) :
    net.Akin (net.access number purpose handle call stack) := by
  cases found : net.member? handle with
  | none =>
      simp only [access, found]
      exact Akin.of_same rfl rfl
  | some member =>
      simp only [access, found]
      let store := (member.node.store.perform member.node.config.credential call).2
      have hset : net.Akin (net.setMember handle
          { member with node := { member.node with store := store } }) :=
        Akin.setMember found rfl
      exact hset.trans (Akin.of_same rfl rfl)

/-- A step of a task is a turn of a node, or it leaves the nodes in place up to records and locks. -/
theorem akin_step_or_turn (members : ∀ handle, net.script? handle = none) (number : Nat) :
    net.Akin (net.step number) ∨
    (∃ purpose shape handle stack node, ∃ operation : Operation shape,
      net.tasks[number]? = some ⟨purpose, shape, .start handle operation, stack⟩ ∧
      net.nodeAt? handle = some node ∧
      (net.setNode handle (node.start net.surroundings operation).node).Akin (net.step number)) ∨
    (∃ purpose shape result handle below node, ∃ (outcome : Outcome shape)
      (frame : Frame shape result),
      net.tasks[number]? = some ⟨purpose, shape, .answer outcome, .frame handle frame below⟩ ∧
      net.nodeAt? handle = some node ∧
      (net.setNode handle (node.resume net.surroundings frame outcome).node).Akin
        (net.step number)) := by
  rw [step]
  split
  · exact Or.inl (Akin.refl net)
  · exact Or.inl (akin_finish ..)
  · rename_i purpose shape outcome result handle frame below htask
    cases found : net.nodeAt? handle with
    | none => exact Or.inl (akin_work_of_none _ _ found)
    | some node =>
        exact Or.inr (Or.inr ⟨purpose, shape, result, handle, below, node, outcome, frame, htask,
          found, akin_work below (fun node around => node.resume around frame outcome) found⟩)
  · rename_i purpose shape handle operation stack htask
    cases found : net.nodeAt? handle with
    | none => exact Or.inl (akin_work_of_none _ _ found)
    | some node =>
        exact Or.inr (Or.inl ⟨purpose, shape, handle, stack, node, operation, htask, found,
          akin_work stack (fun node around => node.start around operation) found⟩)
  · exact Or.inl (akin_send ..)
  · exact Or.inl (akin_arrive members ..)
  · exact Or.inl (akin_access ..)
  · exact Or.inl (Akin.refl net)
  · exact Or.inl (Akin.refl net)

/-- Without scripted peers a step brings none. -/
theorem script?_step (members : ∀ handle, net.script? handle = none) (number : Nat) :
    (net.step number).script? = net.script? := by
  rcases akin_step_or_turn members number with hakin | ⟨_, _, _, _, _, _, -, -, hakin⟩ |
    ⟨_, _, _, _, _, _, _, _, -, -, hakin⟩
  · exact hakin.scripts
  · rw [hakin.scripts, script?_setNode]
  · rw [hakin.scripts, script?_setNode]

/-- Waking a task leaves the nodes in place up to records and locks. -/
theorem akin_wake (net : Network) (number : Nat) : net.Akin (net.wake number) := by
  rw [wake]
  split
  · exact Akin.of_same rfl rfl
  · rename_i purpose handle id deadline stack htask
    split
    · exact Akin.of_same rfl rfl
    · rename_i member found
      have hfreed : net.Akin (net.setMember handle
          (member.withLocks (member.node.locks.withdraw id number))) :=
        Akin.setMember found rfl
      exact hfreed.trans (Akin.of_same rfl rfl)
  · exact Akin.refl net

end RecordRing.Network
