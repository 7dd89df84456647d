import RecordRing.Network.Schedule

/-!
# Members of a network under its operations

What the operations of a network leave in place.  A member is looked up by its handle; most
operations only touch the tasks, a few overwrite one member, and the side effects of a turn change
the bookkeeping around a node but never its pointers.

`Alike` compares two networks up to their tasks and counters, and `Akin` also up to the records and
the locks of the nodes.
-/

namespace RecordRing

/-- The handle at which a request of a member arrives. -/
def Contact.at : Contact → Handle → Handle
  | own, self => self
  | remote peer, _ => peer

/-- A node without its records and locks. -/
def Node.bare (node : Node) : Node :=
  { node with store := Store.empty none, locks := LockTable.empty }

/-- A member with the locks of its node overwritten. -/
def Member.withLocks (member : Member) (locks : LockTable) : Member :=
  { member with node := { member.node with locks := locks } }

/-- A member without the counters of its link and the state of its sender. -/
def Member.face (member : Member) : Node × List Method × StoreDelay :=
  (member.node, member.link.faults, member.storeDelay)

theorem Link.faults_counting (link : Link) (method : Method) :
    (link.counting method).faults = link.faults := by
  rw [Link.counting]
  split <;> rfl

/-- A member without records, locks, delays and counters, and without its sender. -/
def Member.core (member : Member) : Node × List Method := (member.node.bare, member.link.faults)

namespace Network

variable {net after last : Network} {handle other number : Nat} {member new : Member} {node : Node}

/-- The node of a handle, if a member stands there. -/
def nodeAt? (net : Network) (handle : Handle) : Option Node := (net.member? handle).map Member.node

theorem nodeAt?_eq_some : net.nodeAt? handle = some node ↔
    ∃ member, net.member? handle = some member ∧ member.node = node := by
  simp [nodeAt?]

theorem nodeAt?_of_member? (h : net.member? handle = some member) :
    net.nodeAt? handle = some member.node := by
  simp [nodeAt?, h]

/-- A member is found by its end of a link alone. -/
theorem member?_congr (h : after.endpoints = net.endpoints) : after.member? = net.member? := by
  funext handle
  simp [member?, h]

/-- A scripted peer is found by its end of a link alone. -/
theorem script?_congr (h : after.endpoints = net.endpoints) : after.script? = net.script? := by
  funext handle
  simp [script?, h]

theorem endpoint_of_member? (h : net.member? handle = some member) :
    net.endpoints[handle]? = some (.member member) := by
  revert h
  rw [member?]
  split
  · rename_i found hfound
    intro h
    rw [hfound, Option.some.inj h]
  · intro h
    cases h

/-- Overwriting a member leaves the scripted peers in place. -/
theorem script?_setMember (found : net.member? handle = some member) (new : Member) :
    (net.setMember handle new).script? = net.script? := by
  funext other
  by_cases h : handle = other
  · subst h
    have hend := endpoint_of_member? found
    have hsize := (Array.getElem?_eq_some_iff.1 hend).1
    have hnone : net.script? handle = none := by simp only [script?, hend]
    rw [hnone]
    simp [script?, setMember, hsize]
  · simp [script?, setMember, h]

theorem member?_setMember (found : net.member? handle = some member) (new : Member)
    (other : Handle) :
    (net.setMember handle new).member? other =
      if handle = other then some new else net.member? other := by
  have hsize : handle < net.endpoints.size :=
    (Array.getElem?_eq_some_iff.1 (endpoint_of_member? found)).1
  by_cases h : handle = other
  · subst h
    simp [member?, setMember, hsize]
  · simp [member?, setMember, h]

theorem size_setMember (net : Network) (handle : Handle) (new : Member) :
    (net.setMember handle new).endpoints.size = net.endpoints.size := by
  simp [setMember]

theorem nodeAt?_setMember (found : net.member? handle = some member) (new : Member)
    (other : Handle) :
    (net.setMember handle new).nodeAt? other =
      if handle = other then some new.node else net.nodeAt? other := by
  rw [nodeAt?, member?_setMember found]
  split
  · rfl
  · rfl

/-- The network with the node of a member overwritten. -/
def setNode (net : Network) (handle : Handle) (node : Node) : Network :=
  match net.member? handle with
  | some member => net.setMember handle { member with node := node }
  | none => net

theorem setNode_eq (found : net.member? handle = some member) (node : Node) :
    net.setNode handle node = net.setMember handle { member with node := node } := by
  simp only [setNode, found]

theorem member?_setNode (net : Network) (handle : Handle) (node : Node) (other : Handle) :
    (net.setNode handle node).member? other =
      if handle = other then (net.member? other).map fun member => { member with node := node }
      else net.member? other := by
  cases found : net.member? handle with
  | none =>
      simp only [setNode, found]
      split
      · rename_i h
        rw [← h, found, Option.map_none]
      · rfl
  | some member =>
      rw [setNode_eq found, member?_setMember found]
      split
      · rename_i h
        rw [← h, found, Option.map_some]
      · rfl

theorem nodeAt?_setNode (net : Network) (handle : Handle) (node : Node) (other : Handle) :
    (net.setNode handle node).nodeAt? other =
      if handle = other then (net.nodeAt? other).map fun _ => node else net.nodeAt? other := by
  rw [nodeAt?, member?_setNode]
  split
  · rw [nodeAt?, Option.map_map, Option.map_map]
    rfl
  · rfl

theorem size_setNode (net : Network) (handle : Handle) (node : Node) :
    (net.setNode handle node).endpoints.size = net.endpoints.size := by
  rw [setNode]
  split
  · exact size_setMember ..
  · rfl

theorem now_setNode (net : Network) (handle : Handle) (node : Node) :
    (net.setNode handle node).now = net.now := by
  rw [setNode]
  split <;> rfl

theorem directory_setNode (net : Network) (handle : Handle) (node : Node) :
    (net.setNode handle node).directory = net.directory := by
  rw [setNode]
  split <;> rfl

theorem surroundings_setNode (net : Network) (handle : Handle) (node : Node) :
    (net.setNode handle node).surroundings = net.surroundings := by
  rw [surroundings, surroundings, now_setNode, directory_setNode]

theorem script?_setNode (net : Network) (handle : Handle) (node : Node) :
    (net.setNode handle node).script? = net.script? := by
  rw [setNode]
  split
  · rename_i member found
    exact script?_setMember found _
  · rfl

/-- Overwriting a node by itself changes nothing. -/
theorem setNode_self (found : net.nodeAt? handle = some node) : net.setNode handle node = net := by
  obtain ⟨member, hm, rfl⟩ := nodeAt?_eq_some.1 found
  have hend := endpoint_of_member? hm
  obtain ⟨hsize, hget⟩ := Array.getElem?_eq_some_iff.1 hend
  have hsame : net.endpoints.setIfInBounds handle (.member member) = net.endpoints := by
    rw [← hget, Array.setIfInBounds_def, dif_pos hsize, Array.set_getElem_self]
  rw [setNode_eq hm, setMember, hsame]

/-! ## New members -/

theorem member?_attach (net : Network) (member : Member) (other : Handle) :
    (net.attach (.member member)).2.member? other =
      if other = net.endpoints.size then some member else net.member? other := by
  by_cases h : other = net.endpoints.size
  · simp [member?, attach, h]
  · simp [member?, attach, Array.getElem?_push, h]

theorem nodeAt?_attach (net : Network) (member : Member) (other : Handle) :
    (net.attach (.member member)).2.nodeAt? other =
      if other = net.endpoints.size then some member.node else net.nodeAt? other := by
  rw [nodeAt?, member?_attach]
  split <;> rfl

/-- A node stands at a handle that has been given out. -/
theorem lt_size_of_nodeAt? (h : net.nodeAt? handle = some node) : handle < net.endpoints.size := by
  obtain ⟨member, hm, -⟩ := nodeAt?_eq_some.1 h
  exact (Array.getElem?_eq_some_iff.1 (endpoint_of_member? hm)).1

theorem nodeAt?_size (net : Network) : net.nodeAt? net.endpoints.size = none := by
  simp [nodeAt?, member?]

theorem nodeAt?_of_endpoint (h : net.endpoints[handle]? = none) : net.nodeAt? handle = none := by
  simp only [nodeAt?, member?, h, Option.map_none]

/-- In a network of two what holds of both ends holds of every handle, if it holds of those at which
nothing stands. -/
theorem forall_of_two {p : Handle → Prop} (two : net.endpoints.size = 2) (first : p 0) (second : p 1)
    (rest : ∀ handle, net.endpoints[handle]? = none → p handle) (handle : Handle) : p handle := by
  match handle with
  | 0 => exact first
  | 1 => exact second
  | handle + 2 => exact rest _ (Array.getElem?_eq_none (two ▸ Nat.le_add_left 2 handle))

theorem script?_attach (net : Network) (member : Member) :
    (net.attach (.member member)).2.script? = net.script? := by
  funext other
  by_cases h : other = net.endpoints.size
  · simp [script?, attach, h]
  · simp [script?, attach, Array.getElem?_push, h]

/-! ## Operations on tasks -/

@[simp] theorem member?_putTask (task : Task) : (net.putTask number task).member? = net.member? :=
  rfl

@[simp] theorem member?_spawn (task : Task) : (net.spawn task).member? = net.member? := rfl

@[simp] theorem member?_count (counter : Counter) : (net.count counter).member? = net.member? := rfl

@[simp] theorem endpoints_grant : (net.grant number).endpoints = net.endpoints := by
  rw [grant]
  split <;> rfl

@[simp] theorem directory_grant : (net.grant number).directory = net.directory := by
  rw [grant]
  split <;> rfl

@[simp] theorem member?_grant : (net.grant number).member? = net.member? :=
  member?_congr endpoints_grant

theorem getElem?_putTask (task : Task) (other : Nat) :
    (net.putTask number task).tasks[other]? =
      if number = other then some task else net.tasks[other]? := by
  simp [putTask, Std.TreeMap.getElem?_insert]

@[simp] theorem getElem?_putTask_self (task : Task) :
    (net.putTask number task).tasks[number]? = some task := by
  rw [getElem?_putTask, if_pos rfl]

theorem getElem?_dropTask (other : Nat) :
    (net.dropTask number).tasks[other]? = if number = other then none else net.tasks[other]? := by
  simp [dropTask, Std.TreeMap.getElem?_erase]

/-! ## Side effects -/

theorem perform_none (missing : net.member? handle = none) (effect : Effect) :
    net.perform handle effect = net := by
  simp only [perform, missing]

theorem perform_release (found : net.member? handle = some member) (id : LockId) :
    net.perform handle (.release id) =
      match (member.node.locks.release id).1 with
      | some next =>
        (net.setMember handle (member.withLocks (member.node.locks.release id).2)).grant next
      | none => net.setMember handle (member.withLocks (member.node.locks.release id).2) := by
  simp only [perform, found]
  rfl

theorem perform_spawn (found : net.member? handle = some member) (operation : Operation .nothing) :
    net.perform handle (.spawn operation) = net.spawn (taskOf .background handle operation) := by
  simp only [perform, found]

theorem perform_announce (found : net.member? handle = some member) (requester : Token) :
    net.perform handle (.announce requester) =
      if member.sending then
        net.setMember handle { member with outbox := member.outbox ++ [requester] }
      else
        (net.setMember handle { member with sending := true }).spawn
          (taskOf (.sender handle) handle (.reportMoved requester)) := by
  simp only [perform, found]

theorem perform_tally (found : net.member? handle = some member) (counter : Counter) :
    net.perform handle (.tally counter) = net.count counter := by
  simp only [perform, found]

/-! ## Networks with the same members -/

/-- Moment, directory and scripted peers are the same, and every member has the same node, faults and
delays. -/
structure Alike (net after : Network) : Prop where
  now : after.now = net.now
  directory : after.directory = net.directory
  scripts : after.script? = net.script?
  size : after.endpoints.size = net.endpoints.size
  members : ∀ handle, (after.member? handle).map Member.face = (net.member? handle).map Member.face

/-- Directory and scripted peers are the same, and every member has the same faults and the same node
up to its records and locks. -/
structure Akin (net after : Network) : Prop where
  directory : after.directory = net.directory
  scripts : after.script? = net.script?
  size : after.endpoints.size = net.endpoints.size
  members : ∀ handle, (after.member? handle).map Member.core = (net.member? handle).map Member.core

namespace Alike

theorem refl (net : Network) : net.Alike net := ⟨rfl, rfl, rfl, rfl, fun _ => rfl⟩

theorem trans (h : net.Alike after) (h' : after.Alike last) : net.Alike last :=
  ⟨h'.now.trans h.now, h'.directory.trans h.directory, h'.scripts.trans h.scripts,
    h'.size.trans h.size, fun handle => (h'.members handle).trans (h.members handle)⟩

theorem nodeAt? (h : net.Alike after) (handle : Handle) :
    after.nodeAt? handle = net.nodeAt? handle := by
  have hm := congrArg (Option.map Prod.fst) (h.members handle)
  rw [Option.map_map, Option.map_map] at hm
  exact hm

theorem akin (h : net.Alike after) : net.Akin after :=
  ⟨h.directory, h.scripts, h.size, fun handle => by
    have hm := congrArg (Option.map fun face : Node × List Method × StoreDelay =>
      (face.1.bare, face.2.1)) (h.members handle)
    rw [Option.map_map, Option.map_map] at hm
    exact hm⟩

theorem of_same (hn : after.now = net.now) (hd : after.directory = net.directory)
    (he : after.endpoints = net.endpoints) : net.Alike after :=
  ⟨hn, hd, script?_congr he, by rw [he], fun handle => by rw [member?_congr he]⟩

theorem spawn (h : net.Alike after) (task : Task) : net.Alike (after.spawn task) :=
  h.trans (of_same rfl rfl rfl)

theorem putTask (h : net.Alike after) (number : Nat) (task : Task) :
    net.Alike (after.putTask number task) :=
  h.trans (of_same rfl rfl rfl)

theorem surroundings (h : net.Alike after) : after.surroundings = net.surroundings := by
  rw [Network.surroundings, Network.surroundings, h.now, h.directory]

/-- Overwriting a member by one with the same face. -/
theorem setMember (found : net.member? handle = some member) (same : new.face = member.face) :
    net.Alike (net.setMember handle new) := by
  refine ⟨rfl, rfl, script?_setMember found new, size_setMember net handle new, fun other => ?_⟩
  rw [member?_setMember found]
  split
  · rename_i h
    subst h
    rw [found, Option.map_some, Option.map_some, same]
  · rfl

/-- Overwriting a node by itself. -/
theorem setNode (found : net.nodeAt? handle = some node) : net.Alike (net.setNode handle node) := by
  obtain ⟨member, hm, rfl⟩ := nodeAt?_eq_some.1 found
  rw [setNode_eq hm]
  exact Alike.setMember hm rfl

/-- Overwriting a node in networks with the same members. -/
theorem overwrite (h : net.Alike after) (handle : Handle) (node : Node) :
    (net.setNode handle node).Alike (after.setNode handle node) := by
  refine ⟨?_, ?_, ?_, ?_, fun other => ?_⟩
  · rw [now_setNode, now_setNode, h.now]
  · rw [directory_setNode, directory_setNode, h.directory]
  · rw [script?_setNode, script?_setNode, h.scripts]
  · rw [size_setNode, size_setNode, h.size]
  · have hm := congrArg (Option.map fun face : Node × List Method × StoreDelay => (node, face.2))
      (h.members other)
    rw [Option.map_map, Option.map_map] at hm
    rw [member?_setNode, member?_setNode]
    split
    · rw [Option.map_map, Option.map_map]
      exact hm
    · exact h.members other

end Alike

namespace Akin

theorem refl (net : Network) : net.Akin net := (Alike.refl net).akin

theorem trans (h : net.Akin after) (h' : after.Akin last) : net.Akin last :=
  ⟨h'.directory.trans h.directory, h'.scripts.trans h.scripts, h'.size.trans h.size,
    fun handle => (h'.members handle).trans (h.members handle)⟩

theorem symm (h : net.Akin after) : after.Akin net :=
  ⟨h.directory.symm, h.scripts.symm, h.size.symm, fun handle => (h.members handle).symm⟩

theorem nodes (h : net.Akin after) (handle : Handle) :
    (after.nodeAt? handle).map Node.bare = (net.nodeAt? handle).map Node.bare := by
  have hm := congrArg (Option.map Prod.fst) (h.members handle)
  rw [Option.map_map, Option.map_map] at hm
  rw [nodeAt?, nodeAt?, Option.map_map, Option.map_map]
  exact hm

theorem of_same (hd : after.directory = net.directory) (he : after.endpoints = net.endpoints) :
    net.Akin after :=
  ⟨hd, script?_congr he, by rw [he], fun handle => by rw [member?_congr he]⟩

theorem spawn (h : net.Akin after) (task : Task) : net.Akin (after.spawn task) :=
  h.trans (of_same rfl rfl)

theorem grant (h : net.Akin after) (number : Nat) : net.Akin (after.grant number) :=
  h.trans (of_same directory_grant endpoints_grant)

/-- Overwriting a member by one with the same core. -/
theorem setMember (found : net.member? handle = some member) (same : new.core = member.core) :
    net.Akin (net.setMember handle new) := by
  refine ⟨rfl, script?_setMember found new, size_setMember net handle new, fun other => ?_⟩
  rw [member?_setMember found]
  split
  · rename_i h
    subst h
    rw [found, Option.map_some, Option.map_some, same]
  · rfl

end Akin

/-- A side effect leaves every node in place, up to its records and locks. -/
theorem akin_perform (net : Network) (handle : Handle) (effect : Effect) :
    net.Akin (net.perform handle effect) := by
  cases found : net.member? handle with
  | none =>
      rw [perform_none found]
      exact Akin.refl net
  | some member =>
      cases effect with
      | release id =>
          rw [perform_release found]
          split
          · apply Akin.grant
            exact Akin.setMember found rfl
          · exact Akin.setMember found rfl
      | spawn operation =>
          rw [perform_spawn found]
          exact (Akin.refl net).spawn _
      | announce requester =>
          rw [perform_announce found]
          split
          · exact Akin.setMember found rfl
          · apply Akin.spawn
            exact Akin.setMember found rfl
      | tally counter =>
          rw [perform_tally found]
          exact Akin.of_same rfl rfl

theorem akin_performs (net : Network) (handle : Handle) (effects : List Effect) :
    net.Akin (effects.foldl (fun left effect => left.perform handle effect) net) := by
  induction effects generalizing net with
  | nil => exact Akin.refl net
  | cons effect rest ih => exact (akin_perform net handle effect).trans (ih _)

/-- A side effect that gives no lock back leaves every member in place. -/
theorem alike_perform (net : Network) (handle : Handle) {effect : Effect}
    (keeps : ∀ id, effect ≠ .release id) : net.Alike (net.perform handle effect) := by
  cases found : net.member? handle with
  | none =>
      rw [perform_none found]
      exact Alike.refl net
  | some member =>
      cases effect with
      | release id => exact absurd rfl (keeps id)
      | spawn operation =>
          rw [perform_spawn found]
          exact (Alike.refl net).spawn _
      | announce requester =>
          rw [perform_announce found]
          split
          · exact Alike.setMember found rfl
          · apply Alike.spawn
            exact Alike.setMember found rfl
      | tally counter =>
          rw [perform_tally found]
          exact Alike.of_same rfl rfl rfl

theorem alike_performs (net : Network) (handle : Handle) (effects : List Effect)
    (keeps : ∀ effect ∈ effects, ∀ id, effect ≠ .release id) :
    net.Alike (effects.foldl (fun left effect => left.perform handle effect) net) := by
  induction effects generalizing net with
  | nil => exact Alike.refl net
  | cons effect rest ih =>
      exact (alike_perform net handle (keeps effect (List.mem_cons_self ..))).trans
        (ih _ fun e he => keeps e (List.mem_cons_of_mem _ he))

end Network

end RecordRing
