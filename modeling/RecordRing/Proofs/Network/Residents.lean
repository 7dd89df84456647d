import RecordRing.Proofs.Network.Prompt
import RecordRing.Proofs.Routing

/-!
# Nodes by their identifiers

A network is populated by some identifiers when the directory leads from each of them, and from no
other, to a node of this identifier, and when the nodes know no other identifiers than these.  Then
a node can be named by its identifier alone (`resident?`), and whatever it knows it can ask.

## Implementation notes

`Keeps` compares two networks up to their tasks, counters and reports.  It says nothing about which
tasks there are, only that numbers go on to be given out one after the other.
-/

namespace RecordRing

/-- A member without the counters of its link and the state of its sender. -/
def Member.home (member : Member) : Node × List (Method × Nat) × List Method × StoreDelay :=
  (member.node, member.link.delays, member.link.faults, member.storeDelay)

theorem Member.Prompt.of_home {member other : Member} (prompt : member.Prompt)
    (same : other.home = member.home) : other.Prompt := by
  simp only [home, Prod.mk.injEq] at same
  exact ⟨same.2.1.trans prompt.delays, same.2.2.1.trans prompt.faults,
    same.2.2.2.trans prompt.store⟩

/-- A node has some tunables, knows some identifiers at most, and refreshes a routing slot next. -/
structure Node.Regular (config : Config) (members : List Token) (node : Node) : Prop where
  config : node.config = config
  fingers : ∀ slot finger, node.fingers.get slot = some finger → finger ∈ members
  predecessor : ∀ before, node.predecessor = some before → before ∈ members
  first : 1 ≤ node.cursor
  last : node.cursor < keyBits

theorem Node.Regular.successor {config : Config} {members : List Token} {node : Node}
    {next : Token} (regular : node.Regular config members) (holds : node.successor = some next) :
    next ∈ members :=
  regular.fingers _ _ holds

theorem Node.Regular.mono {config : Config} {members more : List Token} {node : Node}
    (regular : node.Regular config members) (grows : ∀ id ∈ members, id ∈ more) :
    node.Regular config more :=
  { regular with
    fingers := fun slot finger hfinger => grows _ (regular.fingers slot finger hfinger)
    predecessor := fun before hbefore => grows _ (regular.predecessor before hbefore) }

namespace Network

variable {net after last : Network} {config : Config} {members : List Token} {id other : Token}
  {handle : Handle}
  {member : Member} {node new : Node} {result : Shape} {task : Task}

/-- Numbers of tasks are given out one after the other. -/
structure Numbered (net : Network) : Prop where
  tasks : ∀ (number : Nat) task, net.tasks[number]? = some task → number < net.nextTask
  ready : ∀ number ∈ net.ready, number < net.nextTask
  waiting : ∀ number ∈ net.waiting, number < net.nextTask

theorem Numbered.congr (numbered : net.Numbered)
    (tasks : ∀ number : Nat, after.tasks[number]? = net.tasks[number]?)
    (ready : after.ready = net.ready) (waiting : after.waiting = net.waiting)
    (next : net.nextTask ≤ after.nextTask) : after.Numbered where
  tasks number task found :=
    Nat.lt_of_lt_of_le (numbered.tasks number task (tasks number ▸ found)) next
  ready number mem := Nat.lt_of_lt_of_le (numbered.ready number (ready ▸ mem)) next
  waiting number mem := Nat.lt_of_lt_of_le (numbered.waiting number (waiting ▸ mem)) next

theorem Numbered.spawn (numbered : net.Numbered) (task : Task) : (net.spawn task).Numbered where
  tasks number other found := by
    rw [Network.spawn, addTask] at found
    rcases Nat.lt_or_ge number net.nextTask with hlt | hge
    · exact Nat.lt_succ_of_lt hlt
    · refine Nat.lt_succ_of_le (Nat.le_of_eq ?_)
      refine Decidable.byContradiction fun hne => Nat.not_lt_of_ge hge ?_
      refine numbered.tasks number other ?_
      simpa only [makeReady, getElem?_putTask, if_neg (Ne.symm hne)] using found
  ready number mem := by
    rcases List.mem_append.1 mem with hmem | hmem
    · exact Nat.lt_succ_of_lt (numbered.ready number hmem)
    · rw [List.mem_singleton.1 hmem]
      exact Nat.lt_succ_self _
  waiting number mem := Nat.lt_succ_of_lt (numbered.waiting number (List.mem_of_mem_erase mem))

/-! ## Networks with the same nodes -/

/-- Directory and scripted peers are the same, every member has the same node, delays and faults,
and numbers still follow one another. -/
structure Keeps (net after : Network) : Prop where
  directory : after.directory = net.directory
  scripts : after.script? = net.script?
  homes : ∀ handle, (after.member? handle).map Member.home = (net.member? handle).map Member.home
  numbered : net.Numbered → after.Numbered

namespace Keeps

theorem refl (net : Network) : net.Keeps net := ⟨rfl, rfl, fun _ => rfl, id⟩

theorem trans (h : net.Keeps after) (h' : after.Keeps last) : net.Keeps last :=
  ⟨h'.directory.trans h.directory, h'.scripts.trans h.scripts,
    fun handle => (h'.homes handle).trans (h.homes handle), h'.numbered ∘ h.numbered⟩

theorem nodeAt? (h : net.Keeps after) (handle : Handle) :
    after.nodeAt? handle = net.nodeAt? handle := by
  have hm := congrArg (Option.map Prod.fst) (h.homes handle)
  rwa [Option.map_map, Option.map_map] at hm

theorem prompt (h : net.Keeps after) (prompt : net.Prompt) : after.Prompt where
  members handle later found := by
    have hm := h.homes handle
    rw [found, Option.map_some] at hm
    obtain ⟨member, hmember, hsame⟩ := Option.map_eq_some_iff.1 hm.symm
    exact (prompt.members handle member hmember).of_home hsame.symm
  scripts handle := by rw [h.scripts, prompt.scripts]

/-- Only tasks, counters and outcomes differ. -/
theorem of_endpoints (hd : after.directory = net.directory) (he : after.endpoints = net.endpoints)
    (hn : net.Numbered → after.Numbered) : net.Keeps after :=
  ⟨hd, script?_congr he, fun handle => by rw [member?_congr he], hn⟩

theorem spawn (net : Network) (task : Task) : net.Keeps (net.spawn task) :=
  of_endpoints rfl rfl fun numbered => numbered.spawn task

theorem setMember {new : Member} (found : net.member? handle = some member)
    (same : new.home = member.home) : net.Keeps (net.setMember handle new) where
  directory := rfl
  scripts := script?_setMember found new
  homes other := by
    rw [member?_setMember found]
    split
    · rename_i heq
      rw [← heq, found, Option.map_some, Option.map_some, same]
    · rfl
  numbered numbered := ⟨numbered.tasks, numbered.ready, numbered.waiting⟩

/-- A side effect that gives no lock back. -/
theorem perform (net : Network) (handle : Handle) {effect : Effect}
    (keeps : ∀ id, effect ≠ .release id) : net.Keeps (net.perform handle effect) := by
  cases found : net.member? handle with
  | none =>
      rw [perform_none found]
      exact refl net
  | some member =>
      cases effect with
      | release id => exact absurd rfl (keeps id)
      | spawn operation =>
          rw [perform_spawn found]
          exact spawn net _
      | announce requester =>
          rw [perform_announce found]
          split
          · exact setMember found rfl
          · have hsending : net.Keeps (net.setMember handle { member with sending := true }) :=
              setMember found rfl
            exact hsending.trans (spawn _ _)
      | tally counter =>
          rw [perform_tally found]
          exact of_endpoints rfl rfl fun numbered =>
            ⟨numbered.tasks, numbered.ready, numbered.waiting⟩

theorem performs (net : Network) (handle : Handle) (effects : List Effect)
    (keeps : ∀ effect ∈ effects, ∀ id, effect ≠ .release id) :
    net.Keeps (effects.foldl (fun left effect => left.perform handle effect) net) := by
  induction effects generalizing net with
  | nil => exact refl net
  | cons effect rest ih =>
      exact (perform net handle (keeps effect (List.mem_cons_self ..))).trans
        (ih _ fun e he => keeps e (List.mem_cons_of_mem _ he))

end Keeps

theorem Same.keeps (h : net.Same after) : net.Keeps after where
  directory := h.directory
  scripts := h.scripts
  homes handle := by
    have hm := congrArg (Option.map Member.home) (h.members handle)
    rwa [Option.map_map, Option.map_map] at hm
  numbered numbered := numbered.congr (fun number => by rw [h.tasks]) h.ready h.waiting
    (Nat.le_of_eq h.nextTask.symm)

theorem setNode_setNode (net : Network) (handle : Handle) (first second : Node) :
    (net.setNode handle first).setNode handle second = net.setNode handle second := by
  cases found : net.member? handle with
  | none => simp only [setNode, found]
  | some member =>
      have hset : (net.setNode handle first).member? handle =
          some { member with node := first } := by
        rw [member?_setNode, if_pos rfl, found, Option.map_some]
      rw [setNode_eq hset, setNode_eq found, setNode_eq found, setMember, setMember, setMember,
        Array.setIfInBounds_setIfInBounds]

/-- A turn that gives no lock back only overwrites the node, as far as nodes are concerned. -/
theorem keeps_enact (net : Network) (handle : Handle) (turn : Turn result)
    (keeps : ∀ effect ∈ turn.effects, ∀ id, effect ≠ .release id) :
    (net.setNode handle turn.node).Keeps (net.enact handle turn) :=
  Keeps.performs _ handle turn.effects keeps

/-- The network with one more number given out. -/
def numbering (net : Network) : Network := { net with nextTask := net.nextTask + 1 }

theorem keeps_numbering (net : Network) : net.Keeps net.numbering :=
  .of_endpoints rfl rfl fun numbered => numbered.congr (fun _ => rfl) rfl rfl (Nat.le_succ _)

/-! ## Residents -/

/-- The directory leads from an identifier to a node. -/
structure Houses (net : Network) (id : Token) (handle : Handle) (node : Node) : Prop where
  listed : net.directory[id]? = some handle
  stands : net.nodeAt? handle = some node

/-- The node to which the directory leads for an identifier. -/
def resident? (net : Network) (id : Token) : Option Node := net.directory[id]?.bind net.nodeAt?

theorem resident?_eq_some : net.resident? id = some node ↔ ∃ handle, net.Houses id handle node := by
  rw [resident?, Option.bind_eq_some_iff]
  exact exists_congr fun handle => ⟨fun h => ⟨h.1, h.2⟩, fun h => ⟨h.1, h.2⟩⟩

theorem Houses.resident? (h : net.Houses id handle node) : net.resident? id = some node :=
  resident?_eq_some.2 ⟨handle, h⟩

theorem Keeps.resident? (h : net.Keeps after) (id : Token) :
    after.resident? id = net.resident? id := by
  rw [Network.resident?, Network.resident?, h.directory]
  exact Option.bind_congr fun handle _ => h.nodeAt? handle

theorem Keeps.houses (h : net.Keeps after) (houses : net.Houses id handle node) :
    after.Houses id handle node :=
  ⟨h.directory ▸ houses.listed, (h.nodeAt? handle).trans houses.stands⟩

theorem Houses.setNode (h : net.Houses id handle node) (new : Node) :
    (net.setNode handle new).Houses id handle new := by
  refine ⟨by rw [directory_setNode, h.listed], ?_⟩
  rw [nodeAt?_setNode, if_pos rfl, h.stands, Option.map_some]

/-- The directory leads from some identifiers, and from no others, to a node of this identifier, and
the nodes have the same tunables and know no other identifiers than these. -/
structure Populated (net : Network) (config : Config) (members : List Token) : Prop where
  numbered : net.Numbered
  prompt : net.Prompt
  listed : ∀ (id : Token) handle, net.directory[id]? = some handle → id ∈ members
  resides : ∀ id ∈ members, ∃ node, net.resident? id = some node
  named : ∀ id node, net.resident? id = some node → node.id = id
  regular : ∀ id node, net.resident? id = some node → node.Regular config members

theorem Keeps.populated (h : net.Keeps after) (populated : net.Populated config members) :
    after.Populated config members where
  numbered := h.numbered populated.numbered
  prompt := h.prompt populated.prompt
  listed id handle found := populated.listed id handle (h.directory ▸ found)
  resides id mem := h.resident? id ▸ populated.resides id mem
  named id node found := populated.named id node (h.resident? id ▸ found)
  regular id node found := populated.regular id node (h.resident? id ▸ found)

namespace Populated

theorem congr (populated : net.Populated config members) {ids : List Token}
    (same : ∀ id, id ∈ ids ↔ id ∈ members) : net.Populated config ids where
  numbered := populated.numbered
  prompt := populated.prompt
  listed id handle found := (same id).2 (populated.listed id handle found)
  resides id mem := populated.resides id ((same id).1 mem)
  named := populated.named
  regular id node found := (populated.regular id node found).mono fun id => (same id).2

theorem houses (populated : net.Populated config members) (mem : id ∈ members) :
    ∃ handle node, net.Houses id handle node := by
  obtain ⟨node, hnode⟩ := populated.resides id mem
  obtain ⟨handle, hhouses⟩ := resident?_eq_some.1 hnode
  exact ⟨handle, node, hhouses⟩

theorem mem (populated : net.Populated config members) (houses : net.Houses id handle node) :
    id ∈ members :=
  populated.listed id handle houses.listed

theorem id_eq (populated : net.Populated config members) (houses : net.Houses id handle node) :
    node.id = id :=
  populated.named id node houses.resident?

theorem regular_of (populated : net.Populated config members) (houses : net.Houses id handle node) :
    node.Regular config members :=
  populated.regular id node houses.resident?

/-- Different identifiers lead to different handles. -/
theorem handle_inj (populated : net.Populated config members) (houses : net.Houses id handle node)
    {found : Node} (houses' : net.Houses other handle found) : id = other := by
  have heq := houses.stands.symm.trans houses'.stands
  rw [Option.some.injEq] at heq
  rw [← populated.id_eq houses, ← populated.id_eq houses', heq]

theorem serves (populated : net.Populated config members) (houses : net.Houses id handle node) :
    ∃ member, net.Serves id handle member ∧ member.node = node := by
  obtain ⟨member, hmember, rfl⟩ := nodeAt?_eq_some.1 houses.stands
  exact ⟨member, ⟨houses.listed, hmember, populated.id_eq houses,
    (populated.prompt.members handle member hmember).faults⟩, rfl⟩

/-- A node can ask every node. -/
theorem resolve (populated : net.Populated config members) (houses : net.Houses id handle node)
    (mem : other ∈ members) : ∃ contact target, node.resolve net.surroundings other = some contact ∧
      net.Houses other (contact.at handle) target := by
  rw [Node.resolve, populated.id_eq houses]
  split
  · rename_i heq
    exact ⟨.own, node, rfl, heq ▸ houses⟩
  · obtain ⟨peer, target, htarget⟩ := populated.houses mem
    exact ⟨.remote peer, target, congrArg (Option.map Contact.remote) htarget.listed, htarget⟩

theorem knows_iff (populated : net.Populated config members) :
    net.surroundings.knows id = true ↔ id ∈ members := by
  rw [Surroundings.knows, surroundings, Option.isSome_iff_exists]
  constructor
  · rintro ⟨handle, hlisted⟩
    exact populated.listed id handle hlisted
  · intro hmem
    obtain ⟨handle, node, hhouses⟩ := populated.houses hmem
    exact ⟨handle, hhouses.listed⟩

/-! ### Overwriting a node -/

theorem resident?_setNode (populated : net.Populated config members)
    (houses : net.Houses id handle node)
    (new : Node) (other : Token) : (net.setNode handle new).resident? other =
      if other = id then some new else net.resident? other := by
  rw [resident?, directory_setNode]
  split
  · rename_i heq
    rw [heq, houses.listed, Option.bind_some, nodeAt?_setNode, if_pos rfl, houses.stands,
      Option.map_some]
  · rename_i hne
    rw [resident?]
    refine Option.bind_congr fun peer hpeer => ?_
    rw [nodeAt?_setNode, if_neg]
    rintro rfl
    exact hne (populated.handle_inj ⟨hpeer, houses.stands⟩ houses)

theorem setNode (populated : net.Populated config members) (houses : net.Houses id handle node)
    (named : new.id = id) (regular : new.Regular config members) :
    (net.setNode handle new).Populated config members := by
  have hresident := populated.resident?_setNode houses new
  have hprompt := populated.prompt
  obtain ⟨member, hmember, hnode⟩ := nodeAt?_eq_some.1 houses.stands
  refine ⟨?_, ⟨?_, ?_⟩, ?_, ?_, ?_, ?_⟩
  · rw [setNode_eq hmember]
    exact ⟨populated.numbered.tasks, populated.numbered.ready, populated.numbered.waiting⟩
  · intro peer later hlater
    rw [member?_setNode] at hlater
    split at hlater
    · obtain ⟨first, hfirst, rfl⟩ := Option.map_eq_some_iff.1 hlater
      have hmember := hprompt.members peer first hfirst
      exact ⟨hmember.delays, hmember.faults, hmember.store⟩
    · exact hprompt.members peer later hlater
  · intro peer
    rw [script?_setNode, hprompt.scripts]
  · intro other peer hother
    rw [directory_setNode] at hother
    exact populated.listed other peer hother
  · intro other hother
    rw [hresident]
    split
    · exact ⟨new, rfl⟩
    · exact populated.resides other hother
  · intro other later hlater
    rw [hresident] at hlater
    split at hlater
    · rename_i heq
      rw [← Option.some.inj hlater, named, heq]
    · exact populated.named other later hlater
  · intro other later hlater
    rw [hresident] at hlater
    split at hlater
    · rwa [← Option.some.inj hlater]
    · exact populated.regular other later hlater

end Populated

end Network

end RecordRing
