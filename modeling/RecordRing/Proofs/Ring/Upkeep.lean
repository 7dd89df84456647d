import RecordRing.Proofs.Network.Resting
import RecordRing.Proofs.Ring.Tuning

/-!
# What nodes do on their own

The nodes of a ring maintain it in loops, and a node that merges asks for its records, has them
passed to it, and is told when they have arrived.  `Permits` lists these operations.  Apart from the
passes themselves, each of them leads a calm network to a calm one (`Calm.repairs`, `Calm.tunes`,
`Calm.requested`, `Calm.reported`).

## Implementation notes

Who may pass records to whom, and of whom it may be reported that the records have arrived, is left
open here.
-/

namespace RecordRing

open Network

/-- The operations that nodes carry out on their own.  A node asks for a pass if `passes` allows it,
and the end of a pass is reported if `reports` allows it. -/
def Permits (members : List Token) (passes : Token → Token → Prop) (reports : Token → Prop)
    (id : Token) : Operation .nothing → Prop
  | .stabilize => True
  | .fixFingers => True
  | .fixPredecessor => True
  | .askForRecords source => source ∈ members ∧ source ≠ id ∧ passes source id
  | .migrateFor requester => requester ∈ members ∧ requester ≠ id ∧ passes id requester
  | .reportMoved requester => requester ∈ members ∧ requester ≠ id ∧ reports requester
  | _ => False

namespace Node

variable {node later : Node} {source requester : Token} {effect : Effect} {config : Config}
  {members : List Token}

/-- A node has at most come further in taking over its records. -/
def Stays (node later : Node) : Prop :=
  { later with
    lifecycle := node.lifecycle
    migrationSource := node.migrationSource
    pending := node.pending } = node

namespace Stays

theorem id_eq (h : node.Stays later) : later.id = node.id := (congrArg Node.id h :)

theorem fingers (h : node.Stays later) : later.fingers = node.fingers :=
  (congrArg Node.fingers h :)

theorem predecessor (h : node.Stays later) : later.predecessor = node.predecessor :=
  (congrArg Node.predecessor h :)

theorem store (h : node.Stays later) : later.store = node.store := (congrArg Node.store h :)

theorem locks (h : node.Stays later) : later.locks = node.locks := (congrArg Node.locks h :)

theorem regular (h : node.Stays later) (regular : node.Regular config members) :
    later.Regular config members where
  config := (congrArg Node.config h :).trans regular.config
  fingers slot finger hfinger := regular.fingers slot finger (h.fingers ▸ hfinger)
  predecessor before hbefore := regular.predecessor before (h.predecessor ▸ hbefore)
  first := regular.first.trans_eq (congrArg Node.cursor h :).symm
  last := (congrArg Node.cursor h :).trans_lt regular.last

end Stays

theorem stays_notified (node : Node) (candidate : Token) :
    { node with predecessor := noticed node.id node.predecessor candidate }.Stays
      (node.notified candidate).1 :=
  node.rest_notified candidate

theorem stays_migrationEnded (node : Node) (source : Token) :
    node.Stays (node.migrationEnded source).1 := by
  rw [migrationEnded]
  split <;> rfl

theorem stays_reportMigration (node : Node) (requester : Token) :
    node.Stays (node.reportMigration requester).1 := by
  rw [reportMigration]
  split <;> rfl

/-! ### Reports and requests -/

theorem mem_pending_beginMerge (node : Node) (mem : requester ∈ node.beginMerge.1.pending) :
    requester ∈ node.pending := by
  rw [beginMerge] at mem
  split at mem
  · split at mem
    · cases mem
    · exact mem
  · exact mem

theorem mem_effects_beginMerge (node : Node) (mem : effect ∈ node.beginMerge.2) :
    (∃ requester ∈ node.pending, effect = .announce requester) ∨
      ∃ source, node.lifecycle = .joining ∧ node.successor = some source ∧ source ≠ node.id ∧
        effect = .spawn (.askForRecords source) := by
  rw [beginMerge] at mem
  split at mem
  · rename_i source hjoining hsource
    split at mem
    · obtain ⟨requester, hrequester, rfl⟩ := List.mem_map.1 mem
      exact Or.inl ⟨requester, hrequester, rfl⟩
    · rename_i hother
      exact Or.inr ⟨source, hjoining, hsource, hother, List.mem_singleton.1 mem⟩
  · cases mem

theorem mem_pending_notified {candidate : Token}
    (mem : requester ∈ (node.notified candidate).1.pending) : requester ∈ node.pending := by
  rw [notified] at mem
  split at mem
  · exact mem_pending_beginMerge { node with predecessor := some candidate } mem
  · exact mem

/-- A node that is told of another one reports what was left to report, or asks for its records. -/
theorem mem_effects_notified {candidate : Token} (mem : effect ∈ (node.notified candidate).2) :
    (∃ requester ∈ node.pending, effect = .announce requester) ∨
      ∃ source, node.lifecycle = .joining ∧ node.successor = some source ∧ source ≠ node.id ∧
        effect = .spawn (.askForRecords source) := by
  rw [notified] at mem
  split at mem
  · exact mem_effects_beginMerge { node with predecessor := some candidate } mem
  · cases mem

theorem mem_pending_migrationEnded (mem : requester ∈ (node.migrationEnded source).1.pending) :
    requester ∈ node.pending := by
  rw [migrationEnded] at mem
  split at mem
  · cases mem
  · exact mem

theorem mem_effects_migrationEnded (mem : effect ∈ (node.migrationEnded source).2) :
    ∃ requester ∈ node.pending, effect = .announce requester := by
  rw [migrationEnded] at mem
  split at mem
  · obtain ⟨requester, hrequester, rfl⟩ := List.mem_map.1 mem
    exact ⟨requester, hrequester, rfl⟩
  · cases mem

end Node

namespace Network

variable {net after : Network} {config : Config} {members : List Token}
  {passes : Token → Token → Prop} {reports : Token → Prop} {chart : Chart}
  {id peer source requester candidate : Token} {number : Nat} {handle other : Handle}
  {node target later : Node} {result : Shape}

/-! ## Nodes that stay -/

/-- A node is overwritten by one with the same successor and predecessor. -/
theorem Follows.setNode (follows : net.Follows members chart)
    (populated : net.Populated config members) (houses : net.Houses id handle node)
    (fingers : later.fingers.successor = node.fingers.successor)
    (predecessor : later.predecessor = node.predecessor) :
    (net.setNode handle later).Follows members chart := by
  intro other hother
  rw [populated.resident?_setNode houses]
  split
  · rename_i heq
    cases heq
    obtain ⟨hsucc, hpred⟩ := follows.of_houses hother houses
    exact ⟨later, rfl, fingers.trans hsucc, predecessor.trans hpred⟩
  · exact follows other hother

theorem Populated.stays (populated : net.Populated config members)
    (houses : net.Houses id handle node) (stays : node.Stays later) :
    (net.setNode handle later).Populated config members :=
  populated.setNode houses (stays.id_eq.trans (populated.id_eq houses))
    (stays.regular (populated.regular_of houses))

/-! ## Reports -/

theorem member?_perform_of_ne (ne : handle ≠ other) (effect : Effect) :
    (net.perform handle effect).member? other = net.member? other := by
  cases found : net.member? handle with
  | none => rw [perform_none found]
  | some member =>
      have hset (new : Member) : (net.setMember handle new).member? other = net.member? other := by
        rw [member?_setMember found, if_neg ne]
      cases effect with
      | release id =>
          rw [perform_release found]
          split
          · rw [member?_grant, hset]
          · exact hset _
      | spawn operation => rw [perform_spawn found, member?_spawn]
      | announce requester =>
          rw [perform_announce found]
          split
          · exact hset _
          · rw [member?_spawn, hset]
      | tally counter => rw [perform_tally found, member?_count]

/-- A turn changes no other member. -/
theorem member?_enact_of_ne (ne : handle ≠ other) (turn : Turn result) :
    (net.enact handle turn).member? other = net.member? other := by
  have hset : (net.setNode handle turn.node).member? other = net.member? other := by
    rw [member?_setNode, if_neg ne]
  rw [enact]
  generalize net.setNode handle turn.node = first at hset
  induction turn.effects generalizing first with
  | nil => exact hset
  | cons effect rest ih => exact ih _ ((member?_perform_of_ne ne effect).trans hset)

theorem Same.backlog (same : net.Same after) (handle : Handle) :
    after.backlog handle = net.backlog handle := by
  rw [Network.backlog, Network.backlog]
  cases found : net.member? handle with
  | none =>
      have hm := same.members handle
      rw [found, Option.map_none, Option.map_eq_none_iff] at hm
      rw [hm]
  | some member =>
      obtain ⟨later, hlater, huncounted⟩ := same.member? found
      simp only [Member.uncounted, Member.mk.injEq] at huncounted
      rw [hlater, Option.elim_some, Option.elim_some, huncounted.2.2.2.1]

/-! ## Calm networks -/

theorem Calm.owed (calm : net.Calm (Permits members passes reports)) (houses : net.Houses id handle node)
    (mem : requester ∈ node.pending) : Permits members passes reports id (.reportMoved requester) := by
  obtain ⟨member, hmember, rfl⟩ := nodeAt?_eq_some.1 houses.stands
  exact calm.reports id handle member houses.listed hmember requester (List.mem_append_right _ mem)

/-- A node is told about another one. -/
theorem Calm.tells (calm : net.Calm (Permits members passes reports))
    (populated : net.Populated config members) (tells : net.Tells peer candidate after)
    (merging : ∀ target source, net.resident? peer = some target → target.lifecycle = .joining →
      target.successor = some source → source ≠ peer → passes source peer) :
    after.Calm (Permits members passes reports) := by
  obtain ⟨handle, target, houses, same⟩ := tells
  have howed {asker : Token} (hasker : asker ∈ target.pending) :=
    calm.owed houses hasker
  have hid := populated.id_eq houses
  refine (calm.enact populated houses (fun asker hasker => ?_) fun effect heffect => ?_).same same
  · exact howed (Node.mem_pending_notified hasker)
  · rcases Node.mem_effects_notified heffect with ⟨asker, hasker, rfl⟩ | ⟨source, hjoining, hsource,
      hother, rfl⟩
    · exact howed hasker
    · rw [hid] at hother
      exact ⟨(populated.regular_of houses).successor hsource, hother,
        merging target source houses.resident? hjoining hsource hother⟩

/-- Successor repair at a node. -/
theorem Calm.repairs (calm : net.Calm (Permits members passes reports))
    (populated : net.Populated config members) (follows : net.Follows members chart)
    (repairs : net.Repairs id after)
    (merging : ∀ target source, net.resident? (chart.target id) = some target →
      target.lifecycle = .joining → target.successor = some source → source ≠ chart.target id →
        passes source (chart.target id)) : after.Calm (Permits members passes reports) := by
  cases repairs with
  | @alone handle node _ _ houses holds asked found same =>
      have hset : (net.setNode handle (node.setSuccessor id)).Calm (Permits members passes reports) :=
        calm.setNode_same houses.stands rfl
      exact hset.same same
  | @tells handle node _ _ target houses holds asked found ne told =>
      have htarget : towards id _ _ ∈ members :=
        populated.towards_mem ((populated.regular_of houses).successor holds) asked
      rw [follows.target_eq populated houses holds asked] at found htarget
      rw [found] at htarget merging
      have hset :
          (net.setNode handle (node.setSuccessor target)).Calm (Permits members passes reports) :=
        calm.setNode_same houses.stands rfl
      refine hset.tells (populated.leads houses htarget) told ?_
      intro target source hresident
      rw [populated.resident?_setNode houses, if_neg ne] at hresident
      exact merging target source hresident

/-- Finger repair at a node. -/
theorem Calm.tunes {allowed : Token → Operation .nothing → Prop} (calm : net.Calm allowed)
    (tunes : net.Tunes id after) : after.Calm allowed := by
  obtain ⟨handle, node, fingers, cursor, houses, -, same⟩ := tunes
  have hset : (net.setNode handle (node.tuned fingers cursor)).Calm allowed :=
    calm.setNode_same houses.stands rfl
  exact hset.same same

/-! ## Asking for records -/

/-- A node asks another one for its records, which starts a pass there. -/
def Requested (net : Network) (source id : Token) (after : Network) : Prop :=
  ∃ handle, net.directory[source]? = some handle ∧
    (net.spawn (taskOf .background handle (.migrateFor id))).Same after

theorem request_achieves (populated : net.Populated config members)
    (houses : net.Houses id handle node) (mem : source ∈ members) (number : Nat) :
    Achieves number net handle (node.callKnown net.surroundings source (.requestMigration node.id))
      fun _ after => net.Requested source id after := by
  obtain ⟨peer, target, htarget⟩ := populated.houses mem
  have hturn : node.callKnown net.surroundings source (.requestMigration node.id) =
      node.ask (.remote peer) (.requestMigration id) .told := by
    have hknown : net.surroundings.find? source = some peer := htarget.listed
    simp only [Node.callKnown, hknown, populated.id_eq houses]
  have henact : net.enact handle (node.ask (.remote peer) (.requestMigration id) .told) = net :=
    enact_same houses.stands rfl rfl
  have hserves (around : Surroundings) : target.serve around (.requestMigration id) =
      Node.acknowledge (target, [.spawn (.migrateFor id)]) := rfl
  rw [hturn]
  refine (deliver_achieves rfl (henact.symm ▸ populated.prompt) (henact.symm ▸ houses.stands)
    (henact.symm ▸ htarget.stands) hserves (by simp) number).weaken ?_
  rintro outcome after ⟨-, hafter⟩
  refine ⟨peer, htarget.listed, ?_⟩
  obtain ⟨member, hmember, -⟩ := nodeAt?_eq_some.1 htarget.stands
  have hspawn : net.enact peer (Node.acknowledge (target, [.spawn (.migrateFor id)])) =
      net.spawn (taskOf .background peer (.migrateFor id)) := by
    have hself : net.setNode peer target = net := setNode_self htarget.stands
    simp only [enact, Node.acknowledge, hself, List.foldl_cons, List.foldl_nil,
      perform_spawn hmember]
  rw [henact] at hafter
  rwa [← hspawn]

theorem Requested.keeps (requested : net.Requested source id after) : net.Keeps after := by
  obtain ⟨handle, -, same⟩ := requested
  exact (Keeps.spawn net _).trans same.keeps

theorem Calm.requested (calm : net.Calm (Permits members passes reports))
    (requested : net.Requested source id after) (mem : id ∈ members) (other : source ≠ id)
    (allows : passes source id) : after.Calm (Permits members passes reports) := by
  obtain ⟨handle, listed, same⟩ := requested
  have hpermits : Permits members passes reports source (.migrateFor id) :=
    ⟨mem, Ne.symm other, allows⟩
  exact (calm.spawn (.background listed hpermits)).same same

/-! ## Reporting that records have arrived -/

/-- A node is told that its records have been passed to it. -/
def Reported (net : Network) (requester id : Token) (after : Network) : Prop :=
  ∃ handle target, net.Houses requester handle target ∧
    (net.enact handle (Node.acknowledge (target.migrationEnded id))).Same after

theorem not_release_migrationEnded (node : Node) (source : Token) :
    ∀ effect ∈ (node.migrationEnded source).2, ∀ id, effect ≠ .release id := by
  intro effect heffect
  obtain ⟨requester, -, rfl⟩ := Node.mem_effects_migrationEnded heffect
  exact fun _ => nofun

theorem report_achieves (populated : net.Populated config members)
    (houses : net.Houses id handle node) (mem : requester ∈ members) (number : Nat) :
    Achieves number net handle (node.callKnown net.surroundings requester (.migrationEnded node.id))
      fun _ after => net.Reported requester id after := by
  obtain ⟨peer, target, htarget⟩ := populated.houses mem
  have hturn : node.callKnown net.surroundings requester (.migrationEnded node.id) =
      node.ask (.remote peer) (.migrationEnded id) .told := by
    have hknown : net.surroundings.find? requester = some peer := htarget.listed
    simp only [Node.callKnown, hknown, populated.id_eq houses]
  have henact : net.enact handle (node.ask (.remote peer) (.migrationEnded id) .told) = net :=
    enact_same houses.stands rfl rfl
  rw [hturn]
  refine (deliver_achieves rfl (henact.symm ▸ populated.prompt) (henact.symm ▸ houses.stands)
    (henact.symm ▸ htarget.stands) (fun _ => rfl) (not_release_migrationEnded target id)
      number).weaken ?_
  rintro outcome after ⟨-, hafter⟩
  rw [henact] at hafter
  exact ⟨peer, target, htarget, hafter⟩

/-- Only the node that is told changes. -/
theorem Reported.keeps (reported : net.Reported requester id after) : ∃ handle target,
    net.Houses requester handle target ∧
      (net.setNode handle (target.migrationEnded id).1).Keeps after := by
  obtain ⟨handle, target, houses, same⟩ := reported
  exact ⟨handle, target, houses, (keeps_enact net handle
    (Node.acknowledge (target.migrationEnded id)) (not_release_migrationEnded target id)).trans
      same.keeps⟩

theorem Calm.reported (calm : net.Calm (Permits members passes reports))
    (populated : net.Populated config members) (reported : net.Reported requester id after) :
    after.Calm (Permits members passes reports) := by
  obtain ⟨handle, target, houses, same⟩ := reported
  refine (calm.enact populated houses (fun asker hasker => ?_) fun effect heffect => ?_).same same
  · exact calm.owed houses (Node.mem_pending_migrationEnded hasker)
  · obtain ⟨asker, hasker, rfl⟩ := Node.mem_effects_migrationEnded heffect
    exact calm.owed houses hasker

/-- Another node has as many reports left as before. -/
theorem Reported.backlog (reported : net.Reported requester id after)
    (populated : net.Populated config members) (houses : net.Houses id handle node)
    (other : requester ≠ id) : after.backlog handle = net.backlog handle := by
  obtain ⟨peer, target, htarget, same⟩ := reported
  have hne : peer ≠ handle := by
    rintro rfl
    exact other (populated.handle_inj htarget houses)
  rw [same.backlog, Network.backlog, Network.backlog, member?_enact_of_ne hne]

end Network

end RecordRing
