import Mathlib.Data.List.Sort
import RecordRing.Proofs.Cluster.Settled
import RecordRing.Proofs.Cluster.Tending
import RecordRing.Proofs.Network.Within
import RecordRing.Proofs.Ring.Latecomer

/-!
# The simulation command

The command builds a ring, lets its nodes maintain it until it is in order, stores records, lets one
more node join, and waits until the ring is in order again.  Whenever it comes to a report, every
record has arrived at its owner by then (`simulate_places_records`): a ring in order has taken the
latecomer in, and the latecomer is stable only when it has got all its records.
-/

namespace RecordRing

open Network

/-! ## The arrival of a newcomer -/

/-- Who lives where when a node has joined: the newcomer waits for a predecessor, and the others,
if they have joined before, are as far as they were. -/
theorem Network.Joins.origin {net after : Network} {config : Config} {members : List Token}
    {id next other : Token} {later : Node} (joins : net.Joins id next after)
    (populated : net.Populated config members) (mem : next ∈ members) (ne : next ≠ id)
    (found : after.resident? other = some later) :
    other = id ∧ later.lifecycle = .joining ∨
      other ≠ id ∧ ∃ node, net.resident? other = some node ∧ later.fingers = node.fingers ∧
        (node.lifecycle ≠ .joining → later.lifecycle = node.lifecycle) := by
  obtain ⟨handle, node, houses, tells⟩ := joins
  have hregular := (populated.regular_of houses).rejoining.setSuccessor mem
  have hid := populated.id_eq houses
  have hplaced : (net.setNode handle (node.rejoining.setSuccessor next)).Populated config members :=
    populated.setNode houses hid hregular
  have hresident := populated.resident?_setNode houses (node.rejoining.setSuccessor next)
  obtain ⟨target, htarget, hafter⟩ := tells.resident? hplaced other
  rw [hresident, if_neg ne] at htarget
  rw [hafter] at found
  split at found
  · rename_i heq
    subst heq
    obtain rfl := Option.some.inj found
    exact Or.inr ⟨ne, target, htarget, target.fingers_notified id,
      fun joined => Node.lifecycle_notified joined id⟩
  · rw [hresident] at found
    split at found
    · rename_i heq
      obtain rfl := Option.some.inj found
      exact Or.inl ⟨heq, rfl⟩
    · rename_i hother
      exact Or.inr ⟨hother, later, found, rfl, fun _ => rfl⟩

namespace Trial

variable {cluster after : Cluster} {members keys : List Token} {founder late id key : Token}
  {config : Config} {chart : Chart} {passes : Token → Token → Prop} {reports : Token → Prop}
  {holder : Token → Option Token} {phase : Phase}

/-! ## Maintenance -/

theorem permits_upkeep (id : Token) (config : Config) : ∀ entry ∈ Cluster.upkeep config,
    Permits members passes reports id entry.1 := by
  intro entry hentry
  simp only [Cluster.upkeep, List.mem_cons, List.not_mem_nil, or_false] at hentry
  rcases hentry with rfl | rfl | rfl <;> trivial

/-- A ring without records is maintained until it is in order. -/
theorem Works.come_to_order
    (works : Works config members (fun _ _ => True) (fun _ => True) chart (fun _ => none) cluster)
    (distinct : members.Nodup) (included : config.isExcluded storage = false) (seconds : Nat) :
    Ends (do members.forM maintain; awaitRing members seconds) cluster
      (fun _ after => ∃ chart, Settled config members chart (placing (inOrder members) []) after)
      (· = .notConverged seconds) := by
  let regime : Regime Unit := settling config members storage included cluster.net.directory
  have htended : cluster.Tended regime cluster.nodes () :=
    ⟨⟨⟨⟨works.hosts.populated, ⟨chart, works.follows⟩, works.stocked⟩, rfl⟩, works.calm⟩, rfl⟩
  refine .bind ((Ends.forM (fun _ after => after.Tended regime cluster.nodes ()) htended ?_).imp ?_)
  · intro done id rest left hmembers hleft
    have hmem : id ∈ members := hmembers ▸ List.mem_append_right _ List.mem_cons_self
    have hpermits (config : Config) : ∀ entry ∈ Cluster.upkeep config, Plain members id entry.1 :=
      permits_upkeep id config
    refine .changed (hleft.maintain hpermits ?_)
    rw [works.hosts.same id hmem]
    exact congrArg (·[id]?) hleft.rests.holds.2.symm
  · intro _ left hleft
    refine (hleft.awaitRing members seconds).imp ?_
    rintro _ after ⟨hring, _, -, hafter⟩
    obtain ⟨⟨hpopulated, ⟨last, hfollows⟩, hstocked⟩, hdirectory⟩ := hafter.rests.holds
    have hhosts : after.Hosts config members :=
      ⟨hpopulated, fun id hid => by rw [hafter.nodes, hdirectory, works.hosts.same id hid]⟩
    have hworks : Works config members (fun _ _ => True) (fun _ => True) last (fun _ => none)
        after := ⟨⟨hhosts, hfollows⟩, hstocked, hafter.rests.calm⟩
    have hempty : placing (inOrder members) [] = fun _ => none :=
      funext fun key => if_neg List.not_mem_nil
    exact ⟨last, hempty ▸ hworks.settled distinct hring⟩

/-! ## A latecomer -/

/-- The arrival of a newcomer at a ring that keeps the records of some keys. -/
def arrival (config : Config) (members : List Token) (late : Token) (keys : List Token)
    (distinct : (members ++ [late]).Nodup) (mem : founder ∈ members)
    (included : config.isExcluded storage = false) : Arrival where
  config := config
  ids := inOrder (members ++ [late])
  late := late
  name := storage
  keys := keys
  ascending := ascending_inOrder distinct
  mem := mem_inOrder.2 (List.mem_append_right _ (List.mem_singleton_self late))
  company := ⟨founder, mem_inOrder.2 (List.mem_append_left _ mem),
    (List.nodup_append.1 distinct).2.2 founder mem late (List.mem_singleton_self late)⟩
  included := included

/-- Ascending lists with the same members are the same. -/
theorem eq_of_ascending {ids others : List Token} (ascending : Ascending ids)
    (also : Ascending others) (same : ∀ id, id ∈ ids ↔ id ∈ others) : ids = others := by
  have : Std.Antisymm fun a b : Token => a < b :=
    ⟨fun _ _ hless hmore => absurd hmore (UInt64.lt_asymm hless)⟩
  have : Std.Irrefl fun a b : Token => a < b := ⟨fun a => UInt64.lt_irrefl a.word⟩
  exact List.Pairwise.eq_of_mem_iff ascending also same

theorem not_mem_of_distinct (distinct : (members ++ [late]).Nodup) : late ∉ members := fun h =>
  (List.nodup_append.1 distinct).2.2 late h late (List.mem_singleton_self late) rfl

/-- Without the newcomer there is the ring that it joins. -/
theorem erase_late (distinct : (members ++ [late]).Nodup) :
    (inOrder (members ++ [late])).erase late = inOrder members := by
  have hids := ascending_inOrder distinct
  refine eq_of_ascending (hids.erase late)
    (ascending_inOrder (List.nodup_append.1 distinct).1) fun id => ?_
  rw [mem_erase_iff hids, mem_inOrder, mem_inOrder, List.mem_append, List.mem_singleton]
  refine ⟨fun h => h.2.resolve_right h.1, fun h => ⟨?_, Or.inl h⟩⟩
  exact ne_of_mem_of_not_mem h (not_mem_of_distinct distinct)

section Arrival

variable (distinct : (members ++ [late]).Nodup) (mem : founder ∈ members)
  (included : config.isExcluded storage = false)

/-- A settled ring finds the place of a newcomer before the node after it. -/
theorem owner_late : RecordRing.ownerOf (inOrder members) late =
    (arrival config members late keys distinct mem included).next := by
  let joining := arrival config members late keys distinct mem included
  rw [← erase_late distinct]
  refine (joining.ownerOf_erase_late late).trans (if_pos ?_)
  exact ownerOf_self joining.ascending joining.mem

/-- The records of a settled ring are where they may be when a node joins. -/
theorem stores_placing : (arrival config members late keys distinct mem included).Stores .outside
    (placing (inOrder members) keys) where
  places key id hheld := by
    rw [placing] at hheld
    split at hheld
    · cases hheld
      show _ = RecordRing.ownerOf ((inOrder (members ++ [late])).erase late) key
      rw [erase_late distinct]
    · cases hheld
  filled key := by
    rw [placing]
    split
    · rename_i hkey
      exact ⟨fun _ => hkey, fun _ => rfl⟩
    · rename_i hkey
      refine ⟨fun h => ?_, fun h => absurd h hkey⟩
      cases h

/-- In the end every record is at its owner. -/
theorem placing_of_stores (stores :
      (arrival config members late keys distinct mem included).Stores .placed holder) :
    holder = placing (inOrder (members ++ [late])) keys := by
  funext key
  rw [placing]
  split
  · rename_i hkey
    obtain ⟨id, hid⟩ := Option.isSome_iff_exists.1 ((stores.filled key).2 hkey)
    exact hid.trans (congrArg some (stores.places key id hid))
  · rename_i hkey
    exact Option.not_isSome_iff_eq_none.1 fun h => hkey ((stores.filled key).1 h)

/-- A lookup from a settled ring, while a newcomer that nobody knows yet starts to join, names the
node after the newcomer. -/
theorem Settled.place
    (settled : Settled config members chart holder cluster) {start : Network} {number : Nat}
    {peer : Handle} {target : Node} (populated : start.Populated config (members ++ [late]))
    (same : ∀ other, other ≠ late → start.resident? other = cluster.net.resident? other)
    (houses : start.Houses founder peer target) :
    Achieves number start peer (target.lookUp start.surroundings late) fun outcome after =>
      start.Same after ∧ (∀ next, outcome = .ok next →
        next = (arrival config members late keys distinct mem included).next) ∧
        ∀ failure, outcome = .error failure → GivesUp config members (.failed failure) := by
  have hnew := not_mem_of_distinct distinct
  have hsame {other : Token} (hother : other ∈ members) :
      start.resident? other = cluster.net.resident? other :=
    same other (ne_of_mem_of_not_mem hother hnew)
  have hfollows : start.Follows (inOrder members) chart := fun other hother =>
    hsame (mem_inOrder.1 hother) ▸ settled.follows other (mem_inOrder.1 hother)
  have hring : start.SuccessorRing (inOrder members) := by
    refine hfollows.successorRing populated (ascending_inOrder settled.distinct) settled.closed.succ
      fun other hother node hnode slot finger hfinger => ?_
    rw [hsame (mem_inOrder.1 hother)] at hnode
    exact mem_inOrder.2 ((settled.hosts.populated.regular other node hnode).fingers slot finger
      hfinger)
  obtain ⟨member, hserves, rfl⟩ := populated.serves houses
  have hlookup := lookUp_achieves hring populated.prompt (mem_inOrder.2 mem) hserves number late
  rw [(populated.regular_of houses).config, length_inOrder] at hlookup
  refine hlookup.weaken fun outcome after h => ⟨h.1, fun next hnext => ?_, ?_⟩
  · rw [← owner_late distinct mem included]
    rcases h.2.1 with hok | herror
    · exact Except.ok.inj (hnext.symm.trans hok)
    · cases hnext.symm.trans herror
  · rintro failure rfl
    exact givesUp_of_lookupEnds h.2

/-- In a settled ring nothing is left to do that concerns a newcomer. -/
theorem Settled.works (settled : Settled config members chart holder cluster)
    (distinct : (members ++ [late]).Nodup) (mem : founder ∈ members)
    (included : config.isExcluded storage = false) :
    Works config members
      ((arrival config members late keys distinct mem included).passes .outside)
      ((arrival config members late keys distinct mem included).reports .outside) chart holder
        cluster where
  toStands := settled.toStands
  stocked := settled.stocked
  calm := by
    have hother {id : Token} (hid : id ∈ members) : id ≠ late :=
      ne_of_mem_of_not_mem hid (not_mem_of_distinct distinct)
    refine settled.calm.mono fun id handle hlisted operation permits => ?_
    have hid := settled.hosts.populated.listed id handle hlisted
    cases operation with
    | serve request => exact permits.elim
    | found => exact permits.elim
    | join known => exact permits.elim
    | stabilize => trivial
    | fixFingers => trivial
    | refreshFingers => exact permits.elim
    | fixPredecessor => trivial
    | attempt call => exact permits.elim
    | migrateFor requester =>
        exact ⟨permits.1, permits.2.1, fun h => absurd h (hother permits.1)⟩
    | askForRecords source => exact ⟨permits.1, permits.2.1, fun h => absurd h (hother hid)⟩
    | reportMoved requester =>
        exact ⟨permits.1, permits.2.1, fun h => absurd h (hother permits.1)⟩

/-- A settled ring that a newcomer has joined skips it, and nobody but the node after it knows it.
-/
theorem Settled.takes (settled : Settled config members chart holder cluster) {mid : Network}
    (joins : (cluster.enlist config late).net.numbering.Joins late
      (arrival config members late keys distinct mem included).next mid)
    (like : mid.Like after.net)
    (works : Works config (members ++ [late]) passes reports ((chart.joined late
      (arrival config members late keys distinct mem included).next).told
      (arrival config members late keys distinct mem included).next late) holder after) :
    (arrival config members late keys distinct mem included).Takes .outside ((chart.joined late
      (arrival config members late keys distinct mem included).next).told
      (arrival config members late keys distinct mem included).next late) after.net where
  populated := works.hosts.populated.congr fun _ => mem_inOrder
  follows := works.follows.congr fun _ => mem_inOrder.1
  charts := by
    let joining := arrival config members late keys distinct mem included
    obtain ⟨c, hc, hcompany⟩ := joining.company
    have hclosed : chart.Closed (joining.ids.erase late) := (erase_late distinct).symm ▸
      settled.closed
    exact hclosed.skips joining.ascending joining.mem hc hcompany
  fits id later found := by
    let joining := arrival config members late keys distinct mem included
    have hkept := keeps_numbering (cluster.enlist config late).net
    rw [like.keeps.resident?] at found
    rcases joins.origin (hkept.populated (settled.hosts.enlist late).populated)
      (mem_inOrder.1 joining.next_mem) joining.next_ne found with
      ⟨rfl, hjoining⟩ | ⟨hother, node, hnode, hfingers, hlifecycle⟩
    · refine ⟨fun _ => ⟨rfl, rfl⟩, fun _ h => ?_, fun h => absurd rfl h⟩
      cases hjoining.symm.trans h
    · rw [hkept.resident?, settled.hosts.resident?_enlist, if_neg hother] at hnode
      have hstable := settled.stable id node hnode
      have hsame : later.lifecycle = .stable :=
        (hlifecycle fun h => nomatch hstable.symm.trans h).trans hstable
      refine ⟨fun h => ?_, fun h => absurd h hother,
        fun _ _ slot hfinger => not_mem_of_distinct distinct ?_⟩
      · cases hsame.symm.trans h
      · exact (settled.hosts.populated.regular id node hnode).fingers slot late
          (hfingers ▸ hfinger)

/-- A newcomer joins a settled ring, which skips it at first. -/
theorem Settled.join
    (settled : Settled config members chart (placing (inOrder members) keys) cluster) :
    Ends (ask late (.join founder)) (cluster.enlist config late) (fun _ after =>
      after.Hosts config (members ++ [late]) ∧ after.Tended
        ((arrival config members late keys distinct mem included).taking after.net.directory)
        after.nodes .outside) (GivesUp config members) := by
  let joining := arrival config members late keys distinct mem included
  have hnew := not_mem_of_distinct distinct
  have hinside : joining.next ∈ members := by
    rw [← owner_late distinct mem included]
    exact mem_inOrder.1 (ownerOf_mem (mem_inOrder.2 mem) late)
  have hlacks (key : Token) : placing (inOrder members) keys key ≠ some late := by
    rw [placing]
    split
    · refine fun h => hnew ?_
      rw [← Option.some.inj h]
      exact mem_inOrder.1 (ownerOf_mem (mem_inOrder.2 mem) key)
    · exact (Option.some_ne_none _).symm
  have hworks : Works config members (joining.passes .outside) (joining.reports .outside) chart
      (placing (inOrder members) keys) cluster := settled.works distinct mem included
  refine .bind ((hworks.joins mem hnew hlacks
    (fun outcome => (∀ next, outcome = .ok next → next = joining.next) ∧
      ∀ failure, outcome = .error failure → GivesUp config members (.failed failure))
    (fun next hnext => hnext.1 next rfl ▸ hinside) ?_
    (fun hpopulated hsame houses =>
      settled.place distinct mem included hpopulated hsame houses)).imp ?_)
  · intro next target source _ hfound hjoining
    cases (settled.stable next target hfound).symm.trans hjoining
  · rintro outcome after (⟨next, mid, hnext, rfl, hjoins, hlike, hworks⟩ | ⟨failure, hgives, rfl⟩)
    · obtain rfl := hnext.1 next rfl
      have htakes := settled.takes distinct mem included hjoins hlike hworks
      refine .pure ⟨hworks.hosts, ⟨⟨⟨_, _, htakes, hworks.stocked,
        stores_placing distinct mem included⟩, rfl⟩, ?_⟩, rfl⟩
      exact hworks.calm.mono fun id _ _ => Permits.mono (fun _ => mem_inOrder.2)
        (fun _ _ h => h) (fun _ h => h) id
    · exact .throw (hgives.2 failure rfl)

/-- When a ring that takes a newcomer in is found in order, every record is at its owner. -/
theorem settled_of_tended {directory : Std.TreeMap Token Handle}
    (hosts : cluster.Hosts config (members ++ [late])) (same : directory = cluster.net.directory)
    (tended : after.Tended
      ((arrival config members late keys distinct mem included).taking directory) cluster.nodes
      phase) (ring : after.isRingOf (members ++ [late]) = true) :
    ∃ chart, Settled config (members ++ [late]) chart
      (placing (inOrder (members ++ [late])) keys) after := by
  obtain ⟨⟨chart, holder, htakes, hstocked, hstores⟩, hdirectory⟩ := tended.rests.holds
  have hhosts : after.Hosts config (members ++ [late]) := by
    refine ⟨htakes.populated.congr fun _ => mem_inOrder.symm, fun id hid => ?_⟩
    rw [tended.nodes, hdirectory, same, hosts.same id hid]
  have hworks : Works config (members ++ [late])
      ((arrival config members late keys distinct mem included).passes phase)
      ((arrival config members late keys distinct mem included).reports phase) chart holder after :=
    ⟨⟨hhosts, htakes.follows.congr fun _ => mem_inOrder.2⟩, hstocked,
      tended.rests.calm.mono fun id _ _ => Permits.mono (fun _ => mem_inOrder.1)
        (fun _ _ h => h) (fun _ h => h) id⟩
  have hsettled := hworks.settled distinct ring
  -- the latecomer is stable, which it is at the last phase only
  obtain ⟨node, hnode⟩ := hhosts.populated.resides late
    (List.mem_append_right _ (List.mem_singleton_self late))
  obtain rfl := (htakes.fits late node hnode).waits rfl (hsettled.stable late node hnode)
  exact ⟨chart, placing_of_stores distinct mem included hstores ▸ hsettled⟩

/-- A newcomer that has joined is maintained until the ring is in order again. -/
theorem come_to_order_again (hosts : cluster.Hosts config (members ++ [late]))
    (tended : cluster.Tended
      ((arrival config members late keys distinct mem included).taking cluster.net.directory)
      cluster.nodes .outside) (seconds : Nat) :
    Ends (do maintain late; awaitRing (members ++ [late]) seconds) cluster
      (fun _ after => ∃ chart, Settled config (members ++ [late]) chart
        (placing (inOrder (members ++ [late])) keys) after) (· = .notConverged seconds) := by
  let joining := arrival config members late keys distinct mem included
  have hpermits (config : Config) : ∀ entry ∈ Cluster.upkeep config,
      joining.allowed .outside late entry.1 := permits_upkeep late config
  have hlate := List.mem_append_right members (List.mem_singleton_self late)
  refine .bind (.changed ?_)
  refine ((tended.maintain hpermits (hosts.same late hlate)).awaitRing (members ++ [late])
    seconds).imp ?_
  rintro _ after ⟨hring, later, -, hafter⟩
  exact settled_of_tended distinct mem included hosts rfl hafter hring

end Arrival

/-! ## The command -/

theorem included_paced (period : Nat) : (paced period).isExcluded storage = false := rfl

/-- What may keep the command from a report. -/
inductive Hindrance (nodes records seconds : Nat) : Trouble → Prop where
  /-- There are no nodes to begin with. -/
  | nobody (none : nodes = 0) : Hindrance nodes records seconds .noNodes
  /-- The names of two nodes lead to one identifier. -/
  | nameTaken {number : Nat} (clash : ¬ (nodeIds (nodes + 1)).Nodup) (mem : number ≤ nodes) :
      Hindrance nodes records seconds (.nameTaken (nodeName number) (nodeId number))
  /-- The ring takes too long to settle. -/
  | notConverged : Hindrance nodes records seconds (.notConverged seconds)
  /-- A lookup gives up, which takes more nodes than it may ask. -/
  | gaveUp {key : Token} (many : Config.standard.maxHops < nodes) :
      Hindrance nodes records seconds (.failed (.hopLimitExceeded key Config.standard.maxHops))
  /-- The names of two records lead to one key. -/
  | keyTaken {number : Nat} (clash : ¬ (recordKeys records).Nodup) (mem : number < records) :
      Hindrance nodes records seconds
        (.failed (.store (.alreadyExists storage (recordKey number))))

/-- A lookup among the nodes that are there, of which there are not more than are to be. -/
theorem Hindrance.of_givesUp {nodes records seconds period : Nat} {trouble : Trouble}
    (gives : GivesUp (paced period) members trouble) (few : members.length ≤ nodes + 1) :
    Hindrance nodes records seconds trouble := by
  obtain ⟨⟨key, rfl⟩, hmany⟩ := gives
  have hlimit : (paced period).maxHops = Config.standard.maxHops := rfl
  rw [hlimit] at hmany ⊢
  exact .gaveUp (by omega)

/-- A key that a record has already been stored under. -/
theorem Hindrance.of_taken {nodes records seconds : Nat} {trouble : Trouble}
    (taken : ¬ (recordKeys records).Nodup ∧ ∃ number < records,
      trouble = .failed (.store (.alreadyExists storage (recordKey number)))) :
    Hindrance nodes records seconds trouble := by
  obtain ⟨hclash, number, hnumber, rfl⟩ := taken
  exact .keyTaken hclash hnumber

/-- What the command reports of a ring of named nodes. -/
theorem simulate_ends (nodes records period seconds : Nat) :
    Ends (simulate nodes records period seconds) Cluster.empty (fun report _ =>
      (nodeIds (nodes + 1)).Nodup ∧ (recordKeys records).Nodup ∧
      Circuit (inOrder (nodeIds (nodes + 1))) (nodeId 0) report.ring ∧
      report.nodes = (inOrder (nodeIds (nodes + 1))).map
        (share (inOrder (nodeIds (nodes + 1))) (recordKeys records)) ∧
      report.joiner = nodeId nodes ∧
      report.moved = (share (inOrder (nodeIds (nodes + 1))) (recordKeys records)
        (nodeId nodes)).records ∧
      report.misplaced = 0) (Hindrance nodes records seconds) := by
  cases nodes with
  | zero => exact .bind (.throw (.nobody rfl))
  | succ others =>
      have hids : nodeIds (others + 1 + 1) =
          (nodeId 0 :: (List.range others).map fun number => nodeId (number + 1)) ++
            [nodeId (others + 1)] := by
        rw [← nodeIds_succ, nodeIds, List.range_succ, List.map_append]
        rfl
      have hfewer (hnodup : (nodeIds (others + 1 + 1)).Nodup) : (nodeIds (others + 1)).Nodup := by
        rw [hids, ← nodeIds_succ] at hnodup
        exact (List.nodup_append.1 hnodup).1
      have hlength : (nodeId 0 :: (List.range others).map fun number =>
          nodeId (number + 1)).length = others + 1 := by
        rw [List.length_cons, List.length_map, List.length_range]
      have hslow {trouble : Trouble} (h : trouble = .notConverged seconds) :
          Hindrance (others + 1) records seconds trouble := h ▸ .notConverged
      refine .bind ((build_works (paced (max period 1)) others fun hclash number hnumber =>
        .nameTaken (fun hnodup => hclash (hfewer hnodup)) (Nat.le_succ_of_le hnumber)).imp ?_)
      rintro _ built ⟨hdistinct, rfl, hbuilt⟩
      have hincluded := included_paced (max period 1)
      rw [nodeIds_succ] at hdistinct
      have hfounder :
          nodeId 0 ∈ nodeId 0 :: (List.range others).map fun number => nodeId (number + 1) :=
        List.mem_cons_self ..
      refine .bind_assoc ((hbuilt.come_to_order hdistinct hincluded seconds).weaken ?_
        fun _ => hslow)
      rintro _ ordered ⟨chart, hordered⟩
      have hfew {trouble : Trouble} : GivesUp (paced (max period 1)) _ trouble →
          Hindrance (others + 1) records seconds trouble := fun hgives =>
        Hindrance.of_givesUp hgives (Nat.le_trans (Nat.le_of_eq hlength) (Nat.le_succ _))
      refine .bind ((hordered.storeRecords hfounder records).weaken ?_ fun _ h =>
        h.elim hfew .of_taken)
      rintro _ filled ⟨hkeys, hfilled⟩
      have hclash (htaken : nodeId (others + 1) ∈
          nodeId 0 :: (List.range others).map fun number => nodeId (number + 1)) :
          ¬ (nodeIds (others + 1 + 1)).Nodup := by
        rw [hids]
        exact fun hnodup =>
          (List.nodup_append.1 hnodup).2.2 _ htaken _ (List.mem_singleton_self _) rfl
      refine .bind ((add_ends hfilled.hosts (others + 1) fun htaken =>
        .nameTaken (hclash htaken) (Nat.le_refl _)).imp ?_)
      rintro late _ ⟨hnew, rfl, rfl⟩
      have hlate := List.nodup_append.2 ⟨hdistinct, List.nodup_singleton (nodeId (others + 1)),
        fun a ha b hb => by rw [List.mem_singleton.1 hb]; exact ne_of_mem_of_not_mem ha hnew⟩
      refine .bind ((hfilled.join hlate hfounder hincluded).weaken ?_ fun _ => hfew)
      rintro _ joined ⟨hhosts, hjoined⟩
      refine .bind_assoc
        ((come_to_order_again hlate hfounder hincluded hhosts hjoined seconds).weaken ?_
          fun _ => hslow)
      rintro _ last ⟨closing, hlast⟩
      rw [hids]
      refine (hlast.takeStock hkeys (List.mem_append_left _ hfounder)
        (List.mem_append_right _ (List.mem_singleton_self _))).weaken (fun report _ h => ?_)
          fun _ hgives => Hindrance.of_givesUp hgives ?_
      · exact ⟨hlate, hkeys, h⟩
      · rw [List.length_append, hlength, List.length_singleton]

end Trial

open Trial

/-- Whatever the numbers of nodes and of records, the period, and the time that the ring may take to
settle, what the command reports is a ring in which every record is at its owner: no record is
misplaced; the ring has the identifiers of all nodes and of the latecomer, once each, clockwise from
the founder; the nodes are listed by ascending identifier, all stable, each with as many records as
there are keys that it owns, which make up all the records; and what has moved to the latecomer is
what it holds, the records of the keys that it owns among all of them.  There is no report only if
the ring takes too long to settle, two names lead to one token, there are more nodes than a lookup may
ask, or there is none to begin with. -/
theorem simulate_places_records (nodes records periodMillis settleSeconds : Nat) :
    let ids := nodeIds (nodes + 1)
    let owned (id : Token) : Nat :=
      (recordKeys records).countP fun key => decide (ownerOf (inOrder ids) key = id)
    match (Command.simulate nodes records periodMillis settleSeconds).run with
    | .ok (.simulation report) =>
        report.misplaced = 0 ∧
        ids.Nodup ∧ Circuit ids (nodeId 0) report.ring ∧
        (report.nodes.map (·.id)).Perm ids ∧
        (report.nodes.map (·.id)).Pairwise (· < ·) ∧
        (∀ placement ∈ report.nodes,
          placement.lifecycle = .stable ∧ placement.records = owned placement.id) ∧
        (report.nodes.map (·.records)).sum = records ∧
        report.joiner = nodeId nodes ∧ report.moved = owned (nodeId nodes) ∧
        ⟨report.joiner, .stable, report.moved⟩ ∈ report.nodes
    | .ok (.lookup _) => False
    | .error trouble => Hindrance nodes records settleSeconds trouble := by
  intro ids owned
  have hends := simulate_ends nodes records periodMillis settleSeconds
  have hrun : (Command.simulate nodes records periodMillis settleSeconds).run = Prod.fst <$>
      (CommandReport.simulation <$>
        Trial.simulate nodes records periodMillis settleSeconds).run Cluster.empty := rfl
  rw [StateT.run_map] at hrun
  rw [Ends] at hends
  split at hends
  · rename_i report after hreport
    obtain ⟨hdistinct, hkeys, hring, hnodes, hjoiner, hmoved, hmisplaced⟩ := hends
    rw [hreport] at hrun
    have hsorted : (inOrder ids).Perm ids := List.mergeSort_perm ..
    have hids : report.nodes.map (·.id) = inOrder ids := by
      rw [hnodes, List.map_map]
      exact List.map_id _
    have hsum : (report.nodes.map (·.records)).sum = records := by
      have hfounder : nodeId 0 ∈ inOrder ids :=
        mem_inOrder.2 (List.mem_map.2 ⟨0, List.mem_range.2 (Nat.succ_pos nodes), rfl⟩)
      rw [hnodes, List.map_map]
      refine (sum_shares (hsorted.nodup_iff.2 hdistinct) hfounder).trans ?_
      rw [recordKeys, List.length_map, List.length_range]
    rw [hrun]
    refine ⟨hmisplaced, hdistinct, ⟨hring.perm.trans hsorted, hring.clockwise⟩, hids ▸ hsorted,
      hids ▸ ascending_inOrder hdistinct, fun placement hplacement => ?_, hsum, hjoiner, hmoved, ?_⟩
    · rw [hnodes] at hplacement
      obtain ⟨id, -, rfl⟩ := List.mem_map.1 hplacement
      exact ⟨rfl, rfl⟩
    · rw [hnodes, hjoiner, hmoved]
      exact List.mem_map_of_mem (mem_inOrder.2
        (List.mem_map_of_mem (List.mem_range.2 (Nat.lt_succ_self nodes))))
  · rename_i trouble hreport
    rw [hreport] at hrun
    rw [hrun]
    exact hends

/-! ### A run with a report -/

theorem mergeSort_eq_insertionSort (members : List Token) :
    members.mergeSort (fun a b => decide (a ≤ b)) = members.insertionSort (· ≤ ·) := by
  have : Std.Total (fun a b : Token => a ≤ b) := ⟨fun a b => by
    rw [Token.le_iff_toNat, Token.le_iff_toNat]
    exact Nat.le_total ..⟩
  have : IsTrans Token (fun a b => a ≤ b) := ⟨fun a b c hab hbc => by
    rw [Token.le_iff_toNat] at hab hbc ⊢
    exact Nat.le_trans hab hbc⟩
  have : Std.Antisymm (fun a b : Token => a ≤ b) := ⟨fun a b hab hba => by
    rw [Token.le_iff_toNat] at hab hba
    exact Token.toNat_inj.1 (Nat.le_antisymm hab hba)⟩
  exact List.mergeSort_eq_insertionSort _ members

/-- A ring of two nodes with three records comes to order again within five seconds after a third
node has joined, and is reported on. -/
theorem isOk_run_simulate : (Command.simulate 2 3 100 5).run.isOk = true := by
  -- The schedules are brought to the surface, where they can be replaced by those that reduce.
  delta Command.run Command.trial Trial.simulate Trial.lookup Trial.repair Trial.build
    Trial.addJoining Trial.awaitRing Trial.untilRing Trial.untilRing._f Trial.storeRecord
    Trial.takeStock Trial.stockOf Trial.ownerOf Trial.ask Trial.attempt Cluster.conduct Cluster.await
    Cluster.advance Cluster.isRingOf
  rw [Network.await_eq_awaitWithin 64, Network.elapse_eq_elapseWithin 64]
  simp only [mergeSort_eq_insertionSort]
  decide +kernel

/-- The third node of that ring takes one of the three records over. -/
theorem simulate_places_records_three :
    ∃ report, (Command.simulate 2 3 100 5).run = .ok (.simulation report) ∧
      report.misplaced = 0 ∧ (report.nodes.map (·.records)).sum = 3 ∧ report.moved = 1 := by
  have hplaces := simulate_places_records 2 3 100 5
  have hreports := isOk_run_simulate
  simp only at hplaces
  split at hplaces
  · rename_i report hrun
    obtain ⟨hmisplaced, -, -, -, -, -, hsum, -, hmoved, -⟩ := hplaces
    refine ⟨report, hrun, hmisplaced, hsum, hmoved.trans ?_⟩
    rw [inOrder, mergeSort_eq_insertionSort]
    decide +kernel
  · exact absurd hplaces id
  · rename_i hrun
    rw [hrun] at hreports
    cases hreports

end RecordRing
