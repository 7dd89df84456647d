import Mathlib.Algebra.BigOperators.Group.List.Basic
import Mathlib.Algebra.GroupWithZero.Nat
import Mathlib.Data.List.Count
import RecordRing.Proofs.Cluster.Asking
import RecordRing.Proofs.Cluster.Building
import RecordRing.Proofs.Handover.Scan
import RecordRing.Proofs.Ring.Settling

/-!
# Settled rings

A ring is settled when it is in order, all its nodes are stable, and every record is kept once
(`Settled`).  A look that finds a ring in order finds a settled one (`Works.settled`).  Records are
stored in a settled ring at their owners (`Settled.storeRecords`), and a settled ring whose records
are at their owners is found to be so (`Settled.takeStock`).
-/

namespace RecordRing

open Network

/-! ## Neighbours -/

section Neighbours

variable {ids before after : List Token} {id : Token}

/-- The next identifier in an ascending list stands after an identifier, or else at the front. -/
theorem nextOf_append (ascending : Ascending (before ++ id :: after)) :
    nextOf (before ++ id :: after) id = after.headD ((before ++ [id]).headD id) := by
  obtain ⟨-, hafter, hbefore⟩ := List.pairwise_append.1 ascending
  have hhead : (before ++ id :: after).headD id = (before ++ [id]).headD id := by
    cases before <;> rfl
  have hnone : before.find? (fun other => decide (id < other)) = none :=
    List.find?_eq_none.2 fun other hother => by
      rw [decide_eq_true_eq]
      exact UInt64.lt_asymm (hbefore other hother id List.mem_cons_self)
  have hself : (id :: after).find? (fun other => decide (id < other)) = after.head? := by
    rw [List.find?_cons_of_neg (by rw [decide_eq_true_eq]; exact UInt64.lt_irrefl id.word)]
    cases after with
    | nil => rfl
    | cons next rest =>
        exact List.find?_cons_of_pos
          (decide_eq_true (List.rel_of_pairwise_cons hafter List.mem_cons_self))
  rw [nextOf, List.find?_append, hnone, Option.none_or, hself, hhead]
  cases after <;> rfl

theorem rotateLeft_one (items : List Token) :
    items.rotateLeft 1 = items.drop 1 ++ items.take 1 := by
  match items with
  | [] => rfl
  | [_] => rfl
  | first :: second :: rest =>
      have hlength : ¬ (first :: second :: rest).length ≤ 1 := by simp
      have hmod : 1 % (first :: second :: rest).length = 1 :=
        Nat.mod_eq_of_lt (Nat.lt_of_not_le hlength)
      simp only [List.rotateLeft, if_neg hlength, hmod]

/-- Every identifier of an ascending list is paired with the next one. -/
theorem mem_zip_rotateLeft (ascending : Ascending ids) (mem : id ∈ ids) :
    (id, nextOf ids id) ∈ ids.zip (ids.rotateLeft 1) := by
  obtain ⟨before, after, rfl⟩ := List.append_of_mem mem
  have hself : (before ++ id :: after)[before.length]? = some id := by
    rw [List.getElem?_append_right (Nat.le_refl _), Nat.sub_self]
    rfl
  refine List.mem_of_getElem? (i := before.length) (List.getElem?_zip_eq_some.2 ⟨hself, ?_⟩)
  rw [nextOf_append ascending, rotateLeft_one]
  cases after with
  | nil => cases before <;> simp
  | cons next rest =>
      have hdrop : ((before ++ id :: next :: rest).drop 1)[before.length]? = some next := by
        rw [List.getElem?_drop, List.getElem?_append_right (Nat.le_add_left ..),
          Nat.add_sub_cancel]
        rfl
      rw [List.getElem?_append_left (List.getElem?_eq_some_iff.1 hdrop).1, hdrop]
      rfl

theorem eq_singleton_iff (mem : id ∈ ids) : ids = [id] ↔ ¬ 1 < ids.length := by
  match ids, mem with
  | [first], mem =>
      rw [List.mem_singleton.1 mem]
      exact ⟨fun _ => Nat.lt_irrefl 1, fun _ => rfl⟩
  | first :: second :: rest, _ => simp

end Neighbours

/-! ## What a look at a ring finds -/

namespace Cluster

variable {cluster : Cluster} {members : List Token} {config : Config} {chart : Chart} {id : Token}
  {node : Node}

/-- What a ring in order looks like: all nodes are stable, and two neighbours know each other. -/
theorem of_isRingOf (ring : cluster.isRingOf members = true) :
    (∀ id ∈ members, (cluster.node? id).any (fun node => decide (node.lifecycle = .stable)) = true) ∧
    ∀ id next, (id, next) ∈ (inOrder members).zip ((inOrder members).rotateLeft 1) →
      (cluster.node? id).any (fun node => decide (node.successor = some next)) = true ∧
      (cluster.node? next).any (fun node =>
        decide (node.predecessor = if 1 < (inOrder members).length then some id else none)) =
          true := by
  obtain ⟨hstable, hneighbours⟩ := (Bool.and_eq_true _ _).mp ring
  refine ⟨List.all_eq_true.1 hstable, fun id next hmem => ?_⟩
  exact (Bool.and_eq_true _ _).mp (List.all_eq_true.1 hneighbours (id, next) hmem)

/-- In a ring in order all nodes are stable. -/
theorem Hosts.stable_of_isRingOf (hosts : cluster.Hosts config members)
    (ring : cluster.isRingOf members = true) (found : cluster.net.resident? id = some node) :
    node.lifecycle = .stable := by
  obtain ⟨handle, houses⟩ := resident?_eq_some.1 found
  have hmem := hosts.populated.mem houses
  have hstable := (of_isRingOf ring).1 id hmem
  rw [hosts.node? hmem, found, Option.any_some] at hstable
  exact of_decide_eq_true hstable

/-- A ring in order is closed. -/
theorem Hosts.closed_of_isRingOf (hosts : cluster.Hosts config members)
    (follows : cluster.net.Follows members chart) (distinct : members.Nodup)
    (ring : cluster.isRingOf members = true) : chart.Closed (inOrder members) := by
  have hascending := ascending_inOrder distinct
  have hpairs := (of_isRingOf ring).2
  refine ⟨fun id hid => ?_, fun id hid => ?_⟩
  · obtain ⟨node, hnode, hsucc, -⟩ := follows id (mem_inOrder.1 hid)
    have hnext := (hpairs _ _ (mem_zip_rotateLeft hascending hid)).1
    rw [hosts.node? (mem_inOrder.1 hid), hnode, Option.any_some] at hnext
    exact Option.some.inj (hsucc.symm.trans (of_decide_eq_true hnext))
  · obtain ⟨node, hnode, -, hpred⟩ := follows id (mem_inOrder.1 hid)
    have hbefore := (hpairs _ _ (mem_zip_rotateLeft hascending
      (previousOf_mem hid id))).2
    rw [nextOf_previousOf hascending hid, hosts.node? (mem_inOrder.1 hid), hnode,
      Option.any_some] at hbefore
    rw [← hpred, of_decide_eq_true hbefore, beforeOf?]
    have halone := eq_singleton_iff hid
    by_cases hseveral : 1 < (inOrder members).length
    · rw [if_pos hseveral, if_neg fun h => halone.1 h hseveral]
    · rw [if_neg hseveral, if_pos (halone.2 hseveral)]

end Cluster

namespace Trial

variable {cluster after : Cluster} {members keys : List Token} {founder id key : Token}
  {config : Config} {chart : Chart} {passes : Token → Token → Prop} {reports : Token → Prop}
  {holder last : Token → Option Token} {fails : Trouble → Prop}

/-! ## Settled rings -/

/-- The nodes of a cluster form a closed ring and are stable, and they keep every record once. -/
structure Settled (config : Config) (members : List Token) (chart : Chart)
    (holder : Token → Option Token) (cluster : Cluster) : Prop extends
    Works config members (fun _ _ => True) (fun _ => True) chart holder cluster where
  distinct : members.Nodup
  closed : chart.Closed (inOrder members)
  stable : ∀ id node, cluster.net.resident? id = some node → node.lifecycle = .stable

/-- A ring that is found in order is settled. -/
theorem Works.settled (works : Works config members passes reports chart holder cluster)
    (distinct : members.Nodup) (ring : cluster.isRingOf members = true) :
    Settled config members chart holder cluster where
  toStands := works.toStands
  stocked := works.stocked
  calm := works.calm.mono fun id _ _ =>
    Permits.mono (fun _ h => h) (fun _ _ _ => trivial) (fun _ _ => trivial) id
  distinct := distinct
  closed := works.hosts.closed_of_isRingOf works.follows distinct ring
  stable _ _ found := works.hosts.stable_of_isRingOf ring found

namespace Settled

variable (settled : Settled config members chart holder cluster)
include settled

/-- Nothing has changed but records and what does not matter. -/
theorem change {mid left : Network} (same : cluster.net.numbering.Matches mid)
    (stocked : mid.Stocked storage last) (like : mid.Like left) :
    Settled config members chart last { cluster with net := left } where
  hosts := by
    have hkept := keeps_numbering cluster.net
    exact settled.hosts.change
      (like.keeps.populated (same.populated (hkept.populated settled.hosts.populated)))
      (like.keeps.directory.trans same.directory)
  follows := like.keeps.follows (same.follows
    ((keeps_numbering cluster.net).follows settled.follows))
  stocked := like.keeps.stocked stocked
  calm := (same.calm settled.calm.numbering).like like
  distinct := settled.distinct
  closed := settled.closed
  stable id later found := by
    have habides := ((keeps_numbering cluster.net).abides.trans same.abides).trans like.keeps.abides
    obtain ⟨node, hnode, hlifecycle, -⟩ := habides id later found
    exact hlifecycle.trans (settled.stable id node hnode)

theorem undisturbed (undisturbed : cluster.Undisturbed after) :
    Settled config members chart holder after := by
  obtain ⟨mid, hsame, hlike, heq⟩ := undisturbed
  rw [heq]
  exact settled.change (.of_same hsame)
    (((keeps_numbering cluster.net).trans hsame.keeps).stocked settled.stocked) hlike

/-- Every node finds the owner of a key, or gives up. -/
theorem ownerOf (mem : id ∈ members) (key : Token) :
    Ends (Trial.ownerOf id key) cluster (fun owner after =>
      owner = RecordRing.ownerOf (inOrder members) key ∧
        Settled config members chart holder after) (GivesUp config members) :=
  (settled.toStands.ownerOf settled.distinct settled.closed mem key).imp
    fun _ _ h => ⟨h.1, settled.undisturbed h.2⟩

/-- A node lists the ring. -/
theorem ringMembers (mem : id ∈ members) :
    Ends (ask id .ringMembers) cluster (fun ring after =>
      Circuit (inOrder members) id ring ∧ Settled config members chart holder after) fails :=
  (settled.toStands.ringMembers settled.distinct settled.closed mem).imp
    fun _ _ h => ⟨h.1, settled.undisturbed h.2⟩

end Settled

/-! ## Storing records -/

/-- The key of the record of a number. -/
def recordKey (number : Nat) : Token := Token.ofKey s!"record-{number}"

/-- The keys of the first records. -/
def recordKeys (count : Nat) : List Token := (List.range count).map recordKey

/-- The records of some keys are at their owners. -/
def placing (ids keys : List Token) (key : Token) : Option Token :=
  if key ∈ keys then some (RecordRing.ownerOf ids key) else none

theorem placing_append (ids keys : List Token) (key : Token) :
    placing ids (keys ++ [key]) =
      Function.update (placing ids keys) key (some (RecordRing.ownerOf ids key)) := by
  funext other
  rw [Function.update_apply]
  by_cases heq : other = key
  · rw [if_pos heq, placing, if_pos (List.mem_append_right _ (List.mem_singleton.2 heq)), heq]
  · rw [if_neg heq, placing, placing]
    simp only [List.mem_append, List.mem_singleton, heq, or_false]

namespace Settled

/-- A node creates a record that nobody has kept. -/
theorem create (settled : Settled config members chart holder cluster) {owner : Token}
    (mem : owner ∈ members) (new : holder key = none) (content : List UInt8) (version : UInt64) :
    Ends (ask owner (.serve (.record (.create storage key content version)))) cluster
      (fun _ after => Settled config members chart (Function.update holder key (some owner)) after)
      fails := by
  have hkept := keeps_numbering cluster.net
  have hpopulated := hkept.populated settled.hosts.populated
  have hstocked := hkept.stocked settled.stocked
  refine settled.hosts.ask mem (fun outcome after => outcome = .ok version ∧ ∃ handle node,
    cluster.net.numbering.Houses owner handle node ∧ cluster.net.numbering.Hauls after
      (overwriting cluster.net.numbering.stored? handle ⟨storage, key⟩ (some ⟨content, version⟩))
      cluster.net.numbering.lock?) (fun handle node houses => ?_) ?_ nofun
  · have hstable := settled.stable owner node (hkept.resident? owner ▸ houses.resident?)
    have hlacks : cluster.net.numbering.stored? handle ⟨storage, key⟩ = none := by
      rw [← Option.not_isSome_iff_eq_none, hstocked.keeps owner handle houses.listed]
      exact fun h => nomatch new.symm.trans h.2
    show Achieves _ _ handle (node.serve _ (.record (.create (LockId.mk storage key).storage
      (LockId.mk storage key).key content version))) _
    exact (create_achieves hpopulated.prompt houses.stands
      (fun hjoining => nomatch hstable.symm.trans hjoining) (hstocked.opens handle node houses.stands)
      (hstocked.free handle _) hlacks).weaken fun _ _ h => ⟨h.1, handle, node, houses, h.2⟩
  · rintro _ after left ⟨-, handle, node, houses, hauls⟩ hlike
    exact settled.change hauls.frame (hstocked.created hpopulated houses new hauls) hlike

/-- A node does not create a record that it keeps already. -/
theorem create_again (settled : Settled config members chart holder cluster) {owner : Token}
    (mem : owner ∈ members) (kept : holder key = some owner) (content : List UInt8)
    (version : UInt64) {post : UInt64 → Cluster → Prop} :
    Ends (ask owner (.serve (.record (.create storage key content version)))) cluster post
      (· = .failed (.store (.alreadyExists storage key))) := by
  have hkept := keeps_numbering cluster.net
  have hpopulated := hkept.populated settled.hosts.populated
  have hstocked := hkept.stocked settled.stocked
  refine settled.hosts.ask mem
    (fun outcome _ => outcome = .error (.store (.alreadyExists storage key)))
    (fun handle node houses => ?_) nofun fun failure _ h => ?_
  · have hstable := settled.stable owner node (hkept.resident? owner ▸ houses.resident?)
    obtain ⟨stored, hstored⟩ := Option.isSome_iff_exists.1
      ((hstocked.keeps owner handle houses.listed ⟨storage, key⟩).2 ⟨rfl, kept⟩)
    show Achieves _ _ handle (node.serve _ (.record (.create (LockId.mk storage key).storage
      (LockId.mk storage key).key content version))) _
    exact create_refused hpopulated.prompt houses.stands
      (fun hjoining => nomatch hstable.symm.trans hjoining) (hstocked.opens handle node houses.stands)
      (hstocked.free handle _) hstored
  · rw [Except.error.inj h]

/-- A record is stored at the owner of its key, unless it is there already. -/
theorem storeRecord
    (settled : Settled config members chart (placing (inOrder members) keys) cluster)
    (mem : founder ∈ members) (number : Nat) :
    Ends (Trial.storeRecord founder number) cluster (fun _ after => recordKey number ∉ keys ∧
      Settled config members chart (placing (inOrder members) (keys ++ [recordKey number])) after)
      (fun trouble => GivesUp config members trouble ∨ recordKey number ∈ keys ∧
        trouble = .failed (.store (.alreadyExists storage (recordKey number)))) := by
  refine .bind ((settled.ownerOf mem (recordKey number)).weaken ?_ fun _ h => Or.inl h)
  rintro owner asked ⟨rfl, hasked⟩
  refine .bind (.get ?_)
  have howner : RecordRing.ownerOf (inOrder members) (recordKey number) ∈ members :=
    mem_inOrder.1 (ownerOf_mem (mem_inOrder.2 mem) (recordKey number))
  split
  · by_cases hkept : recordKey number ∈ keys
    · exact .bind ((hasked.create_again howner (if_pos hkept) _ _).weaken (fun _ _ h => h)
        fun _ h => Or.inr ⟨hkept, h⟩)
    · refine .bind ((hasked.create howner (if_neg hkept) _ _).imp fun _ after hafter => ?_)
      exact .pure ⟨hkept, placing_append (inOrder members) keys (recordKey number) ▸ hafter⟩
  · rename_i habsent
    refine absurd ?_ habsent
    obtain ⟨handle, node, houses⟩ := hasked.hosts.populated.houses howner
    rw [Std.TreeMap.contains_eq_isSome_getElem?, houses.listed, Option.isSome_some]

/-- Records are stored at the owners of their keys, unless two of these are the same. -/
theorem storeRecords
    (settled : Settled config members chart (placing (inOrder members) []) cluster)
    (mem : founder ∈ members) (records : Nat) :
    Ends ((List.range records).forM (Trial.storeRecord founder)) cluster (fun _ after =>
      (recordKeys records).Nodup ∧
        Settled config members chart (placing (inOrder members) (recordKeys records)) after)
      (fun trouble => GivesUp config members trouble ∨ ¬ (recordKeys records).Nodup ∧
        ∃ number < records,
          trouble = .failed (.store (.alreadyExists storage (recordKey number)))) := by
  refine .forM (fun done after => (done.map recordKey).Nodup ∧
    Settled config members chart (placing (inOrder members) (done.map recordKey)) after)
      ⟨List.nodup_nil, settled⟩ ?_
  rintro done number rest cluster hrange ⟨hdistinct, hsettled⟩
  refine (hsettled.storeRecord mem number).weaken (fun _ after h => ?_) fun trouble h => ?_
  · rw [List.map_append, List.map_singleton]
    refine ⟨List.nodup_append.2 ⟨hdistinct, List.nodup_singleton _, fun a ha b hb => ?_⟩, h.2⟩
    rw [List.mem_singleton.1 hb]
    exact ne_of_mem_of_not_mem ha h.1
  · refine h.imp_right fun ⟨hkept, hrefused⟩ => ⟨fun hnodup => ?_, number, ?_, hrefused⟩
    · rw [recordKeys, hrange, List.map_append, List.map_cons] at hnodup
      exact (List.nodup_append.1 hnodup).2.2 _ hkept _ List.mem_cons_self rfl
    · exact List.mem_range.1 (hrange ▸ List.mem_append_right _ List.mem_cons_self)

end Settled

/-! ## Taking stock -/

/-- What a node holds when the records of some keys are at their owners. -/
def share (ids keys : List Token) (id : Token) : Placement :=
  ⟨id, .stable, keys.countP fun key => decide (RecordRing.ownerOf ids key = id)⟩

/-- Every record is in one share. -/
theorem sum_shares {ids keys : List Token} (distinct : ids.Nodup) {c : Token} (mem : c ∈ ids) :
    (ids.map fun id => (share ids keys id).records).sum = keys.length := by
  induction keys with
  | nil =>
      refine List.sum_eq_zero fun n hn => ?_
      obtain ⟨id, -, rfl⟩ := List.mem_map.1 hn
      rfl
  | cons key rest ih =>
      have hcons (id : Token) : (share ids (key :: rest) id).records =
          (share ids rest id).records +
            if decide (RecordRing.ownerOf ids key = id) = true then 1 else 0 := by
        rw [share, share, List.countP_cons]
      have hone : (ids.map fun id => if decide (RecordRing.ownerOf ids key = id) = true then 1
          else 0).sum = 1 := by
        rw [List.sum_map_eq_nsmul_single (RecordRing.ownerOf ids key) _ fun id hother _ =>
          if_neg fun h => hother (of_decide_eq_true h).symm,
          List.count_eq_one_of_mem distinct (ownerOf_mem mem key)]
        simp
      simp only [hcons]
      rw [List.sum_map_add, ih, hone, List.length_cons]

/-- The share of a node is found among those of all nodes. -/
theorem find?_share {members ids keys : List Token} {joiner : Token} (mem : joiner ∈ members) :
    (members.map (share ids keys)).find? (fun placement => decide (placement.id = joiner)) =
      some (share ids keys joiner) := by
  rw [List.find?_map]
  cases found : members.find? ((fun placement => decide (placement.id = joiner)) ∘ share ids keys)
  with
  | none => exact absurd (decide_eq_true rfl) (List.find?_eq_none.1 found joiner mem)
  | some id =>
      have hid : id = joiner := of_decide_eq_true (List.find?_some found :)
      rw [hid]
      rfl

namespace Settled

/-- The keys of a node are those whose records it keeps. -/
theorem keysAt (settled : Settled config members chart holder cluster) (mem : id ∈ members) :
    Ends (Trial.keysAt id) cluster (fun listed after => after = cluster ∧ listed.Nodup ∧
      ∀ key, key ∈ listed ↔ holder key = some id) fails := by
  obtain ⟨handle, node, houses⟩ := settled.hosts.populated.houses mem
  have hopens : node.store.opensFor node.config.credential = true :=
    settled.stocked.opens handle node houses.stands
  have hkeys : node.store.keys node.config.credential storage = .ok (node.store.listed storage) :=
    if_pos hopens
  have hnode : cluster.node? id = some node := (settled.hosts.node? mem).trans houses.resident?
  refine .bind (.get ?_)
  simp only [hnode, hkeys]
  refine .pure ⟨rfl, (node.store.pairwise_listed storage).imp fun hless heq => ?_, fun key => ?_⟩
  · subst heq
    simp at hless
  · have hkeeps := settled.stocked.keeps id handle houses.listed ⟨storage, key⟩
    rw [stored?_of_nodeAt? houses.stands] at hkeeps
    exact Store.mem_listed_iff.trans (hkeeps.trans (and_iff_right rfl))

/-- The stock of a node is its share, and no record of it belongs elsewhere. -/
theorem stockOf (settled : Settled config members chart (placing (inOrder members) keys) cluster)
    (distinct : keys.Nodup) (origin : founder ∈ members) (mem : id ∈ members) :
    Ends (Trial.stockOf founder id) cluster (fun stock after =>
      stock = (share (inOrder members) keys id, []) ∧
        Settled config members chart (placing (inOrder members) keys) after)
      (GivesUp config members) := by
  refine .bind ((settled.keysAt mem).imp ?_)
  rintro listed _ ⟨rfl, hlisted, hmem⟩
  have hkept (key : Token) : key ∈ listed ↔
      key ∈ keys ∧ RecordRing.ownerOf (inOrder members) key = id := by
    rw [hmem, placing]
    split
    · rename_i hkey
      rw [Option.some.injEq]
      exact (and_iff_right hkey).symm
    · rename_i hkey
      exact ⟨nofun, fun h => absurd h.1 hkey⟩
  refine .bind ((Ends.mapM (fun done values after =>
    values = done.map (RecordRing.ownerOf (inOrder members)) ∧
      Settled config members chart (placing (inOrder members) keys) after) ⟨rfl, settled⟩ ?_).imp ?_)
  · rintro done key rest values asked - ⟨rfl, hasked⟩
    refine (hasked.ownerOf origin key).imp ?_
    rintro _ after ⟨rfl, hafter⟩
    rw [List.map_append]
    exact ⟨rfl, hafter⟩
  · rintro _ after ⟨rfl, hafter⟩
    obtain ⟨node, hnode⟩ := hafter.hosts.populated.resides id mem
    have hstable := hafter.stable id node hnode
    rw [← hafter.hosts.node? mem] at hnode
    refine .bind (.get ?_)
    simp only [hnode]
    refine .pure ⟨Prod.ext ?_ ?_, hafter⟩
    · rw [share, hstable, List.countP_eq_length_filter]
      have hperm : listed.Perm
          (keys.filter fun key => decide (RecordRing.ownerOf (inOrder members) key = id)) := by
        refine (List.perm_ext_iff_of_nodup hlisted (distinct.filter _)).2 fun key => ?_
        rw [hkept, List.mem_filter, decide_eq_true_eq]
      rw [hperm.length_eq]
    · refine List.filter_eq_nil_iff.2 fun owner howner => ?_
      obtain ⟨key, hkey, rfl⟩ := List.mem_map.1 howner
      rw [decide_eq_true_eq, not_not]
      exact ((hkept key).1 hkey).2

/-- What taking stock of a settled ring reports, whose records are at their owners. -/
theorem takeStock
    (settled : Settled config members chart (placing (inOrder members) keys) cluster)
    (distinct : keys.Nodup) (origin : founder ∈ members) {joiner : Token}
    (joined : joiner ∈ members) :
    Ends (Trial.takeStock founder joiner members) cluster (fun report _ =>
      Circuit (inOrder members) founder report.ring ∧
      report.nodes = (inOrder members).map (share (inOrder members) keys) ∧
      report.joiner = joiner ∧ report.moved = (share (inOrder members) keys joiner).records ∧
      report.misplaced = 0) (GivesUp config members) := by
  refine .bind ((settled.ringMembers origin).imp ?_)
  rintro ring asked ⟨hring, hasked⟩
  refine .bind ((Ends.mapM (fun done stock after =>
    stock = done.map (fun id => (share (inOrder members) keys id, ([] : List Token))) ∧
      Settled config members chart (placing (inOrder members) keys) after) ⟨rfl, hasked⟩ ?_).imp ?_)
  · rintro done id rest values visited hmembers ⟨rfl, hvisited⟩
    refine (hvisited.stockOf distinct origin
      (hmembers ▸ List.mem_append_right _ List.mem_cons_self)).imp ?_
    rintro _ after ⟨rfl, hafter⟩
    rw [List.map_append]
    exact ⟨rfl, hafter⟩
  · rintro _ after ⟨rfl, -⟩
    have hplacements : (members.map fun id => (share (inOrder members) keys id,
        ([] : List Token))).map Prod.fst = members.map (share (inOrder members) keys) := by
      rw [List.map_map]
      rfl
    refine .pure ⟨hring, ?_, rfl, ?_, ?_⟩
    · simp only [hplacements]
      exact (List.map_mergeSort (fun _ _ _ _ => rfl :
        ∀ a ∈ members, ∀ b ∈ members, decide (a ≤ b) =
          decide ((share (inOrder members) keys a).id ≤ (share (inOrder members) keys b).id))).symm
    · simp only [hplacements]
      rw [find?_share joined]
      rfl
    · refine List.length_eq_zero_iff.2 (List.flatMap_eq_nil_iff.2 fun stock hstock => ?_)
      obtain ⟨id, -, rfl⟩ := List.mem_map.1 hstock
      rfl

end Settled

end Trial

end RecordRing
