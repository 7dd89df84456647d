import RecordRing.Command.Run
import RecordRing.Proofs.Cluster.Gathering
import RecordRing.Proofs.Ring.Chores

/-!
# Building a ring of named nodes

The commands name their nodes by numbers, and build a ring of them as a star.  This fails only if
two names lead to one identifier (`build_works`).  Nothing is left to do afterwards, and no node
keeps a record (`Works`); nodes that join later find what has been kept where it was.
-/

namespace RecordRing

open Network

namespace Cluster

variable {cluster : Cluster} {config : Config} {members : List Token} {id : Token} {name : String}
  {allowed : Token → Operation .nothing → Prop} {holder : Token → Option Token}

/-! ## Adding a node -/

theorem nodeAt?_enlist (cluster : Cluster) (config : Config) (id : Token) (handle : Handle) :
    (cluster.enlist config id).net.nodeAt? handle =
      if handle = cluster.net.endpoints.size then some (newcomer config id)
      else cluster.net.nodeAt? handle := nodeAt?_attach cluster.net _ handle

theorem member?_enlist (cluster : Cluster) (config : Config) (id : Token) (handle : Handle) :
    (cluster.enlist config id).net.member? handle =
      if handle = cluster.net.endpoints.size then some (NodeSetup.plain id config).member
      else cluster.net.member? handle := member?_attach cluster.net _ handle

/-- A newcomer has nothing to do. -/
theorem Hosts.calm_enlist (hosts : cluster.Hosts config members) (new : id ∉ members)
    (calm : cluster.net.Calm allowed) : (cluster.enlist config id).net.Calm allowed where
  tasks number task found := by
    refine (calm.tasks number task found).grow (fun other handle hlisted => ?_) fun _ _ _ _ h => h
    have hne : other ≠ id := by
      rintro rfl
      exact new (hosts.populated.listed other handle hlisted)
    rw [directory_enlist, if_neg hne, hlisted]
  reports other handle member listed found requester mem := by
    rw [member?_enlist] at found
    split at found
    · cases found
      cases mem
    · rename_i hold
      rw [directory_enlist] at listed
      split at listed
      · exact absurd (Option.some.inj listed).symm hold
      · exact calm.reports other handle member listed found requester mem

/-- A newcomer keeps no record. -/
theorem Hosts.stocked_enlist (hosts : cluster.Hosts config members)
    (stocked : cluster.net.Stocked name holder) (lacks : ∀ key, holder key ≠ some id) :
    (cluster.enlist config id).net.Stocked name holder where
  opens handle node found := by
    rw [nodeAt?_enlist] at found
    split at found
    · cases found
      rfl
    · exact stocked.opens handle node found
  free handle lock := by
    rw [lock?, nodeAt?_enlist]
    split
    · exact LockTable.find?_empty lock
    · exact stocked.free handle lock
  keeps other handle listed lock := by
    rw [directory_enlist] at listed
    rw [stored?, nodeAt?_enlist]
    split at listed
    · rename_i heq
      cases listed
      rw [if_pos rfl, heq]
      refine ⟨fun h => ?_, fun h => absurd h.2 (lacks lock.key)⟩
      have hnone : (newcomer config id).store.find? lock.storage lock.key = none := by
        rw [newcomer, Node.fresh, Store.find?, Store.empty, Std.TreeMap.getElem?_emptyc]
        rfl
      rw [Option.bind_some, hnone] at h
      cases h
    · rename_i hne
      obtain ⟨node, houses⟩ := hosts.populated.houses_of_listed listed
      rw [if_neg (Nat.ne_of_lt (lt_size_of_nodeAt? houses.stands))]
      exact stocked.keeps other handle listed lock

end Cluster

namespace Network

variable {net after : Network} {allowed : Token → Operation .nothing → Prop}
  {config : Config} {members : List Token} {passes : Token → Token → Prop}
  {reports : Token → Prop} {name : String} {holder : Token → Option Token} {id next : Token}

theorem Calm.like (calm : net.Calm allowed) (like : net.Like after) : after.Calm allowed :=
  calm.congr like.keeps.directory (fun number _ found => like.tasks number ▸ found)
    (congrArg Network.endpoints like.rest :)

theorem Calm.numbering (calm : net.Calm allowed) : net.numbering.Calm allowed :=
  calm.congr rfl (fun _ _ found => found) rfl

theorem Joins.stocked (joins : net.Joins id next after) (stocked : net.Stocked name holder) :
    after.Stocked name holder := by
  obtain ⟨handle, node, houses, tells⟩ := joins
  have hplaced : (net.setNode handle (node.rejoining.setSuccessor next)).Stocked name holder :=
    stocked.setNode houses.stands rfl rfl rfl
  exact hplaced.tells tells

/-- A node that joins leaves a calm network calm if the one that it tells does not start to merge.
-/
theorem Joins.calm (joins : net.Joins id next after) (populated : net.Populated config members)
    (calm : net.Calm (Permits members passes reports)) (mem : next ∈ members) (other : next ≠ id)
    (merging : ∀ target source, net.resident? next = some target → target.lifecycle = .joining →
      target.successor = some source → source ≠ next → passes source next) :
    after.Calm (Permits members passes reports) := by
  obtain ⟨handle, node, houses, tells⟩ := joins
  have hregular := (populated.regular_of houses).rejoining.setSuccessor mem
  have hid := populated.id_eq houses
  have hplaced : (net.setNode handle (node.rejoining.setSuccessor next)).Populated config members :=
    populated.setNode houses hid hregular
  have hcalm : (net.setNode handle (node.rejoining.setSuccessor next)).Calm
      (Permits members passes reports) := calm.setNode_same houses.stands rfl
  refine hcalm.tells hplaced tells fun target source found => ?_
  rw [populated.resident?_setNode houses, if_neg other] at found
  exact merging target source found

end Network

namespace Trial

variable {cluster : Cluster} {members others : List Token} {founder known id : Token}
  {config : Config} {chart : Chart} {passes : Token → Token → Prop} {reports : Token → Prop}
  {holder : Token → Option Token} {fails : Trouble → Prop}

/-! ## Nodes at rest -/

/-- The nodes of a cluster follow a chart and keep every record once, and all that is left to do is
permitted. -/
structure Works (config : Config) (members : List Token) (passes : Token → Token → Prop)
    (reports : Token → Prop) (chart : Chart) (holder : Token → Option Token)
    (cluster : Cluster) : Prop extends Stands config members chart cluster where
  stocked : cluster.net.Stocked storage holder
  calm : cluster.net.Calm (Permits members passes reports)

namespace Works

/-- A newcomer joins through a node whose lookup of the place is known. -/
theorem joins (works : Works config members passes reports chart holder cluster)
    (mem : known ∈ members) (new : id ∉ members) (lacks : ∀ key, holder key ≠ some id)
    (answers : Outcome .id → Prop) (inside : ∀ next, answers (.ok next) → next ∈ members)
    (merging : ∀ next target source, answers (.ok next) → cluster.net.resident? next = some target →
      target.lifecycle = .joining → target.successor = some source → source ≠ next →
        passes source next)
    (looks : ∀ {number start peer target}, start.Populated config (members ++ [id]) →
      (∀ other, other ≠ id → start.resident? other = cluster.net.resident? other) →
      start.Houses known peer target → Achieves number start peer
        (target.lookUp start.surroundings id) fun outcome after =>
          start.Same after ∧ answers outcome) :
    Ends (attempt id (.join known)) (cluster.enlist config id) (fun outcome after =>
      (∃ next mid, answers (.ok next) ∧ outcome = .ok () ∧
        (cluster.enlist config id).net.numbering.Joins id next mid ∧ mid.Like after.net ∧
        Works config (members ++ [id]) passes reports ((chart.joined id next).told next id) holder
          after) ∨
      ∃ failure, answers (.error failure) ∧ outcome = .error failure) fails := by
  have hstocked := works.hosts.stocked_enlist works.stocked lacks
  have hcalm : (cluster.enlist config id).net.Calm (Permits (members ++ [id]) passes reports) :=
    (works.hosts.calm_enlist new works.calm).mono fun other _ _ =>
      Permits.mono (fun _ => List.mem_append_left _) (fun _ _ h => h) (fun _ h => h) other
  have hkept := keeps_numbering (cluster.enlist config id).net
  refine (works.toStands.joins mem new answers inside looks).imp fun outcome after h =>
    h.imp_left ?_
  rintro ⟨next, mid, hanswers, hok, hjoins, hlike, hstands⟩
  have hnext := inside next hanswers
  have hne : next ≠ id := ne_of_mem_of_not_mem hnext new
  refine ⟨next, mid, hanswers, hok, hjoins, hlike, hstands,
    hlike.keeps.stocked (hjoins.stocked (hkept.stocked hstocked)), ?_⟩
  refine (hjoins.calm (hkept.populated (works.hosts.enlist id).populated) hcalm.numbering
    (List.mem_append_left _ hnext) hne fun target source found => ?_).like hlike
  rw [hkept.resident?, works.hosts.resident?_enlist, if_neg hne] at found
  exact merging next target source hanswers found

end Works

/-! ## Named nodes -/

/-- The identifier of the node of a number. -/
def nodeId (number : Nat) : Token := Token.ofKey (nodeName number)

/-- The identifiers of the first nodes. -/
def nodeIds (count : Nat) : List Token := (List.range count).map nodeId

theorem nodeIds_succ (others : Nat) :
    nodeIds (others + 1) =
      nodeId 0 :: (List.range others).map fun number => nodeId (number + 1) := by
  rw [nodeIds, List.range_succ_eq_map, List.map_cons, List.map_map]
  rfl

/-- A node can be added unless its identifier is in use. -/
theorem add_ends (hosts : cluster.Hosts config members) (number : Nat)
    (taken : nodeId number ∈ members → fails (.nameTaken (nodeName number) (nodeId number))) :
    Ends (add config number) cluster (fun id after =>
      nodeId number ∉ members ∧ id = nodeId number ∧ after = cluster.enlist config (nodeId number))
      fails := by
  have hcontains : cluster.net.directory.contains (nodeId number) = true ↔
      nodeId number ∈ members := by
    rw [Std.TreeMap.contains_eq_isSome_getElem?, Option.isSome_iff_exists]
    refine ⟨fun ⟨handle, hlisted⟩ => hosts.populated.listed _ handle hlisted, fun hmem => ?_⟩
    obtain ⟨handle, node, houses⟩ := hosts.populated.houses hmem
    exact ⟨handle, houses.listed⟩
  refine .bind (.get ?_)
  rw [show Token.ofKey (nodeName number) = nodeId number from rfl]
  by_cases hmem : nodeId number ∈ members
  · rw [if_pos (hcontains.2 hmem)]
    exact .throw (taken hmem)
  · rw [if_neg fun h => hmem (hcontains.1 h)]
    exact .bind (.set (.pure ⟨hmem, rfl, rfl⟩))

/-- A founder on its own. -/
theorem found_works (config : Config) (founder : Token) :
    Ends (ask founder .found) (Cluster.empty.enlist config founder) (fun _ after =>
      Works config [founder] (fun _ _ => True) (fun _ => True) (.gathered founder [])
        (fun _ => none) after) fails := by
  have hempty := Cluster.hosts_empty config
  have hcalm : Cluster.empty.net.Calm (Permits [founder] (fun _ _ => True) fun _ => True) := by
    refine ⟨fun number task found => ?_, fun id handle member listed => ?_⟩
    · simp [Cluster.empty, Network.empty] at found
    · simp [Cluster.empty, Network.empty] at listed
  have hstocked : Cluster.empty.net.Stocked storage fun _ => none := by
    refine ⟨fun handle node found => ?_, fun handle lock => ?_, fun id handle listed => ?_⟩
    · simp [Cluster.empty, Network.empty, nodeAt?, Network.member?] at found
    · simp [Cluster.empty, Network.empty, lock?, nodeAt?, Network.member?]
    · simp [Cluster.empty, Network.empty] at listed
  have hkept := keeps_numbering (Cluster.empty.enlist config founder).net
  refine (found_ends config founder).imp fun _ after h => ?_
  obtain ⟨hstands, handle, node, houses, hlike⟩ := h
  have hfounded : ((Cluster.empty.enlist config founder).net.numbering.setNode handle
      node.founded).Stocked storage fun _ => none :=
    (hkept.stocked (hempty.stocked_enlist hstocked fun _ => (Option.some_ne_none _).symm)).setNode
      houses.stands rfl rfl rfl
  have hquiet : ((Cluster.empty.enlist config founder).net.numbering.setNode handle
      node.founded).Calm (Permits [founder] (fun _ _ => True) fun _ => True) :=
    (hempty.calm_enlist List.not_mem_nil hcalm).numbering.setNode_same houses.stands rfl
  exact ⟨hstands, hlike.keeps.stocked hfounded, hquiet.like hlike⟩

/-- A ring of named nodes is built as a star, unless two names lead to one identifier. -/
theorem build_works (config : Config) (others : Nat)
    (taken : ¬ (nodeIds (others + 1)).Nodup → ∀ number ≤ others,
      fails (.nameTaken (nodeName number) (nodeId number))) :
    Ends (build config (others + 1)) Cluster.empty (fun result after =>
      (nodeIds (others + 1)).Nodup ∧
      result = (nodeId 0, (List.range others).map fun number => nodeId (number + 1)) ∧
        Works config (result.1 :: result.2) (fun _ _ => True) (fun _ => True)
          (.gathered result.1 result.2) (fun _ => none) after) fails := by
  rw [nodeIds_succ] at taken ⊢
  refine .bind ((add_ends (Cluster.hosts_empty config) 0 fun h => absurd h List.not_mem_nil).imp ?_)
  rintro founder _ ⟨-, rfl, rfl⟩
  refine .bind ((found_works config (nodeId 0)).imp fun _ cluster hworks => ?_)
  refine .bind ((Ends.mapM (fun done values after => (nodeId 0 :: values).Nodup ∧
    values = done.map (fun number => nodeId (number + 1)) ∧
      Works config (nodeId 0 :: values) (fun _ _ => True) (fun _ => True)
        (.gathered (nodeId 0) values) (fun _ => none) after)
          ⟨List.nodup_singleton _, rfl, hworks⟩ ?_).imp
            fun values after h => .pure ⟨h.2.1 ▸ h.1, Prod.ext rfl h.2.1, h.2.2⟩)
  rintro done number rest values cluster hrange ⟨hdistinct, rfl, hworks⟩
  refine .bind ((add_ends hworks.hosts (number + 1) fun hmem => ?_).imp ?_)
  · refine taken (fun hnodup => ?_) _ ?_
    · rw [hrange, List.map_append, List.map_cons, ← List.cons_append] at hnodup
      exact (List.nodup_append.1 hnodup).2.2 _ hmem _ (List.mem_cons_self ..) rfl
    · exact List.mem_range.1 (hrange ▸ List.mem_append_right _ List.mem_cons_self)
  · rintro id _ ⟨hnew, rfl, rfl⟩
    have hmem : nodeId 0 ∈ nodeId 0 :: done.map fun number => nodeId (number + 1) :=
      List.mem_cons_self ..
    have hne : nodeId 0 ≠ nodeId (number + 1) := ne_of_mem_of_not_mem hmem hnew
    refine .bind ((hworks.joins hmem hnew (fun _ => nofun) (fun answer => answer = .ok (nodeId 0))
      (fun next hnext => by cases hnext; exact hmem) (fun _ _ _ _ _ _ _ _ => trivial)
      fun hpopulated hsame htarget =>
        hworks.toStands.place hpopulated (hsame _ hne) htarget _).imp ?_)
    rintro outcome after (⟨next, -, hnext, rfl, -, -, hafter⟩ | ⟨failure, hfailure, -⟩)
    · cases hnext
      rw [Chart.joined_gathered (Ne.symm hne)] at hafter
      refine .pure ⟨?_, ?_, hafter⟩
      · rw [← List.cons_append]
        exact List.nodup_append.2 ⟨hdistinct, List.nodup_singleton _, fun a ha b hb => by
          rw [List.mem_singleton.1 hb]; exact ne_of_mem_of_not_mem ha hnew⟩
      · rw [List.map_append]
        rfl
    · cases hfailure

/-- A ring of nodes with different names is built as a star. -/
theorem build_ends (config : Config) {others : Nat} (distinct : (nodeIds (others + 1)).Nodup) :
    Ends (build config (others + 1)) Cluster.empty (fun result after =>
      result = (nodeId 0, (List.range others).map fun number => nodeId (number + 1)) ∧
        Stands config (result.1 :: result.2) (.gathered result.1 result.2) after) fails :=
  (build_works config others fun h => absurd distinct h).imp
    fun _ _ h => ⟨h.2.1, h.2.2.toStands⟩

end Trial

end RecordRing
