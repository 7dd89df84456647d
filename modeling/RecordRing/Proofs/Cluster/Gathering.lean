import RecordRing.Proofs.Cluster.Trials
import RecordRing.Proofs.Ring.Charting

/-!
# Gathering a ring

A ring is gathered when one node founds it and all others join through the founder, one after the
other and without any repair.  After as many rounds of repair as there are others, every node knows
the next one and the one before, in whatever order they have joined (`rounds_close_gathered_ring`).
-/

namespace RecordRing

open Network

namespace Cluster

variable {cluster : Cluster} {members : List Token} {id other : Token} {config : Config}
  {chart : Chart}

/-- The cluster with a node that the directory leads to. -/
def enlist (config : Config) (id : Token) (cluster : Cluster) : Cluster :=
  cluster.addNode (.plain id config)

/-- The node of a setup before it has done anything. -/
def newcomer (config : Config) (id : Token) : Node := Node.fresh id (Store.empty none) config

theorem regular_newcomer (config : Config) (id : Token) (members : List Token) :
    (newcomer config id).Regular config members := by
  refine ⟨rfl, fun slot finger hfinger => ?_, fun _ => nofun, Nat.le_refl 1, ?_⟩
  · rw [newcomer, Node.fresh, Fingers.get_empty] at hfinger
    cases hfinger
  · exact show 1 < keyBits by decide

theorem hosts_empty (config : Config) : Cluster.empty.Hosts config [] where
  populated :=
    { numbered := ⟨fun number task found => by simp [empty, Network.empty] at found, nofun, nofun⟩
      prompt :=
        ⟨fun handle member found => by simp [empty, Network.empty, Network.member?] at found,
          fun handle => by simp [empty, Network.empty, script?]⟩
      listed := fun id handle found => by simp [empty, Network.empty] at found
      resides := fun id mem => absurd mem List.not_mem_nil
      named := fun id node found => by simp [empty, Network.empty, resident?] at found
      regular := fun id node found => by simp [empty, Network.empty, resident?] at found }
  same id mem := absurd mem List.not_mem_nil

/-- The network of the cluster with one more node. -/
theorem net_enlist (cluster : Cluster) (config : Config) (id : Token) :
    (cluster.enlist config id).net =
      (cluster.net.attach (.member (NodeSetup.plain id config).member)).2.register id
        cluster.net.endpoints.size := rfl

theorem nodes_enlist (cluster : Cluster) (config : Config) (id : Token) :
    (cluster.enlist config id).nodes = cluster.nodes.insert id cluster.net.endpoints.size := rfl

theorem directory_enlist (cluster : Cluster) (config : Config) (id other : Token) :
    (cluster.enlist config id).net.directory[other]? =
      if other = id then some cluster.net.endpoints.size else cluster.net.directory[other]? := by
  rw [net_enlist, register]
  refine Std.TreeMap.getElem?_insert.trans ?_
  simp only [Std.LawfulEqOrd.compare_eq_iff_eq, eq_comm (a := id)]
  rfl

/-- Who lives where when a node has been added. -/
theorem Hosts.resident?_enlist (hosts : cluster.Hosts config members) (id other : Token) :
    (cluster.enlist config id).net.resident? other =
      if other = id then some (newcomer config id) else cluster.net.resident? other := by
  have hnode (handle : Handle) : (cluster.enlist config id).net.nodeAt? handle =
      if handle = cluster.net.endpoints.size then some (newcomer config id)
      else cluster.net.nodeAt? handle := nodeAt?_attach cluster.net _ handle
  rw [resident?, directory_enlist]
  split
  · rw [Option.bind_some, hnode, if_pos rfl]
  · rw [resident?]
    refine Option.bind_congr fun handle hlisted => ?_
    rw [hnode, if_neg]
    obtain ⟨node, hfound⟩ := hosts.populated.resides other
      (hosts.populated.listed other handle hlisted)
    obtain ⟨peer, hpeer⟩ := resident?_eq_some.1 hfound
    obtain rfl : handle = peer := Option.some.inj (hlisted.symm.trans hpeer.listed)
    exact Nat.ne_of_lt (lt_size_of_nodeAt? hpeer.stands)

theorem Hosts.enlist (hosts : cluster.Hosts config members) (id : Token) :
    (cluster.enlist config id).Hosts config (members ++ [id]) := by
  have hresident := hosts.resident?_enlist id
  have hold (other : Token) (h : other ∈ members ++ [id]) (hne : other ≠ id) : other ∈ members :=
    (List.mem_append.1 h).resolve_right fun h => hne (List.mem_singleton.1 h)
  refine ⟨⟨?_, ⟨?_, ?_⟩, ?_, ?_, ?_, ?_⟩, ?_⟩
  · exact hosts.populated.numbered.congr (fun _ => rfl) rfl rfl (Nat.le_refl _)
  · intro handle member found
    have hmember : (cluster.enlist config id).net.member? handle =
        if handle = cluster.net.endpoints.size then some (NodeSetup.plain id config).member
        else cluster.net.member? handle := member?_attach cluster.net _ handle
    rw [hmember] at found
    split at found
    · rw [← Option.some.inj found]
      exact ⟨rfl, rfl, rfl⟩
    · exact hosts.populated.prompt.members handle member found
  · intro handle
    rw [net_enlist]
    exact (congrFun (script?_attach cluster.net _) handle).trans
      (hosts.populated.prompt.scripts handle)
  · intro other handle hlisted
    rw [directory_enlist] at hlisted
    split at hlisted
    · rename_i heq
      exact heq ▸ List.mem_append_right _ (List.mem_singleton_self _)
    · exact List.mem_append_left _ (hosts.populated.listed other handle hlisted)
  · intro other hother
    rw [hresident]
    split
    · exact ⟨_, rfl⟩
    · rename_i hne
      exact hosts.populated.resides other (hold other hother hne)
  · intro other node hfound
    rw [hresident] at hfound
    split at hfound
    · rename_i heq
      rw [← Option.some.inj hfound, heq]
      rfl
    · exact hosts.populated.named other node hfound
  · intro other node hfound
    rw [hresident] at hfound
    split at hfound
    · rw [← Option.some.inj hfound]
      exact regular_newcomer config id _
    · exact (hosts.populated.regular other node hfound).mono fun _ => List.mem_append_left _
  · intro other hother
    rw [directory_enlist, nodes_enlist, Std.TreeMap.getElem?_insert]
    simp only [Std.LawfulEqOrd.compare_eq_iff_eq, eq_comm (a := id)]
    split
    · rfl
    · rename_i hne
      exact hosts.same other (hold other hother hne)

end Cluster

namespace Trial

variable {cluster : Cluster} {members ids others : List Token} {founder known id : Token}
  {config : Config} {chart : Chart} {fails : Trouble → Prop}

/-- Adds a node and lets it join the ring of the founder. -/
def welcome (config : Config) (founder id : Token) : Trial Unit := do
  modify (Cluster.enlist config id)
  ask id (.join founder)

/-- Adds a node and lets it found a ring. -/
def establish (config : Config) (founder : Token) : Trial Unit := do
  modify (Cluster.enlist config founder)
  ask founder .found

/-- Gathers a ring: the founder founds it, and the others join one after the other. -/
def gather (config : Config) (founder : Token) (others : List Token) : Trial Unit := do
  establish config founder
  others.forM (welcome config founder)

/-- Repairs the ring in rounds: in every round each node repairs its successor and its
predecessor. -/
def rounds (members : List Token) (count : Nat) : Trial Unit :=
  (List.range count).forM fun _ =>
    members.forM fun id => do
      ask id .stabilize
      ask id .fixPredecessor

/-- The nodes of a cluster follow a chart. -/
structure Stands (config : Config) (members : List Token) (chart : Chart)
    (cluster : Cluster) : Prop where
  hosts : cluster.Hosts config members
  follows : cluster.net.Follows members chart

namespace Stands

/-- An operation that leaves the directory as it is. -/
theorem of_like {after left : Network} {changed : Chart}
    (stands : Stands config members chart cluster)
    (populated : after.Populated config members) (follows : after.Follows members changed)
    (directory : after.directory = cluster.net.directory) (like : after.Like left) :
    Stands config members changed { cluster with net := left } :=
  ⟨stands.hosts.change (like.keeps.populated populated) (like.keeps.directory.trans directory),
    like.keeps.follows follows⟩

/-- Successor repair. -/
theorem stabilize (stands : Stands config members chart cluster) (mem : id ∈ members) :
    Ends (ask id .stabilize) cluster
      (fun _ after => Stands config members (chart.repaired id) after)
      fails := by
  have hkept := keeps_numbering cluster.net
  have hpopulated := hkept.populated stands.hosts.populated
  have hfollows := hkept.follows stands.follows
  refine stands.hosts.ask mem (fun outcome after => outcome = .ok () ∧
      cluster.net.numbering.Repairs id after) (fun handle node houses => ?_) ?_ nofun
  · exact stabilize_achieves hpopulated houses (hfollows.of_houses mem houses).1 _
  · rintro _ after left ⟨-, hrepairs⟩ hlike
    obtain ⟨hafter, hchart⟩ := hfollows.repairs hpopulated mem hrepairs
    exact stands.of_like hafter hchart hrepairs.directory hlike

/-- Predecessor repair finds nothing to do. -/
theorem fixPredecessor (stands : Stands config members chart cluster) (mem : id ∈ members) :
    Ends (ask id .fixPredecessor) cluster
      (fun _ after => Stands config members chart after) fails := by
  have hkept := keeps_numbering cluster.net
  have hpopulated := hkept.populated stands.hosts.populated
  refine stands.hosts.ask mem (fun outcome after => outcome = .ok () ∧
      after = cluster.net.numbering) (fun handle node houses => ?_) ?_ nofun
  · rw [Node.start, hpopulated.fixPredecessor houses]
    exact .answer_same houses.stands ⟨rfl, rfl⟩
  · rintro _ after left ⟨-, rfl⟩ hlike
    exact stands.of_like hpopulated (hkept.follows stands.follows) rfl hlike

/-- Rounds of repair. -/
theorem rounds (stands : Stands config members chart cluster) (count : Nat) :
    Ends (Trial.rounds members count) cluster
      (fun _ after => Stands config members ((Chart.round members)^[count] chart) after) fails := by
  have hround (chart : Chart) (cluster : Cluster) (stands : Stands config members chart cluster) :
      Ends (members.forM fun id => do ask id .stabilize; ask id .fixPredecessor) cluster
        (fun _ after => Stands config members (chart.round members) after) fails := by
    refine .forM (fun done after => Stands config members (done.foldl Chart.repaired chart) after)
      stands fun done id rest cluster hmembers hstands => ?_
    have hmem : id ∈ members := hmembers ▸ List.mem_append_right _ (List.mem_cons_self ..)
    rw [List.foldl_append]
    exact .bind ((hstands.stabilize hmem).imp fun _ after hafter => hafter.fixPredecessor hmem)
  suffices h : Ends (Trial.rounds members count) cluster (fun _ after =>
      Stands config members
        ((Chart.round members)^[(List.range count).length] chart) after) fails by
    rwa [List.length_range] at h
  refine .forM (fun done after =>
    Stands config members ((Chart.round members)^[done.length] chart) after) stands
      fun done _ rest cluster _ hstands => ?_
  rw [List.length_append, List.length_singleton, Function.iterate_succ_apply']
  exact hround _ cluster hstands

/-- A newcomer joins through a node whose lookup of the place is known. -/
theorem joins (stands : Stands config members chart cluster) (mem : known ∈ members)
    (new : id ∉ members) (answers : Outcome .id → Prop)
    (inside : ∀ next, answers (.ok next) → next ∈ members)
    (looks : ∀ {number start peer target}, start.Populated config (members ++ [id]) →
      (∀ other, other ≠ id → start.resident? other = cluster.net.resident? other) →
      start.Houses known peer target → Achieves number start peer
        (target.lookUp start.surroundings id) fun outcome after =>
          start.Same after ∧ answers outcome) :
    Ends (attempt id (.join known)) (cluster.enlist config id) (fun outcome after =>
      (∃ next mid, answers (.ok next) ∧ outcome = .ok () ∧
        (cluster.enlist config id).net.numbering.Joins id next mid ∧ mid.Like after.net ∧
        Stands config (members ++ [id]) ((chart.joined id next).told next id) after) ∨
      ∃ failure, answers (.error failure) ∧ outcome = .error failure) fails := by
  have hhosts := stands.hosts.enlist id
  have hne {other : Token} (hother : other ∈ members) : other ≠ id :=
    ne_of_mem_of_not_mem hother new
  have hfollows : (cluster.enlist config id).net.Follows members chart := by
    intro other hother
    rw [stands.hosts.resident?_enlist, if_neg (hne hother)]
    exact stands.follows other hother
  have hkept := keeps_numbering (cluster.enlist config id).net
  have hpopulated := hkept.populated hhosts.populated
  have hmem : id ∈ members ++ [id] := List.mem_append_right _ (List.mem_singleton_self _)
  have hold {other : Token} (hother : other ∈ members) : other ∈ members ++ [id] :=
    List.mem_append_left _ hother
  refine hhosts.attempt hmem (fun outcome after =>
    (∃ next, answers (.ok next) ∧ outcome = .ok () ∧
      (cluster.enlist config id).net.numbering.Joins id next after) ∨
    ∃ failure, answers (.error failure) ∧ outcome = .error failure)
      (fun handle node houses => ?_) ?_
  · refine (join_achieves answers hpopulated houses (hold mem)
      (fun next hnext => hold (inside next hnext)) _ fun hstart htarget => ?_).weaken
        fun outcome after h => h.imp_right fun ⟨failure, hanswers, herror, _⟩ =>
          ⟨failure, hanswers, herror⟩
    have hid := hpopulated.id_eq houses
    refine looks (hstart.keeps.populated (hpopulated.setNode houses hid
      (hpopulated.regular_of houses).rejoining)) (fun other hother => ?_) htarget
    rw [hstart.keeps.resident?, hpopulated.resident?_setNode houses, if_neg hother,
      hkept.resident?, stands.hosts.resident?_enlist, if_neg hother]
  · rintro outcome after left (⟨next, hanswers, hok, hjoins⟩ | hfails) hlike
    · obtain ⟨hafter, hchart⟩ := ((hkept.follows hfollows).joined new next).joins hpopulated hmem
        (hold (inside next hanswers)) (if_pos rfl) (if_pos rfl) hjoins
      exact Or.inl ⟨next, after, hanswers, hok, hjoins, hlike,
        hhosts.change (hlike.keeps.populated hafter)
          (hlike.keeps.directory.trans hjoins.directory), hlike.keeps.follows hchart⟩
    · exact Or.inr hfails

/-- A founder that everybody takes for the next one takes itself for the owner of every key. -/
theorem place (stands : Stands config (founder :: others) (.gathered founder others) cluster)
    {start : Network} {number : Nat} {peer : Handle} {target : Node}
    (populated : start.Populated config members)
    (same : start.resident? founder = cluster.net.resident? founder)
    (houses : start.Houses founder peer target) (key : Token) :
    Achieves number start peer (target.lookUp start.surroundings key) fun outcome after =>
      start.Same after ∧ outcome = .ok founder := by
  obtain ⟨found, hfound, hsucc, -⟩ := stands.follows founder (List.mem_cons_self ..)
  obtain rfl : found = target :=
    Option.some.inj (hfound.symm.trans (same.symm.trans houses.resident?))
  rw [Chart.succ_gathered] at hsucc
  have hturn : found.lookUp start.surroundings key = found.reply (.ok founder) := by
    simp only [Node.lookUp, hsucc]
    rw [if_pos (insideHalfOpen_iff.2 (Or.inl (populated.id_eq houses)))]
  rw [hturn]
  exact .answer_same houses.stands ⟨Same.refl start, rfl⟩

/-- A newcomer joins through a founder that everybody takes for the next one. -/
theorem join (stands : Stands config (founder :: others) (.gathered founder others) cluster)
    (new : id ∉ founder :: others) :
    Ends (attempt id (.join founder)) (cluster.enlist config id) (fun outcome after =>
      outcome = .ok () ∧ Stands config (founder :: (others ++ [id]))
        (.gathered founder (others ++ [id])) after) fails := by
  have hne : founder ≠ id := fun heq => new (List.mem_cons.2 (Or.inl heq.symm))
  have hmem : founder ∈ founder :: others := List.mem_cons_self ..
  refine (stands.joins hmem new (fun answer => answer = .ok founder)
    (fun next hnext => by cases hnext; exact hmem) fun hpopulated hsame htarget =>
      stands.place hpopulated (hsame founder hne) htarget id).imp ?_
  rintro outcome after (⟨next, -, hnext, hok, -, -, hafter⟩ | ⟨failure, hfailure, -⟩)
  · cases hnext
    rw [Chart.joined_gathered (Ne.symm hne)] at hafter
    exact ⟨hok, hafter⟩
  · cases hfailure

/-- A newcomer is added and joins. -/
theorem welcome (stands : Stands config (founder :: others) (.gathered founder others) cluster)
    (new : id ∉ founder :: others) :
    Ends (Trial.welcome config founder id) cluster (fun _ after =>
      Stands config (founder :: (others ++ [id])) (.gathered founder (others ++ [id])) after)
      fails := by
  refine .bind (.changed (.bind ((stands.join new).imp ?_)))
  rintro _ after ⟨rfl, hafter⟩
  exact .pure hafter

end Stands

/-- A node founds a ring. -/
theorem found_ends (config : Config) (founder : Token) :
    Ends (ask founder .found) (Cluster.empty.enlist config founder)
      (fun _ after => Stands config [founder] (.gathered founder []) after ∧ ∃ handle node,
        (Cluster.empty.enlist config founder).net.numbering.Houses founder handle node ∧
        ((Cluster.empty.enlist config founder).net.numbering.setNode handle node.founded).Like
          after.net) fails := by
  have hhosts := (Cluster.hosts_empty config).enlist founder
  have hkept := keeps_numbering (Cluster.empty.enlist config founder).net
  have hpopulated := hkept.populated hhosts.populated
  have hmem := List.mem_singleton_self founder
  refine hhosts.ask hmem (fun outcome after => outcome = .ok () ∧
    ∃ handle node, (Cluster.empty.enlist config founder).net.numbering.Houses founder handle node ∧
      after = (Cluster.empty.enlist config founder).net.numbering.setNode handle node.founded)
      (fun handle node houses => .reply rfl ⟨rfl, handle, node, houses, rfl⟩) ?_ nofun
  rintro _ _ left ⟨-, handle, node, houses, rfl⟩ hlike
  have hid := hpopulated.id_eq houses
  have hregular : node.founded.Regular config [founder] :=
    { (hpopulated.regular_of houses).setSuccessor (hid.symm ▸ hmem) with
      predecessor := fun _ => nofun }
  refine ⟨⟨hhosts.change (hlike.keeps.populated (hpopulated.setNode houses hid hregular))
    (hlike.keeps.directory.trans (directory_setNode ..)),
    hlike.keeps.follows fun other hother => ?_⟩, handle, node, houses, hlike⟩
  rw [hpopulated.resident?_setNode houses, if_pos (List.mem_singleton.1 hother)]
  exact ⟨_, rfl, (Node.successor_setSuccessor ..).trans (congrArg some hid), rfl⟩

/-- A ring that has been gathered is a star. -/
theorem gather_ends (config : Config) (distinct : (founder :: others).Nodup) :
    Ends (gather config founder others) Cluster.empty
      (fun _ after => Stands config (founder :: others) (.gathered founder others) after)
      fails := by
  refine .bind ((Ends.bind (.changed (found_ends config founder))).imp fun _ cluster h => ?_)
  refine .forM (fun done after =>
    Stands config (founder :: done) (.gathered founder done) after) h.1
      fun done id rest cluster hothers hstands => hstands.welcome fun hmem => ?_
  rw [hothers, ← List.cons_append] at distinct
  exact (List.nodup_append.1 distinct).2.2 id hmem id (List.mem_cons_self ..) rfl

/-- The chart of a gathered ring is closed after as many rounds as there are others. -/
theorem closed_rounds_gathered (distinct : (founder :: others).Nodup) (count : Nat)
    (enough : others.length ≤ count) :
    ((Chart.round (founder :: others))^[count] (.gathered founder others)).Closed
      (inOrder (founder :: others)) := by
  have hascending := ascending_inOrder distinct
  have hfounded := mem_inOrder.2 (List.mem_cons_self : founder ∈ founder :: others)
  have hrung := rung_gathered hascending (List.nodup_cons.1 distinct).1 fun id =>
    mem_inOrder.symm
  refine hrung.close hascending hfounded distinct (fun id => mem_inOrder.symm) count ?_
  have hless := countP_insideOpen_lt_length hfounded founder
  rw [length_inOrder, List.length_cons] at hless
  omega

/-- However the nodes of a ring have joined: when the founder has founded the ring and the others
have joined through it, one after the other and without any repair, as many rounds of repair as
there are others let every node know the next one and the one before.  A node on its own succeeds
itself and knows no predecessor.  No call fails on the way. -/
theorem rounds_close_gathered_ring (config : Config) (founder : Token) (others : List Token)
    (distinct : (founder :: others).Nodup) :
    ∃ cluster, (do gather config founder others; rounds (founder :: others) others.length).run
      Cluster.empty = .ok ((), cluster) ∧
      ∀ id ∈ founder :: others, ∃ node, cluster.node? id = some node ∧
        node.successor = some (nextOf (inOrder (founder :: others)) id) ∧
        node.predecessor = beforeOf? (inOrder (founder :: others)) id := by
  have hends : Ends (do gather config founder others; rounds (founder :: others) others.length)
      Cluster.empty (fun _ after => Stands config (founder :: others)
        ((Chart.round (founder :: others))^[others.length] (.gathered founder others)) after)
      fun _ => False :=
    .bind ((gather_ends config distinct).imp fun _ cluster hstands => hstands.rounds _)
  have hclosed := closed_rounds_gathered distinct others.length (Nat.le_refl _)
  rw [Ends] at hends
  split at hends
  · rename_i value cluster hrun
    refine ⟨cluster, hrun, fun id hid => ?_⟩
    obtain ⟨node, hnode, hsucc, hpred⟩ := hends.follows id hid
    have hmem := mem_inOrder.2 hid
    refine ⟨node, (hends.hosts.node? hid).trans hnode, ?_, ?_⟩
    · rw [hsucc, hclosed.succ id hmem]
    · rw [hpred, hclosed.pred id hmem]
  · exact hends.elim

/-- Three nodes that join in an order other than that of their identifiers need two rounds. -/
theorem rounds_close_ring_of_three :
    ([20, 40, 10].map Token.wrapping).Nodup ∧ ∃ cluster,
      (do gather Config.standard (Token.wrapping 20) ([40, 10].map Token.wrapping)
          rounds ([20, 40, 10].map Token.wrapping) 2).run Cluster.empty = .ok ((), cluster) ∧
      ∀ id ∈ [20, 40, 10].map Token.wrapping, ∃ node, cluster.node? id = some node ∧
        node.successor = some (nextOf (inOrder ([20, 40, 10].map Token.wrapping)) id) ∧
        node.predecessor = beforeOf? (inOrder ([20, 40, 10].map Token.wrapping)) id :=
  ⟨by decide, rounds_close_gathered_ring Config.standard (Token.wrapping 20)
    ([40, 10].map Token.wrapping) (by decide)⟩

end Trial

end RecordRing
