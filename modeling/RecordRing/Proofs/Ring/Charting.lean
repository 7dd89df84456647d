import RecordRing.Proofs.Ring.Ladder

/-!
# Charts of networks

A network follows a chart when every node knows the successor and the predecessor that the chart
gives it.  What an operation of repair does to the network it does to the chart.
-/

namespace RecordRing.Network

variable {net after : Network} {config : Config} {members everyone : List Token} {chart : Chart}
  {id next candidate : Token} {handle : Handle} {node : Node}

/-- Every node of a list knows the successor and the predecessor that a chart gives it. -/
def Follows (net : Network) (members : List Token) (chart : Chart) : Prop :=
  ∀ id ∈ members, ∃ node, net.resident? id = some node ∧
    node.successor = some (chart.succ id) ∧ node.predecessor = chart.pred id

theorem Keeps.follows (h : net.Keeps after) (follows : net.Follows members chart) :
    after.Follows members chart := by
  intro id mem
  rw [h.resident?]
  exact follows id mem

theorem Follows.congr (follows : net.Follows members chart) {ids : List Token}
    (sub : ∀ id ∈ ids, id ∈ members) : net.Follows ids chart :=
  fun id mem => follows id (sub id mem)

theorem Follows.of_houses (follows : net.Follows members chart) (mem : id ∈ members)
    (houses : net.Houses id handle node) :
    node.successor = some (chart.succ id) ∧ node.predecessor = chart.pred id := by
  obtain ⟨found, hfound, hpoints⟩ := follows id mem
  rw [houses.resident?, Option.some.injEq] at hfound
  rwa [hfound]

/-- A node is told about another one. -/
theorem Follows.tells (follows : net.Follows members chart)
    (populated : net.Populated config everyone)
    (tells : net.Tells id candidate after) :
    after.Follows members (chart.told id candidate) := by
  intro other hother
  obtain ⟨target, htarget, hresident⟩ := tells.resident? populated other
  rw [hresident]
  obtain ⟨node, hnode, hsucc, hpred⟩ := follows other hother
  split
  · rename_i heq
    cases heq
    obtain rfl : node = target := Option.some.inj (hnode.symm.trans htarget)
    refine ⟨_, rfl, ?_, ?_⟩
    · rw [Node.successor, Node.fingers_notified]
      exact hsucc
    · rw [Node.predecessor_notified, hpred, populated.named id node hnode]
      exact (if_pos rfl).symm
  · rename_i hne
    exact ⟨node, hnode, hsucc, hpred.trans (if_neg hne).symm⟩

/-- A node takes a successor. -/
theorem Follows.leads (follows : net.Follows members chart)
    (populated : net.Populated config everyone)
    (houses : net.Houses id handle node) (next : Token) :
    (net.setNode handle (node.setSuccessor next)).Follows members (chart.led id next) := by
  intro other hother
  rw [populated.resident?_setNode houses]
  split
  · rename_i heq
    cases heq
    exact ⟨_, rfl, (Node.successor_setSuccessor node next).trans (congrArg some (if_pos rfl).symm),
      (follows.of_houses hother houses).2⟩
  · rename_i hne
    obtain ⟨found, hfound, hsucc, hpred⟩ := follows other hother
    exact ⟨found, hfound, hsucc.trans (congrArg some (if_neg hne).symm), hpred⟩

/-- A network in which a node has been overwritten by one that knows no others is still populated.
-/
theorem Populated.leads (populated : net.Populated config members)
    (houses : net.Houses id handle node)
    (mem : next ∈ members) :
    (net.setNode handle (node.setSuccessor next)).Populated config members := by
  have hid := populated.id_eq houses
  exact populated.setNode houses hid ((populated.regular_of houses).setSuccessor mem)

/-- The successor that a node finds is a node. -/
theorem Populated.towards_mem (populated : net.Populated config members) (mem : next ∈ members)
    (resident : net.resident? next = some node) : towards id next node.predecessor ∈ members := by
  rw [towards]
  cases hfound : node.predecessor.filter fun before => insideOpen id next before with
  | none => exact mem
  | some before =>
      have hbefore := (Option.filter_eq_some_iff.1 hfound).1
      exact (populated.regular next node resident).predecessor before hbefore

/-- The successor that successor repair finds is that of the chart. -/
theorem Follows.target_eq (follows : net.Follows members chart)
    (populated : net.Populated config members) (houses : net.Houses id handle node)
    {other : Node} (holds : node.successor = some next) (asked : net.resident? next = some other) :
    towards id next other.predecessor = chart.target id := by
  have hinside := (populated.regular_of houses).successor holds
  obtain ⟨found, hfound, -, hpred⟩ := follows next hinside
  rw [asked, Option.some.injEq] at hfound
  have hnext := (follows.of_houses (populated.mem houses) houses).1
  rw [holds, Option.some.injEq] at hnext
  rw [Chart.target, ← hnext, hfound, hpred]

/-- Successor repair at a node of the chart. -/
theorem Follows.repairs (follows : net.Follows members chart)
    (populated : net.Populated config members)
    (mem : id ∈ members) (repairs : net.Repairs id after) :
    after.Populated config members ∧ after.Follows members (chart.repaired id) := by
  cases repairs with
  | alone houses holds asked found same =>
      rw [follows.target_eq populated houses holds asked] at found
      rw [Chart.repaired, if_pos found]
      exact ⟨same.keeps.populated (populated.leads houses mem),
        same.keeps.follows (follows.leads populated houses id)⟩
  | tells houses holds asked found ne told =>
      have htarget : towards id _ _ ∈ members :=
        populated.towards_mem ((populated.regular_of houses).successor holds) asked
      rw [follows.target_eq populated houses holds asked] at found htarget
      rw [found] at htarget
      have hmoved := populated.leads houses htarget
      rw [Chart.repaired, found, if_neg ne]
      exact ⟨hmoved.tells mem told, (follows.leads populated houses _).tells hmoved told⟩

/-- Who is changed by successor repair at a node: the node itself, and the one that it tells. -/
theorem Follows.resident?_repairs (follows : net.Follows members chart)
    (populated : net.Populated config members) (repairs : net.Repairs id after) :
    (∃ node, net.resident? id = some node ∧
      after.resident? id = some (node.setSuccessor (chart.target id))) ∧
    (chart.target id ≠ id → ∃ found, net.resident? (chart.target id) = some found ∧
      after.resident? (chart.target id) = some (found.notified id).1) ∧
    ∀ other, other ≠ id → other ≠ chart.target id →
      after.resident? other = net.resident? other := by
  cases repairs with
  | alone houses holds asked found same =>
      rw [follows.target_eq populated houses holds asked] at found
      have hresident := populated.resident?_setNode houses
      refine ⟨⟨_, houses.resident?, ?_⟩, fun hother => absurd found hother, fun other hother _ => ?_⟩
      · rw [same.keeps.resident?, hresident, if_pos rfl, found]
      · rw [same.keeps.resident?, hresident, if_neg hother]
  | tells houses holds asked found ne told =>
      have htarget : towards id _ _ ∈ members :=
        populated.towards_mem ((populated.regular_of houses).successor holds) asked
      rw [follows.target_eq populated houses holds asked] at found htarget
      rw [found] at htarget ⊢
      have hresident := populated.resident?_setNode houses
      have htold := told.resident? (populated.leads houses htarget)
      refine ⟨⟨_, houses.resident?, ?_⟩, fun _ => ?_, fun other hother hfar => ?_⟩
      · obtain ⟨first, -, hafter⟩ := htold id
        rw [hafter, if_neg (Ne.symm ne), hresident, if_pos rfl]
      · obtain ⟨first, hfirst, hafter⟩ := htold _
        rw [hresident, if_neg ne] at hfirst
        exact ⟨first, hfirst, hafter.trans (if_pos rfl)⟩
      · obtain ⟨first, -, hafter⟩ := htold other
        rw [hafter, if_neg hfar, hresident, if_neg hother]

/-- What successor repair at a node changes of any node: it may take the successor that is found,
and the one that is found is told of the node. -/
theorem Follows.origin_repairs (follows : net.Follows members chart)
    (populated : net.Populated config members) (repairs : net.Repairs id after) {other : Token}
    {later : Node} (found : after.resident? other = some later) :
    ∃ node, net.resident? other = some node ∧
      (later.lifecycle = node.lifecycle ∨
        other = chart.target id ∧ later.lifecycle = (node.notified id).1.lifecycle) ∧
      ∀ slot finger, later.fingers.get slot = some finger →
        node.fingers.get slot = some finger ∨ other = id ∧ finger = chart.target id := by
  obtain ⟨⟨node, hnode, hself⟩, htold, hrest⟩ := follows.resident?_repairs populated repairs
  by_cases heq : other = id
  · subst heq
    obtain rfl := Option.some.inj (hself.symm.trans found)
    refine ⟨node, hnode, Or.inl rfl, fun slot finger hfinger => ?_⟩
    rw [Node.setSuccessor, Fingers.get_set] at hfinger
    split at hfinger
    · exact Or.inr ⟨rfl, (Option.some.inj hfinger).symm⟩
    · exact Or.inl hfinger
  · by_cases htarget : other = chart.target id
    · subst htarget
      obtain ⟨target, hresident, hafter⟩ := htold heq
      obtain rfl := Option.some.inj (hafter.symm.trans found)
      refine ⟨target, hresident, Or.inr ⟨rfl, rfl⟩, fun slot finger hfinger => Or.inl ?_⟩
      rwa [Node.fingers_notified] at hfinger
    · rw [hrest other heq htarget] at found
      exact ⟨later, found, Or.inl rfl, fun slot finger => Or.inl⟩

/-- What the chart says of a node that is still missing does not matter. -/
theorem Follows.joined (follows : net.Follows members chart) (new : id ∉ members) (next : Token) :
    net.Follows members (chart.joined id next) := by
  intro other hother
  have hne : other ≠ id := ne_of_mem_of_not_mem hother new
  obtain ⟨node, hnode, hsucc, hpred⟩ := follows other hother
  exact ⟨node, hnode, hsucc.trans (congrArg some (if_neg hne).symm), hpred.trans (if_neg hne).symm⟩

/-- A node joins the ring of the chart. -/
theorem Follows.joins (follows : net.Follows members chart)
    (populated : net.Populated config everyone)
    (inside : id ∈ everyone) (mem : next ∈ everyone) (succ : chart.succ id = next)
    (pred : chart.pred id = none) (joins : net.Joins id next after) :
    after.Populated config everyone ∧ after.Follows (members ++ [id]) (chart.told next id) := by
  obtain ⟨handle, node, houses, tells⟩ := joins
  have hregular := (populated.regular_of houses).rejoining.setSuccessor mem
  have hid := populated.id_eq houses
  have hplaced :
      (net.setNode handle (node.rejoining.setSuccessor next)).Populated config everyone :=
    populated.setNode houses hid hregular
  refine ⟨hplaced.tells inside tells, Follows.tells (fun other hother => ?_) hplaced tells⟩
  rw [populated.resident?_setNode houses]
  split
  · rename_i heq
    cases heq
    exact ⟨_, rfl, (Node.successor_setSuccessor ..).trans (congrArg some succ.symm), pred.symm⟩
  · rename_i hne
    refine follows other ((List.mem_append.1 hother).resolve_right fun h => ?_)
    exact hne (List.mem_singleton.1 h)

/-- Where every node knows the next one there is a ring, whatever the routing slots hold. -/
theorem Follows.successorRing {ids : List Token} (follows : net.Follows ids chart)
    (populated : net.Populated config everyone) (ascending : Ascending ids)
    (succ : ∀ id ∈ ids, chart.succ id = nextOf ids id)
    (knows : ∀ id ∈ ids, ∀ node, net.resident? id = some node →
      ∀ slot finger, node.fingers.get slot = some finger → finger ∈ ids) :
    net.SuccessorRing ids where
  ascending := ascending
  serves id mem := by
    obtain ⟨node, hnode, hsucc, -⟩ := follows id mem
    obtain ⟨handle, hhouses⟩ := resident?_eq_some.1 hnode
    obtain ⟨member, hserves, rfl⟩ := populated.serves hhouses
    refine ⟨handle, member, hserves, ?_, fun slot finger hfinger => Or.inl ?_⟩
    · rw [hsucc, succ id mem]
    · exact knows id mem _ hnode slot finger hfinger

end RecordRing.Network
