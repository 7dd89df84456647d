import RecordRing.Proofs.Ring.Charting

/-!
# Lookups in prompt networks

A lookup in a prompt network comes to its end without a wait.  On a ring it names the owner of the
key or gives up at the hop limit (`lookUp_achieves`), and it changes nothing but counters.  While the
ring is not in order yet a lookup still ends, and whatever it names is one of the nodes
(`lookUp_ends`).
-/

namespace RecordRing.Network

variable {net after : Network} {ids : List Token} {id key current origin : Token}
  {number hops : Nat} {handle : Handle} {member : Member} {node : Node} {config : Config}
  {members : List Token} {chart : Chart}

/-! ## Lookups on a ring -/

/-- A lookup that is about to consult a node of the ring before the key ends well.  It asks this
node, and at most one more peer for each node of the ring between it and the key. -/
theorem consult_achieves (ring : net.SuccessorRing ids) (prompt : net.Prompt)
    (stands : net.nodeAt? handle = some node) (mem : current ∈ ids)
    (between : insideOpen node.id key current = true) :
    Achieves number net handle (node.consult net.surroundings key current hops)
      fun outcome after => net.Same after ∧ LookupEnds ids key node.config.maxHops
        (hops + 1 + ids.countP (insideOpen current key)) outcome := by
  -- each peer asked lies nearer to the key, so fewer nodes of the ring are left before it
  induction hcount : ids.countP (insideOpen current key) using Nat.strongRecOn
    generalizing net current hops with
  | ind left ih =>
  subst hcount
  obtain ⟨peer, asked, hserves, hsucc, -⟩ := ring.serves current mem
  have hresolve : node.resolve net.surroundings current = some (.remote peer) := by
    rw [Node.resolve, if_neg (insideOpen_iff.1 between).1]
    exact congrArg (Option.map Contact.remote) hserves.listed
  by_cases hhops : hops < node.config.maxHops
  · have hturn : node.consult net.surroundings key current hops =
        node.ask (.remote peer) .successor
          (.successorAsked key current (.remote peer) (hops + 1)) := by
      rw [Node.consult, if_pos hhops, hresolve]
    rw [hturn]
    refine .query rfl stands rfl rfl prompt (nodeAt?_of_member? hserves.stands)
      (by rw [Node.serve, hsucc]) fun told htold => ?_
    have hnode : told.nodeAt? handle = some node := (htold.nodeAt? _).trans stands
    by_cases hinside : insideHalfOpen current (nextOf ids current) key = true
    · -- the key lies between the peer and its successor
      have howner := ownerOf_eq_of_insideHalfOpen ring.ascending (nextOf_mem mem current)
        (fun c hc => not_insideOpen_nextOf ring.ascending hc current) hinside
      rw [Node.resume, Node.onSuccessor, if_pos hinside, ← howner]
      exact .answer_same hnode ⟨htold, lookupEnds_owner ..⟩
    · -- the peer names a closer one, or hands the lookup to its successor
      rw [Node.resume, Node.onSuccessor, if_neg hinside]
      refine .query rfl hnode rfl rfl (prompt.same htold)
        ((htold.nodeAt? _).trans (nodeAt?_of_member? hserves.stands))
        (by rw [Node.serve, htold.surroundings]) fun named hnamed => ?_
      have hsame := htold.trans hnamed
      obtain ⟨hmem, hnearer⟩ := nextPeer_between ring mem hserves hinside
      refine (ih _ (countP_insideOpen_lt hmem hnearer) (ring.alike hsame.alike)
        (prompt.same hsame) ((hsame.nodeAt? _).trans stands) hmem
        (insideOpen_trans between hnearer) rfl).weaken ?_
      rintro outcome after ⟨hafter, hends⟩
      have hless := countP_insideOpen_lt hmem hnearer
      exact ⟨hsame.trans hafter, hends.mono (by omega)⟩
  · rw [Node.consult, if_neg hhops]
    refine .reply rfl ⟨?_, Or.inr rfl, fun hneed => absurd hneed (by omega)⟩
    obtain ⟨found, hfound, -⟩ := nodeAt?_eq_some.1 stands
    rw [enact, setNode_self stands, List.foldl_cons, List.foldl_nil, perform_tally hfound]
    exact Same.counted net _

/-- A lookup at a node of the ring ends with the owner of the key or at the hop limit, and it asks
at most one peer for each other node of the ring. -/
theorem lookUp_achieves (ring : net.SuccessorRing ids) (prompt : net.Prompt) (mem : origin ∈ ids)
    (serves : net.Serves origin handle member) (number : Nat) (key : Token) :
    Achieves number net handle (member.node.lookUp net.surroundings key) fun outcome after =>
      net.Same after ∧ LookupEnds ids key member.node.config.maxHops (ids.length - 1) outcome := by
  have hstands := nodeAt?_of_member? serves.stands
  have hsucc := ring.successor mem serves
  have hnamed := serves.named
  by_cases hinside : insideHalfOpen origin (nextOf ids origin) key = true
  · have howner := ownerOf_eq_of_insideHalfOpen ring.ascending (nextOf_mem mem origin)
      (fun c hc => not_insideOpen_nextOf ring.ascending hc origin) hinside
    have hturn : member.node.lookUp net.surroundings key =
        member.node.reply (.ok (ownerOf ids key)) := by
      simp only [Node.lookUp, hsucc, hnamed, if_pos hinside, howner]
    rw [hturn]
    exact .answer_same hstands ⟨Same.refl net, lookupEnds_owner ..⟩
  · have hbeyond := insideOpen_of_not_insideHalfOpen hinside
    have hclosest : member.node.closestPrecedingFinger net.surroundings key ≠ member.node.id :=
      Node.closestPrecedingFinger_ne hsucc (hnamed ▸ hbeyond) (ring.knows (nextOf_mem mem origin))
    have hturn : member.node.lookUp net.surroundings key = member.node.consult net.surroundings key
        (member.node.closestPrecedingFinger net.surroundings key) 0 := by
      simp only [Node.lookUp, hsucc]
      rw [hnamed, if_neg hinside, if_neg (hnamed ▸ hclosest)]
    obtain ⟨hmem, hbetween⟩ := (ring.closest mem serves).resolve_left (hnamed ▸ hclosest)
    rw [hturn]
    refine (consult_achieves ring prompt hstands hmem (hnamed ▸ hbetween)).weaken ?_
    rintro outcome after ⟨hafter, hends⟩
    have hless := countP_insideOpen_lt hmem hbetween
    have hall := countP_insideOpen_lt_length mem key
    exact ⟨hafter, hends.mono (by omega)⟩

/-! ## Lookups before the ring is in order -/

/-- A lookup has changed nothing, and what it names is one of some nodes. -/
def Names (net : Network) (members : List Token) (outcome : Outcome .id) (after : Network) : Prop :=
  net.Same after ∧ ∀ owner, outcome = .ok owner → owner ∈ members

/-- A lookup that is about to consult a node ends. -/
theorem consult_ends (populated : net.Populated config members)
    (follows : net.Follows members chart) (houses : net.Houses id handle node)
    (mem : current ∈ members) :
    Achieves number net handle (node.consult net.surroundings key current hops)
      (net.Names members) := by
  -- every peer asked is one of those that may be asked
  induction hleft : node.config.maxHops - hops using Nat.strongRecOn
    generalizing net current hops with
  | ind left ih =>
  have hstands := houses.stands
  by_cases hhops : hops < node.config.maxHops
  · obtain ⟨contact, asked, hresolve, hasked⟩ := populated.resolve houses mem
    have hsucc := (follows.of_houses mem hasked).1
    have hnext := (populated.regular_of hasked).successor hsucc
    rw [Node.consult, if_pos hhops, hresolve]
    refine .query rfl hstands rfl rfl populated.prompt hasked.stands
      (by rw [Node.serve, hsucc]) fun told htold => ?_
    rw [Node.resume, Node.onSuccessor]
    split
    · refine .answer_same ((htold.nodeAt? _).trans hstands) ⟨htold, fun owner howner => ?_⟩
      cases howner
      exact hnext
    · refine .query rfl ((htold.nodeAt? _).trans hstands) rfl rfl (populated.prompt.same htold)
        ((htold.nodeAt? _).trans hasked.stands)
        (by rw [Node.serve, htold.surroundings]) fun named hnamed => ?_
      have hsame := htold.trans hnamed
      have hmem : (if asked.closestPrecedingFinger net.surroundings key = current
          then chart.succ current else asked.closestPrecedingFinger net.surroundings key) ∈
            members := by
        split
        · exact hnext
        · rename_i hother
          obtain ⟨-, -, slot, hslot⟩ := (asked.closestPrecedingFinger_spec net.surroundings
            key).resolve_left fun hself => hother (hself.trans (populated.id_eq hasked))
          exact (populated.regular_of hasked).fingers slot _ hslot
      refine (ih _ (by omega) (hsame.keeps.populated populated) (hsame.keeps.follows follows)
        (hsame.keeps.houses houses) hmem rfl).weaken ?_
      rintro outcome after ⟨hafter, hnames⟩
      exact ⟨hsame.trans hafter, hnames⟩
  · rw [Node.consult, if_neg hhops]
    refine .reply rfl ⟨?_, fun owner howner => ?_⟩
    · obtain ⟨found, hfound, -⟩ := nodeAt?_eq_some.1 hstands
      rw [enact, setNode_self hstands, List.foldl_cons, List.foldl_nil, perform_tally hfound]
      exact Same.counted net _
    · cases howner

/-- Every lookup ends when all nodes have a successor, and what it names is one of the nodes. -/
theorem lookUp_ends (populated : net.Populated config members)
    (follows : net.Follows members chart) (houses : net.Houses id handle node) (number : Nat)
    (key : Token) :
    Achieves number net handle (node.lookUp net.surroundings key) (net.Names members) := by
  have hsucc := (follows.of_houses (populated.mem houses) houses).1
  have hnext := (populated.regular_of houses).successor hsucc
  have hreply : Achieves number net handle (node.reply (.ok (chart.succ id)))
      (net.Names members) := by
    refine .answer_same houses.stands ⟨Same.refl net, fun owner howner => ?_⟩
    cases howner
    exact hnext
  simp only [Node.lookUp, hsucc]
  split
  · exact hreply
  · split
    · exact hreply
    · rename_i hother
      obtain ⟨-, -, slot, hslot⟩ :=
        (node.closestPrecedingFinger_spec net.surroundings key).resolve_left hother
      exact consult_ends populated follows houses ((populated.regular_of houses).fingers slot _ hslot)

end RecordRing.Network
