import Mathlib.Algebra.Group.Nat.Defs
import Mathlib.Data.Nat.Log
import RecordRing.Proofs.CircularArithmetic
import RecordRing.Proofs.Routing

/-!
# Lookups with exact fingers

When every slot of every node holds the owner of the position at which it starts, a lookup takes few
peers.  The closest finger before a key is the one in the highest slot that does not reach beyond the
last node before the key (`ExactRing.closest_exact`), so with every peer the distance to that
node falls below the next lower power of two, and after as many peers as there are slots nothing is
left of it (`exact_fingers_ask_few`).

## Implementation notes

A slot above the right one is passed over for one of two reasons: its owner lies at the key or beyond,
or no node is left before the turn ends and its owner is the node itself.  `gap_lt_owner_of_lt` covers
both.
-/

namespace RecordRing

variable {ids : List Token} {id start key current finger last : Token} {slot : Fin keyBits}

/-- The owner of a position that lies before a node is not beyond the node. -/
theorem gap_owner_of_le (ascending : Ascending ids) (mem : last ∈ ids)
    (before : current.gap start ≤ current.gap last) :
    current.gap start ≤ current.gap (ownerOf ids start) ∧
      current.gap (ownerOf ids start) ≤ current.gap last := by
  have hnear := gap_ownerOf_le ascending mem start
  have hlast := Token.gap_add_gap current start last
  have howner := Token.gap_add_gap current start (ownerOf ids start)
  have hlastR := Token.gap_lt start last
  have hbeforeR := Token.gap_lt current last
  have hownerR := Token.gap_lt current (ownerOf ids start)
  omega

/-- The owner of a position beyond a node is beyond the node, or a whole turn is over. -/
theorem gap_lt_owner_of_lt (ascending : Ascending ids) (mem : current ∈ ids)
    (beyond : current.gap last < current.gap start) (other : ownerOf ids start ≠ current) :
    current.gap last < current.gap (ownerOf ids start) := by
  have hnear := gap_ownerOf_le ascending mem start
  have hback := Token.gap_add_gap current start current
  have howner := Token.gap_add_gap current start (ownerOf ids start)
  have hpos := Token.gap_pos (Ne.symm other)
  have hownerR := Token.gap_lt start (ownerOf ids start)
  rw [Token.gap_self] at hback
  omega

/-! ## The last node before a key -/

/-- Of the other nodes those lie before a key that are not beyond the last node before it. -/
theorem insideOpen_key_iff (ascending : Ascending ids) (mem : current ∈ ids)
    (other : current ≠ previousOf ids (ownerOf ids key)) (hfinger : finger ∈ ids)
    (ne : finger ≠ current) : insideOpen current key finger = true ↔
      current.gap finger ≤ current.gap (previousOf ids (ownerOf ids key)) := by
  have hkey := (insideHalfOpen_previousOf_iff ascending (ownerOf_mem mem key) key).2 rfl
  have hcurrent := not_insideOpen_previousOf ascending mem (ownerOf ids key)
  have hbetween := not_insideOpen_previousOf ascending hfinger (ownerOf ids key)
  generalize previousOf ids (ownerOf ids key) = last at *
  generalize ownerOf ids key = owner at *
  rw [insideHalfOpen_iff] at hkey
  rw [insideOpen_iff] at *
  have hlo := Token.gap_cases last owner
  have hlk := Token.gap_cases last key
  have hlc := Token.gap_cases last current
  have hlf := Token.gap_cases last finger
  have hck := Token.gap_cases current key
  have hcf := Token.gap_cases current finger
  have hcl := Token.gap_cases current last
  have hcR := current.toNat_lt
  have hfR := finger.toNat_lt
  have hkR := key.toNat_lt
  have hoR := owner.toNat_lt
  have hlR := last.toNat_lt
  simp only [← Token.toNat_inj, ne_eq] at *
  omega

/-- A key lies between the last node before it and the next one, and between no other two. -/
theorem insideHalfOpen_nextOf_iff (ascending : Ascending ids) (mem : current ∈ ids) :
    insideHalfOpen current (nextOf ids current) key = true ↔
      current = previousOf ids (ownerOf ids key) := by
  have h := insideHalfOpen_previousOf_iff ascending (nextOf_mem mem current) key
  rw [previousOf_nextOf ascending mem] at h
  rw [h]
  constructor
  · intro hnext
    rw [← hnext, previousOf_nextOf ascending mem]
  · intro hlast
    rw [hlast, nextOf_previousOf ascending (ownerOf_mem mem key)]

/-! ## Exact fingers -/

/-- The highest finger before a key is the closest one. -/
theorem Node.closestPrecedingFinger_eq {node : Node} {around : Surroundings}
    (holds : node.fingers.get slot = some finger) (between : insideOpen node.id key finger = true)
    (known : around.knows finger = true)
    (above : ∀ higher other, slot < higher → node.fingers.get higher = some other →
      ¬ insideOpen node.id key other = true) :
    node.closestPrecedingFinger around key = finger := by
  simp only [closestPrecedingFinger]
  have hmem := Fingers.mem_descending.2 holds
  have haccepts : (insideOpen node.id key finger && around.knows finger) = true := by
    rw [between, known]
    rfl
  cases hfound : node.fingers.descending.find? fun entry =>
      insideOpen node.id key entry.2 && around.knows entry.2 with
  | none =>
      have hno := List.find?_eq_none.1 hfound _ hmem
      rw [haccepts] at hno
      exact absurd rfl hno
  | some entry =>
      rw [Option.map_some, Option.getD_some]
      rcases eq_or_rel_of_find? node.fingers.pairwise_descending hfound hmem haccepts with
        hsame | hhigher
      · rw [hsame]
      · have hentry := List.find?_some hfound
        rw [Bool.and_eq_true] at hentry
        exact absurd hentry.1 (above _ _ hhigher
          (Fingers.mem_descending.1 (List.mem_of_find?_eq_some hfound)))

namespace Network

variable {net after : Network} {origin : Token} {number hops bits : Nat} {handle : Handle}
  {member : Member} {node : Node} {purpose : Purpose} {stack : Stack .id}

/-- The identifiers form a ring in which every slot of every node holds the owner of the position at
which it starts. -/
structure ExactRing (net : Network) (ids : List Token) : Prop where
  ascending : Ascending ids
  serves : ∀ id ∈ ids, ∃ handle member, net.Serves id handle member ∧
    ∀ (slot : Fin keyBits) (start : Token), id.slotStart slot = .ok start →
      member.node.fingers.get slot = some (ownerOf ids start)

/-- The first slot holds the next node. -/
theorem ownerOf_first (ascending : Ascending ids) (mem : id ∈ ids)
    (starts : id.slotStart Fingers.successorSlot = .ok start) : ownerOf ids start = nextOf ids id := by
  refine eq_nextOf ascending (ownerOf_mem mem start) fun c hc hinside => ?_
  obtain ⟨hne, hnear⟩ := insideOpen_iff.1 hinside
  have hgap : id.gap start = 1 := Token.gap_slotStart starts
  have howner := gap_ownerOf_le ascending hc start
  have hpos := Token.gap_pos (Ne.symm hne)
  have hto := Token.gap_add_gap id start c
  have hfar := Token.gap_add_gap id start (ownerOf ids start)
  have hcR := Token.gap_lt id c
  have hcR' := Token.gap_lt start c
  have hfarR := Token.gap_lt start (ownerOf ids start)
  rcases hnear with hturn | hless
  · rw [← hturn] at howner hfar hfarR
    rw [Token.gap_self] at hfar
    omega
  · omega

theorem ExactRing.successorRing (ring : net.ExactRing ids) : net.SuccessorRing ids := by
  refine ⟨ring.ascending, fun id hid => ?_⟩
  obtain ⟨handle, member, hserves, hslots⟩ := ring.serves id hid
  refine ⟨handle, member, hserves, ?_, fun slot finger hget => ?_⟩
  · obtain ⟨start, hstart⟩ := id.exists_slotStart Fingers.successorSlot
    rw [← ownerOf_first ring.ascending hid hstart]
    exact hslots _ _ hstart
  · obtain ⟨start, hstart⟩ := id.exists_slotStart slot
    rw [hslots _ _ hstart, Option.some.injEq] at hget
    exact Or.inl (hget ▸ ownerOf_mem hid start)

theorem ExactRing.alike (ring : net.ExactRing ids) (alike : net.Alike after) :
    after.ExactRing ids := by
  refine ⟨ring.ascending, fun id hid => ?_⟩
  obtain ⟨handle, member, hserves, hslots⟩ := ring.serves id hid
  obtain ⟨later, hlater, hnode⟩ := hserves.alike alike
  exact ⟨handle, later, hlater, hnode ▸ hslots⟩

/-- The slot that starts last before the last node ahead of a key holds the closest finger. -/
theorem ExactRing.closest_eq (ring : net.ExactRing ids) (mem : current ∈ ids)
    (serves : net.Serves current handle member)
    (other : current ≠ previousOf ids (ownerOf ids key)) {slot : Fin keyBits}
    (starts : current.slotStart slot = .ok start)
    (low : 2 ^ slot.val ≤ current.gap (previousOf ids (ownerOf ids key)))
    (high : current.gap (previousOf ids (ownerOf ids key)) < 2 ^ (slot.val + 1)) :
    ownerOf ids start ≠ current ∧
      member.node.closestPrecedingFinger net.surroundings key = ownerOf ids start := by
  obtain ⟨twin, found, hserves, hslots⟩ := ring.serves current mem
  obtain ⟨rfl, rfl⟩ := serves.unique hserves
  have hlast := previousOf_mem (ownerOf_mem mem key) (ownerOf ids key)
  have hgap : current.gap start = 2 ^ slot.val := Token.gap_slotStart starts
  obtain ⟨hfrom, hto⟩ := gap_owner_of_le ring.ascending hlast (hgap.trans_le low)
  have hne : ownerOf ids start ≠ current := by
    rintro hself
    rw [hself, Token.gap_self, hgap] at hfrom
    exact Nat.not_lt.2 hfrom (Nat.two_pow_pos _)
  have hbefore := fun (finger : Token) (hfinger : finger ∈ ids) =>
    insideOpen_key_iff ring.ascending mem other hfinger
  refine ⟨hne, Node.closestPrecedingFinger_eq (hslots slot start starts) ?_
    (ring.successorRing.knows (ownerOf_mem mem start)) fun higher finger habove hget => ?_⟩
  · rw [serves.named]
    exact (hbefore _ (ownerOf_mem mem start) hne).2 hto
  · -- a higher slot starts beyond the last node, and its owner is there or has come round
    obtain ⟨begin, hbegin⟩ := current.exists_slotStart higher
    rw [hslots higher begin hbegin, Option.some.injEq] at hget
    rw [serves.named, ← hget]
    by_cases hself : ownerOf ids begin = current
    · rw [hself, insideOpen_iff]
      exact fun h => h.1 rfl
    · rw [hbefore _ (ownerOf_mem mem begin) hself]
      refine Nat.not_le.2 (gap_lt_owner_of_lt ring.ascending mem ?_ hself)
      rw [Token.gap_slotStart hbegin]
      exact Nat.lt_of_lt_of_le high (Nat.pow_le_pow_right (by decide) habove)

/-- The closest finger before a key covers more than half of the way to the last node before it. -/
theorem ExactRing.closest_exact (ring : net.ExactRing ids) (mem : current ∈ ids)
    (serves : net.Serves current handle member)
    (other : current ≠ previousOf ids (ownerOf ids key))
    (near : current.gap (previousOf ids (ownerOf ids key)) < 2 ^ bits) :
    ∃ fewer < bits, member.node.closestPrecedingFinger net.surroundings key ≠ current ∧
      (member.node.closestPrecedingFinger net.surroundings key).gap
        (previousOf ids (ownerOf ids key)) < 2 ^ fewer := by
  have hlast := previousOf_mem (ownerOf_mem mem key) (ownerOf ids key)
  -- the highest slot that starts before the last node holds the finger that is chosen
  have hpos := Nat.pos_iff_ne_zero.1 (Token.gap_pos other)
  have hlow := Nat.pow_log_le_self 2 hpos
  have hhigh := Nat.lt_pow_succ_log_self (by decide : 1 < 2)
    (current.gap (previousOf ids (ownerOf ids key)))
  have hbits : Nat.log 2 (current.gap (previousOf ids (ownerOf ids key))) < keyBits :=
    Nat.log_lt_of_lt_pow hpos (Token.gap_lt current _)
  let slot : Fin keyBits := ⟨_, hbits⟩
  obtain ⟨start, hstart⟩ := current.exists_slotStart slot
  have hgap : current.gap start = 2 ^ slot.val := Token.gap_slotStart hstart
  obtain ⟨hfrom, hto⟩ := gap_owner_of_le ring.ascending hlast (hgap.trans_le hlow)
  obtain ⟨hne, hclosest⟩ := ring.closest_eq mem serves other hstart hlow hhigh
  refine ⟨slot.val, ?_, by rw [hclosest]; exact hne, ?_⟩
  · exact (Nat.pow_lt_pow_iff_right (by decide)).1 (Nat.lt_of_le_of_lt hlow near)
  · have hadd := Token.gap_add_gap current (ownerOf ids start) (previousOf ids (ownerOf ids key))
    have hrestR := Token.gap_lt (ownerOf ids start) (previousOf ids (ownerOf ids key))
    have hdouble : current.gap (previousOf ids (ownerOf ids key)) < 2 ^ slot.val * 2 := hhigh
    rw [hclosest]
    omega

/-! ## The run of a lookup -/

/-- A lookup that is about to consult a node asks at most one peer for each bit of the distance from
there to the last node before the key, and one more. -/
theorem ExactRing.consults_few (ring : net.ExactRing ids)
    (stands : net.nodeAt? handle = some node) (mem : current ∈ ids)
    (between : insideOpen node.id key current = true)
    (near : current.gap (previousOf ids (ownerOf ids key)) < 2 ^ bits)
    (next : taskAfter purpose handle stack (node.consult net.surroundings key current hops).action =
      net.tasks[number]?) :
    ∃ outcome after peers, Consults number net peers after ∧ net.Alike after ∧
      after.tasks[number]? = some ⟨purpose, .id, .answer outcome, stack⟩ ∧
      peers.length ≤ bits + 1 ∧
      LookupEnds ids key node.config.maxHops (hops + bits + 1) outcome := by
  -- with every peer asked the distance loses at least one bit
  induction bits using Nat.strongRecOn generalizing net current hops with
  | ind bits ih =>
  by_cases hhops : hops < node.config.maxHops
  · obtain ⟨peer, asked, hserves, -⟩ := ring.serves current mem
    obtain ⟨after, hon, halike, ⟨-, htask⟩ | ⟨hbeyond, hnext⟩⟩ :=
      consults_once ring.successorRing stands mem hserves between hhops next
    · exact ⟨_, after, [current], hon, halike, htask, Nat.succ_le_succ (Nat.zero_le _),
        lookupEnds_owner ..⟩
    · rw [insideHalfOpen_nextOf_iff ring.ascending mem] at hbeyond
      obtain ⟨fewer, hfewer, hother, hnear⟩ := ring.closest_exact mem hserves hbeyond near
      obtain ⟨hmem, hbetween⟩ := (ring.successorRing.closest mem hserves).resolve_left hother
      rw [nextPeer, if_neg hother] at hnext
      obtain ⟨outcome, last, peers, hon', halike', htask', hfew, hends⟩ :=
        ih fewer hfewer (ring.alike halike) (by rw [halike.nodeAt?, stands]) hmem
          (insideOpen_trans between hbetween) hnear hnext
      refine ⟨outcome, last, [current] ++ peers, hon.trans hon', halike.trans halike', htask', ?_,
        hends.mono (by omega)⟩
      rw [List.length_append, List.length_singleton]
      omega
  · refine ⟨.error (.hopLimitExceeded key node.config.maxHops), net, [], .rest, Alike.refl _,
      ?_, Nat.zero_le _, Or.inr rfl, fun hneed => absurd hneed (by omega)⟩
    rw [← next, Node.consult, if_neg hhops]
    rfl

/-- However many nodes a ring with exact fingers has, a lookup from any of them asks at most one peer
for each slot, and with as many hops it names the owner of the key. -/
theorem exact_fingers_ask_few (ring : net.ExactRing ids) (mem : origin ∈ ids)
    (serves : net.Serves origin handle member)
    (begins : net.tasks[number]? =
      some ⟨purpose, .id, .start handle (.serve (.findSuccessor key)), stack⟩) :
    (∀ id ∈ ids, insideHalfOpen (previousOf ids id) id key = true ↔ id = ownerOf ids key) ∧
    ∃ outcome after peers, Consults number net peers after ∧ net.Alike after ∧
      after.tasks[number]? = some ⟨purpose, .id, .answer outcome, stack⟩ ∧
      peers.length ≤ keyBits ∧
      (keyBits ≤ member.node.config.maxHops → outcome = .ok (ownerOf ids key)) := by
  refine ⟨fun _ hid => insideHalfOpen_previousOf_iff ring.ascending hid key, ?_⟩
  have hstands := nodeAt?_of_member? serves.stands
  have hsucc := ring.successorRing.successor mem serves
  have hnamed := serves.named
  by_cases hinside : insideHalfOpen origin (nextOf ids origin) key = true
  · have howner := ownerOf_eq_of_insideHalfOpen ring.ascending (nextOf_mem mem origin)
      (fun c hc => not_insideOpen_nextOf ring.ascending hc origin) hinside
    have hturn : member.node.start net.surroundings (.serve (.findSuccessor key)) =
        member.node.reply (.ok (ownerOf ids key)) := by
      simp only [Node.start, Node.serve, Node.lookUp, hsucc, hnamed, if_pos hinside, howner]
    obtain ⟨after, hon, halike, htask⟩ := consults_start_same begins hstands rfl
      (by rw [hturn]; rfl) (by rw [hturn]; simp [Node.reply]) (by rw [hturn]; rfl)
    exact ⟨_, after, [], hon, halike, htask, Nat.zero_le _, fun _ => rfl⟩
  · have hother := hinside
    rw [insideHalfOpen_nextOf_iff ring.ascending mem] at hother
    have hfar : origin.gap (previousOf ids (ownerOf ids key)) < 2 ^ keyBits := Token.gap_lt ..
    obtain ⟨fewer, hfewer, hclosest, hnear⟩ := ring.closest_exact mem serves hother hfar
    obtain ⟨hmem, hbetween⟩ := (ring.successorRing.closest mem serves).resolve_left hclosest
    have hturn : member.node.start net.surroundings (.serve (.findSuccessor key)) =
        member.node.consult net.surroundings key
          (member.node.closestPrecedingFinger net.surroundings key) 0 := by
      simp only [Node.start, Node.serve, Node.lookUp, hsucc]
      rw [hnamed, if_neg hinside, if_neg hclosest]
    obtain ⟨task, hnext⟩ := consult_next member.node net.surroundings key
      (member.node.closestPrecedingFinger net.surroundings key) 0 purpose handle stack
    obtain ⟨after, hon, halike, htask⟩ := consults_start_same begins hstands rfl
      (by rw [hturn, consult_node]) (by rw [hturn]; exact consult_keeps _ _ _ _ _)
      (by rw [hturn]; exact hnext)
    obtain ⟨outcome, last, peers, hon', halike', htask', hfew, -, hends⟩ :=
      (ring.alike halike).consults_few (by rw [halike.nodeAt?, hstands]) hmem
        (hnamed ▸ hbetween) hnear (by rw [halike.surroundings, hnext, htask])
    exact ⟨outcome, last, peers, hon.quietly hon', halike.trans halike', htask',
      Nat.le_trans hfew hfewer, fun hhops => hends (by omega)⟩

/-- A member whose slots hold the owners of the positions at which they start. -/
def exactMember (ids : List Token) (id : Token) : Member where
  node :=
    { Node.fresh id (Store.empty none) Config.standard with
      fingers := ⟨Vector.ofFn fun slot =>
        IdCell.pack (some (ownerOf ids (id.offset (1 <<< UInt64.ofNat slot.val))))⟩ }
  link := Link.clear
  storeDelay := StoreDelay.zero
  outbox := []
  sending := false

theorem get_exactMember (ids : List Token) (id : Token) {slot : Fin keyBits}
    (starts : id.slotStart slot = .ok start) :
    (exactMember ids id).node.fingers.get slot = some (ownerOf ids start) := by
  obtain ⟨-, rfl⟩ := Token.of_slotStart_eq_ok starts
  simp [exactMember, Fingers.get]

/-- The identifiers of a ring of four. -/
def exactIds : List Token := [0, 4, 7, 100].map Token.wrapping

/-- A ring of four nodes with exact fingers, with a lookup that asks two of them. -/
def exactRing : Network :=
  { Network.empty with
    endpoints := (exactIds.map fun id => .member (exactMember exactIds id)).toArray
    directory := Std.TreeMap.ofList (exactIds.zip [0, 1, 2, 3])
    tasks := Std.TreeMap.empty.insert 0
      (taskOf (.client []) 0 (.serve (.findSuccessor (Token.wrapping 50)))) }

theorem serves_exactRing (index : Fin 4) :
    exactRing.Serves (exactIds.get index) index.val (exactMember exactIds (exactIds.get index)) := by
  refine ⟨?_, ?_, rfl, rfl⟩
  · revert index
    decide
  · match index with
    | 0 => rfl
    | 1 => rfl
    | 2 => rfl
    | 3 => rfl

theorem exactRing_exact : exactRing.ExactRing exactIds := by
  refine ⟨by decide, fun id hid => ?_⟩
  obtain ⟨index, rfl⟩ := List.get_of_mem hid
  exact ⟨index.val, _, serves_exactRing index, fun slot start => get_exactMember _ _⟩

/-- The lookup of the ring of four names the owner of its key. -/
theorem exactRing_asks_few : ∃ outcome after peers, Consults 0 exactRing peers after ∧
    after.tasks[0]? = some ⟨.client [], .id, .answer outcome, .root⟩ ∧
    peers.length ≤ keyBits ∧ outcome = .ok (Token.wrapping 100) := by
  have hbegins : exactRing.tasks[0]? = some ⟨.client [], .id,
      .start 0 (.serve (.findSuccessor (Token.wrapping 50))), .root⟩ := rfl
  obtain ⟨-, outcome, after, peers, hon, -, htask, hfew, hends⟩ :=
    exact_fingers_ask_few exactRing_exact (by decide : Token.wrapping 0 ∈ exactIds)
      (serves_exactRing 0) hbegins
  exact ⟨outcome, after, peers, hon, htask, hfew, hends (by decide)⟩

end Network

end RecordRing
