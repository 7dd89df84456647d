import Mathlib.Data.List.Count
import RecordRing.Proofs.CircularOrder
import RecordRing.Proofs.Fingers
import RecordRing.Proofs.Network.Onward

/-!
# Lookups on a ring

When the successors of some nodes form a ring, a lookup at any of them names the owner of the key,
whatever the routing slots hold: a stale finger is passed over if the directory does not know it, and
otherwise it is a node of the ring.

Every peer that a lookup asks lies strictly between the one before and the key, so it asks at most
as many peers as there are nodes besides the first (`consult_answers`).
-/

namespace RecordRing

/-! ## Fingers -/

namespace Node

variable {node : Node} {around : Surroundings} {key finger : Token}

/-- The closest preceding finger is the node itself, or a known finger before the key. -/
theorem closestPrecedingFinger_spec (node : Node) (around : Surroundings) (key : Token) :
    node.closestPrecedingFinger around key = node.id ∨
      (insideOpen node.id key (node.closestPrecedingFinger around key) = true ∧
        around.knows (node.closestPrecedingFinger around key) = true ∧
        ∃ slot, node.fingers.get slot = some (node.closestPrecedingFinger around key)) := by
  simp only [closestPrecedingFinger]
  cases h : node.fingers.descending.find? fun entry =>
      insideOpen node.id key entry.2 && around.knows entry.2 with
  | none => exact Or.inl rfl
  | some entry =>
      have haccepted := List.find?_some h
      rw [Bool.and_eq_true] at haccepted
      exact Or.inr ⟨haccepted.1, haccepted.2, entry.1,
        Fingers.mem_descending.1 (List.mem_of_find?_eq_some h)⟩

/-- A node that knows a finger before the key does not name itself. -/
theorem closestPrecedingFinger_ne {slot : Fin keyBits}
    (holds : node.fingers.get slot = some finger) (between : insideOpen node.id key finger = true)
    (known : around.knows finger = true) : node.closestPrecedingFinger around key ≠ node.id := by
  simp only [closestPrecedingFinger]
  cases h : node.fingers.descending.find? fun entry =>
      insideOpen node.id key entry.2 && around.knows entry.2 with
  | none =>
      have hno := List.find?_eq_none.1 h _ (Fingers.mem_descending.2 holds)
      simp [between, known] at hno
  | some entry =>
      have haccepted := List.find?_some h
      rw [Bool.and_eq_true, insideOpen_iff] at haccepted
      exact haccepted.1.1

end Node

/-- If a key lies beyond an arc, then the arc's end lies before the key. -/
theorem insideOpen_of_not_insideHalfOpen {start stop key : Token}
    (beyond : ¬ insideHalfOpen start stop key = true) : insideOpen start key stop = true := by
  rw [insideHalfOpen_iff, not_or] at beyond
  refine insideOpen_iff.2 ⟨fun h => beyond.1 h.symm, ?_⟩
  by_cases hkey : key = start
  · exact Or.inl hkey.symm
  · exact Or.inr (Nat.lt_of_not_le fun hle => beyond.2 ⟨hkey, hle⟩)

/-! ## Counting the identifiers before a key -/

theorem countP_lt_countP {α : Type*} {p q : α → Bool} {items : List α} {c : α}
    (weaker : ∀ x ∈ items, p x = true → q x = true) (mem : c ∈ items) (accepts : q c = true)
    (rejects : ¬ p c = true) : items.countP p < items.countP q := by
  induction items with
  | nil => simp at mem
  | cons head rest ih =>
      have hrest : ∀ x ∈ rest, p x = true → q x = true :=
        fun x hx => weaker x (List.mem_cons_of_mem _ hx)
      rw [List.countP_cons, List.countP_cons]
      rcases List.mem_cons.1 mem with rfl | hmem
      · have hle := List.countP_mono_left hrest
        simp only [accepts, rejects, if_true]
        simp only [Bool.false_eq_true, if_false]
        omega
      · have hlt := ih hrest hmem
        have hhead := weaker head (List.mem_cons_self ..)
        split
        · rename_i hp
          simp only [hhead hp, if_true]
          omega
        · omega

/-- An arc from a position inside an arc to the end of this arc is part of it. -/
theorem insideOpen_trans {a c x key : Token} (outer : insideOpen a key c = true)
    (inner : insideOpen c key x = true) : insideOpen a key x = true := by
  rw [insideOpen_iff] at *
  have hac := Token.gap_cases a c
  have hak := Token.gap_cases a key
  have hax := Token.gap_cases a x
  have hcx := Token.gap_cases c x
  have hck := Token.gap_cases c key
  have haR := a.toNat_lt
  have hcR := c.toNat_lt
  have hxR := x.toNat_lt
  have hkR := key.toNat_lt
  simp only [← Token.toNat_inj, ne_eq] at *
  omega

/-- An arc from the start of an arc to a position inside it is part of it. -/
theorem insideOpen_trans_end {a c x key : Token} (outer : insideOpen a key c = true)
    (inner : insideOpen a c x = true) : insideOpen a key x = true := by
  obtain ⟨hne, hfar⟩ := insideOpen_iff.1 outer
  obtain ⟨hne', hnear⟩ := insideOpen_iff.1 inner
  have hless := hnear.resolve_left (Ne.symm hne)
  exact insideOpen_iff.2 ⟨hne', hfar.imp_right (Nat.lt_trans hless)⟩

/-- A position on an arc leaves fewer identifiers between itself and the end. -/
theorem countP_insideOpen_lt {ids : List Token} {a c key : Token} (mem : c ∈ ids)
    (between : insideOpen a key c = true) :
    ids.countP (insideOpen c key) < ids.countP (insideOpen a key) := by
  refine countP_lt_countP (fun x _ hx => insideOpen_trans between hx) mem between ?_
  rw [insideOpen_iff]
  exact fun h => h.1 rfl

/-- A position on an arc leaves fewer identifiers between the start and itself. -/
theorem countP_insideOpen_end_lt {ids : List Token} {a c key : Token} (mem : c ∈ ids)
    (between : insideOpen a key c = true) :
    ids.countP (insideOpen a c) < ids.countP (insideOpen a key) := by
  refine countP_lt_countP (fun x _ hx => insideOpen_trans_end between hx) mem between ?_
  rw [insideOpen_iff]
  rintro ⟨hne, hself | hless⟩
  · exact hne hself.symm
  · exact Nat.lt_irrefl _ hless

theorem countP_insideOpen_lt_length {ids : List Token} {a : Token} (mem : a ∈ ids) (key : Token) :
    ids.countP (insideOpen a key) < ids.length := by
  rw [List.countP_lt_length_iff]
  refine ⟨a, mem, ?_⟩
  rw [Bool.eq_false_iff, ne_eq, insideOpen_iff]
  exact fun h => h.1 rfl

namespace Network

/-- The directory leads from an identifier to a member of this identifier, over a link that fails no
call. -/
structure Serves (net : Network) (id : Token) (handle : Handle) (member : Member) : Prop where
  listed : net.directory[id]? = some handle
  stands : net.member? handle = some member
  named : member.node.id = id
  clear : member.link.faults = []

/-- The identifiers form a ring: every one of them leads to a node whose successor is the next one.
The routing slots are arbitrary, except that an identifier outside the ring leads nowhere. -/
structure SuccessorRing (net : Network) (ids : List Token) : Prop where
  ascending : Ascending ids
  serves : ∀ id ∈ ids, ∃ handle member, net.Serves id handle member ∧
    member.node.successor = some (nextOf ids id) ∧
    ∀ slot finger, member.node.fingers.get slot = some finger →
      finger ∈ ids ∨ net.directory[finger]? = none

theorem Serves.passes {net : Network} {id : Token} {handle : Handle} {member : Member}
    (h : net.Serves id handle member) (method : Method) : member.link.fails method = false := by
  rw [Link.fails, h.clear]
  rfl

variable {net after : Network} {ids : List Token} {id key current origin : Token} {number hops : Nat}
  {handle : Handle} {member : Member} {node : Node} {purpose : Purpose} {stack : Stack .id}

theorem Serves.alike (h : net.Serves id handle member) (alike : net.Alike after) :
    ∃ later, after.Serves id handle later ∧ later.node = member.node := by
  have hm := alike.members handle
  rw [h.stands, Option.map_some] at hm
  obtain ⟨later, hlater, hface⟩ := Option.map_eq_some_iff.1 hm
  simp only [Member.face, Prod.mk.injEq] at hface
  exact ⟨later, ⟨by rw [alike.directory, h.listed], hlater, by rw [hface.1, h.named],
    by rw [hface.2.1, h.clear]⟩, hface.1⟩

theorem SuccessorRing.alike (ring : net.SuccessorRing ids) (alike : net.Alike after) :
    after.SuccessorRing ids := by
  refine ⟨ring.ascending, fun id hid => ?_⟩
  obtain ⟨handle, member, hserves, hsucc, hslots⟩ := ring.serves id hid
  obtain ⟨later, hlater, hnode⟩ := hserves.alike alike
  refine ⟨handle, later, hlater, by rw [hnode, hsucc], fun slot finger hget => ?_⟩
  rw [hnode] at hget
  rw [alike.directory]
  exact hslots slot finger hget

theorem Serves.akin (h : net.Serves id handle member) (akin : net.Akin after) :
    ∃ later, after.Serves id handle later ∧ later.node.bare = member.node.bare := by
  have hm := akin.members handle
  rw [h.stands, Option.map_some] at hm
  obtain ⟨later, hlater, hcore⟩ := Option.map_eq_some_iff.1 hm
  obtain ⟨hbare, hfaults⟩ := Prod.mk.inj hcore
  have hid : later.node.bare.id = member.node.bare.id := congrArg Node.id hbare
  exact ⟨later, ⟨by rw [akin.directory, h.listed], hlater, hid.trans h.named,
    hfaults.trans h.clear⟩, hbare⟩

/-- A ring is a ring whatever records and locks its nodes have. -/
theorem SuccessorRing.akin (ring : net.SuccessorRing ids) (akin : net.Akin after) :
    after.SuccessorRing ids := by
  refine ⟨ring.ascending, fun id hid => ?_⟩
  obtain ⟨handle, member, hserves, hsucc, hslots⟩ := ring.serves id hid
  obtain ⟨later, hlater, hbare⟩ := hserves.akin akin
  have hfingers : later.node.bare.fingers = member.node.bare.fingers :=
    congrArg Node.fingers hbare
  refine ⟨handle, later, hlater, (congrArg Fingers.successor hfingers).trans hsucc,
    fun slot finger hget => ?_⟩
  rw [akin.directory]
  exact hslots slot finger ((congrArg (fun table => table.get slot) hfingers).symm.trans hget)

theorem knows_surroundings (net : Network) (id : Token) :
    net.surroundings.knows id = net.directory[id]?.isSome := rfl

theorem Serves.unique {other : Handle} {found : Member} (h : net.Serves id handle member)
    (h' : net.Serves id other found) : handle = other ∧ member = found := by
  have hhandle : handle = other := Option.some.inj (h.listed.symm.trans h'.listed)
  subst hhandle
  exact ⟨rfl, Option.some.inj (h.stands.symm.trans h'.stands)⟩

theorem SuccessorRing.knows (ring : net.SuccessorRing ids) (mem : id ∈ ids) :
    net.surroundings.knows id = true := by
  obtain ⟨handle, member, hserves, -, -⟩ := ring.serves id mem
  rw [knows_surroundings, hserves.listed, Option.isSome_some]

theorem SuccessorRing.successor (ring : net.SuccessorRing ids) (mem : id ∈ ids)
    (serves : net.Serves id handle member) :
    member.node.successor = some (nextOf ids id) := by
  obtain ⟨other, found, hserves, hsucc, -⟩ := ring.serves id mem
  rw [(serves.unique hserves).2, hsucc]

/-- What a node of the ring names as closest to a key is a node of the ring before the key, or the
node itself. -/
theorem SuccessorRing.closest (ring : net.SuccessorRing ids) (mem : id ∈ ids)
    (serves : net.Serves id handle member) :
    member.node.closestPrecedingFinger net.surroundings key = id ∨
      (member.node.closestPrecedingFinger net.surroundings key ∈ ids ∧
        insideOpen id key (member.node.closestPrecedingFinger net.surroundings key) = true) := by
  obtain ⟨other, found, hserves, -, hslots⟩ := ring.serves id mem
  obtain ⟨rfl, rfl⟩ := serves.unique hserves
  rcases member.node.closestPrecedingFinger_spec net.surroundings key with
    hself | ⟨hbetween, hknown, slot, hget⟩
  · exact Or.inl (hself.trans serves.named)
  · rcases hslots slot _ hget with hmem | hlost
    · exact Or.inr ⟨hmem, serves.named ▸ hbetween⟩
    · rw [knows_surroundings, hlost] at hknown
      cases hknown

/-! ## The run of a lookup -/

/-- What a lookup may end with: the owner of the key, or the hop limit, and the latter only if fewer
peers may be asked than `need`. -/
def LookupEnds (ids : List Token) (key : Token) (maxHops need : Nat) (outcome : Outcome .id) :
    Prop :=
  (outcome = .ok (ownerOf ids key) ∨ outcome = .error (.hopLimitExceeded key maxHops)) ∧
    (need ≤ maxHops → outcome = .ok (ownerOf ids key))

theorem lookupEnds_owner (ids : List Token) (key : Token) (maxHops need : Nat) :
    LookupEnds ids key maxHops need (.ok (ownerOf ids key)) :=
  ⟨Or.inl rfl, fun _ => rfl⟩

theorem LookupEnds.mono {maxHops need more : Nat} {outcome : Outcome .id}
    (h : LookupEnds ids key maxHops need outcome) (le : need ≤ more) :
    LookupEnds ids key maxHops more outcome :=
  ⟨h.1, fun hmore => h.2 (Nat.le_trans le hmore)⟩

theorem consult_node (node : Node) (around : Surroundings) (key current : Token) (hops : Nat) :
    (node.consult around key current hops).node = node := by
  rw [Node.consult]
  split
  · split <;> rfl
  · rfl

theorem consult_keeps (node : Node) (around : Surroundings) (key current : Token) (hops : Nat) :
    ∀ effect ∈ (node.consult around key current hops).effects, ∀ id, effect ≠ .release id := by
  rw [Node.consult]
  split
  · split
    · simp [Node.fail, Node.reply]
    · simp [Node.ask]
  · simp

theorem consult_next (node : Node) (around : Surroundings) (key current : Token) (hops : Nat)
    (purpose : Purpose) (handle : Handle) (stack : Stack .id) : ∃ task,
      taskAfter purpose handle stack (node.consult around key current hops).action = some task := by
  rw [Node.consult]
  split
  · split
    · exact ⟨_, rfl⟩
    · rename_i peer _
      cases peer <;> exact ⟨_, rfl⟩
  · exact ⟨_, rfl⟩

/-- The peer that a lookup asks after `current`, whose node is `asked`: the closest one that it names,
or its successor if it names itself. -/
def nextPeer (net : Network) (ids : List Token) (key current : Token) (asked : Node) : Token :=
  if asked.closestPrecedingFinger net.surroundings key = current then nextOf ids current
  else asked.closestPrecedingFinger net.surroundings key

/-- A lookup asks a node of the ring before the key for its successor, and learns the owner of the key
or goes on to the peer that this node names. -/
theorem consults_once {peer : Handle} {asked : Member} (ring : net.SuccessorRing ids)
    (stands : net.nodeAt? handle = some node) (mem : current ∈ ids)
    (serves : net.Serves current peer asked) (between : insideOpen node.id key current = true)
    (hhops : hops < node.config.maxHops)
    (next : taskAfter purpose handle stack (node.consult net.surroundings key current hops).action =
      net.tasks[number]?) :
    ∃ after, Consults number net [current] after ∧ net.Alike after ∧
      (insideHalfOpen current (nextOf ids current) key = true ∧
          after.tasks[number]? = some ⟨purpose, .id, .answer (.ok (ownerOf ids key)), stack⟩ ∨
        ¬ insideHalfOpen current (nextOf ids current) key = true ∧
          taskAfter purpose handle stack (node.consult after.surroundings key
            (net.nextPeer ids key current asked.node) (hops + 1)).action =
              after.tasks[number]?) := by
  have hsucc := ring.successor mem serves
  have hne : current ≠ node.id := (insideOpen_iff.1 between).1
  have hresolve : node.resolve net.surroundings current = some (.remote peer) := by
    rw [Node.resolve, if_neg hne]
    exact congrArg (Option.map Contact.remote) serves.listed
  have hsent : net.tasks[number]? = some ⟨purpose, .knownId, .send peer .successor,
      .frame handle (.successorAsked key current (.remote peer) (hops + 1)) stack⟩ := by
    rw [← next, Node.consult, if_pos hhops, hresolve]
    rfl
  have hanswer : asked.node.serve net.surroundings .successor =
      asked.node.reply (.ok (some (nextOf ids current))) := by
    rw [Node.serve, hsucc]
  obtain ⟨told, hon, halike, htask⟩ :=
    consults_query hsent serves.stands (serves.passes _) hanswer
  have hnode : told.nodeAt? handle = some node := by rw [halike.nodeAt?, stands]
  have hlearns : told.consulted? number = some current := by simp only [consulted?, htask]
  by_cases hinside : insideHalfOpen current (nextOf ids current) key = true
  · -- the key lies between the peer and its successor
    have howner := ownerOf_eq_of_insideHalfOpen ring.ascending (nextOf_mem mem current)
      (fun c hc => not_insideOpen_nextOf ring.ascending hc current) hinside
    have hturn : node.resume told.surroundings
        (.successorAsked key current (.remote peer) (hops + 1))
        (.ok (some (nextOf ids current))) = node.reply (.ok (ownerOf ids key)) := by
      rw [howner, Node.resume, Node.onSuccessor, if_pos hinside]
    obtain ⟨after, hon', halike', htask'⟩ := consults_resume_same htask hnode rfl
      (by rw [hturn]; rfl) (by rw [hturn]; simp [Node.reply]) (by rw [hturn]; rfl)
    rw [hlearns] at hon'
    exact ⟨after, hon.quietly hon', halike.trans halike', Or.inl ⟨hinside, htask'⟩⟩
  · -- the peer names a closer one, or hands the lookup to its successor
    have hturn : node.resume told.surroundings
        (.successorAsked key current (.remote peer) (hops + 1))
        (.ok (some (nextOf ids current))) =
        node.ask (.remote peer) (.closestPrecedingFinger key)
          (.fingerAsked key current (nextOf ids current) (hops + 1)) := by
      rw [Node.resume, Node.onSuccessor, if_neg hinside]
    obtain ⟨asking, hon₂, halike₂, htask₂⟩ := consults_resume_same htask hnode rfl
      (by rw [hturn]; rfl) (by rw [hturn]; simp [Node.ask]) (by rw [hturn]; rfl)
    rw [hlearns] at hon₂
    have hasking : net.Alike asking := halike.trans halike₂
    obtain ⟨later, hlater, hsame⟩ := serves.alike hasking
    have hanswer₂ : later.node.serve asking.surroundings (.closestPrecedingFinger key) =
        later.node.reply (.ok (asked.node.closestPrecedingFinger net.surroundings key)) := by
      rw [Node.serve, hsame, hasking.surroundings]
    obtain ⟨named, hon₃, halike₃, htask₃⟩ :=
      consults_query htask₂ hlater.stands (hlater.passes _) hanswer₂
    have hnamed : net.Alike named := hasking.trans halike₃
    have hnode₃ : named.nodeAt? handle = some node := by rw [hnamed.nodeAt?, stands]
    have hturn₃ : node.resume named.surroundings
        (.fingerAsked key current (nextOf ids current) (hops + 1))
        (.ok (asked.node.closestPrecedingFinger net.surroundings key)) =
        node.consult named.surroundings key (net.nextPeer ids key current asked.node)
          (hops + 1) := rfl
    obtain ⟨task, hnext⟩ := consult_next node named.surroundings key
      (net.nextPeer ids key current asked.node) (hops + 1) purpose handle stack
    obtain ⟨after, hon₄, halike₄, htask₄⟩ := consults_resume_same htask₃ hnode₃ rfl
      (by rw [hturn₃, consult_node]) (by rw [hturn₃]; exact consult_keeps _ _ _ _ _)
      (by rw [hturn₃]; exact hnext)
    have hquiet : named.consulted? number = none := by simp only [consulted?, htask₃]
    rw [hquiet] at hon₄
    have hafter : net.Alike after := hnamed.trans halike₄
    refine ⟨after, hon.quietly (hon₂.trans (hon₃.quietly hon₄)), hafter, Or.inr ⟨hinside, ?_⟩⟩
    rw [hafter.surroundings, ← hnamed.surroundings, hnext, htask₄]

/-- The peer that a lookup asks next is a node of the ring nearer to the key. -/
theorem nextPeer_between {peer : Handle} {asked : Member} (ring : net.SuccessorRing ids)
    (mem : current ∈ ids) (serves : net.Serves current peer asked)
    (beyond : ¬ insideHalfOpen current (nextOf ids current) key = true) :
    net.nextPeer ids key current asked.node ∈ ids ∧
      insideOpen current key (net.nextPeer ids key current asked.node) = true := by
  rw [nextPeer]
  split
  · exact ⟨nextOf_mem mem current, insideOpen_of_not_insideHalfOpen beyond⟩
  · rename_i hself
    exact (ring.closest mem serves).resolve_left hself

/-- A lookup asks a node of the ring before the key for its successor, and the answer is the owner of
the key or leads to another node of the ring before the key. -/
theorem consult_once (ring : net.SuccessorRing ids) (stands : net.nodeAt? handle = some node)
    (mem : current ∈ ids) (between : insideOpen node.id key current = true)
    (hhops : hops < node.config.maxHops)
    (next : taskAfter purpose handle stack (node.consult net.surroundings key current hops).action =
      net.tasks[number]?) :
    ∃ after, Onward number net after ∧ net.Alike after ∧
      (after.tasks[number]? = some ⟨purpose, .id, .answer (.ok (ownerOf ids key)), stack⟩ ∨
        ∃ nearer ∈ ids, insideOpen current key nearer = true ∧
          taskAfter purpose handle stack
            (node.consult after.surroundings key nearer (hops + 1)).action =
              after.tasks[number]?) := by
  obtain ⟨peer, asked, hserves, -, -⟩ := ring.serves current mem
  obtain ⟨after, hon, halike, ⟨-, htask⟩ | ⟨hbeyond, htask⟩⟩ :=
    consults_once ring stands mem hserves between hhops next
  · exact ⟨after, hon.onward, halike, Or.inl htask⟩
  · obtain ⟨hmem, hnearer⟩ := nextPeer_between ring mem hserves hbeyond
    exact ⟨after, hon.onward, halike, Or.inr ⟨_, hmem, hnearer, htask⟩⟩

/-- A lookup that is about to consult a node of the ring before the key ends well.  It asks this
node, and at most one more peer for each node of the ring between it and the key. -/
theorem consult_answers (ring : net.SuccessorRing ids) (stands : net.nodeAt? handle = some node)
    (mem : current ∈ ids) (between : insideOpen node.id key current = true)
    (next : taskAfter purpose handle stack (node.consult net.surroundings key current hops).action =
      net.tasks[number]?) :
    ∃ outcome after, Onward number net after ∧ net.Alike after ∧
      after.tasks[number]? = some ⟨purpose, .id, .answer outcome, stack⟩ ∧
      LookupEnds ids key node.config.maxHops
        (hops + 1 + ids.countP (insideOpen current key)) outcome := by
  -- each peer asked lies nearer to the key, so fewer nodes of the ring are left before it
  induction hcount : ids.countP (insideOpen current key) using Nat.strongRecOn
    generalizing net current hops with
  | ind left ih =>
  subst hcount
  by_cases hhops : hops < node.config.maxHops
  · obtain ⟨after, hon, halike, htask | ⟨nearer, hmem, hnearer, hnext⟩⟩ :=
      consult_once ring stands mem between hhops next
    · exact ⟨_, after, hon, halike, htask, lookupEnds_owner ..⟩
    · have hless := countP_insideOpen_lt hmem hnearer
      obtain ⟨outcome, last, hon', halike', htask', hends⟩ := ih _ hless (ring.alike halike)
        (by rw [halike.nodeAt?, stands]) hmem (insideOpen_trans between hnearer) hnext rfl
      exact ⟨outcome, last, onward_trans hon hon', halike.trans halike', htask',
        hends.mono (by omega)⟩
  · refine ⟨.error (.hopLimitExceeded key node.config.maxHops), net, onward_refl _ _, Alike.refl _,
      ?_, Or.inr rfl, fun hneed => absurd hneed (by omega)⟩
    rw [← next, Node.consult, if_neg hhops]
    rfl

/-- A lookup at a node of the ring ends with the owner of the key or at the hop limit, and it asks
at most one peer for each other node of the ring. -/
theorem lookUp_answers (ring : net.SuccessorRing ids) (mem : origin ∈ ids)
    (serves : net.Serves origin handle member)
    (begins : net.tasks[number]? =
      some ⟨purpose, .id, .start handle (.serve (.findSuccessor key)), stack⟩) :
    ∃ outcome after, Onward number net after ∧ net.Alike after ∧
      after.tasks[number]? = some ⟨purpose, .id, .answer outcome, stack⟩ ∧
      LookupEnds ids key member.node.config.maxHops (ids.length - 1) outcome := by
  have hstands := nodeAt?_of_member? serves.stands
  have hsucc := ring.successor mem serves
  have hnamed := serves.named
  by_cases hinside : insideHalfOpen origin (nextOf ids origin) key = true
  · have howner := ownerOf_eq_of_insideHalfOpen ring.ascending (nextOf_mem mem origin)
      (fun c hc => not_insideOpen_nextOf ring.ascending hc origin) hinside
    have hturn : member.node.start net.surroundings (.serve (.findSuccessor key)) =
        member.node.reply (.ok (ownerOf ids key)) := by
      simp only [Node.start, Node.serve, Node.lookUp, hsucc, hnamed, if_pos hinside, howner]
    obtain ⟨after, hon, halike, htask⟩ := onward_start_same begins hstands rfl (by rw [hturn]; rfl)
      (by rw [hturn]; simp [Node.reply]) (by rw [hturn]; rfl)
    exact ⟨_, after, hon, halike, htask, lookupEnds_owner ..⟩
  · let closest := member.node.closestPrecedingFinger net.surroundings key
    have hbeyond := insideOpen_of_not_insideHalfOpen hinside
    have hclosest : closest ≠ member.node.id :=
      Node.closestPrecedingFinger_ne hsucc (hnamed ▸ hbeyond) (ring.knows (nextOf_mem mem origin))
    have hturn : member.node.start net.surroundings (.serve (.findSuccessor key)) =
        member.node.consult net.surroundings key closest 0 := by
      simp only [Node.start, Node.serve, Node.lookUp, hsucc]
      rw [hnamed, if_neg hinside, if_neg (hnamed ▸ hclosest)]
    obtain ⟨task, hnext⟩ := consult_next member.node net.surroundings key closest 0 purpose handle
      stack
    obtain ⟨after, hon, halike, htask⟩ := onward_start_same begins hstands rfl
      (by rw [hturn, consult_node]) (by rw [hturn]; exact consult_keeps _ _ _ _ _)
      (by rw [hturn]; exact hnext)
    obtain ⟨hmem, hbetween⟩ := (ring.closest mem serves).resolve_left (hnamed ▸ hclosest)
    obtain ⟨outcome, last, hon', halike', htask', hends⟩ := consult_answers (ring.alike halike)
      (by rw [halike.nodeAt?, hstands]) hmem (hnamed ▸ hbetween)
      (by rw [halike.surroundings, hnext, htask])
    have hless := countP_insideOpen_lt hmem hbetween
    have hall := countP_insideOpen_lt_length mem key
    exact ⟨outcome, last, onward_trans hon hon', halike.trans halike', htask',
      hends.mono (by omega)⟩

/-- Whatever the routing slots of a ring hold, a lookup from any of its nodes names the one node
between whose predecessor and itself the key lies, or gives up at the hop limit; with as many hops
as there are other nodes it does not give up. -/
theorem findSuccessor_names_owner (ring : net.SuccessorRing ids) (mem : origin ∈ ids)
    (serves : net.Serves origin handle member)
    (begins : net.tasks[number]? =
      some ⟨purpose, .id, .start handle (.serve (.findSuccessor key)), stack⟩) :
    (∀ id ∈ ids, insideHalfOpen (previousOf ids id) id key = true ↔ id = ownerOf ids key) ∧
    ownerOf ids key ∈ ids ∧
    ∃ outcome after, Onward number net after ∧ net.Alike after ∧
      after.tasks[number]? = some ⟨purpose, .id, .answer outcome, stack⟩ ∧
      (outcome = .ok (ownerOf ids key) ∨
        outcome = .error (.hopLimitExceeded key member.node.config.maxHops)) ∧
      (ids.length - 1 ≤ member.node.config.maxHops → outcome = .ok (ownerOf ids key)) :=
  ⟨fun _ hid => insideHalfOpen_previousOf_iff ring.ascending hid key, ownerOf_mem mem key,
    lookUp_answers ring mem serves begins⟩

/-- A ring of three nodes, one of which has a stale finger, with a lookup at it that goes all the
way round to the node itself. -/
def staleRing : Network :=
  let node (id next stale : UInt64) : Node :=
    { Node.fresh (Token.wrapping id) (Store.empty none) { Config.standard with maxHops := 2 } with
      fingers := (Fingers.empty.set Fingers.successorSlot (some (Token.wrapping next))).set
        (Fin.last 62) (some (Token.wrapping stale)) }
  let member (id next stale : UInt64) : Endpoint :=
    .member ⟨node id next stale, Link.clear, StoreDelay.zero, [], false⟩
  { Network.empty with
    endpoints := #[member 10 20 99, member 20 40 20, member 40 10 20]
    directory := ((Std.TreeMap.empty.insert (Token.wrapping 10) 0).insert (Token.wrapping 20)
      1).insert (Token.wrapping 40) 2
    tasks := Std.TreeMap.empty.insert 0
      (taskOf (.client []) 0 (.serve (.findSuccessor (Token.wrapping 10)))) }

/-- The identifiers of the ring of three. -/
def staleIds : List Token := [10, 20, 40].map Token.wrapping

theorem serves_staleRing (index : Fin 3) : ∃ member,
    staleRing.Serves (staleIds.get index) index.val member ∧
      member.node.successor = some (nextOf staleIds (staleIds.get index)) ∧
      ∀ slot finger, member.node.fingers.get slot = some finger →
        finger ∈ staleIds ∨ staleRing.directory[finger]? = none := by
  have hfound : ∃ member, staleRing.member? index.val = some member ∧
      member.node.id = staleIds.get index ∧ member.link.faults = [] ∧
      member.node.successor = some (nextOf staleIds (staleIds.get index)) := by
    match index with
    | 0 => exact ⟨_, rfl, rfl, rfl, rfl⟩
    | 1 => exact ⟨_, rfl, rfl, rfl, rfl⟩
    | 2 => exact ⟨_, rfl, rfl, rfl, rfl⟩
  have hlisted : staleRing.directory[staleIds.get index]? = some index.val := by
    revert index
    decide
  have hslots : ∀ member ∈ staleRing.member? index.val, ∀ slot : Fin keyBits,
      (member.node.fingers.get slot).all (fun finger =>
        decide (finger ∈ staleIds) || (staleRing.directory[finger]?).isNone) = true := by
    revert index
    decide
  obtain ⟨member, hmember, hid, hclear, hsucc⟩ := hfound
  refine ⟨member, ⟨hlisted, hmember, hid, hclear⟩, hsucc, fun slot finger hget => ?_⟩
  have hslot := hslots member hmember slot
  rw [hget, Option.all_some, Bool.or_eq_true, decide_eq_true_eq, Option.isNone_iff_eq_none] at hslot
  exact hslot

theorem successorRing_staleRing : staleRing.SuccessorRing staleIds := by
  refine ⟨by decide, fun id hid => ?_⟩
  obtain ⟨index, rfl⟩ := List.get_of_mem hid
  obtain ⟨member, hmember⟩ := serves_staleRing index
  exact ⟨index.val, member, hmember⟩

/-- The lookup that goes all the way round is answered within its two hops. -/
theorem staleRing_names_owner : ∃ outcome after, Onward 0 staleRing after ∧
    after.tasks[0]? = some ⟨.client [], .id, .answer outcome, .root⟩ ∧
    outcome = .ok (Token.wrapping 10) := by
  obtain ⟨member, hserves, -, -⟩ := serves_staleRing 0
  have hhops : ∀ member ∈ staleRing.member? 0, member.node.config.maxHops = 2 := by decide
  have hmem : Token.wrapping 10 ∈ staleIds := by decide
  have hbegins : staleRing.tasks[0]? = some ⟨.client [], .id,
      .start 0 (.serve (.findSuccessor (Token.wrapping 10))), .root⟩ := rfl
  obtain ⟨-, -, outcome, after, hon, -, htask, -, hends⟩ :=
    findSuccessor_names_owner successorRing_staleRing hmem hserves hbegins
  exact ⟨outcome, after, hon, htask, hends (by rw [hhops member hserves.stands]; decide)⟩

end Network

end RecordRing
