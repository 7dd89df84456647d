import RecordRing.Proofs.ExactRouting
import RecordRing.Proofs.Ring.Charting

/-!
# Finger repair without a wait

Finger repair leaves everything as it is but the routing slots and the cursor of the node (`Tunes`).
It ends like its lookups: if one of them fails, the repair fails with it, and otherwise it ends
well. What the lookups come to is left open here, because fingers are also repaired while the
successors do not form a ring.
-/

namespace RecordRing

namespace Node

variable {config : Config} {node : Node} {members : List Token} {owner : Token}
  {index : Fin keyBits} {cursor : Nat}

/-- The node with other routing slots and another cursor. -/
def tuned (node : Node) (fingers : Fingers) (cursor : Nat) : Node :=
  { node with fingers := fingers, cursor := cursor }

theorem nextSlot_first (slot : Nat) : 1 ≤ nextSlot slot := by
  rw [nextSlot]
  split <;> omega

theorem nextSlot_last (slot : Nat) : nextSlot slot < keyBits := by
  rw [nextSlot]
  split
  · assumption
  · decide

/-- The node that starts to refresh a slot. -/
theorem Regular.moved (regular : node.Regular config members) :
    (node.tuned node.fingers (nextSlot node.cursor)).Regular config members :=
  { regular with first := nextSlot_first _, last := nextSlot_last _ }

/-- The node that has refreshed a slot. -/
theorem Regular.refreshed (regular : node.Regular config members) (mem : owner ∈ members) :
    (node.tuned (node.fingers.compareAndSet index (node.fingers.get index) (some owner)).2
      node.cursor).Regular config members :=
  { regular with
    fingers := fun slot finger hfinger => by
      rcases Fingers.get_compareAndSet_cases node.fingers index slot (node.fingers.get index)
        (some owner) with hsame | ⟨-, hnew⟩
      · exact regular.fingers slot finger (hsame ▸ hfinger)
      · rwa [← Option.some.inj (hnew.symm.trans hfinger)] }

end Node

namespace Network

variable {net after last : Network} {config : Config} {members : List Token} {chart : Chart}
  {id : Token} {number : Nat} {handle : Handle} {node : Node}
  {answers : Token → Outcome .id → Prop}

/-- Only routing slots and the cursor of a node have changed. -/
def Tunes (net : Network) (id : Token) (after : Network) : Prop :=
  ∃ handle node fingers cursor, net.Houses id handle node ∧
    fingers.successor = node.fingers.successor ∧
    (net.setNode handle (node.tuned fingers cursor)).Same after

theorem Tunes.directory (tunes : net.Tunes id after) : after.directory = net.directory := by
  obtain ⟨handle, node, fingers, cursor, houses, -, same⟩ := tunes
  rw [same.directory, directory_setNode]

/-- Nothing has changed. -/
theorem Same.tunes (same : net.Same after) (houses : net.Houses id handle node) :
    net.Tunes id after := by
  refine ⟨handle, node, node.fingers, node.cursor, houses, rfl, ?_⟩
  rwa [show node.tuned node.fingers node.cursor = node from rfl, setNode_self houses.stands]

theorem Tunes.trans (tunes : net.Tunes id after) (more : after.Tunes id last) :
    net.Tunes id last := by
  obtain ⟨handle, node, fingers, cursor, houses, hsucc, same⟩ := tunes
  obtain ⟨peer, found, fingers', cursor', houses', hsucc', same'⟩ := more
  have hstands := same.keeps.houses (houses.setNode (node.tuned fingers cursor))
  obtain rfl : handle = peer := Option.some.inj (hstands.listed.symm.trans houses'.listed)
  obtain rfl : node.tuned fingers cursor = found :=
    Option.some.inj (hstands.stands.symm.trans houses'.stands)
  refine ⟨handle, node, fingers', cursor', houses, hsucc'.trans hsucc, ?_⟩
  have hset := same.setNode handle ((node.tuned fingers cursor).tuned fingers' cursor')
  rw [setNode_setNode] at hset
  exact hset.trans same'

theorem Tunes.resident? (tunes : net.Tunes id after) (populated : net.Populated config members)
    (other : Token) : ∃ node fingers cursor, net.resident? id = some node ∧
      fingers.successor = node.fingers.successor ∧ after.resident? other =
        if other = id then some (node.tuned fingers cursor) else net.resident? other := by
  obtain ⟨handle, node, fingers, cursor, houses, hsucc, same⟩ := tunes
  refine ⟨node, fingers, cursor, houses.resident?, hsucc, ?_⟩
  rw [same.keeps.resident?, populated.resident?_setNode houses]

/-- Finger repair does not change the chart. -/
theorem Follows.tunes (follows : net.Follows members chart)
    (populated : net.Populated config members) (tunes : net.Tunes id after) :
    after.Follows members chart := by
  intro other hother
  obtain ⟨node, fingers, cursor, hnode, hsucc, hresident⟩ := tunes.resident? populated other
  obtain ⟨found, hfound, hpoints⟩ := follows other hother
  rw [hresident]
  split
  · rename_i heq
    cases heq
    obtain rfl : found = node := Option.some.inj (hfound.symm.trans hnode)
    exact ⟨_, rfl, hsucc.trans hpoints.1, hpoints.2⟩
  · exact ⟨found, hfound, hpoints⟩

/-- The slots of a node hold what they held, or what its lookups have named. -/
def Learns (net : Network) (id : Token) (answers : Token → Outcome .id → Prop)
    (after : Network) : Prop :=
  ∀ later, after.resident? id = some later → ∃ node, net.resident? id = some node ∧
    ∀ slot finger, later.fingers.get slot = some finger →
      node.fingers.get slot = some finger ∨ ∃ key, answers key (.ok finger)

theorem Learns.trans (learns : net.Learns id answers after) (more : after.Learns id answers last) :
    net.Learns id answers last := by
  intro later hlater
  obtain ⟨mid, hmid, hlearns⟩ := more later hlater
  obtain ⟨node, hnode, hlearnt⟩ := learns mid hmid
  refine ⟨node, hnode, fun slot finger h => ?_⟩
  exact (hlearns slot finger h).elim (hlearnt slot finger) Or.inr

/-- What finger repair at a node comes to, by what its lookups come to. -/
def TunesWell (net : Network) (config : Config) (members : List Token) (id : Token)
    (answers : Token → Outcome .id → Prop) (outcome : Outcome .nothing) (after : Network) : Prop :=
  after.Populated config members ∧ net.Tunes id after ∧ net.Learns id answers after ∧
    (outcome = .ok () ∨ ∃ key failure, answers key (.error failure) ∧ outcome = .error failure)

/-- A refresh of one slot ends like the lookup of its start. -/
theorem fixFingers_achieves (populated : net.Populated config members)
    (houses : net.Houses id handle node)
    (inside : ∀ key next, answers key (.ok next) → next ∈ members)
    (looks : ∀ {start node} key, start.Populated config members → net.Tunes id start →
      net.Learns id answers start → start.Houses id handle node → Achieves number start handle
        (node.lookUp start.surroundings key) fun outcome after =>
          start.Same after ∧ answers key outcome) :
    Achieves number net handle node.fixFingers (net.TunesWell config members id answers) := by
  have hregular := populated.regular_of houses
  have hid := populated.id_eq houses
  let moved := node.tuned node.fingers (Node.nextSlot node.cursor)
  let begun := net.setNode handle moved
  have hbegun : begun.Populated config members := populated.setNode houses hid hregular.moved
  have hmoved : begun.Houses id handle moved := houses.setNode moved
  have htunes : net.Tunes id begun :=
    ⟨handle, node, node.fingers, _, houses, rfl, Same.refl begun⟩
  have hlearns {mid : Network} (hmid : begun.Same mid) : net.Learns id answers mid := by
    intro later hlater
    rw [hmid.keeps.resident?, hmoved.resident?] at hlater
    refine ⟨node, houses.resident?, fun slot finger h => Or.inl ?_⟩
    rwa [← Option.some.inj hlater] at h
  obtain ⟨start, hstart⟩ := Token.exists_slotStart node.id ⟨node.cursor, hregular.last⟩
  have hturn : node.fixFingers =
      moved.run (.serve (.findSuccessor start)) (.slotOwnerAsked node.cursor) := by
    rw [Node.fixFingers]
    simp only at hstart
    rw [hstart]
    rfl
  rw [hturn]
  refine .run rfl hmoved.stands ?_
  refine (looks start hbegun htunes (hlearns (Same.refl begun)) hmoved).weaken ?_
  rintro answer mid ⟨hmid, hanswers⟩
  have hmid : begun.Same mid := hmid
  have hstands := hmid.keeps.houses hmoved
  have hpopulated := hmid.keeps.populated hbegun
  have hkept := htunes.trans (hmid.tunes hmoved)
  refine ⟨moved, hstands.stands, ?_⟩
  cases answer with
  | error failure =>
      exact .answer_same hstands.stands
        ⟨hpopulated, hkept, hlearns hmid, Or.inr ⟨start, failure, hanswers, rfl⟩⟩
  | ok owner =>
      let index : Fin keyBits := ⟨node.cursor, hregular.last⟩
      have hslot : Fingers.slot? node.cursor = .ok index := dif_pos hregular.last
      rw [Node.resume, Node.onSlotOwner]
      simp only [hslot]
      split
      · exact .answer_same hstands.stands ⟨hpopulated, hkept, hlearns hmid, Or.inl rfl⟩
      · -- the slot is not that of the successor
        have hne : index ≠ Fingers.successorSlot := by
          intro heq
          have hzero : node.cursor = 0 := congrArg Fin.val heq
          have hfirst := hregular.first
          omega
        let fingers := (moved.fingers.compareAndSet index (moved.fingers.get index) (some owner)).2
        have hsucc : fingers.successor = moved.fingers.successor :=
          Fingers.get_compareAndSet_of_ne hne
        have hrefreshed : (moved.tuned fingers moved.cursor).Regular config members :=
          hregular.moved.refreshed (inside start owner hanswers)
        have hlast : (mid.setNode handle (moved.tuned fingers moved.cursor)).Populated config
            members := hpopulated.setNode hstands hid hrefreshed
        refine .reply rfl ⟨hlast, hkept.trans ?_, (hlearns hmid).trans ?_, Or.inl rfl⟩
        · exact ⟨handle, moved, fingers, moved.cursor, hstands, hsucc, Same.refl _⟩
        · intro later hlater
          have hset : (mid.setNode handle (moved.tuned fingers moved.cursor)).resident? id =
            some later := hlater
          rw [(hstands.setNode _).resident?, Option.some.injEq] at hset
          refine ⟨moved, hstands.resident?, fun slot finger hfinger => ?_⟩
          rw [← hset] at hfinger
          rcases Fingers.get_compareAndSet_cases moved.fingers index slot
            (moved.fingers.get index) (some owner) with hsame | ⟨-, hnew⟩
          · exact Or.inl (hsame.symm.trans hfinger)
          · exact Or.inr ⟨start, Option.some.inj (hnew.symm.trans hfinger) ▸ hanswers⟩

/-- Refreshes of several slots end like the first lookup that fails, and well if none does. -/
theorem refresh_achieves (inside : ∀ key next, answers key (.ok next) → next ∈ members)
    (left : Nat) (populated : net.Populated config members) (houses : net.Houses id handle node)
    (looks : ∀ {start node} key, start.Populated config members → net.Tunes id start →
      net.Learns id answers start → start.Houses id handle node → Achieves number start handle
        (node.lookUp start.surroundings key) fun outcome after =>
          start.Same after ∧ answers key outcome) :
    Achieves number net handle (node.refresh left) (net.TunesWell config members id answers) := by
  induction left generalizing net node with
  | zero =>
      exact .answer_same houses.stands
        ⟨populated, (Same.refl net).tunes houses, fun later hlater =>
          ⟨later, hlater, fun _ _ => Or.inl⟩, Or.inl rfl⟩
  | succ left ih =>
      refine .run_same rfl houses.stands rfl rfl ?_
      refine (fixFingers_achieves populated houses inside looks).weaken ?_
      rintro outcome mid ⟨hmid, htunes, hlearns, hends⟩
      have hstands : ∃ node, mid.Houses id handle node := by
        obtain ⟨peer, found, fingers, cursor, houses', -, hsame⟩ := htunes
        obtain rfl : handle = peer := Option.some.inj (houses.listed.symm.trans houses'.listed)
        exact ⟨_, hsame.keeps.houses (houses'.setNode _)⟩
      obtain ⟨later, hlater⟩ := hstands
      refine ⟨later, hlater.stands, ?_⟩
      rcases hends with rfl | ⟨key, failure, hanswers, rfl⟩
      · have hlooks := ih hmid hlater fun key hstart htuned hlearnt =>
          looks key hstart (htunes.trans htuned) (hlearns.trans hlearnt)
        refine hlooks.weaken ?_
        rintro outcome after ⟨hafter, htuned, hlearnt, hends⟩
        exact ⟨hafter, htunes.trans htuned, hlearns.trans hlearnt, hends⟩
      · exact .answer_same hlater.stands
          ⟨hmid, htunes, hlearns, Or.inr ⟨key, failure, hanswers, rfl⟩⟩

end Network

end RecordRing
