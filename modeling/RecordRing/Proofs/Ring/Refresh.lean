import Mathlib.Data.List.Iterate
import RecordRing.Proofs.Life.Acts
import RecordRing.Proofs.Network.Alone
import RecordRing.Proofs.Ring.Tuning

/-!
# A refresh of all routing slots

A refresh goes once round the routing slots, from the cursor on.  Each of its lookups uses the table
as the steps before have left it: some slots hold owners already, the others still hold what the node
started with.  Such a mixture is fit for lookups, since its slots hold nodes of the ring or
identifiers that lead nowhere, and no step touches the successor.  So every lookup names the owner,
and after as many steps as there are routing slots every one of them is exact
(`refreshFingers_restores`).

`Sweeps` describes the network after some of the steps.  One step adds a slot to those that have been
gone over (`Refresher.onward_fixFingers`), and the run follows by induction on the number of slots
that are left (`Refresher.onward_refresh`).
-/

namespace RecordRing

namespace Node

variable {node : Node} {cursor slot count : Nat}

/-! ## The way of the cursor -/

/-- The slots that a refresh goes over in some steps. -/
def passed (node : Node) (count : Nat) : List Nat := List.iterate nextSlot node.cursor count

theorem iterate_nextSlot (routing : IsRoutingSlot cursor) (count : Nat) :
    nextSlot^[count] cursor = (cursor - 1 + count) % routingSlots + 1 := by
  obtain ⟨hfirst, hlast⟩ := routing
  simp only [routingSlots, keyBits] at *
  induction count with
  | zero =>
      rw [Function.iterate_zero_apply]
      omega
  | succ count ih =>
      rw [Function.iterate_succ_apply', ih, nextSlot]
      by_cases hinside : (cursor - 1 + count) % (63 - 1) + 1 + 1 < keyBits
      · rw [if_pos hinside]
        simp only [keyBits] at hinside
        omega
      · rw [if_neg hinside]
        simp only [keyBits] at hinside
        omega

theorem isRoutingSlot_iterate (routing : IsRoutingSlot cursor) (count : Nat) :
    IsRoutingSlot (nextSlot^[count] cursor) := by
  have hpositive : 0 < routingSlots := by decide
  have hless := Nat.mod_lt (cursor - 1 + count) hpositive
  rw [iterate_nextSlot routing]
  constructor
  · exact Nat.succ_pos _
  · exact Nat.succ_lt_of_lt_pred hless

/-- After a whole round the cursor is back. -/
theorem iterate_nextSlot_routingSlots (routing : IsRoutingSlot cursor) :
    nextSlot^[routingSlots] cursor = cursor := by
  rw [iterate_nextSlot routing]
  obtain ⟨hfirst, hlast⟩ := routing
  simp only [routingSlots, keyBits] at *
  omega

/-- The steps go over routing slots only. -/
theorem isRoutingSlot_of_mem_passed (routing : IsRoutingSlot node.cursor)
    (mem : slot ∈ node.passed count) : IsRoutingSlot slot := by
  obtain ⟨step, -, rfl⟩ := List.mem_iterate.1 mem
  exact isRoutingSlot_iterate routing step

/-- A whole round goes over every routing slot. -/
theorem mem_passed (routing : IsRoutingSlot node.cursor) (other : IsRoutingSlot slot) :
    slot ∈ node.passed routingSlots := by
  apply List.mem_iterate.2
  refine ⟨(slot + routingSlots - node.cursor) % routingSlots, Nat.mod_lt _ (by decide), ?_⟩
  rw [iterate_nextSlot routing]
  obtain ⟨hfirst, hlast⟩ := routing
  obtain ⟨hfirst', hlast'⟩ := other
  simp only [routingSlots, keyBits] at *
  omega

theorem mem_passed_succ : slot ∈ node.passed (count + 1) ↔
    slot ∈ node.passed count ∨ slot = nextSlot^[count] node.cursor := by
  rw [passed, List.iterate_add, List.mem_append]
  exact or_congr Iff.rfl List.mem_singleton

/-! ## Entering an owner -/

/-- The answer of a lookup fills its slot and leaves every other slot as it is. -/
theorem onSlotOwner_eq (packed : node.fingers.Packed) (index : Fin keyBits) (owner : Token) :
    ∃ fingers : Fingers,
      node.onSlotOwner index (.ok owner) = (node.tuned fingers node.cursor).reply (.ok ()) ∧
      fingers.Packed ∧ fingers.get index = some owner ∧
      ∀ other, other ≠ index → fingers.get other = node.fingers.get other := by
  have hslot : Fingers.slot? index = .ok index := dif_pos index.isLt
  by_cases hheld : node.fingers.get index = some owner
  · refine ⟨node.fingers, ?_, packed, hheld, fun _ _ => rfl⟩
    simp only [onSlotOwner, hslot, hheld, if_true]
    rfl
  · refine ⟨(node.fingers.compareAndSet index (node.fingers.get index) (some owner)).2, ?_, ?_, ?_,
      ?_⟩
    · simp only [onSlotOwner, hslot]
      exact if_neg hheld
    · exact packed.compareAndSet index _ _
    · exact packed.get_compareAndSet index (some owner)
    · exact fun other ne => Fingers.get_compareAndSet_of_ne ne.symm

end Node

namespace Network

variable {net after now : Network} {ids : List Token} {id origin : Token} {number count : Nat}
  {handle : Handle} {member : Member} {node new : Node} {fingers : Fingers} {purpose : Purpose}
  {stack : Stack .nothing}

/-! ## A node of a ring with another table -/

theorem Serves.setNode (serves : net.Serves id handle member) (new : Node) (named : new.id = id) :
    (net.setNode handle new).Serves id handle { member with node := new } where
  listed := by rw [directory_setNode, serves.listed]
  stands := by rw [member?_setNode, if_pos rfl, serves.stands, Option.map_some]
  named := named
  clear := serves.clear

/-- A ring is a ring whatever fit table one of its nodes has. -/
theorem SuccessorRing.tuned (ring : net.SuccessorRing ids)
    (serves : net.Serves origin handle member)
    (successor : fingers.successor = member.node.fingers.successor)
    (fit : ∀ slot finger, fingers.get slot = some finger →
      finger ∈ ids ∨ net.directory[finger]? = none) (cursor : Nat) :
    (net.setNode handle (member.node.tuned fingers cursor)).SuccessorRing ids := by
  constructor
  · exact ring.ascending
  · intro id hid
    obtain ⟨place, found, hserves, hnext, hfit⟩ := ring.serves id hid
    rw [directory_setNode]
    by_cases hhandle : handle = place
    · subst hhandle
      obtain rfl : member = found := Option.some.inj (serves.stands.symm.trans hserves.stands)
      exact ⟨handle, _, hserves.setNode _ hserves.named, successor.trans hnext, fit⟩
    · refine ⟨place, found, ⟨?_, ?_, hserves.named, hserves.clear⟩, hnext, hfit⟩
      · rw [directory_setNode, hserves.listed]
      · rw [member?_setNode, if_neg hhandle, hserves.stands]

/-- A node is overwritten once more. -/
theorem Alike.again (alike : (net.setNode handle node).Alike now)
    (more : (now.setNode handle new).Alike after) : (net.setNode handle new).Alike after := by
  have hset := alike.overwrite handle new
  rw [setNode_setNode] at hset
  exact hset.trans more

/-- A node of a ring whose lookups may ask every other node, with a packed table and the cursor at a
routing slot. -/
structure Refresher (net : Network) (ids : List Token) (origin : Token) (handle : Handle)
    (member : Member) : Prop where
  ring : net.SuccessorRing ids
  mem : origin ∈ ids
  serves : net.Serves origin handle member
  hops : ids.length - 1 ≤ member.node.config.maxHops
  packed : member.node.fingers.Packed
  routing : IsRoutingSlot member.node.cursor

/-- A refresh has gone over some slots, which hold the owners of their starts.  The other slots hold
what they held, and beside the table only the cursor has moved. -/
structure Sweeps (net : Network) (ids : List Token) (handle : Handle) (node : Node) (count : Nat)
    (fingers : Fingers) (now : Network) : Prop where
  alike : (net.setNode handle (node.tuned fingers (Node.nextSlot^[count] node.cursor))).Alike now
  packed : fingers.Packed
  fresh : ∀ slot : Fin keyBits, slot.val ∈ node.passed count →
    ∀ start, node.id.slotStart slot = .ok start → fingers.get slot = some (ownerOf ids start)
  stale : ∀ slot : Fin keyBits, slot.val ∉ node.passed count →
    fingers.get slot = node.fingers.get slot

/-- The owner of the start of the slot under the cursor is entered, and the cursor moves on. -/
theorem Sweeps.enter (sweeps : net.Sweeps ids handle node count fingers now)
    {index : Fin keyBits} (under : index.val = Node.nextSlot^[count] node.cursor)
    {entered : Fingers} (packed : entered.Packed) {start : Token}
    (starts : node.id.slotStart index = .ok start)
    (fresh : entered.get index = some (ownerOf ids start))
    (others : ∀ other, other ≠ index → entered.get other = fingers.get other)
    (alike : (net.setNode handle
      (node.tuned entered (Node.nextSlot^[count + 1] node.cursor))).Alike after) :
    net.Sweeps ids handle node (count + 1) entered after := by
  constructor
  · exact alike
  · exact packed
  · intro slot hpassed begin hbegin
    by_cases hslot : slot = index
    · subst hslot
      obtain rfl : start = begin := Except.ok.inj (starts.symm.trans hbegin)
      exact fresh
    · have hsooner := (Node.mem_passed_succ.1 hpassed).resolve_right fun hunder =>
        hslot (Fin.ext (hunder.trans under.symm))
      rw [others slot hslot]
      exact sweeps.fresh slot hsooner begin hbegin
  · intro slot hpassed
    rw [Node.mem_passed_succ, not_or] at hpassed
    have hslot : slot ≠ index := fun heq => hpassed.2 ((congrArg Fin.val heq).trans under)
    rw [others slot hslot]
    exact sweeps.stale slot hpassed.1

namespace Refresher

theorem stands (refresher : net.Refresher ids origin handle member) :
    net.nodeAt? handle = some member.node :=
  nodeAt?_of_member? refresher.serves.stands

/-- No step touches the successor. -/
theorem successor (refresher : net.Refresher ids origin handle member)
    (sweeps : net.Sweeps ids handle member.node count fingers now) :
    fingers.successor = member.node.fingers.successor := by
  apply sweeps.stale
  intro hpassed
  have hrouting := Node.isRoutingSlot_of_mem_passed refresher.routing hpassed
  exact Nat.lt_irrefl _ hrouting.1

/-- The mixture of a table is fit for lookups. -/
theorem fit (refresher : net.Refresher ids origin handle member)
    (sweeps : net.Sweeps ids handle member.node count fingers now) (slot : Fin keyBits)
    (finger : Token) (holds : fingers.get slot = some finger) :
    finger ∈ ids ∨ net.directory[finger]? = none := by
  by_cases hpassed : slot.val ∈ member.node.passed count
  · obtain ⟨start, hstart⟩ := member.node.id.exists_slotStart slot
    have howner := sweeps.fresh slot hpassed start hstart
    rw [holds, Option.some.injEq] at howner
    exact .inl (howner ▸ ownerOf_mem refresher.mem start)
  · obtain ⟨place, found, hserves, -, hfit⟩ := refresher.ring.serves origin refresher.mem
    obtain ⟨rfl, rfl⟩ := refresher.serves.unique hserves
    exact hfit slot finger ((sweeps.stale slot hpassed).symm.trans holds)

/-- In the middle of a refresh the nodes still form the ring. -/
theorem ring_now (refresher : net.Refresher ids origin handle member)
    (sweeps : net.Sweeps ids handle member.node count fingers now) {cursor : Nat}
    (alike : (net.setNode handle (member.node.tuned fingers cursor)).Alike after) :
    after.SuccessorRing ids ∧ ∃ later, after.Serves origin handle later ∧
      later.node = member.node.tuned fingers cursor := by
  have hring := refresher.ring.tuned refresher.serves (refresher.successor sweeps)
    (refresher.fit sweeps) cursor
  have hserves := refresher.serves.setNode (member.node.tuned fingers cursor) refresher.serves.named
  exact ⟨hring.alike alike, hserves.alike alike⟩

/-- A refresh of the slot under the cursor enters the owner of its start. -/
theorem onward_fixFingers (refresher : net.Refresher ids origin handle member)
    (sweeps : net.Sweeps ids handle member.node count fingers now)
    (begins : now.tasks[number]? =
      some ⟨purpose, .nothing, .start handle .fixFingers, stack⟩) :
    ∃ entered after, Onward number now after ∧
      net.Sweeps ids handle member.node (count + 1) entered after ∧
      after.tasks[number]? = some ⟨purpose, .nothing, .answer (.ok ()), stack⟩ := by
  have hrouting := Node.isRoutingSlot_iterate refresher.routing count
  let cursor := Node.nextSlot^[count] member.node.cursor
  let next := Node.nextSlot^[count + 1] member.node.cursor
  let index : Fin keyBits := ⟨cursor, hrouting.2⟩
  let moved := member.node.tuned fingers next
  have hnext : Node.nextSlot cursor = next := (Function.iterate_succ_apply' _ _ _).symm
  obtain ⟨start, hstart⟩ := member.node.id.exists_slotStart index
  -- the cursor moves on and the start of the slot is looked up
  have hturn : (member.node.tuned fingers cursor).start now.surroundings .fixFingers =
      moved.run (.serve (.findSuccessor start)) (.slotOwnerAsked cursor) := by
    have hstart : (member.node.tuned fingers cursor).id.slotStart cursor = .ok start := hstart
    show (member.node.tuned fingers cursor).fixFingers = _
    simp only [Node.fixFingers]
    rw [show (member.node.tuned fingers cursor).cursor = cursor from rfl, hstart, hnext]
    rfl
  obtain ⟨-, later, hlater, hnode⟩ := refresher.ring_now sweeps sweeps.alike
  have hfound : now.nodeAt? handle = some (member.node.tuned fingers cursor) :=
    hnode ▸ nodeAt?_of_member? hlater.stands
  obtain ⟨looking, hon, hmoved, htask⟩ := onward_start begins hfound rfl
    (by rw [hturn]; simp [Node.run]) (by rw [hturn]; rfl)
  rw [hturn] at hmoved
  have hlooking : (net.setNode handle moved).Alike looking := sweeps.alike.again hmoved
  -- the lookup names the owner
  obtain ⟨hring, asked, hserves, hasked⟩ := refresher.ring_now sweeps hlooking
  obtain ⟨outcome, told, hon', halike, htask', -, hends⟩ :=
    lookUp_answers hring refresher.mem hserves htask
  have houtcome : outcome = .ok (ownerOf ids start) := by
    apply hends
    rw [hasked]
    exact refresher.hops
  subst houtcome
  have htold : (net.setNode handle moved).Alike told := hlooking.trans halike
  have hstands : told.nodeAt? handle = some moved := by
    rw [halike.nodeAt?, nodeAt?_of_member? hserves.stands, hasked]
  -- the owner is entered
  obtain ⟨entered, henters, hpacked, hfresh, hothers⟩ :=
    moved.onSlotOwner_eq sweeps.packed index (ownerOf ids start)
  have hanswers : moved.resume told.surroundings (.slotOwnerAsked cursor)
      (.ok (ownerOf ids start)) = (member.node.tuned entered next).reply (.ok ()) := henters
  obtain ⟨after, hon'', hentered, htask''⟩ := onward_resume htask' hstands rfl
    (by rw [hanswers]; simp [Node.reply]) (by rw [hanswers]; rfl)
  rw [hanswers] at hentered
  have hsweeps := sweeps.enter rfl hpacked hstart hfresh hothers (htold.again hentered)
  exact ⟨entered, after, onward_trans hon (onward_trans hon' hon''), hsweeps, htask''⟩

/-- The steps that are left go over as many further slots. -/
theorem onward_refresh (refresher : net.Refresher ids origin handle member) (left : Nat)
    (sweeps : net.Sweeps ids handle member.node count fingers now)
    (takes : now.Takes number purpose handle stack node (node.refresh left)) :
    ∃ entered after, Onward number now after ∧
      net.Sweeps ids handle member.node (count + left) entered after ∧
      after.tasks[number]? = some ⟨purpose, .nothing, .answer (.ok ()), stack⟩ := by
  induction left generalizing count fingers now node with
  | zero =>
      obtain ⟨after, hon, halike, htask⟩ := takes.quiet rfl
      exact ⟨fingers, after, hon, { sweeps with alike := sweeps.alike.trans halike }, htask⟩
  | succ left ih =>
      obtain ⟨before, hon, halike, htask⟩ := takes.quiet rfl
      have hbefore : net.Sweeps ids handle member.node count fingers before :=
        { sweeps with alike := sweeps.alike.trans halike }
      obtain ⟨entered, mid, hon', hsweeps, htask'⟩ := refresher.onward_fixFingers hbefore htask
      obtain ⟨-, later, hlater, -⟩ := refresher.ring_now hsweeps hsweeps.alike
      obtain ⟨last, after, hon'', hlast, htask''⟩ := ih hsweeps
        (takes_resume htask' (nodeAt?_of_member? hlater.stands) rfl)
      rw [Nat.add_right_comm] at hlast
      exact ⟨last, after, onward_trans hon (onward_trans hon' hon''), hlast, htask''⟩

end Refresher

/-- On a ring a refresh of all routing slots ends well and makes each of them the owner of its start,
whatever the routing slots of the nodes hold and wherever the cursor is.  The successor, the cursor
and every other node are as before. -/
theorem refreshFingers_restores (ring : net.SuccessorRing ids) (mem : origin ∈ ids)
    (serves : net.Serves origin handle member)
    (hops : ids.length - 1 ≤ member.node.config.maxHops) (packed : member.node.fingers.Packed)
    (routing : 1 ≤ member.node.cursor ∧ member.node.cursor ≤ 62)
    (begins : net.tasks[number]? =
      some ⟨purpose, .nothing, .start handle .refreshFingers, stack⟩) :
    ∃ fingers after, Onward number net after ∧
      after.tasks[number]? = some ⟨purpose, .nothing, .answer (.ok ()), stack⟩ ∧
      (net.setNode handle { member.node with fingers := fingers }).Alike after ∧
      fingers.successor = member.node.fingers.successor ∧
      ∀ (slot : Fin keyBits) (start : Token), slot ≠ Fingers.successorSlot →
        start.toNat = (origin.toNat + 2 ^ slot.val) % ringSize →
        fingers.get slot = some (ownerOf ids start) ∧
        ∀ id ∈ ids, insideHalfOpen (previousOf ids id) id start = true ↔
          fingers.get slot = some id := by
  have refresher : net.Refresher ids origin handle member :=
    ⟨ring, mem, serves, hops, packed, ⟨routing.1, Nat.lt_succ_of_le routing.2⟩⟩
  have hbegun : net.Sweeps ids handle member.node 0 member.node.fingers net := by
    refine ⟨?_, packed, fun _ h => absurd h List.not_mem_nil, fun _ _ => rfl⟩
    show (net.setNode handle member.node).Alike net
    rw [setNode_self refresher.stands]
    exact Alike.refl net
  obtain ⟨fingers, after, hon, hsweeps, htask⟩ := refresher.onward_refresh Node.routingSlots hbegun
    (takes_start begins refresher.stands rfl)
  rw [Nat.zero_add] at hsweeps
  refine ⟨fingers, after, hon, htask, ?_, refresher.successor hsweeps, fun slot start hne hstart => ?_⟩
  · have halike := hsweeps.alike
    rwa [Node.iterate_nextSlot_routingSlots refresher.routing] at halike
  · have hslot : IsRoutingSlot slot.val := by
      refine ⟨Nat.pos_of_ne_zero fun hzero => hne (Fin.ext hzero), slot.isLt⟩
    obtain ⟨begin, hbegin⟩ := member.node.id.exists_slotStart slot
    obtain rfl : begin = start := by
      apply Token.toNat_inj.1
      rw [Token.toNat_slotStart hbegin, hstart, serves.named]
    have hfresh := hsweeps.fresh slot (Node.mem_passed refresher.routing hslot) begin hbegin
    refine ⟨hfresh, fun id hid => ?_⟩
    rw [insideHalfOpen_previousOf_iff ring.ascending hid, hfresh, Option.some.injEq]
    exact eq_comm

/-- The ring of three with a stale finger, with the node that has it told to refresh its fingers. -/
def refreshingRing : Network :=
  { staleRing with
    tasks := Std.TreeMap.empty.insert 0 (taskOf (.client []) 0 .refreshFingers) }

theorem alike_refreshingRing : staleRing.Alike refreshingRing := .of_same rfl rfl rfl

/-- The stale finger is replaced: nobody is left before the end of the turn, so the slot belongs to
the node itself. -/
theorem refreshFingers_restores_stale : ∃ fingers after, Onward 0 refreshingRing after ∧
    after.tasks[0]? = some ⟨.client [], .nothing, .answer (.ok ()), .root⟩ ∧
    fingers.get (Fin.last 62) = some (Token.wrapping 10) ∧
    (after.nodeAt? 0).map Node.fingers = some fingers := by
  obtain ⟨member, hserves, -, -⟩ := serves_staleRing 0
  obtain ⟨later, hlater, hnode⟩ := hserves.alike alike_refreshingRing
  have hfound : staleRing.member? 0 = some member := hserves.stands
  have hhops : ∀ member ∈ staleRing.member? 0, member.node.config.maxHops = 2 := by decide
  have hcursor : ∀ member ∈ staleRing.member? 0, member.node.cursor = 1 := by decide
  have hpacked : member.node.fingers.Packed := by
    obtain rfl := Option.some.inj hfound
    exact (Fingers.packed_empty.set _ _).set _ _
  have hmem : Token.wrapping 10 ∈ staleIds := by decide
  have hring := successorRing_staleRing.alike alike_refreshingRing
  obtain ⟨fingers, after, hon, htask, halike, -, hexact⟩ :=
    refreshFingers_restores hring hmem hlater (by rw [hnode, hhops member hfound]; decide)
      (by rw [hnode]; exact hpacked) (by rw [hnode, hcursor member hfound]; decide)
      (rfl : refreshingRing.tasks[0]? = some (taskOf (.client []) 0 .refreshFingers))
  refine ⟨fingers, after, hon, htask, ?_, ?_⟩
  · have hne : Fin.last 62 ≠ Fingers.successorSlot := Fin.ne_of_val_ne (by decide)
    have howner : ownerOf staleIds (Token.wrapping 4611686018427387914) = Token.wrapping 10 := by
      decide
    rw [(hexact (Fin.last 62) (Token.wrapping 4611686018427387914) hne (by decide)).1, howner]
  · have hstands : refreshingRing.nodeAt? 0 = some later.node := nodeAt?_of_member? hlater.stands
    have hset := nodeAt?_setNode refreshingRing 0 { later.node with fingers := fingers } 0
    rw [if_pos rfl, hstands] at hset
    rw [halike.nodeAt? 0]
    exact congrArg (Option.map Node.fingers) hset

end Network

end RecordRing
