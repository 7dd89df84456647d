import RecordRing.Proofs.Network.Calls
import RecordRing.Proofs.Ring.Strain

/-!
# Recovery from a departure

When a node leaves a closed ring, two nodes miss it: the one before it has lost its successor, and
the one after it, the heir, has lost its predecessor.  Predecessor repair lets the heir forget the
lost node.  Successor repair lets the node before restart from some finger, or from itself, and walk
back along the predecessors until it comes to the heir, which accepts it.

The walk never passes a node twice, because every call leaves fewer nodes between the node and the
successor that it holds (`Mending.stabilize`).  So one pass of predecessor repair and a round of
successor repair for each node of the former ring close the ring of the others
(`departure_closes`).

## Implementation notes

`Mending` states of every node how far its pointers may be off, and `left` bounds the calls of
successor repair that the node before the heir has to go.  The other nodes' calls change nothing.
-/

namespace RecordRing

variable {ids : List Token} {id a b gone lost next candidate : Token} {left : Nat} {stale : Bool}

/-- A ring that one node has left: its other nodes, the one that came after the lost node, and the
directory, which does not know the lost node. -/
structure Departure where
  /-- The nodes that stay, in ascending order. -/
  ids : List Token
  /-- The node after the lost one. -/
  heir : Token
  /-- The node that has left. -/
  lost : Token
  /-- The directory afterwards. -/
  directory : Std.TreeMap Token Handle
  ascending : Ascending ids
  heir_mem : heir ∈ ids
  departed : directory[lost]? = none

variable {gap : Departure} {node reached new : Node}

/-- All calls are made at nodes that stay, and for one operation. -/
def Departure.Reaches (gap : Departure) (operation : Operation .nothing)
    (calls : List Network.Call) : Prop :=
  ∀ call ∈ calls, call.2 = operation ∧ ∃ id ∈ gap.ids, gap.directory[id]? = some call.1

/-- How far the pointers of a node may be off.  The node before the heir may hold the lost node or a
node farther away as successor, and the heir may hold nobody, or the lost node if `stale` is set, as
predecessor; everyone else's pointers are right. -/
structure Node.Mends (node : Node) (gap : Departure) (left : Nat) (stale : Bool) : Prop where
  routes : ∀ slot finger, node.fingers.get slot = some finger →
    finger ∈ gap.ids ∨ gap.directory[finger]? = none
  ahead : node.successor = some (nextOf gap.ids node.id) ∨ nextOf gap.ids node.id = gap.heir ∧
    (node.successor = some gap.lost ∧ gap.ids.length ≤ left ∨
      ∃ next ∈ gap.ids, node.successor = some next ∧
        gap.ids.countP (insideOpen node.id next) < left)
  behind : node.predecessor = beforeOf? gap.ids node.id ∨ node.id = gap.heir ∧ left ≠ 0 ∧
    (node.predecessor = none ∨ stale = true ∧ node.predecessor = some gap.lost)

theorem Node.Mends.congr (mends : node.Mends gap left stale) (same : new.bearings = node.bearings) :
    new.Mends gap left stale := by
  simp only [Node.bearings, Prod.mk.injEq] at same
  have hsucc : new.successor = node.successor := by rw [successor, successor, same.2.1]
  obtain ⟨routes, ahead, behind⟩ := mends
  refine ⟨?_, ?_, ?_⟩
  · rwa [same.2.1]
  · rwa [hsucc, same.1]
  · rwa [same.2.2, same.1]

/-- A node before the heir that exchanges its successor for another node, near enough, stays within
the bounds. -/
theorem Node.Mends.exchange (mends : node.Mends gap left stale) {fingers : Fingers}
    (leads : nextOf gap.ids node.id = gap.heir) (mem : next ∈ gap.ids)
    (holds : fingers.successor = some next)
    (less : gap.ids.countP (insideOpen node.id next) < left)
    (slots : ∀ slot finger, slot ≠ Fingers.successorSlot → fingers.get slot = some finger →
      node.fingers.get slot = some finger) :
    Node.Mends { node with fingers := fingers } gap left stale := by
  refine ⟨fun slot finger hget => ?_, Or.inr ⟨leads, Or.inr ⟨next, mem, holds, less⟩⟩,
    mends.behind⟩
  by_cases hslot : slot = Fingers.successorSlot
  · rw [hslot] at hget
    exact Or.inl (Option.some.inj (holds.symm.trans hget) ▸ mem)
  · exact mends.routes slot finger (slots slot finger hslot hget)

theorem Node.id_fixPredecessor (node : Node) (around : Surroundings) :
    (node.fixPredecessor around).id = node.id := by
  rw [fixPredecessor]
  split
  · split <;> rfl
  · rfl

theorem Node.fixPredecessor_of_knows {around : Surroundings}
    (knows : ∀ id, node.predecessor = some id → around.knows id = true) :
    node.fixPredecessor around = node := by
  rw [fixPredecessor]
  split
  · rename_i before hbefore
    rw [if_pos (knows before hbefore)]
  · rfl

/-- Predecessor repair keeps the pointers of a node within the bounds, and the heir forgets the lost
node. -/
theorem Node.Mends.fixPredecessor {around : Surroundings} (mends : node.Mends gap left stale)
    (mem : node.id ∈ gap.ids) (knows : ∀ id ∈ gap.ids, around.knows id = true)
    (unknown : around.knows gap.lost = false) :
    (node.fixPredecessor around).Mends gap left (stale && decide (node.id ≠ gap.heir)) := by
  obtain ⟨hroutes, hahead, hright | ⟨hheir, hleft, hnone | ⟨-, hlost⟩⟩⟩ := mends
  · have hknows : ∀ id, node.predecessor = some id → around.knows id = true := by
      intro id hid
      rw [hright, beforeOf?] at hid
      split at hid
      · cases hid
      · exact knows id (Option.some.inj hid ▸ previousOf_mem mem node.id)
    rw [fixPredecessor_of_knows hknows]
    exact ⟨hroutes, hahead, Or.inl hright⟩
  · rw [fixPredecessor_of_knows fun id hid => by rw [hnone] at hid; cases hid]
    exact ⟨hroutes, hahead, Or.inr ⟨hheir, hleft, Or.inl hnone⟩⟩
  · have hforgets : node.fixPredecessor around = { node with predecessor := none } := by
      simp only [Node.fixPredecessor, hlost, unknown, Bool.false_eq_true, if_false]
    rw [hforgets]
    exact ⟨hroutes, hahead, Or.inr ⟨hheir, hleft, Or.inl rfl⟩⟩

theorem bearings_beginMerge (node : Node) : node.beginMerge.1.bearings = node.bearings := by
  rw [Node.beginMerge]
  split
  · split <;> rfl
  · rfl

namespace Network

variable {net after : Network} {handle peer : Handle} {member : Member} {number : Nat}
  {contact : Contact} {target : Node}

/-- The directory leads from an identifier to a node of this identifier, behind a link that fails no
call. -/
structure Hosts (net : Network) (id : Token) (handle : Handle) (node : Node) : Prop where
  listed : net.directory[id]? = some handle
  stands : net.Stands handle node
  named : node.id = id

theorem Serves.hosts (h : net.Serves id handle member) : net.Hosts id handle member.node :=
  ⟨h.listed, ⟨member, h.stands, rfl, h.clear⟩, h.named⟩

namespace Hosts

theorem serves (h : net.Hosts id handle node) : ∃ member, net.Serves id handle member ∧
    member.node = node := by
  obtain ⟨member, hmember, hnode, hclear⟩ := h.stands
  exact ⟨member, ⟨h.listed, hmember, hnode ▸ h.named, hclear⟩, hnode⟩

theorem alike (h : net.Hosts id handle node) (alike : net.Alike after) :
    after.Hosts id handle node :=
  ⟨by rw [alike.directory, h.listed], h.stands.alike alike, h.named⟩

theorem unique {other : Handle} (h : net.Hosts id handle node) (h' : net.Hosts id other target) :
    handle = other ∧ node = target := by
  obtain rfl := Option.some.inj (h.listed.symm.trans h'.listed)
  exact ⟨rfl, Option.some.inj (h.stands.nodeAt?.symm.trans h'.stands.nodeAt?)⟩

/-- Two identifiers do not lead to one handle. -/
theorem handle_ne {other : Token} (h : net.Hosts id handle node) (h' : net.Hosts other peer target)
    (hne : id ≠ other) : handle ≠ peer := by
  rintro rfl
  have hsame := Option.some.inj (h.stands.nodeAt?.symm.trans h'.stands.nodeAt?)
  exact hne (h.named.symm.trans ((congrArg Node.id hsame).trans h'.named))

theorem setNode_self (h : net.Hosts id handle node) (named : new.id = id) :
    (net.setNode handle new).Hosts id handle new :=
  ⟨by rw [directory_setNode, h.listed], h.stands.setNode_self new, named⟩

theorem setNode_of_ne {other : Token} (h : net.Hosts id handle node)
    (h' : net.Hosts other peer target) (hne : other ≠ id) (new : Node) :
    (net.setNode peer new).Hosts id handle node :=
  ⟨by rw [directory_setNode, h.listed], h.stands.setNode_of_ne (h'.handle_ne h hne) new, h.named⟩

/-- How a node reaches another one, or itself. -/
theorem exists_contact (h : net.Hosts id handle node) (h' : net.Hosts a peer target) :
    ∃ contact, node.resolve net.surroundings a = some contact ∧
      net.Hosts a (contact.at handle) target := by
  by_cases hself : a = id
  · subst hself
    obtain ⟨rfl, rfl⟩ := h.unique h'
    exact ⟨.own, by rw [Node.resolve, if_pos h.named.symm], h'⟩
  · refine ⟨.remote peer, ?_, h'⟩
    rw [Node.resolve, if_neg fun hne => hself (hne.trans h.named)]
    exact congrArg (Option.map Contact.remote) h'.listed

end Hosts

/-- The directory of a departure leads to the nodes that stay, and their pointers are off by no more
than the departure explains. -/
structure Mending (net : Network) (gap : Departure) (left : Nat) (stale : Bool) : Prop where
  directory : net.directory = gap.directory
  hosts : ∀ id ∈ gap.ids, ∃ handle node, net.Hosts id handle node ∧ node.Mends gap left stale

namespace Mending

theorem mends (mending : net.Mending gap left stale) (hosts : net.Hosts id handle node)
    (mem : id ∈ gap.ids) : node.Mends gap left stale := by
  obtain ⟨other, twin, htwin, hmends⟩ := mending.hosts id mem
  obtain ⟨rfl, rfl⟩ := hosts.unique htwin
  exact hmends

theorem alike (mending : net.Mending gap left stale) (alike : net.Alike after) :
    after.Mending gap left stale := by
  refine ⟨alike.directory.trans mending.directory, fun id mem => ?_⟩
  obtain ⟨handle, node, hhosts, hmends⟩ := mending.hosts id mem
  exact ⟨handle, node, hhosts.alike alike, hmends⟩

theorem still (mending : net.Mending gap left stale) (still : net.Still after) :
    after.Mending gap left stale := by
  refine ⟨still.directory.trans mending.directory, fun id mem => ?_⟩
  obtain ⟨handle, node, hhosts, hmends⟩ := mending.hosts id mem
  obtain ⟨member, hmember, rfl, hclear⟩ := hhosts.stands
  obtain ⟨later, hlater, hbearings, hfaults⟩ := still.members handle member hmember
  have hid : later.node.id = member.node.id := congrArg Prod.fst hbearings
  exact ⟨handle, later.node, ⟨by rw [still.directory, hhosts.listed],
    ⟨later, hlater, rfl, hfaults.trans hclear⟩, hid.trans hhosts.named⟩, hmends.congr hbearings⟩

/-- Bounds may be exchanged node by node. -/
theorem mono {less : Nat} {fresh : Bool} (mending : net.Mending gap left stale)
    (weaker : ∀ id ∈ gap.ids, ∀ handle node, net.Hosts id handle node → node.Mends gap left stale →
      node.Mends gap less fresh) : net.Mending gap less fresh := by
  refine ⟨mending.directory, fun id mem => ?_⟩
  obtain ⟨handle, node, hhosts, hmends⟩ := mending.hosts id mem
  exact ⟨handle, node, hhosts, weaker id mem handle node hhosts hmends⟩

/-- A node may be overwritten by one whose pointers are within the bounds. -/
theorem setNode (mending : net.Mending gap left stale) (hosts : net.Hosts id handle node)
    (named : new.id = id) (mends : new.Mends gap left stale) :
    (net.setNode handle new).Mending gap left stale := by
  refine ⟨(directory_setNode ..).trans mending.directory, fun other mem => ?_⟩
  by_cases hsame : id = other
  · subst hsame
    exact ⟨handle, new, hosts.setNode_self named, mends⟩
  · obtain ⟨peer, twin, htwin, hmends⟩ := mending.hosts other mem
    exact ⟨peer, twin, htwin.setNode_of_ne hosts hsame new, hmends⟩

theorem knows (mending : net.Mending gap left stale) (mem : id ∈ gap.ids) :
    net.surroundings.knows id = true := by
  obtain ⟨handle, node, hhosts, -⟩ := mending.hosts id mem
  rw [knows_surroundings, hhosts.listed, Option.isSome_some]

theorem not_knows_lost (mending : net.Mending gap left stale) :
    net.surroundings.knows gap.lost = false := by
  rw [knows_surroundings, mending.directory, gap.departed, Option.isSome_none]

/-! ## Predecessor repair -/

/-- Predecessor repair keeps the pointers within the bounds, and at the heir it forgets the lost
node. -/
theorem fixPredecessor (mending : net.Mending gap left stale) (mem : id ∈ gap.ids)
    (hosts : net.Hosts id handle node) : ∃ after, net.Completes handle .fixPredecessor after ∧
      after.endings[net.nextTask]? = some ⟨.nothing, .ok ()⟩ ∧
      after.Mending gap left (stale && decide (id ≠ gap.heir)) := by
  obtain rfl := hosts.named
  have hmends := (mending.mends hosts mem).fixPredecessor mem (fun _ => mending.knows)
    mending.not_knows_lost
  obtain ⟨after, hcompletes, hending, halike⟩ := completes_reply hosts.stands.nodeAt? rfl
    (show node.start net.surroundings .fixPredecessor =
      (node.fixPredecessor net.surroundings).reply (.ok ()) from rfl)
  refine ⟨after, hcompletes, hending, Mending.alike ?_ halike⟩
  refine ⟨(directory_setNode ..).trans mending.directory, fun other hother => ?_⟩
  by_cases hsame : node.id = other
  · subst hsame
    exact ⟨handle, _, hosts.setNode_self (node.id_fixPredecessor _), hmends⟩
  · -- the flag matters at the heir only
    obtain ⟨peer, twin, htwin, hroutes, hahead, hbehind⟩ := mending.hosts other hother
    refine ⟨peer, twin, htwin.setNode_of_ne hosts hsame _, hroutes, hahead, ?_⟩
    refine hbehind.imp_right fun ⟨hheir, hleft, hpredecessor⟩ => ⟨hheir, hleft, ?_⟩
    have hne : node.id ≠ gap.heir := fun h => hsame (h.trans (hheir.symm.trans htwin.named))
    rwa [decide_eq_true hne, Bool.and_true]

/-! ## Telling a node -/

/-- A node that is told about another one keeps its pointers within the bounds.  The heir is told by
the node before it only, and then its predecessor is right. -/
theorem tell (mending : net.Mending gap left false) (mem : id ∈ gap.ids) (hmem : a ∈ gap.ids)
    (hosts : net.Hosts a peer target) (other : a ≠ id)
    (right : a = gap.heir → nextOf gap.ids id = gap.heir) (told : net.Told peer id after) :
    after.Mending gap left false ∧
      (∀ b handle node, b ≠ a → net.Hosts b handle node → after.Hosts b handle node) ∧
      ∃ later, after.Hosts a peer later ∧ later.predecessor = beforeOf? gap.ids a := by
  obtain ⟨twin, hstands, halike⟩ := told
  rw [hosts.stands.nodeAt?, Option.some.injEq] at hstands
  subst hstands
  obtain rfl := hosts.named
  have hbefore := beforeOf?_of_ne mem (Ne.symm other)
  obtain ⟨hroutes, hahead, hbehind⟩ := mending.mends hosts hmem
  by_cases haccepted : id ≠ target.id ∧ target.isCloser id = true
  · let accepting : Node := { target with predecessor := some id }
    have hnotified : (target.notified id).1.bearings = accepting.bearings := by
      rw [Node.notified, if_pos haccepted]
      exact bearings_beginMerge _
    have hid : (target.notified id).1.id = target.id := congrArg Prod.fst hnotified
    -- only the heir can accept a predecessor
    have hright : some id = beforeOf? gap.ids target.id := by
      rcases hbehind with hsettled | ⟨hheir, -⟩
      · have hcloser := haccepted.2
        rw [Node.isCloser, hsettled, hbefore] at hcloser
        exact absurd hcloser (not_insideOpen_previousOf gap.ascending mem target.id)
      · rw [hbefore, hheir, ← right hheir, previousOf_nextOf gap.ascending mem]
    have haccepting : accepting.Mends gap left false := ⟨hroutes, hahead, Or.inl hright⟩
    have hmends := haccepting.congr hnotified
    refine ⟨(mending.setNode hosts hid hmends).alike halike, fun b handle node hne hb => ?_,
      _, (hosts.setNode_self hid).alike halike, ?_⟩
    · exact (hb.setNode_of_ne hosts (Ne.symm hne) _).alike halike
    · exact (congrArg (fun bearings => bearings.2.2) hnotified).trans hright
  · rw [Node.notified, if_neg haccepted, setNode_self hosts.stands.nodeAt?] at halike
    refine ⟨mending.alike halike, fun b handle node _ hb => hb.alike halike,
      target, hosts.alike halike, ?_⟩
    refine hbehind.resolve_right ?_
    rintro ⟨-, -, hnone | ⟨hstale, -⟩⟩
    · exact haccepted ⟨Ne.symm other, by rw [Node.isCloser, hnone]⟩
    · cases hstale

/-- Once the node before the heir has come nearer, fewer repairs are left. -/
theorem lower (mending : net.Mending gap left false) (mem : id ∈ gap.ids)
    (leads : nextOf gap.ids id = gap.heir) (hosts : net.Hosts id handle node)
    (nearer : node.successor = some gap.heir ∧ (∃ peer target, net.Hosts gap.heir peer target ∧
        target.predecessor = beforeOf? gap.ids gap.heir) ∨
      ∃ next ∈ gap.ids, node.successor = some next ∧
        gap.ids.countP (insideOpen id next) < left - 1) :
    net.Mending gap (left - 1) false := by
  refine mending.mono fun other hother peer twin htwin hmends => ?_
  obtain rfl := htwin.named
  obtain ⟨hroutes, hahead, hbehind⟩ := hmends
  refine ⟨hroutes, ?_, ?_⟩
  · rcases hahead with hsettled | ⟨hnext, -⟩
    · exact Or.inl hsettled
    · obtain rfl := eq_of_nextOf_eq gap.ascending hother mem (hnext.trans leads.symm)
      obtain ⟨-, rfl⟩ := hosts.unique htwin
      rcases nearer with ⟨hsucc, -⟩ | hfar
      · exact Or.inl (by rw [hsucc, leads])
      · exact Or.inr ⟨leads, Or.inr hfar⟩
  · rcases hbehind with hsettled | ⟨hheir, -, hpredecessor⟩
    · exact Or.inl hsettled
    · rcases nearer with ⟨-, at_heir, heir, hhosts, hright⟩ | ⟨next, -, -, hless⟩
      · obtain ⟨-, rfl⟩ := htwin.unique (hheir ▸ hhosts)
        exact Or.inl (by rw [hright, hheir])
      · exact Or.inr ⟨hheir, Nat.ne_of_gt (Nat.zero_lt_of_lt hless), hpredecessor⟩

/-! ## Successor repair -/

theorem resolve_lost (mending : net.Mending gap left stale) (hosts : net.Hosts id handle node) :
    node.resolve net.surroundings gap.lost = none := by
  have hlisted := hosts.listed
  have hne : gap.lost ≠ node.id := by
    intro hsame
    rw [← hosts.named, ← hsame, mending.directory, gap.departed] at hlisted
    cases hlisted
  rw [Node.resolve, if_neg hne]
  show (net.directory[gap.lost]?).map Contact.remote = none
  rw [mending.directory, gap.departed]
  rfl

/-- Before a node asks anybody it replaces a lost successor, and then it holds one of the nodes that
stay. -/
theorem reach (mending : net.Mending gap left stale) (mem : id ∈ gap.ids)
    (hosts : net.Hosts id handle node) : ∃ (reached : Node) (contact : Contact) (next : Token),
      node.stabilize net.surroundings =
        reached.ask contact .predecessor (.predecessorAsked next contact) ∧
      reached.id = id ∧ reached.Mends gap left stale ∧ reached.successor = some next ∧
      reached.resolve net.surroundings next = some contact ∧ next ∈ gap.ids ∧
      (next = nextOf gap.ids id ∨
        nextOf gap.ids id = gap.heir ∧ gap.ids.countP (insideOpen id next) < left) := by
  have hmends := mending.mends hosts mem
  obtain rfl := hosts.named
  -- a successor that stays is asked as it is
  have hfound : ∀ next ∈ gap.ids, node.successor = some next → ∃ contact,
      node.stabilize net.surroundings =
        node.ask contact .predecessor (.predecessorAsked next contact) ∧
      node.resolve net.surroundings next = some contact := by
    intro next hnext hholds
    obtain ⟨peer, target, htarget, -⟩ := mending.hosts next hnext
    obtain ⟨contact, hcontact, -⟩ := hosts.exists_contact htarget
    exact ⟨contact, Node.stabilize_found hholds hcontact, hcontact⟩
  rcases hmends.ahead with hsettled | ⟨hleads, ⟨hlost, hleft⟩ | ⟨next, hnext, hholds, hless⟩⟩
  · have hnext := nextOf_mem mem node.id
    obtain ⟨contact, hasks, hcontact⟩ := hfound _ hnext hsettled
    exact ⟨node, contact, _, hasks, rfl, hmends, hsettled, hcontact, hnext, Or.inl rfl⟩
  · obtain ⟨fingers, next, contact, hasks, hspec⟩ :=
      Node.stabilize_lost hlost (mending.resolve_lost hosts)
    have hnext : next ∈ gap.ids := by
      rcases hspec.origin with hself | ⟨hknows, slot, hget⟩
      · exact hself ▸ mem
      · refine (hmends.routes slot next hget).resolve_right fun hunknown => ?_
        rw [knows_surroundings, mending.directory, hunknown] at hknows
        cases hknows
    have hfew := Nat.lt_of_lt_of_le (countP_insideOpen_lt_length mem next) hleft
    exact ⟨{ node with fingers := fingers }, contact, next, hasks, rfl,
      hmends.exchange hleads hnext hspec.successor hfew hspec.routing, hspec.successor,
      hspec.resolves, hnext, Or.inr ⟨hleads, hfew⟩⟩
  · obtain ⟨contact, hasks, hcontact⟩ := hfound next hnext hholds
    exact ⟨node, contact, next, hasks, rfl, hmends, hholds, hcontact, hnext, Or.inr ⟨hleads, hless⟩⟩

/-- The second half of successor repair at a node that holds the right successor. -/
theorem keep (mending : net.Mending gap left false) (mem : id ∈ gap.ids)
    (hosts : net.Hosts id handle node) (holds : node.successor = some (nextOf gap.ids id))
    (asked : net.Hosts (nextOf gap.ids id) (contact.at handle) target)
    (answered : net.tasks[number]? = some ⟨.client [], .knownId, .answer (.ok target.predecessor),
      .frame handle (.predecessorAsked (nextOf gap.ids id) contact) .root⟩) :
    ∃ after, Onward number net after ∧ after.tasks[number]? = none ∧
      after.endings[number]? = some ⟨.nothing, .ok ()⟩ ∧ after.Mending gap left false ∧
      (nextOf gap.ids id = gap.heir → after.Mending gap (left - 1) false) := by
  have hnext := nextOf_mem mem id
  have hbehind := (mending.mends asked hnext).behind
  have hprevious := previousOf_nextOf gap.ascending mem
  rw [asked.named] at hbehind
  -- the successor knows the node itself as predecessor, or nobody
  have hnobody : ∀ before, target.predecessor = some before →
      ¬ insideOpen node.id (nextOf gap.ids id) before = true := by
    intro before hbefore
    rw [hbefore, beforeOf?, hprevious] at hbehind
    have hself : before = id := by
      rcases hbehind with hsettled | ⟨-, -, hnone | ⟨hstale, -⟩⟩
      · split at hsettled
        · cases hsettled
        · exact Option.some.inj hsettled
      · cases hnone
      · cases hstale
    rw [hosts.named, hself, insideOpen_iff]
    exact fun h => h.1 rfl
  obtain ⟨after, hon, hnone, hending, hcases⟩ :=
    onward_keep hosts.stands.nodeAt? asked.stands hnobody answered
  refine ⟨after, hon, hnone, hending, ?_⟩
  rw [hosts.named] at hcases
  rcases hcases with ⟨hself, halike⟩ | ⟨hother, htold⟩
  · -- the node is the only one that stays
    have hafter := mending.alike halike
    refine ⟨hafter, fun hleads => hafter.lower mem hleads (hosts.alike halike)
      (Or.inl ⟨by rw [holds, hleads], contact.at handle, target, ?_, ?_⟩)⟩
    · exact hleads ▸ asked.alike halike
    · have halone := beforeOf?_of_alone gap.ascending mem hself
      rw [← hleads, hself, halone]
      rw [hself, halone] at hbehind
      rcases hbehind with hnone | ⟨-, -, hnone | ⟨hstale, -⟩⟩
      · exact hnone
      · exact hnone
      · cases hstale
  · obtain ⟨hafter, hstay, later, hlater, hright⟩ :=
      mending.tell mem hnext asked hother (fun hleads => hleads) htold
    refine ⟨hafter, fun hleads => hafter.lower mem hleads
      (hstay id handle node (Ne.symm hother) hosts) (Or.inl ⟨by rw [holds, hleads], ?_⟩)⟩
    rw [hleads] at hlater hright
    exact ⟨_, later, hlater, hright⟩

/-- The second half of successor repair at a node that holds a node farther away than the heir: it
adopts the one before. -/
theorem adopt (mending : net.Mending gap left false) (mem : id ∈ gap.ids)
    (hosts : net.Hosts id handle node) (holds : node.successor = some next) (hnext : next ∈ gap.ids)
    (leads : nextOf gap.ids id = gap.heir) (beyond : next ≠ gap.heir)
    (less : gap.ids.countP (insideOpen id next) < left)
    (asked : net.Hosts next (contact.at handle) target)
    (answered : net.tasks[number]? = some ⟨.client [], .knownId, .answer (.ok target.predecessor),
      .frame handle (.predecessorAsked next contact) .root⟩) :
    ∃ after, Onward number net after ∧ after.tasks[number]? = none ∧
      after.endings[number]? = some ⟨.nothing, .ok ()⟩ ∧ after.Mending gap (left - 1) false := by
  have hmends := mending.mends hosts mem
  obtain rfl := hosts.named
  have hbefore : target.predecessor = some (previousOf gap.ids next) := by
    have hbehind := (mending.mends asked hnext).behind
    rw [asked.named, beforeOf?_of_ne gap.heir_mem (Ne.symm beyond)] at hbehind
    exact hbehind.resolve_right fun h => beyond h.1
  have hmem := previousOf_mem hnext next
  have hother : previousOf gap.ids next ≠ node.id := by
    intro hself
    rw [← leads, ← hself, nextOf_previousOf gap.ascending hnext] at beyond
    exact beyond rfl
  have hbetween := insideOpen_previousOf gap.ascending mem hother
  have hnearer : gap.ids.countP (insideOpen node.id (previousOf gap.ids next)) < left - 1 := by
    have hless := countP_insideOpen_end_lt hmem hbetween
    omega
  obtain ⟨peer, adopted, hadopted, -⟩ := mending.hosts _ hmem
  obtain ⟨closer, hcloser, hat⟩ := hosts.exists_contact hadopted
  obtain ⟨after, fingers, hon, hnone, hending, hadopts, hslots, htold⟩ :=
    onward_adopt hosts.stands.nodeAt? holds hbefore hbetween hcloser
      hat.stands answered
  refine ⟨after, hon, hnone, hending, ?_⟩
  let adopting : Node := { node with fingers := fingers }
  have hnamed : adopting.id = node.id := rfl
  have hadopting : adopting.Mends gap left false :=
    hmends.exchange leads hmem hadopts (Nat.lt_of_lt_of_le hnearer (Nat.sub_le left 1))
      fun slot _ hslot hget => (hslots slot hslot).symm.trans hget
  -- the adopted node is told, and if it is the heir it accepts
  have hchanged := mending.setNode hosts hnamed hadopting
  obtain ⟨hafter, hstay, later, hlater, hright⟩ := hchanged.tell mem hmem
    (hat.setNode_of_ne hosts (Ne.symm hother) adopting) hother (fun _ => leads) htold
  have hsame := hstay node.id handle adopting (Ne.symm hother) (hosts.setNode_self hnamed)
  refine hafter.lower mem leads hsame ?_
  by_cases hheir : previousOf gap.ids next = gap.heir
  · rw [hheir] at hadopts hlater hright
    exact Or.inl ⟨hadopts, _, later, hlater, hright⟩
  · exact Or.inr ⟨_, hmem, hadopts, hnearer⟩

/-- Successor repair ends well at every node that stays.  It keeps the pointers within the bounds,
and at the node before the heir it leaves one repair less. -/
theorem stabilize (mending : net.Mending gap left false) (mem : id ∈ gap.ids)
    (hosts : net.Hosts id handle node) : ∃ after, net.Completes handle .stabilize after ∧
      after.endings[net.nextTask]? = some ⟨.nothing, .ok ()⟩ ∧
      (nextOf gap.ids id ≠ gap.heir → after.Mending gap left false) ∧
      (nextOf gap.ids id = gap.heir → after.Mending gap (left - 1) false) := by
  obtain ⟨reached, contact, next, hasks, hnamed, hmends, hholds, hcontact, hnext, hway⟩ :=
    mending.reach mem hosts
  have hreached := mending.setNode hosts hnamed hmends
  have hself := hosts.setNode_self hnamed
  obtain ⟨peer, target, htarget, -⟩ := hreached.hosts next hnext
  obtain ⟨twin, htwin, hasked⟩ := hself.exists_contact htarget
  obtain rfl : contact = twin := by
    rw [surroundings_setNode] at htwin
    exact Option.some.inj (hcontact.symm.trans htwin)
  obtain ⟨learned, hon, halike, htask⟩ :=
    onward_learn hosts.stands.nodeAt? hasks hasked.stands
  have hlearned := hreached.alike halike
  have hstands := hself.alike halike
  by_cases hsettled : next = nextOf gap.ids id
  · subst hsettled
    obtain ⟨after, hon', hnone, hending, hkeeps, hlowers⟩ :=
      hlearned.keep mem hstands hholds (hasked.alike halike) htask
    exact ⟨after, ⟨onward_trans hon hon', hnone⟩, hending, fun _ => hkeeps, hlowers⟩
  · obtain ⟨hleads, hless⟩ := hway.resolve_left hsettled
    obtain ⟨after, hon', hnone, hending, hlowers⟩ := hlearned.adopt mem hstands hholds hnext hleads
      (fun h => hsettled (h.trans hleads.symm)) hless (hasked.alike halike) htask
    exact ⟨after, ⟨onward_trans hon hon', hnone⟩, hending, fun hother => absurd hleads hother,
      fun _ => hlowers⟩

end Mending

/-! ## Closed rings -/

/-- The identifiers form a ring in which every node also knows its predecessor, unless it is the
only one.  The routing slots are arbitrary, except that an identifier outside the ring leads
nowhere. -/
structure ClosedRing (net : Network) (ids : List Token) : Prop extends net.SuccessorRing ids where
  before : ∀ id ∈ ids, ∀ handle member, net.Serves id handle member →
    member.node.predecessor = beforeOf? ids id

/-- A ring that is through with mending is closed. -/
theorem Mending.closed (mending : net.Mending gap 0 false) : net.ClosedRing gap.ids where
  ascending := gap.ascending
  serves id mem := by
    obtain ⟨handle, node, hhosts, hroutes, hahead, -⟩ := mending.hosts id mem
    obtain ⟨member, hserves, rfl⟩ := hhosts.serves
    rw [hserves.named] at hahead
    rcases hahead with hsettled | ⟨-, ⟨-, hfew⟩ | ⟨next, -, -, hless⟩⟩
    · exact ⟨handle, member, hserves, hsettled, by rw [mending.directory]; exact hroutes⟩
    · exact absurd (List.length_pos_of_mem mem) (Nat.not_lt.2 hfew)
    · exact absurd hless (Nat.not_lt_zero _)
  before id mem handle member serves := by
    have hbehind := (mending.mends serves.hosts mem).behind
    rw [serves.named] at hbehind
    exact hbehind.resolve_right fun h => h.2.1 rfl

/-- What a node of a closed ring leaves behind. -/
def departureOf (ring : net.ClosedRing ids) (several : 2 ≤ ids.length) (leaves : gone ∈ ids) :
    Departure where
  ids := ids.erase gone
  heir := nextOf ids gone
  lost := gone
  directory := (net.unregister gone).directory
  ascending := ring.ascending.erase gone
  heir_mem := by
    obtain ⟨c, hc, hne⟩ := exists_ne ring.ascending several gone
    exact (mem_erase_iff ring.ascending).2
      ⟨nextOf_ne ring.ascending hc hne, nextOf_mem leaves gone⟩
  departed := Std.TreeMap.getElem?_erase_self

theorem getElem?_unregister (net : Network) (gone id : Token) :
    (net.unregister gone).directory[id]? = if gone = id then none else net.directory[id]? := by
  simp [unregister, Std.TreeMap.getElem?_erase]

/-- When a node leaves a closed ring, the pointers of the others are off by as many repairs as there
are other nodes. -/
theorem ClosedRing.mending (ring : net.ClosedRing ids) (several : 2 ≤ ids.length)
    (leaves : gone ∈ ids) :
    (net.unregister gone).Mending (departureOf ring several leaves) (ids.erase gone).length true := by
  refine ⟨rfl, fun id mem => ?_⟩
  obtain ⟨hne, hmem⟩ := (mem_erase_iff ring.ascending).1 mem
  obtain ⟨handle, member, hserves, hsucc, hroutes⟩ := ring.serves id hmem
  obtain rfl := hserves.named
  have hbefore := ring.before _ hmem handle member hserves
  rw [beforeOf?_of_ne leaves (Ne.symm hne)] at hbefore
  refine ⟨handle, member.node, ⟨?_, ⟨member, hserves.stands, rfl, hserves.clear⟩, rfl⟩, ?_, ?_, ?_⟩
  · rw [getElem?_unregister, if_neg (Ne.symm hne)]
    exact hserves.listed
  · intro slot finger hget
    show finger ∈ ids.erase gone ∨ (net.unregister gone).directory[finger]? = none
    rw [mem_erase_iff ring.ascending, getElem?_unregister]
    by_cases hgone : gone = finger
    · exact Or.inr (if_pos hgone)
    · rw [if_neg hgone]
      exact (hroutes slot finger hget).imp_left fun h => ⟨Ne.symm hgone, h⟩
  · by_cases hlost : nextOf ids member.node.id = gone
    · exact Or.inr ⟨nextOf_erase_of_eq ring.ascending hmem hne hlost,
        Or.inl ⟨by rw [hsucc, hlost]; rfl, Nat.le_refl _⟩⟩
    · exact Or.inl (by rw [hsucc]; exact congrArg some (nextOf_erase ring.ascending hmem hlost).symm)
  · by_cases hlost : previousOf ids member.node.id = gone
    · have hheir := nextOf_previousOf ring.ascending hmem
      rw [hlost] at hheir
      exact Or.inr ⟨hheir.symm, Nat.ne_of_gt (List.length_pos_of_mem mem),
        Or.inr ⟨rfl, by rw [hbefore, hlost]; rfl⟩⟩
    · have hother := (mem_erase_iff ring.ascending).2 ⟨hlost, previousOf_mem hmem member.node.id⟩
      have halone := previousOf_ne ring.ascending leaves (Ne.symm hne)
      refine Or.inl (hbefore.trans ?_)
      rw [show (departureOf ring several leaves).ids = ids.erase gone from rfl,
        beforeOf?_of_ne hother halone, previousOf_erase ring.ascending hmem hlost hne]

/-! ## Recovery -/

/-- A round of calls reaches the nodes of the given identifiers and nobody else. -/
def Visits (net : Network) (ids : List Token) (round : List Handle) : Prop :=
  ∀ handle, handle ∈ round ↔ ∃ id ∈ ids, net.directory[id]? = some handle

/-- A pass of predecessor repair, and rounds of successor repair after it. -/
def recovery (pass : List Handle) (rounds : List (List Handle)) : List Call :=
  pass.map (fun handle => (handle, .fixPredecessor)) ++
    rounds.flatten.map fun handle => (handle, .stabilize)

theorem Mending.exists_hosts {operation : Operation .nothing} {call : Call} {calls : List Call}
    (mending : net.Mending gap left stale) (reaches : gap.Reaches operation (call :: calls)) :
    call.2 = operation ∧ gap.Reaches operation calls ∧
      ∃ id ∈ gap.ids, ∃ node, net.Hosts id call.1 node := by
  obtain ⟨hsame, id, mem, hlisted⟩ := reaches call (List.mem_cons_self ..)
  obtain ⟨handle, node, hhosts, -⟩ := mending.hosts id mem
  have hhandle := hhosts.listed
  rw [mending.directory, hlisted, Option.some.injEq] at hhandle
  exact ⟨hsame, fun later hmem => reaches later (List.mem_cons_of_mem _ hmem), id, mem, node,
    hhandle ▸ hhosts⟩

/-- A pass of predecessor repair is under way.  While the heir may hold the lost node, the call at
the heir is still to come. -/
def Passing (gap : Departure) (left : Nat) (at_heir : Handle) (calls : List Call) (net : Network) :
    Prop :=
  gap.Reaches .fixPredecessor calls ∧ ∃ stale, net.Mending gap left stale ∧
    (stale = true → (at_heir, .fixPredecessor) ∈ calls)

theorem Passing.step {call : Call} {calls : List Call}
    (at_heir : gap.directory[gap.heir]? = some handle)
    (passing : Passing gap left handle (call :: calls) net) : ∃ after,
      net.Completes call.1 call.2 after ∧
        after.endings[net.nextTask]? = some ⟨.nothing, .ok ()⟩ ∧
        Passing gap left handle calls after := by
  obtain ⟨hreaches, stale, hmending, hstale⟩ := passing
  obtain ⟨hsame, hlater, id, hid, node, hhosts⟩ := hmending.exists_hosts hreaches
  obtain ⟨after, hcompletes, hending, hafter⟩ := hmending.fixPredecessor hid hhosts
  rw [hsame]
  refine ⟨after, hcompletes, hending, hlater, _, hafter, fun hflag => ?_⟩
  rw [Bool.and_eq_true, decide_eq_true_eq] at hflag
  refine (List.mem_cons.1 (hstale hflag.1)).resolve_left fun hcall => ?_
  obtain ⟨peer, heir, hheir, -⟩ := hmending.hosts _ gap.heir_mem
  have hpeer := hheir.listed
  rw [hmending.directory, at_heir, Option.some.injEq] at hpeer
  exact hhosts.handle_ne hheir hflag.2 ((congrArg Prod.fst hcall).symm.trans hpeer)

/-- After a pass of predecessor repair that reaches the heir, nobody holds the lost node as
predecessor. -/
theorem Mending.pass {calls : List Call} (mending : net.Mending gap left true)
    (reaches : gap.Reaches .fixPredecessor calls) (at_heir : gap.directory[gap.heir]? = some handle)
    (mem : (handle, .fixPredecessor) ∈ calls) :
    (∃ endings after, Series net calls endings after) ∧
    ∀ endings after, Series net calls endings after →
      (∀ ending ∈ endings, ending = ⟨.nothing, .ok ()⟩) ∧ after.Mending gap left false := by
  have hstart : Passing gap left handle calls net := ⟨reaches, true, mending, fun _ => mem⟩
  obtain ⟨hexists, hall⟩ := Series.carry
    (fun h hstill => ⟨h.1, h.2.imp fun stale h' => ⟨h'.1.still hstill, h'.2⟩⟩)
    (fun passing => passing.step at_heir) hstart
  refine ⟨hexists, fun endings after series => ?_⟩
  obtain ⟨hgood, -, stale, hafter, hstale⟩ := hall endings after series
  cases stale with
  | false => exact ⟨hgood, hafter⟩
  | true => exact absurd (hstale rfl) List.not_mem_nil

/-- Rounds of successor repair are under way.  Enough calls at the node before the heir are still to
come. -/
def Closing (gap : Departure) (at_orphan : Handle) (calls : List Call) (net : Network) : Prop :=
  gap.Reaches .stabilize calls ∧ ∃ left, net.Mending gap left false ∧
    left ≤ calls.countP fun call => call.1 = at_orphan

theorem Closing.step {call : Call} {calls : List Call} (mem : a ∈ gap.ids)
    (leads : nextOf gap.ids a = gap.heir) (at_orphan : gap.directory[a]? = some handle)
    (closing : Closing gap handle (call :: calls) net) : ∃ after,
      net.Completes call.1 call.2 after ∧
        after.endings[net.nextTask]? = some ⟨.nothing, .ok ()⟩ ∧ Closing gap handle calls after := by
  obtain ⟨hreaches, left, hmending, hleft⟩ := closing
  obtain ⟨hsame, hlater, id, hid, node, hhosts⟩ := hmending.exists_hosts hreaches
  obtain ⟨after, hcompletes, hending, hkeeps, hlowers⟩ := hmending.stabilize hid hhosts
  rw [hsame]
  refine ⟨after, hcompletes, hending, hlater, ?_⟩
  obtain ⟨peer, orphan, horphan, -⟩ := hmending.hosts a mem
  have hpeer := horphan.listed
  rw [hmending.directory, at_orphan, Option.some.injEq] at hpeer
  subst hpeer
  rw [List.countP_cons] at hleft
  by_cases hcall : id = a
  · rw [hcall] at hlowers
    exact ⟨left - 1, hlowers leads, by split at hleft <;> omega⟩
  · have hother := hhosts.handle_ne horphan hcall
    rw [if_neg (by simpa using hother)] at hleft
    refine ⟨left, hkeeps fun hnext => hcall ?_, hleft⟩
    exact eq_of_nextOf_eq gap.ascending hid mem (hnext.trans leads.symm)

/-- As many calls of successor repair at the node before the heir as are left close the ring. -/
theorem Mending.rounds {calls : List Call} (mending : net.Mending gap left false)
    (reaches : gap.Reaches .stabilize calls) (mem : a ∈ gap.ids) (leads : nextOf gap.ids a = gap.heir)
    (at_orphan : gap.directory[a]? = some handle)
    (enough : left ≤ calls.countP fun call => call.1 = handle) :
    (∃ endings after, Series net calls endings after) ∧
    ∀ endings after, Series net calls endings after →
      (∀ ending ∈ endings, ending = ⟨.nothing, .ok ()⟩) ∧ after.ClosedRing gap.ids := by
  have hstart : Closing gap handle calls net := ⟨reaches, left, mending, enough⟩
  obtain ⟨hexists, hall⟩ := Series.carry
    (fun h hstill => ⟨h.1, h.2.imp fun left h' => ⟨h'.1.still hstill, h'.2⟩⟩)
    (fun closing => closing.step mem leads at_orphan) hstart
  refine ⟨hexists, fun endings after series => ?_⟩
  obtain ⟨hgood, -, left, hafter, hleft⟩ := hall endings after series
  obtain rfl : left = 0 := Nat.le_zero.1 hleft
  exact ⟨hgood, hafter.closed⟩

theorem length_le_countP {rounds : List (List Handle)} (full : ∀ round ∈ rounds, handle ∈ round)
    {operation : Operation .nothing} : rounds.length ≤
      (rounds.flatten.map fun handle => ((handle, operation) : Call)).countP
        fun call => call.1 = handle := by
  induction rounds with
  | nil => exact Nat.le_refl _
  | cons round rest ih =>
      have hrest := ih fun later hmem => full later (List.mem_cons_of_mem _ hmem)
      have hfirst : 0 < (round.map fun handle => ((handle, operation) : Call)).countP
          fun call => call.1 = handle :=
        List.countP_pos_iff.2 ⟨(handle, operation),
          List.mem_map.2 ⟨handle, full round (List.mem_cons_self ..), rfl⟩, by simp⟩
      rw [List.flatten_cons, List.map_append, List.countP_append, List.length_cons]
      omega

section Rounds

variable (ring : net.ClosedRing ids) (several : 2 ≤ ids.length) (leaves : gone ∈ ids)

include ring

theorem getElem?_unregister_of_mem (mem : id ∈ ids.erase gone) :
    (net.unregister gone).directory[id]? = net.directory[id]? := by
  rw [getElem?_unregister, if_neg (Ne.symm ((mem_erase_iff ring.ascending).1 mem).1)]

/-- Calls at the handles of nodes that stay are made at nodes that stay. -/
theorem departureOf_reaches {handles : List Handle}
    (reach : ∀ handle ∈ handles, ∃ id ∈ ids.erase gone, net.directory[id]? = some handle)
    (operation : Operation .nothing) : (departureOf ring several leaves).Reaches operation
      (handles.map fun handle => (handle, operation)) := by
  intro call hcall
  obtain ⟨handle, hhandle, rfl⟩ := List.mem_map.1 hcall
  obtain ⟨id, hid, hlisted⟩ := reach handle hhandle
  exact ⟨rfl, id, hid, (getElem?_unregister_of_mem ring hid).trans hlisted⟩

/-- A node that stays is reached in every round. -/
theorem exists_handle_of_visits (mem : id ∈ ids.erase gone) : ∃ handle,
    (net.unregister gone).directory[id]? = some handle ∧
      ∀ round, net.Visits (ids.erase gone) round → handle ∈ round := by
  obtain ⟨handle, member, hserves, -⟩ := ring.serves id ((mem_erase_iff ring.ascending).1 mem).2
  exact ⟨handle, (getElem?_unregister_of_mem ring mem).trans hserves.listed,
    fun round hround => (hround handle).2 ⟨id, mem, hserves.listed⟩⟩

end Rounds

/-- When any node leaves a closed ring of at least two, one pass of predecessor repair and as many
rounds of successor repair as there were nodes, in any order within each round, all end well and
leave the closed ring of the others. -/
theorem departure_closes (ring : net.ClosedRing ids) (several : 2 ≤ ids.length) (leaves : gone ∈ ids)
    {pass : List Handle} {rounds : List (List Handle)} (repairs : net.Visits (ids.erase gone) pass)
    (full : ∀ round ∈ rounds, net.Visits (ids.erase gone) round)
    (enough : ids.length ≤ rounds.length) :
    (∃ endings after, Series (net.unregister gone) (recovery pass rounds) endings after) ∧
    ∀ endings after, Series (net.unregister gone) (recovery pass rounds) endings after →
      (∀ ending ∈ endings, ending = ⟨.nothing, .ok ()⟩) ∧ after.ClosedRing (ids.erase gone) := by
  let gap := departureOf ring several leaves
  have hmending : (net.unregister gone).Mending gap (ids.erase gone).length true :=
    ring.mending several leaves
  -- the two nodes that miss the lost one
  have horphan := previousOf_mem gap.heir_mem gap.heir
  have hleads := nextOf_previousOf gap.ascending gap.heir_mem
  obtain ⟨at_heir, hheir, hpassed⟩ := exists_handle_of_visits ring gap.heir_mem
  obtain ⟨at_orphan, hlisted, hrounded⟩ := exists_handle_of_visits ring horphan
  obtain ⟨⟨first, mid, hfirst⟩, hmid⟩ := hmending.pass
    (departureOf_reaches ring several leaves (fun handle => (repairs handle).1) .fixPredecessor)
    hheir (List.mem_map.2 ⟨at_heir, hpassed pass repairs, rfl⟩)
  have hrounds : gap.Reaches .stabilize (rounds.flatten.map fun handle => (handle, .stabilize)) :=
    departureOf_reaches ring several leaves (fun handle hmem => by
      obtain ⟨round, hround, hin⟩ := List.mem_flatten.1 hmem
      exact (full round hround handle).1 hin) .stabilize
  have hleft : (ids.erase gone).length ≤
      (rounds.flatten.map fun handle => ((handle, .stabilize) : Call)).countP
        fun call => call.1 = at_orphan := by
    refine Nat.le_trans ?_ (length_le_countP fun round hround => hrounded round (full round hround))
    exact Nat.le_trans (List.length_erase_le) enough
  constructor
  · obtain ⟨⟨rest, after, hrest⟩, -⟩ :=
      (hmid first mid hfirst).2.rounds hrounds horphan hleads hlisted hleft
    exact ⟨_, after, hfirst.append hrest⟩
  · intro endings after series
    obtain ⟨between, before, rest, rfl, hbefore, hrest⟩ := series.split
    obtain ⟨hgood, hbetween⟩ := hmid before between hbefore
    obtain ⟨-, hall⟩ := hbetween.rounds hrounds horphan hleads hlisted hleft
    obtain ⟨hgood', hafter⟩ := hall rest after hrest
    exact ⟨fun ending hmem => (List.mem_append.1 hmem).elim (hgood ending) (hgood' ending), hafter⟩

/-- A member of a closed ring of several, which also knows the node before it as a finger. -/
def closedMember (ids : List Token) (id : Token) : Member where
  node :=
    { Node.fresh id (Store.empty none) Config.standard with
      fingers := (Fingers.empty.set Fingers.successorSlot (some (nextOf ids id))).set
        ⟨62, by decide⟩ (some (previousOf ids id))
      predecessor := some (previousOf ids id)
      lifecycle := .stable }
  link := Link.clear
  storeDelay := StoreDelay.zero
  outbox := []
  sending := false

theorem successor_closedMember (ids : List Token) (id : Token) :
    (closedMember ids id).node.successor = some (nextOf ids id) := by
  simp only [Node.successor, Fingers.successor, closedMember]
  rw [Fingers.get_set, if_neg (by decide), Fingers.get_set, if_pos rfl]

theorem routes_closedMember (mem : id ∈ ids) {slot : Fin keyBits} {finger : Token}
    (holds : (closedMember ids id).node.fingers.get slot = some finger) : finger ∈ ids := by
  simp only [closedMember, Fingers.get_set, Fingers.get_empty] at holds
  split at holds
  · exact Option.some.inj holds ▸ previousOf_mem mem id
  · split at holds
    · exact Option.some.inj holds ▸ nextOf_mem mem id
    · cases holds

/-- The identifiers of a closed ring of four. -/
def closedIds : List Token := [10, 20, 30, 40].map Token.wrapping

/-- A closed ring of four nodes.  When the second one leaves, the first restarts from the last. -/
def closedFour : Network :=
  { Network.empty with
    endpoints := (closedIds.map fun id => .member (closedMember closedIds id)).toArray
    directory := Std.TreeMap.ofList (closedIds.zip [0, 1, 2, 3]) }

theorem serves_closedFour (index : Fin 4) : closedFour.Serves (closedIds.get index) index.val
    (closedMember closedIds (closedIds.get index)) := by
  refine ⟨?_, ?_, rfl, rfl⟩
  · revert index
    decide
  · match index with
    | 0 => rfl
    | 1 => rfl
    | 2 => rfl
    | 3 => rfl

theorem closedRing_closedFour : closedFour.ClosedRing closedIds where
  ascending := by decide
  serves id mem := by
    obtain ⟨index, rfl⟩ := List.get_of_mem mem
    exact ⟨index.val, _, serves_closedFour index, successor_closedMember ..,
      fun slot finger hget => Or.inl (routes_closedMember mem hget)⟩
  before id mem handle member serves := by
    obtain ⟨index, rfl⟩ := List.get_of_mem mem
    obtain ⟨-, rfl⟩ := serves.unique (serves_closedFour index)
    exact (if_neg (by simp [closedIds])).symm

theorem visits_closedFour {round : List Handle} (reached : round.Perm [0, 2, 3]) :
    closedFour.Visits (closedIds.erase (Token.wrapping 20)) round := by
  intro handle
  rw [reached.mem_iff, show closedIds.erase (Token.wrapping 20) = [10, 30, 40].map Token.wrapping by decide]
  simp only [List.map_cons, List.map_nil, List.mem_cons, List.not_mem_nil, or_false,
    exists_eq_or_imp, exists_eq_left]
  rw [show closedFour.directory[Token.wrapping 10]? = some 0 by decide,
    show closedFour.directory[Token.wrapping 30]? = some 2 by decide,
    show closedFour.directory[Token.wrapping 40]? = some 3 by decide]
  simp only [Option.some.injEq, eq_comm]

/-- The ring of four closes again without its second node. -/
theorem closedFour_closes : ∃ endings after,
    Series (closedFour.unregister (Token.wrapping 20))
      (recovery [0, 2, 3] (List.replicate 4 [3, 0, 2])) endings after ∧
    (∀ ending ∈ endings, ending = ⟨.nothing, .ok ()⟩) ∧
    after.ClosedRing ([10, 30, 40].map Token.wrapping) := by
  obtain ⟨⟨endings, after, hseries⟩, hall⟩ := departure_closes closedRing_closedFour (by decide)
    (show Token.wrapping 20 ∈ closedIds by decide) (visits_closedFour (List.Perm.refl _))
    (fun round hround => visits_closedFour (List.eq_of_mem_replicate hround ▸ by decide))
    (show closedIds.length ≤ (List.replicate 4 [3, 0, 2]).length by decide)
  exact ⟨endings, after, hseries, hall endings after hseries⟩

end Network

end RecordRing
