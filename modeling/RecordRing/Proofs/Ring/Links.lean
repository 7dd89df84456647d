import RecordRing.Proofs.Distance
import RecordRing.Proofs.Network.Members

/-!
# Links between the nodes of a ring

While nodes join a ring, their successors form a tree of paths that all end in the ring of the
founder.  `Ring` is what holds of the pointers at all times: a successor is nearer to the founder
than the node, except at the founder itself, and a node leads to every node whose predecessor it is.

A node may overwrite its pointers in a few ways (`Change`), each of which keeps the ring and every
path in it (`Ring.setNode`).

## Implementation notes

A path never passes the founder, so the distance to the founder shrinks along it.  This is what keeps
a path from coming back to the node whose successor changes.
-/

namespace RecordRing

namespace Network

variable {net after : Network} {founder a b c : Token} {handle : Handle} {old new node : Node}

/-! ## Pointers by identifier -/

/-- The identifier of the node at a handle. -/
def idAt? (net : Network) (handle : Handle) : Option Token := (net.nodeAt? handle).map Node.id

/-- One identifier is the successor at another. -/
def Linked (net : Network) (a b : Token) : Prop :=
  ∃ handle node, net.nodeAt? handle = some node ∧ node.id = a ∧ node.successor = some b

/-- One identifier is the predecessor at another. -/
def Precedes (net : Network) (a b : Token) : Prop :=
  ∃ handle node, net.nodeAt? handle = some node ∧ node.id = b ∧ node.predecessor = some a

/-- The node of an identifier knows its successor. -/
def Joined (net : Network) (a : Token) : Prop := ∃ b, net.Linked a b

/-- The directory knows an identifier. -/
def Registered (net : Network) (a : Token) : Prop := ∃ handle, net.directory[a]? = some handle

/-- Successors lead from one identifier to another without passing the founder. -/
inductive Leads (founder : Token) (net : Network) : Token → Token → Prop where
  | link {a b : Token} (linked : net.Linked a b) : Leads founder net a b
  | step {a b c : Token} (linked : net.Linked a b) (passes : b ≠ founder)
      (rest : Leads founder net b c) : Leads founder net a c

theorem idAt?_eq_some : net.idAt? handle = some a ↔
    ∃ node, net.nodeAt? handle = some node ∧ node.id = a := by
  simp [idAt?]

theorem exists_idAt?_iff {id : Token} : (∃ handle, net.idAt? handle = some id) ↔
    id ∈ (List.range net.endpoints.size).filterMap net.idAt? := by
  simp only [List.mem_filterMap, List.mem_range]
  constructor
  · rintro ⟨handle, hid⟩
    obtain ⟨node, hfound, -⟩ := idAt?_eq_some.1 hid
    exact ⟨handle, lt_size_of_nodeAt? hfound, hid⟩
  · rintro ⟨handle, -, hid⟩
    exact ⟨handle, hid⟩

theorem idAt?_of_nodeAt? (h : net.nodeAt? handle = some node) : net.idAt? handle = some node.id := by
  rw [idAt?, h, Option.map_some]

theorem linked_of_nodeAt? (h : net.nodeAt? handle = some node) (next : node.successor = some b) :
    net.Linked node.id b :=
  ⟨handle, node, h, rfl, next⟩

theorem precedes_of_nodeAt? (h : net.nodeAt? handle = some node)
    (before : node.predecessor = some a) : net.Precedes a node.id :=
  ⟨handle, node, h, rfl, before⟩

theorem Leads.joined (h : net.Leads founder a b) : net.Joined a := by
  cases h with
  | link linked => exact ⟨_, linked⟩
  | step linked passes rest => exact ⟨_, linked⟩

theorem Leads.trans (h : net.Leads founder a b) (passes : b ≠ founder)
    (h' : net.Leads founder b c) : net.Leads founder a c := by
  induction h with
  | link linked => exact .step linked passes h'
  | step linked passes' rest ih => exact .step linked passes' (ih passes h')

end Network

/-! ## The ring -/

/-- What a node of a ring knows on its own: the founder is stable from the start, and any other node
takes its records over from a node nearer to the founder. -/
structure Node.Settled (founder : Token) (node : Node) : Prop where
  cursor : 1 ≤ node.cursor
  fresh : node.id = founder → node.successor = none → node.lifecycle = .joining
  stable : node.id = founder → node.successor ≠ none →
    node.lifecycle = .stable ∧ node.migrationSource = none
  source : node.id ≠ founder → node.lifecycle ≠ .joining →
    ∃ source, node.migrationSource = some source ∧ source.gap founder < node.id.gap founder

theorem Node.successor_fresh (id : Token) (store : Store) (config : Config) :
    (Node.fresh id store config).successor = none := by
  rw [Node.successor, Fingers.successor, Node.fresh, Fingers.get_empty]

namespace Network

variable {net after : Network} {founder a b c next : Token} {handle : Handle} {old new node : Node}

/-- What holds of the pointers and the directory while nodes join the ring of a founder. -/
structure Ring (founder : Token) (net : Network) : Prop where
  members : ∀ handle, net.script? handle = none
  clear : ∀ handle member, net.member? handle = some member → member.link.faults = []
  distinct : ∀ handle other id, net.idAt? handle = some id → net.idAt? other = some id →
    handle = other
  listed : ∀ (id : Token) handle, net.directory[id]? = some handle → net.idAt? handle = some id
  settled : ∀ handle node, net.nodeAt? handle = some node → node.Settled founder
  joined : ∀ a b, net.Linked a b → net.Joined b
  nearer : ∀ a b, net.Linked a b → a ≠ founder → b.gap founder < a.gap founder
  known : ∀ a b, net.Linked a b → a ≠ founder → net.Registered a ∧ net.Registered founder
  before : ∀ a b, net.Precedes a b → a ≠ b ∧ net.Leads founder a b

/-- Nothing that matters to the operations of a ring is ever lost. -/
structure Grows (founder : Token) (net after : Network) : Prop where
  stays : ∀ handle id, net.idAt? handle = some id → after.idAt? handle = some id
  registered : ∀ (id : Token) handle, net.directory[id]? = some handle →
    after.directory[id]? = some handle
  leads : ∀ a b, net.Leads founder a b → after.Leads founder a b

/-- A position that a node may take as its successor. -/
structure Heads (founder : Token) (net : Network) (node : Node) (next : Token) : Prop where
  joined : net.Joined next ∨ next = node.id
  nearer : node.id ≠ founder → next.gap founder < node.id.gap founder
  known : node.id ≠ founder → net.Registered node.id ∧ net.Registered founder
  detour : ∀ lost, node.successor = some lost → next ≠ founder ∧ net.Leads founder next lost

/-- A way in which a node may overwrite its pointers. -/
structure Change (founder : Token) (net : Network) (old new : Node) : Prop where
  id : new.id = old.id
  settled : new.Settled founder
  successor : new.successor = old.successor ∨
    ∃ next, new.successor = some next ∧ net.Heads founder old next
  predecessor : ∀ before, new.predecessor = some before →
    old.predecessor = some before ∨ before ≠ old.id ∧ net.Leads founder before old.id

namespace Ring

/-- A node has one successor. -/
theorem linked_iff (ring : net.Ring founder) (found : net.nodeAt? handle = some node) :
    net.Linked node.id b ↔ node.successor = some b := by
  constructor
  · rintro ⟨other, twin, hother, hid, hnext⟩
    have hsame := ring.distinct other handle node.id (idAt?_eq_some.2 ⟨twin, hother, hid⟩)
      (idAt?_of_nodeAt? found)
    rw [hsame, found] at hother
    rw [Option.some.inj hother, hnext]
  · exact fun hnext => linked_of_nodeAt? found hnext

theorem linked_inj (ring : net.Ring founder) (h : net.Linked a b) (h' : net.Linked a c) : b = c := by
  obtain ⟨handle, node, hfound, rfl, hnext⟩ := h
  rw [ring.linked_iff hfound, hnext] at h'
  exact Option.some.inj h'

theorem precedes_iff (ring : net.Ring founder) (found : net.nodeAt? handle = some node) :
    net.Precedes a node.id ↔ node.predecessor = some a := by
  constructor
  · rintro ⟨other, twin, hother, hid, hbefore⟩
    have hsame := ring.distinct other handle node.id (idAt?_eq_some.2 ⟨twin, hother, hid⟩)
      (idAt?_of_nodeAt? found)
    rw [hsame, found] at hother
    rw [Option.some.inj hother, hbefore]
  · exact fun hbefore => precedes_of_nodeAt? found hbefore

/-- The directory knows every node that has joined, apart from a founder on its own. -/
theorem registered (ring : net.Ring founder) (h : net.Joined a) (hne : a ≠ founder) :
    net.Registered a ∧ net.Registered founder := by
  obtain ⟨b, hlinked⟩ := h
  exact ring.known _ _ hlinked hne

/-! ## Changes of one node -/

variable {next : Token}

theorem nodeAt?_change (found : net.nodeAt? handle = some old) (other : Handle) :
    (net.setNode handle new).nodeAt? other =
      if handle = other then some new else net.nodeAt? other := by
  rw [nodeAt?_setNode]
  split
  · rename_i h
    rw [← h, found, Option.map_some]
  · rfl

theorem idAt?_change (found : net.nodeAt? handle = some old) (same : new.id = old.id)
    (other : Handle) : (net.setNode handle new).idAt? other = net.idAt? other := by
  rw [idAt?, nodeAt?_change found]
  split
  · rename_i h
    rw [← h, idAt?_of_nodeAt? found, Option.map_some, same]
  · rfl

/-- After a change every other node has the successor that it had. -/
theorem linked_change (ring : net.Ring founder) (found : net.nodeAt? handle = some old)
    (same : new.id = old.id) : (net.setNode handle new).Linked a b ↔
      if a = old.id then new.successor = some b else net.Linked a b := by
  have hat : ∀ other, (net.setNode handle new).nodeAt? other =
      if handle = other then some new else net.nodeAt? other := nodeAt?_change found
  split
  · rename_i h
    subst h
    constructor
    · rintro ⟨other, node, hother, hid, hnext⟩
      rw [hat] at hother
      split at hother
      · rw [Option.some.inj hother, hnext]
      · rename_i hne
        exact absurd (ring.distinct _ _ _ (idAt?_of_nodeAt? found)
          (idAt?_eq_some.2 ⟨node, hother, hid⟩)) hne
    · intro hnext
      exact ⟨handle, new, by rw [hat, if_pos rfl], same, hnext⟩
  · rename_i h
    constructor
    · rintro ⟨other, node, hother, hid, hnext⟩
      rw [hat] at hother
      split at hother
      · rw [← Option.some.inj hother, same] at hid
        exact absurd hid.symm h
      · exact ⟨other, node, hother, hid, hnext⟩
    · rintro ⟨other, node, hother, hid, hnext⟩
      refine ⟨other, node, ?_, hid, hnext⟩
      rw [hat, if_neg]
      · exact hother
      · rintro rfl
        rw [found] at hother
        exact h (by rw [← hid, Option.some.inj hother])

/-- A path that stays nearer to the founder than a node does not use the node's successor. -/
theorem leads_change_of_near (ring : net.Ring founder) (found : net.nodeAt? handle = some old)
    (same : new.id = old.id) (h : net.Leads founder a b) (ha : a ≠ founder)
    (near : old.id = founder ∨ a.gap founder < old.id.gap founder) :
    (net.setNode handle new).Leads founder a b := by
  have hkeeps : ∀ {x y}, x ≠ founder → (old.id = founder ∨ x.gap founder < old.id.gap founder) →
      net.Linked x y → (net.setNode handle new).Linked x y := by
    intro x y hx hnear hlinked
    rw [linked_change ring found same, if_neg]
    · exact hlinked
    · rintro rfl
      rcases hnear with hfounder | hless
      · exact hx hfounder
      · exact Nat.lt_irrefl _ hless
  induction h with
  | link linked => exact .link (hkeeps ha near linked)
  | step linked passes rest ih =>
      have hless := ring.nearer _ _ linked ha
      refine .step (hkeeps ha near linked) passes (ih passes ?_)
      exact near.imp_right fun h => Nat.lt_trans hless h

/-- Every path survives a change, possibly with a detour. -/
theorem leads_change (ring : net.Ring founder) (found : net.nodeAt? handle = some old)
    (change : net.Change founder old new) (h : net.Leads founder a b) :
    (net.setNode handle new).Leads founder a b := by
  -- it is enough that every single link survives as a path that ends like it
  have hlink : ∀ {x y}, net.Linked x y → (net.setNode handle new).Leads founder x y := by
    intro x y hlinked
    by_cases hx : x = old.id
    · subst hx
      have hlost := (ring.linked_iff found).1 hlinked
      rcases change.successor with hsame | ⟨next, hnext, hheads⟩
      · refine .link ((linked_change ring found change.id).2 ?_)
        rw [if_pos rfl, hsame, hlost]
      · obtain ⟨hne, hleads⟩ := hheads.detour y hlost
        have hfirst : (net.setNode handle new).Linked old.id next := by
          rw [linked_change ring found change.id, if_pos rfl, hnext]
        refine .step hfirst hne (leads_change_of_near ring found change.id hleads hne ?_)
        by_cases hfounder : old.id = founder
        · exact Or.inl hfounder
        · exact Or.inr (hheads.nearer hfounder)
    · refine .link ((linked_change ring found change.id).2 ?_)
      rw [if_neg hx]
      exact hlinked
  induction h with
  | link linked => exact hlink linked
  | step linked passes rest ih => exact (hlink linked).trans passes ih

/-- A change keeps the ring, and nothing is lost. -/
theorem setNode (ring : net.Ring founder) (found : net.nodeAt? handle = some old)
    (change : net.Change founder old new) :
    (net.setNode handle new).Ring founder ∧ net.Grows founder (net.setNode handle new) := by
  have hleads : ∀ a b, net.Leads founder a b → (net.setNode handle new).Leads founder a b :=
    fun _ _ h => leads_change ring found change h
  have hjoined : ∀ a, net.Joined a → (net.setNode handle new).Joined a := fun a ⟨b, hlinked⟩ =>
    (hleads a b (.link hlinked)).joined
  have hdir := directory_setNode net handle new
  have hreg : ∀ a, (net.setNode handle new).Registered a ↔ net.Registered a := fun a => by
    rw [Registered, Registered, hdir]
  -- a successor after the change is an old one or a position that the node may take
  have hcases : ∀ a b, (net.setNode handle new).Linked a b →
      net.Linked a b ∨ (a = old.id ∧ net.Heads founder old b) := by
    intro a b h
    rw [linked_change ring found change.id] at h
    split at h
    · rename_i ha
      subst ha
      rcases change.successor with hsame | ⟨next, hnext, hheads⟩
      · exact Or.inl ((ring.linked_iff found).2 (hsame ▸ h))
      · rw [hnext, Option.some.injEq] at h
        exact Or.inr ⟨rfl, h ▸ hheads⟩
    · exact Or.inl h
  refine ⟨⟨?_, ?_, ?_, ?_, ?_, ?_, ?_, ?_, ?_⟩, ?_, ?_, hleads⟩
  · intro other
    rw [script?_setNode]
    exact ring.members other
  · intro other member
    rw [member?_setNode]
    split
    · intro h
      obtain ⟨twin, htwin, rfl⟩ := Option.map_eq_some_iff.1 h
      exact ring.clear other twin htwin
    · exact ring.clear other member
  · intro first second id
    rw [idAt?_change found change.id, idAt?_change found change.id]
    exact ring.distinct first second id
  · intro id other
    rw [hdir, idAt?_change found change.id]
    exact ring.listed id other
  · intro other node
    rw [nodeAt?_change found]
    split
    · intro h
      rw [← Option.some.inj h]
      exact change.settled
    · exact ring.settled other node
  · intro a b h
    rcases hcases a b h with hold | ⟨rfl, hheads⟩
    · exact hjoined b (ring.joined a b hold)
    · rcases hheads.joined with hb | rfl
      · exact hjoined b hb
      · exact ⟨_, h⟩
  · intro a b h hne
    rcases hcases a b h with hold | ⟨rfl, hheads⟩
    · exact ring.nearer a b hold hne
    · exact hheads.nearer hne
  · intro a b h hne
    rw [hreg, hreg]
    rcases hcases a b h with hold | ⟨rfl, hheads⟩
    · exact ring.known a b hold hne
    · exact hheads.known hne
  · rintro a b ⟨other, node, hother, rfl, hbefore⟩
    rw [nodeAt?_change found] at hother
    split at hother
    · rw [← Option.some.inj hother, change.id]
      rw [← Option.some.inj hother] at hbefore
      rcases change.predecessor a hbefore with hold | ⟨hne, hnew⟩
      · obtain ⟨hne, h⟩ := ring.before a old.id (precedes_of_nodeAt? found hold)
        exact ⟨hne, hleads _ _ h⟩
      · exact ⟨hne, hleads _ _ hnew⟩
    · obtain ⟨hne, h⟩ := ring.before a node.id (precedes_of_nodeAt? hother hbefore)
      exact ⟨hne, hleads _ _ h⟩
  · intro other id h
    rw [idAt?_change found change.id]
    exact h
  · intro id other h
    rw [hdir]
    exact h

end Ring

/-! ## Networks with the same nodes -/

theorem Akin.idAt? (akin : net.Akin after) (handle : Handle) :
    after.idAt? handle = net.idAt? handle := by
  have h := congrArg (Option.map Node.id) (akin.nodes handle)
  rw [Option.map_map, Option.map_map] at h
  exact h

/-- A node of a network that is akin. -/
theorem Akin.nodeAt?_some (akin : net.Akin after) (found : after.nodeAt? handle = some new) :
    ∃ old, net.nodeAt? handle = some old ∧ new.bare = old.bare := by
  have h := akin.nodes handle
  rw [found, Option.map_some] at h
  obtain ⟨old, hold, hbare⟩ := Option.map_eq_some_iff.1 h.symm
  exact ⟨old, hold, hbare.symm⟩

theorem Akin.linked (akin : net.Akin after) (h : after.Linked a b) : net.Linked a b := by
  obtain ⟨handle, new, hfound, rfl, hnext⟩ := h
  obtain ⟨old, hold, hbare⟩ := akin.nodeAt?_some hfound
  have hid : new.bare.id = old.bare.id := by rw [hbare]
  have hsucc : new.bare.successor = old.bare.successor := by rw [hbare]
  exact ⟨handle, old, hold, hid.symm, hsucc ▸ hnext⟩

theorem Akin.precedes (akin : net.Akin after) (h : after.Precedes a b) : net.Precedes a b := by
  obtain ⟨handle, new, hfound, rfl, hbefore⟩ := h
  obtain ⟨old, hold, hbare⟩ := akin.nodeAt?_some hfound
  have hid : new.bare.id = old.bare.id := by rw [hbare]
  have hpred : new.bare.predecessor = old.bare.predecessor := by rw [hbare]
  exact ⟨handle, old, hold, hid.symm, hpred ▸ hbefore⟩

theorem Akin.leads (akin : net.Akin after) (h : after.Leads founder a b) : net.Leads founder a b := by
  induction h with
  | link linked => exact .link (akin.linked linked)
  | step linked passes rest ih => exact .step (akin.linked linked) passes ih

theorem Akin.registered (akin : net.Akin after) : after.Registered a ↔ net.Registered a := by
  rw [Registered, Registered, akin.directory]

/-- Records and locks do not matter to the ring. -/
theorem Ring.akin (ring : net.Ring founder) (akin : net.Akin after) :
    after.Ring founder ∧ net.Grows founder after := by
  have back := akin.symm
  refine ⟨⟨?_, ?_, ?_, ?_, ?_, ?_, ?_, ?_, ?_⟩, ?_, ?_, fun _ _ h => back.leads h⟩
  · intro handle
    rw [akin.scripts]
    exact ring.members handle
  · intro handle member h
    have hcore := akin.members handle
    rw [h, Option.map_some] at hcore
    obtain ⟨twin, htwin, hsame⟩ := Option.map_eq_some_iff.1 hcore.symm
    have hfaults : twin.link.faults = member.link.faults := congrArg Prod.snd hsame
    rw [← hfaults]
    exact ring.clear handle twin htwin
  · intro first second id
    rw [akin.idAt?, akin.idAt?]
    exact ring.distinct first second id
  · intro id handle
    rw [akin.directory, akin.idAt?]
    exact ring.listed id handle
  · intro handle new hfound
    obtain ⟨old, hold, hbare⟩ := akin.nodeAt?_some hfound
    have hsettled : old.bare.Settled founder := ⟨(ring.settled handle old hold).cursor,
      (ring.settled handle old hold).fresh, (ring.settled handle old hold).stable,
      (ring.settled handle old hold).source⟩
    rw [← hbare] at hsettled
    exact ⟨hsettled.cursor, hsettled.fresh, hsettled.stable, hsettled.source⟩
  · intro a b h
    obtain ⟨c, hlinked⟩ := ring.joined a b (akin.linked h)
    exact ⟨c, back.linked hlinked⟩
  · exact fun a b h => ring.nearer a b (akin.linked h)
  · intro a b h hne
    rw [akin.registered, akin.registered]
    exact ring.known a b (akin.linked h) hne
  · intro a b h
    obtain ⟨hne, hleads⟩ := ring.before a b (akin.precedes h)
    exact ⟨hne, back.leads hleads⟩
  · intro handle id h
    rw [akin.idAt?]
    exact h
  · intro id handle h
    rw [akin.directory]
    exact h

/-! ## New members and registrations -/

/-- A node that has neither founded nor joined a ring changes nothing. -/
theorem Ring.attach (ring : net.Ring founder) {member : Member} {id : Token} {store : Store}
    {config : Config} (fresh : member.node = Node.fresh id store config)
    (clear : member.link.faults = [])
    (new : ∀ handle node, net.nodeAt? handle = some node → node.id ≠ member.node.id) :
    (net.attach (.member member)).2.Ring founder ∧
      net.Grows founder (net.attach (.member member)).2 := by
  let later := (net.attach (.member member)).2
  have hat : ∀ other, later.nodeAt? other =
      if other = net.endpoints.size then some member.node else net.nodeAt? other :=
    nodeAt?_attach net member
  have hsucc : member.node.successor = none := by rw [fresh, Node.successor_fresh]
  have hpred : member.node.predecessor = none := by rw [fresh]; rfl
  have hkeeps : ∀ handle node, net.nodeAt? handle = some node →
      later.nodeAt? handle = some node := by
    intro handle node h
    rw [hat, if_neg]
    · exact h
    · rintro rfl
      rw [nodeAt?_size] at h
      cases h
  have hid : ∀ handle id, net.idAt? handle = some id → later.idAt? handle = some id := by
    intro handle id h
    obtain ⟨node, hnode, rfl⟩ := idAt?_eq_some.1 h
    exact idAt?_of_nodeAt? (hkeeps handle node hnode)
  have hlinked : ∀ a b, later.Linked a b ↔ net.Linked a b := by
    intro a b
    constructor
    · rintro ⟨handle, node, hnode, ha, hnext⟩
      rw [hat] at hnode
      split at hnode
      · rw [← Option.some.inj hnode, hsucc] at hnext
        cases hnext
      · exact ⟨handle, node, hnode, ha, hnext⟩
    · rintro ⟨handle, node, hnode, ha, hnext⟩
      exact ⟨handle, node, hkeeps handle node hnode, ha, hnext⟩
  have hleads : ∀ a b, net.Leads founder a b → later.Leads founder a b := by
    intro a b h
    induction h with
    | link linked => exact .link ((hlinked _ _).2 linked)
    | step linked passes rest ih => exact .step ((hlinked _ _).2 linked) passes ih
  refine ⟨⟨?_, ?_, ?_, ?_, ?_, ?_, ?_, ?_, ?_⟩, hid, fun _ _ h => h, hleads⟩
  · intro handle
    rw [script?_attach]
    exact ring.members handle
  · intro handle other
    rw [member?_attach]
    split
    · intro h
      rw [← Option.some.inj h, clear]
    · exact ring.clear handle other
  · intro first second id
    rw [idAt?, idAt?, hat, hat]
    intro h h'
    split at h <;> split at h'
    · simp_all
    · obtain ⟨node, hnode, heq⟩ := idAt?_eq_some.1 h'
      exact absurd (heq.trans (Option.some.inj h).symm) (new _ node hnode)
    · obtain ⟨node, hnode, heq⟩ := idAt?_eq_some.1 h
      exact absurd (heq.trans (Option.some.inj h').symm) (new _ node hnode)
    · exact ring.distinct first second id h h'
  · intro id handle h
    exact hid handle id (ring.listed id handle h)
  · intro handle node
    rw [hat]
    split
    · intro h
      rw [← Option.some.inj h]
      refine ⟨?_, ?_, ?_, ?_⟩
      · rw [fresh]; exact Nat.le_refl 1
      · rw [fresh]; exact fun _ _ => rfl
      · exact fun _ hplaced => absurd hsucc hplaced
      · rw [fresh]; exact fun _ hjoining => absurd rfl hjoining
    · exact ring.settled handle node
  · intro a b h
    obtain ⟨c, hc⟩ := ring.joined a b ((hlinked a b).1 h)
    exact ⟨c, (hlinked b c).2 hc⟩
  · exact fun a b h => ring.nearer a b ((hlinked a b).1 h)
  · exact fun a b h => ring.known a b ((hlinked a b).1 h)
  · rintro a b ⟨handle, node, hnode, rfl, hbefore⟩
    rw [hat] at hnode
    split at hnode
    · rw [← Option.some.inj hnode, hpred] at hbefore
      cases hbefore
    · obtain ⟨hne, h⟩ := ring.before a node.id (precedes_of_nodeAt? hnode hbefore)
      exact ⟨hne, hleads _ _ h⟩

/-- A registration changes nothing but the directory. -/
theorem Ring.register (ring : net.Ring founder) (found : net.nodeAt? handle = some node) :
    (net.register node.id handle).Ring founder ∧
      net.Grows founder (net.register node.id handle) := by
  let later := net.register node.id handle
  have hdir : ∀ (id : Token) other, later.directory[id]? = some other ↔
      net.directory[id]? = some other ∨ (id = node.id ∧ other = handle) := by
    intro id other
    have hget : later.directory[id]? =
        if node.id = id then some handle else net.directory[id]? := by
      simp [later, Network.register, Std.TreeMap.getElem?_insert]
    rw [hget]
    split
    · rename_i heq
      subst heq
      constructor
      · intro h
        exact Or.inr ⟨rfl, (Option.some.inj h).symm⟩
      · rintro (h | ⟨-, rfl⟩)
        · rw [ring.distinct other handle node.id (ring.listed _ _ h) (idAt?_of_nodeAt? found)]
        · rfl
    · rename_i hne
      constructor
      · exact Or.inl
      · rintro (h | ⟨rfl, -⟩)
        · exact h
        · exact absurd rfl hne
  have hleads : ∀ a b, net.Leads founder a b → later.Leads founder a b := by
    intro a b h
    induction h with
    | link linked => exact .link linked
    | step linked passes rest ih => exact .step linked passes ih
  refine ⟨⟨ring.members, ring.clear, ring.distinct, ?_, ring.settled, ring.joined, ring.nearer, ?_, ?_⟩,
    fun _ _ h => h, fun id other h => (hdir id other).2 (Or.inl h), hleads⟩
  · intro id other h
    rcases (hdir id other).1 h with hold | ⟨rfl, rfl⟩
    · exact ring.listed id other hold
    · exact idAt?_of_nodeAt? found
  · intro a b h hne
    obtain ⟨⟨first, hfirst⟩, second, hsecond⟩ := ring.known a b h hne
    exact ⟨⟨first, (hdir _ _).2 (Or.inl hfirst)⟩, second, (hdir _ _).2 (Or.inl hsecond)⟩
  · intro a b h
    obtain ⟨hne, h⟩ := ring.before a b h
    exact ⟨hne, hleads a b h⟩

end Network

end RecordRing
