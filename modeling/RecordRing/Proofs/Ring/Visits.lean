import RecordRing.Proofs.Network.Calls
import RecordRing.Proofs.Network.Residents

/-!
# Operations of repair without a wait

What the operations of successor repair come to in a populated network: telling a node about another
one (`Tells`), and a whole call of successor repair (`Repairs`).  They always end well, because the
nodes know nobody who cannot be asked.
-/

namespace RecordRing

/-! ## Notices -/

/-- The predecessor that a node knows when it has been told about a candidate. -/
def noticed (self : Token) (before : Option Token) (candidate : Token) : Option Token :=
  if candidate ≠ self ∧ before.all fun before => insideOpen before self candidate then
    some candidate
  else before

/-- The successor that a node takes when it has learnt the predecessor of its successor. -/
def towards (self next : Token) (before : Option Token) : Token :=
  (before.filter fun before => insideOpen self next before).getD next

namespace Node

variable {config : Config} {node : Node} {members : List Token} {next id : Token}
  {around : Surroundings}

/-- The acceptance of a predecessor only changes how far the node has come in taking over its
records. -/
theorem rest_beginMerge (node : Node) :
    { node.beginMerge.1 with
      lifecycle := node.lifecycle
      migrationSource := node.migrationSource
      pending := node.pending } = node := by
  rw [beginMerge]
  split
  · split <;> rfl
  · rfl

theorem rest_notified (node : Node) (candidate : Token) :
    { (node.notified candidate).1 with
      lifecycle := node.lifecycle
      migrationSource := node.migrationSource
      pending := node.pending } =
      { node with predecessor := noticed node.id node.predecessor candidate } := by
  have hcloser : node.isCloser candidate =
      node.predecessor.all fun before => insideOpen before node.id candidate := by
    rw [isCloser]
    cases node.predecessor <;> rfl
  rw [notified, noticed, hcloser]
  split
  · exact rest_beginMerge { node with predecessor := some candidate }
  · rfl

theorem id_notified (node : Node) (candidate : Token) : (node.notified candidate).1.id = node.id :=
  (congrArg Node.id (node.rest_notified candidate) :)

theorem fingers_notified (node : Node) (candidate : Token) :
    (node.notified candidate).1.fingers = node.fingers :=
  (congrArg Node.fingers (node.rest_notified candidate) :)

theorem predecessor_notified (node : Node) (candidate : Token) :
    (node.notified candidate).1.predecessor = noticed node.id node.predecessor candidate :=
  (congrArg Node.predecessor (node.rest_notified candidate) :)

theorem config_notified (node : Node) (candidate : Token) :
    (node.notified candidate).1.config = node.config :=
  (congrArg Node.config (node.rest_notified candidate) :)

theorem cursor_notified (node : Node) (candidate : Token) :
    (node.notified candidate).1.cursor = node.cursor :=
  (congrArg Node.cursor (node.rest_notified candidate) :)

theorem Regular.notified (regular : node.Regular config members) {candidate : Token}
    (mem : candidate ∈ members) : (node.notified candidate).1.Regular config members where
  config := (node.config_notified candidate).trans regular.config
  fingers slot finger hfinger :=
    regular.fingers slot finger (node.fingers_notified candidate ▸ hfinger)
  predecessor before hbefore := by
    rw [predecessor_notified, noticed] at hbefore
    split at hbefore
    · rwa [← Option.some.inj hbefore]
    · exact regular.predecessor before hbefore
  first := by rw [cursor_notified]; exact regular.first
  last := by rw [cursor_notified]; exact regular.last

theorem Regular.setSuccessor (regular : node.Regular config members) (mem : next ∈ members) :
    (node.setSuccessor next).Regular config members :=
  { regular with
    fingers := fun slot finger hfinger => by
      rw [Node.setSuccessor, Fingers.get_set] at hfinger
      split at hfinger
      · rwa [← Option.some.inj hfinger]
      · exact regular.fingers slot finger hfinger }

theorem Regular.rejoining (regular : node.Regular config members) :
    node.rejoining.Regular config members :=
  { regular with predecessor := fun _ => nofun }

/-- Overwriting the successor by itself. -/
theorem setSuccessor_self (holds : node.successor = some next) : node.setSuccessor next = node := by
  have hcell := IdCell.eq_pack_of_load holds
  have hset : node.fingers.set Fingers.successorSlot (some next) = node.fingers := by
    rw [Fingers.set, ← hcell]
    exact congrArg Fingers.mk (Vector.set_getElem_self _)
  rw [setSuccessor, hset]

/-- A node whose successor can be reached asks it for its predecessor. -/
theorem stabilize_of_resolve {peer : Contact} (holds : node.successor = some next)
    (resolves : node.resolve around next = some peer) :
    node.stabilize around = node.ask peer .predecessor (.predecessorAsked next peer) := by
  have hreach : node.reachSuccessor around next keyBits = (node, next, some peer) := by
    rw [show keyBits = 62 + 1 from rfl, reachSuccessor, resolves]
  simp only [stabilize, holds, approach, hreach]

end Node

namespace Network

variable {net after : Network} {config : Config} {members : List Token} {id next candidate : Token}
  {number : Nat}
  {handle peer : Handle} {node target : Node} {shape result : Shape} {contact : Contact}
  {turn : Turn .nothing}

/-! ## Telling a node -/

/-- A node is told about a candidate. -/
def Tells (net : Network) (peer : Token) (candidate : Token) (after : Network) : Prop :=
  ∃ handle target, net.Houses peer handle target ∧
    (net.enact handle (Node.acknowledge (target.notified candidate))).Same after

theorem Same.tells {last : Network} (same : net.Same after)
    (tells : after.Tells id candidate last) : net.Tells id candidate last := by
  obtain ⟨handle, target, houses, hafter⟩ := tells
  exact ⟨handle, target, same.symm.keeps.houses houses, (same.enact handle _).trans hafter⟩

/-- A node that is told only changes itself. -/
theorem keeps_told (net : Network) (handle : Handle) (target : Node) (candidate : Token) :
    (net.setNode handle (target.notified candidate).1).Keeps
      (net.enact handle (Node.acknowledge (target.notified candidate))) :=
  keeps_enact net handle (Node.acknowledge (target.notified candidate))
    (not_release_notified target candidate)

theorem Populated.tells (populated : net.Populated config members) (mem : candidate ∈ members)
    (tells : net.Tells id candidate after) : after.Populated config members := by
  obtain ⟨handle, target, houses, hafter⟩ := tells
  refine ((keeps_told net handle target candidate).trans hafter.keeps).populated ?_
  exact populated.setNode houses ((target.id_notified candidate).trans (populated.id_eq houses))
    ((populated.regular_of houses).notified mem)

theorem Tells.resident? (tells : net.Tells id candidate after)
    (populated : net.Populated config members)
    (other : Token) : ∃ target, net.resident? id = some target ∧ after.resident? other =
      if other = id then some (target.notified candidate).1 else net.resident? other := by
  obtain ⟨handle, target, houses, hafter⟩ := tells
  refine ⟨target, houses.resident?, ?_⟩
  rw [((keeps_told net handle target candidate).trans hafter.keeps).resident?,
    populated.resident?_setNode houses]

theorem Tells.directory (tells : net.Tells id candidate after) :
    after.directory = net.directory := by
  obtain ⟨handle, target, houses, hafter⟩ := tells
  rw [hafter.directory, (keeps_told net handle target candidate).directory, directory_setNode]

theorem exists_nodeAt?_setNode (stands : net.nodeAt? handle = some node) (other : Handle)
    (new : Node) : ∃ later, (net.setNode other new).nodeAt? handle = some later := by
  rw [nodeAt?_setNode]
  split
  · exact ⟨new, by rw [stands, Option.map_some]⟩
  · exact ⟨node, stands⟩

/-- A turn that brings a node something to acknowledge, as the last thing it does. -/
theorem deliver_achieves {request : Request .nothing} {served : Node × List Effect}
    (acts : turn.action = .ask contact request .told) (prompt : (net.enact handle turn).Prompt)
    (stands : (net.enact handle turn).nodeAt? handle = some node)
    (meets : (net.enact handle turn).nodeAt? (contact.at handle) = some target)
    (serves : ∀ around, target.serve around request = Node.acknowledge served)
    (keeps : ∀ effect ∈ served.2, ∀ id, effect ≠ .release id) (number : Nat) :
    Achieves number net handle turn fun outcome after => outcome = .ok () ∧
      ((net.enact handle turn).enact (contact.at handle) (Node.acknowledge served)).Same after := by
  refine .ask acts prompt meets fun next hnext => ?_
  rw [serves]
  refine .reply rfl ?_
  have hserved := hnext.enact (contact.at handle) (Node.acknowledge served)
  have hkept := (keeps_enact (net.enact handle turn) (contact.at handle)
    (Node.acknowledge served) keeps).trans hserved.keeps
  obtain ⟨later, hlater⟩ := exists_nodeAt?_setNode stands (contact.at handle) served.1
  have hstands := (hkept.nodeAt? handle).trans hlater
  exact ⟨later, hstands, .answer_same hstands ⟨rfl, hserved⟩⟩

/-- A turn that tells a node about a candidate, as the last thing it does. -/
theorem tell_achieves (acts : turn.action = .ask contact (.notify candidate) .told)
    (populated : (net.enact handle turn).Populated config members)
    (stands : (net.enact handle turn).nodeAt? handle = some node)
    (houses : (net.enact handle turn).Houses id (contact.at handle) target) (number : Nat) :
    Achieves number net handle turn fun outcome after =>
      outcome = .ok () ∧ (net.enact handle turn).Tells id candidate after := by
  refine (deliver_achieves acts populated.prompt stands houses.stands (fun _ => rfl)
    (not_release_notified target candidate) number).weaken ?_
  rintro outcome after ⟨hok, hafter⟩
  exact ⟨hok, contact.at handle, target, houses, hafter⟩

/-! ## Successor repair -/

/-- What successor repair at a node comes to: the node takes the successor that it finds, and tells
it about itself, unless it has found itself. -/
inductive Repairs (net : Network) (id : Token) (after : Network) : Prop where
  /-- The node is its own successor. -/
  | alone {handle : Handle} {node other : Node} {next : Token} (houses : net.Houses id handle node)
      (holds : node.successor = some next) (asked : net.resident? next = some other)
      (found : towards id next other.predecessor = id)
      (same : (net.setNode handle (node.setSuccessor id)).Same after)
  /-- The successor is another node. -/
  | tells {handle : Handle} {node other : Node} {next target : Token}
      (houses : net.Houses id handle node) (holds : node.successor = some next)
      (asked : net.resident? next = some other)
      (found : towards id next other.predecessor = target) (ne : target ≠ id)
      (told : (net.setNode handle (node.setSuccessor target)).Tells target id after)

theorem Same.repairs {last : Network} (same : net.Same after) (repairs : after.Repairs id last) :
    net.Repairs id last := by
  have hkeeps := same.symm.keeps
  cases repairs with
  | alone houses holds asked found hlast =>
      exact .alone (hkeeps.houses houses) holds (hkeeps.resident? _ ▸ asked) found
        ((same.setNode _ _).trans hlast)
  | tells houses holds asked found ne hlast =>
      exact .tells (hkeeps.houses houses) holds (hkeeps.resident? _ ▸ asked) found ne
        ((same.setNode _ _).tells hlast)

theorem Repairs.directory (repairs : net.Repairs id after) : after.directory = net.directory := by
  cases repairs with
  | alone houses holds asked found same => rw [same.directory, directory_setNode]
  | tells houses holds asked found ne told => rw [told.directory, directory_setNode]

/-- Successor repair that keeps its successor. -/
theorem keep_achieves (populated : net.Populated config members)
    (houses : net.Houses id handle node)
    (holds : node.successor = some next) (asked : net.Houses next (contact.at handle) target)
    (nobody : ∀ before, target.predecessor = some before → ¬ insideOpen id next before = true)
    (number : Nat) :
    Achieves number net handle (node.tellSuccessor next contact) fun outcome after =>
      outcome = .ok () ∧ net.Repairs id after := by
  have htowards : towards id next target.predecessor = next := by
    rw [towards, Option.filter_eq_none_iff.2 nobody, Option.getD_none]
  have hself : net.setNode handle (node.setSuccessor next) = net := by
    rw [Node.setSuccessor_self holds, setNode_self houses.stands]
  rw [Node.tellSuccessor, populated.id_eq houses]
  by_cases hown : next = id
  · rw [if_pos hown]
    refine .answer_same houses.stands ⟨rfl, ?_⟩
    refine .alone houses holds asked.resident? (htowards.trans hown) ?_
    rw [← hown, hself]
    exact Same.refl net
  · rw [if_neg hown]
    have henact : net.enact handle (node.ask contact (.notify id) .told) = net :=
      enact_same houses.stands rfl rfl
    refine (tell_achieves rfl (henact.symm ▸ populated) (henact.symm ▸ houses.stands)
      (henact.symm ▸ asked) number).weaken ?_
    rintro outcome after ⟨hok, htells⟩
    rw [henact] at htells
    exact ⟨hok, .tells houses holds asked.resident? htowards hown (hself.symm ▸ htells)⟩

/-- Successor repair that finds somebody in between. -/
theorem adopt_achieves (populated : net.Populated config members)
    (houses : net.Houses id handle node)
    (holds : node.successor = some next) (asked : net.Houses next peer target)
    (before : target.predecessor = some candidate)
    (between : insideOpen id next candidate = true) (contact : Contact) (number : Nat) :
    Achieves number net handle
      (node.onPredecessor net.surroundings next contact (.ok target.predecessor))
        fun outcome after => outcome = .ok () ∧ net.Repairs id after := by
  have hmem := (populated.regular_of asked).predecessor candidate before
  have hid := populated.id_eq houses
  have hother : candidate ≠ node.id := hid ▸ (insideOpen_iff.1 between).1
  have htowards : towards id next target.predecessor = candidate := by
    rw [towards, before, Option.filter_some_pos between, Option.getD_some]
  let moved := net.setNode handle (node.setSuccessor candidate)
  have hmoved : moved.Populated config members :=
    populated.setNode houses hid ((populated.regular_of houses).setSuccessor hmem)
  have hstands : moved.Houses id handle (node.setSuccessor candidate) := houses.setNode _
  obtain ⟨closer, adopted, hresolve, hadopted⟩ := hmoved.resolve hstands hmem
  -- the guarded replacement finds the successor that it expects
  have hswap : node.fingers.compareAndSet Fingers.successorSlot (some next) (some candidate) =
      (true, (node.setSuccessor candidate).fingers) :=
    Fingers.compareAndSet_eq_set holds
  let turn : Turn .nothing :=
    ⟨node.setSuccessor candidate, [.tally .successorChanged], .ask closer (.notify id) .told⟩
  have hturn :
      node.onPredecessor net.surroundings next contact (.ok target.predecessor) = turn := by
    rw [surroundings_setNode] at hresolve
    have hadopting : { node with fingers := (node.setSuccessor candidate).fingers } =
        node.setSuccessor candidate := rfl
    have htelling : (node.setSuccessor candidate).tellSuccessor candidate closer =
        (node.setSuccessor candidate).ask closer (.notify id) .told := by
      have hself : (node.setSuccessor candidate).id = id := hid
      rw [Node.tellSuccessor, hself, if_neg (hid ▸ hother)]
    rw [before, Node.onPredecessor, if_pos (hid.symm ▸ between), hswap]
    simp only [hadopting, hresolve, htelling]
    rfl
  rw [hturn]
  have hcounted : moved.Same (net.enact handle turn) := by
    obtain ⟨member, hmember, -⟩ := nodeAt?_eq_some.1 hstands.stands
    change moved.Same (moved.perform handle (.tally .successorChanged))
    rw [perform_tally hmember]
    exact Same.counted moved _
  have hkept := hcounted.keeps
  refine (tell_achieves rfl (hkept.populated hmoved) (hkept.houses hstands).stands
    (hkept.houses hadopted) number).weaken ?_
  rintro outcome after ⟨hok, htells⟩
  exact ⟨hok, .tells houses holds asked.resident? htowards (hid ▸ hother) (hcounted.tells htells)⟩

/-- Successor repair ends well at every node that knows its successor. -/
theorem stabilize_achieves (populated : net.Populated config members)
    (houses : net.Houses id handle node)
    (holds : node.successor = some next) (number : Nat) :
    Achieves number net handle (node.stabilize net.surroundings) fun outcome after =>
      outcome = .ok () ∧ net.Repairs id after := by
  obtain ⟨contact, target, hresolve, hasked⟩ :=
    populated.resolve houses ((populated.regular_of houses).successor holds)
  rw [Node.stabilize_of_resolve holds hresolve]
  refine .query rfl houses.stands rfl rfl populated.prompt hasked.stands rfl fun told htold => ?_
  have hpopulated := htold.keeps.populated populated
  have hhouses := htold.keeps.houses houses
  have hnext := htold.keeps.houses hasked
  have hrepairs (outcome : Outcome .nothing) (after : Network)
      (h : outcome = .ok () ∧ told.Repairs id after) : outcome = .ok () ∧ net.Repairs id after :=
    ⟨h.1, htold.repairs h.2⟩
  by_cases hbetween : ∃ before, target.predecessor = some before ∧ insideOpen id next before = true
  · obtain ⟨before, hbefore, hinside⟩ := hbetween
    exact (adopt_achieves hpopulated hhouses holds hnext hbefore hinside contact number).weaken
      hrepairs
  · have hnobody : ∀ before, target.predecessor = some before →
        ¬ insideOpen id next before = true :=
      fun before hbefore hinside => hbetween ⟨before, hbefore, hinside⟩
    have hturn : node.onPredecessor told.surroundings next contact (.ok target.predecessor) =
        node.tellSuccessor next contact :=
      onPredecessor_eq_tellSuccessor ((populated.id_eq houses).symm ▸ hnobody)
    rw [Node.resume, hturn]
    exact (keep_achieves hpopulated hhouses holds hnext hnobody number).weaken hrepairs

/-- No node has a predecessor that it could forget. -/
theorem Populated.fixPredecessor (populated : net.Populated config members)
    (houses : net.Houses id handle node) : node.fixPredecessor net.surroundings = node := by
  rw [Node.fixPredecessor]
  split
  · rename_i before hbefore
    rw [if_pos (populated.knows_iff.2 ((populated.regular_of houses).predecessor before hbefore))]
  · rfl

/-! ## Joining -/

/-- What a join comes to that finds its place: the node starts anew with the successor that it has
found, and tells it about itself. -/
def Joins (net : Network) (id next : Token) (after : Network) : Prop :=
  ∃ handle node, net.Houses id handle node ∧
    (net.setNode handle (node.rejoining.setSuccessor next)).Tells next id after

theorem Joins.directory (joins : net.Joins id next after) : after.directory = net.directory := by
  obtain ⟨handle, node, houses, tells⟩ := joins
  rw [tells.directory, directory_setNode]

/-- What a join comes to whose lookup fails: the node starts anew. -/
def Restarts (net : Network) (id : Token) (after : Network) : Prop :=
  ∃ handle node, net.Houses id handle node ∧ (net.setNode handle node.rejoining).Same after

/-- A join ends like the lookup of its place at the known node. -/
theorem join_achieves {known : Token} (answers : Outcome .id → Prop)
    (populated : net.Populated config members) (houses : net.Houses id handle node)
        (mem : known ∈ members)
    (inside : ∀ next, answers (.ok next) → next ∈ members) (number : Nat)
    (looks : ∀ {peer target start}, (net.setNode handle node.rejoining).Same start →
      start.Houses known peer target → Achieves number start peer
        (target.lookUp start.surroundings id) fun outcome after =>
          start.Same after ∧ answers outcome) :
    Achieves number net handle (node.join net.surroundings known) fun outcome after =>
      (∃ next, answers (.ok next) ∧ outcome = .ok () ∧ net.Joins id next after) ∨
      (∃ failure, answers (.error failure) ∧ outcome = .error failure ∧ net.Restarts id after) := by
  have hid := populated.id_eq houses
  have hregular := (populated.regular_of houses).rejoining
  let anew := net.setNode handle node.rejoining
  have hanew : anew.Populated config members := populated.setNode houses hid hregular
  have hstands : anew.Houses id handle node.rejoining := houses.setNode _
  obtain ⟨contact, target, hresolve, htarget⟩ := hanew.resolve hstands mem
  have hturn : node.join net.surroundings known =
      node.rejoining.ask contact (.findSuccessor id) .placeAsked := by
    rw [surroundings_setNode] at hresolve
    have hfirst : node.resolve net.surroundings known = some contact := hresolve
    rw [Node.join, hfirst, hid]
  rw [hturn]
  refine .ask rfl hanew.prompt htarget.stands fun start hstart => ?_
  refine (looks hstart (hstart.keeps.houses htarget)).weaken ?_
  rintro answer mid ⟨hmid, hanswers⟩
  have hkept : anew.Same mid := hstart.trans hmid
  have hagain := hkept.keeps.houses hstands
  refine ⟨node.rejoining, hagain.stands, ?_⟩
  cases answer with
  | error failure =>
      exact .answer_same hagain.stands
        (Or.inr ⟨failure, hanswers, rfl, handle, node, houses, hkept⟩)
  | ok next =>
      have hnext := inside next hanswers
      let placed := node.rejoining.setSuccessor next
      have hplaced : (mid.setNode handle placed).Populated config members :=
        (hkept.keeps.populated hanew).setNode hagain hid (hregular.setSuccessor hnext)
      obtain ⟨peer, found, hpeer, hfound⟩ := hplaced.resolve (hagain.setNode placed) hnext
      rw [surroundings_setNode] at hpeer
      have hresumes : node.rejoining.resume mid.surroundings .placeAsked (.ok next) =
          placed.ask peer (.notify id) .told := by
        have hself : placed.resolve mid.surroundings next = some peer := hpeer
        rw [Node.resume, Node.onPlace]
        simp only [placed] at hself
        simp only [hself, placed]
        exact congrArg (fun self => Node.ask _ peer (.notify self) .told) hid
      rw [hresumes]
      have htelling : (mid.enact handle (placed.ask peer (.notify id) .told)).Populated config
          members := hplaced
      have htold := hagain.setNode placed
      refine (tell_achieves rfl htelling htold.stands hfound number).weaken ?_
      rintro outcome after ⟨hok, htells⟩
      refine Or.inl ⟨next, hanswers, hok, handle, node, houses, ?_⟩
      have hsame : (net.setNode handle placed).Same (mid.setNode handle placed) := by
        rw [← setNode_setNode net handle node.rejoining placed]
        exact hkept.setNode handle placed
      exact hsame.tells htells

end Network

end RecordRing
