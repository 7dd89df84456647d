import RecordRing.Proofs.Distance
import RecordRing.Proofs.Fingers
import RecordRing.Proofs.Network.Onward

/-!
# Calls of repair

What a call of successor repair does while every other task rests.  The node learns the predecessor
of its successor (`onward_learn`).  If this one is not in between, the node tells its successor about
itself (`onward_keep`), and otherwise it adopts the one in between and tells that node
(`onward_adopt`).  Nothing is assumed about the ring, only that the peers that are asked can be
reached.

A `Series` is calls carried out one after the other, and `Series.carry` follows an assertion about
the network and the calls to come through it.
-/

namespace RecordRing

/-- What the others know a node by, and by what it knows them: its identifier, its fingers and its
predecessor. -/
def Node.bearings (node : Node) : Token × Fingers × Option Token :=
  (node.id, node.fingers, node.predecessor)

namespace Network

variable {net after last : Network} {handle peer other number : Nat} {node reached target : Node}
  {member : Member} {purpose : Purpose} {shape result : Shape} {contact closer : Contact}
  {candidate next : Token}

/-- A node stands at a handle, behind a link that fails no call. -/
def Stands (net : Network) (handle : Handle) (node : Node) : Prop :=
  ∃ member, net.member? handle = some member ∧ member.node = node ∧ member.link.faults = []

namespace Stands

theorem nodeAt? (h : net.Stands handle node) : net.nodeAt? handle = some node := by
  obtain ⟨member, hmember, hnode, -⟩ := h
  exact nodeAt?_eq_some.2 ⟨member, hmember, hnode⟩

theorem alike (h : net.Stands handle node) (alike : net.Alike after) : after.Stands handle node := by
  obtain ⟨member, hmember, hnode, hclear⟩ := h
  have hm := alike.members handle
  rw [hmember, Option.map_some] at hm
  obtain ⟨later, hlater, hface⟩ := Option.map_eq_some_iff.1 hm
  simp only [Member.face, Prod.mk.injEq] at hface
  exact ⟨later, hlater, hface.1.trans hnode, hface.2.1.trans hclear⟩

theorem setNode_self (h : net.Stands handle node) (new : Node) :
    (net.setNode handle new).Stands handle new := by
  obtain ⟨member, hmember, -, hclear⟩ := h
  refine ⟨{ member with node := new }, ?_, rfl, hclear⟩
  rw [member?_setNode, if_pos rfl, hmember]
  rfl

theorem setNode_of_ne (h : net.Stands handle node) (hne : other ≠ handle) (new : Node) :
    (net.setNode other new).Stands handle node := by
  obtain ⟨member, hmember, hnode, hclear⟩ := h
  exact ⟨member, by rw [member?_setNode, if_neg hne, hmember], hnode, hclear⟩

/-- Whatever is overwritten, some node still stands at a handle. -/
theorem exists_setNode (h : net.Stands handle node) (other : Handle) (new : Node) :
    ∃ later, (net.setNode other new).Stands handle later := by
  by_cases hsame : other = handle
  · exact ⟨new, hsame ▸ (hsame ▸ h).setNode_self new⟩
  · exact ⟨node, h.setNode_of_ne hsame new⟩

end Stands

/-! ## Turns that ask a peer -/

theorem exists_taskAfter_ask (purpose : Purpose) (handle : Handle) (below : Stack result)
    (contact : Contact) (request : Request shape) (frame : Frame shape result) : ∃ task,
      taskAfter purpose handle below (.ask contact request frame) = some task := by
  cases contact <;> exact ⟨_, rfl⟩

/-- A contact that stands starts to serve the request. -/
theorem onward_ask_stands {request : Request shape} {frame : Frame shape result}
    {below : Stack result}
    (asks : taskAfter purpose handle below (.ask contact request frame) = net.tasks[number]?)
    (stands : net.Stands (contact.at handle) target) :
    ∃ after, Onward number net after ∧ net.Alike after ∧ after.tasks[number]? =
      some ⟨purpose, shape, .start (contact.at handle) (.serve request),
        .frame handle frame below⟩ := by
  obtain ⟨member, hmember, -, hclear⟩ := stands
  exact onward_ask asks hmember (by rw [Link.fails, hclear]; rfl)

/-- Carrying on an operation that starts by asking a peer. -/
theorem onward_start_ask {operation : Operation result} {below : Stack result}
    {request : Request shape} {frame : Frame shape result}
    (at_start : net.tasks[number]? = some ⟨purpose, result, .start handle operation, below⟩)
    (found : net.nodeAt? handle = some node) (first : operation.places = false)
    (turn : node.start net.surroundings operation = reached.ask contact request frame)
    (stands : (net.setNode handle reached).Stands (contact.at handle) target) :
    ∃ after, Onward number net after ∧ (net.setNode handle reached).Alike after ∧
      after.tasks[number]? = some ⟨purpose, shape, .start (contact.at handle) (.serve request),
        .frame handle frame below⟩ := by
  obtain ⟨task, hnext⟩ := exists_taskAfter_ask purpose handle below contact request frame
  obtain ⟨asking, hon, halike, htask⟩ := onward_start at_start found first
    (by rw [turn]; simp [Node.ask]) (by rw [turn]; exact hnext)
  rw [turn] at halike
  obtain ⟨after, hon', halike', htask'⟩ :=
    onward_ask_stands (hnext.trans htask.symm) (stands.alike halike)
  exact ⟨after, onward_trans hon hon', halike.trans halike', htask'⟩

/-- Carrying on an operation that asks a peer when it gets its answer. -/
theorem onward_resume_ask {outcome : Outcome shape} {frame : Frame shape result}
    {below : Stack result} {asked : Shape} {request : Request asked} {next : Frame asked result}
    (answered : net.tasks[number]? =
      some ⟨purpose, shape, .answer outcome, .frame handle frame below⟩)
    (found : net.nodeAt? handle = some node) (first : frame.places outcome = false)
    (keeps : ∀ effect ∈ (node.resume net.surroundings frame outcome).effects,
      ∀ id, effect ≠ .release id)
    (asks : (node.resume net.surroundings frame outcome).action = .ask contact request next)
    (stands : (net.setNode handle (node.resume net.surroundings frame outcome).node).Stands
      (contact.at handle) target) :
    ∃ after, Onward number net after ∧
      (net.setNode handle (node.resume net.surroundings frame outcome).node).Alike after ∧
      after.tasks[number]? = some ⟨purpose, asked, .start (contact.at handle) (.serve request),
        .frame handle next below⟩ := by
  obtain ⟨task, hnext⟩ := exists_taskAfter_ask purpose handle below contact request next
  obtain ⟨asking, hon, halike, htask⟩ := onward_resume answered found first keeps
    (by rw [asks]; exact hnext)
  obtain ⟨after, hon', halike', htask'⟩ :=
    onward_ask_stands (hnext.trans htask.symm) (stands.alike halike)
  exact ⟨after, onward_trans hon hon', halike.trans halike', htask'⟩

/-! ## Telling a peer -/

/-- A peer has been told about a candidate. -/
def Told (net : Network) (peer : Handle) (candidate : Token) (after : Network) : Prop :=
  ∃ target, net.nodeAt? peer = some target ∧
    (net.setNode peer (target.notified candidate).1).Alike after

theorem not_release_beginMerge (node : Node) : ∀ effect ∈ node.beginMerge.2,
    ∀ id, effect ≠ .release id := by
  rw [Node.beginMerge]
  split
  · split
    · simp [Node.drainPending]
    · simp
  · simp

theorem not_release_notified (node : Node) (candidate : Token) :
    ∀ effect ∈ (node.notified candidate).2, ∀ id, effect ≠ .release id := by
  rw [Node.notified]
  split
  · exact not_release_beginMerge _
  · simp

theorem Told.of_alike (alike : net.Alike after) (told : after.Told peer candidate last) :
    net.Told peer candidate last := by
  obtain ⟨target, hstands, hlast⟩ := told
  exact ⟨target, (alike.nodeAt? peer).symm.trans hstands, (alike.overwrite _ _).trans hlast⟩

/-- A call that has come to its last request, which tells a peer about a candidate, ends well. -/
theorem onward_tell (telling : net.tasks[number]? = some ⟨.client [], .nothing,
      .start peer (.serve (.notify candidate)), .frame handle .told .root⟩)
    (stands : net.nodeAt? peer = some target) (found : net.nodeAt? handle = some node) :
    ∃ after, Onward number net after ∧ net.Told peer candidate after ∧
      after.tasks[number]? = none ∧ after.endings[number]? = some ⟨.nothing, .ok ()⟩ := by
  obtain ⟨told, hon₁, halike₁, htask₁⟩ := onward_start telling stands rfl
    (not_release_notified target candidate) rfl
  obtain ⟨waiting, hwaiting⟩ : ∃ waiting, told.nodeAt? handle = some waiting := by
    rw [halike₁.nodeAt?, nodeAt?_setNode, found]
    split
    · exact ⟨_, rfl⟩
    · exact ⟨_, rfl⟩
  obtain ⟨answered, hon₂, halike₂, htask₂⟩ := onward_resume_same htask₁ hwaiting rfl rfl
    (by simp [Node.resume, Node.reply]) rfl
  obtain ⟨after, hon₃, halike₃, hnone, hending⟩ := onward_finish htask₂
  exact ⟨after, onward_trans hon₁ (onward_trans hon₂ hon₃),
    ⟨target, stands, halike₁.trans (halike₂.trans halike₃)⟩, hnone, hending⟩

/-! ## The two halves of successor repair -/

/-- The first half: a node that asks its successor learns the predecessor of its successor. -/
theorem onward_learn (found : net.nodeAt? handle = some node)
    (asks : node.stabilize net.surroundings =
      reached.ask contact .predecessor (.predecessorAsked next contact))
    (stands : (net.setNode handle reached).Stands (contact.at handle) target) : ∃ learned,
      Onward net.nextTask (net.spawn (taskOf (.client []) handle .stabilize)) learned ∧
      (net.setNode handle reached).Alike learned ∧
      learned.tasks[net.nextTask]? = some ⟨.client [], .knownId, .answer (.ok target.predecessor),
        .frame handle (.predecessorAsked next contact) .root⟩ := by
  let begun := net.spawn (taskOf (.client []) handle .stabilize)
  have hbegun : net.Alike begun := (Alike.refl net).spawn _
  have htask : begun.tasks[net.nextTask]? = some (taskOf (.client []) handle .stabilize) :=
    getElem?_putTask_self _
  have hasks : node.start begun.surroundings .stabilize =
      reached.ask contact .predecessor (.predecessorAsked next contact) := by
    rw [hbegun.surroundings]
    exact asks
  have hreached := hbegun.overwrite handle reached
  obtain ⟨serving, hon, halike, hserving⟩ := onward_start_ask htask
    ((hbegun.nodeAt? handle).trans found) rfl hasks (stands.alike hreached)
  obtain ⟨learned, hon', halike', hlearned⟩ := onward_start_same hserving
    (stands.alike (hreached.trans halike)).nodeAt? rfl rfl
    (by simp [Node.start, Node.serve, Node.reply]) rfl
  exact ⟨learned, onward_trans hon hon', hreached.trans (halike.trans halike'), hlearned⟩

theorem onPredecessor_eq_tellSuccessor {around : Surroundings} {before : Option Token}
    (nobody : ∀ id, before = some id → ¬ insideOpen node.id next id = true) :
    node.onPredecessor around next contact (.ok before) = node.tellSuccessor next contact := by
  cases before with
  | none => rfl
  | some id => rw [Node.onPredecessor, if_neg (nobody id rfl)]

/-- The second half when there is nobody in between: the successor is told about the node, unless it
is the node itself. -/
theorem onward_keep (found : net.nodeAt? handle = some node)
    (stands : net.Stands (contact.at handle) target)
    (nobody : ∀ id, target.predecessor = some id → ¬ insideOpen node.id next id = true)
    (answered : net.tasks[number]? = some ⟨.client [], .knownId, .answer (.ok target.predecessor),
      .frame handle (.predecessorAsked next contact) .root⟩) :
    ∃ after, Onward number net after ∧ after.tasks[number]? = none ∧
      after.endings[number]? = some ⟨.nothing, .ok ()⟩ ∧
      (next = node.id ∧ net.Alike after ∨
        next ≠ node.id ∧ net.Told (contact.at handle) node.id after) := by
  have hturn : node.resume net.surroundings (.predecessorAsked next contact)
      (.ok target.predecessor) = node.tellSuccessor next contact :=
    onPredecessor_eq_tellSuccessor nobody
  by_cases hself : next = node.id
  · -- the node is its own successor
    rw [Node.tellSuccessor, if_pos hself] at hturn
    obtain ⟨told, hon, halike, htask⟩ := onward_resume_same answered found rfl (by rw [hturn]; rfl)
      (by rw [hturn]; simp [Node.reply]) (by rw [hturn]; rfl)
    obtain ⟨after, hon', halike', hnone, hending⟩ := onward_finish htask
    exact ⟨after, onward_trans hon hon', hnone, hending, .inl ⟨hself, halike.trans halike'⟩⟩
  · rw [Node.tellSuccessor, if_neg hself] at hturn
    have hkeep : net.setNode handle (node.resume net.surroundings
        (.predecessorAsked next contact) (.ok target.predecessor)).node = net := by
      rw [hturn]
      exact setNode_self found
    obtain ⟨telling, hon, halike, htask⟩ := onward_resume_ask answered found rfl
      (by rw [hturn]; simp [Node.ask]) (by rw [hturn]; rfl) (by rw [hkeep]; exact stands)
    rw [hkeep] at halike
    obtain ⟨after, hon', htold, hnone, hending⟩ := onward_tell htask
      ((halike.nodeAt? _).trans stands.nodeAt?) ((halike.nodeAt? _).trans found)
    exact ⟨after, onward_trans hon hon', hnone, hending, .inr ⟨hself, htold.of_alike halike⟩⟩

/-- The second half when the node before the successor is in between and can be reached: it is
adopted, and told about the node. -/
theorem onward_adopt (found : net.nodeAt? handle = some node)
    (holds : node.successor = some next) (before : target.predecessor = some candidate)
    (between : insideOpen node.id next candidate = true)
    (resolves : node.resolve net.surroundings candidate = some closer) {adopted : Node}
    (stands : net.Stands (closer.at handle) adopted)
    (answered : net.tasks[number]? = some ⟨.client [], .knownId, .answer (.ok target.predecessor),
      .frame handle (.predecessorAsked next contact) .root⟩) :
    ∃ after fingers, Onward number net after ∧ after.tasks[number]? = none ∧
      after.endings[number]? = some ⟨.nothing, .ok ()⟩ ∧
      fingers.successor = some candidate ∧
      (∀ slot, slot ≠ Fingers.successorSlot → fingers.get slot = node.fingers.get slot) ∧
      (net.setNode handle { node with fingers := fingers }).Told (closer.at handle) node.id
        after := by
  -- the successor is still the one that was asked
  rcases hcas : node.fingers.compareAndSet Fingers.successorSlot (some next)
    (some candidate) with ⟨swapped, fingers⟩
  have hswapped : (node.fingers.compareAndSet Fingers.successorSlot (some next)
      (some candidate)).1 = true := Fingers.compareAndSet_of_get holds
  have hget := Fingers.get_of_compareAndSet hswapped
  have hslots : ∀ slot, slot ≠ Fingers.successorSlot →
      (node.fingers.compareAndSet Fingers.successorSlot (some next) (some candidate)).2.get slot =
        node.fingers.get slot :=
    fun slot hne => Fingers.get_compareAndSet_of_ne (Ne.symm hne)
  rw [hcas] at hswapped hget hslots
  obtain rfl : swapped = true := hswapped
  let adopting : Node := { node with fingers := fingers }
  have hcloser : adopting.resolve net.surroundings candidate = some closer := resolves
  have htell : adopting.tellSuccessor candidate closer =
      adopting.ask closer (.notify node.id) .told := by
    rw [Node.tellSuccessor, if_neg (insideOpen_iff.1 between).1]
  have hturn : node.resume net.surroundings (.predecessorAsked next contact)
      (.ok target.predecessor) =
      ⟨adopting, [.tally .successorChanged], .ask closer (.notify node.id) .told⟩ := by
    rw [before]
    simp only [Node.resume, Node.onPredecessor, if_pos between, hcas]
    rw [show Node.resolve { node with fingers := fingers } net.surroundings candidate = some closer
      from hcloser]
    simp only
    rw [htell]
    rfl
  obtain ⟨later, hlater⟩ := stands.exists_setNode handle adopting
  obtain ⟨telling, hon, halike, htask⟩ := onward_resume_ask answered found rfl
    (by rw [hturn]; simp) (by rw [hturn]) (by rw [hturn]; exact hlater)
  rw [hturn] at halike
  have hfound : telling.nodeAt? handle = some adopting := by
    rw [halike.nodeAt?, nodeAt?_setNode, if_pos rfl, found]
    rfl
  obtain ⟨after, hon', htold, hnone, hending⟩ := onward_tell htask
    (hlater.alike halike).nodeAt? hfound
  exact ⟨after, fingers, onward_trans hon hon', hnone, hending, hget.2, hslots,
    htold.of_alike halike⟩

/-! ## Calls one after the other -/

/-- An operation that ends in its first turn leaves behind what this turn does to the node. -/
theorem completes_reply {operation : Operation .nothing} {outcome : Outcome .nothing}
    (found : net.nodeAt? handle = some node) (first : operation.places = false)
    (replies : node.start net.surroundings operation = reached.reply outcome) :
    ∃ after, net.Completes handle operation after ∧
      after.endings[net.nextTask]? = some ⟨.nothing, outcome⟩ ∧
      (net.setNode handle reached).Alike after := by
  let begun := net.spawn (taskOf (.client []) handle operation)
  have hbegun : net.Alike begun := (Alike.refl net).spawn _
  have htask : begun.tasks[net.nextTask]? = some (taskOf (.client []) handle operation) :=
    getElem?_putTask_self _
  have hreplies : node.start begun.surroundings operation = reached.reply outcome := by
    rw [hbegun.surroundings]
    exact replies
  obtain ⟨replied, hon, halike, hreplied⟩ := onward_start htask
    ((hbegun.nodeAt? handle).trans found) first (by rw [hreplies]; simp [Node.reply])
    (by rw [hreplies]; rfl)
  rw [hreplies] at halike
  obtain ⟨after, hon', halike', hnone, hending⟩ := onward_finish hreplied
  exact ⟨after, ⟨onward_trans hon hon', hnone⟩, hending,
    (hbegun.overwrite handle reached).trans (halike.trans halike')⟩

/-- The directory is the same, and every member has the same bearings and faults as before. -/
structure Still (net after : Network) : Prop where
  directory : after.directory = net.directory
  members : ∀ handle member, net.member? handle = some member → ∃ later,
    after.member? handle = some later ∧ later.node.bearings = member.node.bearings ∧
      later.link.faults = member.link.faults

theorem Still.refl (net : Network) : net.Still net :=
  ⟨rfl, fun _ member found => ⟨member, found, rfl, rfl⟩⟩

/-- An operation that is only acknowledged, and the member that carries it out. -/
abbrev Call := Handle × Operation .nothing

/-- Calls carried out one after the other, with the endings of them.  Between two calls other work
may go on, as long as it leaves the bearings of the nodes as they are. -/
inductive Series : Network → List Call → List Ending → Network → Prop
  | done {net : Network} : Series net [] [] net
  | call {net mid next last : Network} {call : Call} {calls : List Call} {ending : Ending}
      {endings : List Ending} (still : net.Still mid)
      (completes : mid.Completes call.1 call.2 next)
      (ends : next.endings[mid.nextTask]? = some ending) (later : Series next calls endings last) :
      Series net (call :: calls) (ending :: endings) last

namespace Series

variable {mid : Network} {calls more : List Call} {endings : List Ending}

theorem append {first rest : List Ending} (h : Series net calls first mid)
    (h' : Series mid more rest last) : Series net (calls ++ more) (first ++ rest) last := by
  induction h with
  | done => exact h'
  | call still completes ends later ih => exact .call still completes ends (ih h')

theorem split (h : Series net (calls ++ more) endings last) : ∃ mid first rest,
    endings = first ++ rest ∧ Series net calls first mid ∧ Series mid more rest last := by
  induction calls generalizing net endings with
  | nil => exact ⟨net, [], endings, rfl, .done, h⟩
  | cons call calls ih =>
      cases h with
      | call still completes ends later =>
          obtain ⟨mid, first, rest, rfl, hfirst, hrest⟩ := ih later
          exact ⟨mid, _ :: first, rest, rfl, .call still completes ends hfirst, hrest⟩

/-- If every call ends well and carries an assertion about the calls to come on, then the whole series
can be carried out, it ends well, and it ends with the assertion about no calls. -/
theorem carry {P : List Call → Network → Prop}
    (still : ∀ {calls : List Call} {net after : Network}, P calls net → net.Still after →
      P calls after)
    (step : ∀ {call : Call} {calls : List Call} {net : Network}, P (call :: calls) net → ∃ after,
      net.Completes call.1 call.2 after ∧
        after.endings[net.nextTask]? = some ⟨.nothing, .ok ()⟩ ∧ P calls after)
    (start : P calls net) :
    (∃ endings after, Series net calls endings after) ∧
    ∀ endings after, Series net calls endings after →
      (∀ ending ∈ endings, ending = ⟨.nothing, .ok ()⟩) ∧ P [] after := by
  constructor
  · induction calls generalizing net with
    | nil => exact ⟨[], net, .done⟩
    | cons call calls ih =>
        obtain ⟨next, hcompletes, hends, hnext⟩ := step start
        obtain ⟨endings, after, hlater⟩ := ih hnext
        exact ⟨_, after, .call (Still.refl net) hcompletes hends hlater⟩
  · intro endings after series
    induction series with
    | done => exact ⟨fun ending hmem => absurd hmem List.not_mem_nil, start⟩
    | call rests completes ends later ih =>
        obtain ⟨next, hcompletes, hends, hnext⟩ := step (still start rests)
        obtain rfl := hcompletes.unique completes
        obtain ⟨hgood, hafter⟩ := ih hnext
        refine ⟨fun ending hmem => ?_, hafter⟩
        rcases List.mem_cons.1 hmem with rfl | hrest
        · exact Option.some.inj (ends.symm.trans hends)
        · exact hgood ending hrest

end Series

end Network

end RecordRing
