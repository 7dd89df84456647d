import RecordRing.Proofs.Network.Atomic

/-!
# Networks in which nothing is held back

In a prompt network no link and no store takes any time and no link fails a call.  There every
question that a member asks another one is answered at once, and the only traces that it leaves are
the counters (`Same`).

## Implementation notes

What an operation does is told by an explicit network that is the same as the one it leaves behind,
so the changes of several operations add up although each of them counts its calls.
-/

namespace RecordRing

/-- A member without the counters of its link. -/
def Member.uncounted (member : Member) : Member :=
  { member with link := { member.link with counts := [] } }

/-- Calls to a member and calls on its store pass at once. -/
structure Member.Prompt (member : Member) : Prop where
  delays : member.link.delays = []
  faults : member.link.faults = []
  store : member.storeDelay = StoreDelay.zero

theorem Link.delays_counting (link : Link) (method : Method) :
    (link.counting method).delays = link.delays := by
  rw [counting]
  split <;> rfl

theorem Member.uncounted_counting (member : Member) (method : Method) :
    Member.uncounted { member with link := member.link.counting method } = member.uncounted := by
  simp only [uncounted, Link.delays_counting, Link.faults_counting]

theorem Member.Prompt.congr {member other : Member} (prompt : member.Prompt)
    (same : other.uncounted = member.uncounted) : other.Prompt := by
  simp only [uncounted, Member.mk.injEq, Link.mk.injEq] at same
  exact ⟨same.2.1.1.trans prompt.delays, same.2.1.2.1.trans prompt.faults,
    same.2.2.1.trans prompt.store⟩

namespace Network

variable {net after last mid : Network} {number : Nat} {handle peer : Handle} {member new : Member}
  {node asked : Node} {shape result : Shape}

/-! ## Networks that are the same but for their counters -/

/-- Two networks are the same but for the counters. -/
structure Same (net after : Network) : Prop where
  rest : { after with endpoints := net.endpoints, tallies := net.tallies } = net
  size : after.endpoints.size = net.endpoints.size
  scripts : after.script? = net.script?
  members : ∀ handle,
    (after.member? handle).map Member.uncounted = (net.member? handle).map Member.uncounted

namespace Same

theorem refl (net : Network) : net.Same net :=
  ⟨rfl, rfl, rfl, fun _ => rfl⟩

theorem trans (h : net.Same after) (h' : after.Same last) : net.Same last where
  rest := by
    have hrest := congrArg (fun left : Network =>
      { left with endpoints := net.endpoints, tallies := net.tallies }) h'.rest
    exact hrest.trans h.rest
  size := h'.size.trans h.size
  scripts := h'.scripts.trans h.scripts
  members handle := (h'.members handle).trans (h.members handle)

theorem now (h : net.Same after) : after.now = net.now :=
  (congrArg Network.now h.rest :)

theorem directory (h : net.Same after) : after.directory = net.directory :=
  (congrArg Network.directory h.rest :)

theorem tasks (h : net.Same after) : after.tasks = net.tasks :=
  (congrArg Network.tasks h.rest :)

theorem ready (h : net.Same after) : after.ready = net.ready :=
  (congrArg Network.ready h.rest :)

theorem waiting (h : net.Same after) : after.waiting = net.waiting :=
  (congrArg Network.waiting h.rest :)

theorem nextTask (h : net.Same after) : after.nextTask = net.nextTask :=
  (congrArg Network.nextTask h.rest :)

theorem surroundings (h : net.Same after) : after.surroundings = net.surroundings :=
  (congrArg Network.surroundings h.rest :)

/-- The member of a handle is the same but for its counters. -/
theorem member? (h : net.Same after) (found : net.member? handle = some member) :
    ∃ later, after.member? handle = some later ∧ later.uncounted = member.uncounted := by
  have hm := h.members handle
  rw [found, Option.map_some] at hm
  obtain ⟨later, hlater, hsame⟩ := Option.map_eq_some_iff.1 hm
  exact ⟨later, hlater, hsame⟩

theorem symm (h : net.Same after) : after.Same net where
  rest := by
    have hrest := congrArg (fun left : Network =>
      { left with endpoints := after.endpoints, tallies := after.tallies }) h.rest
    exact hrest.symm
  size := h.size.symm
  scripts := h.scripts.symm
  members handle := (h.members handle).symm

theorem alike (h : net.Same after) : net.Alike after where
  now := h.now
  directory := h.directory
  scripts := h.scripts
  size := h.size
  members handle := by
    have hm := congrArg (Option.map Member.face) (h.members handle)
    rwa [Option.map_map, Option.map_map] at hm

theorem nodeAt? (h : net.Same after) (handle : Handle) :
    after.nodeAt? handle = net.nodeAt? handle :=
  h.alike.nodeAt? handle

/-- Overwriting a member in both networks. -/
theorem setMember (h : net.Same after) {later newer : Member}
    (found : net.member? handle = some member) (found' : after.member? handle = some later)
    (same : newer.uncounted = new.uncounted) :
    (net.setMember handle new).Same (after.setMember handle newer) where
  rest := congrArg (fun left : Network => left.setMember handle new) h.rest
  size := by rw [size_setMember, size_setMember, h.size]
  scripts := by rw [script?_setMember found, script?_setMember found', h.scripts]
  members other := by
    rw [member?_setMember found, member?_setMember found']
    split
    · exact congrArg some same
    · exact h.members other

/-- Counting a call. -/
theorem counting (found : net.member? handle = some member)
    (same : new.uncounted = member.uncounted) : net.Same (net.setMember handle new) where
  rest := rfl
  size := size_setMember net handle new
  scripts := script?_setMember found new
  members other := by
    rw [member?_setMember found]
    split
    · rename_i heq
      rw [← heq, found, Option.map_some, Option.map_some, same]
    · rfl

theorem setNode (h : net.Same after) (handle : Handle) (new : Node) :
    (net.setNode handle new).Same (after.setNode handle new) := by
  cases found : net.member? handle with
  | none =>
      have hm := h.members handle
      rw [found, Option.map_none, Option.map_eq_none_iff] at hm
      rw [Network.setNode, Network.setNode, found, hm]
      exact h
  | some member =>
      obtain ⟨later, hlater, hsame⟩ := h.member? found
      rw [setNode_eq found, setNode_eq hlater]
      refine h.setMember found hlater ?_
      simp only [Member.uncounted, Member.mk.injEq] at hsame ⊢
      exact ⟨trivial, hsame.2⟩

theorem count (h : net.Same after) (counter : Counter) :
    (net.count counter).Same (after.count counter) :=
  ⟨congrArg (fun left : Network => left.count counter) h.rest, h.size, h.scripts, h.members⟩

/-- Counting an event. -/
theorem counted (net : Network) (counter : Counter) : net.Same (net.count counter) :=
  ⟨rfl, rfl, rfl, fun _ => rfl⟩

theorem spawn (h : net.Same after) (task : Task) : (net.spawn task).Same (after.spawn task) :=
  ⟨congrArg (fun left : Network => left.spawn task) h.rest, h.size, h.scripts, h.members⟩

theorem grant (h : net.Same after) (number : Nat) :
    (net.grant number).Same (after.grant number) := by
  rw [Network.grant, Network.grant, h.tasks]
  split
  · exact ⟨congrArg (fun left : Network => (left.putTask number _).makeReady number) h.rest, h.size,
      h.scripts, h.members⟩
  · exact h

theorem perform (h : net.Same after) (handle : Handle) (effect : Effect) :
    (net.perform handle effect).Same (after.perform handle effect) := by
  cases found : net.member? handle with
  | none =>
      have hm := h.members handle
      rw [found, Option.map_none, Option.map_eq_none_iff] at hm
      rw [perform_none found, perform_none hm]
      exact h
  | some member =>
      obtain ⟨later, hlater, hsame⟩ := h.member? found
      have hfields := hsame
      simp only [Member.uncounted, Member.mk.injEq] at hfields
      obtain ⟨hnode, hlink, hdelay, hbox, hsending⟩ := hfields
      cases effect with
      | release id =>
          have hlocks : (later.withLocks (later.node.locks.release id).2).uncounted =
              (member.withLocks (member.node.locks.release id).2).uncounted := by
            simp only [Member.uncounted, Member.withLocks, Member.mk.injEq, hnode]
            exact ⟨trivial, hlink, hdelay, hbox, hsending⟩
          rw [perform_release found, perform_release hlater, hnode]
          rw [hnode] at hlocks
          split
          · exact (h.setMember found hlater hlocks).grant _
          · exact h.setMember found hlater hlocks
      | spawn operation =>
          rw [perform_spawn found, perform_spawn hlater]
          exact h.spawn _
      | announce requester =>
          rw [perform_announce found, perform_announce hlater, hsending]
          split
          · refine h.setMember found hlater ?_
            simp only [Member.uncounted, Member.mk.injEq]
            exact ⟨hnode, hlink, hdelay, by rw [hbox], trivial⟩
          · refine (h.setMember found hlater ?_).spawn _
            simp only [Member.uncounted, Member.mk.injEq]
            exact ⟨hnode, hlink, hdelay, hbox, trivial⟩
      | tally counter =>
          rw [perform_tally found, perform_tally hlater]
          exact h.count counter

theorem enact (h : net.Same after) (handle : Handle) (turn : Turn result) :
    (net.enact handle turn).Same (after.enact handle turn) := by
  have hset := h.setNode handle turn.node
  rw [Network.enact, Network.enact]
  generalize net.setNode handle turn.node = first at hset
  generalize after.setNode handle turn.node = second at hset
  induction turn.effects generalizing first second with
  | nil => exact hset
  | cons effect rest ih => exact ih _ _ (hset.perform handle effect)

end Same

/-! ## Questions that are answered at once -/

/-- Every member can be reached at once, and there are no scripted peers. -/
structure Prompt (net : Network) : Prop where
  members : ∀ handle member, net.member? handle = some member → member.Prompt
  scripts : ∀ handle, net.script? handle = none

theorem Prompt.same (prompt : net.Prompt) (same : net.Same after) : after.Prompt where
  members handle later found := by
    obtain ⟨member, hmember, huncounted⟩ := same.symm.member? found
    exact (prompt.members handle member hmember).congr huncounted.symm
  scripts handle := by rw [same.scripts, prompt.scripts]

/-- A member that is there can be asked. -/
theorem Prompt.passes (prompt : net.Prompt) {contact : Contact}
    (meets : net.nodeAt? (contact.at handle) = some asked) (method : Method) :
    ∃ next, net.Passes contact method next ∧ net.Same next := by
  cases contact with
  | own => exact ⟨net, rfl, Same.refl net⟩
  | remote peer =>
      obtain ⟨member, hmember, -⟩ := nodeAt?_eq_some.1 meets
      obtain ⟨hdelays, hfaults, -⟩ := prompt.members peer member hmember
      refine ⟨_, ⟨member, hmember, ?_, ?_, rfl⟩,
        Same.counting hmember (member.uncounted_counting method)⟩
      · rw [Link.delay, hdelays]
        split <;> rfl
      · rw [Link.fails, hfaults]
        rfl

/-- A turn that only leads on leaves the network as it is. -/
theorem enact_same {turn : Turn result} (found : net.nodeAt? handle = some node)
    (same : turn.node = node) (quiet : turn.effects = []) : net.enact handle turn = net := by
  rw [enact, quiet, List.foldl_nil, same, setNode_self found]

/-! ## What a turn achieves -/

/-- A member that takes a turn comes, without a wait, to an outcome and a network as stated. -/
def Achieves (number : Nat) (net : Network) (handle : Handle) (turn : Turn result)
    (post : Outcome result → Network → Prop) : Prop :=
  ∃ outcome after, Yields number net handle turn outcome after ∧ post outcome after

namespace Achieves

variable {turn : Turn result} {post weaker : Outcome result → Network → Prop}
  {frame : Frame shape result} {contact : Contact} {request : Request shape}
  {outcome : Outcome result} {answer : Outcome shape}

theorem weaken (h : Achieves number net handle turn post)
    (implies : ∀ outcome after, post outcome after → weaker outcome after) :
    Achieves number net handle turn weaker := by
  obtain ⟨outcome, after, hyields, hpost⟩ := h
  exact ⟨outcome, after, hyields, implies outcome after hpost⟩

theorem reply (acts : turn.action = .reply outcome)
    (achieved : post outcome (net.enact handle turn)) : Achieves number net handle turn post :=
  ⟨outcome, _, .reply acts, achieved⟩

/-- A turn that only answers. -/
theorem answer_same (found : net.nodeAt? handle = some node) (achieved : post outcome net) :
    Achieves number net handle (node.reply outcome) post := by
  refine reply rfl ?_
  rwa [enact_same found rfl rfl]

/-- A turn that asks a member which is there. -/
theorem ask (acts : turn.action = .ask contact request frame)
    (prompt : (net.enact handle turn).Prompt)
    (meets : (net.enact handle turn).nodeAt? (contact.at handle) = some asked)
    (serves : ∀ next, (net.enact handle turn).Same next →
      Achieves number next (contact.at handle) (asked.serve next.surroundings request)
        fun answer mid => ∃ node, mid.nodeAt? handle = some node ∧
          Achieves number mid handle (node.resume mid.surroundings frame answer) post) :
    Achieves number net handle turn post := by
  obtain ⟨next, hpasses, hsame⟩ := prompt.passes meets request.method
  obtain ⟨answer, mid, hserves, node, hnode, outcome, after, hresumes, hpost⟩ := serves next hsame
  exact ⟨outcome, after, .ask acts hpasses ((hsame.nodeAt? _).trans meets) hserves hnode hresumes,
    hpost⟩

/-- A turn that asks a member which answers at once and stays as it is. -/
theorem query (acts : turn.action = .ask contact request frame)
    (found : net.nodeAt? handle = some node) (same : turn.node = node) (quiet : turn.effects = [])
    (prompt : net.Prompt) (meets : net.nodeAt? (contact.at handle) = some asked)
    (answers : asked.serve net.surroundings request = asked.reply answer)
    (resumes : ∀ mid, net.Same mid →
      Achieves number mid handle (node.resume mid.surroundings frame answer) post) :
    Achieves number net handle turn post := by
  have henact := enact_same found same quiet
  refine ask acts (by rwa [henact]) (by rwa [henact]) fun next hnext => ?_
  rw [henact] at hnext
  rw [hnext.surroundings, answers]
  refine answer_same ((hnext.nodeAt? _).trans meets) ⟨node, (hnext.nodeAt? _).trans found, ?_⟩
  exact resumes next hnext

/-- A turn that carries out another operation first. -/
theorem run {operation : Operation shape} {first : Node}
    (acts : turn.action = .run operation frame)
    (meets : (net.enact handle turn).nodeAt? handle = some first)
    (starts : Achieves number (net.enact handle turn) handle
      (first.start (net.enact handle turn).surroundings operation)
        fun answer mid => ∃ node, mid.nodeAt? handle = some node ∧
          Achieves number mid handle (node.resume mid.surroundings frame answer) post) :
    Achieves number net handle turn post := by
  obtain ⟨answer, mid, hstarts, node, hnode, outcome, after, hresumes, hpost⟩ := starts
  exact ⟨outcome, after, .run acts meets hstarts hnode hresumes, hpost⟩

/-- A turn that only carries out another operation first. -/
theorem run_same {operation : Operation shape} (acts : turn.action = .run operation frame)
    (found : net.nodeAt? handle = some node) (same : turn.node = node) (quiet : turn.effects = [])
    (starts : Achieves number net handle (node.start net.surroundings operation)
      fun answer mid => ∃ node, mid.nodeAt? handle = some node ∧
        Achieves number mid handle (node.resume mid.surroundings frame answer) post) :
    Achieves number net handle turn post := by
  have henact := enact_same found same quiet
  refine run acts (henact.symm ▸ found) ?_
  rwa [henact]

end Achieves

end Network

end RecordRing
