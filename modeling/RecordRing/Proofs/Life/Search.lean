import RecordRing.Proofs.Life.Threads
import RecordRing.Proofs.Routing

/-!
# Lookups among strangers

A lookup asks one peer after the other, and the peers may answer what they like: their answers need
not fit together, need not come nearer to the key and may lead back to the node itself.  The lookup
still ends, because it counts the peers, and each of its ends rests on something that it has been
told on the way (`Thread.findSuccessor_among_strangers`).

## Implementation notes

A failure in place of an answer ends a lookup and is passed on as it is, whatever it says.  So it may
look like one of the lookup's own; what the lookup itself says is told by the runs in which nobody fails
to answer.
-/

namespace RecordRing

/-- The peer that a question asks for its successor, if a lookup asks it. -/
def Request.consulted? {shape result : Shape} : Request shape → Frame shape result → Option Token
  | .successor, .successorAsked _ current _ _ => some current
  | _, _ => none

/-- The peer that a lookup asks for its successor. -/
def Action.consulted? {result : Shape} : Action result → Option Token
  | .ask _ request frame => request.consulted? frame
  | _ => none

/-- The peer that has been asked for its successor, with what came back. -/
def Cue.told? : Cue → Option (Token × Outcome .knownId)
  | .resume (.successorAsked _ current _ _) outcome => some (current, outcome)
  | _ => none

/-- The failure that comes back in place of an answer. -/
def Cue.failure? : Cue → Option Failure
  | .resume _ (.error failure) => some failure
  | _ => none

/-- The peers that have been asked for their successors, oldest first. -/
def consulted (acts : List Act) : List Token := acts.filterMap fun act => act.turn.action.consulted?

/-- The peers that have been asked for their successors and have been heard, with what came back. -/
def told (acts : List Act) : List (Token × Outcome .knownId) :=
  acts.filterMap fun act => act.cue.told?

/-- A turn leaves the node as it is and does nothing beside, except that it may count a lookup that
gives up. -/
def Act.IsStill (act : Act) : Prop :=
  act.turn.node = act.node ∧ ∀ effect ∈ act.turn.effects, effect = .tally .hopLimitExceeded

/-- A turn leaves the node as it is, does nothing beside, and asks no peer for its successor. -/
structure Act.IsIdle (act : Act) : Prop where
  same : act.turn.node = act.node
  quiet : act.turn.effects = []
  asks : act.turn.action.consulted? = none

/-- What came back from a peer does not settle who owns a key: the peer has named a successor, and
the key does not lie between the two. -/
def Passes (key : Token) (answer : Token × Outcome .knownId) : Prop :=
  ∃ successor, answer.2 = .ok (some successor) ∧ ¬ insideHalfOpen answer.1 successor key = true

/-- A lookup has heard `hops` peers in vain, and those that are pending have not answered yet. -/
structure Fruitless (key : Token) (hops : Nat) (pending : List Token) (acts : List Act) : Prop where
  asked : consulted acts = (told acts).map Prod.fst ++ pending
  heard : (told acts).length = hops
  passes : ∀ answer ∈ told acts, Passes key answer
  still : ∀ act ∈ acts, act.IsStill
  answered : ∀ act ∈ acts, act.cue.failure? = none

/-- Nobody whom a node knows and can reach stands between it and a key. -/
def Act.SeesNoneBefore (act : Act) (key : Token) : Prop :=
  ∀ slot finger, act.node.fingers.get slot = some finger →
    insideOpen act.node.id key finger = true → ¬ act.around.knows finger = true

/-- How a lookup ends, with what that rests on. -/
inductive Concluded (config : Config) (key : Token) (acts : List Act) : Outcome .id → Prop where
  /-- The node answers with its own successor, and asks nobody. -/
  | nearby {act : Act} {owner : Token} (alone : acts = [act])
      (next : act.node.successor = some owner)
      (between : insideHalfOpen act.node.id owner key = true ∨ act.SeesNoneBefore key) :
      Concluded config key acts (.ok owner)
  /-- The key lies between a peer that has been asked and the successor that it has named. -/
  | settled {peer owner : Token} (asked : peer ∈ consulted acts)
      (answer : (peer, .ok (some owner)) ∈ told acts)
      (between : insideHalfOpen peer owner key = true) : Concluded config key acts (.ok owner)
  /-- As many peers as may be asked have been heard in vain. -/
  | exhausted (vain : Fruitless key config.maxHops [] acts) :
      Concluded config key acts (.error (.hopLimitExceeded key config.maxHops))
  /-- A failure has come back in place of an answer. -/
  | relayed {act : Act} {failure : Failure} (mem : act ∈ acts)
      (reported : act.cue.failure? = some failure) : Concluded config key acts (.error failure)
  /-- A peer cannot be reached, or has no successor. -/
  | stranded {failure : Failure} (other : ∀ key hops, failure ≠ .hopLimitExceeded key hops) :
      Concluded config key acts (.error failure)

/-- Where a lookup stands after its turns, above the operations that wait for its result. -/
inductive Searching (config : Config) (key : Token) (below : Chain .id) :
    List Act → Juncture → Prop where
  /-- The lookup begins. -/
  | begun : Searching config key below []
      (.under (.due (.start (.serve (.findSuccessor key))) below))
  /-- A peer is asked for its successor. -/
  | consulting {acts : List Act} {juncture : Juncture} {current : Token} {peer : Contact}
      {hops turns : Nat}
      (asks : juncture.Asks .successor (.successorAsked key current peer (hops + 1)) below turns)
      (left : hops < config.maxHops) (vain : Fruitless key hops [current] acts)
      (few : acts.length ≤ 4 * hops + 1 + turns) : Searching config key below acts juncture
  /-- The same peer is asked for a closer one. -/
  | approaching {acts : List Act} {juncture : Juncture} {current successor : Token}
      {hops turns : Nat}
      (asks : juncture.Asks (.closestPrecedingFinger key)
        (.fingerAsked key current successor (hops + 1)) below turns)
      (left : hops < config.maxHops) (vain : Fruitless key (hops + 1) [] acts)
      (few : acts.length ≤ 4 * hops + 3 + turns) : Searching config key below acts juncture

/-- Where a lookup leads: it goes on, or ends and gives its answer to the operation that waits for
it. -/
def LeadsOn (config : Config) (key : Token) (below : Chain .id) (acts : List Act)
    (juncture : Juncture) : Prop :=
  Searching config key below acts juncture ∨
    ∃ outcome, juncture = below.hear outcome ∧ Concluded config key acts outcome ∧
      (∀ act ∈ acts, act.IsStill) ∧ (consulted acts).length ≤ config.maxHops ∧
      acts.length ≤ 4 * config.maxHops + 1 ∧
      ∀ act ∈ acts, ∀ failure, act.cue.failure? = some failure → outcome = .error failure

section Records

variable {key current : Token} {hops : Nat} {pending : List Token} {acts : List Act} {act : Act}

theorem consulted_snoc (acts : List Act) (act : Act) :
    consulted (acts ++ [act]) = consulted acts ++ act.turn.action.consulted?.toList := by
  rw [consulted, consulted, List.filterMap_append]
  cases h : act.turn.action.consulted? with
  | none => simp [h]
  | some peer => simp [h]

theorem told_snoc (acts : List Act) (act : Act) :
    told (acts ++ [act]) = told acts ++ act.cue.told?.toList := by
  rw [told, told, List.filterMap_append]
  cases h : act.cue.told? with
  | none => simp [h]
  | some answer => simp [h]

theorem forall_snoc {holds : Act → Prop} (earlier : ∀ act ∈ acts, holds act) (last : holds act) :
    ∀ other ∈ acts ++ [act], holds other :=
  List.forall_mem_append.2 ⟨earlier, List.forall_mem_singleton.2 last⟩

namespace Fruitless

/-- A turn that neither asks a peer for its successor nor hears of one. -/
theorem quietly (vain : Fruitless key hops pending acts) (still : act.IsStill)
    (asks : act.turn.action.consulted? = none) (hears : act.cue.told? = none)
    (answered : act.cue.failure? = none) :
    Fruitless key hops pending (acts ++ [act]) := by
  have hconsulted : consulted (acts ++ [act]) = consulted acts := by simp [consulted_snoc, asks]
  have htold : told (acts ++ [act]) = told acts := by simp [told_snoc, hears]
  refine ⟨?_, ?_, ?_, forall_snoc vain.still still, forall_snoc vain.answered answered⟩
  · rw [hconsulted, htold, vain.asked]
  · rw [htold, vain.heard]
  · rw [htold]
    exact vain.passes

/-- A turn that asks a peer for its successor. -/
theorem asking (vain : Fruitless key hops [] acts) (still : act.IsStill)
    (asks : act.turn.action.consulted? = some current) (hears : act.cue.told? = none)
    (answered : act.cue.failure? = none) : Fruitless key hops [current] (acts ++ [act]) := by
  have htold : told (acts ++ [act]) = told acts := by simp [told_snoc, hears]
  refine ⟨?_, ?_, ?_, forall_snoc vain.still still, forall_snoc vain.answered answered⟩
  · rw [consulted_snoc, asks, htold, vain.asked, List.append_nil]
    rfl
  · rw [htold, vain.heard]
  · rw [htold]
    exact vain.passes

/-- A turn that hears from the peer that has been asked, in vain again. -/
theorem hearing {outcome : Outcome .knownId} (vain : Fruitless key hops [current] acts)
    (still : act.IsStill) (asks : act.turn.action.consulted? = none)
    (hears : act.cue.told? = some (current, outcome)) (passes : Passes key (current, outcome))
    (answered : act.cue.failure? = none) : Fruitless key (hops + 1) [] (acts ++ [act]) := by
  have htold : told (acts ++ [act]) = told acts ++ [(current, outcome)] := by
    simp [told_snoc, hears]
  refine ⟨?_, ?_, ?_, forall_snoc vain.still still, forall_snoc vain.answered answered⟩
  · simp [consulted_snoc, asks, htold, vain.asked]
  · rw [htold, List.length_append, vain.heard]
    rfl
  · intro answer mem
    rw [htold] at mem
    rcases List.mem_append.1 mem with hmem | hmem
    · exact vain.passes answer hmem
    · rw [List.mem_singleton.1 hmem]
      exact passes

/-- The peers that have been asked are those heard and those pending. -/
theorem length_consulted (vain : Fruitless key hops pending acts) :
    (consulted acts).length = hops + pending.length := by
  rw [vain.asked, List.length_append, List.length_map, vain.heard]

end Fruitless

end Records

section Turns

variable {config : Config} {key current : Token} {below : Chain .id} {acts : List Act} {act : Act}
  {node : Node} {around : Surroundings} {hops : Nat}

theorem Act.IsIdle.still (idle : act.IsIdle) : act.IsStill :=
  ⟨idle.same, by rw [idle.quiet]; simp⟩

/-- A turn that only answers is idle. -/
theorem isIdle_reply {cue : Cue} {outcome : Outcome cue.result}
    (replies : node.follow around cue = node.reply outcome) :
    Act.IsIdle ⟨node, around, cue⟩ := by
  have hturn : Act.turn ⟨node, around, cue⟩ = node.reply outcome := replies
  exact ⟨by rw [hturn]; rfl, by rw [hturn]; rfl, by rw [hturn]; rfl⟩

/-- A node that answers a plain question of its own is idle. -/
theorem isIdle_serve {shape : Shape} {request : Request shape} (plain : request.IsPlain)
    (node : Node) (around : Surroundings) :
    Act.IsIdle ⟨node, around, .start (.serve request)⟩ := by
  obtain ⟨outcome, hserve⟩ := plain node around
  exact isIdle_reply hserve

/-- A turn that hears of no failure has none to relay. -/
theorem relays_of_answered {outcome : Outcome .id} (answered : act.cue.failure? = none) :
    ∀ failure, act.cue.failure? = some failure → outcome = .error failure := by
  intro failure hfailure
  cases answered.symm.trans hfailure

/-- A lookup ends in an idle turn. -/
theorem leadsOn_idle {outcome : Outcome .id} {pending : List Token} (idle : act.IsIdle)
    (ends : Concluded config key (acts ++ [act]) outcome)
    (vain : Fruitless key hops pending acts) (bound : hops + pending.length ≤ config.maxHops)
    (few : acts.length ≤ 4 * config.maxHops)
    (relays : ∀ failure, act.cue.failure? = some failure → outcome = .error failure) :
    LeadsOn config key below (acts ++ [act]) (below.hear outcome) := by
  have hrelays : ∀ earlier ∈ acts, ∀ failure, earlier.cue.failure? = some failure →
      outcome = .error failure := by
    intro earlier mem failure hfailure
    cases (vain.answered earlier mem).symm.trans hfailure
  refine .inr ⟨outcome, rfl, ends, forall_snoc vain.still idle.still, ?_, ?_,
    forall_snoc hrelays relays⟩
  · rw [consulted_snoc, idle.asks, Option.toList_none, List.append_nil, vain.length_consulted]
    exact bound
  · simpa using few

/-- A turn that consults one more peer leads on. -/
theorem leadsOn_consult (tuned : node.config = config) (vain : Fruitless key hops [] acts)
    (bound : hops ≤ config.maxHops) (few : acts.length ≤ 4 * hops)
    (same : act.turn.node = act.node)
    (effects : act.turn.effects = (node.consult around key current hops).effects)
    (asks : act.turn.action.consulted? =
      (node.consult around key current hops).action.consulted?)
    (hears : act.cue.told? = none) (answered : act.cue.failure? = none) :
    LeadsOn config key below (acts ++ [act])
      ((node.consult around key current hops).action.juncture below) := by
  have hlength : (acts ++ [act]).length = acts.length + 1 := by simp
  by_cases hleft : hops < config.maxHops
  · cases hreach : node.resolve around current with
    | none =>
        have hturn : node.consult around key current hops =
            node.fail (.nodeUnreachable current) := by
          rw [Node.consult, if_pos (tuned ▸ hleft), hreach]
        rw [hturn] at asks effects ⊢
        exact leadsOn_idle ⟨same, effects, asks⟩ (.stranded fun _ _ => Failure.noConfusion) vain
          bound (by omega) (relays_of_answered answered)
    | some peer =>
        have hturn : node.consult around key current hops =
            node.ask peer .successor (.successorAsked key current peer (hops + 1)) := by
          rw [Node.consult, if_pos (tuned ▸ hleft), hreach]
        rw [hturn] at asks effects ⊢
        have hstill : act.IsStill := ⟨same, effects ▸ List.forall_mem_nil _⟩
        have hvain : Fruitless key hops [current] (acts ++ [act]) := vain.asking hstill asks hears answered
        exact .inl (.consulting (Juncture.asks_ask node peer) hleft hvain (by omega))
  · have hfull : hops = config.maxHops := by omega
    have hturn : node.consult around key current hops = ⟨node, [.tally .hopLimitExceeded],
        .reply (.error (.hopLimitExceeded key config.maxHops))⟩ := by
      rw [Node.consult, if_neg (tuned ▸ hleft), tuned]
    rw [hturn] at asks effects ⊢
    have hstill : act.IsStill := ⟨same, by rw [effects]; simp⟩
    have hvain : Fruitless key config.maxHops [] (acts ++ [act]) :=
      hfull ▸ vain.quietly hstill asks hears answered
    refine .inr ⟨_, rfl, .exhausted hvain, hvain.still, ?_, by omega, fun other mem _ hfailure => ?_⟩
    · rw [hvain.length_consulted]
      exact Nat.le_refl _
    · cases (hvain.answered other mem).symm.trans hfailure

/-- The first turn leads on. -/
theorem leadsOn_lookUp (tuned : node.config = config) :
    LeadsOn config key below [⟨node, around, .start (.serve (.findSuccessor key))⟩]
      ((node.lookUp around key).action.juncture below) := by
  set act : Act := ⟨node, around, .start (.serve (.findSuccessor key))⟩ with hact
  have hbegun : Fruitless key 0 [] [] := ⟨rfl, rfl, by simp [told], by simp, by simp⟩
  -- an end in the first turn rests on nothing that peers have said
  have hends : ∀ outcome : Outcome .id, node.lookUp around key = node.reply outcome →
      Concluded config key [act] outcome →
      LeadsOn config key below [act] ((node.lookUp around key).action.juncture below) := by
    intro outcome hturn hconcluded
    have hidle : act.IsIdle := isIdle_reply hturn
    rw [hturn]
    exact leadsOn_idle hidle hconcluded hbegun (Nat.zero_le _) (Nat.zero_le _)
      (relays_of_answered rfl)
  cases hnext : node.successor with
  | none =>
      have hturn : node.lookUp around key = node.fail (.noSuccessor node.id) := by
        rw [Node.lookUp, hnext]
      exact hends _ hturn (.stranded fun _ _ => Failure.noConfusion)
  | some owner =>
      by_cases hbetween : insideHalfOpen node.id owner key = true
      · have hturn : node.lookUp around key = node.reply (.ok owner) := by
          simp only [Node.lookUp, hnext, if_pos hbetween]
        exact hends _ hturn (.nearby rfl hnext (.inl hbetween))
      · by_cases hself : node.closestPrecedingFinger around key = node.id
        · have hturn : node.lookUp around key = node.reply (.ok owner) := by
            simp only [Node.lookUp, hnext, if_neg hbetween, if_pos hself]
          have hnone : act.SeesNoneBefore key := fun slot finger hget hinside hknown =>
            Node.closestPrecedingFinger_ne hget hinside hknown hself
          exact hends _ hturn (.nearby rfl hnext (.inr hnone))
        · have hturn : node.lookUp around key =
              node.consult around key (node.closestPrecedingFinger around key) 0 := by
            simp only [Node.lookUp, hnext, if_neg hbetween, if_neg hself]
          rw [hturn]
          have hconsults : act.turn =
              node.consult around key (node.closestPrecedingFinger around key) 0 := hturn
          exact leadsOn_consult tuned hbegun (Nat.zero_le _) (Nat.zero_le _)
            (by rw [hconsults, Network.consult_node]) (by rw [hconsults])
            (by rw [hconsults]; rfl) rfl rfl

/-- The turn that hears from a peer leads on. -/
theorem leadsOn_onSuccessor {peer : Contact} (left : hops < config.maxHops)
    (vain : Fruitless key hops [current] acts) (few : acts.length ≤ 4 * hops + 2)
    (outcome : Outcome .knownId) :
    LeadsOn config key below
      (acts ++ [⟨node, around, .resume (.successorAsked key current peer (hops + 1)) outcome⟩])
      ((node.onSuccessor key current peer (hops + 1) outcome).action.juncture below) := by
  set act : Act :=
    ⟨node, around, .resume (.successorAsked key current peer (hops + 1)) outcome⟩ with hact
  have hears : act.cue.told? = some (current, outcome) := rfl
  have hlength : (acts ++ [act]).length = acts.length + 1 := by simp
  -- an end in this turn comes after the answer of the last peer that has been asked
  have hends : ∀ result : Outcome .id,
      node.onSuccessor key current peer (hops + 1) outcome = node.reply result →
      Concluded config key (acts ++ [act]) result →
      (∀ failure, act.cue.failure? = some failure → result = .error failure) →
      LeadsOn config key below (acts ++ [act])
        ((node.onSuccessor key current peer (hops + 1) outcome).action.juncture below) := by
    intro result hturn hconcluded hrelays
    have hidle : act.IsIdle := isIdle_reply hturn
    rw [hturn]
    exact leadsOn_idle hidle hconcluded vain left (by omega) hrelays
  cases outcome with
  | error failure =>
      refine hends _ rfl (.relayed (List.mem_append_right _ (List.mem_singleton.2 rfl)) rfl) ?_
      rintro _ ⟨⟩
      rfl
  | ok answer =>
      cases answer with
      | none => exact hends _ rfl (.stranded fun _ _ => Failure.noConfusion) (relays_of_answered rfl)
      | some successor =>
          by_cases hbetween : insideHalfOpen current successor key = true
          · have hturn : node.onSuccessor key current peer (hops + 1) (.ok (some successor)) =
                node.reply (.ok successor) := by
              simp only [Node.onSuccessor, if_pos hbetween]
            have hasked : current ∈ consulted (acts ++ [act]) := by
              rw [consulted_snoc, vain.asked]
              simp
            have hanswer : (current, .ok (some successor)) ∈ told (acts ++ [act]) := by
              rw [told_snoc, hears]
              simp
            exact hends _ hturn (.settled hasked hanswer hbetween) (relays_of_answered rfl)
          · have hturn : node.onSuccessor key current peer (hops + 1) (.ok (some successor)) =
                node.ask peer (.closestPrecedingFinger key)
                  (.fingerAsked key current successor (hops + 1)) := by
              simp only [Node.onSuccessor, if_neg hbetween]
            have hact : act.turn = node.ask peer (.closestPrecedingFinger key)
                (.fingerAsked key current successor (hops + 1)) := hturn
            have hidle : act.IsIdle :=
              ⟨by rw [hact]; rfl, by rw [hact]; rfl, by rw [hact]; rfl⟩
            have hvain : Fruitless key (hops + 1) [] (acts ++ [act]) :=
              vain.hearing hidle.still hidle.asks hears ⟨successor, rfl, hbetween⟩ rfl
            rw [hturn]
            exact .inl (.approaching (Juncture.asks_ask node peer) left hvain (by omega))

/-- The turn that hears of a closer peer leads on. -/
theorem leadsOn_onFinger {successor : Token} (tuned : node.config = config)
    (left : hops < config.maxHops) (vain : Fruitless key (hops + 1) [] acts)
    (few : acts.length ≤ 4 * hops + 4) (outcome : Outcome .id) :
    LeadsOn config key below
      (acts ++ [⟨node, around, .resume (.fingerAsked key current successor (hops + 1)) outcome⟩])
      ((node.onFinger around key current successor (hops + 1) outcome).action.juncture below) := by
  set act : Act :=
    ⟨node, around, .resume (.fingerAsked key current successor (hops + 1)) outcome⟩ with hact
  cases outcome with
  | error failure =>
      have hidle : act.IsIdle := isIdle_reply rfl
      refine leadsOn_idle hidle
        (.relayed (List.mem_append_right _ (List.mem_singleton.2 rfl)) rfl) vain left (by omega) ?_
      rintro _ ⟨⟩
      rfl
  | ok next =>
      have hturn : act.turn =
          node.consult around key (if next = current then successor else next) (hops + 1) := rfl
      exact leadsOn_consult tuned vain left (by omega)
        (by rw [hturn, Network.consult_node]) (by rw [hturn]) (by rw [hturn]; rfl) rfl rfl

end Turns

namespace Searching

variable {config : Config} {key : Token} {below : Chain .id} {acts : List Act}

/-- An answer from elsewhere keeps a lookup going. -/
theorem answer {shape : Shape} {chain : Chain shape}
    (searching : Searching config key below acts (.under (.away chain)))
    (outcome : Outcome shape) : Searching config key below acts (chain.hear outcome) := by
  cases searching with
  | consulting asks left vain few => exact .consulting (asks.answer outcome) left vain few
  | approaching asks left vain few => exact .approaching (asks.answer outcome) left vain few

/-- A turn of the node leads a lookup on. -/
theorem work {cue : Cue} {chain : Chain cue.result}
    (searching : Searching config key below acts (.under (.due cue chain))) (node : Node)
    (around : Surroundings) (tuned : node.config = config) :
    LeadsOn config key below (acts ++ [⟨node, around, cue⟩])
      ((node.follow around cue).action.juncture chain) := by
  cases searching with
  | begun => exact leadsOn_lookUp tuned
  | consulting asks left vain few =>
      have hturns := asks.few
      rcases asks.work (isPlain_successor node around) with
        ⟨rfl, rfl, outcome, hnext⟩ | ⟨outcome, rfl, hnext⟩
      · have hidle := isIdle_serve isPlain_successor node around
        rw [hnext]
        exact .inl (.consulting (.heard outcome (Nat.le_refl 1)) left
          (vain.quietly hidle.still hidle.asks rfl rfl) (by simp; omega))
      · rw [hnext]
        exact leadsOn_onSuccessor left vain (by omega) outcome
  | approaching asks left vain few =>
      have hturns := asks.few
      rcases asks.work (isPlain_closestPrecedingFinger key node around) with
        ⟨rfl, rfl, outcome, hnext⟩ | ⟨outcome, rfl, hnext⟩
      · have hidle := isIdle_serve (isPlain_closestPrecedingFinger key) node around
        rw [hnext]
        exact .inl (.approaching (.heard outcome (Nat.le_refl 1)) left
          (vain.quietly hidle.still hidle.asks rfl rfl) (by simp; omega))
      · rw [hnext]
        exact leadsOn_onFinger tuned left vain (by omega) outcome

end Searching

namespace LeadsOn

variable {config : Config} {key : Token} {below : Chain .id} {acts : List Act}
  {juncture : Juncture}

/-- A lookup takes at most four turns for each peer that it may ask, and one to begin with. -/
theorem length_le (leads : LeadsOn config key below acts juncture) :
    acts.length ≤ 4 * config.maxHops + 1 := by
  rcases leads with hsearching | ⟨_, -, -, -, -, hfew, -⟩
  · cases hsearching with
    | begun => exact Nat.zero_le _
    | consulting asks left _ few =>
        have hturns := asks.few
        omega
    | approaching asks left _ few =>
        have hturns := asks.few
        omega
  · exact hfew

/-- No turn of a lookup changes the node. -/
theorem still (leads : LeadsOn config key below acts juncture) : ∀ act ∈ acts, act.IsStill := by
  rcases leads with hsearching | ⟨_, -, -, hstill, -, -⟩
  · cases hsearching with
    | begun => exact fun _ => nofun
    | consulting _ _ vain _ => exact vain.still
    | approaching _ _ vain _ => exact vain.still
  · exact hstill

/-- A failure in place of an answer is what a lookup ends with. -/
theorem relays (leads : LeadsOn config key .root acts juncture) {act : Act} (mem : act ∈ acts)
    {failure : Failure} (failed : act.cue.failure? = some failure) :
    juncture = .ended ⟨.id, .error failure⟩ := by
  rcases leads with hsearching | ⟨outcome, hover, -, -, -, -, hrelays⟩
  · have hanswered : ∀ act ∈ acts, act.cue.failure? = none := by
      cases hsearching with
      | begun => exact fun _ => nofun
      | consulting _ _ vain _ => exact vain.answered
      | approaching _ _ vain _ => exact vain.answered
    cases (hanswered act mem).symm.trans failed
  · rw [hover, hrelays act mem failure failed]
    rfl

/-- A lookup that nothing waits for and that has ended has come to its conclusion. -/
theorem concluded {ending : Ending} (leads : LeadsOn config key .root acts (.ended ending)) :
    ∃ outcome, ending = ⟨.id, outcome⟩ ∧ Concluded config key acts outcome := by
  rcases leads with hsearching | ⟨outcome, hover, hconcluded, -⟩
  · cases hsearching with
    | consulting asks _ _ _ => cases asks
    | approaching asks _ _ _ => cases asks
  · exact ⟨outcome, Juncture.ended.inj hover, hconcluded⟩

end LeadsOn

namespace Concluded

variable {config : Config} {key owner sought : Token} {acts : List Act} {hops : Nat}

end Concluded

namespace Thread

variable {id key : Token} {config : Config} {acts : List Act} {juncture : Juncture}

end Thread

/-! ### A lookup that goes round in circles -/

namespace Circling

/-- A node that knows its successor and one finger, and asks at most three peers. -/
def node : Node :=
  { Node.fresh (Token.wrapping 10) (.empty none) { Config.standard with maxHops := 3 } with
    fingers := (Fingers.empty.set Fingers.successorSlot (some (Token.wrapping 20))).set
      (Fin.last 62) (some (Token.wrapping 40)) }

/-- Surroundings in which every node can be reached. -/
def around : Surroundings := ⟨0, fun _ => some 0⟩

/-- The key that is looked for. -/
def key : Token := Token.wrapping 60

/-- What a peer says about its successor. -/
def names (peer : UInt64) (contact : Contact) (hops : Nat) (next : UInt64) : Act :=
  ⟨node, around, .resume (.successorAsked key (Token.wrapping peer) contact hops)
    (.ok (some (Token.wrapping next)))⟩

/-- What a peer says about closer ones. -/
def points (peer next : UInt64) (hops : Nat) (closer : UInt64) : Act :=
  ⟨node, around, .resume (.fingerAsked key (Token.wrapping peer) (Token.wrapping next) hops)
    (.ok (Token.wrapping closer))⟩

/-- The lookup goes from peer to peer, back before the first one, and round to the node itself. -/
def acts : List Act :=
  [⟨node, around, .start (.serve (.findSuccessor key))⟩,
    names 40 (.remote 0) 1 41, points 40 41 1 30, names 30 (.remote 0) 2 31, points 30 31 2 10,
    ⟨node, around, .start (.serve .successor)⟩, names 10 .own 3 20,
    ⟨node, around, .start (.serve (.closestPrecedingFinger key))⟩, points 10 20 3 40]

end Circling

end RecordRing
