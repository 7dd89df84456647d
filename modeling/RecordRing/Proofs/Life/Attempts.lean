import RecordRing.Proofs.Life.Search

/-!
# Attempts to join

A join may fail in several places: the known node cannot be reached, it names no successor, the one
that it names cannot be reached, or does not take the notice.  A node that cannot reach the known
node stays as it is; after any other join it is joining, it has forgotten its predecessor and its
migration source, its successor is the old one or the one that has been named, and the rest of it is
as before.  So nothing but the successor is left of a failed join, and the next join writes the
successor again (`Undisturbed.join_clean_and_retryable`).

## Implementation notes

A node may be told to join by way of itself.  It then looks its place up on its own, and what it
finds may depend on the successor that an earlier attempt has left.
-/

namespace RecordRing

/-- What a joining node hears of its place. -/
def Cue.place? : Cue → Option (Outcome .id)
  | .resume .placeAsked outcome => some outcome
  | _ => none

/-- What a joining node has heard of its place. -/
def places (acts : List Act) : List (Outcome .id) := acts.filterMap fun act => act.cue.place?

/-- What a turn of a node depends on besides the node: the directory, and the answer of a peer. -/
def Act.given (act : Act) : Surroundings × Cue := (act.around, act.cue)

/-- What a join that has begun makes of a node: it is joining, and its successor is the one that it
has heard of, if it has heard of one. -/
structure Node.Rejoined (node : Node) (heard : List (Outcome .id)) (later : Node) : Prop where
  named : later.id = node.id
  tuned : later.config = node.config
  joining : later.lifecycle = .joining
  predecessor : later.predecessor = none
  source : later.migrationSource = none
  successor : ((∀ place, .ok place ∉ heard) ∧ later.successor = node.successor) ∨
    ∃ place, heard = [.ok place] ∧ later.successor = some place
  routing : ∀ slot, slot ≠ Fingers.successorSlot → later.fingers.get slot = node.fingers.get slot
  cursor : later.cursor = node.cursor
  store : later.store = node.store
  locks : later.locks = node.locks
  pending : later.pending = node.pending

/-- Failed joins, any number of them, one after the other. -/
inductive Retried (first : Node) : Node → Prop where
  /-- No join has been tried. -/
  | none : Retried first first
  /-- One more join fails. -/
  | more {node later : Node} {known : Token} {acts : List Act} {failure : Failure}
      (before : Retried first node)
      (fails : Undisturbed node (Operation.join known).called acts
        (.ended ⟨.nothing, .error failure⟩) later) : Retried first later

/-- The first turn of a join finds a way to the known node. -/
def SetsOut (node : Node) (known : Token) (acts : List Act) : Prop :=
  ∃ act, acts.head? = some act ∧ node.resolve act.around known ≠ none

/-- A join waits for the place of the node, which a peer or the node itself looks up, or has just
heard of it. -/
inductive AwaitsPlace (node : Node) : List Act → Juncture → Prop where
  /-- A peer looks the place up. -/
  | away (acts : List Act) : AwaitsPlace node acts (.under (.away (.wait .placeAsked .root)))
  /-- The node looks the place up. -/
  | searching (first : Act) {acts : List Act} {juncture : Juncture}
      (search : Searching node.config node.id (.wait .placeAsked .root) acts juncture) :
      AwaitsPlace node (first :: acts) juncture
  /-- The place has been looked up. -/
  | heard (acts : List Act) (outcome : Outcome .id) :
      AwaitsPlace node acts (.under (.due (.resume .placeAsked outcome) .root))

/-- Where a join stands after its turns, and what the node has become. -/
inductive Entering (node : Node) (known : Token) : List Act → Juncture → Node → Prop where
  /-- The join begins. -/
  | begun : Entering node known [] (Operation.join known).called node
  /-- The known node cannot be reached. -/
  | refused {around : Surroundings} (unknown : node.resolve around known = none) :
      Entering node known [⟨node, around, .start (.join known)⟩]
        (.ended ⟨.nothing, .error (.nodeUnreachable known)⟩) node
  /-- The place is looked up. -/
  | waiting {acts : List Act} {juncture : Juncture} (sets : SetsOut node known acts)
      (awaits : AwaitsPlace node acts juncture) (unheard : places acts = []) :
      Entering node known acts juncture node.rejoining
  /-- The place has not been found. -/
  | failed {acts : List Act} {failure : Failure} (sets : SetsOut node known acts)
      (unplaced : ∀ place, .ok place ∉ places acts) :
      Entering node known acts (.ended ⟨.nothing, .error failure⟩) node.rejoining
  /-- The place has been found, and the successor is told. -/
  | telling {acts : List Act} {juncture : Juncture} {place : Token} {turns : Nat}
      (sets : SetsOut node known acts) (heard : places acts = [.ok place])
      (asks : juncture.Asks (.notify node.id) .told .root turns) :
      Entering node known acts juncture (node.rejoining.setSuccessor place)
  /-- The place has been found, and the successor has been told or cannot be. -/
  | ended {acts : List Act} {place : Token} {outcome : Outcome .nothing}
      (sets : SetsOut node known acts) (heard : places acts = [.ok place]) :
      Entering node known acts (.ended ⟨.nothing, outcome⟩) (node.rejoining.setSuccessor place)

variable {node earlier later : Node} {known : Token} {acts : List Act} {juncture : Juncture}

theorem places_snoc (acts : List Act) (act : Act) :
    places (acts ++ [act]) = places acts ++ act.cue.place?.toList := by
  rw [places, places, List.filterMap_append]
  cases h : act.cue.place? with
  | none => simp [h]
  | some outcome => simp [h]

theorem places_quietly {act : Act} (quiet : act.cue.place? = none) :
    places (acts ++ [act]) = places acts := by
  rw [places_snoc, quiet, Option.toList_none, List.append_nil]

theorem SetsOut.snoc (sets : SetsOut node known acts) (act : Act) :
    SetsOut node known (acts ++ [act]) := by
  obtain ⟨first, hhead, hfound⟩ := sets
  exact ⟨first, by rw [List.head?_append, hhead]; rfl, hfound⟩

/-- A lookup on the way does not hear of the place yet. -/
theorem Searching.place? {config : Config} {key : Token} {below : Chain .id} {cue : Cue}
    {chain : Chain cue.result}
    (searching : Searching config key below acts (.under (.due cue chain))) :
    cue.place? = none := by
  cases searching with
  | begun => rfl
  | consulting asks _ _ _ => cases asks <;> rfl
  | approaching asks _ _ _ => cases asks <;> rfl

namespace Entering

/-- An answer from elsewhere keeps a join going. -/
theorem answer {shape : Shape} {chain : Chain shape}
    (entering : Entering node known acts (.under (.away chain)) later) (outcome : Outcome shape) :
    Entering node known acts (chain.hear outcome) later := by
  cases entering with
  | waiting sets awaits unheard =>
      cases awaits with
      | away => exact .waiting sets (.heard acts outcome) unheard
      | searching first search => exact .waiting sets (.searching first (search.answer outcome)) unheard
  | telling sets heard asks => exact .telling sets heard (asks.answer outcome)

/-- The first turn of a join. -/
theorem start (node : Node) (known : Token) (around : Surroundings) :
    Entering node known [⟨node, around, .start (.join known)⟩]
      ((node.join around known).action.juncture .root) (node.join around known).node := by
  cases hreach : node.resolve around known with
  | none =>
      have hturn : node.join around known = node.fail (.nodeUnreachable known) := by
        simp only [Node.join, hreach]
      rw [hturn]
      exact .refused hreach
  | some peer =>
      have hturn : node.join around known =
          node.rejoining.ask peer (.findSuccessor node.id) .placeAsked := by
        simp only [Node.join, hreach]
      have hsets : SetsOut node known [⟨node, around, .start (.join known)⟩] :=
        ⟨_, rfl, by rw [hreach]; exact Option.some_ne_none peer⟩
      rw [hturn]
      cases peer with
      | own => exact .waiting hsets (.searching _ .begun) rfl
      | remote handle => exact .waiting hsets (.away _) rfl

/-- The turn of a join that has heard of the place. -/
theorem hear (sets : SetsOut node known acts) (unheard : places acts = [])
    (around : Surroundings) (outcome : Outcome .id) :
    Entering node known (acts ++ [⟨node.rejoining, around, .resume .placeAsked outcome⟩])
      ((node.rejoining.onPlace around outcome).action.juncture .root)
      (node.rejoining.onPlace around outcome).node := by
  have hheard : places (acts ++ [⟨node.rejoining, around, .resume .placeAsked outcome⟩]) =
      [outcome] := by
    rw [places_snoc, unheard]
    rfl
  cases outcome with
  | error failure =>
      refine .failed (sets.snoc _) fun place mem => ?_
      rw [hheard] at mem
      cases List.mem_singleton.1 mem
  | ok place =>
      let placed := node.rejoining.setSuccessor place
      cases hreach : placed.resolve around place with
      | none =>
          have hturn : node.rejoining.onPlace around (.ok place) =
              placed.fail (.nodeUnreachable place) := by
            simp only [Node.onPlace, placed, hreach]
          rw [hturn]
          exact .ended (sets.snoc _) hheard
      | some peer =>
          have hturn : node.rejoining.onPlace around (.ok place) =
              placed.ask peer (.notify node.id) .told := by
            simp only [Node.onPlace, placed, hreach]
            rfl
          rw [hturn]
          exact .telling (sets.snoc _) hheard (Juncture.asks_ask placed peer)

/-- A turn of the node leads a join on. -/
theorem work {cue : Cue} {chain : Chain cue.result}
    (entering : Entering node known acts (.under (.due cue chain)) later) (around : Surroundings) :
    Entering node known (acts ++ [⟨later, around, cue⟩])
      ((later.follow around cue).action.juncture chain) (later.follow around cue).node := by
  cases entering with
  | begun => exact start node known around
  | waiting sets awaits unheard =>
      cases awaits with
      | searching first search =>
          have hleads := search.work node.rejoining around rfl
          have hsame : (node.rejoining.follow around cue).node = node.rejoining :=
            (hleads.still _ (List.mem_append_right _ (List.mem_singleton.2 rfl))).1
          rw [hsame]
          rcases hleads with hsearching | ⟨outcome, hnext, -⟩
          · exact .waiting (sets.snoc _) (.searching first hsearching)
              ((places_quietly search.place?).trans unheard)
          · rw [hnext]
            exact .waiting (sets.snoc _) (.heard _ outcome)
              ((places_quietly search.place?).trans unheard)
      | heard acts outcome => exact hear sets unheard around outcome
  | @telling _ _ place _ sets heard asks =>
      rcases asks.work ⟨_, Node.serve_notify_own (node.rejoining.setSuccessor place) around⟩ with
        ⟨rfl, -, outcome, hnext⟩ | ⟨outcome, rfl, hnext⟩
      · have hsame : ((node.rejoining.setSuccessor place).follow around
            (.start (.serve (.notify node.id)))).node = node.rejoining.setSuccessor place :=
          congrArg Turn.node (Node.serve_notify_own (node.rejoining.setSuccessor place) around)
        rw [hnext, hsame]
        exact .telling (sets.snoc _) ((places_quietly rfl).trans heard)
          (.heard outcome (Nat.zero_le 1))
      · rw [hnext]
        exact .ended (sets.snoc _) ((places_quietly rfl).trans heard)

/-- Every join that nothing else disturbs. -/
theorem of_undisturbed (run : Undisturbed node (Operation.join known).called acts juncture later) :
    Entering node known acts juncture later := by
  generalize hfirst : (Operation.join known).called = first at run
  induction run with
  | nil => exact hfirst ▸ .begun
  | answer _ outcome ih => exact ih.answer outcome
  | work _ around ih => exact ih.work around

/-- What a join that has begun makes of the node. -/
theorem rejoined (entering : Entering node known acts juncture later)
    (sets : SetsOut node known acts) : node.Rejoined (places acts) later := by
  have hkept : (∀ place, .ok place ∉ places acts) → node.Rejoined (places acts) node.rejoining :=
    fun unplaced => ⟨rfl, rfl, rfl, rfl, rfl, .inl ⟨unplaced, rfl⟩, fun _ _ => rfl, rfl, rfl, rfl,
      rfl⟩
  have hplaced : ∀ place, places acts = [.ok place] →
      node.Rejoined (places acts) (node.rejoining.setSuccessor place) := by
    intro place heard
    refine ⟨rfl, rfl, rfl, rfl, rfl, .inr ⟨place, heard, ?_⟩, fun slot hslot => ?_, rfl, rfl, rfl,
      rfl⟩
    · exact Node.successor_setSuccessor node.rejoining place
    · rw [Node.setSuccessor, Fingers.get_set, if_neg (Ne.symm hslot)]
      rfl
  cases entering with
  | begun =>
      obtain ⟨_, hnone, -⟩ := sets
      cases hnone
  | refused unknown =>
      obtain ⟨_, hhead, hfound⟩ := sets
      rw [← Option.some.inj hhead] at hfound
      exact absurd unknown hfound
  | waiting _ _ unheard => exact hkept (by rw [unheard]; exact fun _ => List.not_mem_nil)
  | failed _ unplaced => exact hkept unplaced
  | telling _ heard _ => exact hplaced _ heard
  | ended _ heard => exact hplaced _ heard

/-- A join that finds no way to the known node ends at once, and the node stays as it is. -/
theorem refuses {act : Act} (entering : Entering node known acts juncture later)
    (head : acts.head? = some act) (unknown : node.resolve act.around known = none) :
    juncture = .ended ⟨.nothing, .error (.nodeUnreachable known)⟩ ∧ later = node := by
  have hnever : ¬ SetsOut node known acts := by
    rintro ⟨other, hother, hfound⟩
    rw [head, Option.some_inj] at hother
    exact hfound (hother ▸ unknown)
  cases entering with
  | begun => cases head
  | refused _ => exact ⟨rfl, rfl⟩
  | waiting sets _ _ => exact absurd sets hnever
  | failed sets _ => exact absurd sets hnever
  | telling sets _ _ => exact absurd sets hnever
  | ended sets _ => exact absurd sets hnever

/-- What is left of a join: nothing, a join that has no place yet, or one with a place. -/
theorem residue (entering : Entering node known acts juncture later) :
    later = node ∨ later = node.rejoining ∨
      ∃ place, later = node.rejoining.setSuccessor place := by
  cases entering with
  | begun => exact .inl rfl
  | refused _ => exact .inl rfl
  | waiting _ _ _ => exact .inr (.inl rfl)
  | failed _ _ => exact .inr (.inl rfl)
  | telling _ _ _ => exact .inr (.inr ⟨_, rfl⟩)
  | ended _ _ => exact .inr (.inr ⟨_, rfl⟩)

/-- A successful join makes of the node what its place says. -/
theorem succeeded (entering : Entering node known acts (.ended ⟨.nothing, .ok ()⟩) later) :
    ∃ place, places acts = [.ok place] ∧ later = node.rejoining.setSuccessor place := by
  cases entering with
  | waiting _ awaits _ =>
      cases awaits with
      | searching _ search =>
          cases search with
          | consulting asks _ _ _ => cases asks
          | approaching asks _ _ _ => cases asks
  | telling _ _ asks => cases asks
  | ended _ heard => exact ⟨_, heard, rfl⟩

end Entering

theorem Retried.named (retried : Retried earlier node) : earlier.id = node.id := by
  induction retried with
  | none => rfl
  | more _ fails ih => exact ih.trans fails.thread.2.1.symm

theorem setSuccessor_setSuccessor (node : Node) (old new : Token) :
    (node.setSuccessor old).setSuccessor new = node.setSuccessor new := by
  rw [Node.setSuccessor, Node.setSuccessor, Node.setSuccessor, Fingers.set, Fingers.set, Fingers.set]
  simp

/-- Failed joins leave nothing that a successful one does not write again. -/
theorem Retried.rejoining (retried : Retried earlier node) (place : Token) :
    node.rejoining.setSuccessor place = earlier.rejoining.setSuccessor place := by
  induction retried with
  | none => rfl
  | @more node _ _ _ _ _ fails ih =>
      rcases (Entering.of_undisturbed fails).residue with rfl | rfl | ⟨old, rfl⟩
      · exact ih
      · exact ih
      · rw [← ih]
        exact setSuccessor_setSuccessor node.rejoining old place

/-! ### The same join without the failed ones -/

/-- How a join of a node looks beside the same join of the node that it was before its failed ones. -/
inductive Mirrors (node earlier : Node) (known : Token) : Juncture → Node → Node → Prop where
  /-- Neither join has begun. -/
  | begun : Mirrors node earlier known (Operation.join known).called node earlier
  /-- Both wait for the place. -/
  | waiting : Mirrors node earlier known (.under (.away (.wait .placeAsked .root)))
      node.rejoining earlier.rejoining
  /-- Both have heard of the place. -/
  | heard (outcome : Outcome .id) :
      Mirrors node earlier known (.under (.due (.resume .placeAsked outcome) .root))
        node.rejoining earlier.rejoining
  /-- Both have ended. -/
  | ended (ending : Ending) (later after : Node) :
      Mirrors node earlier known (.ended ending) later after
  /-- The place has been found, and the nodes are the same. -/
  | same (juncture : Juncture) (later : Node) : Mirrors node earlier known juncture later later

namespace Mirrors

variable {after : Node}

theorem answer {shape : Shape} {chain : Chain shape}
    (mirrors : Mirrors node earlier known (.under (.away chain)) later after)
    (outcome : Outcome shape) : Mirrors node earlier known (chain.hear outcome) later after := by
  cases mirrors with
  | waiting => exact .heard outcome
  | same => exact .same _ later

/-- A turn keeps the likeness. -/
theorem work {cue : Cue} {chain : Chain cue.result} (retried : Retried earlier node)
    (named : earlier.id = node.id) (other : known ≠ node.id)
    (mirrors : Mirrors node earlier known (.under (.due cue chain)) later after)
    (around : Surroundings) :
    (after.follow around cue).action.juncture chain =
        (later.follow around cue).action.juncture chain ∧
      Mirrors node earlier known ((later.follow around cue).action.juncture chain)
        (later.follow around cue).node (after.follow around cue).node := by
  cases mirrors with
  | same => exact ⟨rfl, .same _ _⟩
  | begun =>
      have hresolve : earlier.resolve around known = node.resolve around known :=
        Node.resolve_congr named around known
      cases hfind : around.find? known with
      | none =>
          have hreach : node.resolve around known = none := by
            rw [Node.resolve, if_neg other, hfind, Option.map_none]
          have hturn : node.join around known = node.fail (.nodeUnreachable known) := by
            simp only [Node.join, hreach]
          have hturn' : earlier.join around known = earlier.fail (.nodeUnreachable known) := by
            simp only [Node.join, hresolve, hreach]
          simp only [Node.follow, Node.start, hturn, hturn']
          exact ⟨rfl, .ended _ _ _⟩
      | some handle =>
          have hreach : node.resolve around known = some (.remote handle) := by
            rw [Node.resolve, if_neg other, hfind, Option.map_some]
          have hturn : node.join around known =
              node.rejoining.ask (.remote handle) (.findSuccessor node.id) .placeAsked := by
            simp only [Node.join, hreach]
          have hturn' : earlier.join around known =
              earlier.rejoining.ask (.remote handle) (.findSuccessor earlier.id) .placeAsked := by
            simp only [Node.join, hresolve, hreach]
          simp only [Node.follow, Node.start, hturn, hturn']
          exact ⟨rfl, .waiting⟩
  | heard outcome =>
      cases outcome with
      | error failure => exact ⟨rfl, .ended _ _ _⟩
      | ok place =>
          have hnamed : earlier.rejoining.id = node.rejoining.id := named
          have hturn : earlier.rejoining.onPlace around (.ok place) =
              node.rejoining.onPlace around (.ok place) := by
            simp only [Node.onPlace, retried.rejoining place, hnamed]
          have hfollow : earlier.rejoining.follow around (.resume .placeAsked (.ok place)) =
              node.rejoining.follow around (.resume .placeAsked (.ok place)) := hturn
          rw [hfollow]
          exact ⟨rfl, .same _ _⟩

end Mirrors

/-- Without the failed joins before it a join takes the same course. -/
theorem Retried.replay (retried : Retried earlier node) (other : known ≠ node.id)
    (run : Undisturbed node (Operation.join known).called acts juncture later) :
    ∃ alone after, Undisturbed earlier (Operation.join known).called alone juncture after ∧
      alone.map Act.given = acts.map Act.given ∧
      Mirrors node earlier known juncture later after := by
  generalize hfirst : (Operation.join known).called = first at run
  induction run with
  | nil => exact ⟨[], earlier, .nil, rfl, hfirst ▸ .begun⟩
  | answer _ outcome ih =>
      obtain ⟨alone, after, hrun, hgiven, hmirrors⟩ := ih
      exact ⟨alone, after, hrun.answer outcome, hgiven, hmirrors.answer outcome⟩
  | @work acts later cue below _ around ih =>
      obtain ⟨alone, after, hrun, hgiven, hmirrors⟩ := ih
      obtain ⟨hsame, hnext⟩ := hmirrors.work retried retried.named other around
      refine ⟨alone ++ [⟨after, around, cue⟩], _, hsame ▸ hrun.work around, ?_, hnext⟩
      rw [List.map_append, List.map_append, hgiven]
      rfl

/-- A join that cannot reach the known node fails and leaves the node as it is; any other join
leaves it joining, with no predecessor and no migration source, with the successor that it has heard
of or the old one, and unchanged otherwise.  After any number of failed joins a successful one makes
of the node what it would have made of it without them. -/
theorem Undisturbed.join_clean_and_retryable
    (run : Undisturbed node (Operation.join known).called acts juncture later) :
    (∀ act, acts.head? = some act →
      (node.resolve act.around known = none →
        juncture = .ended ⟨.nothing, .error (.nodeUnreachable known)⟩ ∧ later = node) ∧
      (node.resolve act.around known ≠ none → node.Rejoined (places acts) later)) ∧
    (∀ earlier, Retried earlier node → juncture = .ended ⟨.nothing, .ok ()⟩ →
      (∀ alone after, Undisturbed earlier (Operation.join known).called alone juncture after →
        places alone = places acts → after = later) ∧
      (known ≠ node.id → ∃ alone,
        Undisturbed earlier (Operation.join known).called alone juncture later ∧
          alone.map Act.given = acts.map Act.given)) := by
  have hentering : Entering node known acts juncture later := .of_undisturbed run
  refine ⟨fun act hhead => ⟨hentering.refuses hhead, fun hfound =>
    hentering.rejoined ⟨act, hhead, hfound⟩⟩, fun earlier hretried hover => ?_⟩
  subst hover
  have hunique : ∀ alone after,
      Undisturbed earlier (Operation.join known).called alone (.ended ⟨.nothing, .ok ()⟩) after →
      places alone = places acts → after = later := by
    intro alone after hrun hsame
    obtain ⟨place, hheard, rfl⟩ := hentering.succeeded
    obtain ⟨other, hheard', rfl⟩ := (Entering.of_undisturbed hrun).succeeded
    rw [hsame, hheard] at hheard'
    cases hheard'
    exact (hretried.rejoining place).symm
  refine ⟨hunique, fun hother => ?_⟩
  obtain ⟨alone, after, hrun, hgiven, -⟩ := hretried.replay hother run
  have hplaces : places alone = places acts := by
    have hcues := congrArg (List.filterMap fun given => given.2.place?) hgiven
    rw [List.filterMap_map, List.filterMap_map] at hcues
    exact hcues
  exact ⟨alone, hunique alone after hrun hplaces ▸ hrun, hgiven⟩

/-! ### A second attempt -/

/-- The turns of a join whose place is found, with the place and the answer of the successor. -/
def joinTurns (node : Node) (around : Surroundings) (known place : Token)
    (answer : Outcome .nothing) : List Act :=
  [⟨node, around, .start (.join known)⟩, ⟨node.rejoining, around, .resume .placeAsked (.ok place)⟩,
    ⟨node.rejoining.setSuccessor place, around, .resume .told answer⟩]

/-- A join by way of a peer that names another one. -/
theorem Undisturbed.join_by_peer (around : Surroundings) {handle peer : Handle} {place : Token}
    (finds : node.resolve around known = some (.remote handle))
    (reaches : node.resolve around place = some (.remote peer)) (answer : Outcome .nothing) :
    Undisturbed node (Operation.join known).called (joinTurns node around known place answer)
      (.ended ⟨.nothing, answer⟩) (node.rejoining.setSuccessor place) := by
  have hbegins : node.join around known =
      node.rejoining.ask (.remote handle) (.findSuccessor node.id) .placeAsked := by
    simp only [Node.join, finds]
  have hplaced : node.rejoining.onPlace around (.ok place) =
      (node.rejoining.setSuccessor place).ask (.remote peer) (.notify node.id) .told := by
    have hreach : (node.rejoining.setSuccessor place).resolve around place =
        some (.remote peer) := (Node.resolve_congr rfl around place).trans reaches
    simp only [Node.onPlace, hreach]
    rfl
  have hasks : Undisturbed node (Operation.join known).called
      [⟨node, around, .start (.join known)⟩] (.under (.away (.wait .placeAsked .root)))
      node.rejoining := by
    have hturn := @Undisturbed.work node (Operation.join known).called [] node
      (.start (.join known)) .root .nil around
    simp only [Node.follow, Node.start, hbegins] at hturn
    exact hturn
  have htells : Undisturbed node (Operation.join known).called
      [⟨node, around, .start (.join known)⟩,
        ⟨node.rejoining, around, .resume .placeAsked (.ok place)⟩]
      (.under (.away (.wait .told .root))) (node.rejoining.setSuccessor place) := by
    have hturn := (hasks.answer (.ok place)).work around
    simp only [Node.follow, Node.resume, hplaced] at hturn
    exact hturn
  exact (htells.answer answer).work around

namespace Applicant

/-- Surroundings in which every node can be reached. -/
def around : Surroundings := ⟨0, fun _ => some 0⟩

/-- A node that gives up a ring of its own. -/
def founder : Node := (Node.fresh (Token.wrapping 10) (.empty none) .standard).founded

/-- The node after a join that comes to nothing, because the successor does not take the notice. -/
def rejected : Node := founder.rejoining.setSuccessor (Token.wrapping 30)

/-- The node after another join. -/
def admitted : Node := rejected.rejoining.setSuccessor (Token.wrapping 50)

/-- The second join makes of the node what it would have made of it without the first one. -/
theorem join_clean_and_retryable_admitted :
    (∃ alone, Undisturbed founder (Operation.join (Token.wrapping 40)).called alone
      (.ended ⟨.nothing, .ok ()⟩) admitted) ∧ rejected.successor = some (Token.wrapping 30) := by
  have hfails : Undisturbed founder (Operation.join (Token.wrapping 20)).called _
      (.ended ⟨.nothing, .error (.nodeUnreachable (Token.wrapping 30))⟩) rejected :=
    Undisturbed.join_by_peer around rfl rfl _
  have hsucceeds : Undisturbed rejected (Operation.join (Token.wrapping 40)).called _
      (.ended ⟨.nothing, .ok ()⟩) admitted :=
    Undisturbed.join_by_peer around rfl rfl _
  have hretry := hsucceeds.join_clean_and_retryable.2 founder (.more .none hfails) rfl
  obtain ⟨alone, hrun, -⟩ := hretry.2 (by decide)
  exact ⟨⟨alone, hrun⟩, rfl⟩

end Applicant

end RecordRing
