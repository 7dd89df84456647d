import Mathlib.Logic.Relation
import RecordRing.Node.Work
import RecordRing.Proofs.Ring.Reach

/-!
# Nodes that stay joining

The first predecessor that a joining node accepts starts the merge, provided that the node knows its
successor.  While a join waits for its place on the ring, a node need not know one; a predecessor
that it accepts then is kept, and nothing starts.  When the place arrives, the node knows both
neighbours and is still joining: it is stranded.

A node is stranded only in this way (`exists_hasty_of_stranded`), any notification that overtakes
the answer of a first join leads there (`stranded_of_overtaken`), and a stranded node stays so while
its predecessor is the closest node that reports itself (`Stranded.stays`).

## Implementation notes

A run consists of the turns of membership and repair in any order, with any answers of the peers. An
answer that a node has not waited for is among them, so the runs are more than those of a network.
-/

namespace RecordRing.Node

variable {node after first last : Node} {around : Surroundings}

/-- A node is joining although it knows both neighbours. -/
structure Stranded (node : Node) : Prop where
  joining : node.lifecycle = .joining
  before : node.predecessor.isSome
  next : node.successor.isSome

/-- A node has accepted a predecessor before it knows a successor. -/
structure Hasty (node : Node) : Prop where
  joining : node.lifecycle = .joining
  before : node.predecessor.isSome
  alone : node.successor = none

/-- The turns of membership and repair, and what they leave of a node. -/
inductive Turns (node : Node) : Node → Prop where
  | found (around : Surroundings) : Turns node (node.start around .found).node
  | join (around : Surroundings) (known : Token) : Turns node (node.start around (.join known)).node
  | placed (around : Surroundings) (outcome : Outcome .id) :
      Turns node (node.resume around .placeAsked outcome).node
  | notified (around : Surroundings) (candidate : Token) :
      Turns node (node.start around (.serve (.notify candidate))).node
  | ended (around : Surroundings) (source : Token) :
      Turns node (node.start around (.serve (.migrationEnded source))).node
  | stabilize (around : Surroundings) : Turns node (node.start around .stabilize).node
  | answered (around : Surroundings) (successor : Token) (peer : Contact)
      (outcome : Outcome .knownId) :
      Turns node (node.resume around (.predecessorAsked successor peer) outcome).node
  | fixed (around : Surroundings) : Turns node (node.start around .fixPredecessor).node

/-! ## What single turns do -/

/-- A node is as it was, or it has exchanged a known successor for another one. -/
def Redirected (node after : Node) : Prop :=
  after = node ∨ node.successor.isSome ∧
    ∃ fingers, fingers.successor.isSome ∧ after = { node with fingers := fingers }

theorem Redirected.stranded_iff (h : node.Redirected after) : after.Stranded ↔ node.Stranded := by
  rcases h with rfl | ⟨known, fingers, replaced, rfl⟩
  · rfl
  · exact ⟨fun h => ⟨h.joining, h.before, known⟩, fun h => ⟨h.joining, h.before, replaced⟩⟩

theorem redirected_stabilize (node : Node) (around : Surroundings) :
    node.Redirected (node.stabilize around).node := by
  cases holds : node.successor with
  | none =>
      left
      simp only [stabilize, holds]
      rfl
  | some successor =>
      cases found : node.resolve around successor with
      | some contact =>
          left
          rw [stabilize_found holds found]
          rfl
      | none =>
          right
          obtain ⟨fingers, id, contact, hturn, hspec⟩ := stabilize_lost holds found
          refine ⟨by rw [holds]; rfl, fingers, ?_, by rw [hturn]; rfl⟩
          have hnext : fingers.successor = some id := hspec.successor
          rw [hnext]
          rfl

theorem redirected_onPredecessor (node : Node) (around : Surroundings) (successor : Token)
    (peer : Contact) (outcome : Outcome .knownId) :
    node.Redirected (node.onPredecessor around successor peer outcome).node := by
  rcases outcome with failure | _ | candidate
  · exact .inl rfl
  · exact .inl (node_tellSuccessor successor peer)
  · rw [onPredecessor]
    split
    · split
      · rename_i fingers hswapped
        obtain ⟨holds, hadopted⟩ := Fingers.get_of_compareAndSet (by rw [hswapped] : _ = true)
        rw [hswapped] at hadopted
        have hknown : node.successor = some successor := holds
        have hreplaced : fingers.successor = some candidate := hadopted
        refine .inr ⟨by rw [hknown]; rfl, fingers, by rw [hreplaced]; rfl, ?_⟩
        dsimp only
        split
        · rfl
        · exact node_tellSuccessor candidate _
      · exact redirected_stabilize node around
    · exact .inl (node_tellSuccessor successor peer)

/-- A node that has tried to begin its merge is not stranded. -/
theorem not_stranded_beginMerge (node : Node) : ¬ node.beginMerge.1.Stranded := by
  intro h
  rw [beginMerge] at h
  split at h
  · split at h
    · exact nomatch h.joining
    · exact nomatch h.joining
  · rename_i hother
    obtain ⟨successor, holds⟩ := Option.isSome_iff_exists.1 h.next
    exact hother successor h.joining holds

theorem node_onPlace_ok (node : Node) (around : Surroundings) (successor : Token) :
    (node.onPlace around (.ok successor)).node = node.setSuccessor successor := by
  rw [onPlace]
  split <;> rfl

/-! ## How a node is stranded -/

/-- Only a join that gets its place can strand a node, and only if the node has already accepted a
predecessor. -/
theorem stranded_of_turns (turns : node.Turns after) (h : after.Stranded) :
    node.Stranded ∨ node.Hasty := by
  cases turns with
  | found around => exact nomatch h.joining
  | join around known =>
      simp only [start, join] at h
      split at h
      · exact .inl h
      · exact nomatch h.before
  | placed around outcome =>
      cases outcome with
      | error failure => exact .inl h
      | ok successor =>
          have hplaced : (node.setSuccessor successor).Stranded :=
            node_onPlace_ok node around successor ▸ h
          cases holds : node.successor with
          | none => exact .inr ⟨hplaced.joining, hplaced.before, holds⟩
          | some other => exact .inl ⟨hplaced.joining, hplaced.before, by rw [holds]; rfl⟩
  | notified around candidate =>
      simp only [start, serve, notified] at h
      split at h
      · exact absurd h (not_stranded_beginMerge _)
      · exact .inl h
  | ended around source =>
      simp only [start, serve, migrationEnded] at h
      split at h
      · exact nomatch h.joining
      · exact .inl h
  | stabilize around => exact .inl ((redirected_stabilize node around).stranded_iff.1 h)
  | answered around successor peer outcome =>
      exact .inl ((redirected_onPredecessor node around successor peer outcome).stranded_iff.1 h)
  | fixed around =>
      simp only [start, fixPredecessor] at h
      split at h
      · split at h
        · exact .inl h
        · exact nomatch h.before
      · exact .inl h

/-- A run strands a node only if the node has accepted a predecessor, at some moment of the run,
before it knew a successor. -/
theorem exists_hasty_of_stranded (run : Relation.ReflTransGen Turns first last)
    (fine : ¬ first.Stranded) (stranded : last.Stranded) :
    ∃ node, Relation.ReflTransGen Turns first node ∧ node.Hasty ∧
      Relation.ReflTransGen Turns node last := by
  -- the last turn strands a hasty node, or the node has been stranded before it
  induction run with
  | refl => exact absurd stranded fine
  | tail run turns ih =>
      rcases stranded_of_turns turns stranded with hbefore | hhasty
      · obtain ⟨node, hto, hhasty, hfrom⟩ := ih hbefore
        exact ⟨node, hto, hhasty, hfrom.tail turns⟩
      · exact ⟨_, run, hhasty, .single turns⟩

/-! ## Notifications that overtake the answer of a join -/

/-- A joining node that knows no neighbour accepts the first node that reports itself, and does not
begin to merge. -/
theorem hasty_of_notified {candidate : Token} (joining : node.lifecycle = .joining)
    (nobody : node.predecessor = none) (alone : node.successor = none)
    (other : candidate ≠ node.id) (around : Surroundings) :
    (node.start around (.serve (.notify candidate))).node.Hasty := by
  let accepting : Node := { node with predecessor := some candidate }
  have hmerge : accepting.beginMerge = (accepting, []) := by
    rw [beginMerge]
    split
    · rename_i holds
      exact nomatch alone.symm.trans holds
    · rfl
  have hnotified : node.notified candidate = (accepting, []) := by
    rw [notified, if_pos ⟨other, by rw [isCloser, nobody]⟩]
    exact hmerge
  simp only [start, serve, hnotified]
  exact ⟨joining, rfl, alone⟩

theorem Hasty.stranded (h : node.Hasty) (around : Surroundings) (successor : Token) :
    (node.resume around .placeAsked (.ok successor)).node.Stranded := by
  have hplaced : (node.resume around .placeAsked (.ok successor)).node =
      node.setSuccessor successor := node_onPlace_ok node around successor
  rw [hplaced]
  exact ⟨h.joining, h.before, by rw [successor_setSuccessor]; rfl⟩

/-- A notification that arrives while a new node waits for its place strands the node. -/
theorem stranded_of_overtaken (id : Token) (store : Store) (config : Config)
    (asking telling placing : Surroundings) (known successor : Token) {candidate : Token}
    (other : candidate ≠ id) :
    ((((fresh id store config).start asking (.join known)).node.start telling
      (.serve (.notify candidate))).node.resume placing .placeAsked
        (.ok successor)).node.Stranded := by
  have halone : Fingers.empty.successor = none := Fingers.get_empty Fingers.successorSlot
  have hjoining : ∃ node, ((fresh id store config).start asking (.join known)).node = node ∧
      node.id = id ∧ node.lifecycle = .joining ∧ node.predecessor = none ∧
      node.successor = none := by
    simp only [start, join]
    split
    · exact ⟨_, rfl, rfl, rfl, rfl, halone⟩
    · exact ⟨_, rfl, rfl, rfl, rfl, halone⟩
  obtain ⟨node, hnode, hid, joining, nobody, alone⟩ := hjoining
  rw [hnode]
  exact (hasty_of_notified joining nobody alone (hid ▸ other) telling).stranded placing successor

/-! ## Stranded nodes -/

/-- Repair frees no stranded node whose predecessor can be reached, and neither do notifications of
nodes that are not closer than the predecessor. -/
theorem Stranded.stays {before candidate : Token} (h : node.Stranded)
    (holds : node.predecessor = some before) (known : around.knows before = true)
    (farther : ¬ insideOpen before node.id candidate = true) :
    (node.start around (.serve (.notify candidate))).node = node ∧
      (node.start around .fixPredecessor).node = node ∧
      (node.start around .stabilize).node.Stranded ∧
      ∀ successor peer outcome,
        (node.resume around (.predecessorAsked successor peer) outcome).node.Stranded := by
  refine ⟨?_, ?_, ?_, fun successor peer outcome => ?_⟩
  · have hrefused : node.notified candidate = (node, []) := by
      rw [notified, if_neg fun h => farther (by simpa only [isCloser, holds] using h.2)]
    simp only [start, serve, hrefused]
    rfl
  · simp only [start, fixPredecessor, holds]
    rw [if_pos known]
    rfl
  · exact (redirected_stabilize node around).stranded_iff.2 h
  · exact (redirected_onPredecessor node around successor peer outcome).stranded_iff.2 h

end RecordRing.Node
