import Mathlib.Algebra.Order.BigOperators.Group.Finset
import RecordRing.Proofs.Ring.Repair

/-!
# The strain of a ring

The strain of a network is the sum of the clockwise distances from the nodes to their successors and
from their predecessors to them.  A pointer that is unknown, and a successor that is the node itself,
counts as a whole turn.

A call of successor repair leaves every pointer as it is if its node rests, and else it lowers the
strain (`Ring.repaired_cases`).
-/

namespace RecordRing

/-- The way from a node to its successor. -/
def Node.ahead (node : Node) : Nat :=
  match node.successor with
  | some next => if next = node.id then ringSize else node.id.gap next
  | none => ringSize

/-- The way from the predecessor of a node to the node. -/
def Node.behind (node : Node) : Nat :=
  match node.predecessor with
  | some before => before.gap node.id
  | none => ringSize

/-- The ways from a node to its successor and from its predecessor to it. -/
def Node.strain (node : Node) : Nat := node.ahead + node.behind

/-- A node's identifier, successor and predecessor. -/
def Node.pointers (node : Node) : Token × Option Token × Option Token :=
  (node.id, node.successor, node.predecessor)

namespace Network

variable {founder : Token} {net after last : Network} {handle peer : Handle}
  {node old new target : Node} {a b candidate successor : Token}

/-- The sum of the strains of the nodes. -/
def strain (net : Network) : Nat :=
  ∑ handle ∈ Finset.range net.endpoints.size, (net.nodeAt? handle).elim 0 Node.strain

/-- Every node has the same successor and predecessor as before, and no node is new. -/
def Unmoved (net after : Network) : Prop :=
  ∀ handle, (after.nodeAt? handle).map Node.pointers = (net.nodeAt? handle).map Node.pointers

/-! ## Networks with the same pointers -/

namespace Unmoved

theorem refl (net : Network) : net.Unmoved net := fun _ => rfl

theorem symm (h : net.Unmoved after) : after.Unmoved net := fun handle => (h handle).symm

theorem trans (h : net.Unmoved after) (h' : after.Unmoved last) : net.Unmoved last :=
  fun handle => (h' handle).trans (h handle)

theorem of_akin (akin : net.Akin after) : net.Unmoved after := by
  intro handle
  have h := congrArg (Option.map Node.pointers) (akin.nodes handle)
  rw [Option.map_map, Option.map_map] at h
  exact h

/-- A node of a network with the same pointers. -/
theorem nodeAt?_some (h : net.Unmoved after) (found : after.nodeAt? handle = some new) :
    ∃ old, net.nodeAt? handle = some old ∧ new.pointers = old.pointers := by
  have hsame := h handle
  rw [found, Option.map_some] at hsame
  obtain ⟨old, hold, hpointers⟩ := Option.map_eq_some_iff.1 hsame.symm
  exact ⟨old, hold, hpointers.symm⟩

theorem idAt? (h : net.Unmoved after) (handle : Handle) : after.idAt? handle = net.idAt? handle := by
  have hsame := congrArg (Option.map Prod.fst) (h handle)
  rw [Option.map_map, Option.map_map] at hsame
  exact hsame

theorem linked (h : net.Unmoved after) (linked : after.Linked a b) : net.Linked a b := by
  obtain ⟨handle, new, hfound, hid, hnext⟩ := linked
  obtain ⟨old, hold, hpointers⟩ := h.nodeAt?_some hfound
  simp only [Node.pointers, Prod.mk.injEq] at hpointers
  exact ⟨handle, old, hold, hpointers.1.symm.trans hid, hpointers.2.1.symm.trans hnext⟩

theorem precedes (h : net.Unmoved after) (precedes : after.Precedes a b) : net.Precedes a b := by
  obtain ⟨handle, new, hfound, hid, hbefore⟩ := precedes
  obtain ⟨old, hold, hpointers⟩ := h.nodeAt?_some hfound
  simp only [Node.pointers, Prod.mk.injEq] at hpointers
  exact ⟨handle, old, hold, hpointers.1.symm.trans hid, hpointers.2.2.symm.trans hbefore⟩

end Unmoved

/-- The strain of a node depends on its pointers only. -/
theorem strain_of_pointers (h : new.pointers = old.pointers) : new.strain = old.strain := by
  simp only [Node.pointers, Prod.mk.injEq] at h
  simp only [Node.strain, Node.ahead, Node.behind, h.1, h.2.1, h.2.2]

/-- Handles that have not been given out do not count. -/
theorem strain_eq_sum {bound : Nat} (h : net.endpoints.size ≤ bound) :
    net.strain = ∑ handle ∈ Finset.range bound, (net.nodeAt? handle).elim 0 Node.strain := by
  apply Finset.sum_subset (Finset.range_subset_range.2 h)
  intro handle _ hout
  have hnone : net.nodeAt? handle = none := by
    cases hnode : net.nodeAt? handle with
    | none => rfl
    | some node => exact absurd (Finset.mem_range.2 (lt_size_of_nodeAt? hnode)) hout
  rw [hnone]
  rfl

theorem Unmoved.strain (h : net.Unmoved after) : after.strain = net.strain := by
  rw [strain_eq_sum (Nat.le_max_left after.endpoints.size net.endpoints.size),
    strain_eq_sum (Nat.le_max_right after.endpoints.size net.endpoints.size)]
  apply Finset.sum_congr rfl
  intro handle _
  have hsame := h handle
  cases hnew : after.nodeAt? handle with
  | none =>
      rw [hnew, Option.map_none] at hsame
      rw [Option.map_eq_none_iff.1 hsame.symm]
  | some new =>
      obtain ⟨old, hold, hpointers⟩ := h.nodeAt?_some hnew
      rw [hold]
      exact strain_of_pointers hpointers

/-- The strain drops with the strain of one node. -/
theorem strain_setNode_lt (found : net.nodeAt? handle = some old) (less : new.strain < old.strain) :
    (net.setNode handle new).strain < net.strain := by
  rw [strain, strain, size_setNode]
  have hat : ∀ other, (net.setNode handle new).nodeAt? other =
      if handle = other then some new else net.nodeAt? other := Ring.nodeAt?_change found
  apply Finset.sum_lt_sum
  · intro other _
    rw [hat]
    split
    · rename_i h
      rw [← h, found]
      exact Nat.le_of_lt less
    · exact Nat.le_refl _
  · refine ⟨handle, Finset.mem_range.2 (lt_size_of_nodeAt? found), ?_⟩
    rw [hat, if_pos rfl, found]
    exact less

/-! ## Telling a peer -/

theorem pointers_beginMerge (node : Node) : node.beginMerge.1.pointers = node.pointers := by
  rw [Node.pointers, id_beginMerge, successor_beginMerge, predecessor_beginMerge]
  rfl

/-- A closer predecessor lowers the strain of a node. -/
theorem strain_notified_lt (before : ∀ id, node.predecessor = some id → id ≠ node.id)
    (accepted : candidate ≠ node.id ∧ node.isCloser candidate = true) :
    (node.notified candidate).1.strain < node.strain := by
  have hpointers : (node.notified candidate).1.pointers =
      Node.pointers { node with predecessor := some candidate } := by
    rw [Node.notified, if_pos accepted]
    exact pointers_beginMerge _
  have hless : candidate.gap node.id < node.behind := by
    rw [Node.behind]
    cases hbefore : node.predecessor with
    | none => exact Token.gap_lt candidate node.id
    | some id =>
        have hcloser := accepted.2
        rw [Node.isCloser, hbefore] at hcloser
        have hsum := gap_add_of_insideOpen hcloser (before id hbefore)
        have hpos := Token.gap_pos (Ne.symm (insideOpen_iff.1 hcloser).1)
        show candidate.gap node.id < id.gap node.id
        omega
  rw [strain_of_pointers hpointers, Node.strain, Node.strain]
  exact Nat.add_lt_add_left hless _

/-- A peer that is told about a candidate keeps its predecessor if the candidate does not come between
the two, and else the strain drops. -/
theorem Told.cases (ring : net.Ring founder) (told : net.Told peer candidate after)
    (at_peer : net.idAt? peer = some successor) (other : candidate ≠ successor) :
    (∀ handle, after.idAt? handle = net.idAt? handle) ∧
      (net.Unmoved after ∧ (∃ before, net.Precedes before successor ∧
          ¬ insideOpen before successor candidate = true) ∨
        after.strain < net.strain ∧ ∀ before, net.Precedes before successor →
          insideOpen before successor candidate = true) := by
  obtain ⟨target, hstands, halike⟩ := told
  obtain rfl : target.id = successor :=
    Option.some.inj ((idAt?_of_nodeAt? hstands).symm.trans at_peer)
  have hunmoved := Unmoved.of_akin halike.akin
  by_cases haccepted : candidate ≠ target.id ∧ target.isCloser candidate = true
  · have hid : (target.notified candidate).1.id = target.id := by
      rw [Node.notified, if_pos haccepted, id_beginMerge]
    refine ⟨fun handle => ?_, Or.inr ⟨?_, fun before hbefore => ?_⟩⟩
    · rw [hunmoved.idAt?, Ring.idAt?_change hstands hid]
    · rw [hunmoved.strain]
      apply strain_setNode_lt hstands
      exact strain_notified_lt
        (fun id hid => (ring.before _ _ (precedes_of_nodeAt? hstands hid)).1) haccepted
    · have hcloser := haccepted.2
      rw [Node.isCloser, (ring.precedes_iff hstands).1 hbefore] at hcloser
      exact hcloser
  · rw [Node.notified, if_neg haccepted, setNode_self hstands] at hunmoved
    refine ⟨hunmoved.idAt?, Or.inl ⟨hunmoved, ?_⟩⟩
    cases hbefore : target.predecessor with
    | none => exact absurd ⟨other, by rw [Node.isCloser, hbefore]⟩ haccepted
    | some before =>
        refine ⟨before, precedes_of_nodeAt? hstands hbefore, fun hinside => haccepted ⟨other, ?_⟩⟩
        rw [Node.isCloser, hbefore]
        exact hinside

/-! ## Nodes at rest -/

/-- A node is the predecessor of its successor, or it knows no other node. -/
def Rests (net : Network) (a : Token) : Prop :=
  ∃ next, net.Linked a next ∧ (next = a → ∀ before, ¬ net.Precedes before a) ∧
    (next ≠ a → net.Precedes a next)

theorem Unmoved.rests (h : net.Unmoved after) (rests : after.Rests a) : net.Rests a := by
  obtain ⟨next, hlinked, halone, hbefore⟩ := rests
  exact ⟨next, h.linked hlinked, fun heq before hp => halone heq before (h.symm.precedes hp),
    fun hne => h.precedes (hbefore hne)⟩

theorem Ring.precedes_inj (ring : net.Ring founder) {c : Token} (h : net.Precedes a c)
    (h' : net.Precedes b c) : a = b := by
  obtain ⟨handle, node, hfound, rfl, hbefore⟩ := h
  rw [ring.precedes_iff hfound, hbefore] at h'
  exact Option.some.inj h'

/-- Adopting a position in between lowers the strain of a node. -/
theorem strain_adopt_lt {fingers : Fingers} (holds : node.successor = some successor)
    (inside : insideOpen node.id successor candidate = true)
    (adopts : fingers.successor = some candidate) :
    Node.strain { node with fingers := fingers } < node.strain := by
  obtain ⟨hne, hnear⟩ := insideOpen_iff.1 inside
  have hahead : Node.ahead { node with fingers := fingers } = node.id.gap candidate := by
    rw [Node.ahead, show Node.successor { node with fingers := fingers } = some candidate from adopts]
    exact if_neg hne
  have hless : node.id.gap candidate < node.ahead := by
    rw [Node.ahead, holds]
    show _ < if successor = node.id then ringSize else node.id.gap successor
    split
    · exact Token.gap_lt node.id candidate
    · rename_i hother
      exact hnear.resolve_left (Ne.symm hother)
  rw [Node.strain, Node.strain, hahead]
  exact Nat.add_lt_add_right hless _

/-- Successor repair leaves everything as it is at a node that rests, and lowers the strain at every
other. -/
theorem Ring.repaired_cases (ring : net.Ring founder) (found : net.nodeAt? handle = some node)
    (repaired : net.Repaired handle node after) :
    (∀ other, after.idAt? other = net.idAt? other) ∧
      (net.Rests node.id ∧ net.Unmoved after ∨
        ¬ net.Rests node.id ∧ after.strain < net.strain) := by
  have hrests : ∀ next, node.successor = some next → net.Rests node.id →
      (next = node.id → ∀ before, ¬ net.Precedes before node.id) ∧
        (next ≠ node.id → net.Precedes node.id next) := by
    rintro next hnext ⟨other, hlinked, halone, hbefore⟩
    rw [ring.linked_iff found, hnext, Option.some.injEq] at hlinked
    exact hlinked ▸ ⟨halone, hbefore⟩
  cases repaired with
  | alone own unknown same =>
      have hunmoved := Unmoved.of_akin same.akin
      refine ⟨hunmoved.idAt?, Or.inl ⟨⟨node.id, linked_of_nodeAt? found own, ?_, ?_⟩, hunmoved⟩⟩
      · intro _ before hbefore
        rw [ring.precedes_iff found, unknown] at hbefore
        cases hbefore
      · exact fun hne => absurd rfl hne
  | told holds other nobody at_peer tells =>
      rename_i next peer
      obtain ⟨hids, hcases⟩ := tells.cases ring at_peer (Ne.symm other)
      refine ⟨hids, ?_⟩
      rcases hcases with ⟨hunmoved, before, hbefore, houtside⟩ | ⟨hless, hinside⟩
      · have hsame : node.id = before := eq_of_not_insideOpen (Ne.symm other)
          (ring.before _ _ hbefore).1 (nobody before hbefore) houtside
        have hrest : net.Rests node.id := ⟨next, linked_of_nodeAt? found holds,
          fun heq => absurd heq other, fun _ => hsame ▸ hbefore⟩
        exact Or.inl ⟨hrest, hunmoved⟩
      · refine Or.inr ⟨fun hrest => ?_, hless⟩
        have hself := hinside node.id ((hrests next holds hrest).2 other)
        exact (insideOpen_iff.1 hself).1 rfl
  | adopted holds before between adopts moves at_peer tells =>
      rename_i lost candidate fingers adopting peer
      have hne : candidate ≠ node.id := (insideOpen_iff.1 between).1
      have hchange := change_adopt ring found holds between (ring.before _ _ before).2 adopts
      have hring := (((ring.setNode found hchange).1).akin moves.akin).1
      have hadopting : ∀ other, adopting.idAt? other = net.idAt? other := fun other => by
        rw [moves.akin.idAt?, Ring.idAt?_change found hchange.id]
      have hdrop : adopting.strain < net.strain := by
        rw [(Unmoved.of_akin moves.akin).strain]
        exact strain_setNode_lt found (strain_adopt_lt holds between adopts)
      obtain ⟨hids, hcases⟩ := tells.cases hring at_peer (Ne.symm hne)
      refine ⟨fun other => (hids other).trans (hadopting other), Or.inr ⟨fun hrest => ?_, ?_⟩⟩
      · obtain ⟨halone, hprecedes⟩ := hrests lost holds hrest
        by_cases hself : lost = node.id
        · exact halone hself candidate (hself ▸ before)
        · exact hne (ring.precedes_inj before (hprecedes hself))
      · rcases hcases with ⟨hunmoved, -⟩ | ⟨hless, -⟩
        · rw [hunmoved.strain]
          exact hdrop
        · exact Nat.lt_trans hless hdrop

end Network

end RecordRing
