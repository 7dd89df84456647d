import Mathlib.Data.List.Count
import RecordRing.Proofs.Ring.Charting

/-!
# Walks along the ring

A walk along the successors of a closed ring meets every node once, in clockwise order, and ends
where it has begun.  So it lists the nodes in the order of their distances from its origin
(`Circuit`).
-/

namespace RecordRing

variable {ids walked : List Token} {origin last id next : Token}

/-- A list of some identifiers, once each, clockwise from an origin. -/
structure Circuit (ids : List Token) (origin : Token) (ring : List Token) : Prop where
  perm : ring.Perm ids
  clockwise : ring.Pairwise fun a b => origin.gap a < origin.gap b

/-- A walk has met all identifiers from its origin up to the last one. -/
structure Walked (ids : List Token) (origin : Token) (walked : List Token) (last : Token) :
    Prop where
  last_mem : last ∈ ids
  mem_iff : ∀ id, id ∈ walked ↔ id ∈ ids ∧ origin.gap id ≤ origin.gap last
  clockwise : walked.Pairwise fun a b => origin.gap a < origin.gap b

theorem walked_singleton (mem : origin ∈ ids) : Walked ids origin [origin] origin where
  last_mem := mem
  mem_iff id := by
    rw [List.mem_singleton, Token.gap_self, Nat.le_zero, Token.gap_eq_zero]
    exact ⟨fun h => ⟨h ▸ mem, h.symm⟩, fun h => h.2.symm⟩
  clockwise := List.pairwise_singleton ..

/-- If there are identifiers beyond one, then the next one is the nearest of them. -/
theorem gap_nextOf (ascending : Ascending ids) (mem : last ∈ ids) (hid : id ∈ ids)
    (beyond : origin.gap last < origin.gap id) :
    origin.gap last < origin.gap (nextOf ids last) ∧
      origin.gap (nextOf ids last) ≤ origin.gap id := by
  have hne : id ≠ last := by
    rintro rfl
    exact Nat.lt_irrefl _ beyond
  have hempty := not_insideOpen_nextOf ascending hid last
  rw [insideOpen_iff, not_and, not_or] at hempty
  obtain ⟨hother, hnear⟩ := hempty hne
  have hpos := Token.gap_pos hother
  have hlegs := Token.gap_add_gap origin last id
  have hlegs' := Token.gap_add_gap origin last (nextOf ids last)
  have hlt := Token.gap_lt origin id
  have hlt' := Token.gap_lt last id
  omega

namespace Walked

/-- One more step of a walk meets a new identifier. -/
theorem step (h : Walked ids origin walked last) (ascending : Ascending ids)
    (new : nextOf ids last ∉ walked) :
    Walked ids origin (walked ++ [nextOf ids last]) (nextOf ids last) := by
  have hmem := nextOf_mem h.last_mem last
  have hbeyond : origin.gap last < origin.gap (nextOf ids last) :=
    Nat.lt_of_not_le fun hle => new ((h.mem_iff _).2 ⟨hmem, hle⟩)
  refine ⟨hmem, fun id => ?_, ?_⟩
  · rw [List.mem_append, List.mem_singleton, h.mem_iff]
    constructor
    · rintro (⟨hid, hle⟩ | rfl)
      · exact ⟨hid, Nat.le_trans hle (Nat.le_of_lt hbeyond)⟩
      · exact ⟨hmem, Nat.le_refl _⟩
    · rintro ⟨hid, hle⟩
      rcases Nat.lt_or_ge (origin.gap last) (origin.gap id) with hfar | hnear
      · have hnext := (gap_nextOf ascending h.last_mem hid hfar).2
        exact Or.inr (Token.gap_left_inj (Nat.le_antisymm hle hnext))
      · exact Or.inl ⟨hid, hnear⟩
  · refine List.pairwise_append.2 ⟨h.clockwise, List.pairwise_singleton .., fun a ha b hb => ?_⟩
    rw [List.mem_singleton.1 hb]
    exact Nat.lt_of_le_of_lt ((h.mem_iff a).1 ha).2 hbeyond

/-- A walk that comes back has met every identifier. -/
theorem circuit (h : Walked ids origin walked last) (ascending : Ascending ids)
    (back : nextOf ids last ∈ walked) : Circuit ids origin walked := by
  have hall (id : Token) (hid : id ∈ ids) : origin.gap id ≤ origin.gap last := by
    refine Nat.le_of_not_lt fun hfar => ?_
    have hnext := (gap_nextOf ascending h.last_mem hid hfar).1
    exact Nat.not_lt_of_le ((h.mem_iff _).1 back).2 hnext
  refine ⟨(List.perm_ext_iff_of_nodup ?_ ascending.nodup).2 fun id => ?_, h.clockwise⟩
  · refine List.Pairwise.imp (fun {a b} hlt heq => ?_) h.clockwise
    rw [heq] at hlt
    exact Nat.lt_irrefl _ hlt
  · rw [h.mem_iff]
    exact ⟨And.left, fun hid => ⟨hid, hall id hid⟩⟩

/-- A step leaves fewer identifiers beyond. -/
theorem countP_lt (h : Walked ids origin walked last) (new : nextOf ids last ∉ walked) :
    ids.countP (fun id => origin.gap (nextOf ids last) < origin.gap id) <
      ids.countP (fun id => origin.gap last < origin.gap id) := by
  have hmem := nextOf_mem h.last_mem last
  have hbeyond : origin.gap last < origin.gap (nextOf ids last) :=
    Nat.lt_of_not_le fun hle => new ((h.mem_iff _).2 ⟨hmem, hle⟩)
  refine countP_lt_countP (fun id _ hid => ?_) hmem (decide_eq_true hbeyond) ?_
  · exact decide_eq_true (Nat.lt_trans hbeyond (of_decide_eq_true hid))
  · exact fun hid => Nat.lt_irrefl _ (of_decide_eq_true hid)

end Walked

namespace Network

variable {net : Network} {config : Config} {members : List Token} {chart : Chart} {number : Nat}
  {handle : Handle} {node : Node}

/-- A walk goes on until it has met every node of a closed ring. -/
theorem walk_achieves (populated : net.Populated config members) (follows : net.Follows ids chart)
    (ascending : Ascending ids) (closed : chart.Closed ids) (inside : ∀ id ∈ ids, id ∈ members)
    (houses : net.Houses origin handle node) (walks : Walked ids origin walked last) :
    Achieves number net handle (node.walk net.surroundings walked (nextOf ids last))
      fun outcome after =>
        net.Same after ∧ ∃ ring, outcome = .ok ring ∧ Circuit ids origin ring := by
  -- every node that is asked leaves fewer nodes beyond it
  induction hcount : ids.countP (fun id => origin.gap last < origin.gap id) using Nat.strongRecOn
    generalizing net walked last with
  | ind left ih =>
  subst hcount
  rw [Node.walk]
  split
  · rename_i hback
    exact .answer_same houses.stands ⟨Same.refl net, walked, rfl, walks.circuit ascending hback⟩
  · rename_i hnew
    have hmem := nextOf_mem walks.last_mem last
    obtain ⟨contact, target, hresolve, htarget⟩ := populated.resolve houses (inside _ hmem)
    have hsucc : target.successor = some (nextOf ids (nextOf ids last)) := by
      rw [(follows.of_houses hmem htarget).1, closed.succ _ hmem]
    rw [hresolve]
    refine .query rfl houses.stands rfl rfl populated.prompt htarget.stands
      (by rw [Node.serve, hsucc]) fun told htold => ?_
    refine (ih _ (walks.countP_lt hnew) (htold.keeps.populated populated)
      (htold.keeps.follows follows) (htold.keeps.houses houses)
      (walks.step ascending hnew) rfl).weaken ?_
    rintro outcome after ⟨hafter, hring⟩
    exact ⟨htold.trans hafter, hring⟩

/-- In a closed ring a node lists all nodes clockwise from itself. -/
theorem ringMembers_achieves (populated : net.Populated config members)
    (follows : net.Follows ids chart) (ascending : Ascending ids) (closed : chart.Closed ids)
    (inside : ∀ id ∈ ids, id ∈ members) (houses : net.Houses origin handle node)
    (mem : origin ∈ ids) (number : Nat) :
    Achieves number net handle (node.ringMembers net.surroundings)
      fun outcome after =>
        net.Same after ∧ ∃ ring, outcome = .ok ring ∧ Circuit ids origin ring := by
  have hsucc := (follows.of_houses mem houses).1
  rw [closed.succ origin mem] at hsucc
  have hturn : node.ringMembers net.surroundings =
      node.walk net.surroundings [origin] (nextOf ids origin) := by
    simp only [Node.ringMembers, hsucc, populated.id_eq houses]
  rw [hturn]
  exact walk_achieves populated follows ascending closed inside houses (walked_singleton mem)

end Network

end RecordRing
