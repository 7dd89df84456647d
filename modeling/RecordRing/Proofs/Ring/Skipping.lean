import RecordRing.Proofs.Ring.Circuit

/-!
# Rings that skip a latecomer

A node that has joined a ring in order is still skipped by the node before it, while the node after
it knows it already (`Chart.Skips`).  Repair at the node before closes the ring
(`Chart.Skips.repaired_previous`), and no other repair changes anything.

The latecomer takes over the keys of its interval from the node after it, and the owners of all
other keys stay (`ownerOf_erase`).
-/

namespace RecordRing

variable {ids : List Token} {late id key c : Token} {chart : Chart}

/-! ## Owners -/

theorem ownerOf_self (ascending : Ascending ids) (mem : id ∈ ids) : ownerOf ids id = id :=
  (eq_ownerOf ascending mem fun c _ => by rw [Token.gap_self]; exact Nat.zero_le _).symm

/-- The keys of an identifier that leaves fall to the one after it. -/
theorem ownerOf_erase (ascending : Ascending ids) (mem : late ∈ ids) (hc : c ∈ ids)
    (company : c ≠ late) (key : Token) :
    ownerOf (ids.erase late) key =
      if ownerOf ids key = late then nextOf ids late else ownerOf ids key := by
  have hnext := nextOf_ne ascending hc company
  split
  · rename_i howner
    refine (eq_ownerOf (ascending.erase late)
      ((mem_erase_iff ascending).2 ⟨hnext, nextOf_mem mem late⟩) fun other hother => ?_).symm
    obtain ⟨hother, hmem⟩ := (mem_erase_iff ascending).1 hother
    have hnear := gap_ownerOf_le ascending hmem key
    rw [howner] at hnear
    have hbeyond : key.gap late < key.gap other :=
      Nat.lt_of_le_of_ne hnear fun heq => hother (Token.gap_left_inj heq).symm
    exact (gap_nextOf ascending mem hmem hbeyond).2
  · rename_i howner
    refine (eq_ownerOf (ascending.erase late)
      ((mem_erase_iff ascending).2 ⟨howner, ownerOf_mem mem key⟩) fun other hother => ?_).symm
    exact gap_ownerOf_le ascending ((mem_erase_iff ascending).1 hother).2 key

namespace Chart

/-- All nodes but a latecomer form a ring in order.  The latecomer knows the one after it, which
knows the latecomer. -/
structure Skips (ids : List Token) (late : Token) (chart : Chart) : Prop where
  succ : ∀ id ∈ ids, chart.succ id =
    if id = previousOf ids late then nextOf ids late else nextOf ids id
  pred : ∀ id ∈ ids, chart.pred id = if id = late then none else beforeOf? ids id

namespace Skips

variable (skips : chart.Skips ids late) (ascending : Ascending ids) (mem : late ∈ ids)

section Succession

include skips ascending mem

/-- Without the latecomer every node knows the next one. -/
theorem succ_erase (hid : id ∈ ids.erase late) :
    chart.succ id = nextOf (ids.erase late) id := by
  obtain ⟨hother, hid⟩ := (mem_erase_iff ascending).1 hid
  rw [skips.succ id hid]
  split
  · rename_i heq
    rw [nextOf_erase_of_eq ascending hid hother (heq ▸ nextOf_previousOf ascending mem)]
  · rename_i hne
    refine (nextOf_erase ascending hid fun hnext => hne ?_).symm
    rw [← hnext, previousOf_nextOf ascending hid]

end Succession

variable (hc : c ∈ ids) (company : c ≠ late)
include skips ascending mem hc company

/-- Every node but the one before the latecomer is known to its successor. -/
theorem known (hid : id ∈ ids) (other : id ≠ previousOf ids late) :
    chart.pred (chart.succ id) = some id ∧ chart.succ id ≠ id := by
  have hsucc : chart.succ id = nextOf ids id := (skips.succ id hid).trans (if_neg other)
  have hne : nextOf ids id ≠ id := by
    by_cases hlate : id = late
    · exact nextOf_ne ascending hc (hlate ▸ company)
    · exact nextOf_ne ascending mem (Ne.symm hlate)
  have hnext : nextOf ids id ≠ late := by
    rintro rfl
    exact other (previousOf_nextOf ascending hid).symm
  rw [hsucc, skips.pred _ (nextOf_mem mem id), if_neg hnext,
    beforeOf?_of_ne hid (Ne.symm hne), previousOf_nextOf ascending hid]
  exact ⟨rfl, hne⟩

/-- No repair but that of the node before the latecomer changes anything. -/
theorem repaired_of_ne (hid : id ∈ ids) (other : id ≠ previousOf ids late) :
    chart.repaired id = chart :=
  have hknown := skips.known ascending mem hc company hid other
  repaired_of_known hknown.1 hknown.2

theorem target_of_ne (hid : id ∈ ids) (other : id ≠ previousOf ids late) :
    chart.target id = nextOf ids id := by
  have hknown := skips.known ascending mem hc company hid other
  rw [target, hknown.1, towards,
    Option.filter_some_neg (eq_false_of_ne_true (not_insideOpen_self _ _)), Option.getD_none,
    skips.succ id hid, if_neg other]

/-- The node before the latecomer finds it. -/
theorem target_previous : chart.target (previousOf ids late) = late := by
  have hprevious := previousOf_mem mem late
  have hnext := nextOf_ne ascending hc company
  have hback : previousOf ids (nextOf ids late) = late := previousOf_nextOf ascending mem
  have hinside : insideOpen (previousOf ids late) (nextOf ids late) late = true := by
    have h := insideOpen_previousOf ascending hprevious
      (hback.trans_ne (Ne.symm (previousOf_ne ascending hc company)))
    rwa [hback] at h
  rw [target, skips.succ _ hprevious, if_pos rfl, skips.pred _ (nextOf_mem mem late),
    if_neg hnext, beforeOf?_of_ne mem (Ne.symm hnext), hback, towards,
    Option.filter_some_pos hinside, Option.getD_some]

/-- Repair of the node before the latecomer closes the ring. -/
theorem repaired_previous : (chart.repaired (previousOf ids late)).Closed ids := by
  have hne : late ≠ previousOf ids late := Ne.symm (previousOf_ne ascending hc company)
  rw [repaired, skips.target_previous ascending mem hc company, if_neg hne]
  refine ⟨fun id hid => ?_, fun id hid => ?_⟩
  · show (if id = previousOf ids late then late else chart.succ id) = _
    split
    · rename_i heq
      rw [heq, nextOf_previousOf ascending mem]
    · rename_i hother
      rw [skips.succ id hid, if_neg hother]
  · show (if id = late then noticed late (chart.pred late) (previousOf ids late)
      else chart.pred id) = _
    split
    · rename_i heq
      rw [heq, skips.pred late mem, if_pos rfl, noticed, if_pos ⟨Ne.symm hne, rfl⟩,
        beforeOf?_of_ne hc company]
    · rename_i hother
      rw [skips.pred id hid, if_neg hother]

end Skips

/-- A ring in order that a node has joined skips this node. -/
theorem Closed.skips (closed : chart.Closed (ids.erase late)) (ascending : Ascending ids)
    (mem : late ∈ ids) (hc : c ∈ ids) (company : c ≠ late) :
    ((chart.joined late (nextOf ids late)).told (nextOf ids late) late).Skips ids late := by
  have hnext := nextOf_ne ascending hc company
  have hback : previousOf ids (nextOf ids late) = late := previousOf_nextOf ascending mem
  refine ⟨fun id hid => ?_, fun id hid => ?_⟩
  · show (if id = late then nextOf ids late else chart.succ id) = _
    by_cases hlate : id = late
    · subst hlate
      rw [if_pos rfl, if_neg (Ne.symm (previousOf_ne ascending hc company))]
    · have hold := (mem_erase_iff ascending).2 ⟨hlate, hid⟩
      rw [if_neg hlate, closed.succ id hold]
      split
      · rename_i heq
        exact nextOf_erase_of_eq ascending hid hlate (heq ▸ nextOf_previousOf ascending mem)
      · rename_i hother
        refine nextOf_erase ascending hid fun h => hother ?_
        rw [← h, previousOf_nextOf ascending hid]
  · show (if id = nextOf ids late then
      noticed (nextOf ids late) (if nextOf ids late = late then none
        else chart.pred (nextOf ids late)) late
      else if id = late then none else chart.pred id) = _
    have hold : nextOf ids late ∈ ids.erase late :=
      (mem_erase_iff ascending).2 ⟨hnext, nextOf_mem mem late⟩
    by_cases hid' : id = nextOf ids late
    · subst hid'
      rw [if_pos rfl, if_neg hnext, if_neg hnext, beforeOf?_of_ne mem (Ne.symm hnext), hback,
        noticed, if_pos]
      refine ⟨Ne.symm hnext, ?_⟩
      rw [closed.pred _ hold, beforeOf?]
      split
      · rfl
      · obtain ⟨hother, hbefore⟩ := (mem_erase_iff ascending).1 (previousOf_mem hold (nextOf ids late))
        have hinside := insideOpen_previousOf ascending hbefore (hback.trans_ne (Ne.symm hother))
        rwa [hback] at hinside
    · rw [if_neg hid']
      split
      · rfl
      · rename_i hlate
        have hmem := (mem_erase_iff ascending).2 ⟨hlate, hid⟩
        rw [closed.pred id hmem, beforeOf?_of_ne hold (Ne.symm hid'),
          beforeOf?_of_ne mem (Ne.symm hlate)]
        refine congrArg some (previousOf_erase ascending hid (fun h => hid' ?_) hlate)
        rw [← h, nextOf_previousOf ascending hid]

end Chart

end RecordRing
