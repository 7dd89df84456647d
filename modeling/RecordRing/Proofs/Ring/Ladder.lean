import Mathlib.Data.List.Induction
import Mathlib.Logic.Function.Iterate
import RecordRing.Proofs.Ring.Visits

/-!
# Repair rounds of a star

A chart says who follows whom, as far as the nodes know.  When all nodes have joined through the
founder and no repair has taken place, the chart is a star: everybody takes the founder for the next
one.  In a round every node repairs its successor once, and then one more node has found its place:
the one farthest behind the founder of those that had none (`Rung.round`).  So the ring is closed
after as many rounds as there are nodes besides the founder (`Rung.close`).

## Implementation notes

A node behind the front has its place; the nodes between the founder and the front have none.
Within a round the nodes that have had their turn take the node before the front for their
successor, and this node has heard of the nearest of them.
-/

namespace RecordRing

variable {ids done members : List Token} {founder front id a b c : Token}

/-! ## Arcs between the nodes -/

theorem not_insideOpen_self (a b : Token) : ¬ insideOpen a b a = true :=
  fun h => (insideOpen_iff.1 h).1 rfl

theorem not_insideOpen_end (a b : Token) : ¬ insideOpen a b b = true := by
  intro h
  obtain ⟨hne, heq | hlt⟩ := insideOpen_iff.1 h
  · exact hne heq.symm
  · exact Nat.lt_irrefl _ hlt

/-- A position that comes later on the rest of an arc has the earlier one before it. -/
theorem insideOpen_of_later (outer : insideOpen a b c = true) (inner : insideOpen c b id = true)
    (other : id ≠ a) : insideOpen a id c = true := by
  obtain ⟨hca, hcb⟩ := insideOpen_iff.1 outer
  obtain ⟨hic, hib⟩ := insideOpen_iff.1 inner
  refine insideOpen_iff.2 ⟨hca, Or.inr ?_⟩
  have hbc : c ≠ b := fun h => not_insideOpen_end a b (h ▸ outer)
  have hcid := Token.gap_pos (Ne.symm hic)
  have hib := hib.resolve_left hbc
  have hid := Token.gap_lt a id
  have hleg := Token.gap_add_gap a c id
  have hleg' := Token.gap_add_gap a c b
  rcases hcb with rfl | hcb
  · have hback := Token.gap_add_gap_back (Ne.symm hca)
    have hpos := Token.gap_pos (Ne.symm other)
    omega
  · have hab := Token.gap_lt a b
    have hcb' := Token.gap_lt c b
    omega

/-- The node before one that has no place yet is the founder or has no place either. -/
theorem eq_or_insideOpen_previousOf (ascending : Ascending ids) (mem : founder ∈ ids)
    (between : insideOpen founder front id = true) :
    previousOf ids id = founder ∨ insideOpen founder front (previousOf ids id) = true := by
  by_cases heq : previousOf ids id = founder
  · exact Or.inl heq
  · exact Or.inr (insideOpen_trans_end between (insideOpen_previousOf ascending mem heq))

/-- If some node has no place yet, then the one before the front has none. -/
theorem insideOpen_previousOf_front (ascending : Ascending ids) (mem : founder ∈ ids)
    (hc : c ∈ ids) (between : insideOpen founder front c = true) :
    insideOpen founder front (previousOf ids front) = true := by
  refine insideOpen_previousOf ascending mem fun heq => ?_
  exact not_insideOpen_previousOf ascending hc front (heq ▸ between)

/-- Between the founder and the front the node before the front is the last one. -/
theorem eq_previousOf_front (ascending : Ascending ids) (hc : c ∈ ids)
    (between : insideOpen founder front c = true) (other : previousOf ids front ≠ founder)
    (last : ¬ insideOpen founder (previousOf ids front) c = true) : c = previousOf ids front := by
  refine Decidable.byContradiction fun hne => last ?_
  exact insideOpen_of_later between (insideOpen_previousOf ascending hc (Ne.symm hne)) other

/-! ## The nearest of those that have reported -/

/-- Of the nodes that have told a node about themselves it knows the nearest before it. -/
structure Nearest (base : Token) (heard : Token → Prop) (before : Option Token) : Prop where
  unknown : before = none → ∀ id, heard id → id = base
  other : ∀ near, before = some near → heard near ∧ near ≠ base
  near : ∀ near, before = some near → ∀ id, heard id → ¬ insideOpen near base id = true

namespace Nearest

variable {base near : Token} {heard more : Token → Prop} {before : Option Token}

theorem congr (h : Nearest base heard before) (same : ∀ id, more id ↔ heard id) :
    Nearest base more before :=
  ⟨fun hnone id hid => h.unknown hnone id ((same id).1 hid),
    fun near hnear => ⟨(same near).2 (h.other near hnear).1, (h.other near hnear).2⟩,
    fun near hnear id hid => h.near near hnear id ((same id).1 hid)⟩

/-- The node itself does not count. -/
theorem own (h : Nearest base heard before) (grows : ∀ id, more id → heard id ∨ id = base)
    (keeps : ∀ id, heard id → more id) : Nearest base more before where
  unknown hnone id hid := (grows id hid).elim (h.unknown hnone id) (·)
  other near hnear := ⟨keeps near (h.other near hnear).1, (h.other near hnear).2⟩
  near near hnear id hid := by
    rcases grows id hid with hold | rfl
    · exact h.near near hnear id hold
    · exact not_insideOpen_end _ _

/-- One more node reports itself. -/
theorem noticed (h : Nearest base heard before) (candidate : Token) (ne : candidate ≠ base) :
    Nearest base (fun id => heard id ∨ id = candidate) (noticed base before candidate) := by
  rw [RecordRing.noticed]
  split
  · rename_i hcloser
    refine ⟨fun hnone => absurd hnone (Option.some_ne_none _), fun near hnear => ?_,
      fun near hnear id hid => ?_⟩
    · cases hnear
      exact ⟨Or.inr rfl, ne⟩
    · cases hnear
      rcases hid with hold | rfl
      · intro hinside
        cases before with
        | none => exact not_insideOpen_end _ _ (h.unknown rfl id hold ▸ hinside)
        | some first =>
            exact h.near first rfl id hold (insideOpen_trans hcloser.2 hinside)
      · exact not_insideOpen_self _ _
  · rename_i hfar
    refine ⟨fun hnone => absurd ⟨ne, by rw [hnone, Option.all_none]⟩ hfar,
      fun near hnear => ⟨Or.inl (h.other near hnear).1, (h.other near hnear).2⟩,
      fun near hnear id hid => ?_⟩
    rcases hid with hold | rfl
    · exact h.near near hnear id hold
    · exact fun hinside => hfar ⟨ne, by rw [hnear]; exact hinside⟩

/-- When the one before has reported itself, it is known. -/
theorem eq_beforeOf? (h : Nearest base heard before) (ascending : Ascending ids)
    (mem : ∀ id, heard id → id ∈ ids) (hc : c ∈ ids) (other : c ≠ base)
    (last : heard (previousOf ids base)) : before = beforeOf? ids base := by
  rw [beforeOf?_of_ne hc other]
  cases before with
  | none => exact absurd (h.unknown rfl _ last) (previousOf_ne ascending hc other)
  | some near =>
      refine congrArg some (Decidable.byContradiction fun hne => ?_)
      exact h.near near rfl _ last
        (insideOpen_previousOf ascending (mem near (h.other near rfl).1) (Ne.symm hne))

end Nearest

/-! ## Charts -/

/-- Who follows whom, as far as the nodes know. -/
structure Chart where
  /-- The successor that a node knows. -/
  succ : Token → Token
  /-- The predecessor that a node knows, if it knows one. -/
  pred : Token → Option Token

namespace Chart

variable {chart : Chart} {next : Token}

/-- The chart after a node has told another one about itself. -/
def told (chart : Chart) (peer candidate : Token) : Chart :=
  { chart with pred := fun other =>
      if other = peer then noticed peer (chart.pred peer) candidate else chart.pred other }

/-- The chart after a node has taken a successor. -/
def led (chart : Chart) (id next : Token) : Chart :=
  { chart with succ := fun other => if other = id then next else chart.succ other }

/-- The chart with a node that has found its successor and knows nobody else. -/
def joined (chart : Chart) (late next : Token) : Chart :=
  { succ := fun id => if id = late then next else chart.succ id
    pred := fun id => if id = late then none else chart.pred id }

/-- The successor that a node finds by successor repair. -/
def target (chart : Chart) (id : Token) : Token :=
  towards id (chart.succ id) (chart.pred (chart.succ id))

/-- The chart after successor repair at a node. -/
def repaired (chart : Chart) (id : Token) : Chart :=
  if chart.target id = id then chart.led id id
  else (chart.led id (chart.target id)).told (chart.target id) id

/-- Every node knows the next one and the one before. -/
structure Closed (ids : List Token) (chart : Chart) : Prop where
  succ : ∀ id ∈ ids, chart.succ id = nextOf ids id
  pred : ∀ id ∈ ids, chart.pred id = beforeOf? ids id

theorem led_self (holds : chart.succ id = next) : chart.led id next = chart := by
  have hsucc : (fun other => if other = id then next else chart.succ other) = chart.succ := by
    funext other
    split
    · rename_i heq
      rw [heq, holds]
    · rfl
  rw [led, hsucc]

/-- Nothing happens when the successor knows the node already. -/
theorem repaired_of_known (known : chart.pred (chart.succ id) = some id)
    (other : chart.succ id ≠ id) : chart.repaired id = chart := by
  have htarget : towards id (chart.succ id) (some id) = chart.succ id := by
    rw [towards, Option.filter_some_neg (eq_false_of_ne_true (not_insideOpen_self _ _)),
      Option.getD_none]
  have hpred : (fun peer => if peer = chart.succ id then
      noticed (chart.succ id) (chart.pred (chart.succ id)) id
      else chart.pred peer) = chart.pred := by
    funext peer
    split
    · rename_i heq
      rw [heq, known, noticed, if_neg]
      exact fun h => not_insideOpen_self _ _ h.2
    · rfl
  rw [repaired, target, known, htarget, if_neg other, led_self rfl, told, hpred]

/-- A closed ring stays as it is. -/
theorem Closed.repaired (closed : chart.Closed ids) (ascending : Ascending ids) (mem : id ∈ ids) :
    (chart.repaired id).Closed ids := by
  suffices hsame : chart.repaired id = chart by rwa [hsame]
  have hsucc := closed.succ id mem
  have hpred := closed.pred _ (nextOf_mem mem id)
  by_cases halone : nextOf ids id = id
  · rw [beforeOf?_of_alone ascending (nextOf_mem mem id) (by rw [halone, halone])] at hpred
    have htarget : towards id (chart.succ id) (chart.pred (chart.succ id)) = id := by
      rw [hsucc, hpred, towards, Option.filter_none, Option.getD_none, halone]
    rw [Chart.repaired, Chart.target, htarget]
    exact (if_pos rfl).trans (led_self (hsucc.trans halone))
  · rw [beforeOf?_of_ne mem (Ne.symm halone), previousOf_nextOf ascending mem] at hpred
    exact repaired_of_known (hsucc ▸ hpred) (hsucc ▸ halone)

end Chart

/-! ## One rung after the other -/

/-- The chart within a round: the nodes of a list have had their turn. -/
structure Rung (ids : List Token) (founder front : Token) (done : List Token) (chart : Chart) :
    Prop where
  front_mem : front ∈ ids
  placed : ∀ id ∈ ids, id ≠ founder → ¬ insideOpen founder front id = true →
    chart.succ id = nextOf ids id
  kept : ∀ id ∈ ids, id = founder ∨ insideOpen founder front id = true →
    id ∉ done ∨ id = previousOf ids front → chart.succ id = front
  moved : ∀ id ∈ ids, id = founder ∨ insideOpen founder front id = true → id ∈ done →
    id ≠ previousOf ids front → chart.succ id = previousOf ids front
  before : ∀ id ∈ ids, ¬ insideOpen founder front id = true → chart.pred id = beforeOf? ids id
  blank : ∀ id ∈ ids, insideOpen founder front id = true → id ≠ previousOf ids front →
    chart.pred id = none
  heard : insideOpen founder front (previousOf ids front) = true →
    Nearest (previousOf ids front)
      (fun id => id ∈ done ∧ (id = founder ∨ insideOpen founder front id = true))
      (chart.pred (previousOf ids front))

namespace Rung

variable {chart : Chart}

/-- The ring is closed when every node has its place. -/
theorem closed (rung : Rung ids founder front [] chart) (ascending : Ascending ids)
    (full : ∀ id ∈ ids, ¬ insideOpen founder front id = true) :
    chart.Closed ids where
  succ id hid := by
    by_cases heq : id = founder
    · rw [rung.kept id hid (Or.inl heq) (Or.inl List.not_mem_nil), heq]
      exact eq_nextOf ascending rung.front_mem full
    · exact rung.placed id hid heq (full id hid)
  pred id hid := rung.before id hid (full id hid)

/-- A turn that changes nothing, of a node that the others in the round do not care about. -/
theorem pass (rung : Rung ids founder front done chart)
    (idle : id = founder ∨ insideOpen founder front id = true → id = previousOf ids front) :
    Rung ids founder front (done ++ [id]) chart where
  front_mem := rung.front_mem
  placed := rung.placed
  kept other hmem hopen hkept := by
    refine rung.kept other hmem hopen (hkept.imp_left fun hnot => ?_)
    exact fun hdone => hnot (List.mem_append_left _ hdone)
  moved other hmem hopen hdone hne := by
    rcases List.mem_append.1 hdone with hold | hnew
    · exact rung.moved other hmem hopen hold hne
    · cases List.mem_singleton.1 hnew
      exact absurd (idle hopen) hne
  before := rung.before
  blank := rung.blank
  heard hfront := by
    refine (rung.heard hfront).own (fun other hother => ?_) fun other hother =>
      ⟨List.mem_append_left _ hother.1, hother.2⟩
    rcases List.mem_append.1 hother.1 with hold | hnew
    · exact Or.inl ⟨hold, hother.2⟩
    · cases List.mem_singleton.1 hnew
      exact Or.inr (idle hother.2)

/-- The turn of a node that goes over to the node before the front. -/
theorem follow (rung : Rung ids founder front done chart) (mem : id ∈ ids)
    (opened : id = founder ∨ insideOpen founder front id = true)
    (other : id ≠ previousOf ids front)
    (ahead : insideOpen founder front (previousOf ids front) = true) :
    Rung ids founder front (done ++ [id])
      ((chart.led id (previousOf ids front)).told (previousOf ids front) id) where
  front_mem := rung.front_mem
  placed peer hmem hne hplaced := by
    have hpeer : peer ≠ id := by
      rintro rfl
      exact opened.elim hne hplaced
    exact (if_neg hpeer).trans (rung.placed peer hmem hne hplaced)
  kept peer hmem hopen hkept := by
    have hpeer : peer ≠ id := by
      rintro rfl
      exact hkept.elim (fun h => h (List.mem_append_right _ (List.mem_singleton_self _))) other
    refine (if_neg hpeer).trans (rung.kept peer hmem hopen (hkept.imp_left fun hnot => ?_))
    exact fun hdone => hnot (List.mem_append_left _ hdone)
  moved peer hmem hopen hdone hne := by
    by_cases hpeer : peer = id
    · exact if_pos hpeer
    · refine (if_neg hpeer).trans (rung.moved peer hmem hopen ?_ hne)
      exact (List.mem_append.1 hdone).resolve_right fun h => hpeer (List.mem_singleton.1 h)
  before peer hmem hplaced := by
    have hpeer : peer ≠ previousOf ids front := by
      rintro rfl
      exact hplaced ahead
    exact (if_neg hpeer).trans (rung.before peer hmem hplaced)
  blank peer hmem hopen hne := (if_neg hne).trans (rung.blank peer hmem hopen hne)
  heard hfront := by
    have hnoticed := (rung.heard hfront).noticed id other
    rw [show ((chart.led id (previousOf ids front)).told (previousOf ids front) id).pred
      (previousOf ids front) = noticed (previousOf ids front) (chart.pred (previousOf ids front)) id
      from if_pos rfl]
    refine hnoticed.congr fun peer => ?_
    rw [List.mem_append, List.mem_singleton]
    exact ⟨fun h => h.1.imp (⟨·, h.2⟩) (·),
      fun h => h.elim (fun h => ⟨Or.inl h.1, h.2⟩) fun h => ⟨Or.inr h, h ▸ opened⟩⟩

/-- The turn of one node in a round. -/
theorem turn (rung : Rung ids founder front done chart) (ascending : Ascending ids)
    (founded : founder ∈ ids) (ahead : insideOpen founder front (previousOf ids front) = true)
    (mem : id ∈ ids) (fresh : id ∉ done) :
    Rung ids founder front (done ++ [id]) (chart.repaired id) := by
  have hahead : previousOf ids front ∈ ids := previousOf_mem mem front
  have hapart : previousOf ids front ≠ front := fun heq => not_insideOpen_end _ _ (heq ▸ ahead)
  have hfront : chart.pred front = some (previousOf ids front) := by
    rw [rung.before front rung.front_mem (not_insideOpen_end _ _), beforeOf?_of_ne hahead hapart]
  by_cases hopen : id = founder ∨ insideOpen founder front id = true
  · by_cases heq : id = previousOf ids front
    · -- the node before the front is known to the front
      have hsucc := rung.kept id mem hopen (Or.inr heq)
      have hsame : chart.repaired id = chart := by
        exact Chart.repaired_of_known (by rw [hsucc, hfront, heq])
          (by rw [hsucc, heq]; exact hapart.symm)
      rw [hsame]
      exact rung.pass fun _ => heq
    · have hsucc := rung.kept id mem hopen (Or.inl fresh)
      have htarget : towards id (chart.succ id) (chart.pred (chart.succ id)) =
          previousOf ids front := by
        rw [hsucc, hfront, towards,
          Option.filter_some_pos (insideOpen_previousOf ascending mem (Ne.symm heq)),
          Option.getD_some]
      rw [Chart.repaired, Chart.target, htarget, if_neg (Ne.symm heq)]
      exact rung.follow mem hopen heq ahead
  · -- a node that has its place is known to the next one
    rw [not_or] at hopen
    have hsucc := rung.placed id mem hopen.1 hopen.2
    have hbehind : ¬ insideOpen founder front (nextOf ids id) = true := by
      intro hnext
      have hback := eq_or_insideOpen_previousOf ascending founded hnext
      rw [previousOf_nextOf ascending mem] at hback
      exact hback.elim hopen.1 hopen.2
    have hne : nextOf ids id ≠ id := nextOf_ne ascending founded (Ne.symm hopen.1)
    have hknown : chart.pred (nextOf ids id) = some id := by
      rw [rung.before _ (nextOf_mem mem id) hbehind, beforeOf?_of_ne mem (Ne.symm hne),
        previousOf_nextOf ascending mem]
    have hsame : chart.repaired id = chart :=
      Chart.repaired_of_known (hsucc ▸ hknown) (hsucc ▸ hne)
    rw [hsame]
    exact rung.pass fun h => absurd h (not_or.2 hopen)

/-- When everybody has had a turn, the node before the front has its place. -/
theorem step (rung : Rung ids founder front done chart) (ascending : Ascending ids)
    (founded : founder ∈ ids) (ahead : insideOpen founder front (previousOf ids front) = true)
    (all : ∀ id ∈ ids, id ∈ done) (mem : ∀ id ∈ done, id ∈ ids) :
    Rung ids founder (previousOf ids front) [] chart := by
  have hahead : previousOf ids front ∈ ids := previousOf_mem founded front
  have hother : previousOf ids front ≠ founder := (insideOpen_iff.1 ahead).1
  -- the nodes that still have no place are those that had none, without the node before the front
  have hopen (id : Token) (h : insideOpen founder (previousOf ids front) id = true) :
      insideOpen founder front id = true ∧ id ≠ previousOf ids front :=
    ⟨insideOpen_trans_end ahead h, fun heq => not_insideOpen_end _ _ (heq ▸ h)⟩
  have hplaced (id : Token) (hid : id ∈ ids)
      (h : ¬ insideOpen founder (previousOf ids front) id = true) :
      ¬ insideOpen founder front id = true ∨ id = previousOf ids front :=
    (Decidable.em (insideOpen founder front id = true)).symm.imp_right fun hinside =>
      eq_previousOf_front ascending hid hinside hother h
  have hblank (id : Token) (hid : id ∈ ids)
      (h : insideOpen founder (previousOf ids front) id = true) : chart.pred id = none :=
    rung.blank id hid (hopen id h).1 (hopen id h).2
  refine ⟨hahead, fun id hid hne h => ?_, fun id hid h _ => ?_, fun _ _ _ => nofun,
    fun id hid h => ?_, fun id hid h _ => hblank id hid h, fun h => ?_⟩
  · rcases hplaced id hid h with hold | rfl
    · exact rung.placed id hid hne hold
    · rw [rung.kept _ hahead (Or.inr ahead) (Or.inr rfl),
        nextOf_previousOf ascending rung.front_mem]
  · refine rung.moved id hid (h.imp_right fun h => (hopen id h).1) (all id hid) ?_
    rcases h with rfl | h
    · exact hother.symm
    · exact (hopen id h).2
  · rcases hplaced id hid h with hold | rfl
    · exact rung.before id hid hold
    · refine (rung.heard ahead).eq_beforeOf? ascending ?_ founded hother.symm ?_
      · exact fun id h => mem id h.1
      · exact ⟨all _ (previousOf_mem founded _),
          eq_or_insideOpen_previousOf ascending founded ahead⟩
  · rw [hblank _ (previousOf_mem founded _) h]
    exact ⟨fun _ _ => nofun, nofun, nofun⟩

/-- The turns of some nodes, one after the other. -/
theorem turns (ascending : Ascending ids) (founded : founder ∈ ids)
    (ahead : insideOpen founder front (previousOf ids front) = true) (rest : List Token)
    (rung : Rung ids founder front done chart) (mem : ∀ id ∈ rest, id ∈ ids)
    (distinct : (done ++ rest).Nodup) :
    Rung ids founder front (done ++ rest) (rest.foldl Chart.repaired chart) := by
  induction rest generalizing done chart with
  | nil => rwa [List.append_nil]
  | cons id rest ih =>
      have hfresh : id ∉ done := fun h => (List.nodup_append.1 distinct).2.2 id h id
        (List.mem_cons_self ..) rfl
      rw [List.append_cons] at distinct ⊢
      exact ih (rung.turn ascending founded ahead (mem id (List.mem_cons_self ..)) hfresh)
        (fun other h => mem other (List.mem_cons_of_mem _ h)) distinct

end Rung

/-! ## The star -/

namespace Chart

variable {others : List Token}

/-- The chart of a founder on its own; whoever joins through it takes it for the next one. -/
def star (founder : Token) : Chart := ⟨fun _ => founder, fun _ => none⟩

/-- The chart after others have joined through the founder, one after the other. -/
def gathered (founder : Token) (others : List Token) : Chart :=
  others.foldl (fun chart id => chart.told founder id) (star founder)

theorem gathered_snoc (founder : Token) (others : List Token) (id : Token) :
    gathered founder (others ++ [id]) = (gathered founder others).told founder id := by
  rw [gathered, List.foldl_append]
  rfl

theorem succ_gathered (founder : Token) (others : List Token) (id : Token) :
    (gathered founder others).succ id = founder := by
  induction others using List.reverseRecOn with
  | nil => rfl
  | append_singleton others last ih => rwa [gathered_snoc]

theorem pred_gathered (other : id ≠ founder) (others : List Token) :
    (gathered founder others).pred id = none := by
  induction others using List.reverseRecOn with
  | nil => rfl
  | append_singleton others last ih =>
      rw [gathered_snoc]
      exact (if_neg other).trans ih

/-- One more node that has joined through the founder. -/
theorem joined_gathered (other : id ≠ founder) (others : List Token) :
    ((gathered founder others).joined id founder).told founder id =
      gathered founder (others ++ [id]) := by
  suffices h : (gathered founder others).joined id founder = gathered founder others by
    rw [h, gathered_snoc]
  have hsucc : (fun peer => if peer = id then founder else (gathered founder others).succ peer) =
      (gathered founder others).succ := by
    funext peer
    split
    · exact (succ_gathered founder others peer).symm
    · rfl
  have hpred : (fun peer => if peer = id then none else (gathered founder others).pred peer) =
      (gathered founder others).pred := by
    funext peer
    split
    · rename_i heq
      rw [heq, pred_gathered other others]
    · rfl
  rw [joined, hsucc, hpred]

/-- The founder knows the nearest of those that have joined. -/
theorem nearest_gathered (alone : founder ∉ others) :
    Nearest founder (· ∈ others) ((gathered founder others).pred founder) := by
  induction others using List.reverseRecOn with
  | nil => exact ⟨fun _ _ => nofun, nofun, nofun⟩
  | append_singleton others last ih =>
      rw [List.mem_append, not_or, List.mem_singleton] at alone
      rw [gathered_snoc, show ((gathered founder others).told founder last).pred founder =
        noticed founder ((gathered founder others).pred founder) last from if_pos rfl]
      refine ((ih alone.1).noticed last (Ne.symm alone.2)).congr fun id => ?_
      rw [List.mem_append, List.mem_singleton]

end Chart

/-- A star is the lowest rung: nobody but the founder has its place. -/
theorem rung_gathered {others : List Token} (ascending : Ascending ids) (alone : founder ∉ others)
    (same : ∀ id, id ∈ founder :: others ↔ id ∈ ids) :
    Rung ids founder founder [] (Chart.gathered founder others) := by
  have hfounded : founder ∈ ids := (same founder).1 (List.mem_cons_self ..)
  have hopen (id : Token) (h : ¬ insideOpen founder founder id = true) : id = founder :=
    Decidable.byContradiction fun hne => h (insideOpen_iff.2 ⟨hne, Or.inl rfl⟩)
  have hnone (id : Token) (h : insideOpen founder founder id = true) :
      (Chart.gathered founder others).pred id = none :=
    Chart.pred_gathered (insideOpen_iff.1 h).1 others
  refine ⟨hfounded, fun id _ hne h => absurd (hopen id h) hne,
    fun id _ _ _ => Chart.succ_gathered founder others id, fun _ _ _ => nofun, fun id _ h => ?_,
    fun id _ h _ => hnone id h, fun h => ?_⟩
  · rw [hopen id h]
    by_cases hcompany : ∃ c ∈ ids, c ≠ founder
    · obtain ⟨c, hc, hne⟩ := hcompany
      refine (Chart.nearest_gathered alone).eq_beforeOf? ascending ?_ hc hne ?_
      · exact fun id hid => (same id).1 (List.mem_cons_of_mem _ hid)
      · have hlast := (same _).2 (previousOf_mem hc founder)
        exact (List.mem_cons.1 hlast).resolve_left (previousOf_ne ascending hc hne)
    · have hnext : nextOf ids founder = founder := Decidable.byContradiction fun hne =>
        hcompany ⟨_, nextOf_mem hfounded founder, hne⟩
      rw [beforeOf?_of_alone ascending hfounded hnext]
      cases others with
      | nil => rfl
      | cons id rest =>
          refine absurd ⟨id, (same id).1 (by simp), ?_⟩ hcompany
          exact fun heq => alone (heq ▸ List.mem_cons_self ..)
  · rw [hnone _ h]
    exact ⟨fun _ _ => nofun, nofun, nofun⟩

/-! ## Rounds -/

namespace Chart

variable {chart : Chart}

/-- The chart after a round of successor repair. -/
def round (members : List Token) (chart : Chart) : Chart := members.foldl repaired chart

theorem Closed.round (closed : chart.Closed ids) (ascending : Ascending ids)
    (mem : ∀ id ∈ members, id ∈ ids) : (chart.round members).Closed ids := by
  induction members generalizing chart with
  | nil => exact closed
  | cons id rest ih =>
      exact ih (closed.repaired ascending (mem id (List.mem_cons_self ..)))
        fun other h => mem other (List.mem_cons_of_mem _ h)

theorem Closed.rounds (closed : chart.Closed ids) (ascending : Ascending ids)
    (mem : ∀ id ∈ members, id ∈ ids) (count : Nat) :
    ((Chart.round members)^[count] chart).Closed ids := by
  induction count generalizing chart with
  | zero => exact closed
  | succ count ih => exact ih (closed.round ascending mem)

end Chart

/-- The ring is closed after as many rounds as there are nodes without a place. -/
theorem Rung.close {chart : Chart} (rung : Rung ids founder front [] chart)
    (ascending : Ascending ids) (founded : founder ∈ ids) (distinct : members.Nodup)
    (same : ∀ id, id ∈ members ↔ id ∈ ids) (count : Nat)
    (few : ids.countP (insideOpen founder front) ≤ count) :
    ((Chart.round members)^[count] chart).Closed ids := by
  induction count generalizing front chart with
  | zero =>
      refine rung.closed ascending fun id hid => ?_
      exact List.countP_eq_zero.1 (Nat.le_zero.1 few) id hid
  | succ count ih =>
      by_cases hopen : ∃ id ∈ ids, insideOpen founder front id = true
      · obtain ⟨id, hid, hinside⟩ := hopen
        have hahead := insideOpen_previousOf_front ascending founded hid hinside
        have hturns := rung.turns ascending founded hahead members (fun id => (same id).1)
          (by rwa [List.nil_append])
        have hstep := hturns.step ascending founded hahead (fun id => (same id).2)
          fun id => (same id).1
        refine ih hstep ?_
        have hless := countP_insideOpen_end_lt (previousOf_mem founded front) hahead
        omega
      · have hfull : ∀ id ∈ ids, ¬ insideOpen founder front id = true :=
          fun id hid hinside => hopen ⟨id, hid, hinside⟩
        exact (rung.closed ascending hfull).rounds ascending (fun id => (same id).1) (count + 1)

end RecordRing
