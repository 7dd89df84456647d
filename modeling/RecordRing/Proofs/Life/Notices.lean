import RecordRing.Proofs.Life.Lifecycle
import RecordRing.Proofs.Ring.Ladder

/-!
# Notices in any order

A node without a predecessor that is told about several candidates, one after the other, takes the
nearest one before it for its predecessor.  The first candidate that it accepts starts the merge, and
the later ones only move the predecessor nearer (`Node.hears_eq`), so neither the order of the notices
nor their repetition plays a role (`Node.notices_in_any_order`).
-/

namespace RecordRing

/-! ## The nearest candidate -/

namespace Nearest

variable {base near id : Token} {heard : Token → Prop} {before after : Option Token}

/-- Nobody who has reported itself is nearer than the one that is known. -/
theorem gap_le (h : Nearest base heard (some near)) (mem : heard id) (ne : id ≠ base) :
    near.gap base ≤ id.gap base := by
  have hother : near ≠ base := (h.other near rfl).2
  have hnot : ¬ insideOpen near base id = true := h.near near rfl id mem
  rw [insideOpen_iff] at hnot
  have hni := Token.gap_cases near id
  have hnb := Token.gap_cases near base
  have hib := Token.gap_cases id base
  have hnR := near.toNat_lt
  have hiR := id.toNat_lt
  have hbR := base.toNat_lt
  simp only [← Token.toNat_inj, ne_eq] at *
  omega

/-- Who is known depends only on who has reported itself. -/
theorem unique (h : Nearest base heard before) (h' : Nearest base heard after) :
    after = before := by
  cases before with
  | none =>
      cases after with
      | none => rfl
      | some near =>
          obtain ⟨hheard, hne⟩ := h'.other near rfl
          exact absurd (h.unknown rfl near hheard) hne
  | some near =>
      obtain ⟨hheard, hne⟩ := h.other near rfl
      cases after with
      | none => exact absurd (h'.unknown rfl near hheard) hne
      | some other =>
          obtain ⟨hheard', hne'⟩ := h'.other other rfl
          have hle : near.gap base ≤ other.gap base := h.gap_le hheard' hne'
          have hge : other.gap base ≤ near.gap base := h'.gap_le hheard hne
          exact congrArg some (Token.gap_right_inj (Nat.le_antisymm hge hle))

/-- Several nodes more report themselves, one after the other. -/
theorem foldl (h : Nearest base heard before) (candidates : List Token) :
    Nearest base (fun id => heard id ∨ id ∈ candidates)
      (candidates.foldl (RecordRing.noticed base) before) := by
  induction candidates generalizing heard before with
  | nil =>
      apply h.congr
      simp
  | cons candidate rest ih =>
      rw [List.foldl_cons]
      by_cases hown : candidate = base
      · have hsame : RecordRing.noticed base before candidate = before :=
          if_neg fun fit => fit.1 hown
        rw [hsame]
        apply (ih h).own
        · intro id hid
          rcases hid with hold | hmem
          · exact .inl (.inl hold)
          · rcases List.mem_cons.1 hmem with rfl | hrest
            · exact .inr hown
            · exact .inl (.inr hrest)
        · intro id hid
          exact hid.imp_right (List.mem_cons_of_mem candidate)
      · apply (ih (h.noticed candidate hown)).congr
        intro id
        rw [List.mem_cons, or_assoc]

end Nearest

/-- Of the candidates of a list the nearest is known, if there is another node among them. -/
theorem nearest_foldl (base : Token) (candidates : List Token) :
    Nearest base (· ∈ candidates) (candidates.foldl (noticed base) none) := by
  have hnobody : Nearest base (fun _ => False) none := ⟨nofun, nofun, nofun⟩
  apply (hnobody.foldl candidates).congr
  simp

/-! ## The merge -/

namespace Node

variable {node : Node} {notices others : List (Surroundings × Token)}

/-- Whether the next acceptance of a predecessor starts the merge. -/
def IsReady (node : Node) : Prop := node.lifecycle = .joining ∧ node.successor ≠ none

theorem beginMerge_of_not_isReady (unready : ¬ node.IsReady) : node.beginMerge = (node, []) := by
  rw [beginMerge]
  split
  · rename_i source hjoining hknown
    exact absurd ⟨hjoining, by simp [hknown]⟩ unready
  · rfl

theorem not_isReady_beginMerge (node : Node) : ¬ node.beginMerge.1.IsReady := by
  by_cases hready : node.IsReady
  · obtain ⟨source, hknown⟩ := Option.ne_none_iff_exists'.1 hready.2
    exact fun h => Act.left_beginMerge hready.1 hknown h.1
  · rwa [beginMerge_of_not_isReady hready]

/-- Which predecessor has been accepted does not matter to the merge. -/
theorem beginMerge_accepting (node : Node) (before : Option Token) :
    ({ node with predecessor := before } : Node).beginMerge =
      ({ node.beginMerge.1 with predecessor := before }, node.beginMerge.2) := by
  obtain ⟨id, fingers, _, lifecycle, source, cursor, store, locks, pending, config⟩ := node
  cases lifecycle with
  | joining =>
      simp only [beginMerge, successor]
      cases fingers.successor with
      | none => rfl
      | some next =>
          simp only
          split <;> rfl
  | merging => rfl
  | stable => rfl

/-- The nodes that the merge asks for records: the successor, unless it is the node itself. -/
theorem asks_beginMerge (node : Node) : node.beginMerge.2.filterMap Effect.asks? =
    if node.lifecycle = .joining then
      (node.successor.filter fun source => source ≠ node.id).toList
    else [] := by
  rw [beginMerge]
  split
  · rename_i source hjoining hknown
    rw [hjoining, hknown, if_pos rfl]
    split
    · rename_i hself
      have hasked : (node.pending.map Effect.announce).filterMap Effect.asks? = [] :=
        Act.filterMap_asks?_announce node.pending
      rw [drainPending, hasked]
      simp [Option.filter, hself]
    · rename_i hother
      simp [Effect.asks?, Option.filter, hother]
  · rename_i hunready
    split
    · rename_i hjoining
      cases hknown : node.successor with
      | none => rfl
      | some source => exact absurd hknown (hunready source hjoining)
    · rfl

/-! ## Notices one after the other -/

/-- A node when it has been told about candidates one after the other, and the side effects of all
the notices. -/
def hears (node : Node) : List (Surroundings × Token) → Node × List Effect
  | [] => (node, [])
  | (around, candidate) :: notices =>
    let turn := node.start around (.serve (.notify candidate))
    let later := turn.node.hears notices
    (later.1, turn.effects ++ later.2)

theorem hears_cons (node : Node) (around : Surroundings) (candidate : Token)
    (notices : List (Surroundings × Token)) : node.hears ((around, candidate) :: notices) =
      (((node.notified candidate).1.hears notices).1,
        (node.notified candidate).2 ++ ((node.notified candidate).1.hears notices).2) := rfl

/-- A node that is not about to merge only moves its predecessor. -/
theorem notified_of_not_isReady (unready : ¬ node.IsReady) (candidate : Token) :
    node.notified candidate =
      ({ node with predecessor := noticed node.id node.predecessor candidate }, []) := by
  have hpredecessor := node.predecessor_notified candidate
  rw [notified] at hpredecessor ⊢
  split
  · rename_i hfit
    rw [if_pos hfit] at hpredecessor
    have hunready : ¬ ({ node with predecessor := some candidate } : Node).IsReady := unready
    rw [beginMerge_of_not_isReady hunready] at hpredecessor ⊢
    rw [← hpredecessor]
  · rename_i hfit
    rw [if_neg hfit] at hpredecessor
    rw [← hpredecessor]

theorem hears_of_not_isReady (unready : ¬ node.IsReady) (notices : List (Surroundings × Token)) :
    node.hears notices =
      ({ node with
          predecessor := (notices.map Prod.snd).foldl (noticed node.id) node.predecessor }, []) := by
  induction notices generalizing node with
  | nil => rfl
  | cons notice notices ih =>
      obtain ⟨around, candidate⟩ := notice
      have hlater := @ih
        { node with predecessor := noticed node.id node.predecessor candidate } unready
      rw [hears_cons, notified_of_not_isReady unready]
      dsimp only
      rw [hlater]
      rfl

/-- A node without a predecessor that is told about another node starts its merge with the first
notice that counts, and ends with the nearest candidate as its predecessor. -/
theorem hears_eq (alone : node.predecessor = none)
    (company : ∃ candidate ∈ notices.map Prod.snd, candidate ≠ node.id) :
    node.hears notices =
      ({ node.beginMerge.1 with
          predecessor := (notices.map Prod.snd).foldl (noticed node.id) none },
        node.beginMerge.2) := by
  induction notices with
  | nil =>
      obtain ⟨candidate, hmem, -⟩ := company
      cases hmem
  | cons notice notices ih =>
      obtain ⟨around, candidate⟩ := notice
      rw [hears_cons, List.map_cons, List.foldl_cons]
      by_cases hown : candidate = node.id
      · -- a notice about the node itself is passed over
        have hkeep : node.notified candidate = (node, []) := if_neg fun fit => fit.1 hown
        have hsame : noticed node.id none candidate = none := if_neg fun fit => fit.1 hown
        rw [hkeep, hsame]
        apply ih
        obtain ⟨other, hmem, hne⟩ := company
        rcases List.mem_cons.1 hmem with rfl | hrest
        · exact absurd hown hne
        · exact ⟨other, hrest, hne⟩
      · have hfit : candidate ≠ node.id ∧ node.isCloser candidate = true :=
          ⟨hown, by rw [isCloser, alone]⟩
        have haccept : noticed node.id none candidate = some candidate :=
          if_pos ⟨hown, Option.all_none⟩
        have hunready : ¬ ({ node.beginMerge.1 with predecessor := some candidate } : Node).IsReady :=
          node.not_isReady_beginMerge
        have hid : node.beginMerge.1.id = node.id := (congrArg Node.id node.rest_beginMerge :)
        rw [notified, if_pos hfit, beginMerge_accepting, hears_of_not_isReady hunready, haccept]
        simp only [List.append_nil, hid]

/-- A node without a predecessor is told about candidates, at least one of which is another node.
Whatever the order of the notices and however often each is repeated, the node and the side effects
are the same in the end: its predecessor is the one candidate besides the node itself from which the
way clockwise to the node is shortest, and it asks at most one node for records, which is its
successor if it was joining. -/
theorem notices_in_any_order (alone : node.predecessor = none)
    (company : ∃ candidate ∈ notices.map Prod.snd, candidate ≠ node.id)
    (same : ∀ candidate, candidate ∈ others.map Prod.snd ↔ candidate ∈ notices.map Prod.snd) :
    node.hears others = node.hears notices ∧
    (∃ near ∈ notices.map Prod.snd, near ≠ node.id ∧
      (node.hears notices).1.predecessor = some near ∧
      ∀ candidate ∈ notices.map Prod.snd, candidate ≠ node.id → candidate ≠ near →
        near.gap node.id < candidate.gap node.id) ∧
    (node.hears notices).2.filterMap Effect.asks? =
      if node.lifecycle = .joining then
        (node.successor.filter fun source => source ≠ node.id).toList
      else [] := by
  have hnear := nearest_foldl node.id (notices.map Prod.snd)
  have hother := (nearest_foldl node.id (others.map Prod.snd)).congr fun id => (same id).symm
  have hcompany : ∃ candidate ∈ others.map Prod.snd, candidate ≠ node.id := by
    obtain ⟨candidate, hmem, hne⟩ := company
    exact ⟨candidate, (same candidate).2 hmem, hne⟩
  rw [hears_eq alone company, hears_eq alone hcompany, hnear.unique hother]
  refine ⟨rfl, ?_, node.asks_beginMerge⟩
  cases hfold : (notices.map Prod.snd).foldl (noticed node.id) none with
  | none =>
      obtain ⟨candidate, hmem, hne⟩ := company
      exact absurd (hnear.unknown hfold candidate hmem) hne
  | some near =>
      rw [hfold] at hnear
      obtain ⟨hmem, hne⟩ := hnear.other near rfl
      refine ⟨near, hmem, hne, rfl, ?_⟩
      intro candidate hcandidate hself hdistinct
      apply Nat.lt_of_le_of_ne
      · exact hnear.gap_le hcandidate hself
      · exact fun heq => hdistinct (Token.gap_right_inj heq).symm

/-- Notices about three other nodes and one about the node that is told. -/
def firstNotices : List (Surroundings × Token) :=
  [10, 30, 5, 40, 5].map fun id => (Life.Newcomer.around, Token.wrapping id)

/-- Notices about the same nodes in another order, and with another one repeated. -/
def otherNotices : List (Surroundings × Token) :=
  [40, 5, 10, 30, 40].map fun id => (Life.Newcomer.around, Token.wrapping id)

/-- A joining node takes the nearest of three others for its predecessor, and asks its successor for
records once. -/
theorem notices_in_any_order_newcomer :
    Life.Newcomer.placed.hears otherNotices = Life.Newcomer.placed.hears firstNotices ∧
      (Life.Newcomer.placed.hears firstNotices).1.predecessor = some (Token.wrapping 5) ∧
      (Life.Newcomer.placed.hears firstNotices).2.filterMap Effect.asks? =
        [Token.wrapping 20] := by
  have hcompany : ∃ candidate ∈ firstNotices.map Prod.snd,
      candidate ≠ Life.Newcomer.placed.id :=
    ⟨Token.wrapping 5, by decide, by decide⟩
  have hsame : ∀ candidate,
      candidate ∈ otherNotices.map Prod.snd ↔ candidate ∈ firstNotices.map Prod.snd := by
    simp only [firstNotices, otherNotices, List.map_cons, List.map_nil, List.mem_cons,
      List.not_mem_nil]
    grind
  obtain ⟨hequal, -, hasks⟩ := notices_in_any_order rfl hcompany hsame
  refine ⟨hequal, by decide, ?_⟩
  rw [hasks]
  decide

end Node

end RecordRing
