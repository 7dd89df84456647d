import RecordRing.Node.Work
import RecordRing.Proofs.Fingers

/-!
# Successors that can be reached

Successor repair replaces a lost successor before it asks any peer, and the replacement can always be
reached (`stabilize_eq`).  When the successor then names a closer node, that node is adopted before
the directory is asked for it.  So after a repair the successor can be reached, unless the adopted
node is the one that cannot, and then the repair fails and says so (`onPredecessor_cases`).
-/

namespace RecordRing.Node

variable {node : Node} {around : Surroundings} {id lost successor candidate : Token}

/-- The successor of a node is known, and the node can reach it. -/
def Leads (node : Node) (around : Surroundings) : Prop :=
  ∃ id contact, node.successor = some id ∧ node.resolve around id = some contact

theorem resolve_congr {other : Node} (same : other.id = node.id) (around : Surroundings)
    (id : Token) : other.resolve around id = node.resolve around id := by
  rw [resolve, resolve, same]

theorem resolve_own (node : Node) (around : Surroundings) :
    node.resolve around node.id = some .own := by
  rw [resolve, if_pos rfl]

theorem exists_resolve_of_knows (known : around.knows id = true) :
    ∃ contact, node.resolve around id = some contact := by
  rw [Surroundings.knows] at known
  obtain ⟨handle, hhandle⟩ := Option.isSome_iff_exists.1 known
  rw [resolve]
  split
  · exact ⟨_, rfl⟩
  · exact ⟨_, by rw [hhandle]; rfl⟩

/-! ## Replacements -/

theorem nearest?_mem {base : Token} {ids : List Token} (h : nearest? base ids = some id) :
    id ∈ ids := by
  have hfold : ∀ (rest : List Token) (first : Token),
      rest.foldl (nearerOf base) first = first ∨ rest.foldl (nearerOf base) first ∈ rest := by
    intro rest
    induction rest with
    | nil => exact fun first => Or.inl rfl
    | cons next rest ih =>
        intro first
        rcases ih (nearerOf base first next) with heq | hmem
        · rw [List.foldl_cons, heq, nearerOf]
          split
          · exact Or.inr (List.mem_cons_self ..)
          · exact Or.inl rfl
        · exact Or.inr (List.mem_cons_of_mem _ hmem)
  cases ids with
  | nil => cases h
  | cons first rest =>
      rw [nearest?, Option.some.injEq] at h
      rw [← h]
      rcases hfold rest first with heq | hmem
      · rw [heq]
        exact List.mem_cons_self ..
      · exact List.mem_cons_of_mem _ hmem

/-- The replacement of a lost successor is the node itself, or a finger that the directory knows. -/
theorem replacement_cases (node : Node) (around : Surroundings) :
    node.replacement around = node.id ∨
      around.knows (node.replacement around) = true ∧
        ∃ slot, node.fingers.get slot = some (node.replacement around) := by
  rw [replacement]
  cases hnearest : nearest? node.id (node.routingFingers.filter fun finger =>
      finger ≠ node.id && around.knows finger) with
  | none => exact Or.inl rfl
  | some id =>
      obtain ⟨hrouting, haccepted⟩ := List.mem_filter.1 (nearest?_mem hnearest)
      rw [Bool.and_eq_true] at haccepted
      obtain ⟨entry, hentry, rfl⟩ := List.mem_map.1 hrouting
      have hknown := List.mem_reverse.2 (List.mem_filter.1 hentry).1
      exact Or.inr ⟨haccepted.2, entry.1, Fingers.mem_descending.1 hknown⟩

/-- The replacement of a lost successor can be reached. -/
theorem exists_resolve_replacement (node : Node) (around : Surroundings) :
    ∃ contact, node.resolve around (node.replacement around) = some contact := by
  rcases node.replacement_cases around with hself | ⟨hknows, -⟩
  · exact ⟨.own, by rw [hself, resolve_own]⟩
  · exact exists_resolve_of_knows hknows

/-- What a node becomes when a lost successor is replaced: the new successor can be reached, and it is
the node itself or a finger that the directory knows; no finger is new in any other slot. -/
structure Replaces (node : Node) (around : Surroundings) (fingers : Fingers) (id : Token)
    (contact : Contact) : Prop where
  successor : fingers.successor = some id
  resolves : node.resolve around id = some contact
  origin : id = node.id ∨ around.knows id = true ∧ ∃ slot, node.fingers.get slot = some id
  routing : ∀ slot finger, slot ≠ Fingers.successorSlot → fingers.get slot = some finger →
    node.fingers.get slot = some finger

theorem replaceSuccessor_eq (around : Surroundings) (holds : node.successor = some lost) :
    ∃ fingers id contact, node.replaceSuccessor around lost = { node with fingers := fingers } ∧
      node.Replaces around fingers id contact := by
  let forgetting := { node with fingers := (node.fingers.forget lost).2 }
  have hslot : forgetting.fingers.get Fingers.successorSlot = some lost :=
    (Fingers.successor_forget node.fingers lost).trans holds
  have hid : forgetting.id = node.id := rfl
  obtain ⟨contact, hcontact⟩ := exists_resolve_replacement forgetting around
  rw [resolve_congr hid] at hcontact
  have horigin := replacement_cases forgetting around
  have hswapped : (forgetting.fingers.compareAndSet Fingers.successorSlot (some lost)
      (some (forgetting.replacement around))).1 = true := Fingers.compareAndSet_of_get hslot
  have hold : ∀ slot finger, forgetting.fingers.get slot = some finger →
      node.fingers.get slot = some finger := fun _ _ => Fingers.get_of_get_forget
  refine ⟨(forgetting.fingers.compareAndSet Fingers.successorSlot (some lost)
    (some (forgetting.replacement around))).2, forgetting.replacement around, contact, ?_,
    (Fingers.get_of_compareAndSet hswapped).2, hcontact, ?_, fun slot finger hne hget => ?_⟩
  · simp only [replaceSuccessor, forgetting]
  · rw [hid] at horigin
    refine horigin.imp_right ?_
    rintro ⟨hknows, slot, hget⟩
    exact ⟨hknows, slot, hold slot _ hget⟩
  · rw [Fingers.get_compareAndSet_of_ne (Ne.symm hne)] at hget
    exact hold slot finger hget

/-- One replacement is enough to reach a successor. -/
theorem reachSuccessor_lost (around : Surroundings) (holds : node.successor = some lost)
    (unknown : node.resolve around lost = none) (attempts : Nat) :
    ∃ fingers id contact, node.reachSuccessor around lost (attempts + 2) =
        ({ node with fingers := fingers }, id, some contact) ∧
      node.Replaces around fingers id contact := by
  obtain ⟨fingers, id, contact, hreplaced, hspec⟩ := replaceSuccessor_eq around holds
  refine ⟨fingers, id, contact, ?_, hspec⟩
  have hnext : Node.successor { node with fingers := fingers } = some id := hspec.successor
  have hresolve : Node.resolve { node with fingers := fingers } around id = some contact :=
    hspec.resolves
  rw [reachSuccessor, unknown]
  simp only [hreplaced, hnext, Option.getD_some, reachSuccessor, hresolve]

/-! ## Repairs -/

/-- A repair asks the successor if it can be reached. -/
theorem stabilize_found {contact : Contact} (holds : node.successor = some successor)
    (resolves : node.resolve around successor = some contact) :
    node.stabilize around =
      node.ask contact .predecessor (.predecessorAsked successor contact) := by
  have hreach : node.reachSuccessor around successor keyBits =
      (node, successor, some contact) := by
    rw [keyBits, reachSuccessor, resolves]
  simp only [stabilize, holds, approach, hreach]

/-- A repair replaces a lost successor and asks the new one. -/
theorem stabilize_lost (holds : node.successor = some lost)
    (unknown : node.resolve around lost = none) :
    ∃ fingers id contact, node.stabilize around =
        Node.ask { node with fingers := fingers } contact .predecessor
          (.predecessorAsked id contact) ∧
      node.Replaces around fingers id contact := by
  obtain ⟨fingers, id, contact, hreach, hspec⟩ := reachSuccessor_lost around holds unknown 61
  refine ⟨fingers, id, contact, ?_, hspec⟩
  have hslots : keyBits = 61 + 2 := rfl
  simp only [stabilize, holds, approach, hslots, hreach]

/-- A repair that starts asks a successor that can be reached. -/
theorem stabilize_eq (around : Surroundings) (holds : node.successor = some successor) :
    ∃ (reached : Node) (id : Token) (contact : Contact), node.stabilize around =
        reached.ask contact .predecessor (.predecessorAsked id contact) ∧
      reached.id = node.id ∧ reached.successor = some id ∧
      reached.resolve around id = some contact := by
  cases hcontact : node.resolve around successor with
  | some contact => exact ⟨node, successor, contact, stabilize_found holds hcontact, rfl, holds, hcontact⟩
  | none =>
      obtain ⟨fingers, id, contact, hturn, hspec⟩ := stabilize_lost holds hcontact
      exact ⟨_, id, contact, hturn, rfl, hspec.successor, hspec.resolves⟩

theorem leads_stabilize (holds : node.successor = some successor) :
    (node.stabilize around).node.Leads around := by
  obtain ⟨reached, id, contact, hturn, -, hnext, hresolve⟩ := stabilize_eq around holds
  rw [hturn]
  exact ⟨id, contact, hnext, hresolve⟩

theorem node_tellSuccessor (successor : Token) (peer : Contact) :
    (node.tellSuccessor successor peer).node = node := by
  rw [tellSuccessor]
  split <;> rfl

/-- After the answer of the successor either the successor can be reached, or the repair fails and
names the closer node that it has adopted and cannot reach. -/
theorem onPredecessor_cases (leads : node.Leads around) (successor : Token) (peer : Contact)
    (outcome : Outcome .knownId) :
    (node.onPredecessor around successor peer outcome).node.Leads around ∨
    ∃ candidate, outcome = .ok (some candidate) ∧ insideOpen node.id successor candidate = true ∧
      node.resolve around candidate = none ∧
      (node.onPredecessor around successor peer outcome).node.successor = some candidate ∧
      (node.onPredecessor around successor peer outcome).action =
        .reply (.error (.nodeUnreachable candidate)) := by
  have htell : ∀ (id : Token) (contact : Contact),
      (node.tellSuccessor id contact).node.Leads around := fun id contact => by
    rw [node_tellSuccessor]
    exact leads
  rcases outcome with failure | _ | candidate
  · exact Or.inl leads
  · exact Or.inl (htell successor peer)
  · rw [onPredecessor]
    split
    · rename_i inside
      split
      · rename_i fingers hswap
        have hswapped := congrArg Prod.fst hswap
        have hnext : ({ node with fingers := fingers } : Node).successor = some candidate := by
          have hget := (Fingers.get_of_compareAndSet hswapped).2
          rw [hswap] at hget
          exact hget
        cases hresolve : node.resolve around candidate with
        | none =>
            refine Or.inr ⟨candidate, rfl, inside, hresolve, ?_⟩
            have hlost : ({ node with fingers := fingers } : Node).resolve around candidate =
                none := hresolve
            simp only [hlost]
            exact ⟨hnext, rfl⟩
        | some contact =>
            refine Or.inl ⟨candidate, contact, ?_⟩
            have hfound : ({ node with fingers := fingers } : Node).resolve around candidate =
                some contact := hresolve
            simp only [hfound, node_tellSuccessor]
            exact ⟨hnext, trivial⟩
      · obtain ⟨id, contact, hnext, -⟩ := leads
        exact Or.inl (leads_stabilize hnext)
    · exact Or.inl (htell successor peer)

end RecordRing.Node
