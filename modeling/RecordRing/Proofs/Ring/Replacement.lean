import RecordRing.Proofs.Distance
import RecordRing.Proofs.Life.Threads
import RecordRing.Proofs.Ring.Reach

/-!
# Replacement of a lost successor

A repair that starts with a successor that the directory does not know replaces it, once, and only
then asks a peer.  The nearest finger that the directory knows takes its place, or the node itself
if there is none, and every routing slot that held the lost successor is cleared
(`Node.stabilize_replaces_lost`).  The rest of the repair leaves the routing slots alone, and it
exchanges the successor for a closer one only.
-/

namespace RecordRing

namespace Node

variable {node : Node} {around : Surroundings} {base id other lost : Token}

/-! ## The nearest finger -/

/-- A finger that may replace a lost successor: another node in a routing slot that the directory
knows. -/
def Spare (node : Node) (around : Surroundings) (id : Token) : Prop :=
  id ≠ node.id ∧ around.knows id = true ∧
    ∃ slot, slot ≠ Fingers.successorSlot ∧ node.fingers.get slot = some id

/-- The nearest spare finger clockwise, or the node itself if there is no spare finger. -/
def IsNearestSpare (node : Node) (around : Surroundings) (id : Token) : Prop :=
  (node.Spare around id ∧ ∀ other, node.Spare around other → node.id.gap id ≤ node.id.gap other) ∨
    (id = node.id ∧ ∀ other, ¬ node.Spare around other)

theorem gap_nearerOf (base a b : Token) :
    base.gap (nearerOf base a b) ≤ base.gap a ∧ base.gap (nearerOf base a b) ≤ base.gap b := by
  rw [nearerOf]
  split
  · rename_i hless
    exact ⟨Nat.le_of_lt (UInt64.lt_iff_toNat_lt.1 hless), Nat.le_refl _⟩
  · rename_i hless
    exact ⟨Nat.le_refl _, Nat.le_of_not_lt fun hnear => hless (UInt64.lt_iff_toNat_lt.2 hnear)⟩

theorem gap_foldl_nearerOf (base first : Token) (rest : List Token) :
    base.gap (rest.foldl (nearerOf base) first) ≤ base.gap first ∧
      ∀ other ∈ rest, base.gap (rest.foldl (nearerOf base) first) ≤ base.gap other := by
  induction rest generalizing first with
  | nil => exact ⟨Nat.le_refl _, fun _ => nofun⟩
  | cons next rest ih =>
      obtain ⟨hfirst, hrest⟩ := ih (nearerOf base first next)
      obtain ⟨hleft, hright⟩ := gap_nearerOf base first next
      refine ⟨Nat.le_trans hfirst hleft, fun other mem => ?_⟩
      rcases List.mem_cons.1 mem with rfl | hmem
      · exact Nat.le_trans hfirst hright
      · exact hrest other hmem

/-- No position of a list is nearer than the nearest one. -/
theorem gap_nearest?_le {ids : List Token} (nearest : nearest? base ids = some id)
    (mem : other ∈ ids) : base.gap id ≤ base.gap other := by
  cases ids with
  | nil => cases mem
  | cons first rest =>
      rw [nearest?, Option.some.injEq] at nearest
      obtain ⟨hfirst, hrest⟩ := gap_foldl_nearerOf base first rest
      rw [nearest] at hfirst hrest
      rcases List.mem_cons.1 mem with rfl | hmem
      · exact hfirst
      · exact hrest other hmem

theorem mem_routingFingers : id ∈ node.routingFingers ↔
    ∃ slot, slot ≠ Fingers.successorSlot ∧ node.fingers.get slot = some id := by
  rw [routingFingers, List.mem_map]
  constructor
  · rintro ⟨⟨slot, finger⟩, hentry, rfl⟩
    obtain ⟨hknown, hslot⟩ := List.mem_filter.1 hentry
    exact ⟨slot, of_decide_eq_true hslot, Fingers.mem_descending.1 (List.mem_reverse.2 hknown)⟩
  · rintro ⟨slot, hslot, hget⟩
    have hknown : (slot, id) ∈ node.fingers.known :=
      List.mem_reverse.1 (Fingers.mem_descending.2 hget)
    exact ⟨(slot, id), List.mem_filter.2 ⟨hknown, decide_eq_true hslot⟩, rfl⟩

theorem mem_spare : id ∈ node.routingFingers.filter (fun finger =>
    finger ≠ node.id && around.knows finger) ↔ node.Spare around id := by
  rw [List.mem_filter, mem_routingFingers, Bool.and_eq_true, decide_eq_true_iff, Spare, and_comm,
    and_assoc]

/-- The replacement of a lost successor is the nearest spare finger. -/
theorem isNearestSpare_replacement (node : Node) (around : Surroundings) :
    node.IsNearestSpare around (node.replacement around) := by
  rw [replacement]
  cases hnearest : nearest? node.id (node.routingFingers.filter fun finger =>
      finger ≠ node.id && around.knows finger) with
  | none =>
      refine .inr ⟨rfl, fun other hspare => ?_⟩
      have hmem := mem_spare.2 hspare
      cases hlist : node.routingFingers.filter fun finger =>
          finger ≠ node.id && around.knows finger with
      | nil =>
          rw [hlist] at hmem
          cases hmem
      | cons first rest =>
          rw [hlist] at hnearest
          cases hnearest
  | some id =>
      exact .inl ⟨mem_spare.1 (nearest?_mem hnearest), fun other hspare =>
        gap_nearest?_le hnearest (mem_spare.2 hspare)⟩

/-! ## One replacement -/

/-- The successors that a repair replaces before it asks any peer, in their order. -/
def replaced (node : Node) (around : Surroundings) (successor : Token) : Nat → List Token
  | 0 => []
  | attempts + 1 =>
    match node.resolve around successor with
    | some _ => []
    | none =>
      let later := node.replaceSuccessor around successor
      let next := later.successor.getD (later.replacement around)
      successor :: replaced later around next attempts

/-- A node that looks for a successor that it can reach replaces those listed, and does nothing else
to itself. -/
theorem reachSuccessor_node (node : Node) (around : Surroundings) (successor : Token)
    (attempts : Nat) : (node.reachSuccessor around successor attempts).1 =
      (node.replaced around successor attempts).foldl (·.replaceSuccessor around ·) node := by
  induction attempts generalizing node successor with
  | zero => rfl
  | succ attempts ih =>
      cases hreach : node.resolve around successor with
      | some peer => simp only [reachSuccessor, replaced, hreach, List.foldl_nil]
      | none =>
          simp only [reachSuccessor, replaced, hreach, List.foldl_cons]
          exact ih _ _

/-- A node after the replacement of a lost successor by another one. -/
structure Repaired (node : Node) (around : Surroundings) (lost next : Token) (later : Node) :
    Prop where
  same : later = { node with fingers := later.fingers }
  nearest : node.IsNearestSpare around next
  successor : later.successor = some next
  routing : ∀ slot, slot ≠ Fingers.successorSlot → later.fingers.get slot =
    if node.fingers.get slot = some lost then none else node.fingers.get slot

/-- A spare finger is still there when the lost successor has been forgotten. -/
theorem spare_forget (unknown : around.find? lost = none) :
    Spare { node with fingers := (node.fingers.forget lost).2 } around id ↔
      node.Spare around id := by
  refine and_congr_right fun _ => and_congr_right fun hknown => exists_congr fun slot =>
    and_congr_right fun hslot => ?_
  have hother : id ≠ lost := by
    rintro rfl
    rw [Surroundings.knows, unknown] at hknown
    cases hknown
  rw [Fingers.get_forget_of_ne hslot]
  split
  · rename_i hheld
    rw [hheld, Option.some_inj]
    constructor
    · intro hnone
      cases hnone
    · intro hsame
      exact absurd hsame.symm hother
  · rfl

theorem replaceSuccessor_repaired (holds : node.successor = some lost)
    (unknown : around.find? lost = none) :
    ∃ next, node.Repaired around lost next (node.replaceSuccessor around lost) := by
  obtain ⟨forgetting, hforgetting⟩ :
      ∃ forgetting : Node, forgetting = { node with fingers := (node.fingers.forget lost).2 } :=
    ⟨_, rfl⟩
  obtain ⟨next, hnext⟩ : ∃ next, next = forgetting.replacement around := ⟨_, rfl⟩
  have hnearest : node.IsNearestSpare around next := by
    have hspare : ∀ id, forgetting.Spare around id ↔ node.Spare around id :=
      fun id => hforgetting ▸ spare_forget unknown
    have hid : forgetting.id = node.id := by rw [hforgetting]
    have hreplaces := isNearestSpare_replacement forgetting around
    simp only [IsNearestSpare, hspare, hid, ← hnext] at hreplaces
    exact hreplaces
  have hslot : (node.fingers.forget lost).2.get Fingers.successorSlot = some lost :=
    (Fingers.successor_forget node.fingers lost).trans holds
  have hlater : node.replaceSuccessor around lost =
      { node with
        fingers := (node.fingers.forget lost).2.set Fingers.successorSlot (some next) } := by
    simp only [replaceSuccessor, ← hforgetting, ← hnext, Fingers.compareAndSet_eq_set hslot]
  refine ⟨next, ?_, hnearest, ?_, fun slot hne => ?_⟩
  · rw [hlater]
  · rw [hlater, successor, Fingers.successor, Fingers.get_set, if_pos rfl]
  · rw [hlater, Fingers.get_set, if_neg (Ne.symm hne), Fingers.get_forget_of_ne hne]

/-- A replacement can be reached. -/
theorem IsNearestSpare.resolves (nearest : node.IsNearestSpare around id) :
    ∃ contact, node.resolve around id = some contact := by
  rcases nearest with ⟨⟨-, hknown, -⟩, -⟩ | ⟨rfl, -⟩
  · exact exists_resolve_of_knows hknown
  · exact ⟨.own, resolve_own node around⟩

/-- A repair that starts with a lost successor replaces it once and asks the new one. -/
theorem stabilize_repaired {next : Token} {contact : Contact}
    (holds : node.successor = some lost) (gone : node.resolve around lost = none)
    (repaired : node.Repaired around lost next (node.replaceSuccessor around lost))
    (resolves : node.resolve around next = some contact) :
    node.replaced around lost keyBits = [lost] ∧ node.stabilize around =
      (node.replaceSuccessor around lost).ask contact .predecessor
        (.predecessorAsked next contact) := by
  have hid : (node.replaceSuccessor around lost).id = node.id := by rw [repaired.same]
  have hagain : (node.replaceSuccessor around lost).resolve around next = some contact :=
    (resolve_congr hid around next).trans resolves
  have hslots : keyBits = 61 + 2 := rfl
  have honce : node.replaced around lost keyBits = [lost] := by
    rw [hslots, replaced, gone]
    simp only [repaired.successor, Option.getD_some, replaced, hagain]
  have hnode : (node.reachSuccessor around lost keyBits).1 = node.replaceSuccessor around lost := by
    rw [reachSuccessor_node, honce]
    rfl
  have hreach : node.reachSuccessor around lost keyBits =
      (node.replaceSuccessor around lost, next, some contact) := by
    refine Prod.ext hnode ?_
    rw [hslots, reachSuccessor, gone]
    simp only [repaired.successor, Option.getD_some, reachSuccessor, hagain]
  refine ⟨honce, ?_⟩
  simp only [stabilize, holds, approach, hreach]

/-- What a repair sees of the network is its directory. -/
theorem stabilize_congr {around' : Surroundings} (same : around'.find? = around.find?) :
    node.stabilize around' = node.stabilize around := by
  have hresolve : ∀ (node : Node) (id : Token),
      node.resolve around' id = node.resolve around id := by
    intro node id
    rw [resolve, resolve, same]
  have hreplace : ∀ (node : Node) (lost : Token),
      node.replaceSuccessor around' lost = node.replaceSuccessor around lost := by
    intro node lost
    simp only [replaceSuccessor, replacement, Surroundings.knows, same]
  have hreach : ∀ (attempts : Nat) (node : Node) (successor : Token),
      node.reachSuccessor around' successor attempts =
        node.reachSuccessor around successor attempts := by
    intro attempts
    induction attempts with
    | zero =>
        intro node successor
        rw [reachSuccessor, reachSuccessor, hresolve]
    | succ attempts ih =>
        intro node successor
        simp only [reachSuccessor, hresolve, hreplace, ih, replacement, Surroundings.knows, same]
  simp only [stabilize, approach, hreach]

end Node

/-! ## The rest of the repair -/

/-- What the rest of a repair leaves of a node: its routing slots are as before, and its successor
is the replacement, or a closer node that the replacement has named. -/
structure Redirects (repaired : Node) (next : Token) (contact : Contact) (acts : List Act)
    (later : Node) : Prop where
  named : later.id = repaired.id
  routing : ∀ slot, slot ≠ Fingers.successorSlot →
    later.fingers.get slot = repaired.fingers.get slot
  successor : later.successor = some next ∨ ∃ candidate act,
    act ∈ acts ∧ act.cue = .resume (.predecessorAsked next contact) (.ok (some candidate)) ∧
      insideOpen repaired.id next candidate = true ∧ later.successor = some candidate

/-- Where a repair stands that has replaced a lost successor, and what the node has become. -/
inductive Repairing (repaired : Node) (next : Token) (contact : Contact) (acts : List Act) :
    Juncture → Node → Prop where
  /-- The replacement is asked for its predecessor. -/
  | asking {juncture : Juncture} {turns : Nat}
      (asks : juncture.Asks .predecessor (.predecessorAsked next contact) .root turns) :
      Repairing repaired next contact acts juncture repaired
  /-- The successor is told about the node. -/
  | telling {juncture : Juncture} {later : Node} {turns : Nat}
      (asks : juncture.Asks (.notify repaired.id) .told .root turns)
      (redirects : Redirects repaired next contact acts later) :
      Repairing repaired next contact acts juncture later
  /-- The repair has ended. -/
  | ended {outcome : Outcome .nothing} {later : Node}
      (redirects : Redirects repaired next contact acts later) :
      Repairing repaired next contact acts (.ended ⟨.nothing, outcome⟩) later

section Rest

variable {repaired later : Node} {next : Token} {contact : Contact} {acts : List Act}
  {juncture : Juncture} {around : Surroundings}

theorem Redirects.refl (holds : repaired.successor = some next) :
    Redirects repaired next contact acts repaired :=
  ⟨rfl, fun _ _ => rfl, .inl holds⟩

theorem Redirects.snoc (redirects : Redirects repaired next contact acts later) (act : Act) :
    Redirects repaired next contact (acts ++ [act]) later := by
  refine ⟨redirects.named, redirects.routing, redirects.successor.imp_right ?_⟩
  rintro ⟨candidate, heard, hmem, hrest⟩
  exact ⟨candidate, heard, List.mem_append_left _ hmem, hrest⟩

namespace Repairing

/-- An answer from elsewhere keeps a repair going. -/
theorem answer {shape : Shape} {chain : Chain shape}
    (repairing : Repairing repaired next contact acts (.under (.away chain)) later)
    (outcome : Outcome shape) :
    Repairing repaired next contact acts (chain.hear outcome) later := by
  cases repairing with
  | asking asks => exact .asking (asks.answer outcome)
  | telling asks redirects => exact .telling (asks.answer outcome) redirects

/-- The successor is told, unless it is the node itself. -/
theorem tell (redirects : Redirects repaired next contact acts later) (told : Token)
    (peer : Contact) : Repairing repaired next contact acts
      ((later.tellSuccessor told peer).action.juncture .root) later := by
  rw [Node.tellSuccessor]
  split
  · exact .ended redirects
  · rw [redirects.named]
    exact .telling (Juncture.asks_ask later peer) redirects

/-- A closer node takes the place of the replacement. -/
theorem adopt (holds : repaired.successor = some next) {candidate : Token}
    (between : insideOpen repaired.id next candidate = true)
    (redirects : Redirects repaired next contact acts (repaired.setSuccessor candidate)) :
    Repairing repaired next contact acts
      ((repaired.onPredecessor around next contact (.ok (some candidate))).action.juncture .root)
      (repaired.onPredecessor around next contact (.ok (some candidate))).node := by
  have hadopting : { repaired with
      fingers := repaired.fingers.set Fingers.successorSlot (some candidate) } =
      repaired.setSuccessor candidate := rfl
  cases hreach : (repaired.setSuccessor candidate).resolve around candidate with
  | none =>
      have hturn : repaired.onPredecessor around next contact (.ok (some candidate)) =
          ⟨repaired.setSuccessor candidate, [.tally .successorChanged],
            .reply (.error (.nodeUnreachable candidate))⟩ := by
        simp only [Node.onPredecessor, if_pos between, Fingers.compareAndSet_eq_set holds,
          hadopting, hreach]
        rfl
      rw [hturn]
      exact .ended redirects
  | some closer =>
      have hturn : repaired.onPredecessor around next contact (.ok (some candidate)) =
          { (repaired.setSuccessor candidate).tellSuccessor candidate closer with
            effects := .tally .successorChanged ::
              ((repaired.setSuccessor candidate).tellSuccessor candidate closer).effects } := by
        simp only [Node.onPredecessor, if_pos between, Fingers.compareAndSet_eq_set holds,
          hadopting, hreach]
      rw [hturn, Node.node_tellSuccessor]
      exact tell redirects candidate closer

/-- The turn that hears from the replacement. -/
theorem hear (holds : repaired.successor = some next) (outcome : Outcome .knownId) :
    Repairing repaired next contact
      (acts ++ [⟨repaired, around, .resume (.predecessorAsked next contact) outcome⟩])
      ((repaired.onPredecessor around next contact outcome).action.juncture .root)
      (repaired.onPredecessor around next contact outcome).node := by
  have hkept : Repairing repaired next contact
      (acts ++ [⟨repaired, around, .resume (.predecessorAsked next contact) outcome⟩])
      ((repaired.tellSuccessor next contact).action.juncture .root)
      (repaired.tellSuccessor next contact).node := by
    rw [Node.node_tellSuccessor]
    exact tell (.refl holds) next contact
  cases outcome with
  | error failure => exact .ended (.refl holds)
  | ok before =>
      cases before with
      | none => exact hkept
      | some candidate =>
          by_cases hbetween : insideOpen repaired.id next candidate = true
          · apply adopt holds hbetween
            refine ⟨rfl, fun slot hne => ?_, .inr ⟨candidate, _,
              List.mem_append_right _ (List.mem_singleton.2 rfl), rfl, hbetween,
              Node.successor_setSuccessor repaired candidate⟩⟩
            rw [Node.setSuccessor, Fingers.get_set, if_neg (Ne.symm hne)]
          · have hturn : repaired.onPredecessor around next contact (.ok (some candidate)) =
                repaired.tellSuccessor next contact := by
              simp only [Node.onPredecessor, if_neg hbetween]
            rw [hturn]
            exact hkept

/-- A turn of the node leads a repair on. -/
theorem work (holds : repaired.successor = some next) {cue : Cue} {chain : Chain cue.result}
    (repairing : Repairing repaired next contact acts (.under (.due cue chain)) later)
    (around : Surroundings) :
    Repairing repaired next contact (acts ++ [⟨later, around, cue⟩])
      ((later.follow around cue).action.juncture chain) (later.follow around cue).node := by
  cases repairing with
  | asking asks =>
      rcases asks.work (isPlain_predecessor repaired around) with
        ⟨rfl, -, outcome, hnext⟩ | ⟨outcome, rfl, hnext⟩
      · rw [hnext]
        exact .asking (.heard outcome (Nat.zero_le 1))
      · rw [hnext]
        exact hear holds outcome
  | telling asks redirects =>
      have hown : later.serve around (.notify repaired.id) = later.reply (.ok ()) :=
        redirects.named ▸ Node.serve_notify_own later around
      rcases asks.work ⟨_, hown⟩ with ⟨rfl, -, outcome, hnext⟩ | ⟨outcome, rfl, hnext⟩
      · have hsame : (later.follow around (.start (.serve (.notify repaired.id)))).node = later :=
          congrArg Turn.node hown
        rw [hnext, hsame]
        exact .telling (.heard outcome (Nat.zero_le 1)) (redirects.snoc _)
      · rw [hnext]
        exact .ended (redirects.snoc _)

theorem redirects (holds : repaired.successor = some next)
    (repairing : Repairing repaired next contact acts juncture later) :
    Redirects repaired next contact acts later := by
  cases repairing with
  | asking _ => exact .refl holds
  | telling _ redirects => exact redirects
  | ended redirects => exact redirects

/-- A repair during which nothing else happens to the node and the directory stays the same. -/
theorem of_undisturbed {node : Node} (holds : repaired.successor = some next)
    (begins : node.stabilize around =
      repaired.ask contact .predecessor (.predecessorAsked next contact))
    (run : Undisturbed node Operation.stabilize.called acts juncture later)
    (fixed : ∀ act ∈ acts, act.around.find? = around.find?) :
    (acts = [] ∧ juncture = Operation.stabilize.called ∧ later = node) ∨
      Repairing repaired next contact acts juncture later := by
  induction run with
  | nil => exact .inl ⟨rfl, rfl, rfl⟩
  | answer _ outcome ih =>
      rcases ih fixed with ⟨-, hcalled, -⟩ | hrepairing
      · cases hcalled
      · exact .inr (hrepairing.answer outcome)
  | @work acts before cue below _ seen ih =>
      rcases ih fun act mem => fixed act (List.mem_append_left _ mem) with
        ⟨-, hcalled, hnode⟩ | hrepairing
      · cases hcalled
        have hsame : seen.find? = around.find? :=
          fixed _ (List.mem_append_right _ (List.mem_singleton.2 rfl))
        have hturn : before.follow seen (.start .stabilize) =
            repaired.ask contact .predecessor (.predecessorAsked next contact) :=
          hnode ▸ (Node.stabilize_congr hsame).trans begins
        rw [hturn]
        exact .inr (.asking (Juncture.asks_ask repaired contact))
      · exact .inr (hrepairing.work holds seen)

end Repairing

end Rest

/-- A repair that starts with a lost successor replaces it once before it asks a peer: the nearest
spare finger takes its place, or the node itself if there is none; the routing slots that held it
are cleared and the others are as before.  If the directory stays the same and nothing else happens
to the node, then the rest of the repair leaves the routing slots alone and brings no successor but
a closer one. -/
theorem Node.stabilize_replaces_lost {node : Node} {around : Surroundings} {lost : Token}
    (holds : node.successor = some lost) (other : lost ≠ node.id)
    (unknown : around.find? lost = none) :
    ∃ next contact,
      node.replaced around lost keyBits = [lost] ∧
      node.Repaired around lost next (node.replaceSuccessor around lost) ∧
      node.resolve around next = some contact ∧
      node.start around .stabilize = (node.replaceSuccessor around lost).ask contact .predecessor
        (.predecessorAsked next contact) ∧
      ∀ acts juncture later, Undisturbed node Operation.stabilize.called acts juncture later →
        (∀ act ∈ acts, act.around.find? = around.find?) → acts ≠ [] →
        Redirects (node.replaceSuccessor around lost) next contact acts later := by
  have hgone : node.resolve around lost = none := by
    rw [resolve, if_neg other, unknown, Option.map_none]
  obtain ⟨next, hrepaired⟩ := replaceSuccessor_repaired holds unknown
  obtain ⟨contact, hresolves⟩ := hrepaired.nearest.resolves
  obtain ⟨honce, hturn⟩ := stabilize_repaired holds hgone hrepaired hresolves
  refine ⟨next, contact, honce, hrepaired, hresolves, hturn, fun acts juncture later run hfixed
    hbegun => ?_⟩
  rcases Repairing.of_undisturbed hrepaired.successor hturn run hfixed with
    ⟨hnone, -⟩ | hrepairing
  · exact absurd hnone hbegun
  · exact hrepairing.redirects hrepaired.successor

/-! ### A node whose successor has left -/

namespace Bereaved

/-- A node whose routing slots name itself, two lost nodes and two that are still there. -/
def node : Node :=
  let named : List (Nat × UInt64) := [(0, 20), (3, 20), (5, 10), (7, 30), (9, 90), (62, 40)]
  let enter (table : Fingers) (entry : Nat × UInt64) : Fingers :=
    table.set (Fin.ofNat 63 entry.1) (some (Token.wrapping entry.2))
  { Node.fresh (Token.wrapping 10) (.empty none) .standard with
    fingers := named.foldl enter Fingers.empty }

/-- A directory that knows two of the fingers. -/
def around : Surroundings :=
  ⟨0, fun id => if id ∈ [40, 90].map Token.wrapping then some 0 else none⟩

/-- The nearer of the two takes the place of the successor. -/
theorem stabilize_replaces_lost_bereaved :
    node.replaced around (Token.wrapping 20) keyBits = [Token.wrapping 20] ∧
      (node.replaceSuccessor around (Token.wrapping 20)).successor = some (Token.wrapping 40) ∧
      (node.replaceSuccessor around (Token.wrapping 20)).fingers.get ⟨3, by decide⟩ = none := by
  have hholds : node.successor = some (Token.wrapping 20) := by decide +kernel
  have hother : Token.wrapping 20 ≠ node.id := by decide
  have hunknown : around.find? (Token.wrapping 20) = none := by decide
  obtain ⟨next, contact, honce, hrepaired, -⟩ :=
    Node.stabilize_replaces_lost hholds hother hunknown
  have hnext : (node.replaceSuccessor around (Token.wrapping 20)).successor =
    some (Token.wrapping 40) := by decide +kernel
  have hcleared := hrepaired.routing ⟨3, by decide⟩ (by decide)
  rw [if_pos (by decide +kernel)] at hcleared
  exact ⟨honce, hnext, hcleared⟩

end Bereaved

end RecordRing
