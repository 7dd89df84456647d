import RecordRing.Proofs.Ring.Contract
import RecordRing.Proofs.Ring.Reach
import RecordRing.Proofs.Routing

/-!
# Turns in a ring

Every turn of a node keeps the contract of the ring (`lawful_ringContract`).  Most turns leave the
pointers as they are; the others overwrite them in one of the ways that keep the ring.
-/

namespace RecordRing.Network

variable {founder : Token} {net after : Network} {handle : Handle} {node : Node}
  {shape result : Shape}

/-! ## Turns -/

section Turns

variable {turn : Turn result} {wanted : Network → Outcome result → Prop} {key id next : Token}
  {peer : Contact} {successor : Token}

theorem no_spawns {allowed : Operation .nothing → Prop} (operation : Operation .nothing)
    (h : Effect.spawn operation ∈ []) : allowed operation :=
  absurd h List.not_mem_nil

/-- A turn that leaves the node as it is. -/
theorem turnSound_same (ring : net.Ring founder) (found : net.nodeAt? handle = some node)
    (same : turn.node = node)
    (spawns : ∀ operation, .spawn operation ∈ turn.effects → RingDuty founder net handle operation)
    (action : (ringContract founder).ActionSound net handle wanted turn.action) :
    (ringContract founder).TurnSound net handle turn wanted := by
  have hself : net.setNode handle turn.node = net := by rw [same, setNode_self found]
  refine ⟨?_, ?_, ?_⟩
  · rw [hself]
    exact ⟨Grows.refl founder net, ring⟩
  · rw [hself]
    exact spawns
  · rw [hself]
    exact action

/-- A turn that overwrites the node's pointers. -/
theorem turnSound_change (ring : net.Ring founder) (found : net.nodeAt? handle = some node)
    (change : net.Change founder node turn.node)
    (spawns : ∀ operation, .spawn operation ∈ turn.effects →
      ∀ later, RingDuty founder later handle operation)
    (action : (ringContract founder).ActionSound (net.setNode handle turn.node) handle wanted
      turn.action) :
    (ringContract founder).TurnSound net handle turn wanted := by
  obtain ⟨hring, hgrows⟩ := ring.setNode found change
  exact ⟨⟨hgrows, hring⟩, fun operation hmem => spawns operation hmem _, action⟩

theorem sound_reply (ring : net.Ring founder) (found : net.nodeAt? handle = some node)
    {outcome : Outcome result} (h : wanted net outcome) :
    (ringContract founder).TurnSound net handle (node.reply outcome) wanted :=
  turnSound_same ring found rfl no_spawns h

theorem sound_ask (ring : net.Ring founder) (found : net.nodeAt? handle = some node)
    {request : Request shape} {frame : Frame shape result}
    (starts : (ringContract founder).Starts net (peer.at handle) (.serve request)
      fun later => RingWants founder later handle frame)
    (waits : (ringContract founder).Waits net handle frame wanted) :
    (ringContract founder).TurnSound net handle (node.ask peer request frame) wanted :=
  turnSound_same ring found rfl no_spawns ⟨starts, waits⟩

theorem sound_run (ring : net.Ring founder) (found : net.nodeAt? handle = some node)
    {operation : Operation shape} {frame : Frame shape result}
    (starts : (ringContract founder).Starts net handle operation
      fun later => RingWants founder later handle frame)
    (waits : (ringContract founder).Waits net handle frame wanted) :
    (ringContract founder).TurnSound net handle (node.run operation frame) wanted :=
  turnSound_same ring found rfl no_spawns ⟨starts, waits⟩

theorem sound_call (ring : net.Ring founder) (found : net.nodeAt? handle = some node)
    {call : StoreCall shape} {frame : Frame shape result}
    (accepts : (ringContract founder).Accepts net fun later => RingWants founder later handle frame)
    (waits : (ringContract founder).Waits net handle frame wanted) :
    (ringContract founder).TurnSound net handle (node.call call frame) wanted :=
  turnSound_same ring found rfl no_spawns ⟨accepts, waits⟩

/-! ### Peers -/

/-- A contact leads to the node whose identifier was resolved. -/
theorem idAt?_resolve (ring : net.Ring founder) (found : net.nodeAt? handle = some node)
    (h : node.resolve net.surroundings id = some peer) : net.idAt? (peer.at handle) = some id := by
  rw [Node.resolve] at h
  split at h
  · rename_i hself
    rw [← Option.some.inj h, hself]
    exact idAt?_of_nodeAt? found
  · obtain ⟨other, hother, rfl⟩ := Option.map_eq_some_iff.1 h
    exact ring.listed id other hother

/-- A resolved identifier is the node's own or registered. -/
theorem registered_of_resolve (h : node.resolve net.surroundings id = some peer) (hne : id ≠ node.id) :
    net.Registered id := by
  rw [Node.resolve, if_neg hne] at h
  obtain ⟨other, hother, -⟩ := Option.map_eq_some_iff.1 h
  exact ⟨other, hother⟩

theorem resolve_of_registered (registered : net.Registered id) :
    ∃ peer, node.resolve net.surroundings id = some peer := by
  obtain ⟨other, hother⟩ := registered
  rw [Node.resolve]
  split
  · exact ⟨_, rfl⟩
  · exact ⟨.remote other, congrArg (Option.map Contact.remote) hother⟩

/-- The directory knows the successor of a node, unless it is the node itself. -/
theorem Ring.registered_successor (ring : net.Ring founder) (found : net.nodeAt? handle = some node)
    (h : node.successor = some next) (hne : next ≠ node.id) : net.Registered next := by
  have hlinked := linked_of_nodeAt? found h
  by_cases hfounder : next = founder
  · rw [hfounder]
    exact (ring.known _ _ hlinked (fun heq => hne (hfounder.trans heq.symm))).2
  · exact (ring.registered (ring.joined _ _ hlinked) hfounder).1

theorem Ring.resolve_successor (ring : net.Ring founder) (found : net.nodeAt? handle = some node)
    (h : node.successor = some next) : ∃ peer, node.resolve net.surroundings next = some peer := by
  by_cases hne : next = node.id
  · exact ⟨.own, by rw [Node.resolve, if_pos hne]⟩
  · exact resolve_of_registered (ring.registered_successor found h hne)

/-! ### Lookups -/

/-- A key on the arc from a node to a nearer one is no nearer to the founder than this one. -/
theorem gap_le_of_insideHalfOpen {current : Token} (inside : insideHalfOpen current next key = true)
    (nearer : current ≠ founder → next.gap founder < current.gap founder) :
    next.gap founder ≤ key.gap founder := by
  rw [insideHalfOpen_iff] at inside
  have hcn := Token.gap_cases current next
  have hck := Token.gap_cases current key
  have hnf := Token.gap_cases next founder
  have hcf := Token.gap_cases current founder
  have hkf := Token.gap_cases key founder
  have hcR := current.toNat_lt
  have hnR := next.toNat_lt
  have hkR := key.toNat_lt
  have hfR := founder.toNat_lt
  simp only [← Token.toNat_inj, ne_eq] at *
  omega

theorem sound_consult (ring : net.Ring founder) (found : net.nodeAt? handle = some node)
    (joined : net.Joined node.id) (key current : Token) (hops : Nat) :
    (ringContract founder).TurnSound net handle (node.consult net.surroundings key current hops)
      fun later => later.Finds founder handle key := by
  rw [Node.consult]
  split
  · split
    · exact sound_reply ring found trivial
    · rename_i peer hpeer
      have hat := idAt?_resolve ring found hpeer
      refine sound_ask ring found ⟨trivial, ?_⟩
        ⟨⟨node.id, idAt?_of_nodeAt? found, joined⟩, fun _ _ _ h => h⟩
      intro later hlater outcome hpromise
      cases outcome with
      | error failure => exact ringWants_failure _ failure
      | ok value =>
          cases value with
          | none => exact trivial
          | some next =>
              obtain ⟨id, hid, hnearer⟩ := hpromise
              rw [hlater.1.stays _ _ hat, Option.some.injEq] at hid
              exact hid ▸ hnearer
  · exact turnSound_same ring found rfl (by simp) trivial

theorem sound_lookUp (ring : net.Ring founder) (found : net.nodeAt? handle = some node) (key : Token) :
    (ringContract founder).TurnSound net handle (node.lookUp net.surroundings key)
      fun later => later.Finds founder handle key := by
  rw [Node.lookUp]
  split
  · exact sound_reply ring found trivial
  · rename_i next hnext
    have hlinked := linked_of_nodeAt? found hnext
    split
    · rename_i hinside
      refine sound_reply ring found ⟨node.id, idAt?_of_nodeAt? found, ⟨next, hlinked⟩,
        ring.joined _ _ hlinked, ?_⟩
      exact gap_le_of_insideHalfOpen hinside (ring.nearer _ _ hlinked)
    · rename_i houtside
      have hself : next ≠ node.id := by
        rintro rfl
        exact houtside (insideHalfOpen_iff.2 (Or.inl rfl))
      have hknown : net.surroundings.knows next = true := by
        obtain ⟨other, hother⟩ := ring.registered_successor found hnext hself
        rw [knows_surroundings, hother, Option.isSome_some]
      have hclosest := Node.closestPrecedingFinger_ne hnext
        (insideOpen_of_not_insideHalfOpen houtside) hknown
      rw [if_neg hclosest]
      exact sound_consult ring found ⟨next, hlinked⟩ ..

theorem sound_onSuccessor (ring : net.Ring founder) (found : net.nodeAt? handle = some node)
    {current : Token} {hops : Nat} {outcome : Outcome .knownId}
    (keeps : RingKeeps founder net handle (.successorAsked key current peer hops))
    (wants : RingWants founder net handle (.successorAsked key current peer hops) outcome) :
    (ringContract founder).TurnSound net handle (node.onSuccessor key current peer hops outcome)
      fun later => later.Finds founder handle key := by
  cases outcome with
  | error failure => exact sound_reply ring found trivial
  | ok value =>
      cases value with
      | none => exact sound_reply ring found trivial
      | some next =>
          rw [Node.onSuccessor]
          split
          · rename_i hinside
            obtain ⟨id, hid, hjoined⟩ := keeps
            exact sound_reply ring found
              ⟨id, hid, hjoined, wants.1, gap_le_of_insideHalfOpen hinside wants.2⟩
          · exact sound_ask ring found ⟨trivial, fun _ _ _ _ => trivial⟩ ⟨keeps, fun _ _ _ h => h⟩

theorem sound_onFinger (ring : net.Ring founder) (found : net.nodeAt? handle = some node)
    {current : Token} {hops : Nat} {outcome : Outcome .id}
    (keeps : RingKeeps founder net handle (.fingerAsked key current successor hops)) :
    (ringContract founder).TurnSound net handle
      (node.onFinger net.surroundings key current successor hops outcome)
      fun later => later.Finds founder handle key := by
  cases outcome with
  | error failure => exact sound_reply ring found trivial
  | ok closer =>
      obtain ⟨id, hid, hjoined⟩ := keeps
      rw [idAt?_of_nodeAt? found, Option.some.injEq] at hid
      exact sound_consult ring found (hid ▸ hjoined) ..

/-! ### Founding and joining -/

theorem sound_founded (ring : net.Ring founder) (found : net.nodeAt? handle = some node)
    (duty : RingDuty founder net handle .found) (unplaced : node.successor = none)
    (easy : ∀ later outcome, wanted later outcome) (outcome : Outcome result) :
    (ringContract founder).TurnSound net handle (node.founded.reply outcome) wanted := by
  have hid : node.id = founder := Option.some.inj ((idAt?_of_nodeAt? found).symm.trans duty)
  have hplaced : node.founded.successor = some node.id := Node.successor_setSuccessor node node.id
  refine turnSound_change ring found ⟨rfl, ?_, Or.inr ⟨node.id, hplaced, ?_⟩, ?_⟩
    no_spawns (easy _ _)
  · refine ⟨(ring.settled handle node found).cursor, ?_, fun _ _ => ⟨rfl, rfl⟩, ?_⟩
    · intro _ hnone
      rw [show (node.founded.reply outcome).node.successor = some node.id from hplaced] at hnone
      cases hnone
    · exact fun hne => absurd hid hne
  · refine ⟨Or.inr rfl, fun hne => absurd hid hne, fun hne => absurd hid hne, ?_⟩
    intro lost hlost
    rw [unplaced] at hlost
    cases hlost
  · exact fun _ h => nomatch h

theorem sound_join (ring : net.Ring founder) (found : net.nodeAt? handle = some node)
    {known : Token} (duty : RingDuty founder net handle (.join known))
    {wanted : Network → Outcome .nothing → Prop} (easy : ∀ later outcome, wanted later outcome) :
    (ringContract founder).TurnSound net handle (node.join net.surroundings known) wanted := by
  obtain ⟨id, hid, hne, hreg⟩ := duty
  obtain rfl : node.id = id := Option.some.inj ((idAt?_of_nodeAt? found).symm.trans hid)
  rw [Node.join]
  split
  · exact sound_reply ring found (easy _ _)
  · rename_i peer hpeer
    have hchange : net.Change founder node node.rejoining := by
      refine ⟨rfl, ⟨(ring.settled handle node found).cursor, ?_, ?_, ?_⟩, Or.inl rfl, ?_⟩
      · exact fun _ _ => rfl
      · exact fun hfounder => absurd hfounder hne
      · exact fun _ hjoining => absurd rfl hjoining
      · exact fun _ h => nomatch h
    obtain ⟨-, hgrows⟩ := ring.setNode found hchange
    refine turnSound_change ring found hchange no_spawns
      ⟨⟨trivial, ?_⟩, ⟨node.id, hgrows.stays _ _ hid, hne, hgrows.knows hreg⟩, fun _ _ _ _ => easy _ _⟩
    intro later hlater outcome hfinds
    cases outcome with
    | error failure => exact trivial
    | ok owner =>
        obtain ⟨asked, hasked, hjoined, howner, hle⟩ := hfinds
        refine ⟨howner, ?_, node.id, hlater.1.stays _ _ (hgrows.stays _ _ hid), hle⟩
        -- the founder is registered, because a registered founder was asked or another node has joined
        by_cases hfounder : asked = founder
        · have hat := hlater.1.stays _ _ (hgrows.stays _ _ (idAt?_resolve ring found hpeer))
          rw [hat, Option.some.injEq] at hasked
          have hother : known ≠ node.id := by
            rw [hasked, hfounder]
            exact hne.symm
          rw [← hfounder, ← hasked]
          exact hlater.1.knows (hgrows.knows (registered_of_resolve hpeer hother))
        · exact (hlater.2.registered hjoined hfounder).2

theorem sound_onPlace (ring : net.Ring founder) (found : net.nodeAt? handle = some node)
    {outcome : Outcome .id} (keeps : RingKeeps founder net handle .placeAsked)
    (wants : RingWants founder net handle .placeAsked outcome)
    (unplaced : Frame.placeAsked.places outcome = true → node.successor = none)
    {wanted : Network → Outcome .nothing → Prop} (easy : ∀ later outcome, wanted later outcome) :
    (ringContract founder).TurnSound net handle (node.onPlace net.surroundings outcome) wanted := by
  cases outcome with
  | error failure => exact sound_reply ring found (easy _ _)
  | ok owner =>
      obtain ⟨id, hid, hne, hreg⟩ := keeps
      obtain rfl : node.id = id := Option.some.inj ((idAt?_of_nodeAt? found).symm.trans hid)
      obtain ⟨howner, hfounder, other, hother, hle⟩ := wants
      obtain rfl : node.id = other := Option.some.inj ((idAt?_of_nodeAt? found).symm.trans hother)
      have hnone := unplaced rfl
      have hothers : owner ≠ node.id := by
        rintro rfl
        obtain ⟨next, hlinked⟩ := howner
        rw [ring.linked_iff found, hnone] at hlinked
        cases hlinked
      have hless : owner.gap founder < node.id.gap founder :=
        Nat.lt_of_le_of_ne hle fun heq => hothers (Token.gap_right_inj heq)
      have hplaced : (node.setSuccessor owner).successor = some owner :=
        Node.successor_setSuccessor node owner
      have hchange : net.Change founder node (node.setSuccessor owner) := by
        have hsettled := ring.settled handle node found
        refine ⟨rfl, ⟨hsettled.cursor, fun h => absurd h hne, fun h => absurd h hne,
          hsettled.source⟩, Or.inr ⟨owner, hplaced, Or.inl howner, fun _ => hless,
          fun _ => ⟨hreg, hfounder⟩, ?_⟩, fun _ h => Or.inl h⟩
        intro lost hlost
        rw [hnone] at hlost
        cases hlost
      obtain ⟨-, hgrows⟩ := ring.setNode found hchange
      have hlinked : (net.setNode handle (node.setSuccessor owner)).Linked node.id owner := by
        rw [Ring.linked_change ring found hchange.id, if_pos rfl, hplaced]
      rw [Node.onPlace]
      split
      · exact turnSound_change ring found hchange no_spawns (easy _ _)
      · rename_i peer hpeer
        have hat : net.idAt? (peer.at handle) = some owner := idAt?_resolve ring found hpeer
        exact turnSound_change ring found hchange no_spawns
          ⟨⟨⟨owner, hgrows.stays _ _ hat, .link hlinked⟩, fun _ _ _ _ => trivial⟩,
            trivial, fun _ _ _ _ => easy _ _⟩

/-! ### Predecessors -/

/-- A merge that begins takes its records from a node nearer to the founder. -/
theorem settled_beginMerge (settled : node.Settled founder)
    (nearer : ∀ next, node.successor = some next → node.id ≠ founder →
      next.gap founder < node.id.gap founder) : node.beginMerge.1.Settled founder := by
  rw [Node.beginMerge]
  split
  · rename_i source hlife hnext
    have hne : node.id ≠ founder := by
      intro hfounder
      have hstable := (settled.stable hfounder (by rw [hnext]; simp)).1
      rw [hlife] at hstable
      cases hstable
    have hless := nearer source hnext hne
    split
    · rename_i hself
      rw [hself] at hless
      exact absurd hless (Nat.lt_irrefl _)
    · exact ⟨settled.cursor, fun h => absurd h hne, fun h => absurd h hne,
        fun _ _ => ⟨source, rfl, hless⟩⟩
  · exact settled

theorem spawn_beginMerge {operation : Operation .nothing}
    (h : .spawn operation ∈ node.beginMerge.2) : ∃ source, operation = .askForRecords source := by
  rw [Node.beginMerge] at h
  split at h
  · split at h
    · simp [Node.drainPending] at h
    · simp only [List.mem_singleton, Effect.spawn.injEq] at h
      exact ⟨_, h⟩
  · simp at h

theorem id_beginMerge (node : Node) : node.beginMerge.1.id = node.id := by
  rw [Node.beginMerge]
  split
  · split <;> rfl
  · rfl

theorem successor_beginMerge (node : Node) : node.beginMerge.1.successor = node.successor := by
  rw [Node.beginMerge]
  split
  · split <;> rfl
  · rfl

theorem predecessor_beginMerge (node : Node) :
    node.beginMerge.1.predecessor = node.predecessor := by
  rw [Node.beginMerge]
  split
  · split <;> rfl
  · rfl

theorem sound_notified (ring : net.Ring founder) (found : net.nodeAt? handle = some node)
    {candidate : Token} (duty : AskedDuty founder net handle (.notify candidate))
    {wanted : Network → Outcome .nothing → Prop} (easy : ∀ later outcome, wanted later outcome) :
    (ringContract founder).TurnSound net handle (Node.acknowledge (node.notified candidate))
      wanted := by
  obtain ⟨id, hid, hleads⟩ := duty
  obtain rfl : node.id = id := Option.some.inj ((idAt?_of_nodeAt? found).symm.trans hid)
  rw [Node.notified]
  split
  · rename_i haccepted
    let told : Node := { node with predecessor := some candidate }
    have hsettled := ring.settled handle node found
    have htold : told.Settled founder :=
      ⟨hsettled.cursor, hsettled.fresh, hsettled.stable, hsettled.source⟩
    have hchange : net.Change founder node told.beginMerge.1 := by
      have hnearer : ∀ next, node.successor = some next → node.id ≠ founder →
          next.gap founder < node.id.gap founder :=
        fun next hnext => ring.nearer _ _ (linked_of_nodeAt? found hnext)
      refine ⟨id_beginMerge told, settled_beginMerge htold hnearer,
        Or.inl (successor_beginMerge told), ?_⟩
      intro before hbefore
      rw [predecessor_beginMerge] at hbefore
      cases hbefore
      exact Or.inr ⟨haccepted.1, hleads⟩
    refine turnSound_change ring found hchange ?_ (easy _ _)
    intro operation hmem later
    obtain ⟨source, rfl⟩ := spawn_beginMerge hmem
    trivial
  · exact turnSound_same ring found rfl no_spawns (easy _ _)

theorem sound_fixPredecessor (ring : net.Ring founder) (found : net.nodeAt? handle = some node)
    {wanted : Network → Outcome .nothing → Prop} (easy : ∀ later outcome, wanted later outcome) :
    (ringContract founder).TurnSound net handle
      ((node.fixPredecessor net.surroundings).reply (.ok ())) wanted := by
  have hsettled := ring.settled handle node found
  rw [Node.fixPredecessor]
  split
  · split
    · exact sound_reply ring found (easy _ _)
    · refine turnSound_change ring found ⟨rfl, ⟨hsettled.cursor, hsettled.fresh, hsettled.stable,
        hsettled.source⟩, Or.inl rfl, fun _ h => nomatch h⟩ no_spawns (easy _ _)
  · exact sound_reply ring found (easy _ _)

/-! ### Successor repair -/

/-- Successor repair starts by asking the successor for its predecessor. -/
theorem Ring.stabilize_eq (ring : net.Ring founder) (found : net.nodeAt? handle = some node)
    (holds : node.successor = some next) : ∃ contact, net.idAt? (contact.at handle) = some next ∧
      node.stabilize net.surroundings =
        node.ask contact .predecessor (.predecessorAsked next contact) := by
  obtain ⟨contact, hcontact⟩ := ring.resolve_successor found holds
  exact ⟨contact, idAt?_resolve ring found hcontact, Node.stabilize_found holds hcontact⟩

theorem sound_stabilize (ring : net.Ring founder) (found : net.nodeAt? handle = some node)
    {wanted : Network → Outcome .nothing → Prop} (easy : ∀ later outcome, wanted later outcome) :
    (ringContract founder).TurnSound net handle (node.stabilize net.surroundings) wanted := by
  cases hnext : node.successor with
  | none =>
      rw [Node.stabilize, hnext]
      exact sound_reply ring found (easy _ _)
  | some next =>
      obtain ⟨contact, hat, hturn⟩ := ring.stabilize_eq found hnext
      rw [hturn]
      refine sound_ask ring found ⟨trivial, ?_⟩ ⟨⟨node.id, idAt?_of_nodeAt? found,
        .link (linked_of_nodeAt? found hnext), hat⟩, fun _ _ _ _ => easy _ _⟩
      intro later hlater outcome hpromise
      cases outcome with
      | error failure => exact trivial
      | ok value =>
          cases value with
          | none => exact trivial
          | some before =>
              obtain ⟨id, hid, hleads⟩ := hpromise
              rw [hlater.1.stays _ _ hat, Option.some.injEq] at hid
              exact hid ▸ hleads

theorem sound_tellSuccessor (ring : net.Ring founder) (found : net.nodeAt? handle = some node)
    (at_peer : net.idAt? (peer.at handle) = some successor)
    (leads : net.Leads founder node.id successor)
    {wanted : Network → Outcome .nothing → Prop} (easy : ∀ later outcome, wanted later outcome) :
    (ringContract founder).TurnSound net handle (node.tellSuccessor successor peer) wanted := by
  rw [Node.tellSuccessor]
  split
  · exact sound_reply ring found (easy _ _)
  · exact sound_ask ring found ⟨⟨successor, at_peer, leads⟩, fun _ _ _ _ => trivial⟩
      ⟨trivial, fun _ _ _ _ => easy _ _⟩

/-- A position on the arc from a node to a nearer one is nearer, and it is not the founder. -/
theorem gap_lt_of_insideOpen {start stop value : Token} (inside : insideOpen start stop value = true)
    (nearer : start ≠ founder → stop.gap founder < start.gap founder) :
    value ≠ founder ∧ (start ≠ founder → value.gap founder < start.gap founder) := by
  rw [insideOpen_iff] at inside
  have hss := Token.gap_cases start stop
  have hsv := Token.gap_cases start value
  have hvf := Token.gap_cases value founder
  have hsf := Token.gap_cases start founder
  have htf := Token.gap_cases stop founder
  have hsR := start.toNat_lt
  have htR := stop.toNat_lt
  have hvR := value.toNat_lt
  have hfR := founder.toNat_lt
  simp only [← Token.toNat_inj, ne_eq] at *
  omega

/-- A node may adopt a position on the arc to its successor that leads to the successor. -/
theorem change_adopt (ring : net.Ring founder) (found : net.nodeAt? handle = some node)
    {lost candidate : Token} (holds : node.successor = some lost)
    (inside : insideOpen node.id lost candidate = true)
    (leads : net.Leads founder candidate lost) {fingers : Fingers}
    (adopts : fingers.successor = some candidate) :
    net.Change founder node { node with fingers := fingers } := by
  have hlinked := linked_of_nodeAt? found holds
  have hnearer := ring.nearer _ _ hlinked
  obtain ⟨hne, hless⟩ := gap_lt_of_insideOpen inside hnearer
  have hsettled := ring.settled handle node found
  have hplaced : node.successor ≠ none := by rw [holds]; simp
  have hadopts : Node.successor { node with fingers := fingers } = some candidate := adopts
  refine ⟨rfl, ⟨hsettled.cursor, ?_, fun h _ => hsettled.stable h hplaced, hsettled.source⟩,
    Or.inr ⟨candidate, adopts, Or.inl leads.joined, hless, ring.known _ _ hlinked, ?_⟩,
    fun _ h => Or.inl h⟩
  · intro _ hnone
    rw [hadopts] at hnone
    cases hnone
  · intro other hother
    rw [holds, Option.some.injEq] at hother
    exact ⟨hne, hother ▸ leads⟩

theorem sound_onPredecessor (ring : net.Ring founder) (found : net.nodeAt? handle = some node)
    {outcome : Outcome .knownId}
    (keeps : RingKeeps founder net handle (.predecessorAsked successor peer))
    (wants : RingWants founder net handle (.predecessorAsked successor peer) outcome)
    {wanted : Network → Outcome .nothing → Prop} (easy : ∀ later outcome, wanted later outcome) :
    (ringContract founder).TurnSound net handle
      (node.onPredecessor net.surroundings successor peer outcome) wanted := by
  obtain ⟨id, hid, hleads, hat⟩ := keeps
  obtain rfl : node.id = id := Option.some.inj ((idAt?_of_nodeAt? found).symm.trans hid)
  cases outcome with
  | error failure => exact sound_reply ring found (easy _ _)
  | ok value =>
      cases value with
      | none => exact sound_tellSuccessor ring found hat hleads easy
      | some candidate =>
          rw [Node.onPredecessor]
          split
          · rename_i hinside
            rcases hcas : node.fingers.compareAndSet Fingers.successorSlot (some successor)
              (some candidate) with ⟨swapped, fingers⟩
            cases swapped with
            | false => exact sound_stabilize ring found easy
            | true =>
                have hget := Fingers.get_of_compareAndSet (congrArg Prod.fst hcas)
                rw [hcas] at hget
                have hchange := change_adopt ring found hget.1 hinside wants hget.2
                obtain ⟨-, hgrows⟩ := ring.setNode found hchange
                let adopting : Node := { node with fingers := fingers }
                have hlinked : (net.setNode handle adopting).Linked node.id candidate := by
                  rw [Ring.linked_change ring found hchange.id, if_pos rfl]
                  exact hget.2
                simp only
                split
                · exact turnSound_change ring found hchange (by simp [Node.fail, Node.reply]) (easy _ _)
                · rename_i closer hcloser
                  have hcand : net.idAt? (closer.at handle) = some candidate :=
                    idAt?_resolve ring found hcloser
                  have hne : candidate ≠ adopting.id := (insideOpen_iff.1 hinside).1
                  rw [Node.tellSuccessor, if_neg hne]
                  exact turnSound_change ring found hchange (by simp [Node.ask])
                    ⟨⟨⟨candidate, hgrows.stays _ _ hcand, .link hlinked⟩, fun _ _ _ _ => trivial⟩,
                      trivial, fun _ _ _ _ => easy _ _⟩
          · exact sound_tellSuccessor ring found hat hleads easy

/-! ### Finger repair -/

theorem sound_fixFingers (ring : net.Ring founder) (found : net.nodeAt? handle = some node)
    {wanted : Network → Outcome .nothing → Prop} (easy : ∀ later outcome, wanted later outcome) :
    (ringContract founder).TurnSound net handle node.fixFingers wanted := by
  have hsettled := ring.settled handle node found
  have hcursor : 1 ≤ Node.nextSlot node.cursor := by
    rw [Node.nextSlot]
    split <;> omega
  have hchange : net.Change founder node { node with cursor := Node.nextSlot node.cursor } :=
    ⟨rfl, ⟨hcursor, hsettled.fresh, hsettled.stable, hsettled.source⟩, Or.inl rfl,
      fun _ h => Or.inl h⟩
  rw [Node.fixFingers]
  split
  · exact turnSound_change ring found hchange no_spawns (easy _ _)
  · exact turnSound_change ring found hchange no_spawns
      ⟨⟨trivial, fun _ _ _ _ => trivial⟩, hsettled.cursor, fun _ _ _ _ => easy _ _⟩

/-- An answer for a routing slot leaves the successor as it is. -/
theorem sound_onSlotOwner (ring : net.Ring founder) (found : net.nodeAt? handle = some node)
    {slot : Nat} {outcome : Outcome .id} (routing : 1 ≤ slot)
    {wanted : Network → Outcome .nothing → Prop} (easy : ∀ later outcome, wanted later outcome) :
    (ringContract founder).TurnSound net handle (node.onSlotOwner slot outcome) wanted := by
  cases outcome with
  | error failure => exact sound_reply ring found (easy _ _)
  | ok owner =>
      rw [Node.onSlotOwner]
      split
      · exact sound_reply ring found (easy _ _)
      · rename_i index hindex
        dsimp only
        split
        · exact sound_reply ring found (easy _ _)
        · have hslot : index ≠ Fingers.successorSlot := by
            rw [Fingers.slot?] at hindex
            split at hindex
            · rintro rfl
              cases hindex
              exact absurd routing (by decide)
            · cases hindex
          let fingers := (node.fingers.compareAndSet index (node.fingers.get index) (some owner)).2
          have hsame : Node.successor { node with fingers := fingers } = node.successor :=
            Fingers.get_compareAndSet_of_ne hslot
          have hsettled := ring.settled handle node found
          have hchange : net.Change founder node { node with fingers := fingers } := by
            refine ⟨rfl, ⟨hsettled.cursor, ?_, ?_, hsettled.source⟩, Or.inl hsame, fun _ h => Or.inl h⟩
            · rw [hsame]
              exact hsettled.fresh
            · rw [hsame]
              exact hsettled.stable
          exact turnSound_change ring found hchange no_spawns (easy _ _)

theorem sound_refresh (ring : net.Ring founder) (found : net.nodeAt? handle = some node) (left : Nat)
    {wanted : Network → Outcome .nothing → Prop} (easy : ∀ later outcome, wanted later outcome) :
    (ringContract founder).TurnSound net handle (node.refresh left) wanted := by
  cases left with
  | zero => exact sound_reply ring found (easy _ _)
  | succ left =>
      exact sound_run ring found ⟨trivial, fun _ _ _ _ => trivial⟩ ⟨trivial, fun _ _ _ _ => easy _ _⟩

/-! ### Migration -/

theorem sound_migrationEnded (ring : net.Ring founder) (found : net.nodeAt? handle = some node)
    (source : Token) {wanted : Network → Outcome .nothing → Prop}
    (easy : ∀ later outcome, wanted later outcome) :
    (ringContract founder).TurnSound net handle (Node.acknowledge (node.migrationEnded source))
      wanted := by
  rw [Node.migrationEnded]
  split
  · rename_i hmerging
    have hsettled := ring.settled handle node found
    refine turnSound_change ring found ⟨rfl, ⟨hsettled.cursor, ?_, ?_, ?_⟩, Or.inl rfl,
      fun _ h => Or.inl h⟩ (by simp [Node.acknowledge, Node.drainPending]) (easy _ _)
    · intro hfounder hnone
      have hjoining := hsettled.fresh hfounder hnone
      rw [hmerging.2] at hjoining
      cases hjoining
    · intro hfounder hplaced
      exact ⟨rfl, (hsettled.stable hfounder hplaced).2⟩
    · intro hne _
      exact hsettled.source hne (by rw [hmerging.2]; simp)
  · exact turnSound_same ring found rfl no_spawns (easy _ _)

theorem sound_onMigrated (ring : net.Ring founder) (found : net.nodeAt? handle = some node)
    (requester : Token) (outcome : Outcome .count) {wanted : Network → Outcome .nothing → Prop}
    (easy : ∀ later outcome, wanted later outcome) :
    (ringContract founder).TurnSound net handle (node.onMigrated requester outcome) wanted := by
  cases outcome with
  | error failure => exact sound_reply ring found (easy _ _)
  | ok moved =>
      have hsettled := ring.settled handle node found
      rw [Node.onMigrated, Node.reportMigration]
      split
      · exact turnSound_same ring found rfl (by simp [Node.acknowledge]) (easy _ _)
      · exact turnSound_change ring found ⟨rfl, ⟨hsettled.cursor, hsettled.fresh, hsettled.stable,
          hsettled.source⟩, Or.inl rfl, fun _ h => Or.inl h⟩ (by simp [Node.acknowledge]) (easy _ _)

theorem sound_migrateStorages (ring : net.Ring founder) (found : net.nodeAt? handle = some node)
    (moved : Nat) (storages : List String) {wanted : Network → Outcome .count → Prop}
    (easy : ∀ later outcome, wanted later outcome) :
    (ringContract founder).TurnSound net handle (node.migrateStorages moved storages) wanted := by
  induction storages with
  | nil => exact sound_reply ring found (easy _ _)
  | cons storage rest ih =>
      rw [Node.migrateStorages]
      split
      · exact ih
      · exact sound_call ring found (fun _ _ _ _ => trivial) ⟨trivial, fun _ _ _ _ => easy _ _⟩

theorem sound_migrateKeys (ring : net.Ring founder) (found : net.nodeAt? handle = some node)
    (storage : String) (storages : List String) (moved : Nat) (keys : List Token)
    {wanted : Network → Outcome .count → Prop} (easy : ∀ later outcome, wanted later outcome) :
    (ringContract founder).TurnSound net handle (node.migrateKeys storage storages moved keys)
      wanted := by
  cases keys with
  | nil => exact sound_migrateStorages ring found moved storages easy
  | cons key rest =>
      exact sound_run ring found ⟨trivial, fun _ _ _ _ => trivial⟩ ⟨trivial, fun _ _ _ _ => easy _ _⟩

theorem sound_callKnown (ring : net.Ring founder) (found : net.nodeAt? handle = some node)
    (peer : Token) {request : Request .nothing}
    (duty : ∀ handle, AskedDuty founder net handle request)
    {wanted : Network → Outcome .nothing → Prop} (easy : ∀ later outcome, wanted later outcome) :
    (ringContract founder).TurnSound net handle (node.callKnown net.surroundings peer request)
      wanted := by
  rw [Node.callKnown]
  split
  · exact sound_reply ring found (easy _ _)
  · exact sound_ask ring found ⟨duty _, fun _ _ _ _ => trivial⟩ ⟨trivial, fun _ _ _ _ => easy _ _⟩

theorem sound_endTransfer (ring : net.Ring founder) (found : net.nodeAt? handle = some node)
    (storage : String) (key : Token) (outcome : Outcome .flag)
    {wanted : Network → Outcome .flag → Prop} (easy : ∀ later outcome, wanted later outcome) :
    (ringContract founder).TurnSound net handle (node.endTransfer storage key outcome) wanted :=
  turnSound_same ring found rfl (by simp [Node.endTransfer]) (easy _ _)

theorem sound_onTransferRead (ring : net.Ring founder) (found : net.nodeAt? handle = some node)
    (storage : String) (key owner : Token) (outcome : Outcome .record)
    {wanted : Network → Outcome .flag → Prop} (easy : ∀ later outcome, wanted later outcome) :
    (ringContract founder).TurnSound net handle
      (node.onTransferRead net.surroundings storage key owner outcome) wanted := by
  cases outcome with
  | error failure => exact sound_endTransfer ring found storage key _ easy
  | ok value =>
      cases value with
      | none => exact sound_endTransfer ring found storage key _ easy
      | some record =>
          rw [Node.onTransferRead]
          split
          · exact sound_endTransfer ring found storage key _ easy
          · exact sound_ask ring found ⟨trivial, fun _ _ _ _ => trivial⟩ ⟨trivial, fun _ _ _ _ => easy _ _⟩

theorem sound_onTransferHanded (ring : net.Ring founder) (found : net.nodeAt? handle = some node)
    (storage : String) (key : Token) (version : UInt64) (outcome : Outcome .version)
    {wanted : Network → Outcome .flag → Prop} (easy : ∀ later outcome, wanted later outcome) :
    (ringContract founder).TurnSound net handle (node.onTransferHanded storage key version outcome)
      wanted := by
  cases outcome with
  | error failure => exact sound_endTransfer ring found storage key _ easy
  | ok stored =>
      exact sound_call ring found (fun _ _ _ _ => trivial) ⟨trivial, fun _ _ _ _ => easy _ _⟩

theorem sound_onTransferDeleted (ring : net.Ring founder) (found : net.nodeAt? handle = some node)
    (storage : String) (key : Token) (outcome : Outcome .flag)
    {wanted : Network → Outcome .flag → Prop} (easy : ∀ later outcome, wanted later outcome) :
    (ringContract founder).TurnSound net handle (node.onTransferDeleted storage key outcome)
      wanted := by
  cases outcome with
  | error failure => exact sound_endTransfer ring found storage key _ easy
  | ok removed =>
      exact turnSound_same ring found rfl (by simp [Node.onTransferDeleted, Node.endTransfer])
        (easy _ _)

/-! ### Walks and record calls -/

theorem sound_walk (ring : net.Ring founder) (found : net.nodeAt? handle = some node)
    (members : List Token) (next : Token) {wanted : Network → Outcome .ids → Prop}
    (easy : ∀ later outcome, wanted later outcome) :
    (ringContract founder).TurnSound net handle (node.walk net.surroundings members next) wanted := by
  rw [Node.walk]
  split
  · exact sound_reply ring found (easy _ _)
  · split
    · exact sound_reply ring found (easy _ _)
    · refine sound_ask ring found ⟨trivial, ?_⟩ ⟨trivial, fun _ _ _ _ => easy _ _⟩
      exact fun _ _ _ _ => trivial

theorem sound_attempt (ring : net.Ring founder) (found : net.nodeAt? handle = some node)
    (call : RecordCall shape) {wanted : Network → Outcome shape → Prop}
    (easy : ∀ later outcome, wanted later outcome) :
    (ringContract founder).TurnSound net handle (node.attempt call) wanted :=
  turnSound_same ring found rfl no_spawns
    ⟨fun _ _ _ _ => trivial, trivial, fun _ _ _ _ => easy _ _⟩

theorem sound_enter (ring : net.Ring founder) (found : net.nodeAt? handle = some node)
    (call : RecordCall shape) (since : Nat) {wanted : Network → Outcome shape → Prop}
    (easy : ∀ later outcome, wanted later outcome) :
    (ringContract founder).TurnSound net handle (node.enter net.surroundings call since) wanted := by
  have hsleep : (ringContract founder).TurnSound net handle
      ⟨node, [], .sleep node.config.joinPoll (.joinAwaited call since)⟩ wanted :=
    turnSound_same ring found rfl no_spawns
      ⟨fun _ _ _ _ => trivial, trivial, fun _ _ _ _ => easy _ _⟩
  rw [Node.enter]
  split
  · dsimp only
    split
    · split
      · exact sound_reply ring found (easy _ _)
      · exact hsleep
    · exact hsleep
  · exact sound_run ring found ⟨trivial, fun _ _ _ _ => trivial⟩ ⟨trivial, fun _ _ _ _ => easy _ _⟩

theorem sound_onAttempted (ring : net.Ring founder) (found : net.nodeAt? handle = some node)
    (call : RecordCall shape) (outcome : Outcome shape) {wanted : Network → Outcome shape → Prop}
    (easy : ∀ later outcome, wanted later outcome) :
    (ringContract founder).TurnSound net handle (node.onAttempted net.surroundings call outcome)
      wanted := by
  cases outcome with
  | error failure => exact sound_reply ring found (easy _ _)
  | ok answer =>
      rw [Node.onAttempted]
      split
      · split
        · exact sound_reply ring found (easy _ _)
        · split
          · exact sound_attempt ring found call easy
          · refine sound_ask ring found ⟨trivial, ?_⟩ ⟨trivial, fun _ _ _ _ => easy _ _⟩
            exact fun _ _ _ _ => trivial
      · exact sound_reply ring found (easy _ _)

theorem sound_onHandedOn (ring : net.Ring founder) (found : net.nodeAt? handle = some node)
    (call : RecordCall shape) (outcome : Outcome shape) {wanted : Network → Outcome shape → Prop}
    (easy : ∀ later outcome, wanted later outcome) :
    (ringContract founder).TurnSound net handle (node.onHandedOn call outcome) wanted := by
  cases outcome with
  | error failure => exact sound_attempt ring found call easy
  | ok answer =>
      rw [Node.onHandedOn]
      split
      · exact sound_attempt ring found call easy
      · exact sound_reply ring found (easy _ _)

/-! ## Every turn -/

theorem sound_serve (ring : net.Ring founder) (found : net.nodeAt? handle = some node)
    {request : Request shape} (duty : AskedDuty founder net handle request) :
    (ringContract founder).TurnSound net handle (node.serve net.surroundings request)
      fun later => AskedPromise founder later handle request := by
  cases request with
  | findSuccessor key => exact sound_lookUp ring found key
  | closestPrecedingFinger key => exact sound_reply ring found trivial
  | successor =>
      refine sound_reply ring found ?_
      cases hnext : node.successor with
      | none => exact trivial
      | some next =>
          have hlinked := linked_of_nodeAt? found hnext
          exact ⟨node.id, idAt?_of_nodeAt? found, ring.joined _ _ hlinked, ring.nearer _ _ hlinked⟩
  | predecessor =>
      refine sound_reply ring found ?_
      cases hbefore : node.predecessor with
      | none => exact trivial
      | some before =>
          exact ⟨node.id, idAt?_of_nodeAt? found,
            (ring.before _ _ (precedes_of_nodeAt? found hbefore)).2⟩
  | notify candidate => exact sound_notified ring found duty fun _ _ => trivial
  | migrationEnded source => exact sound_migrationEnded ring found source fun _ _ => trivial
  | requestMigration requester =>
      refine turnSound_same ring found rfl ?_ trivial
      intro operation hmem
      obtain rfl : operation = .migrateFor requester := by
        simpa [Node.serve, Node.acknowledge] using hmem
      trivial
  | record call => exact sound_enter ring found call _ fun _ _ => trivial

theorem sound_start (ring : net.Ring founder) (found : net.nodeAt? handle = some node)
    {operation : Operation shape} (duty : RingDuty founder net handle operation)
    (unplaced : operation.places = true → node.successor = none) :
    (ringContract founder).TurnSound net handle (node.start net.surroundings operation)
      fun later => RingPromise founder later handle operation := by
  cases operation with
  | serve request => exact sound_serve ring found duty
  | found => exact sound_founded ring found duty (unplaced rfl) (fun _ _ => trivial) _
  | join known => exact sound_join ring found duty fun _ _ => trivial
  | stabilize => exact sound_stabilize ring found fun _ _ => trivial
  | fixFingers => exact sound_fixFingers ring found fun _ _ => trivial
  | refreshFingers => exact sound_refresh ring found Node.routingSlots fun _ _ => trivial
  | fixPredecessor => exact sound_fixPredecessor ring found fun _ _ => trivial
  | ringMembers =>
      rw [Node.start, Node.ringMembers]
      split
      · exact sound_reply ring found trivial
      · exact sound_walk ring found _ _ fun _ _ => trivial
  | attempt call => exact sound_attempt ring found call fun _ _ => trivial
  | migrate =>
      exact sound_call ring found (fun _ _ _ _ => trivial) ⟨trivial, fun _ _ _ _ => trivial⟩
  | transfer storage key owner =>
      exact turnSound_same ring found rfl no_spawns
        ⟨fun _ _ _ _ => trivial, trivial, fun _ _ _ _ => trivial⟩
  | migrateFor requester =>
      exact sound_run ring found ⟨trivial, fun _ _ _ _ => trivial⟩ ⟨trivial, fun _ _ _ _ => trivial⟩
  | askForRecords source =>
      have hduty : ∀ peer, AskedDuty founder net peer (.requestMigration node.id) := fun _ => trivial
      exact sound_callKnown ring found source hduty fun _ _ => trivial
  | reportMoved requester =>
      have hduty : ∀ peer, AskedDuty founder net peer (.migrationEnded node.id) := fun _ => trivial
      exact sound_callKnown ring found requester hduty fun _ _ => trivial

theorem sound_resume (ring : net.Ring founder) (found : net.nodeAt? handle = some node)
    {frame : Frame shape result} {outcome : Outcome shape}
    (keeps : RingKeeps founder net handle frame) (wants : RingWants founder net handle frame outcome)
    (unplaced : frame.places outcome = true → node.successor = none) :
    (ringContract founder).TurnSound net handle (node.resume net.surroundings frame outcome)
      fun later => RingGives founder later handle frame := by
  cases frame with
  | successorAsked key current peer hops => exact sound_onSuccessor ring found keeps wants
  | fingerAsked key current successor hops => exact sound_onFinger ring found keeps
  | placeAsked => exact sound_onPlace ring found keeps wants unplaced fun _ _ => trivial
  | told => exact sound_reply ring found trivial
  | predecessorAsked successor peer =>
      exact sound_onPredecessor ring found keeps wants fun _ _ => trivial
  | slotOwnerAsked slot => exact sound_onSlotOwner ring found keeps fun _ _ => trivial
  | refreshing left =>
      cases outcome with
      | error failure => exact sound_reply ring found trivial
      | ok _ => exact sound_refresh ring found left fun _ _ => trivial
  | nextAsked members newest =>
      cases outcome with
      | error failure => exact sound_reply ring found trivial
      | ok value =>
          cases value with
          | none => exact sound_reply ring found trivial
          | some next => exact sound_walk ring found members next fun _ _ => trivial
  | joinAwaited call since =>
      cases outcome with
      | error failure => exact sound_reply ring found trivial
      | ok _ => exact sound_enter ring found call since fun _ _ => trivial
  | attempted call => exact sound_onAttempted ring found call outcome fun _ _ => trivial
  | handedOn call => exact sound_onHandedOn ring found call outcome fun _ _ => trivial
  | lockAwaited call =>
      cases outcome with
      | error failure => exact sound_reply ring found trivial
      | ok _ =>
          exact sound_call ring found (fun _ _ _ _ => trivial) ⟨trivial, fun _ _ _ _ => trivial⟩
  | performed call => exact turnSound_same ring found rfl (by simp [Node.resume, Node.onPerformed]) trivial
  | namesAsked =>
      cases outcome with
      | error failure => exact sound_reply ring found trivial
      | ok storages => exact sound_migrateStorages ring found 0 storages fun _ _ => trivial
  | keysAsked storage storages moved =>
      cases outcome with
      | error failure => exact sound_reply ring found trivial
      | ok keys => exact sound_migrateKeys ring found storage storages moved keys fun _ _ => trivial
  | ownerAsked storage key keys storages moved =>
      cases outcome with
      | error failure => exact sound_reply ring found trivial
      | ok owner =>
          rw [Node.resume, Node.onOwner]
          split
          · exact sound_migrateKeys ring found storage storages moved keys fun _ _ => trivial
          · exact sound_run ring found ⟨trivial, fun _ _ _ _ => trivial⟩
              ⟨trivial, fun _ _ _ _ => trivial⟩
  | moving storage keys storages moved =>
      cases outcome with
      | error failure => exact sound_reply ring found trivial
      | ok done => exact sound_migrateKeys ring found storage storages _ keys fun _ _ => trivial
  | transferLockAwaited storage key owner =>
      cases outcome with
      | error failure => exact sound_reply ring found trivial
      | ok _ =>
          exact sound_call ring found (fun _ _ _ _ => trivial) ⟨trivial, fun _ _ _ _ => trivial⟩
  | transferRead storage key owner =>
      exact sound_onTransferRead ring found storage key owner outcome fun _ _ => trivial
  | transferHanded storage key version =>
      exact sound_onTransferHanded ring found storage key version outcome fun _ _ => trivial
  | transferDeleted storage key =>
      exact sound_onTransferDeleted ring found storage key outcome fun _ _ => trivial
  | migratingFor requester => exact sound_onMigrated ring found requester outcome fun _ _ => trivial

/-- Every turn of a node keeps the contract of the ring. -/
theorem lawful_ringContract (founder : Token) : (ringContract founder).Lawful where
  refl net := Grows.refl founder net
  trans h h' := h.trans h'
  akin ring akin := ⟨(ring.akin akin).2, (ring.akin akin).1⟩
  members ring := ring.members _
  duty later duty := later.1.duty duty
  keeps later keeps := later.1.keeps keeps
  wants later wants := later.1.wants wants
  failure := ringWants_failure _ _
  report := trivial
  start ring found duty unplaced := sound_start ring found duty unplaced
  resume ring found keeps wants unplaced := sound_resume ring found keeps wants unplaced

end Turns

end RecordRing.Network
