import RecordRing.Proofs.Ring.Safety
import RecordRing.Proofs.Ring.Strain

/-!
# Convergence of successor repair

Once every node has joined, successor repair on its own leads to the closed ring, in which every
successor and every predecessor is the one that the circular order of the identifiers gives.  A call
lowers the strain or changes no pointer, and in no other ring of several nodes does every node rest
(`Assembled.rests_iff_closed`).  So finitely many rounds reach the closed ring, whatever the order
of the calls in each (`repair_closes_ring`).
-/

namespace RecordRing.Network

variable {founder : Token} {ids : List Token} {net mid after last : Network} {handle : Handle}
  {node : Node} {a b c d : Token}

/-- Every pointer is the one that the circular order of the identifiers gives. -/
def Closed (ids : List Token) (net : Network) : Prop :=
  ∀ handle node, net.nodeAt? handle = some node →
    node.successor = some (nextOf ids node.id) ∧ node.predecessor = some (previousOf ids node.id)

theorem Closed.of_unmoved (closed : net.Closed ids) (still : net.Unmoved after) :
    after.Closed ids := by
  intro handle new hnew
  obtain ⟨old, hold, hpointers⟩ := still.nodeAt?_some hnew
  obtain ⟨hnext, hbefore⟩ := closed handle old hold
  simp only [Node.pointers, Prod.mk.injEq] at hpointers
  rw [hpointers.1, hpointers.2.1, hpointers.2.2]
  exact ⟨hnext, hbefore⟩

/-- A network of nodes all of which have joined the ring of one founder. -/
structure Assembled (founder : Token) (ids : List Token) (net : Network) : Prop where
  run : Run (oneFounder founder) Network.empty net
  ascending : Ascending ids
  census : ∀ id, id ∈ ids ↔ ∃ handle, net.idAt? handle = some id
  joined : ∀ id ∈ ids, net.Joined id

/-! ## Chains of successors -/

/-- Every position that a chain of successors reaches follows one on the chain. -/
theorem exists_linked_of_mem {path : List Token}
    (chain : (c :: path ++ [founder]).IsChain net.Linked) (mem : b = founder ∨ b ∈ path) :
    ∃ a ∈ c :: path, net.Linked a b := by
  induction path generalizing c with
  | nil =>
      rcases mem with rfl | hmem
      · exact ⟨c, List.mem_cons_self .., (List.isChain_cons_cons.1 chain).1⟩
      · cases hmem
  | cons next path ih =>
      obtain ⟨hfirst, hchain⟩ := List.isChain_cons_cons.1 chain
      by_cases hb : b = next
      · exact ⟨c, List.mem_cons_self .., hb ▸ hfirst⟩
      · obtain ⟨a, ha, hlinked⟩ := ih hchain
          (mem.imp_right fun hmem => (List.mem_cons.1 hmem).resolve_left hb)
        exact ⟨a, List.mem_cons_of_mem _ ha, hlinked⟩

/-- On a chain in circular order there is nobody between a position and its successor. -/
theorem Ring.gap_of_chain (ring : net.Ring founder) {path : List Token}
    (chain : (c :: path ++ [founder]).IsChain net.Linked)
    (ascending : (c :: path).Pairwise fun x y => founder.gap x < founder.gap y)
    (mem : a ∈ c :: path) (linked : net.Linked a b) (other : d ∈ c :: path) :
    founder.gap d ≤ founder.gap a ∨ (b ≠ founder ∧ founder.gap b ≤ founder.gap d) := by
  induction path generalizing c with
  | nil =>
      obtain rfl : a = c := by simpa using mem
      obtain rfl : d = a := by simpa using other
      exact Or.inl (Nat.le_refl _)
  | cons next path ih =>
      obtain ⟨hfirst, hchain⟩ := List.isChain_cons_cons.1 chain
      obtain ⟨hless, hrest⟩ := List.pairwise_cons.1 ascending
      rcases List.mem_cons.1 mem with rfl | hmem
      · -- the position is the first, so its successor is the second
        obtain rfl := ring.linked_inj linked hfirst
        rcases List.mem_cons.1 other with rfl | hother
        · exact Or.inl (Nat.le_refl _)
        · refine Or.inr ⟨?_, ?_⟩
          · rintro rfl
            have hpos := hless b (List.mem_cons_self ..)
            rw [Token.gap_self] at hpos
            exact Nat.not_lt_zero _ hpos
          · rcases List.mem_cons.1 hother with rfl | hbeyond
            · exact Nat.le_refl _
            · exact Nat.le_of_lt ((List.pairwise_cons.1 hrest).1 d hbeyond)
      · rcases List.mem_cons.1 other with rfl | hother
        · exact Or.inl (Nat.le_of_lt (hless a hmem))
        · exact ih hchain hrest hmem hother

/-! ## Rings at rest -/

namespace Assembled

theorem ring (ready : net.Assembled founder ids) : net.Ring founder := ring_of_run ready.run

theorem exists_other (ready : net.Assembled founder ids) (several : 2 ≤ ids.length) (a : Token) :
    ∃ b ∈ ids, b ≠ a :=
  exists_ne ready.ascending several a

theorem founder_mem (ready : net.Assembled founder ids) (several : 2 ≤ ids.length) :
    founder ∈ ids := by
  obtain ⟨a, hmem, hne⟩ := ready.exists_other several founder
  obtain ⟨handle, hdirectory⟩ := (ready.ring.registered (ready.joined a hmem) hne).2
  exact (ready.census founder).2 ⟨handle, ready.ring.listed founder handle hdirectory⟩

theorem mem_of_linked (ready : net.Assembled founder ids) (linked : net.Linked a b) :
    a ∈ ids ∧ b ∈ ids := by
  have hmem : ∀ {x}, net.Joined x → x ∈ ids := by
    rintro x ⟨y, handle, node, hfound, hid, -⟩
    exact (ready.census x).2 ⟨handle, idAt?_eq_some.2 ⟨node, hfound, hid⟩⟩
  exact ⟨hmem ⟨b, linked⟩, hmem (ready.ring.joined a b linked)⟩

section AtRest

variable (ready : net.Assembled founder ids) (several : 2 ≤ ids.length)
  (rest : ∀ id ∈ ids, net.Rests id)

include ready several rest

/-- No node is its own successor, because another node would be the founder's predecessor. -/
theorem linked_ne (linked : net.Linked a b) : b ≠ a := by
  rintro rfl
  have hfounder : b = founder := Decidable.byContradiction fun hne =>
    Nat.lt_irrefl _ (ready.ring.nearer b b linked hne)
  subst hfounder
  obtain ⟨c, hc, hne⟩ := ready.exists_other several b
  obtain ⟨path, hchain, -, hpasses⟩ := ready.ring.exists_path (ready.joined c hc) hne
  obtain ⟨a, ha, hlinked⟩ := exists_linked_of_mem hchain (Or.inl rfl)
  have hother : b ≠ a := fun heq => hpasses (heq ▸ ha)
  obtain ⟨next, hnext, -, hbefore⟩ := rest a (ready.mem_of_linked hlinked).1
  obtain rfl := ready.ring.linked_inj hlinked hnext
  obtain ⟨self, hself, halone, -⟩ := rest b (ready.founder_mem several)
  exact halone (ready.ring.linked_inj hself linked) a (hbefore hother)

/-- The predecessor of a successor is the node itself. -/
theorem precedes_of_linked (linked : net.Linked a b) : net.Precedes a b := by
  obtain ⟨next, hnext, -, hbefore⟩ := rest a (ready.mem_of_linked linked).1
  obtain rfl := ready.ring.linked_inj linked hnext
  exact hbefore (ready.linked_ne several rest linked)

/-- No node sits on a path beside the walk from the founder, because no two nodes have one
successor. -/
theorem mem_walk {walk : List Token} (circle : net.Walk founder walk) (mem : a ∈ ids) :
    a ∈ founder :: walk := by
  induction hgap : a.gap founder using Nat.strongRecOn generalizing a with
  | ind gap ih =>
      subst hgap
      by_cases hne : a = founder
      · exact hne ▸ List.mem_cons_self ..
      · obtain ⟨b, hlinked⟩ := ready.joined a mem
        have hb := ih _ (ready.ring.nearer a b hlinked hne) (ready.mem_of_linked hlinked).2 rfl
        obtain ⟨x, hx, hsame⟩ := exists_linked_of_mem circle.linked (List.mem_cons.1 hb)
        rw [ready.ring.precedes_inj (ready.precedes_of_linked several rest hlinked)
          (ready.precedes_of_linked several rest hsame)]
        exact hx

theorem not_insideOpen_of_linked (linked : net.Linked a b) (mem : c ∈ ids) :
    ¬ insideOpen a b c = true := by
  obtain ⟨walk, hwalk⟩ := ready.ring.exists_walk (ready.joined founder (ready.founder_mem several))
  have ha := ready.mem_walk several rest hwalk (ready.mem_of_linked linked).1
  have hc := ready.mem_walk several rest hwalk mem
  have hgap := ready.ring.gap_of_chain hwalk.linked hwalk.ascending ha linked hc
  have hne := ready.linked_ne several rest linked
  have hnearer := ready.ring.nearer a b linked
  rw [insideOpen_iff]
  have hfa := Token.gap_cases founder a
  have hfb := Token.gap_cases founder b
  have hfc := Token.gap_cases founder c
  have haf := Token.gap_cases a founder
  have hbf := Token.gap_cases b founder
  have hab := Token.gap_cases a b
  have hac := Token.gap_cases a c
  have haR := a.toNat_lt
  have hbR := b.toNat_lt
  have hcR := c.toNat_lt
  have hfR := founder.toNat_lt
  simp only [← Token.toNat_inj, ne_eq] at *
  omega

end AtRest

/-- The closed ring is the only one of several nodes in which every node rests. -/
theorem rests_iff_closed (ready : net.Assembled founder ids) (several : 2 ≤ ids.length) :
    (∀ id ∈ ids, net.Rests id) ↔ net.Closed ids := by
  constructor
  · intro rest handle node found
    have hmem : node.id ∈ ids := (ready.census _).2 ⟨handle, idAt?_of_nodeAt? found⟩
    have hnext : ∀ {x y}, net.Linked x y → y = nextOf ids x := fun hlinked =>
      eq_nextOf ready.ascending (ready.mem_of_linked hlinked).2 fun _ hc =>
        ready.not_insideOpen_of_linked several rest hlinked hc
    constructor
    · obtain ⟨next, hlinked⟩ := ready.joined _ hmem
      rw [← hnext hlinked]
      exact (ready.ring.linked_iff found).1 hlinked
    · obtain ⟨next, hlinked⟩ := ready.joined _ (previousOf_mem hmem node.id)
      have hself := hnext hlinked
      rw [nextOf_previousOf ready.ascending hmem] at hself
      rw [hself] at hlinked
      exact (ready.ring.precedes_iff found).1 (ready.precedes_of_linked several rest hlinked)
  · intro closed id hmem
    obtain ⟨handle, hid⟩ := (ready.census id).1 hmem
    obtain ⟨node, hfound, rfl⟩ := idAt?_eq_some.1 hid
    obtain ⟨other, hother⟩ := (ready.census _).1 (nextOf_mem hmem node.id)
    obtain ⟨next, hnext, hnextid⟩ := idAt?_eq_some.1 hother
    have hne : nextOf ids node.id ≠ node.id := by
      intro hself
      obtain ⟨b, hb, hb'⟩ := ready.exists_other several node.id
      exact not_insideOpen_nextOf ready.ascending hb node.id
        (insideOpen_iff.2 ⟨hb', Or.inl hself.symm⟩)
    refine ⟨nextOf ids node.id, linked_of_nodeAt? hfound (closed handle node hfound).1,
      fun hself => absurd hself hne, fun _ => ⟨other, next, hnext, hnextid, ?_⟩⟩
    rw [(closed other next hnext).2, hnextid, previousOf_nextOf ready.ascending hmem]

/-! ## Calls -/

/-- A run that moves no pointer keeps a network assembled. -/
theorem of_unmoved (ready : net.Assembled founder ids) (more : Run (oneFounder founder) net after)
    (still : net.Unmoved after) : after.Assembled founder ids := by
  refine ⟨ready.run.trans more, ready.ascending, fun id => ?_, fun id hmem => ?_⟩
  · rw [ready.census id]
    exact exists_congr fun handle => by rw [still.idAt?]
  · obtain ⟨next, hlinked⟩ := ready.joined id hmem
    exact ⟨next, still.symm.linked hlinked⟩

/-- A call of successor repair at a member ends well. -/
theorem completes (ready : net.Assembled founder ids) (found : net.nodeAt? handle = some node) :
    ∃ after, net.Completes handle .stabilize after ∧
      after.endings[net.nextTask]? = some ⟨.nothing, .ok ()⟩ ∧ net.Repaired handle node after := by
  obtain ⟨next, hlinked⟩ := ready.joined _ ((ready.census _).2 ⟨handle, idAt?_of_nodeAt? found⟩)
  exact ready.ring.completes_stabilize found ((ready.ring.linked_iff found).1 hlinked)

/-- A call of successor repair keeps a network assembled, and it changes a pointer only at a node
that does not rest, and then lowers the strain. -/
theorem call (ready : net.Assembled founder ids) (found : net.nodeAt? handle = some node)
    (completes : net.Completes handle .stabilize after) : after.Assembled founder ids ∧
      (∀ other, after.idAt? other = net.idAt? other) ∧
      (net.Rests node.id ∧ net.Unmoved after ∨
        ¬ net.Rests node.id ∧ after.strain < net.strain) := by
  obtain ⟨ending, hcompletes, -, hrepaired⟩ := ready.completes found
  obtain rfl := hcompletes.unique completes
  have hmore : Run (oneFounder founder) net ending := hcompletes.run trivial
  have hgrows := grows_of_run ready.run hmore
  obtain ⟨hids, hcases⟩ := ready.ring.repaired_cases found hrepaired
  refine ⟨⟨ready.run.trans hmore, ready.ascending, fun id => ?_, fun id hid => ?_⟩, hids, hcases⟩
  · rw [ready.census id]
    exact exists_congr fun other => by rw [hids]
  · exact hgrows.joined (ready.joined id hid)

end Assembled

/-- Calls of successor repair at members of the given handles, one after the other.  Work that moves
no pointer may go on between them. -/
inductive Calls (founder : Token) : Network → List Handle → Network → Prop where
  | done {net : Network} : Calls founder net [] net
  | call {net mid next last : Network} {handle : Handle} {rest : List Handle} {node : Node}
      (found : net.nodeAt? handle = some node) (completes : net.Completes handle .stabilize mid)
      (more : Run (oneFounder founder) mid next) (still : mid.Unmoved next)
      (calls : Calls founder next rest last) : Calls founder net (handle :: rest) last

/-- A round of calls reaches the members of a network and nobody else. -/
def Covers (net : Network) (round : List Handle) : Prop :=
  ∀ handle, handle ∈ round ↔ (net.idAt? handle).isSome

namespace Calls

variable {handles more : List Handle}

theorem split (calls : Calls founder net (handles ++ more) last) :
    ∃ mid, Calls founder net handles mid ∧ Calls founder mid more last := by
  induction handles generalizing net with
  | nil => exact ⟨net, .done, calls⟩
  | cons handle rest ih =>
      cases calls with
      | call found completes between still calls =>
          obtain ⟨mid, hfirst, hrest⟩ := ih calls
          exact ⟨mid, .call found completes between still hfirst, hrest⟩

/-- Calls change no pointer if every node that is called rests, and else lower the strain. -/
theorem cases (calls : Calls founder net handles after) (ready : net.Assembled founder ids) :
    after.Assembled founder ids ∧ (∀ other, after.idAt? other = net.idAt? other) ∧
      (net.Unmoved after ∧ (∀ handle ∈ handles, ∀ id, net.idAt? handle = some id → net.Rests id) ∨
        after.strain < net.strain) := by
  induction calls with
  | done =>
      exact ⟨ready, fun _ => rfl, Or.inl ⟨Unmoved.refl _, fun _ h => absurd h List.not_mem_nil⟩⟩
  | call found completes more still calls ih =>
      obtain ⟨hready, hids, hcases⟩ := ready.call found completes
      obtain ⟨hafter, hids', hlater⟩ := ih (hready.of_unmoved more still)
      have hstrain := still.strain
      refine ⟨hafter, fun other => ?_, ?_⟩
      · rw [hids', still.idAt?, hids]
      · rcases hcases with ⟨hrests, hunmoved⟩ | ⟨-, hless⟩
        · have hnext := hunmoved.trans still
          rcases hlater with ⟨hsame, hall⟩ | hless
          · refine Or.inl ⟨hnext.trans hsame, fun other hmem id hid => ?_⟩
            rcases List.mem_cons.1 hmem with rfl | hrest
            · rw [idAt?_of_nodeAt? found, Option.some.injEq] at hid
              exact hid ▸ hrests
            · exact hnext.rests (hall other hrest id ((hnext.idAt? other).trans hid))
          · rw [hnext.strain] at hless
            exact Or.inr hless
        · rcases hlater with ⟨hsame, -⟩ | hless'
          · rw [hsame.strain, hstrain]
            exact Or.inr hless
          · exact Or.inr (by omega)

/-- In the closed ring no call changes a pointer. -/
theorem unmoved_of_closed (calls : Calls founder net handles after)
    (ready : net.Assembled founder ids) (several : 2 ≤ ids.length) (closed : net.Closed ids) :
    net.Unmoved after := by
  induction calls with
  | done => exact Unmoved.refl _
  | call found completes more still calls ih =>
      obtain ⟨hready, -, hcases⟩ := ready.call found completes
      rcases hcases with ⟨-, hunmoved⟩ | ⟨hmoves, -⟩
      · have hnext := hunmoved.trans still
        exact hnext.trans (ih (hready.of_unmoved more still) (closed.of_unmoved hnext))
      · have hmem := (ready.census _).2 ⟨_, idAt?_of_nodeAt? found⟩
        exact absurd ((ready.rests_iff_closed several).2 closed _ hmem) hmoves

/-- Calls at members can always be made. -/
theorem exists_calls (ready : net.Assembled founder ids)
    (stand : ∀ handle ∈ handles, (net.idAt? handle).isSome) :
    ∃ after, Calls founder net handles after := by
  induction handles generalizing net with
  | nil => exact ⟨net, .done⟩
  | cons handle rest ih =>
      obtain ⟨id, hid⟩ := Option.isSome_iff_exists.1 (stand handle (List.mem_cons_self ..))
      obtain ⟨node, hfound, rfl⟩ := idAt?_eq_some.1 hid
      obtain ⟨mid, hcompletes, -⟩ := ready.completes hfound
      obtain ⟨hready, hids, -⟩ := ready.call hfound hcompletes
      obtain ⟨after, hcalls⟩ := ih hready fun other hmem => by
        rw [hids]
        exact stand other (List.mem_cons_of_mem _ hmem)
      exact ⟨after, .call hfound hcompletes Relation.ReflTransGen.refl (Unmoved.refl mid) hcalls⟩

/-- After more rounds than the strain allows to matter, the ring is closed. -/
theorem closed_of_rounds {rounds : List (List Handle)}
    (calls : Calls founder net rounds.flatten after) (ready : net.Assembled founder ids)
    (several : 2 ≤ ids.length)
    (full : ∀ round ∈ rounds, net.Covers round) (enough : net.strain < rounds.length) :
    after.Closed ids := by
  induction rounds generalizing net with
  | nil => exact absurd enough (Nat.not_lt_zero _)
  | cons round rest ih =>
      rw [List.flatten_cons] at calls
      obtain ⟨mid, hround, hrest⟩ := calls.split
      obtain ⟨hready, hids, hcases⟩ := hround.cases ready
      rcases hcases with ⟨hunmoved, hrests⟩ | hless
      · -- every node rests, so the ring is closed before the round
        have hclosed : net.Closed ids := by
          refine (ready.rests_iff_closed several).1 fun id hmem => ?_
          obtain ⟨handle, hid⟩ := (ready.census id).1 hmem
          have hin := (full round (List.mem_cons_self ..) handle).2 (by rw [hid]; rfl)
          exact hrests handle hin id hid
        have hmid := hclosed.of_unmoved hunmoved
        exact hmid.of_unmoved (hrest.unmoved_of_closed hready several hmid)
      · refine ih hrest hready (fun later hmem handle => ?_) ?_
        · rw [hids]
          exact full later (List.mem_cons_of_mem _ hmem) handle
        · rw [List.length_cons] at enough
          omega

end Calls

/-- What successor repair does once every node has joined.  Each call ends well, and it changes no
pointer or lowers the strain.  Of several nodes, the closed ring is the only one in which no call
changes a pointer, and more full rounds than the strain lead to it, after which no call changes a
pointer. -/
theorem repair_closes_ring (ready : net.Assembled founder ids) :
    (∀ handle node, net.nodeAt? handle = some node →
      (∃ after, net.Completes handle .stabilize after ∧
        after.endings[net.nextTask]? = some ⟨.nothing, .ok ()⟩) ∧
      ∀ after, net.Completes handle .stabilize after →
        after.Assembled founder ids ∧ (net.Unmoved after ∨ after.strain < net.strain)) ∧
    (2 ≤ ids.length →
      ((∀ handle node, net.nodeAt? handle = some node → ∀ after,
        net.Completes handle .stabilize after → net.Unmoved after) ↔ net.Closed ids) ∧
      ∀ rounds : List (List Handle), (∀ round ∈ rounds, net.Covers round) →
        net.strain < rounds.length →
        (∃ after, Calls founder net rounds.flatten after) ∧
        ∀ after, Calls founder net rounds.flatten after → after.Closed ids ∧
          ∀ more last, Calls founder after more last → after.Unmoved last) := by
  refine ⟨fun handle node found => ⟨?_, fun after completes => ?_⟩,
    fun several => ⟨⟨fun still => ?_, ?_⟩, fun rounds full enough => ?_⟩⟩
  · obtain ⟨after, hcompletes, hending, -⟩ := ready.completes found
    exact ⟨after, hcompletes, hending⟩
  · obtain ⟨hready, -, hcases⟩ := ready.call found completes
    exact ⟨hready, hcases.imp And.right And.right⟩
  · refine (ready.rests_iff_closed several).1 fun id hmem => ?_
    obtain ⟨handle, hid⟩ := (ready.census id).1 hmem
    obtain ⟨node, hfound, rfl⟩ := idAt?_eq_some.1 hid
    obtain ⟨after, hcompletes, -⟩ := ready.completes hfound
    obtain ⟨-, -, hcases⟩ := ready.call hfound hcompletes
    rcases hcases with ⟨hrests, -⟩ | ⟨-, hless⟩
    · exact hrests
    · rw [(still handle node hfound after hcompletes).strain] at hless
      exact absurd hless (Nat.lt_irrefl _)
  · intro closed handle node found after completes
    exact Calls.unmoved_of_closed (.call found completes Relation.ReflTransGen.refl
      (Unmoved.refl after) .done) ready several closed
  · refine ⟨Calls.exists_calls ready fun handle hmem => ?_, fun after calls => ?_⟩
    · obtain ⟨round, hround, hin⟩ := List.mem_flatten.1 hmem
      exact (full round hround handle).1 hin
    · have hclosed := calls.closed_of_rounds ready several full enough
      exact ⟨hclosed, fun more last later =>
        later.unmoved_of_closed (calls.cases ready).1 several hclosed⟩

/-- A ring that two nodes have joined, of which the founder knows the later one only. -/
def appendage : Network :=
  (((single.welcome 20).tell 1 (.join (Token.wrapping 10)) (List.replicate 10 1)).welcome 30).tell 2
    (.join (Token.wrapping 10)) (List.replicate 10 2)

theorem run_appendage : Run (oneFounder (Token.wrapping 10)) single appendage := by
  let second := (single.welcome 20).tell 1 (.join (Token.wrapping 10)) (List.replicate 10 1)
  have hsecond : (oneFounder (Token.wrapping 10)).Permits (single.welcome 20) 1
      (.join (Token.wrapping 10)) :=
    ⟨Token.wrapping 20, by decide, by decide, 1, by decide⟩
  have hthird : (oneFounder (Token.wrapping 10)).Permits (second.welcome 30) 2
      (.join (Token.wrapping 10)) :=
    ⟨Token.wrapping 30, by decide, by decide, 2, by decide⟩
  exact ((run_welcome trivial (by decide)).trans (run_tell hsecond (by decide))).trans
    ((run_welcome trivial (by decide)).trans (run_tell hthird (by decide)))

theorem assembled_appendage : appendage.Assembled (Token.wrapping 10)
    [Token.wrapping 10, Token.wrapping 20, Token.wrapping 30] where
  run := run_single.trans run_appendage
  ascending := by decide
  census id := by
    have hids : (List.range appendage.endpoints.size).filterMap appendage.idAt? =
        [Token.wrapping 10, Token.wrapping 20, Token.wrapping 30] := by decide
    rw [exists_idAt?_iff, hids]
  joined id hmem := by
    simp only [List.mem_cons, List.not_mem_nil, or_false] at hmem
    rcases hmem with rfl | rfl | rfl
    · exact ⟨Token.wrapping 10, 0, _, rfl, rfl, rfl⟩
    · exact ⟨Token.wrapping 10, 1, _, rfl, rfl, rfl⟩
    · exact ⟨Token.wrapping 10, 2, _, rfl, rfl, rfl⟩

/-- The ring is not closed yet, and enough rounds close it. -/
theorem appendage_closes :
    ¬ appendage.Closed [Token.wrapping 10, Token.wrapping 20, Token.wrapping 30] ∧
    ∃ rounds after, Calls (Token.wrapping 10) appendage (List.flatten rounds) after ∧
      after.Closed [Token.wrapping 10, Token.wrapping 20, Token.wrapping 30] := by
  obtain ⟨-, hseveral⟩ := repair_closes_ring assembled_appendage
  obtain ⟨-, hrounds⟩ := hseveral (by decide)
  let rounds := List.replicate (appendage.strain + 1) [0, 1, 2]
  have hfull : ∀ round ∈ rounds, appendage.Covers round := by
    intro round hmem handle
    rw [List.eq_of_mem_replicate hmem]
    constructor
    · intro hin
      simp only [List.mem_cons, List.not_mem_nil, or_false] at hin
      rcases hin with rfl | rfl | rfl <;> decide
    · intro hsome
      obtain ⟨id, hid⟩ := Option.isSome_iff_exists.1 hsome
      obtain ⟨node, hfound, -⟩ := idAt?_eq_some.1 hid
      have hsize : appendage.endpoints.size = 3 := by decide
      exact List.mem_range.2 (hsize ▸ lt_size_of_nodeAt? hfound)
  have henough : appendage.strain < rounds.length := by
    rw [List.length_replicate]
    exact Nat.lt_succ_self _
  obtain ⟨⟨after, hcalls⟩, hclosed⟩ := hrounds rounds hfull henough
  refine ⟨fun closed => ?_, rounds, after, hcalls, (hclosed after hcalls).1⟩
  -- the second node has no predecessor
  cases show (none : Option Token) = some _ from (closed 1 _ rfl).2

end RecordRing.Network
