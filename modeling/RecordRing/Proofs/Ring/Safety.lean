import RecordRing.Proofs.Network.Moves
import RecordRing.Proofs.Ring.Turns

/-!
# Safety of a growing ring

One node founds a ring, and any number of others join it, possibly at the same time; no node leaves.
Joins, repairs and notifications overlap in any order and act on stale answers.  Still the successors
never skip a node, form a second ring or wind round twice: the walk along successors from the founder
returns to it in circular order (`Ring.exists_walk`), and a node that is on it stays on it
(`successors_form_ring`).
-/

namespace RecordRing

/-- Whether a request may come from a client; the others are sent by nodes only. -/
def Request.fromClient {shape : Shape} : Request shape → Bool
  | .notify _ => false
  | .migrationEnded _ => false
  | .requestMigration _ => false
  | _ => true

/-- The rules of a run with one founder: it alone founds a ring, and every other node is registered
before it joins. -/
def oneFounder (founder : Token) : Rules where
  Welcomes _ := True
  Permits net handle _ operation :=
    match operation with
    | .found => net.idAt? handle = some founder
    | .join _ => ∃ id, net.idAt? handle = some id ∧ id ≠ founder ∧ net.Registered id
    | .serve request => request.fromClient = true
    | _ => True

namespace Network

variable {founder : Token} {net after : Network} {a b c : Token}

/-- The identifiers on the walk along successors from the founder back to it, without the founder. -/
structure Walk (founder : Token) (net : Network) (walk : List Token) : Prop where
  linked : (founder :: walk ++ [founder]).IsChain net.Linked
  ascending : (founder :: walk).Pairwise fun a b => founder.gap a < founder.gap b

/-! ## The empty network -/

theorem idAt?_empty (handle : Handle) : Network.empty.idAt? handle = none := by
  simp [idAt?, nodeAt?, member?, Network.empty]

theorem ring_empty (founder : Token) : Network.empty.Ring founder := by
  have hnode : ∀ handle, Network.empty.nodeAt? handle = none := fun handle => by
    simp [nodeAt?, member?, Network.empty]
  have hlinked : ∀ a b, ¬ Network.empty.Linked a b := by
    rintro a b ⟨handle, node, hfound, -⟩
    rw [hnode] at hfound
    cases hfound
  refine ⟨fun handle => ?_, fun handle member h => ?_, ?_, ?_, ?_,
    fun a b h => absurd h (hlinked a b), fun a b h => absurd h (hlinked a b),
    fun a b h => absurd h (hlinked a b), ?_⟩
  · simp [script?, Network.empty]
  · simp [member?, Network.empty] at h
  · intro first second id h
    rw [idAt?_empty] at h
    cases h
  · intro id handle h
    simp [Network.empty] at h
  · intro handle node h
    rw [hnode] at h
    cases h
  · rintro a b ⟨handle, node, hfound, -⟩
    rw [hnode] at hfound
    cases hfound

theorem sound_empty (founder : Token) : (ringContract founder).Sound Network.empty := by
  refine ⟨ring_empty founder, fun number task h => ?_⟩
  simp [Network.empty] at h

theorem covers_oneFounder (founder : Token) : (ringContract founder).Covers (oneFounder founder) where
  attach ring fresh new _ := by
    obtain ⟨id, store, config, hfresh⟩ := fresh.fresh
    exact (ring.attach hfresh fresh.clear new).symm
  register ring found := (ring.register found).symm
  launch := by
    intro net handle shape operation _ permitted
    cases operation with
    | found => exact permitted
    | join known => exact permitted
    | serve request =>
        cases request with
        | notify candidate => cases permitted
        | _ => exact trivial
    | _ => exact trivial

/-- The ring holds throughout a run with one founder, and nothing is lost. -/
theorem ring_of_run (run : Run (oneFounder founder) Network.empty net) : net.Ring founder :=
  ((sound_empty founder).run (lawful_ringContract founder) (covers_oneFounder founder) run).1.holds

theorem grows_of_run (run : Run (oneFounder founder) Network.empty net)
    (more : Run (oneFounder founder) net after) : net.Grows founder after := by
  have hsound :=
    ((sound_empty founder).run (lawful_ringContract founder) (covers_oneFounder founder) run).1
  exact (hsound.run (lawful_ringContract founder) (covers_oneFounder founder) more).2.1

/-! ## The walk from the founder -/

/-- From every node the successors lead to the founder, nearer with each step. -/
theorem Ring.exists_path (ring : net.Ring founder) (joined : net.Joined a) (hne : a ≠ founder) :
    ∃ path, (a :: path ++ [founder]).IsChain net.Linked ∧
      (a :: path).Pairwise (fun x y => y.gap founder < x.gap founder) ∧
      founder ∉ a :: path := by
  induction hgap : a.gap founder using Nat.strongRecOn generalizing a with
  | ind gap ih =>
      subst hgap
      obtain ⟨b, hlinked⟩ := joined
      by_cases hb : b = founder
      · subst hb
        refine ⟨[], ?_, List.pairwise_singleton _ a, ?_⟩
        · exact List.isChain_cons_cons.2 ⟨hlinked, .singleton _⟩
        · simpa using hne.symm
      · have hless := ring.nearer a b hlinked hne
        obtain ⟨path, hchain, hnear, hpasses⟩ := ih _ hless (ring.joined a b hlinked) hb rfl
        refine ⟨b :: path, List.isChain_cons_cons.2 ⟨hlinked, hchain⟩,
          List.pairwise_cons.2 ⟨?_, hnear⟩, ?_⟩
        · intro c hc
          rcases List.mem_cons.1 hc with rfl | hrest
          · exact hless
          · exact Nat.lt_trans ((List.pairwise_cons.1 hnear).1 c hrest) hless
        · simpa [hne.symm] using hpasses

/-- The walk from the founder returns to it, in circular order. -/
theorem Ring.exists_walk (ring : net.Ring founder) (joined : net.Joined founder) :
    ∃ walk, net.Walk founder walk := by
  obtain ⟨first, hlinked⟩ := joined
  by_cases hfirst : first = founder
  · rw [hfirst] at hlinked
    exact ⟨[], List.isChain_cons_cons.2 ⟨hlinked, .singleton _⟩,
      List.pairwise_singleton _ founder⟩
  · obtain ⟨path, hchain, hnear, hpasses⟩ :=
      ring.exists_path (ring.joined _ _ hlinked) hfirst
    refine ⟨first :: path, List.isChain_cons_cons.2 ⟨hlinked, hchain⟩,
      List.pairwise_cons.2 ⟨?_, ?_⟩⟩
    · intro a ha
      rw [Token.gap_self]
      exact Token.gap_pos fun heq => hpasses (heq ▸ ha)
    · -- the farther from the founder clockwise, the nearer to it
      refine List.Pairwise.imp_of_mem ?_ hnear
      intro a b ha hb hless
      have hback_a := Token.gap_add_gap_back (a := founder) (b := a) fun heq => hpasses (heq ▸ ha)
      have hback_b := Token.gap_add_gap_back (a := founder) (b := b) fun heq => hpasses (heq ▸ hb)
      omega

/-- A chain of successors up to the founder passes every node to which its start leads. -/
theorem Ring.mem_of_leads (ring : net.Ring founder) {path : List Token}
    (chain : (c :: path ++ [founder]).IsChain net.Linked) (leads : net.Leads founder c a)
    (hne : a ≠ founder) : a ∈ path := by
  induction path generalizing c with
  | nil =>
      have hlast : net.Linked c founder := (List.isChain_cons_cons.1 chain).1
      cases leads with
      | link linked => exact absurd (ring.linked_inj linked hlast) hne
      | step linked passes rest => exact absurd (ring.linked_inj linked hlast) passes
  | cons next path ih =>
      obtain ⟨hfirst, hchain⟩ := List.isChain_cons_cons.1 chain
      cases leads with
      | link linked =>
          rw [ring.linked_inj linked hfirst]
          exact List.mem_cons_self ..
      | step linked passes rest =>
          rw [ring.linked_inj linked hfirst] at rest
          exact List.mem_cons_of_mem _ (ih hchain rest)

theorem leads_of_mem {path : List Token} (chain : (c :: path ++ [founder]).IsChain net.Linked)
    (passes : founder ∉ path) (mem : a ∈ path) : net.Leads founder c a := by
  induction path generalizing c with
  | nil => cases mem
  | cons next path ih =>
      obtain ⟨hfirst, hchain⟩ := List.isChain_cons_cons.1 chain
      obtain ⟨hnext, hpath⟩ := not_or.1 (mt List.mem_cons.2 passes)
      rcases List.mem_cons.1 mem with rfl | hrest
      · exact .link hfirst
      · exact .step hfirst (Ne.symm hnext) (ih hchain hpath hrest)

/-- A walk holds exactly the nodes to which the founder leads. -/
theorem Ring.mem_walk_iff (ring : net.Ring founder) {walk : List Token} (h : net.Walk founder walk) :
    a ∈ walk ↔ a ≠ founder ∧ net.Leads founder founder a := by
  have hpasses : founder ∉ walk := by
    intro hmem
    exact Nat.lt_irrefl _ ((List.pairwise_cons.1 h.ascending).1 founder hmem)
  constructor
  · intro hmem
    exact ⟨fun heq => hpasses (heq ▸ hmem), leads_of_mem h.linked hpasses hmem⟩
  · rintro ⟨hne, hleads⟩
    exact ring.mem_of_leads h.linked hleads hne

/-- Throughout a run with one founder: every other node has a successor that has joined and is
nearer to the founder; the walk from the founder returns to it in circular order; and a node on the
walk is on it for ever. -/
theorem successors_form_ring (run : Run (oneFounder founder) Network.empty net) :
    (∀ a b, net.Linked a b → a ≠ founder → net.Joined b ∧ b.gap founder < a.gap founder) ∧
    (net.Joined founder → ∃ walk, net.Walk founder walk) ∧
    ∀ walk, net.Walk founder walk → ∀ after, Run (oneFounder founder) net after →
      (∃ later, after.Walk founder later) ∧ ∀ later, after.Walk founder later → walk ⊆ later := by
  have ring := ring_of_run run
  refine ⟨?_, ring.exists_walk, ?_⟩
  · intro a b hlinked hne
    exact ⟨ring.joined a b hlinked, ring.nearer a b hlinked hne⟩
  · intro walk hwalk after more
    have hgrows := grows_of_run run more
    have hring := ring_of_run (Relation.ReflTransGen.trans run more)
    have hjoined : net.Joined founder := by
      cases walk with
      | nil => exact ⟨founder, (List.isChain_cons_cons.1 hwalk.linked).1⟩
      | cons first rest => exact ⟨first, (List.isChain_cons_cons.1 hwalk.linked).1⟩
    refine ⟨hring.exists_walk (hgrows.joined hjoined), ?_⟩
    intro later hlater a ha
    obtain ⟨hne, hleads⟩ := (ring.mem_walk_iff hwalk).1 ha
    exact (hring.mem_walk_iff hlater).2 ⟨hne, hgrows.leads _ _ hleads⟩

/-- A new node without records. -/
def newcomer (id : UInt64) : Member :=
  ⟨Node.fresh (Token.wrapping id) (Store.empty none) Config.standard, Link.clear, StoreDelay.zero,
    [], false⟩

/-- The network with one more node, which is registered. -/
def welcome (net : Network) (id : UInt64) : Network :=
  (net.attach (.member (newcomer id))).2.register (Token.wrapping id) net.endpoints.size

/-- The network after a member has been told to carry out an operation and tasks have taken steps. -/
def tell (net : Network) (handle : Handle) (operation : Operation .nothing) (numbers : List Nat) :
    Network :=
  (net.spawn (taskOf (.client []) handle operation)).steps numbers

theorem move_attach_newcomer {rules : Rules} {id : UInt64} (welcome : rules.Welcomes (newcomer id))
    (new : ∀ handle < net.endpoints.size, net.idAt? handle ≠ some (Token.wrapping id)) :
    Move rules net (net.attach (.member (newcomer id))).2 := by
  refine .attach ⟨⟨_, _, _, rfl⟩, rfl, rfl, rfl⟩ (fun handle node h hid => ?_) welcome
  exact new handle (lt_size_of_nodeAt? h) (idAt?_eq_some.2 ⟨node, h, hid⟩)

theorem move_register_newcomer (rules : Rules) (net : Network) (id : UInt64) :
    Move rules (net.attach (.member (newcomer id))).2 (net.welcome id) := by
  have hfound : (net.attach (.member (newcomer id))).2.nodeAt? net.endpoints.size =
      some (newcomer id).node := by
    rw [nodeAt?_attach, if_pos rfl]
  exact .register hfound

theorem run_welcome {rules : Rules} {id : UInt64} (welcome : rules.Welcomes (newcomer id))
    (new : ∀ handle < net.endpoints.size, net.idAt? handle ≠ some (Token.wrapping id)) :
    Run rules net (net.welcome id) :=
  (Relation.ReflTransGen.single (move_attach_newcomer welcome new)).tail
    (move_register_newcomer rules net id)

theorem run_tell {rules : Rules} {handle : Handle} {operation : Operation .nothing}
    {numbers : List Nat} (permitted : rules.Permits net handle operation)
    (orderly : (net.spawn (taskOf (.client []) handle operation)).isOrderly numbers = true) :
    Run rules net (net.tell handle operation numbers) :=
  Relation.ReflTransGen.head (.tell permitted) (run_steps rules orderly)

/-- A ring founded by one node. -/
def single : Network := (Network.empty.welcome 10).tell 0 .found [0, 0]

/-- The ring after a second node has joined it and the founder has adopted it. -/
def pair : Network :=
  ((single.welcome 20).tell 1 (.join (Token.wrapping 10)) (List.replicate 10 1)).tell 0 .stabilize
    (List.replicate 10 2)

theorem run_single : Run (oneFounder (Token.wrapping 10)) Network.empty single :=
  (run_welcome trivial fun _ h => absurd h (Nat.not_lt_zero _)).trans (run_tell rfl (by decide))

theorem run_pair : Run (oneFounder (Token.wrapping 10)) single pair := by
  have hjoin : (oneFounder (Token.wrapping 10)).Permits (single.welcome 20) 1
      (.join (Token.wrapping 10)) :=
    ⟨Token.wrapping 20, by decide, by decide, 1, by decide⟩
  exact (run_welcome trivial (by decide)).trans
    ((run_tell hjoin (by decide)).trans (run_tell trivial (by decide)))

/-- The founder and the node that joined it form a ring. -/
theorem pair_forms_ring : pair.Joined (Token.wrapping 20) ∧
    (Token.wrapping 10).gap (Token.wrapping 10) < (Token.wrapping 20).gap (Token.wrapping 10) ∧
    (∃ walk, single.Walk (Token.wrapping 10) walk) ∧
    ∃ walk, pair.Walk (Token.wrapping 10) walk := by
  obtain ⟨-, hwalk, hlater⟩ := successors_form_ring run_single
  obtain ⟨hnearer, -, -⟩ := successors_form_ring (run_single.trans run_pair)
  have hfounded : single.Joined (Token.wrapping 10) := ⟨Token.wrapping 10, 0, _, rfl, rfl, rfl⟩
  have hlinked : pair.Linked (Token.wrapping 20) (Token.wrapping 10) := ⟨1, _, rfl, rfl, rfl⟩
  obtain ⟨walk, h⟩ := hwalk hfounded
  exact ⟨⟨_, hlinked⟩, (hnearer _ _ hlinked (by decide)).2, ⟨walk, h⟩, (hlater walk h pair run_pair).1⟩

end Network

end RecordRing
