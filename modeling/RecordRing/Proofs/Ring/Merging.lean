import Mathlib.Data.List.Nodup
import RecordRing.Proofs.Ring.Safety

/-!
# Merging without circular waits

A node that merges waits for the node from which it takes its records over, and that node may itself
be merging.  In a ring that grows from one founder the sources come ever nearer to the founder, which
is stable from the start (`Node.Settled`), so the waiting ends: no merging node waits for itself
(`Ring.not_transGen_merges`), no deferred report waits for itself (`Ring.not_transGen_waitsFor`),
and a call that falls back from merging node to merging node comes to an end
(`Ring.length_le_of_merges`).

## Implementation notes

Chains are measured by the distance to the founder, which shrinks from a merging node to its source.
A source is named by its identifier, and only the last one of a chain may belong to no node.
-/

namespace RecordRing

namespace Network

variable {net : Network} {founder a b : Token} {handle : Handle} {node : Node}

/-- A merging node takes its records over from another one. -/
def Merges (net : Network) (a b : Token) : Prop :=
  ∃ handle node, net.nodeAt? handle = some node ∧ node.id = a ∧ node.lifecycle = .merging ∧
    node.migrationSource = some b

/-- A node falls back on another one for the records that it misses. -/
def FallsBack (net : Network) (a b : Token) : Prop :=
  ∃ handle node, net.nodeAt? handle = some node ∧ node.id = a ∧ node.previousOwner = some b

/-- A node that is not stable puts its report to a requester off. -/
def Defers (net : Network) (a requester : Token) : Prop :=
  ∃ handle node, net.nodeAt? handle = some node ∧ node.id = a ∧ node.lifecycle ≠ .stable ∧
    requester ∈ node.pending

/-- A report that a merging node puts off waits for the report that the node's own source puts
off. -/
def WaitsFor (net : Network) (report other : Token × Token) : Prop :=
  net.Defers report.1 report.2 ∧ net.Merges report.1 other.1 ∧ other.2 = report.1 ∧
    net.Defers other.1 other.2

theorem FallsBack.merges (h : net.FallsBack a b) : net.Merges a b := by
  obtain ⟨handle, node, found, hid, hsource⟩ := h
  rw [Node.previousOwner] at hsource
  split at hsource
  · rename_i hmerging
    exact ⟨handle, node, found, hid, hmerging, (Option.filter_eq_some_iff.1 hsource).1⟩
  · cases hsource

theorem lt_size_of_idAt? (h : net.idAt? handle = some a) : handle < net.endpoints.size := by
  obtain ⟨node, found, -⟩ := idAt?_eq_some.1 h
  exact lt_size_of_nodeAt? found

/-- Distinct identifiers stand at distinct handles. -/
theorem length_le_of_nodup {ids : List Token} (distinct : ids.Nodup)
    (placed : ∀ id ∈ ids, ∃ handle, net.idAt? handle = some id) :
    ids.length ≤ net.endpoints.size := by
  have hsub : ids.map some ⊆ (List.range net.endpoints.size).map net.idAt? := by
    intro id hmem
    obtain ⟨a, ha, rfl⟩ := List.mem_map.1 hmem
    obtain ⟨handle, hhandle⟩ := placed a ha
    exact List.mem_map.2 ⟨handle, List.mem_range.2 (lt_size_of_idAt? hhandle), hhandle⟩
  have hnodup : (ids.map some).Nodup := distinct.map fun _ _ => Option.some.inj
  simpa using (List.subperm_of_subset hnodup hsub).length_le

namespace Ring

/-- A merging node is not the founder, and its source is nearer to the founder. -/
theorem gap_lt_of_merges (ring : net.Ring founder) (h : net.Merges a b) :
    a ≠ founder ∧ b.gap founder < a.gap founder := by
  obtain ⟨handle, node, found, rfl, hmerging, hsource⟩ := h
  have hsettled := ring.settled handle node found
  have hne : node.id ≠ founder := by
    intro hid
    by_cases hnext : node.successor = none
    · rw [hsettled.fresh hid hnext] at hmerging
      cases hmerging
    · rw [(hsettled.stable hid hnext).1] at hmerging
      cases hmerging
  obtain ⟨source, hfound, hless⟩ := hsettled.source hne (by rw [hmerging]; exact nofun)
  rw [hsource, Option.some.injEq] at hfound
  exact ⟨hne, hfound ▸ hless⟩

/-- The distance to the founder shrinks along a chain of merging nodes. -/
theorem pairwise_gap_of_merges (ring : net.Ring founder) {path : List Token}
    (chain : path.IsChain net.Merges) :
    path.Pairwise fun a b => b.gap founder < a.gap founder := by
  have htrans : IsTrans Token fun a b => b.gap founder < a.gap founder :=
    ⟨fun _ _ _ h h' => Nat.lt_trans h' h⟩
  exact (chain.imp fun _ _ h => (ring.gap_lt_of_merges h).2).pairwise

/-- A chain of merging nodes never comes back to a node. -/
theorem nodup_of_merges (ring : net.Ring founder) {path : List Token}
    (chain : path.IsChain net.Merges) : path.Nodup :=
  (ring.pairwise_gap_of_merges chain).imp fun h heq => by
    rw [heq] at h
    exact Nat.lt_irrefl _ h

/-- A chain of merging nodes ends after at most as many sources as there are nodes. -/
theorem length_le_of_merges (ring : net.Ring founder) {path : List Token}
    (chain : path.IsChain net.Merges) : path.length ≤ net.endpoints.size + 1 := by
  -- every identifier but the last belongs to a merging node
  have hplaced : ∀ {path : List Token}, path.IsChain net.Merges → ∀ id ∈ path.dropLast,
      ∃ handle, net.idAt? handle = some id := by
    intro path
    induction path with
    | nil => exact fun _ id hmem => absurd hmem List.not_mem_nil
    | cons first rest ih =>
        cases rest with
        | nil => exact fun _ id hmem => absurd hmem List.not_mem_nil
        | cons second rest =>
            intro hchain id hmem
            obtain ⟨hfirst, hrest⟩ := List.isChain_cons_cons.1 hchain
            rcases List.mem_cons.1 hmem with rfl | hmem
            · obtain ⟨handle, node, found, hid, -⟩ := hfirst
              exact ⟨handle, idAt?_eq_some.2 ⟨node, found, hid⟩⟩
            · exact ih hrest id hmem
  have hdistinct := (ring.nodup_of_merges chain).sublist (List.dropLast_sublist path)
  have hshort := length_le_of_nodup hdistinct (hplaced chain)
  rw [List.length_dropLast] at hshort
  omega

theorem not_transGen_merges (ring : net.Ring founder) (a : Token) :
    ¬ Relation.TransGen net.Merges a a := by
  have hless : ∀ {a b}, Relation.TransGen net.Merges a b → b.gap founder < a.gap founder := by
    intro a b h
    induction h with
    | single h => exact (ring.gap_lt_of_merges h).2
    | tail _ h ih => exact Nat.lt_trans (ring.gap_lt_of_merges h).2 ih
  exact fun h => Nat.lt_irrefl _ (hless h)

/-- No report that is put off waits, over any number of others, for itself. -/
theorem not_transGen_waitsFor (ring : net.Ring founder) (report : Token × Token) :
    ¬ Relation.TransGen net.WaitsFor report report := by
  intro h
  have hmerges : Relation.TransGen net.Merges report.1 report.1 :=
    h.lift Prod.fst fun _ _ hwaits => hwaits.2.1
  exact ring.not_transGen_merges _ hmerges

end Ring

/-- Throughout a run with one founder: the founder is stable without a source from the moment at
which it founds the ring, every other node that has left joining has a source nearer to the founder,
and so neither merging nodes nor the reports that they put off wait for themselves, and every chain
of nodes that fall back on one another is finite. -/
theorem merging_waits_end (run : Run (oneFounder founder) Network.empty net) :
    (∀ handle node, net.nodeAt? handle = some node → node.id = founder → node.successor ≠ none →
      node.lifecycle = .stable ∧ node.migrationSource = none) ∧
    (∀ handle node, net.nodeAt? handle = some node → node.id ≠ founder →
      node.lifecycle ≠ .joining → ∃ source, node.migrationSource = some source ∧
        source.gap founder < node.id.gap founder) ∧
    (∀ path : List Token, path.IsChain net.Merges → path.Nodup) ∧
    (∀ report, ¬ Relation.TransGen net.WaitsFor report report) ∧
    ∀ path : List Token, path.IsChain net.FallsBack →
      path.Nodup ∧ path.length ≤ net.endpoints.size + 1 := by
  have ring := ring_of_run run
  refine ⟨fun handle node found => (ring.settled handle node found).stable,
    fun handle node found => (ring.settled handle node found).source,
    fun path => ring.nodup_of_merges, ring.not_transGen_waitsFor, fun path chain => ?_⟩
  have hmerges : path.IsChain net.Merges := chain.imp fun _ _ h => h.merges
  exact ⟨ring.nodup_of_merges hmerges, ring.length_le_of_merges hmerges⟩

/-- The node that has joined the founder's ring merges from the founder, which is stable. -/
theorem pair_merges_from_founder :
    pair.Merges (Token.wrapping 20) (Token.wrapping 10) ∧
    (∃ node, pair.nodeAt? 0 = some node ∧ node.lifecycle = .stable ∧ node.migrationSource = none) ∧
    (Token.wrapping 10).gap (Token.wrapping 10) < (Token.wrapping 20).gap (Token.wrapping 10) ∧
    [Token.wrapping 20, Token.wrapping 10].Nodup := by
  obtain ⟨hfounder, hsource, hchain, -, -⟩ := merging_waits_end (run_single.trans run_pair)
  have hmerges : pair.Merges (Token.wrapping 20) (Token.wrapping 10) := ⟨1, _, rfl, rfl, rfl, rfl⟩
  refine ⟨hmerges, ⟨_, rfl, hfounder 0 _ rfl rfl nofun⟩, ?_,
    hchain _ (List.isChain_cons_cons.2 ⟨hmerges, .singleton _⟩)⟩
  obtain ⟨source, hfound, hless⟩ := hsource 1 _ rfl (by decide) nofun
  cases hfound
  exact hless

end Network

end RecordRing
