import RecordRing.Proofs.Cluster.Asking
import RecordRing.Proofs.Cluster.Building
import RecordRing.Proofs.Ring.Tuning

/-!
# The lookup command

The command builds a ring from named nodes, repairs it, and asks every node for the owner of a key.
The repair closes the ring, and from then on every lookup names the owner or gives up at the hop
limit. So the nodes never disagree, and with few enough nodes the command always reports the owner
(`lookup_reports_owner`).
-/

namespace RecordRing

open Network

namespace Trial

variable {cluster : Cluster} {members ids others : List Token} {founder id key : Token}
  {config : Config} {chart : Chart} {fails : Trouble → Prop}

/-! ## Repair -/

namespace Stands

/-- A refresh of the fingers leaves the chart as it is. -/
theorem refreshFingers (stands : Stands config members chart cluster) (distinct : members.Nodup)
    (closed : chart.Closed (inOrder members)) (mem : id ∈ members) :
    Ends (ask id .refreshFingers) cluster (fun _ after => Stands config members chart after)
      (GivesUp config members) := by
  have hkept := keeps_numbering cluster.net
  have hpopulated := hkept.populated stands.hosts.populated
  have hfollows := hkept.follows stands.follows
  refine stands.hosts.ask mem (cluster.net.numbering.TunesWell config members id fun key outcome =>
    LookupEnds (inOrder members) key config.maxHops (members.length - 1) outcome)
      (fun handle node houses => ?_) ?_ ?_
  · rw [Node.start]
    refine refresh_achieves (fun key next hends => ?_) _ hpopulated houses
      fun key hstart htunes _ hhouses => ?_
    · rcases hends.1 with hok | herror
      · cases hok
        exact mem_inOrder.1 (ownerOf_mem (mem_inOrder.2 mem) key)
      · cases herror
    · exact lookUp_closed hstart (hfollows.tunes hpopulated htunes) distinct closed mem hhouses key
  · rintro _ after left ⟨hafter, htunes, -⟩ hlike
    exact stands.of_like hafter (hfollows.tunes hpopulated htunes) htunes.directory hlike
  · rintro failure after ⟨-, -, -, hends⟩
    rcases hends with hok | ⟨key, other, hends, herror⟩
    · cases hok
    · cases herror
      exact givesUp_of_lookupEnds hends

end Stands

/-- Repair of a ring that has just been built closes it, unless a lookup gives up. -/
theorem repair_ends (stands : Stands config (founder :: others) (.gathered founder others) cluster)
    (distinct : (founder :: others).Nodup) {count : Nat} (enough : others.length ≤ count) :
    Ends (repair (founder :: others) count) cluster (fun _ after => ∃ chart : Chart,
      chart.Closed (inOrder (founder :: others)) ∧ Stands config (founder :: others) chart after)
      (GivesUp config (founder :: others)) := by
  refine .bind ((stands.rounds count).imp fun _ repaired hrepaired => ?_)
  have hclosed := closed_rounds_gathered distinct count enough
  refine (Ends.forM (fun _ after => Stands config (founder :: others) _ after) hrepaired ?_).imp
    fun _ after hafter => ⟨_, hclosed, hafter⟩
  intro done id rest cluster hmembers hstands
  exact hstands.refreshFingers distinct hclosed
    (hmembers ▸ List.mem_append_right _ (List.mem_cons_self ..))

/-! ## The command -/

/-- What the command comes to on named nodes. -/
theorem lookup_ends (key : String) {others : Nat} (distinct : (nodeIds (others + 1)).Nodup) :
    Ends (lookup key (others + 1)) Cluster.empty (fun report _ => report.key = key ∧
      report.token = Token.ofKey key ∧
      report.owner = RecordRing.ownerOf (inOrder (nodeIds (others + 1))) (Token.ofKey key) ∧
      Circuit (nodeIds (others + 1)) (nodeId 0) report.ring)
      (GivesUp Config.standard (nodeIds (others + 1))) := by
  refine .bind ((build_ends Config.standard distinct).imp ?_)
  rintro _ built ⟨rfl, hbuilt⟩
  rw [nodeIds_succ] at distinct ⊢
  have hlength : ((List.range others).map fun number => nodeId (number + 1)).length ≤
      others + 1 + 1 := by
    rw [List.length_map, List.length_range]
    omega
  refine .bind ((repair_ends hbuilt distinct hlength).imp ?_)
  rintro _ repaired ⟨chart, hclosed, hrepaired⟩
  have hfounder :
      nodeId 0 ∈ nodeId 0 :: (List.range others).map fun number => nodeId (number + 1) :=
    List.mem_cons_self ..
  refine .bind ((hrepaired.ownerOf distinct hclosed hfounder (Token.ofKey key)).imp ?_)
  rintro owner found ⟨rfl, hfound⟩
  refine .bind ((Ends.forM (fun _ after => Stands Config.standard _ chart after)
    (hrepaired.undisturbed hfound) ?_).imp fun _ asked hasked => ?_)
  · intro done id rest cluster hmembers hstands
    have hid := hmembers ▸ List.mem_append_right done (List.mem_cons_self : id ∈ id :: rest)
    refine .bind ((hstands.ownerOf distinct hclosed hid (Token.ofKey key)).imp ?_)
    rintro seen after ⟨rfl, hafter⟩
    rw [if_neg (not_not_intro rfl)]
    exact .pure (hstands.undisturbed hafter)
  · refine .bind ((hasked.ringMembers distinct hclosed hfounder).imp ?_)
    rintro ring after ⟨hring, -⟩
    exact .pure ⟨rfl, rfl, rfl, hring.perm.trans (List.mergeSort_perm ..), hring.clockwise⟩

end Trial

open Trial

/-- Whatever the key, and for any number of nodes whose names lead to different identifiers: the
command reports the owner of the key, the first identifier at the key or after it, and all nodes
once each, clockwise from the founder; or a lookup on the way has given up at the hop limit.  It
ends in no other way, so the nodes never disagree.  With at most 127 nodes no lookup gives up. -/
theorem lookup_reports_owner (key : String) (nodes : Nat) (some_nodes : 1 ≤ nodes)
    (distinct : (nodeIds nodes).Nodup) :
    ((∃ ring, (Command.lookup key nodes).run = .ok (.lookup ⟨key, Token.ofKey key,
          ownerOf (inOrder (nodeIds nodes)) (Token.ofKey key), ring⟩) ∧
        Circuit (nodeIds nodes) (nodeId 0) ring) ∨
      ∃ target, (Command.lookup key nodes).run =
        .error (.failed (.hopLimitExceeded target Config.standard.maxHops))) ∧
    (nodes ≤ 127 → ∃ report, (Command.lookup key nodes).run = .ok report) := by
  obtain ⟨others, rfl⟩ : ∃ others, nodes = others + 1 := ⟨nodes - 1, by omega⟩
  have hends := lookup_ends key distinct
  have hrun : (Command.lookup key (others + 1)).run = Prod.fst <$>
      (CommandReport.lookup <$> Trial.lookup key (others + 1)).run Cluster.empty := rfl
  rw [StateT.run_map] at hrun
  rw [Ends] at hends
  split at hends
  · rename_i report after hreport
    obtain ⟨hkey, htoken, howner, hcircuit⟩ := hends
    rw [hreport] at hrun
    subst hkey
    have hsame : (Command.lookup report.key (others + 1)).run =
        .ok (.lookup ⟨report.key, Token.ofKey report.key,
          ownerOf (inOrder (nodeIds (others + 1))) (Token.ofKey report.key), report.ring⟩) := by
      rw [hrun, ← howner, ← htoken]
      rfl
    exact ⟨Or.inl ⟨report.ring, hsame, hcircuit⟩, fun _ => ⟨_, hsame⟩⟩
  · rename_i trouble hreport
    obtain ⟨⟨target, rfl⟩, hmany⟩ := hends
    rw [hreport] at hrun
    refine ⟨Or.inr ⟨target, hrun⟩, fun hfew => absurd hmany ?_⟩
    rw [nodeIds, List.length_map, List.length_range]
    exact Nat.not_lt_of_le (show others + 1 - 1 ≤ 126 by omega)

/-- The names of the first three nodes lead to different identifiers. -/
theorem lookup_reports_owner_three : 1 ≤ 3 ∧ (nodeIds 3).Nodup ∧
    ((∃ ring, (Command.lookup "alpha" 3).run = .ok (.lookup ⟨"alpha", Token.ofKey "alpha",
          ownerOf (inOrder (nodeIds 3)) (Token.ofKey "alpha"), ring⟩) ∧
        Circuit (nodeIds 3) (nodeId 0) ring) ∨
      ∃ target, (Command.lookup "alpha" 3).run =
        .error (.failed (.hopLimitExceeded target Config.standard.maxHops))) ∧
    (3 ≤ 127 → ∃ report, (Command.lookup "alpha" 3).run = .ok report) := by
  have hdistinct : (nodeIds 3).Nodup := by decide +kernel
  exact ⟨by decide, hdistinct, lookup_reports_owner "alpha" 3 (by decide) hdistinct⟩

end RecordRing
