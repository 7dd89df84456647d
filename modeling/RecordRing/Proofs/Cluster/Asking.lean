import RecordRing.Proofs.Cluster.Gathering
import RecordRing.Proofs.Ring.Circuit
import RecordRing.Proofs.Ring.Lookups

/-!
# Questions to a closed ring

Every node of a closed ring finds the owner of a key, unless the lookup gives up at the hop limit,
and lists all nodes.  The questions leave no trace but counters (`Cluster.Undisturbed`).
-/

namespace RecordRing

open Network

/-- Nothing in a cluster has changed but counters and the outcomes that are kept. -/
def Cluster.Undisturbed (cluster after : Cluster) : Prop :=
  ∃ mid, cluster.net.numbering.Same mid ∧ mid.Like after.net ∧
    after = { cluster with net := after.net }

namespace Trial

variable {cluster after : Cluster} {members : List Token} {id key : Token} {config : Config}
  {chart : Chart} {fails : Trouble → Prop}

/-- A lookup of a ring gives up: the hop limit is below the number of other nodes. -/
def GivesUp (config : Config) (members : List Token) (trouble : Trouble) : Prop :=
  (∃ key, trouble = .failed (.hopLimitExceeded key config.maxHops)) ∧
    config.maxHops < members.length - 1

/-- A lookup on a closed ring. -/
theorem lookUp_closed {net : Network} {handle : Handle} {node : Node} {number : Nat}
    (populated : net.Populated config members) (follows : net.Follows members chart)
    (distinct : members.Nodup) (closed : chart.Closed (inOrder members)) (mem : id ∈ members)
    (houses : net.Houses id handle node) (key : Token) :
    Achieves number net handle (node.lookUp net.surroundings key) fun outcome after =>
      net.Same after ∧ LookupEnds (inOrder members) key config.maxHops (members.length - 1)
        outcome := by
  have hring : net.SuccessorRing (inOrder members) := by
    refine (follows.congr fun id => mem_inOrder.1).successorRing populated
      (ascending_inOrder distinct) closed.succ fun id _ node hnode slot finger hfinger => ?_
    exact mem_inOrder.2 ((populated.regular id node hnode).fingers slot finger hfinger)
  obtain ⟨member, hserves, rfl⟩ := populated.serves houses
  have hlookup := lookUp_achieves hring populated.prompt (mem_inOrder.2 mem) hserves number key
  rwa [(populated.regular_of houses).config, length_inOrder] at hlookup

/-- The failure of a lookup on a closed ring. -/
theorem givesUp_of_lookupEnds {failure : Failure}
    (ends : LookupEnds (inOrder members) key config.maxHops (members.length - 1)
      (.error failure)) : GivesUp config members (.failed failure) := by
  obtain ⟨hends, henough⟩ := ends
  refine ⟨⟨key, ?_⟩, Nat.lt_of_not_le fun hle => ?_⟩
  · rcases hends with hok | herror
    · cases hok
    · cases herror
      rfl
  · cases henough hle

namespace Stands

theorem undisturbed (stands : Stands config members chart cluster)
    (undisturbed : cluster.Undisturbed after) : Stands config members chart after := by
  obtain ⟨mid, hsame, hlike, heq⟩ := undisturbed
  have hkept := (keeps_numbering cluster.net).trans hsame.keeps
  rw [heq]
  exact stands.of_like (hkept.populated stands.hosts.populated) (hkept.follows stands.follows)
    hsame.directory hlike

/-- Every node finds the owner of a key. -/
theorem ownerOf (stands : Stands config members chart cluster) (distinct : members.Nodup)
    (closed : chart.Closed (inOrder members)) (mem : id ∈ members) (key : Token) :
    Ends (Trial.ownerOf id key) cluster (fun owner after =>
      owner = RecordRing.ownerOf (inOrder members) key ∧ cluster.Undisturbed after)
      (GivesUp config members) := by
  have hkept := keeps_numbering cluster.net
  have hpopulated := hkept.populated stands.hosts.populated
  have hfollows := hkept.follows stands.follows
  refine stands.hosts.ask mem (fun outcome after => cluster.net.numbering.Same after ∧
    LookupEnds (inOrder members) key config.maxHops (members.length - 1) outcome)
      (fun handle node houses => lookUp_closed hpopulated hfollows distinct closed mem houses key)
      ?_ fun failure after h => givesUp_of_lookupEnds h.2
  rintro owner after left ⟨hsame, hends⟩ hlike
  refine ⟨?_, after, hsame, hlike, rfl⟩
  rcases hends.1 with hok | herror
  · cases hok
    rfl
  · cases herror

/-- A node lists the ring. -/
theorem ringMembers (stands : Stands config members chart cluster) (distinct : members.Nodup)
    (closed : chart.Closed (inOrder members)) (mem : id ∈ members) :
    Ends (ask id .ringMembers) cluster (fun ring after =>
      Circuit (inOrder members) id ring ∧ cluster.Undisturbed after) fails := by
  have hkept := keeps_numbering cluster.net
  have hpopulated := hkept.populated stands.hosts.populated
  have hfollows := hkept.follows stands.follows
  refine stands.hosts.ask mem (fun outcome after => cluster.net.numbering.Same after ∧
    ∃ ring, outcome = .ok ring ∧ Circuit (inOrder members) id ring)
      (fun handle node houses => ?_) ?_ ?_
  · exact ringMembers_achieves hpopulated (hfollows.congr fun id => mem_inOrder.1)
      (ascending_inOrder distinct) closed (fun id => mem_inOrder.1) houses (mem_inOrder.2 mem) _
  · rintro ring after left ⟨hsame, _, hring, hcircuit⟩ hlike
    cases hring
    exact ⟨hcircuit, after, hsame, hlike, rfl⟩
  · rintro failure after ⟨-, ring, hring, -⟩
    cases hring

end Stands

end Trial

end RecordRing
