import RecordRing.Proofs.Ring.Chores
import RecordRing.Proofs.Ring.Lookups

/-!
# Rings that settle

A ring without records is tidy as long as its nodes maintain it, from the first node to the last
that has joined: whatever chart it follows, every operation of a node leads to a tidy ring again.

## Implementation notes

Nothing is said here about how long it takes until the ring is in order.
-/

namespace RecordRing.Network

variable {net after : Network} {config : Config} {members : List Token} {name : String}
  {id : Token} {operation : Operation .nothing} {handle : Handle}

/-- The operations of the nodes of a ring without records. -/
abbrev Plain (members : List Token) : Token → Operation .nothing → Prop :=
  Permits members (fun _ _ => True) fun _ => True

/-- The nodes of a ring without records follow some chart. -/
structure Bare (net : Network) (config : Config) (members : List Token) (name : String) :
    Prop where
  populated : net.Populated config members
  follows : ∃ chart, net.Follows members chart
  stocked : net.Stocked name fun _ => none

theorem Bare.congr (bare : net.Bare config members name) (keeps : net.Keeps after) :
    after.Bare config members name :=
  ⟨keeps.populated bare.populated, bare.follows.imp fun _ => keeps.follows,
    keeps.stocked bare.stocked⟩

/-- Every operation of a node comes to its end and leaves a ring without records. -/
theorem Bare.serves (bare : net.Bare config members name) (calm : net.Calm (Plain members))
    (included : config.isExcluded name = false) (listed : net.directory[id]? = some handle)
    (permits : Plain members id operation) (number : Nat) :
    ∃ node, net.nodeAt? handle = some node ∧
      Achieves number net handle (node.start net.surroundings operation) fun _ after =>
        after.Bare config members name ∧ after.Calm (Plain members) ∧
          ∀ requester, operation = .reportMoved requester →
            after.backlog handle ≤ net.backlog handle := by
  obtain ⟨chart, hfollows⟩ := bare.follows
  obtain ⟨node, houses⟩ := bare.populated.houses_of_listed listed
  have htidy : net.Tidy config members name (fun _ _ => True) (fun _ => True) chart
      fun _ => none := ⟨bare.populated, hfollows, bare.stocked, calm⟩
  have hbare {after : Network} {chart : Chart} (h : after.Tidy config members name
      (fun _ _ => True) (fun _ => True) chart fun _ => none) :
      after.Bare config members name ∧ after.Calm (Plain members) :=
    ⟨⟨h.populated, ⟨chart, h.follows⟩, h.stocked⟩, h.calm⟩
  refine ⟨node, houses.stands, ?_⟩
  cases operation with
  | serve request => exact permits.elim
  | found => exact permits.elim
  | join known => exact permits.elim
  | refreshFingers => exact permits.elim
  | attempt call => exact permits.elim
  | stabilize =>
      refine (htidy.stabilize houses number fun _ _ _ _ _ _ => trivial).weaken ?_
      exact fun _ after h => ⟨(hbare h.2).1, (hbare h.2).2, nofun⟩
  | fixFingers =>
      refine (htidy.fixFingers (fun _ outcome => ∀ owner, outcome = .ok owner → owner ∈ members)
        houses number (fun _ next h => h next rfl) ?_).weaken ?_
      · intro start node key hstart htunes _ hhouses
        exact lookUp_ends hstart (hfollows.tunes bare.populated htunes) hhouses number key
      · exact fun _ after h => ⟨(hbare h.2.2).1, (hbare h.2.2).2, nofun⟩
  | fixPredecessor =>
      refine (htidy.fixPredecessor houses number).weaken ?_
      rintro _ after rfl
      exact ⟨(hbare htidy).1, (hbare htidy).2, nofun⟩
  | askForRecords source =>
      obtain ⟨hmem, hother, -⟩ := permits
      refine (htidy.askForRecords houses number hmem hother trivial).weaken ?_
      exact fun _ after h => ⟨(hbare h.2).1, (hbare h.2).2, nofun⟩
  | migrateFor requester =>
      obtain ⟨hmem, hother, -⟩ := permits
      refine (htidy.migrateFor (fun _ => id) houses number included hmem hother
        (fun _ _ _ h => nomatch h) fun _ h => nomatch h).weaken ?_
      rintro _ after ⟨last, hdrifts, -, hafter⟩
      have hlast : last = fun _ => none := by
        funext key
        exact (hdrifts key).elim (fun h => h) fun h => nomatch h.1
      subst hlast
      have hends : after.Tidy config members name (fun _ _ => True) (fun _ => True) chart
          fun _ => none :=
        hafter.elim (fun h => h) fun h => h.2 _ (fun _ _ => trivial) trivial
      exact ⟨(hbare hends).1, (hbare hends).2, nofun⟩
  | reportMoved requester =>
      obtain ⟨hmem, hother, -⟩ := permits
      refine (htidy.reportMoved houses number hmem hother).weaken ?_
      rintro _ after ⟨-, hbacklog, hafter⟩
      exact ⟨(hbare hafter).1, (hbare hafter).2, fun _ _ => Nat.le_of_eq hbacklog⟩

/-- A ring without records that its nodes maintain, the same at all stages. -/
def settling {σ : Type} [Preorder σ] (config : Config) (members : List Token) (name : String)
    (included : config.isExcluded name = false) (directory : Std.TreeMap Token Handle) :
    Regime σ where
  allowed _ := Plain members
  holds _ net := net.Bare config members name ∧ net.directory = directory
  grows _ _ _ permits := permits
  numbered holds := holds.1.populated.numbered
  frame keeps holds := ⟨holds.1.congr keeps, keeps.directory.trans holds.2⟩
  serves number holds calm listed permits := by
    obtain ⟨node, hnode, hends⟩ := holds.1.serves calm included listed permits number
    refine ⟨node, hnode, hends.unmoved.weaken ?_⟩
    rintro _ after ⟨⟨hbare, hcalm, hbacklog⟩, hdirectory⟩
    exact ⟨_, le_refl _, ⟨hbare, hdirectory.trans holds.2⟩, hcalm, hbacklog⟩

end RecordRing.Network
