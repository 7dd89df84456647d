import RecordRing.Proofs.Ring.Chores
import RecordRing.Proofs.Ring.Lookups
import RecordRing.Proofs.Ring.Skipping

/-!
# Latecomers

A node joins a ring in which records are kept.  The ring takes it in by three phases (`Phase`): the
node before it finds it, the node after it hands over its records, and then every record is at its
owner.  Whatever the nodes do on their own meanwhile, no record is lost or doubled, and the ring
never falls back (`Arrival.taking`).

## Implementation notes

The latecomer is stable at the last phase only (`Arrival.Fits`), so that the phase can be read off
its lifecycle.
-/

namespace RecordRing

open Network

namespace Node

variable {node : Node} {source candidate : Token}

/-- A node that has joined comes no further when it is told of another one. -/
theorem lifecycle_notified (joined : node.lifecycle ≠ .joining) (candidate : Token) :
    (node.notified candidate).1.lifecycle = node.lifecycle := by
  rw [notified]
  split
  · rw [beginMerge]
    split
    · rename_i hjoining _
      exact absurd hjoining joined
    · rfl
  · rfl

/-- A node that knows another one after itself begins to merge. -/
theorem merging_beginMerge (joining : node.lifecycle = .joining)
    (next : node.successor = some source) (company : source ≠ node.id) :
    node.beginMerge.1.lifecycle = .merging := by
  rw [beginMerge]
  simp only [joining, next]
  rw [if_neg company]

/-- A node that is told of its first predecessor merges. -/
theorem merging_notified (first : node.predecessor = none) (next : node.successor = some source)
    (company : source ≠ node.id) (other : candidate ≠ node.id)
    (unsettled : node.lifecycle ≠ .stable) :
    (node.notified candidate).1.lifecycle = .merging := by
  cases hlifecycle : node.lifecycle with
  | joining =>
      have hcloser : node.isCloser candidate = true := by rw [isCloser, first]
      rw [notified, if_pos ⟨other, hcloser⟩]
      exact merging_beginMerge hlifecycle next company
  | merging =>
      have hother : node.lifecycle ≠ .joining := fun hjoining => by
        cases hlifecycle.symm.trans hjoining
      rw [lifecycle_notified hother, hlifecycle]
  | stable => exact absurd hlifecycle unsettled

end Node

/-! ## Phases -/

/-- How far a ring has taken a latecomer in. -/
inductive Phase where
  /-- The node before the latecomer has not found it yet. -/
  | outside
  /-- The ring is closed, and the latecomer waits for its records. -/
  | inside
  /-- Every record is at its owner. -/
  | placed

namespace Phase

/-- The number of a phase. -/
def rank : Phase → Nat
  | outside => 0
  | inside => 1
  | placed => 2

instance : Preorder Phase := Preorder.lift rank

end Phase

/-- A node joins a ring whose nodes keep records in one storage. -/
structure Arrival where
  /-- The tunables of all nodes. -/
  config : Config
  /-- The identifiers of all nodes. -/
  ids : List Token
  /-- The identifier of the latecomer. -/
  late : Token
  /-- The storage. -/
  name : String
  /-- The keys of the records. -/
  keys : List Token
  ascending : Ascending ids
  mem : late ∈ ids
  company : ∃ id ∈ ids, id ≠ late
  included : config.isExcluded name = false

namespace Arrival

variable (arrival : Arrival)

/-- The node after the latecomer, which has kept its records. -/
def next : Token := nextOf arrival.ids arrival.late

/-- The ring at a phase. -/
def ring : Phase → List Token
  | .outside => arrival.ids.erase arrival.late
  | _ => arrival.ids

/-- The chart of the nodes at a phase. -/
def Charts : Phase → Chart → Prop
  | .outside, chart => chart.Skips arrival.ids arrival.late
  | _, chart => chart.Closed arrival.ids

/-- Where the record of a key may be kept at a phase: at its owner without the latecomer until the
latecomer is inside, at its owner in the end, and at either in between. -/
def Places : Phase → Token → Token → Prop
  | .outside, key, id => id = ownerOf (arrival.ids.erase arrival.late) key
  | .inside, key, id =>
    id = ownerOf (arrival.ids.erase arrival.late) key ∨ id = ownerOf arrival.ids key
  | .placed, key, id => id = ownerOf arrival.ids key

/-- The state of a node at a phase.  Only the latecomer waits for a predecessor, nobody else knows
it while it is outside, and it is not stable before all its records have arrived. -/
structure Fits (phase : Phase) (id : Token) (node : Node) : Prop where
  joins : node.lifecycle = .joining → id = arrival.late ∧ phase = .outside
  waits : id = arrival.late → node.lifecycle = .stable → phase = .placed
  knows : id ≠ arrival.late → phase = .outside → ∀ slot,
    node.fingers.get slot ≠ some arrival.late

/-- Who may ask whom for records at a phase: the latecomer asks the node after it, when it is
inside. -/
def passes (phase : Phase) (source id : Token) : Prop :=
  id = arrival.late → source = arrival.next ∧ .inside ≤ phase

/-- Who may be told that records have arrived at a phase: the latecomer is told when all have. -/
def reports (phase : Phase) (id : Token) : Prop := id = arrival.late → .placed ≤ phase

/-- The operations that are permitted at a phase. -/
def allowed (phase : Phase) : Token → Operation .nothing → Prop :=
  Permits arrival.ids (arrival.passes phase) (arrival.reports phase)

/-- The nodes are as far as a phase says. -/
structure Takes (phase : Phase) (chart : Chart) (net : Network) : Prop where
  populated : net.Populated arrival.config arrival.ids
  follows : net.Follows arrival.ids chart
  charts : arrival.Charts phase chart
  fits : ∀ id node, net.resident? id = some node → arrival.Fits phase id node

/-- The records of all keys are where they may be at a phase. -/
structure Stores (phase : Phase) (holder : Token → Option Token) : Prop where
  places : ∀ key id, holder key = some id → arrival.Places phase key id
  filled : ∀ key, (holder key).isSome = true ↔ key ∈ arrival.keys

/-- What holds at a phase. -/
def Holds (phase : Phase) (net : Network) : Prop :=
  ∃ chart holder, arrival.Takes phase chart net ∧ net.Stocked arrival.name holder ∧
    arrival.Stores phase holder

/-- The nodes are at rest at a phase or a later one. -/
def Goes (phase : Phase) (after : Network) : Prop :=
  ∃ later, phase ≤ later ∧ arrival.Holds later after ∧ after.Calm (arrival.allowed later)

variable {arrival} {phase : Phase} {chart : Chart} {net after : Network}
  {holder last : Token → Option Token} {id key other : Token} {node new : Node} {handle : Handle}
  {number : Nat}

/-! ## Owners -/

theorem next_ne (arrival : Arrival) : arrival.next ≠ arrival.late := by
  obtain ⟨id, hid, hother⟩ := arrival.company
  exact nextOf_ne arrival.ascending hid hother

theorem next_mem (arrival : Arrival) : arrival.next ∈ arrival.ids := nextOf_mem arrival.mem _

theorem mem_of_ring (mem : id ∈ arrival.ring phase) : id ∈ arrival.ids := by
  cases phase with
  | outside => exact List.mem_of_mem_erase mem
  | inside => exact mem
  | placed => exact mem

theorem mem_ring_of_ne (mem : id ∈ arrival.ids) (other : id ≠ arrival.late) (phase : Phase) :
    id ∈ arrival.ring phase := by
  cases phase with
  | outside => exact (mem_erase_iff arrival.ascending).2 ⟨other, mem⟩
  | inside => exact mem
  | placed => exact mem

theorem late_not_mem_ring : arrival.late ∉ arrival.ring .outside := fun hmem =>
  ((mem_erase_iff arrival.ascending).1 hmem).1 rfl

theorem ascending_ring (arrival : Arrival) (phase : Phase) : Ascending (arrival.ring phase) := by
  cases phase with
  | outside => exact arrival.ascending.erase arrival.late
  | inside => exact arrival.ascending
  | placed => exact arrival.ascending

theorem ownerOf_mem_ring (arrival : Arrival) (phase : Phase) (key : Token) :
    ownerOf (arrival.ring phase) key ∈ arrival.ring phase :=
  ownerOf_mem (mem_ring_of_ne arrival.next_mem arrival.next_ne phase) key

theorem ownerOf_erase_late (arrival : Arrival) (key : Token) :
    ownerOf (arrival.ids.erase arrival.late) key =
      if ownerOf arrival.ids key = arrival.late then arrival.next else ownerOf arrival.ids key := by
  obtain ⟨id, hid, hother⟩ := arrival.company
  exact ownerOf_erase arrival.ascending arrival.mem hid hother key

/-- A record may be at the owner of its key. -/
theorem places_owner (arrival : Arrival) (phase : Phase) (key : Token) :
    arrival.Places phase key (ownerOf (arrival.ring phase) key) := by
  cases phase with
  | outside => rfl
  | inside => exact Or.inr rfl
  | placed => rfl

/-- Who keeps a record is on the ring. -/
theorem mem_ring_of_places (places : arrival.Places phase key id) : id ∈ arrival.ring phase := by
  cases phase with
  | outside => exact places ▸ arrival.ownerOf_mem_ring .outside key
  | inside =>
      rcases places with rfl | rfl
      · exact mem_of_ring (arrival.ownerOf_mem_ring .outside key)
      · exact arrival.ownerOf_mem_ring .inside key
  | placed => exact places ▸ arrival.ownerOf_mem_ring .placed key

namespace Stores

/-- Some records have moved to their owners. -/
theorem drifts (stores : arrival.Stores phase holder)
    (drifts : Drifts (ownerOf (arrival.ring phase)) id holder last) :
    arrival.Stores phase last where
  places key other hlast := by
    rcases drifts key with hsame | ⟨-, hmoved⟩
    · exact stores.places key other (hsame.symm.trans hlast)
    · obtain rfl := Option.some.inj (hmoved.symm.trans hlast)
      exact arrival.places_owner phase key
  filled key := by
    rw [← stores.filled key]
    rcases drifts key with hsame | ⟨hheld, hmoved⟩
    · rw [hsame]
    · rw [hheld, hmoved]
      rfl

/-- When the node after the latecomer has handed everything over, every record is at its owner. -/
theorem placed (stores : arrival.Stores phase holder) (entered : .inside ≤ phase)
    (settled : ∀ key, holder key = some arrival.next → ownerOf arrival.ids key = arrival.next) :
    arrival.Stores .placed holder where
  places key id hheld := by
    have hplaces := stores.places key id hheld
    cases phase with
    | outside => cases entered
    | inside =>
        rcases hplaces with hbefore | howner
        · rw [arrival.ownerOf_erase_late] at hbefore
          split at hbefore
          · exact hbefore.trans (settled key (hbefore ▸ hheld)).symm
          · exact hbefore
        · exact howner
    | placed => exact hplaces
  filled := stores.filled

end Stores

/-! ## The nodes at a phase -/

theorem Fits.congr (fits : arrival.Fits phase id node) (lifecycle : new.lifecycle = node.lifecycle)
    (fingers : new.fingers = node.fingers) : arrival.Fits phase id new where
  joins joining := fits.joins (lifecycle ▸ joining)
  waits late stable := fits.waits late (lifecycle ▸ stable)
  knows other outside slot := fingers ▸ fits.knows other outside slot

/-- Every node that has come inside has joined. -/
theorem Fits.joined (fits : arrival.Fits phase id node) (mem : id ∈ arrival.ring phase) :
    node.lifecycle ≠ .joining := by
  intro hjoining
  obtain ⟨rfl, rfl⟩ := fits.joins hjoining
  exact late_not_mem_ring mem

namespace Takes

section Lookups

variable (takes : arrival.Takes phase chart net)
include takes

/-- Every node of the ring knows the next one. -/
theorem succ (mem : id ∈ arrival.ring phase) : chart.succ id = nextOf (arrival.ring phase) id := by
  have hcharts := takes.charts
  cases phase with
  | outside => exact hcharts.succ_erase arrival.ascending arrival.mem mem
  | inside => exact hcharts.succ id mem
  | placed => exact hcharts.succ id mem

/-- The nodes of the ring know no others. -/
theorem knows (mem : id ∈ arrival.ring phase) (found : net.resident? id = some node)
    {slot : Fin keyBits} {finger : Token} (holds : node.fingers.get slot = some finger) :
    finger ∈ arrival.ring phase := by
  have hmem := (takes.populated.regular id node found).fingers slot finger holds
  by_cases hlate : finger = arrival.late
  · cases phase with
    | outside =>
        have hother : id ≠ arrival.late := fun h => late_not_mem_ring (h ▸ mem)
        exact absurd (hlate ▸ holds) ((takes.fits id node found).knows hother rfl slot)
    | inside => exact hmem
    | placed => exact hmem
  · exact mem_ring_of_ne hmem hlate phase

theorem successorRing : net.SuccessorRing (arrival.ring phase) :=
  (takes.follows.congr fun _ => mem_of_ring).successorRing takes.populated
    (arrival.ascending_ring phase) (fun _ => takes.succ) fun _ hid _ hnode _ _ hfinger =>
      takes.knows hid hnode hfinger

/-- A lookup on the ring names the owner or fails. -/
theorem lookUp (houses : net.Houses id handle node) (mem : id ∈ arrival.ring phase) (number : Nat)
    (key : Token) :
    Achieves number net handle (node.lookUp net.surroundings key) fun outcome after =>
      net.Same after ∧ (outcome = .ok (ownerOf (arrival.ring phase) key) ∨
        ∃ failure, outcome = .error failure) := by
  obtain ⟨member, hserves, rfl⟩ := takes.populated.serves houses
  refine (lookUp_achieves takes.successorRing takes.populated.prompt mem hserves number key).weaken
    fun outcome after h => ⟨h.1, ?_⟩
  exact h.2.1.imp_right fun herror => ⟨_, herror⟩

end Lookups

/-- Nothing has changed but what does not matter. -/
theorem abides (takes : arrival.Takes phase chart net)
    (populated : after.Populated arrival.config arrival.ids)
    (follows : after.Follows arrival.ids chart) (abides : net.Abides after) :
    arrival.Takes phase chart after where
  populated := populated
  follows := follows
  charts := takes.charts
  fits id later found := by
    obtain ⟨node, hnode, hlifecycle, hfingers⟩ := abides id later found
    exact (takes.fits id node hnode).congr hlifecycle hfingers

theorem keeps (takes : arrival.Takes phase chart net) (keeps : net.Keeps after) :
    arrival.Takes phase chart after :=
  takes.abides (keeps.populated takes.populated) (keeps.follows takes.follows) keeps.abides

theorem hauled (takes : arrival.Takes phase chart net) (same : net.Matches after) :
    arrival.Takes phase chart after :=
  takes.abides (same.populated takes.populated) (same.follows takes.follows) same.abides

/-- The slots of a node hold what they held or nodes that may be known. -/
theorem tunes {answers : Token → Outcome .id → Prop} (takes : arrival.Takes phase chart net)
    (tunes : net.Tunes id after) (learns : net.Learns id answers after)
    (populated : after.Populated arrival.config arrival.ids)
    (names : ∀ key owner, answers key (.ok owner) → id ∈ arrival.ring phase →
      owner ∈ arrival.ring phase) : arrival.Takes phase chart after where
  populated := populated
  follows := takes.follows.tunes takes.populated tunes
  charts := takes.charts
  fits other later found := by
    obtain ⟨node, fingers, cursor, hnode, -, hresident⟩ := tunes.resident? takes.populated other
    by_cases heq : other = id
    · subst heq
      rw [hresident, if_pos rfl, Option.some.injEq] at found
      have hfits := takes.fits other node hnode
      subst found
      refine ⟨hfits.joins, hfits.waits, fun hother houtside slot hfinger => ?_⟩
      have hring := mem_ring_of_ne (takes.populated.mem (resident?_eq_some.1 hnode).choose_spec)
        hother phase
      have hlater : after.resident? other = some (node.tuned fingers cursor) := by
        rw [hresident, if_pos rfl]
      obtain ⟨before, hbefore, hlearns⟩ := learns _ hlater
      obtain rfl := Option.some.inj (hnode.symm.trans hbefore)
      rcases hlearns slot _ hfinger with hold | ⟨key, hnew⟩
      · exact hfits.knows hother houtside slot hold
      · exact late_not_mem_ring (houtside ▸ names key _ hnew hring)
    · rw [hresident, if_neg heq] at found
      exact takes.fits other later found

/-! ### Successor repair -/

/-- A node that is not the one before the latecomer, or any node later, does not find the
latecomer. -/
theorem target_ne (takes : arrival.Takes phase chart net) (mem : id ∈ arrival.ids)
    (other : phase = .outside → id ≠ previousOf arrival.ids arrival.late)
    (outside : phase = .outside) : chart.target id ≠ arrival.late := by
  subst outside
  have hskips : chart.Skips arrival.ids arrival.late := takes.charts
  obtain ⟨c, hc, hcompany⟩ := arrival.company
  rw [hskips.target_of_ne arrival.ascending arrival.mem hc hcompany mem (other rfl)]
  intro hnext
  exact other rfl (hnext ▸ (previousOf_nextOf arrival.ascending mem).symm)

/-- A repair that does not find the latecomer leaves the phase as it is. -/
theorem repairs (takes : arrival.Takes phase chart net) (mem : id ∈ arrival.ids)
    (repairs : net.Repairs id after)
    (other : phase = .outside → id ≠ previousOf arrival.ids arrival.late) :
    arrival.Takes phase (chart.repaired id) after := by
  obtain ⟨hpopulated, hfollows⟩ := takes.follows.repairs takes.populated mem repairs
  have hcharts := takes.charts
  have hapart := takes.target_ne mem other
  obtain ⟨c, hc, hcompany⟩ := arrival.company
  refine ⟨hpopulated, hfollows, ?_, fun peer later found => ?_⟩
  · cases phase with
    | outside =>
        have hskips : chart.Skips arrival.ids arrival.late := hcharts
        rwa [hskips.repaired_of_ne arrival.ascending arrival.mem hc hcompany mem (other rfl)]
    | inside => exact hcharts.repaired arrival.ascending mem
    | placed => exact hcharts.repaired arrival.ascending mem
  · obtain ⟨node, hnode, hlifecycle, hfingers⟩ :=
      takes.follows.origin_repairs takes.populated repairs found
    have hfits := takes.fits peer node hnode
    have hsame : later.lifecycle = node.lifecycle := by
      rcases hlifecycle with hsame | ⟨rfl, htold⟩
      · exact hsame
      · refine htold.trans (Node.lifecycle_notified (fun hjoining => ?_) id)
        obtain ⟨hlate, houtside⟩ := hfits.joins hjoining
        exact hapart houtside hlate
    refine ⟨fun h => hfits.joins (hsame ▸ h), fun hlate h => hfits.waits hlate (hsame ▸ h),
      fun hpeer houtside slot hfinger => ?_⟩
    rcases hfingers slot _ hfinger with hold | ⟨-, hnew⟩
    · exact hfits.knows hpeer houtside slot hold
    · exact hapart houtside hnew.symm

/-- The repair of the node before the latecomer takes it in. -/
theorem enters (takes : arrival.Takes .outside chart net)
    (repairs : net.Repairs (previousOf arrival.ids arrival.late) after) :
    arrival.Takes .inside (chart.repaired (previousOf arrival.ids arrival.late)) after := by
  obtain ⟨c, hc, hcompany⟩ := arrival.company
  have hmem := previousOf_mem arrival.mem arrival.late
  have hskips : chart.Skips arrival.ids arrival.late := takes.charts
  have htarget := hskips.target_previous arrival.ascending arrival.mem hc hcompany
  obtain ⟨hpopulated, hfollows⟩ := takes.follows.repairs takes.populated hmem repairs
  have hne := previousOf_ne arrival.ascending hc hcompany
  -- the latecomer, which knows the node after it and has not been told of one before, merges
  have hmerges (later : Node) (found : after.resident? arrival.late = some later) :
      later.lifecycle = .merging := by
    obtain ⟨-, htold, -⟩ := takes.follows.resident?_repairs takes.populated repairs
    rw [htarget] at htold
    obtain ⟨late, hlate, hafter⟩ := htold (Ne.symm hne)
    obtain rfl := Option.some.inj (hafter.symm.trans found)
    obtain ⟨handle, houses⟩ := resident?_eq_some.1 hlate
    have hid := takes.populated.id_eq houses
    obtain ⟨hsucc, hpred⟩ := takes.follows.of_houses arrival.mem houses
    rw [hskips.succ _ arrival.mem, if_neg (Ne.symm hne)] at hsucc
    rw [hskips.pred _ arrival.mem, if_pos rfl] at hpred
    refine Node.merging_notified hpred hsucc (arrival.next_ne.trans_eq hid.symm)
      (hne.trans_eq hid.symm) fun hstable => ?_
    cases (takes.fits _ late hlate).waits rfl hstable
  refine ⟨hpopulated, hfollows,
    hskips.repaired_previous arrival.ascending arrival.mem hc hcompany, fun peer later found => ?_⟩
  by_cases hlate : peer = arrival.late
  · have hmerging := hmerges later (hlate ▸ found)
    refine ⟨fun h => ?_, fun _ h => ?_, fun hother => absurd hlate hother⟩
    · cases hmerging.symm.trans h
    · cases hmerging.symm.trans h
  · obtain ⟨node, hnode, hlifecycle, -⟩ :=
      takes.follows.origin_repairs takes.populated repairs found
    have hsame : later.lifecycle = node.lifecycle :=
      hlifecycle.resolve_right fun h => hlate (h.1.trans htarget)
    exact ⟨fun h => absurd ((takes.fits peer node hnode).joins (hsame ▸ h)).1 hlate,
      fun h => absurd h hlate, fun _ => nofun⟩

/-- A node is told that its records have arrived. -/
theorem reported (takes : arrival.Takes phase chart net) {requester : Token}
    (reported : net.Reported requester id after)
    (populated : after.Populated arrival.config arrival.ids)
    (follows : after.Follows arrival.ids chart) (allows : arrival.reports phase requester) :
    arrival.Takes phase chart after where
  populated := populated
  follows := follows
  charts := takes.charts
  fits other later found := by
    obtain ⟨peer, target, houses, hkeeps⟩ := reported.keeps
    rw [hkeeps.resident?, takes.populated.resident?_setNode houses] at found
    split at found
    · rename_i heq
      subst heq
      obtain rfl := Option.some.inj found
      have hfits := takes.fits other target houses.resident?
      have hfingers := (target.stays_migrationEnded id).fingers
      refine ⟨fun h => hfits.joins ?_, fun hlate _ => ?_, fun hother houtside slot => ?_⟩
      · rw [Node.migrationEnded] at h
        split at h
        · cases h
        · exact h
      · have hplaced := allows hlate
        cases phase with
        | outside => cases hplaced
        | inside => exact absurd hplaced (by decide)
        | placed => rfl
      · rw [hfingers]
        exact hfits.knows hother houtside slot
    · exact takes.fits other later found

/-- All records are at their owners when the latecomer is inside and has them all. -/
theorem placed (takes : arrival.Takes phase chart net) (entered : .inside ≤ phase) :
    arrival.Takes .placed chart net where
  populated := takes.populated
  follows := takes.follows
  charts := by
    have hcharts := takes.charts
    cases phase with
    | outside => cases entered
    | inside => exact hcharts
    | placed => exact hcharts
  fits id node found := by
    have hfits := takes.fits id node found
    refine ⟨fun h => ?_, fun _ _ => rfl, fun _ => nofun⟩
    obtain ⟨-, rfl⟩ := hfits.joins h
    cases entered

end Takes

/-! ## What the nodes do on their own -/

theorem passes_mono {later : Phase} (le : phase ≤ later) (source id : Token)
    (passes : arrival.passes phase source id) : arrival.passes later source id :=
  fun late => ⟨(passes late).1, (passes late).2.trans le⟩

theorem reports_mono {later : Phase} (le : phase ≤ later) (id : Token)
    (reports : arrival.reports phase id) : arrival.reports later id :=
  fun late => (reports late).trans le

/-- The ring is tidy, with what is permitted at a phase. -/
abbrev Tidy (arrival : Arrival) (phase : Phase) (chart : Chart) (holder : Token → Option Token)
    (net : Network) : Prop :=
  net.Tidy arrival.config arrival.ids arrival.name (arrival.passes phase) (arrival.reports phase)
    chart holder

theorem Takes.goes {later : Phase} (takes : arrival.Takes later chart after)
    (tidy : arrival.Tidy later chart holder after) (stores : arrival.Stores later holder)
    (le : phase ≤ later) : arrival.Goes phase after :=
  ⟨later, le, ⟨chart, holder, takes, tidy.stocked, stores⟩, tidy.calm⟩

section Chores

variable (tidy : arrival.Tidy phase chart holder net) (takes : arrival.Takes phase chart net)
  (stores : arrival.Stores phase holder) (houses : net.Houses id handle node) (number : Nat)
include tidy takes stores houses

/-- A node repairs its successor; the node before the latecomer takes it in. -/
theorem stabilize_goes : Achieves number net handle (node.start net.surroundings .stabilize)
    fun _ after => arrival.Goes phase after := by
  have hmem := takes.populated.mem houses
  by_cases henters : phase = .outside ∧ id = previousOf arrival.ids arrival.late
  · obtain ⟨rfl, rfl⟩ := henters
    have hle : Phase.outside ≤ .inside := by decide
    have hskips : chart.Skips arrival.ids arrival.late := takes.charts
    obtain ⟨c, hc, hcompany⟩ := arrival.company
    have hinside : arrival.Tidy .inside chart holder net :=
      tidy.mono (passes_mono hle) (reports_mono hle)
    refine (hinside.stabilize houses number fun target source htarget _ hsource _ => ?_).weaken ?_
    · rw [hskips.target_previous arrival.ascending arrival.mem hc hcompany] at htarget
      obtain ⟨late, hlate, hsucc, -⟩ := takes.follows arrival.late arrival.mem
      obtain rfl := Option.some.inj (htarget.symm.trans hlate)
      rw [hsource, hskips.succ _ arrival.mem,
        if_neg (Ne.symm (previousOf_ne arrival.ascending hc hcompany))] at hsucc
      exact fun _ => ⟨Option.some.inj hsucc, le_refl _⟩
    · rintro _ after ⟨hrepairs, hafter⟩
      refine (takes.enters hrepairs).goes hafter ⟨fun key id hheld => ?_, stores.filled⟩ hle
      exact Or.inl (stores.places key id hheld)
  · have hother : phase = .outside → id ≠ previousOf arrival.ids arrival.late :=
      fun houtside hid => henters ⟨houtside, hid⟩
    refine (tidy.stabilize houses number fun target source htarget hjoining _ _ => ?_).weaken ?_
    · obtain ⟨hlate, houtside⟩ := (takes.fits _ target htarget).joins hjoining
      exact absurd hlate (takes.target_ne hmem hother houtside)
    · rintro _ after ⟨hrepairs, hafter⟩
      exact (takes.repairs hmem hrepairs hother).goes hafter stores (le_refl _)

/-- A node refreshes a routing slot. -/
theorem fixFingers_goes : Achieves number net handle (node.start net.surroundings .fixFingers)
    fun _ after => arrival.Goes phase after := by
  let answers (_ : Token) (outcome : Outcome .id) : Prop := ∀ owner, outcome = .ok owner →
    owner ∈ arrival.ids ∧ (id ∈ arrival.ring phase → owner ∈ arrival.ring phase)
  have hnames (key owner : Token) (h : answers key (.ok owner)) (mem : id ∈ arrival.ring phase) :
      owner ∈ arrival.ring phase := (h owner rfl).2 mem
  refine (tidy.fixFingers answers houses number (fun _ next h => (h next rfl).1) ?_).weaken ?_
  · intro start node key hstart htunes hlearns hhouses
    have htakes := takes.tunes htunes hlearns hstart hnames
    by_cases hring : id ∈ arrival.ring phase
    · refine (htakes.lookUp hhouses hring number key).weaken ?_
      rintro outcome after ⟨hsame, hends⟩
      refine ⟨hsame, fun owner howner => ?_⟩
      rcases hends with hok | ⟨failure, herror⟩
      · cases hok.symm.trans howner
        have howner := arrival.ownerOf_mem_ring phase key
        exact ⟨mem_of_ring howner, fun _ => howner⟩
      · cases herror.symm.trans howner
    · refine (lookUp_ends hstart htakes.follows hhouses number key).weaken ?_
      rintro outcome after ⟨hsame, hends⟩
      exact ⟨hsame, fun owner howner => ⟨hends owner howner, fun h => absurd h hring⟩⟩
  · rintro _ after ⟨htunes, hlearns, hafter⟩
    exact (takes.tunes htunes hlearns hafter.populated hnames).goes hafter stores (le_refl _)

/-- A node finds its predecessor in the directory. -/
theorem fixPredecessor_goes : Achieves number net handle
    (node.start net.surroundings .fixPredecessor) fun _ after => arrival.Goes phase after := by
  refine (tidy.fixPredecessor houses number).weaken ?_
  rintro _ after rfl
  exact takes.goes tidy stores (le_refl _)

/-- A node asks for its records. -/
theorem askForRecords_goes {source : Token}
    (permits : arrival.allowed phase id (.askForRecords source)) :
    Achieves number net handle (node.start net.surroundings (.askForRecords source))
      fun _ after => arrival.Goes phase after := by
  obtain ⟨hmem, hother, hpasses⟩ := permits
  refine (tidy.askForRecords houses number hmem hother hpasses).weaken ?_
  rintro _ after ⟨hkeeps, hafter⟩
  exact (takes.keeps hkeeps).goes hafter stores (le_refl _)

/-- A node reports that records have arrived. -/
theorem reportMoved_goes {requester : Token}
    (permits : arrival.allowed phase id (.reportMoved requester)) :
    Achieves number net handle (node.start net.surroundings (.reportMoved requester))
      fun _ after => arrival.Goes phase after ∧ after.backlog handle ≤ net.backlog handle := by
  obtain ⟨hmem, hother, hreports⟩ := permits
  refine (tidy.reportMoved houses number hmem hother).weaken ?_
  rintro _ after ⟨hreported, hbacklog, hafter⟩
  have htakes := takes.reported hreported hafter.populated hafter.follows hreports
  exact ⟨htakes.goes hafter stores (le_refl _), Nat.le_of_eq hbacklog⟩

/-- A node makes a pass on behalf of another one; when the node after the latecomer has handed over
what is the latecomer's, every record is at its owner. -/
theorem migrateFor_goes {requester : Token}
    (permits : arrival.allowed phase id (.migrateFor requester)) :
    Achieves number net handle (node.start net.surroundings (.migrateFor requester))
      fun _ after => arrival.Goes phase after := by
  obtain ⟨hmem, hother, hpasses⟩ := permits
  have howner := arrival.ownerOf_mem_ring phase
  refine (tidy.migrateFor (ownerOf (arrival.ring phase)) houses number arrival.included hmem hother
    ?_ ?_).weaken ?_
  · intro now later key hsame hstands hheld
    have hlisted : now.directory[id]? = some handle := hsame.directory ▸ houses.listed
    exact (takes.hauled hsame).lookUp ⟨hlisted, hstands⟩
      (mem_ring_of_places (stores.places key id hheld)) number key
  · intro key _ _
    obtain ⟨target, htarget⟩ := takes.populated.resides _ (mem_of_ring (howner key))
    obtain ⟨peer, hpeer⟩ := resident?_eq_some.1 htarget
    exact ⟨peer, target, hpeer, (takes.fits _ target htarget).joined (howner key)⟩
  · rintro _ after ⟨last, hdrifts, habides, hafter⟩
    have hstores := stores.drifts hdrifts
    have htakes {further : Token → Prop} (h : after.Tidy arrival.config arrival.ids arrival.name
        (arrival.passes phase) further chart last) : arrival.Takes phase chart after :=
      takes.abides h.populated h.follows habides
    rcases hafter with hafter | ⟨hsettled, hafter⟩
    · exact (htakes hafter).goes hafter hstores (le_refl _)
    · by_cases hlate : requester = arrival.late
      · obtain ⟨rfl, hentered⟩ := hpasses hlate
        have hring : arrival.ring phase = arrival.ids := by
          cases phase with
          | outside => cases hentered
          | inside => rfl
          | placed => rfl
        have hlast : phase ≤ .placed := by cases phase <;> decide
        have hends := hafter (arrival.reports .placed) (reports_mono hlast) fun _ => le_refl _
        rw [hring] at hsettled
        exact ((htakes hends).placed hentered).goes (hends.mono (passes_mono hlast) fun _ h => h)
          (hstores.placed hentered hsettled) hlast
      · have hends := hafter (arrival.reports phase) (fun _ h => h) fun h => absurd h hlate
        exact (htakes hends).goes hends hstores (le_refl _)

end Chores

/-- Every permitted operation of a node comes to its end, and the ring does not fall back. -/
theorem Holds.serves {operation : Operation .nothing} (holds : arrival.Holds phase net)
    (calm : net.Calm (arrival.allowed phase)) (listed : net.directory[id]? = some handle)
    (permits : arrival.allowed phase id operation) (number : Nat) :
    ∃ node, net.nodeAt? handle = some node ∧
      Achieves number net handle (node.start net.surroundings operation) fun _ after =>
        arrival.Goes phase after ∧ ∀ requester, operation = .reportMoved requester →
          after.backlog handle ≤ net.backlog handle := by
  obtain ⟨chart, holder, takes, stocked, stores⟩ := holds
  have htidy : arrival.Tidy phase chart holder net :=
    ⟨takes.populated, takes.follows, stocked, calm⟩
  obtain ⟨node, houses⟩ := takes.populated.houses_of_listed listed
  refine ⟨node, houses.stands, ?_⟩
  cases operation with
  | serve request => exact permits.elim
  | found => exact permits.elim
  | join known => exact permits.elim
  | refreshFingers => exact permits.elim
  | attempt call => exact permits.elim
  | stabilize =>
      exact (stabilize_goes htidy takes stores houses number).weaken fun _ _ h => ⟨h, nofun⟩
  | fixFingers =>
      exact (fixFingers_goes htidy takes stores houses number).weaken fun _ _ h => ⟨h, nofun⟩
  | fixPredecessor =>
      exact (fixPredecessor_goes htidy takes stores houses number).weaken fun _ _ h => ⟨h, nofun⟩
  | askForRecords source =>
      exact (askForRecords_goes htidy takes stores houses number permits).weaken
        fun _ _ h => ⟨h, nofun⟩
  | migrateFor requester =>
      exact (migrateFor_goes htidy takes stores houses number permits).weaken
        fun _ _ h => ⟨h, nofun⟩
  | reportMoved requester =>
      exact (reportMoved_goes htidy takes stores houses number permits).weaken
        fun _ _ h => ⟨h.1, fun _ _ => h.2⟩

theorem Holds.keeps (holds : arrival.Holds phase net) (keeps : net.Keeps after) :
    arrival.Holds phase after := by
  obtain ⟨chart, holder, takes, stocked, stores⟩ := holds
  exact ⟨chart, holder, takes.keeps keeps, keeps.stocked stocked, stores⟩

/-- A ring that takes a latecomer in while its nodes maintain it. -/
def taking (arrival : Arrival) (directory : Std.TreeMap Token Handle) : Regime Phase where
  allowed := arrival.allowed
  holds phase net := arrival.Holds phase net ∧ net.directory = directory
  grows le := Permits.mono (fun _ h => h) (passes_mono le) (reports_mono le)
  numbered holds := by
    obtain ⟨⟨_, _, takes, -⟩, -⟩ := holds
    exact takes.populated.numbered
  frame keeps holds := ⟨holds.1.keeps keeps, keeps.directory.trans holds.2⟩
  serves number holds calm listed permits := by
    obtain ⟨node, hnode, hends⟩ := holds.1.serves calm listed permits number
    refine ⟨node, hnode, hends.unmoved.weaken ?_⟩
    rintro _ after ⟨⟨⟨later, hle, hholds, hcalm⟩, hbacklog⟩, hdirectory⟩
    exact ⟨later, hle, ⟨hholds, hdirectory.trans holds.2⟩, hcalm, hbacklog⟩

end Arrival

end RecordRing
