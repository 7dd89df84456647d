import RecordRing.Proofs.Handover.Stock
import RecordRing.Proofs.Ring.Upkeep

/-!
# Chores

Whatever the nodes of a ring do on their own keeps the ring tidy: the nodes follow a chart, every
record is kept once, and all that is left to do is permitted (`Tidy`).  Successor repair changes the
chart, a pass changes who keeps which record, and the other operations change neither.

## Implementation notes

There is one statement for each operation.  What the operation needs beyond a tidy ring, such as
lookups that name owners, is left to those who know at what stage the ring is.
-/

namespace RecordRing

namespace Network

variable {net after : Network} {config : Config} {members everyone : List Token} {name : String}
  {passes more : Token → Token → Prop} {reports further : Token → Prop} {chart : Chart}
  {holder last : Token → Option Token} {owner : Token → Token} {number : Nat} {handle : Handle}
  {node later : Node} {id peer source requester candidate : Token}

namespace Stocked

/-- A node is told about another one. -/
theorem tells (stocked : net.Stocked name holder) (tells : net.Tells peer candidate after) :
    after.Stocked name holder := by
  obtain ⟨handle, target, houses, same⟩ := tells
  have hstays := target.stays_notified candidate
  exact ((keeps_told net handle target candidate).trans same.keeps).stocked
    (stocked.setNode houses.stands hstays.store hstays.locks (target.config_notified candidate))

theorem repairs (stocked : net.Stocked name holder) (repairs : net.Repairs id after) :
    after.Stocked name holder := by
  cases repairs with
  | alone houses holds asked found same =>
      exact same.keeps.stocked (stocked.setNode houses.stands rfl rfl rfl)
  | @tells handle node _ _ target houses holds asked found ne told =>
      have hset : (net.setNode handle (node.setSuccessor target)).Stocked name holder :=
        stocked.setNode houses.stands rfl rfl rfl
      exact hset.tells told

theorem tunes (stocked : net.Stocked name holder) (tunes : net.Tunes id after) :
    after.Stocked name holder := by
  obtain ⟨handle, node, fingers, cursor, houses, -, same⟩ := tunes
  exact same.keeps.stocked (stocked.setNode houses.stands rfl rfl rfl)

theorem stays (stocked : net.Stocked name holder) (stands : net.nodeAt? handle = some node)
    (stays : node.Stays later) : (net.setNode handle later).Stocked name holder :=
  stocked.setNode stands stays.store stays.locks (congrArg Node.config stays :)

theorem reported (stocked : net.Stocked name holder) (reported : net.Reported requester id after) :
    after.Stocked name holder := by
  obtain ⟨handle, target, houses, keeps⟩ := reported.keeps
  exact keeps.stocked (stocked.stays houses.stands (target.stays_migrationEnded id))

end Stocked

theorem Matches.follows (h : net.Matches after) (follows : net.Follows members chart) :
    after.Follows members chart := by
  intro id mem
  obtain ⟨node, hnode, hsucc, hpred⟩ := follows id mem
  obtain ⟨later, hlater, hbare⟩ := h.resident? hnode
  have hfingers : later.bare.fingers = node.bare.fingers := congrArg Node.fingers hbare
  have hpredecessor : later.bare.predecessor = node.bare.predecessor :=
    congrArg Node.predecessor hbare
  exact ⟨later, hlater, (congrArg Fingers.successor hfingers).trans hsucc,
    hpredecessor.trans hpred⟩

/-! ## Nodes that stay as they are -/

/-- Every node has come as far as before in taking over its records and knows the same nodes. -/
def Abides (net after : Network) : Prop :=
  ∀ id later, after.resident? id = some later → ∃ node, net.resident? id = some node ∧
    later.lifecycle = node.lifecycle ∧ later.fingers = node.fingers

theorem Keeps.abides (h : net.Keeps after) : net.Abides after :=
  fun id later found => ⟨later, h.resident? id ▸ found, rfl, rfl⟩

theorem Matches.abides (h : net.Matches after) : net.Abides after := by
  intro id later found
  obtain ⟨node, hnode, hbare⟩ := h.symm.resident? found
  exact ⟨node, hnode, (congrArg Node.lifecycle hbare.symm :), (congrArg Node.fingers hbare.symm :)⟩

theorem Abides.trans {last : Network} (h : net.Abides after) (h' : after.Abides last) :
    net.Abides last := by
  intro id later found
  obtain ⟨mid, hmid, hlifecycle, hfingers⟩ := h' id later found
  obtain ⟨node, hnode, hlifecycle', hfingers'⟩ := h id mid hmid
  exact ⟨node, hnode, hlifecycle.trans hlifecycle', hfingers.trans hfingers'⟩

theorem Populated.abides (populated : net.Populated config members)
    (houses : net.Houses id handle node) (lifecycle : later.lifecycle = node.lifecycle)
    (fingers : later.fingers = node.fingers) : net.Abides (net.setNode handle later) := by
  intro other found hfound
  rw [populated.resident?_setNode houses] at hfound
  split at hfound
  · rename_i heq
    rw [← Option.some.inj hfound, heq]
    exact ⟨node, houses.resident?, lifecycle, fingers⟩
  · exact ⟨found, hfound, rfl, rfl⟩

/-! ## Tidy rings -/

/-- The nodes follow a chart, every record is kept once, and all that is left to do is permitted. -/
structure Tidy (net : Network) (config : Config) (members : List Token) (name : String)
    (passes : Token → Token → Prop) (reports : Token → Prop) (chart : Chart)
    (holder : Token → Option Token) : Prop where
  populated : net.Populated config members
  follows : net.Follows members chart
  stocked : net.Stocked name holder
  calm : net.Calm (Permits members passes reports)

theorem Permits.mono (sub : ∀ id ∈ members, id ∈ everyone)
    (passes_more : ∀ source id, passes source id → more source id)
    (reports_more : ∀ id, reports id → further id) (id : Token) (operation : Operation .nothing)
    (permits : Permits members passes reports id operation) :
    Permits everyone more further id operation := by
  cases operation with
  | serve request => exact permits.elim
  | found => exact permits.elim
  | join known => exact permits.elim
  | stabilize => trivial
  | fixFingers => trivial
  | refreshFingers => exact permits.elim
  | fixPredecessor => trivial
  | attempt call => exact permits.elim
  | migrateFor requester => exact ⟨sub _ permits.1, permits.2.1, passes_more _ _ permits.2.2⟩
  | askForRecords source => exact ⟨sub _ permits.1, permits.2.1, passes_more _ _ permits.2.2⟩
  | reportMoved requester => exact ⟨sub _ permits.1, permits.2.1, reports_more _ permits.2.2⟩

namespace Tidy

variable (tidy : net.Tidy config members name passes reports chart holder)
include tidy

theorem mono (passes_more : ∀ source id, passes source id → more source id)
    (reports_more : ∀ id, reports id → further id) :
    net.Tidy config members name more further chart holder :=
  ⟨tidy.populated, tidy.follows, tidy.stocked,
    tidy.calm.mono fun id _ _ => Permits.mono (fun _ h => h) passes_more reports_more id⟩

/-- A node repairs its successor. -/
theorem stabilize (houses : net.Houses id handle node) (number : Nat)
    (merging : ∀ target source, net.resident? (chart.target id) = some target →
      target.lifecycle = .joining → target.successor = some source → source ≠ chart.target id →
        passes source (chart.target id)) :
    Achieves number net handle (node.start net.surroundings .stabilize) fun _ after =>
      net.Repairs id after ∧
        after.Tidy config members name passes reports (chart.repaired id) holder := by
  have hmem := tidy.populated.mem houses
  refine (stabilize_achieves tidy.populated houses (tidy.follows.of_houses hmem houses).1
    number).weaken ?_
  rintro outcome after ⟨-, hrepairs⟩
  obtain ⟨hpopulated, hfollows⟩ := tidy.follows.repairs tidy.populated hmem hrepairs
  exact ⟨hrepairs, hpopulated, hfollows, tidy.stocked.repairs hrepairs,
    tidy.calm.repairs tidy.populated tidy.follows hrepairs merging⟩

/-- A node refreshes a routing slot. -/
theorem fixFingers (answers : Token → Outcome .id → Prop) (houses : net.Houses id handle node)
    (number : Nat) (inside : ∀ key next, answers key (.ok next) → next ∈ members)
    (looks : ∀ {start node} key, start.Populated config members → net.Tunes id start →
      net.Learns id answers start → start.Houses id handle node → Achieves number start handle
        (node.lookUp start.surroundings key) fun outcome after =>
          start.Same after ∧ answers key outcome) :
    Achieves number net handle (node.start net.surroundings .fixFingers) fun _ after =>
      net.Tunes id after ∧ net.Learns id answers after ∧
        after.Tidy config members name passes reports chart holder := by
  refine (fixFingers_achieves tidy.populated houses inside looks).weaken ?_
  rintro outcome after ⟨hpopulated, htunes, hlearns, -⟩
  exact ⟨htunes, hlearns, hpopulated, tidy.follows.tunes tidy.populated htunes,
    tidy.stocked.tunes htunes, tidy.calm.tunes htunes⟩

/-- A node finds its predecessor in the directory. -/
theorem fixPredecessor (houses : net.Houses id handle node) (number : Nat) :
    Achieves number net handle (node.start net.surroundings .fixPredecessor) fun _ after =>
      after = net := by
  rw [Node.start, tidy.populated.fixPredecessor houses]
  exact .answer_same houses.stands rfl

/-- A node asks for its records. -/
theorem askForRecords (houses : net.Houses id handle node) (number : Nat)
    (mem : source ∈ members) (other : source ≠ id) (allows : passes source id) :
    Achieves number net handle (node.start net.surroundings (.askForRecords source))
      fun _ after => net.Keeps after ∧
        after.Tidy config members name passes reports chart holder := by
  refine (request_achieves tidy.populated houses mem number).weaken fun _ after hrequested => ?_
  have hkeeps := hrequested.keeps
  exact ⟨hkeeps, hkeeps.populated tidy.populated, hkeeps.follows tidy.follows,
    hkeeps.stocked tidy.stocked,
    tidy.calm.requested hrequested (tidy.populated.mem houses) other allows⟩

/-- A node reports that records have arrived. -/
theorem reportMoved (houses : net.Houses id handle node) (number : Nat)
    (mem : requester ∈ members) (other : requester ≠ id) :
    Achieves number net handle (node.start net.surroundings (.reportMoved requester))
      fun _ after => net.Reported requester id after ∧
        after.backlog handle = net.backlog handle ∧
        after.Tidy config members name passes reports chart holder := by
  refine (report_achieves tidy.populated houses mem number).weaken fun _ after hreported => ?_
  obtain ⟨peer, target, htarget, hkeeps⟩ := hreported.keeps
  have hstays := target.stays_migrationEnded id
  exact ⟨hreported, hreported.backlog tidy.populated houses other,
    hkeeps.populated (tidy.populated.stays htarget hstays),
    hkeeps.follows (tidy.follows.setNode tidy.populated htarget
      (congrArg Fingers.successor hstays.fingers) hstays.predecessor),
    tidy.stocked.reported hreported, tidy.calm.reported tidy.populated hreported⟩

/-- A node that stays reports that a pass of it has come to its end. -/
theorem reportMigration (houses : net.Houses id handle node) (mem : requester ∈ members)
    (other : requester ≠ id) (allows : reports requester) :
    (net.enact handle (Node.acknowledge (node.reportMigration requester))).Tidy config members name
      passes reports chart holder ∧
    net.Abides (net.enact handle (Node.acknowledge (node.reportMigration requester))) := by
  have hstays := node.stays_reportMigration requester
  have hpermits : Permits members passes reports id (.reportMoved requester) := ⟨mem, other, allows⟩
  have hreport : (∀ asker ∈ (node.reportMigration requester).1.pending,
        asker ∈ node.pending ∨ asker = requester) ∧
      ∀ effect ∈ (node.reportMigration requester).2, effect = .announce requester := by
    rw [Node.reportMigration]
    split
    · exact ⟨fun asker h => Or.inl h, fun effect h => List.mem_singleton.1 h⟩
    · exact ⟨fun asker h => (List.mem_append.1 h).imp_right List.mem_singleton.1,
        fun effect h => absurd h List.not_mem_nil⟩
  have hkeeps := keeps_enact net handle (Node.acknowledge (node.reportMigration requester))
    fun effect heffect lock => by rw [hreport.2 effect heffect]; exact Effect.noConfusion
  refine ⟨⟨hkeeps.populated (tidy.populated.stays houses hstays),
    hkeeps.follows (tidy.follows.setNode tidy.populated houses
      (congrArg Fingers.successor hstays.fingers) hstays.predecessor),
    hkeeps.stocked (tidy.stocked.stays houses.stands hstays), ?_⟩, ?_⟩
  · refine tidy.calm.enact tidy.populated houses (fun asker hasker => ?_) fun effect heffect => ?_
    · rcases hreport.1 asker hasker with hold | rfl
      · exact tidy.calm.owed houses hold
      · exact hpermits
    · rw [hreport.2 effect heffect]
      exact hpermits
  · refine (tidy.populated.abides houses ?_ hstays.fingers).trans hkeeps.abides
    rw [Node.reportMigration]
    split <;> rfl

/-- A node makes a pass on behalf of another one.  If the pass ends well, then no record of another
owner is left at the node, and the end is to be reported. -/
theorem migrateFor (owner : Token → Token) (houses : net.Houses id handle node) (number : Nat)
    (included : config.isExcluded name = false) (mem : requester ∈ members)
    (other : requester ≠ id)
    (looks : ∀ {now : Network} {node : Node} (key : Token), net.Matches now →
      now.nodeAt? handle = some node → holder key = some id →
      Achieves number now handle (node.lookUp now.surroundings key) fun outcome after =>
        now.Same after ∧ (outcome = .ok (owner key) ∨ ∃ failure, outcome = .error failure))
    (joined : ∀ key, holder key = some id → owner key ≠ id →
      ∃ peer target, net.Houses (owner key) peer target ∧ target.lifecycle ≠ .joining) :
    Achieves number net handle (node.start net.surroundings (.migrateFor requester))
      fun _ after => ∃ last, Drifts owner id holder last ∧ net.Abides after ∧
        (after.Tidy config members name passes reports chart last ∨
          (∀ key, last key = some id → owner key = id) ∧
            ∀ further : Token → Prop, (∀ id, reports id → further id) → further requester →
              after.Tidy config members name passes further chart last) := by
  have hcarries : net.Carries config members name holder owner number id handle :=
    ⟨tidy.populated, tidy.stocked, houses.listed, included, looks, joined⟩
  refine .run_same rfl houses.stands rfl rfl ?_
  refine (hcarries.pass_achieves houses.stands).weaken ?_
  rintro answer mid ⟨last, hpassing, hsettled⟩
  obtain ⟨later, hlater, -⟩ := hpassing.frame.houses houses
  have hmid : mid.Tidy config members name passes reports chart last :=
    ⟨hpassing.frame.populated tidy.populated, hpassing.frame.follows tidy.follows,
      hpassing.stocked, hpassing.frame.calm tidy.calm⟩
  have habides := hpassing.frame.abides
  refine ⟨later, hlater.stands, ?_⟩
  cases answer with
  | error failure =>
      exact .answer_same hlater.stands ⟨last, hpassing.drifts, habides, Or.inl hmid⟩
  | ok count =>
      have hreports {further : Token → Prop} (hfurther : ∀ id, reports id → further id)
          (hallows : further requester) :=
        (hmid.mono (fun _ _ h => h) hfurther).reportMigration hlater mem other hallows
      refine .reply rfl ⟨last, hpassing.drifts, ?_, Or.inr ⟨hsettled count rfl, ?_⟩⟩
      · exact habides.trans (hreports (fun _ _ => trivial : ∀ id, reports id → True) trivial).2
      · exact fun further hfurther hallows => (hreports hfurther hallows).1

end Tidy

end Network

end RecordRing
