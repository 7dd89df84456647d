import RecordRing.Proofs.Life.Acts

/-!
# Reports of finished passes

A node that has passed records on reports it to the requester, at once if the node is stable and
otherwise when it becomes so.  A turn neither loses nor invents a report (`Node.Shifts.balanced`):
those that it finds waiting and the one that comes up in it are those that it hands to the sender
and those that wait afterwards, in this order.  Over a life the reports that have been handed over,
followed by those that wait, are therefore the passes that have come to their end
(`Life.reports_in_order`).
-/

namespace RecordRing

/-- The requester whose report is handed to the sender, if one is. -/
def Effect.handed? : Effect → Option Token
  | .announce requester => some requester
  | _ => none

/-- The requester of the pass that comes to its end in a turn, if one does. -/
def Act.completed? (act : Act) : Option Token := act.cue.passed?

/-- The requesters whose reports a turn hands to the sender. -/
def Act.handed (act : Act) : List Token := act.turn.effects.filterMap Effect.handed?

/-- A node that has not begun to take over an interval, and has nothing to report. -/
structure Node.IsFresh (node : Node) : Prop where
  predecessor : node.predecessor = none
  lifecycle : node.lifecycle = .joining
  migrationSource : node.migrationSource = none
  pending : node.pending = []

theorem Node.isFresh_fresh (id : Token) (store : Store) (config : Config) :
    (Node.fresh id store config).IsFresh := ⟨rfl, rfl, rfl, rfl⟩

/-- A turn hands over what was waiting and what comes up, or keeps it for later. -/
structure Balanced (node : Node) (cue : Cue) (later : Node) (effects : List Effect) : Prop where
  conserved : node.pending ++ cue.passed?.toList =
    effects.filterMap Effect.handed? ++ later.pending
  settled : later.lifecycle = .stable → later.pending = []
  ready : effects.filterMap Effect.handed? ≠ [] → later.lifecycle = .stable

theorem filterMap_handed?_quiet {effects : List Effect}
    (quiet : ∀ effect ∈ effects, effect.isQuiet = true) :
    effects.filterMap Effect.handed? = [] := by
  apply List.filterMap_eq_nil_iff.2
  intro effect hmem
  have hquiet := quiet effect hmem
  cases effect with
  | announce requester => cases hquiet
  | release id => rfl
  | spawn operation => rfl
  | tally counter => rfl

theorem filterMap_handed?_announce (requesters : List Token) :
    (requesters.map Effect.announce).filterMap Effect.handed? = requesters := by
  rw [List.filterMap_map]
  exact List.filterMap_some

section Turns

variable {node later : Node} {around : Surroundings} {cue : Cue} {effects : List Effect}

/-- A turn that leaves the reports alone is balanced. -/
theorem Balanced.of_same (other : cue.passed? = none)
    (nothing : effects.filterMap Effect.handed? = []) (same : later.pending = node.pending)
    (settled : later.lifecycle = .stable → node.pending = []) :
    Balanced node cue later effects := by
  constructor
  · simp [other, nothing, same]
  · intro stable
    rw [same]
    exact settled stable
  · intro handed
    exact absurd nothing handed

/-- A turn that hands over everything and leaves the node stable is balanced. -/
theorem Balanced.of_drained (other : cue.passed? = none) (drained : later.pending = [])
    (stable : later.lifecycle = .stable) :
    Balanced node cue later (node.pending.map .announce) := by
  constructor
  · rw [other, drained, filterMap_handed?_announce]
    rfl
  · intro _
    exact drained
  · intro _
    exact stable

/-- No turn loses or invents a report, if the node founds a ring only while it is fresh. -/
theorem Node.Shifts.balanced (shifts : node.Shifts around cue later effects)
    (settled : node.lifecycle = .stable → node.pending = [])
    (made : cue = .start .found → node.IsFresh) : Balanced node cue later effects := by
  cases shifts with
  | founded => exact .of_same rfl rfl rfl fun _ => (made rfl).pending
  | rejoining reached => exact .of_same rfl rfl rfl nofun
  | placed successor => exact .of_same rfl rfl rfl settled
  | accepted other closer waits => exact .of_same rfl rfl rfl settled
  | began other closer joining known company => exact .of_same rfl rfl rfl nofun
  | settled other closer joining known => exact .of_drained rfl rfl rfl
  | completed recorded merging => exact .of_drained rfl rfl rfl
  | requested requester => exact .of_same rfl rfl rfl settled
  | reported stable =>
      constructor
      · rw [settled stable]
        rfl
      · exact settled
      · exact fun _ => stable
  | deferred unstable =>
      constructor
      · rfl
      · exact fun stable => absurd stable unstable
      · exact fun handed => absurd rfl handed
  | redirected known replaced repairs quiet =>
      exact .of_same (passed?_of_repairs repairs) (filterMap_handed?_quiet quiet) rfl settled
  | advanced => exact .of_same rfl rfl rfl settled
  | entered named => exact .of_same rfl rfl rfl settled
  | bereft held left => exact .of_same rfl rfl rfl settled
  | idle other quiet => exact .of_same other (filterMap_handed?_quiet quiet) rfl settled

end Turns

/-- The books about the reports are in order after some acts. -/
structure Booked (acts : List Act) (node : Node) : Prop where
  settled : node.lifecycle = .stable → node.pending = []
  exact : acts.filterMap Act.completed? = acts.flatMap Act.handed ++ node.pending
  ready : ∀ act ∈ acts, act.handed ≠ [] → act.turn.node.lifecycle = .stable

/-- A turn leaves the books in order. -/
theorem Booked.snoc {acts : List Act} {act : Act} (booked : Booked acts act.node)
    (made : act.cue = .start .found → act.node.IsFresh) :
    Booked (acts ++ [act]) act.turn.node := by
  have hbalanced := act.shifts.balanced booked.settled made
  constructor
  · exact hbalanced.settled
  · calc
      (acts ++ [act]).filterMap Act.completed? =
          acts.flatMap Act.handed ++ (act.node.pending ++ act.completed?.toList) := by
        rw [List.filterMap_append, booked.exact, List.append_assoc]
        cases h : act.completed? <;> simp [h]
      _ = acts.flatMap Act.handed ++ (act.handed ++ act.turn.node.pending) :=
        congrArg _ hbalanced.conserved
      _ = (acts ++ [act]).flatMap Act.handed ++ act.turn.node.pending := by simp
  · intro earlier hmem handed
    rcases List.mem_append.1 hmem with hsooner | hlast
    · exact booked.ready earlier hsooner handed
    · obtain rfl := List.mem_singleton.1 hlast
      exact hbalanced.ready handed

/-- A pass that fails changes nothing. -/
theorem Act.failed_pass {act : Act} {requester : Token} {failure : Failure}
    (failed : act.cue = .resume (.migratingFor requester) (.error failure)) :
    act.completed? = none ∧ act.handed = [] ∧ act.turn.node = act.node := by
  obtain ⟨node, around, cue⟩ := act
  change cue = _ at failed
  subst failed
  exact ⟨rfl, rfl, rfl⟩

namespace Life

variable {id : Token} {store : Store} {config : Config} {first later : Scene}
  {acts : List Act}

theorem booked (life : Life first acts later) (start : Booked [] first.node)
    (made : ∀ act ∈ acts, act.cue = .start .found → act.node.IsFresh) :
    Booked acts later.node := by
  refine @Life.induct first later acts (fun acts node =>
    (∀ act ∈ acts, act.cue = .start .found → act.node.IsFresh) → Booked acts node)
    life ?_ ?_ ?_ made
  · intro _
    exact start
  · intro _ _ store locks hbooked hmade
    have hsofar := hbooked hmade
    exact ⟨hsofar.settled, hsofar.exact, hsofar.ready⟩
  · intro _ act hbooked hmade
    apply Booked.snoc
    · exact hbooked fun earlier hmem => hmade earlier (List.mem_append_left _ hmem)
    · exact hmade act (List.mem_append_right _ (List.mem_singleton.2 rfl))

/-- If a node founds a ring only while it is fresh, nothing waits in it while it is stable; the
requesters of the passes that have come to their end are those whose reports have been handed to the
sender and then those whose reports wait; a report is handed over by a stable node only; and a pass
that fails is not reported. -/
theorem reports_in_order (life : Life (Scene.fresh id store config) acts later)
    (made : ∀ act ∈ acts, act.cue = .start .found → act.node.IsFresh) :
    (later.node.lifecycle = .stable → later.node.pending = []) ∧
    acts.filterMap Act.completed? = acts.flatMap Act.handed ++ later.node.pending ∧
    (∀ act ∈ acts, act.handed ≠ [] → act.turn.node.lifecycle = .stable) ∧
    (∀ act ∈ acts, ∀ requester failure,
      act.cue = .resume (.migratingFor requester) (.error failure) →
        act.completed? = none ∧ act.handed = [] ∧ act.turn.node = act.node) := by
  have hstart : Booked [] (Node.fresh id store config) :=
    ⟨fun _ => rfl, rfl, fun _ hmem => absurd hmem List.not_mem_nil⟩
  have hbooked : Booked acts later.node := life.booked hstart made
  refine ⟨hbooked.settled, hbooked.exact, hbooked.ready, ?_⟩
  intro act _ requester failure failed
  exact Act.failed_pass failed

/-- The report of a pass waits while the node joins and merges. -/
theorem reports_in_order_newcomer :
    (∀ act ∈ Newcomer.opening ++ Newcomer.arrival,
      act.cue = .start .found → act.node.IsFresh) ∧
    (Newcomer.opening ++ Newcomer.arrival).filterMap Act.completed? = [Token.wrapping 30] ∧
    (Newcomer.opening ++ Newcomer.arrival).flatMap Act.handed = [Token.wrapping 30] := by
  have hmade : ∀ act ∈ Newcomer.opening ++ Newcomer.arrival,
      act.cue = .start .found → act.node.IsFresh := by
    have hfresh : Newcomer.made.IsFresh := Node.isFresh_fresh _ _ _
    simp [Newcomer.opening, Newcomer.arrival, hfresh]
  have horder := reports_in_order (Newcomer.life_opening.append Newcomer.life_arrival) hmade
  exact ⟨hmade, rfl, (horder.2.1.symm.trans rfl :)⟩

end Life

end RecordRing
