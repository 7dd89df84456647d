import Mathlib.Logic.Relation
import RecordRing.Proofs.Network.Contract
import RecordRing.Proofs.Network.Steps

/-!
# Runs of a network without departures

A run is a sequence of moves in any order: nodes are added and registered, operations are launched,
and the tasks take their steps.  No identifier ever leaves the directory, no link fails a call, and
no node takes a place on a ring a second time.  Which nodes may be added and which operations may be
launched is up to the `Rules` of the run.

A contract that every turn keeps and that the rules respect holds throughout a run
(`Contract.Sound.run`).

## Implementation notes

A task may be woken at any moment, so the runs include every choice of delays and timeouts.
-/

namespace RecordRing

/-- A node that has neither founded nor joined a ring, behind a link that fails no call. -/
structure Member.Fresh (member : Member) : Prop where
  fresh : ∃ id store config, member.node = Node.fresh id store config
  clear : member.link.faults = []
  silent : member.outbox = [] ∧ member.sending = false

/-- What may be added to a network and launched in it. -/
structure Rules where
  /-- The members that may be added. -/
  Welcomes : Member → Prop
  /-- The operations that a member may be told to carry out. -/
  Permits : Network → Handle → {shape : Shape} → Operation shape → Prop

/-- One move of a run. -/
inductive Move (rules : Rules) : Network → Network → Prop where
  /-- A member with a new identifier is added. -/
  | attach {net : Network} {member : Member} (fresh : member.Fresh)
      (new : ∀ handle node, net.nodeAt? handle = some node → node.id ≠ member.node.id)
      (welcome : rules.Welcomes member) : Move rules net (net.attach (.member member)).2
  /-- A member is registered under its identifier. -/
  | register {net : Network} {handle : Handle} {node : Node}
      (found : net.nodeAt? handle = some node) : Move rules net (net.register node.id handle)
  /-- A member is told to carry out an operation. -/
  | launch {net : Network} {purpose : Purpose} {handle : Handle} {shape : Shape}
      {operation : Operation shape} (later : purpose.All fun member next => rules.Permits net member next)
      (permitted : rules.Permits net handle operation) :
      Move rules net (net.spawn (Network.taskOf purpose handle operation))
  /-- A task takes a step. -/
  | step {net : Network} {number : Nat} (first : net.replaces number = false) :
      Move rules net (net.step number)
  /-- A waiting task goes on. -/
  | wake {net : Network} {number : Nat} : Move rules net (net.wake number)
  /-- Time passes, and the scheduler rearranges its queues. -/
  | pass {net : Network} (now : Nat) (ready waiting : List Nat) :
      Move rules net { net with now := now, ready := ready, waiting := waiting }

/-- A member is told to carry out one operation. -/
theorem Move.tell {rules : Rules} {net : Network} {handle : Handle} {operation : Operation .nothing}
    (permitted : rules.Permits net handle operation) :
    Move rules net (net.spawn (Network.taskOf (.client []) handle operation)) :=
  .launch (fun _ h => absurd h List.not_mem_nil) permitted

/-- Any number of moves. -/
def Run (rules : Rules) : Network → Network → Prop := Relation.ReflTransGen (Move rules)

namespace Network

/-- The network after steps of the tasks of the given numbers. -/
def steps (net : Network) : List Nat → Network
  | [] => net
  | number :: rest => (net.step number).steps rest

/-- Whether none of the steps gives a place to a node that has one. -/
def isOrderly (net : Network) : List Nat → Bool
  | [] => true
  | number :: rest => !net.replaces number && (net.step number).isOrderly rest

theorem run_steps (rules : Rules) {net : Network} {numbers : List Nat}
    (h : net.isOrderly numbers = true) : Run rules net (net.steps numbers) := by
  induction numbers generalizing net with
  | nil => exact Relation.ReflTransGen.refl
  | cons number rest ih =>
      rw [isOrderly, Bool.and_eq_true, Bool.not_eq_true'] at h
      exact Relation.ReflTransGen.head (Move.step h.1) (ih h.2)

end Network

namespace Contract

variable {C : Contract} {rules : Rules} {net after : Network} {number : Nat}

/-- The rules of a run respect a contract. -/
structure Covers (C : Contract) (rules : Rules) : Prop where
  attach : ∀ {net member}, C.Holds net → member.Fresh →
    (∀ handle node, net.nodeAt? handle = some node → node.id ≠ member.node.id) →
    rules.Welcomes member → C.After net (net.attach (.member member)).2
  register : ∀ {net handle node}, C.Holds net → net.nodeAt? handle = some node →
    C.After net (net.register node.id handle)
  launch : ∀ {net handle shape} {operation : Operation shape}, C.Holds net →
    rules.Permits net handle operation → C.Duty net handle operation

/-- A step of a task leads to a later network. -/
theorem Sound.after_step (law : C.Lawful) (sound : C.Sound net)
    (first : net.replaces number = false) :
    C.After net (net.step number) := by
  rw [Network.replaces] at first
  rcases Network.akin_step_or_turn (fun _ => law.members sound.holds) number with hakin |
    ⟨purpose, shape, handle, stack, node, operation, htask, hnode, hakin⟩ |
    ⟨purpose, shape, result, handle, below, node, outcome, frame, htask, hnode, hakin⟩
  · exact law.akin sound.holds hakin
  · have hsound := sound.tasks _ _ htask
    simp only [htask] at first
    have hunplaced := successor_eq_none first hnode
    have hturn := law.start sound.holds hnode hsound.control.1 hunplaced
    exact hturn.after.trans law (law.akin hturn.after.2 hakin)
  · have hsound := sound.tasks _ _ htask
    simp only [htask] at first
    have hunplaced := successor_eq_none first hnode
    have hturn := law.resume sound.holds hnode hsound.stack.1.1 hsound.control hunplaced
    exact hturn.after.trans law (law.akin hturn.after.2 hakin)

/-- A move keeps a contract that its rules respect. -/
theorem Sound.move (law : C.Lawful) (covers : C.Covers rules) (sound : C.Sound net)
    (move : Move rules net after) : C.Sound after ∧ C.After net after := by
  cases move with
  | attach fresh new welcome =>
      have hlater := covers.attach sound.holds fresh new welcome
      exact ⟨of_after law sound hlater fun _ _ htask => Or.inl htask, hlater⟩
  | register found =>
      have hlater := covers.register sound.holds found
      exact ⟨of_after law sound hlater fun _ _ htask => Or.inl htask, hlater⟩
  | launch later permitted =>
      rename_i purpose handle shape operation
      have hpurpose : C.PurposeSound net purpose := by
        cases purpose with
        | client rest => exact fun next hnext => covers.launch sound.holds (later next hnext)
        | loop loop => exact covers.launch sound.holds later
        | background => trivial
        | sender member => trivial
      exact ⟨sound.spawn law (taskOf hpurpose (covers.launch sound.holds permitted)),
        law.akin sound.holds ((Network.Akin.refl net).spawn _)⟩
  | step first => exact ⟨sound.step law _ first, sound.after_step law first⟩
  | wake => exact ⟨sound.wake law _, law.akin sound.holds (Network.akin_wake net _)⟩
  | pass now ready waiting =>
      have hakin : net.Akin { net with now := now, ready := ready, waiting := waiting } :=
        Network.Akin.of_same rfl rfl
      exact ⟨of_akin law sound hakin rfl, law.akin sound.holds hakin⟩

/-- A run keeps a contract that its rules respect. -/
theorem Sound.run (law : C.Lawful) (covers : C.Covers rules) (sound : C.Sound net)
    (run : Run rules net after) : C.Sound after ∧ C.After net after := by
  induction run with
  | refl => exact ⟨sound, After.refl law sound.holds⟩
  | tail _ move ih =>
      obtain ⟨hsound, hlater⟩ := ih
      obtain ⟨hsound', hlater'⟩ := hsound.move law covers move
      exact ⟨hsound', hlater.trans law hlater'⟩

end Contract

end RecordRing
