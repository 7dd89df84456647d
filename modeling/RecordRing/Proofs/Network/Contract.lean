import RecordRing.Proofs.Network.Members

/-!
# Contracts between operations

Operations of several nodes wait for one another's answers while the network changes around them.  A
`Contract` says what an operation may count on when it starts, what its answer means at the moment
when it is given, and what a waiting operation remembers and expects.

The main statements lift a contract from turns to runs: if every turn of a node keeps the contract
(`Lawful`), then every step of every task does (`Sound.step`, `Sound.wake`), in whatever order the
tasks take their steps.

## Implementation notes

What an operation counts on has to survive the steps of all others.  So every expectation is stated
for the moment of the answer, which may be any network that comes after the present one.
-/

namespace RecordRing

/-- Every operation that a purpose will start is of a kind. -/
def Purpose.All (allowed : Handle → Operation .nothing → Prop) : Purpose → Prop
  | client rest => ∀ next ∈ rest, allowed next.1 next.2
  | loop ticking => allowed ticking.member ticking.operation
  | background => True
  | sender _ => True

/-- Whether the first turn of an operation gives the node its place on a ring. -/
def Operation.places {shape : Shape} : Operation shape → Bool
  | .found => true
  | _ => false

/-- Whether an answer gives the node its place on a ring. -/
def Frame.places {shape result : Shape} : Frame shape result → Outcome shape → Bool
  | .placeAsked, .ok _ => true
  | _, _ => false

/-- Whether a member's node has its place on a ring. -/
def Network.isPlaced (net : Network) (handle : Handle) : Bool :=
  (net.nodeAt? handle).any fun node => node.successor.isSome

/-- Whether the next step of a task gives a place to a node that has one. -/
def Network.replaces (net : Network) (number : Nat) : Bool :=
  match net.tasks[number]? with
  | some ⟨_, _, .start handle operation, _⟩ => operation.places && net.isPlaced handle
  | some ⟨_, _, .answer outcome, .frame handle frame _⟩ =>
    frame.places outcome && net.isPlaced handle
  | _ => false

/-- What operations count on, remember and promise. -/
structure Contract where
  /-- What holds of the network at all times. -/
  Holds : Network → Prop
  /-- Which networks may come after one. -/
  Later : Network → Network → Prop
  /-- What a member counts on when it starts an operation. -/
  Duty : Network → Handle → {shape : Shape} → Operation shape → Prop
  /-- What the answer of a member's operation means at the moment when it is given. -/
  Promise : Network → Handle → {shape : Shape} → Operation shape → Outcome shape → Prop
  /-- What a waiting operation of a member remembers. -/
  Keeps : Network → Handle → {shape result : Shape} → Frame shape result → Prop
  /-- What a waiting operation of a member expects of the answer. -/
  Wants : Network → Handle → {shape result : Shape} → Frame shape result → Outcome shape → Prop
  /-- What the answer of a waiting operation will mean. -/
  Gives : Network → Handle → {shape result : Shape} → Frame shape result → Outcome result → Prop

namespace Contract

variable {C : Contract} {net after last : Network} {handle number : Nat} {shape result : Shape}
  {member : Member} {node : Node} {purpose : Purpose}

/-- A network that may come after another one and keeps the contract. -/
def After (C : Contract) (net after : Network) : Prop := C.Later net after ∧ C.Holds after

/-- At every later moment, an answer that meets the first condition meets the second. -/
def Meets (C : Contract) (net : Network) (given wanted : Network → Outcome shape → Prop) : Prop :=
  ∀ after, C.After net after → ∀ outcome, given after outcome → wanted after outcome

/-- A member may start an operation, and its answer will be as wanted. -/
def Starts (C : Contract) (net : Network) (handle : Handle) (operation : Operation shape)
    (wanted : Network → Outcome shape → Prop) : Prop :=
  C.Duty net handle operation ∧ C.Meets net (fun later => C.Promise later handle operation) wanted

/-- Whatever the answer is, it will be as wanted. -/
def Accepts (C : Contract) (net : Network) (wanted : Network → Outcome shape → Prop) : Prop :=
  C.Meets net (fun _ _ => True) wanted

/-- An operation of a member may wait, and its own answer will be as wanted. -/
def Waits (C : Contract) (net : Network) (handle : Handle) (frame : Frame shape result)
    (wanted : Network → Outcome result → Prop) : Prop :=
  C.Keeps net handle frame ∧ C.Meets net (fun later => C.Gives later handle frame) wanted

/-- What the waiting operations expect of the next answer. -/
def Awaits (C : Contract) : Stack shape → Network → Outcome shape → Prop
  | .root, _, _ => True
  | .frame handle frame _, net, outcome => C.Wants net handle frame outcome

/-- Every waiting operation may wait, and answers as the one below it expects. -/
def StackSound (C : Contract) (net : Network) : {shape : Shape} → Stack shape → Prop
  | _, .root => True
  | _, .frame handle frame below =>
    C.Waits net handle frame (C.Awaits below) ∧ C.StackSound net below

/-- What happens next will lead to an answer as wanted. -/
def ControlSound (C : Contract) (net : Network) :
    {shape : Shape} → (Network → Outcome shape → Prop) → Control shape → Prop
  | _, wanted, .answer outcome => wanted net outcome
  | _, wanted, .start handle operation => C.Starts net handle operation wanted
  | _, wanted, .send peer request => C.Starts net peer (.serve request) wanted
  | _, wanted, .arrive peer request => C.Starts net peer (.serve request) wanted
  | _, wanted, .access _ _ => C.Accepts net wanted
  | _, wanted, .hold _ next => C.ControlSound net wanted next
  | _, wanted, .queue _ _ _ => C.Accepts net wanted

/-- The operations that a purpose will start may be started. -/
def PurposeSound (C : Contract) (net : Network) (purpose : Purpose) : Prop :=
  purpose.All fun handle operation => C.Duty net handle operation

/-- A task keeps the contract. -/
structure TaskSound (C : Contract) (net : Network) (task : Task) : Prop where
  purpose : C.PurposeSound net task.purpose
  control : C.ControlSound net (C.Awaits task.stack) task.control
  stack : C.StackSound net task.stack

/-- A network and all of its tasks keep the contract. -/
structure Sound (C : Contract) (net : Network) : Prop where
  holds : C.Holds net
  tasks : ∀ (number : Nat) task, net.tasks[number]? = some task → C.TaskSound net task

/-- What a turn does next will lead to an answer as wanted. -/
def ActionSound (C : Contract) (net : Network) (handle : Handle)
    (wanted : Network → Outcome result → Prop) : Action result → Prop
  | .reply outcome => wanted net outcome
  | .ask contact request frame =>
    C.Starts net (contact.at handle) (.serve request) (fun later => C.Wants later handle frame) ∧
      C.Waits net handle frame wanted
  | .run operation frame =>
    C.Starts net handle operation (fun later => C.Wants later handle frame) ∧
      C.Waits net handle frame wanted
  | .call _ frame =>
    C.Accepts net (fun later => C.Wants later handle frame) ∧ C.Waits net handle frame wanted
  | .lock _ frame =>
    C.Accepts net (fun later => C.Wants later handle frame) ∧ C.Waits net handle frame wanted
  | .sleep _ frame =>
    C.Accepts net (fun later => C.Wants later handle frame) ∧ C.Waits net handle frame wanted

/-- A turn of a member keeps the contract, and its answer will be as wanted. -/
structure TurnSound (C : Contract) (net : Network) (handle : Handle) (turn : Turn result)
    (wanted : Network → Outcome result → Prop) : Prop where
  after : C.After net (net.setNode handle turn.node)
  spawns : ∀ operation, .spawn operation ∈ turn.effects →
    C.Duty (net.setNode handle turn.node) handle operation
  action : C.ActionSound (net.setNode handle turn.node) handle wanted turn.action

/-- A contract that every single turn keeps. -/
structure Lawful (C : Contract) : Prop where
  refl : ∀ net, C.Later net net
  trans : ∀ {net after last}, C.Later net after → C.Later after last → C.Later net last
  akin : ∀ {net after}, C.Holds net → net.Akin after → C.After net after
  members : ∀ {net handle}, C.Holds net → net.script? handle = none
  duty : ∀ {net after handle shape} {operation : Operation shape},
    C.After net after → C.Duty net handle operation → C.Duty after handle operation
  keeps : ∀ {net after handle shape result} {frame : Frame shape result},
    C.After net after → C.Keeps net handle frame → C.Keeps after handle frame
  wants : ∀ {net after handle shape result} {frame : Frame shape result} {outcome},
    C.After net after → C.Wants net handle frame outcome → C.Wants after handle frame outcome
  failure : ∀ {net handle shape result} {frame : Frame shape result} {failure},
    C.Wants net handle frame (.error failure)
  report : ∀ {net handle requester}, C.Duty net handle (.reportMoved requester)
  start : ∀ {net handle node shape} {operation : Operation shape},
    C.Holds net → net.nodeAt? handle = some node → C.Duty net handle operation →
    (operation.places = true → node.successor = none) →
    C.TurnSound net handle (node.start net.surroundings operation)
      (fun later => C.Promise later handle operation)
  resume : ∀ {net handle node shape result} {frame : Frame shape result} {outcome},
    C.Holds net → net.nodeAt? handle = some node → C.Keeps net handle frame →
    C.Wants net handle frame outcome → (frame.places outcome = true → node.successor = none) →
    C.TurnSound net handle (node.resume net.surroundings frame outcome)
      (fun later => C.Gives later handle frame)

theorem successor_eq_none {places : Bool} (first : (places && net.isPlaced handle) = false)
    (found : net.nodeAt? handle = some node) (h : places = true) : node.successor = none := by
  rw [h, Bool.true_and, Network.isPlaced, found] at first
  exact Option.isNone_iff_eq_none.1 (by simpa using first)

/-! ## Later moments -/

theorem After.refl (law : C.Lawful) (holds : C.Holds net) : C.After net net :=
  ⟨law.refl net, holds⟩

theorem After.trans (law : C.Lawful) (h : C.After net after) (h' : C.After after last) :
    C.After net last :=
  ⟨law.trans h.1 h'.1, h'.2⟩

section Mono

variable {given wanted : Network → Outcome shape → Prop} {frame : Frame shape result}

theorem Meets.mono (law : C.Lawful) (later : C.After net after) (h : C.Meets net given wanted) :
    C.Meets after given wanted :=
  fun last hlast => h last (later.trans law hlast)

theorem Starts.mono (law : C.Lawful) (later : C.After net after) {operation : Operation shape}
    (h : C.Starts net handle operation wanted) : C.Starts after handle operation wanted :=
  ⟨law.duty later h.1, Meets.mono law later h.2⟩

theorem Waits.mono (law : C.Lawful) (later : C.After net after)
    {wanted : Network → Outcome result → Prop} (h : C.Waits net handle frame wanted) :
    C.Waits after handle frame wanted :=
  ⟨law.keeps later h.1, Meets.mono law later h.2⟩

theorem Awaits.mono (law : C.Lawful) (later : C.After net after) {stack : Stack shape}
    {outcome : Outcome shape} (h : C.Awaits stack net outcome) : C.Awaits stack after outcome := by
  cases stack with
  | root => exact h
  | frame handle frame below => exact law.wants later h

theorem StackSound.mono (law : C.Lawful) (later : C.After net after) {stack : Stack shape}
    (h : C.StackSound net stack) : C.StackSound after stack := by
  induction stack with
  | root => exact h
  | frame handle frame below ih => exact ⟨Waits.mono law later h.1, ih h.2⟩

theorem ControlSound.mono (law : C.Lawful) (later : C.After net after) {control : Control shape}
    (keep : ∀ {outcome}, wanted net outcome → wanted after outcome)
    (h : C.ControlSound net wanted control) : C.ControlSound after wanted control := by
  induction control with
  | answer outcome => exact keep h
  | start handle operation => exact Starts.mono law later h
  | send peer request => exact Starts.mono law later h
  | arrive peer request => exact Starts.mono law later h
  | access handle call => exact Meets.mono law later h
  | hold moment next ih => exact ih keep h
  | queue handle id deadline => exact Meets.mono law later h

theorem PurposeSound.mono (law : C.Lawful) (later : C.After net after)
    (h : C.PurposeSound net purpose) : C.PurposeSound after purpose := by
  cases purpose with
  | client rest => exact fun next hnext => law.duty later (h next hnext)
  | loop loop => exact law.duty later h
  | background => exact h
  | sender handle => exact h

theorem TaskSound.mono (law : C.Lawful) (later : C.After net after) {task : Task}
    (h : C.TaskSound net task) : C.TaskSound after task :=
  ⟨PurposeSound.mono law later h.purpose, ControlSound.mono law later (Awaits.mono law later) h.control,
    StackSound.mono law later h.stack⟩

theorem ActionSound.mono (law : C.Lawful) (later : C.After net after)
    {wanted : Network → Outcome result → Prop} {action : Action result}
    (keep : ∀ {outcome}, wanted net outcome → wanted after outcome)
    (h : C.ActionSound net handle wanted action) : C.ActionSound after handle wanted action := by
  cases action with
  | reply outcome => exact keep h
  | ask contact request frame => exact ⟨Starts.mono law later h.1, Waits.mono law later h.2⟩
  | run operation frame => exact ⟨Starts.mono law later h.1, Waits.mono law later h.2⟩
  | call call frame => exact ⟨Meets.mono law later h.1, Waits.mono law later h.2⟩
  | lock id frame => exact ⟨Meets.mono law later h.1, Waits.mono law later h.2⟩
  | sleep millis frame => exact ⟨Meets.mono law later h.1, Waits.mono law later h.2⟩

end Mono

theorem awaits_failure (law : C.Lawful) (stack : Stack shape) (net : Network) (failure : Failure) :
    C.Awaits stack net (.error failure) := by
  cases stack with
  | root => trivial
  | frame handle frame below => exact law.failure

/-- What is accepted whatever it is, is accepted now. -/
theorem Accepts.now (law : C.Lawful) (holds : C.Holds net)
    {wanted : Network → Outcome shape → Prop} (h : C.Accepts net wanted)
    (outcome : Outcome shape) : wanted net outcome :=
  h net (After.refl law holds) outcome trivial

/-- A control that is held back first. -/
theorem ControlSound.held {wanted : Network → Outcome shape → Prop} (now delay : Nat)
    (next : Control shape) (h : C.ControlSound net wanted next) :
    C.ControlSound net wanted (.after now delay next) := by
  rw [Control.after]
  split
  · exact h
  · exact h

/-- An answer that meets one condition may be wanted for another that follows from it. -/
theorem ActionSound.weaken (holds : C.Holds net) (law : C.Lawful)
    {given wanted : Network → Outcome result → Prop} {action : Action result}
    (meets : C.Meets net given wanted) (h : C.ActionSound net handle given action) :
    C.ActionSound net handle wanted action := by
  have hwaits : ∀ {shape : Shape} {frame : Frame shape result},
      C.Waits net handle frame given → C.Waits net handle frame wanted :=
    fun hframe => ⟨hframe.1, fun later hlater outcome hgives =>
      meets later hlater outcome (hframe.2 later hlater outcome hgives)⟩
  cases action with
  | reply outcome => exact meets net (After.refl law holds) outcome h
  | ask contact request frame => exact ⟨h.1, hwaits h.2⟩
  | run operation frame => exact ⟨h.1, hwaits h.2⟩
  | call call frame => exact ⟨h.1, hwaits h.2⟩
  | lock id frame => exact ⟨h.1, hwaits h.2⟩
  | sleep millis frame => exact ⟨h.1, hwaits h.2⟩

theorem TurnSound.weaken (law : C.Lawful) {given wanted : Network → Outcome result → Prop}
    {turn : Turn result} (meets : C.Meets net given wanted)
    (h : C.TurnSound net handle turn given) : C.TurnSound net handle turn wanted :=
  ⟨h.after, h.spawns, ActionSound.weaken h.after.2 law (Meets.mono law h.after meets) h.action⟩

/-! ## Operations of the network -/

namespace Sound

/-- A later network in which every task is an old one or sound is sound. -/
theorem of_after (law : C.Lawful) (sound : C.Sound net) (later : C.After net after)
    (tasks : ∀ (number : Nat) task, after.tasks[number]? = some task →
      net.tasks[number]? = some task ∨ C.TaskSound after task) : C.Sound after := by
  refine ⟨later.2, fun number task htask => ?_⟩
  rcases tasks number task htask with hold | hnew
  · exact (sound.tasks number task hold).mono law later
  · exact hnew

/-- Nodes that are the same up to records and locks, and the same tasks. -/
theorem of_akin (law : C.Lawful) (sound : C.Sound net) (akin : net.Akin after)
    (tasks : after.tasks = net.tasks) : C.Sound after :=
  of_after law sound (law.akin sound.holds akin) fun _ _ htask => Or.inl (tasks ▸ htask)

theorem putTask (law : C.Lawful) (sound : C.Sound net) (number : Nat) {task : Task}
    (h : C.TaskSound net task) : C.Sound (net.putTask number task) := by
  have hlater : C.After net (net.putTask number task) :=
    law.akin sound.holds (Network.Akin.of_same rfl rfl)
  refine of_after law sound hlater fun other found hfound => ?_
  rw [Network.getElem?_putTask] at hfound
  split at hfound
  · rw [← Option.some.inj hfound]
    exact Or.inr (h.mono law hlater)
  · exact Or.inl hfound

theorem makeReady (law : C.Lawful) (sound : C.Sound net) (number : Nat) :
    C.Sound (net.makeReady number) :=
  of_akin law sound (Network.Akin.of_same rfl rfl) rfl

theorem dropTask (law : C.Lawful) (sound : C.Sound net) (number : Nat) :
    C.Sound (net.dropTask number) := by
  refine of_after law sound (law.akin sound.holds (Network.Akin.of_same rfl rfl))
    fun other found hfound => ?_
  rw [Network.getElem?_dropTask] at hfound
  split at hfound
  · cases hfound
  · exact Or.inl hfound

/-- The first task of an operation that may be started. -/
theorem taskOf (purposes : C.PurposeSound net purpose) {operation : Operation shape}
    (duty : C.Duty net handle operation) :
    C.TaskSound net (Network.taskOf purpose handle operation) :=
  ⟨purposes, ⟨duty, fun _ _ _ _ => trivial⟩, trivial⟩

theorem spawn (law : C.Lawful) (sound : C.Sound net) {task : Task} (h : C.TaskSound net task) :
    C.Sound (net.spawn task) := by
  have hadded := sound.putTask law net.nextTask h
  exact of_akin law hadded (Network.Akin.of_same rfl rfl) rfl

theorem setMember (law : C.Lawful) (sound : C.Sound net) (found : net.member? handle = some member)
    {new : Member} (same : new.core = member.core) : C.Sound (net.setMember handle new) :=
  of_akin law sound (Network.Akin.setMember found same) rfl

theorem grant (law : C.Lawful) (sound : C.Sound net) (number : Nat) : C.Sound (net.grant number) := by
  rw [Network.grant]
  split
  · rename_i purpose member id deadline stack hqueued
    have htask := sound.tasks _ _ hqueued
    have hnow : C.Awaits stack net (.ok ()) := Accepts.now law sound.holds htask.control _
    have hgranted : C.TaskSound net ⟨purpose, .nothing, .answer (.ok ()), stack⟩ :=
      ⟨htask.purpose, hnow, htask.stack⟩
    exact (sound.putTask law number hgranted).makeReady law number
  · exact sound

theorem perform (law : C.Lawful) (sound : C.Sound net) {effect : Effect}
    (spawns : ∀ operation, effect = .spawn operation → C.Duty net handle operation) :
    C.Sound (net.perform handle effect) := by
  cases found : net.member? handle with
  | none =>
      rw [Network.perform_none found]
      exact sound
  | some member =>
      cases effect with
      | release id =>
          rw [Network.perform_release found]
          have hfreed : C.Sound (net.setMember handle
              (member.withLocks (member.node.locks.release id).2)) :=
            setMember law sound found rfl
          split
          · exact hfreed.grant law _
          · exact hfreed
      | spawn operation =>
          rw [Network.perform_spawn found]
          have hpurpose : C.PurposeSound net .background := trivial
          exact sound.spawn law (taskOf hpurpose (spawns operation rfl))
      | announce requester =>
          rw [Network.perform_announce found]
          split
          · exact setMember law sound found rfl
          · have hsending : C.Sound (net.setMember handle { member with sending := true }) :=
              setMember law sound found rfl
            have hpurpose : C.PurposeSound (net.setMember handle { member with sending := true })
                (.sender handle) := trivial
            exact hsending.spawn law (taskOf hpurpose law.report)
      | tally counter =>
          rw [Network.perform_tally found]
          exact of_akin law sound (Network.Akin.of_same rfl rfl) rfl

theorem performs (law : C.Lawful) (sound : C.Sound net) {effects : List Effect}
    (spawns : ∀ operation, .spawn operation ∈ effects → C.Duty net handle operation) :
    C.Sound (effects.foldl (fun left effect => left.perform handle effect) net) := by
  induction effects generalizing net with
  | nil => exact sound
  | cons effect rest ih =>
      have hlater := law.akin sound.holds (Network.akin_perform net handle effect)
      have hfirst : C.Sound (net.perform handle effect) :=
        sound.perform law fun operation heq => spawns operation (heq ▸ List.mem_cons_self ..)
      exact ih hfirst fun operation hmem =>
        law.duty hlater (spawns operation (List.mem_cons_of_mem _ hmem))

theorem act (law : C.Lawful) (sound : C.Sound net) (number : Nat) {below : Stack result}
    {action : Action result} (purposes : C.PurposeSound net purpose)
    (stack : C.StackSound net below) (h : C.ActionSound net handle (C.Awaits below) action) :
    C.Sound (net.act number purpose handle below action) := by
  cases action with
  | reply outcome => exact sound.putTask law number ⟨purposes, h, stack⟩
  | ask contact request frame =>
      cases contact with
      | own => exact sound.putTask law number ⟨purposes, h.1, h.2, stack⟩
      | remote peer => exact sound.putTask law number ⟨purposes, h.1, h.2, stack⟩
  | run operation frame => exact sound.putTask law number ⟨purposes, h.1, h.2, stack⟩
  | call call frame =>
      refine sound.putTask law number ⟨purposes, ?_, h.2, stack⟩
      exact ControlSound.held _ _ (.access handle call) h.1
  | sleep millis frame =>
      have hnow : C.ControlSound net (fun later => C.Wants later handle frame)
          (.answer (.ok ()) : Control .nothing) :=
        Accepts.now law sound.holds h.1 (.ok ())
      exact sound.putTask law number ⟨purposes, ControlSound.held _ _ _ hnow, h.2, stack⟩
  | lock id frame =>
      cases found : net.member? handle with
      | none =>
          simp only [Network.act, found]
          exact sound
      | some member =>
          simp only [Network.act, found]
          let locks := (member.node.locks.acquire id net.now
            ⟨number, net.now + member.node.config.lockTimeout⟩).2
          have hlocked : C.Sound (net.setMember handle (member.withLocks locks)) :=
            setMember law sound found rfl
          have hlater : C.After net (net.setMember handle (member.withLocks locks)) :=
            law.akin sound.holds (Network.Akin.setMember found rfl)
          have haccepts := Meets.mono law hlater h.1
          refine hlocked.putTask law number ⟨PurposeSound.mono law hlater purposes, ?_,
            Waits.mono law hlater h.2, StackSound.mono law hlater stack⟩
          -- the lock is granted, awaited or refused, and the operation accepts either answer
          show C.ControlSound (net.setMember handle (member.withLocks locks)) _ _
          split
          · exact Accepts.now law hlocked.holds haccepts _
          · exact haccepts
          · exact Accepts.now law hlocked.holds haccepts _

/-- A turn that keeps the contract, with its side effects and its next action. -/
theorem work (law : C.Lawful) (sound : C.Sound net) (number : Nat) {below : Stack result}
    {turn : Node → Surroundings → Turn result} (purposes : C.PurposeSound net purpose)
    (stack : C.StackSound net below) (h : ∀ node, net.nodeAt? handle = some node →
      C.TurnSound net handle (turn node net.surroundings) (C.Awaits below)) :
    C.Sound (net.work number purpose handle below turn) := by
  cases found : net.member? handle with
  | none =>
      simp only [Network.work, found]
      exact sound.dropTask law number
  | some member =>
      simp only [Network.work, found]
      have hturn := h member.node (Network.nodeAt?_of_member? found)
      let done := turn member.node net.surroundings
      rw [← Network.setNode_eq found]
      have hset : C.Sound (net.setNode handle done.node) := by
        refine of_after law sound hturn.after fun other task htask => Or.inl ?_
        rw [Network.setNode_eq found] at htask
        exact htask
      have hakin := Network.akin_performs (net.setNode handle done.node) handle done.effects
      have hlater := law.akin hset.holds hakin
      have hall := hturn.after.trans law hlater
      exact (hset.performs law hturn.spawns).act law number (PurposeSound.mono law hall purposes)
        (StackSound.mono law hall stack) (ActionSound.mono law hlater (Awaits.mono law hlater)
          hturn.action)

theorem sendNext (law : C.Lawful) (sound : C.Sound net) (number : Nat) (handle : Handle) :
    C.Sound (net.sendNext number handle) := by
  cases found : net.member? handle with
  | none =>
      simp only [Network.sendNext, found]
      exact sound.dropTask law number
  | some member =>
      simp only [Network.sendNext, found]
      split
      · have hidle : C.Sound (net.setMember handle { member with sending := false }) :=
          setMember law sound found rfl
        exact hidle.dropTask law number
      · rename_i requester rest hbox
        have hless : C.Sound (net.setMember handle { member with outbox := rest }) :=
          setMember law sound found rfl
        have hpurpose : C.PurposeSound (net.setMember handle { member with outbox := rest })
            (.sender handle) := trivial
        exact hless.putTask law number (taskOf hpurpose law.report)

theorem goRound (law : C.Lawful) (sound : C.Sound net) (number : Nat) {loop : Loop}
    (duty : C.Duty net loop.member loop.operation) : C.Sound (net.goRound number loop) := by
  rw [Network.goRound]
  split
  · exact sound.dropTask law number
  · split
    · have hpurpose : C.PurposeSound net
          (.loop { loop with next := Network.nextTick net.now loop }) := duty
      exact sound.putTask law number (taskOf hpurpose duty)
    · exact sound.putTask law number ⟨duty, trivial, trivial⟩

theorem finish (law : C.Lawful) (sound : C.Sound net) (number : Nat) (outcome : Outcome shape)
    (purposes : C.PurposeSound net purpose) : C.Sound (net.finish number outcome purpose) := by
  have hended : C.Sound { net.dropTask number with
      endings := net.endings.insert number ⟨shape, outcome⟩ } :=
    of_akin law (sound.dropTask law number) (Network.Akin.of_same rfl rfl) rfl
  cases purpose with
  | client rest =>
      match rest, purposes with
      | [], _ => exact hended
      | (handle, operation) :: rest, hrest =>
          cases outcome with
          | error failure => exact hended
          | ok value =>
              have hlater : C.PurposeSound net (.client rest) :=
                fun next hnext => hrest next (List.mem_cons_of_mem _ hnext)
              exact sound.putTask law number (taskOf hlater (hrest _ (List.mem_cons_self ..)))
  | background => exact sound.dropTask law number
  | sender handle => exact sound.sendNext law number handle
  | loop loop => exact sound.goRound law number purposes

theorem send (law : C.Lawful) (sound : C.Sound net) (number : Nat) {peer : Handle}
    {request : Request shape} {stack : Stack shape} (purposes : C.PurposeSound net purpose)
    (starts : C.Starts net peer (.serve request) (C.Awaits stack)) (below : C.StackSound net stack) :
    C.Sound (net.send number purpose peer request stack) := by
  cases found : net.member? peer with
  | none =>
      simp only [Network.send, found]
      exact sound.putTask law number ⟨purposes, starts, below⟩
  | some member =>
      simp only [Network.send, found]
      let counted := net.setMember peer { member with link := member.link.counting request.method }
      have hcore : ({ member with link := member.link.counting request.method } : Member).core =
          member.core := by
        rw [Member.core, Link.faults_counting]
        rfl
      have hcounted : C.Sound counted := setMember law sound found hcore
      have hlater : C.After net counted := law.akin sound.holds (Network.Akin.setMember found hcore)
      have harrive : C.ControlSound counted (C.Awaits stack) (.arrive peer request) :=
        Starts.mono law hlater starts
      exact hcounted.putTask law number ⟨PurposeSound.mono law hlater purposes,
        ControlSound.held _ _ _ harrive, StackSound.mono law hlater below⟩

theorem arrive (law : C.Lawful) (sound : C.Sound net) (number : Nat) {peer : Handle}
    {request : Request shape} {stack : Stack shape} (purposes : C.PurposeSound net purpose)
    (starts : C.Starts net peer (.serve request) (C.Awaits stack)) (below : C.StackSound net stack) :
    C.Sound (net.arrive number purpose peer request stack) := by
  rw [Network.arrive]
  split
  · exact sound.dropTask law number
  · rename_i script hscript
    have hnone : net.script? peer = none := law.members sound.holds
    rw [Network.script?, hscript] at hnone
    cases hnone
  · split
    · exact sound.putTask law number ⟨purposes, awaits_failure law stack net _, below⟩
    · exact sound.putTask law number ⟨purposes, starts, below⟩

theorem access (law : C.Lawful) (sound : C.Sound net) (number : Nat) {call : StoreCall shape}
    {stack : Stack shape} (purposes : C.PurposeSound net purpose)
    (accepts : C.Accepts net (C.Awaits stack)) (below : C.StackSound net stack) :
    C.Sound (net.access number purpose handle call stack) := by
  cases found : net.member? handle with
  | none =>
      simp only [Network.access, found]
      exact sound.dropTask law number
  | some member =>
      simp only [Network.access, found]
      let store := (member.node.store.perform member.node.config.credential call).2
      have hset : C.Sound (net.setMember handle
          { member with node := { member.node with store := store } }) :=
        setMember law sound found rfl
      have hlater : C.After net (net.setMember handle
          { member with node := { member.node with store := store } }) :=
        law.akin sound.holds (Network.Akin.setMember found rfl)
      exact hset.putTask law number ⟨PurposeSound.mono law hlater purposes,
        Accepts.now law hset.holds (Meets.mono law hlater accepts) _,
        StackSound.mono law hlater below⟩

/-- A step of a task keeps the contract, unless it gives a place to a node that has one. -/
theorem step (law : C.Lawful) (sound : C.Sound net) (number : Nat)
    (first : net.replaces number = false) : C.Sound (net.step number) := by
  rw [Network.replaces] at first
  rw [Network.step]
  split
  · exact sound
  · rename_i purpose shape outcome htask
    exact sound.finish law number outcome (sound.tasks _ _ htask).purpose
  · rename_i purpose shape outcome result handle frame below htask
    have hsound := sound.tasks _ _ htask
    simp only [htask] at first
    refine sound.work law number hsound.purpose hsound.stack.2 fun node hnode => ?_
    have hunplaced := successor_eq_none first hnode
    exact TurnSound.weaken law hsound.stack.1.2
      (law.resume sound.holds hnode hsound.stack.1.1 hsound.control hunplaced)
  · rename_i purpose shape handle operation stack htask
    have hsound := sound.tasks _ _ htask
    simp only [htask] at first
    refine sound.work law number hsound.purpose hsound.stack fun node hnode => ?_
    have hunplaced := successor_eq_none first hnode
    exact TurnSound.weaken law hsound.control.2
      (law.start sound.holds hnode hsound.control.1 hunplaced)
  · rename_i purpose shape peer request stack htask
    have hsound := sound.tasks _ _ htask
    exact sound.send law number hsound.purpose hsound.control hsound.stack
  · rename_i purpose shape peer request stack htask
    have hsound := sound.tasks _ _ htask
    exact sound.arrive law number hsound.purpose hsound.control hsound.stack
  · rename_i purpose shape handle call stack htask
    have hsound := sound.tasks _ _ htask
    exact sound.access law number hsound.purpose hsound.control hsound.stack
  · exact sound
  · exact sound

/-- Waking a task keeps the contract. -/
theorem wake (law : C.Lawful) (sound : C.Sound net) (number : Nat) : C.Sound (net.wake number) := by
  rw [Network.wake]
  split
  · rename_i purpose shape moment next stack htask
    have hsound := sound.tasks _ _ htask
    have hnext : C.TaskSound net ⟨purpose, shape, next, stack⟩ :=
      ⟨hsound.purpose, hsound.control, hsound.stack⟩
    exact (sound.putTask law number hnext).makeReady law number
  · rename_i purpose handle id deadline stack htask
    have hsound := sound.tasks _ _ htask
    split
    · exact sound.dropTask law number
    · rename_i member found
      let locks := member.node.locks.withdraw id number
      have hset : C.Sound (net.setMember handle (member.withLocks locks)) :=
        setMember law sound found rfl
      have hlater : C.After net (net.setMember handle (member.withLocks locks)) :=
        law.akin sound.holds (Network.Akin.setMember found rfl)
      have hrefused : C.TaskSound (net.setMember handle (member.withLocks locks)) ⟨purpose, .nothing,
          .answer (.error (.lockTimeout id.key member.node.config.lockTimeout)), stack⟩ :=
        ⟨PurposeSound.mono law hlater hsound.purpose, awaits_failure law stack _ _,
          StackSound.mono law hlater hsound.stack⟩
      exact (hset.putTask law number hrefused).makeReady law number
  · exact sound

end Sound

end Contract

end RecordRing
