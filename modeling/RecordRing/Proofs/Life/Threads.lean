import RecordRing.Network.Basic
import RecordRing.Proofs.Life.Acts

/-!
# Threads of a life

One operation of a node, turn by turn.  A `Thread` tells how the operation goes on and what it has
come to, whatever the peers answer; between two of its turns anything may happen to the node but to
its name and its tunables, and the directory may be another one at every turn.  An operation is
`Undisturbed` if nothing else happens to the node in between.

## Implementation notes

The node answers its own questions itself, in turns that belong to the thread.  An operation that is
under way can always go on: a strand that is due takes its turn, and one that is away hears an
answer.  So an operation ends if the number of its turns is bounded.
-/

namespace RecordRing

/-- Where an operation of a node stands. -/
inductive Juncture : Type where
  /-- The operation is under way. -/
  | under (strand : Strand)
  /-- The operation has ended. -/
  | ended (ending : Ending)

/-- Where an operation stands when the answer that is awaited arrives. -/
def Chain.hear {shape : Shape} : Chain shape → Outcome shape → Juncture
  | .root, outcome => .ended ⟨shape, outcome⟩
  | .wait frame below, outcome => .under (.due (.resume frame outcome) below)

/-- Where an operation stands after an action of the node, above the operations that wait for its
result. -/
def Action.juncture {result : Shape} (below : Chain result) : Action result → Juncture
  | .reply outcome => below.hear outcome
  | .ask .own request frame => .under (.due (.start (.serve request)) (.wait frame below))
  | .ask (.remote _) _ frame => .under (.away (.wait frame below))
  | .run operation frame => .under (.due (.start operation) (.wait frame below))
  | .call _ frame => .under (.away (.wait frame below))
  | .lock _ frame => .under (.away (.wait frame below))
  | .sleep _ frame => .under (.away (.wait frame below))

/-- The turns that a node of a name and with tunables takes for one operation, and where the
operation stands after them. -/
inductive Thread (id : Token) (config : Config) (first : Juncture) :
    List Act → Juncture → Prop where
  /-- No turn has been taken yet. -/
  | nil : Thread id config first [] first
  /-- An answer arrives from elsewhere. -/
  | answer {acts : List Act} {shape : Shape} {chain : Chain shape}
      (thread : Thread id config first acts (.under (.away chain))) (outcome : Outcome shape) :
      Thread id config first acts (chain.hear outcome)
  /-- The node takes a turn. -/
  | work {acts : List Act} {node : Node} {cue : Cue} {below : Chain cue.result}
      (thread : Thread id config first acts (.under (.due cue below))) (around : Surroundings)
      (named : node.id = id) (tuned : node.config = config) :
      Thread id config first (acts ++ [⟨node, around, cue⟩])
        ((node.follow around cue).action.juncture below)

/-- The turns that a node takes for one operation while nothing else happens to it, where the
operation stands after them, and what has become of the node. -/
inductive Undisturbed (node : Node) (first : Juncture) : List Act → Juncture → Node → Prop where
  /-- No turn has been taken yet. -/
  | nil : Undisturbed node first [] first node
  /-- An answer arrives from elsewhere. -/
  | answer {acts : List Act} {later : Node} {shape : Shape} {chain : Chain shape}
      (run : Undisturbed node first acts (.under (.away chain)) later) (outcome : Outcome shape) :
      Undisturbed node first acts (chain.hear outcome) later
  /-- The node takes a turn. -/
  | work {acts : List Act} {later : Node} {cue : Cue} {below : Chain cue.result}
      (run : Undisturbed node first acts (.under (.due cue below)) later) (around : Surroundings) :
      Undisturbed node first (acts ++ [⟨later, around, cue⟩])
        ((later.follow around cue).action.juncture below) (later.follow around cue).node

/-- An operation that has been called for and has not begun. -/
def Operation.called {shape : Shape} (operation : Operation shape) : Juncture :=
  .under (.due (.start operation) .root)

namespace Thread

variable {id : Token} {config : Config} {first juncture : Juncture} {acts : List Act}

/-- An answer arrives and the node goes on at once. -/
theorem answered {shape result : Shape} {frame : Frame shape result} {below : Chain result}
    (thread : Thread id config first acts (.under (.away (.wait frame below))))
    (outcome : Outcome shape) (node : Node) (around : Surroundings) (named : node.id = id)
    (tuned : node.config = config) :
    Thread id config first (acts ++ [⟨node, around, .resume frame outcome⟩])
      ((node.resume around frame outcome).action.juncture below) :=
  (thread.answer outcome).work around named tuned

/-- All turns are taken by one node. -/
theorem named (thread : Thread id config first acts juncture) : ∀ act ∈ acts, act.node.id = id := by
  induction thread with
  | nil => exact fun _ => nofun
  | answer _ _ ih => exact ih
  | work _ _ named _ ih =>
      intro act mem
      rcases List.mem_append.1 mem with hmem | hmem
      · exact ih act hmem
      · rw [List.mem_singleton.1 hmem]
        exact named

/-- An operation that is under way can end or take another turn. -/
theorem further {strand : Strand} (thread : Thread id config first acts (.under strand)) :
    (∃ ending, Thread id config first acts (.ended ending)) ∨
      ∃ act later, Thread id config first (acts ++ [act]) later := by
  let node : Node := .fresh id (.empty none) config
  let around : Surroundings := ⟨0, fun _ => none⟩
  cases strand with
  | due cue below => exact .inr ⟨_, _, @Thread.work _ _ _ _ node _ _ thread around rfl rfl⟩
  | @away shape chain =>
      have hanswered := thread.answer (.error (.noSuccessor id))
      cases chain with
      | root => exact .inl ⟨_, hanswered⟩
      | wait frame below =>
          exact .inr ⟨_, _, @Thread.work _ _ _ _ node _ _ hanswered around rfl rfl⟩

/-- If the number of turns is bounded, then an operation comes to its end. -/
theorem ends {bound : Nat}
    (bounded : ∀ acts juncture, Thread id config first acts juncture → acts.length ≤ bound)
    (thread : Thread id config first acts juncture) :
    ∃ more ending, Thread id config first (acts ++ more) (.ended ending) := by
  induction hleft : bound - acts.length using Nat.strongRecOn generalizing acts juncture with
  | ind left ih =>
      cases juncture with
      | ended ending => exact ⟨[], ending, by simpa using thread⟩
      | under strand =>
          rcases thread.further with ⟨ending, hends⟩ | ⟨act, later, hmore⟩
          · exact ⟨[], ending, by simpa using hends⟩
          · have hlength : (acts ++ [act]).length = acts.length + 1 := by simp
            have hbound := bounded _ _ hmore
            obtain ⟨more, ending, hends⟩ := ih _ (by omega) hmore rfl
            exact ⟨act :: more, ending, by simpa using hends⟩

end Thread

/-- A node keeps its tunables. -/
theorem Node.Shifts.tuned {node later : Node} {around : Surroundings} {cue : Cue}
    {effects : List Effect} (shifts : node.Shifts around cue later effects) :
    later.config = node.config := by
  cases shifts <;> rfl

namespace Undisturbed

variable {node later : Node} {first juncture : Juncture} {acts : List Act}

/-- An operation during which nothing else happens to the node. -/
theorem thread (run : Undisturbed node first acts juncture later) :
    Thread node.id node.config first acts juncture ∧ later.id = node.id ∧
      later.config = node.config := by
  induction run with
  | nil => exact ⟨.nil, rfl, rfl⟩
  | answer _ outcome ih => exact ⟨ih.1.answer outcome, ih.2⟩
  | @work acts later cue below _ around ih =>
      obtain ⟨hthread, hnamed, htuned⟩ := ih
      have hshifts := Node.shifts_follow later around cue
      exact ⟨hthread.work around hnamed htuned, hshifts.named.trans hnamed,
        hshifts.tuned.trans htuned⟩

end Undisturbed

/-! ### Questions -/

/-- A question that any node answers at once and stays as it is. -/
def Request.IsPlain {shape : Shape} (request : Request shape) : Prop :=
  ∀ (node : Node) (around : Surroundings), ∃ outcome, node.serve around request = node.reply outcome

theorem isPlain_successor : (Request.successor).IsPlain := fun node _ => ⟨.ok node.successor, rfl⟩

theorem isPlain_predecessor : (Request.predecessor).IsPlain :=
  fun node _ => ⟨.ok node.predecessor, rfl⟩

theorem isPlain_closestPrecedingFinger (key : Token) :
    (Request.closestPrecedingFinger key).IsPlain :=
  fun node around => ⟨.ok (node.closestPrecedingFinger around key), rfl⟩

/-- A node takes no notice of itself. -/
theorem Node.serve_notify_own (node : Node) (around : Surroundings) :
    node.serve around (.notify node.id) = node.reply (.ok ()) := by
  simp only [Node.serve, Node.notified, ne_eq, not_true_eq_false, false_and, if_false,
    Node.acknowledge]
  rfl

/-- An operation has asked something and waits for the answer, or goes on with it; `turns` turns
have been taken since it asked. -/
inductive Juncture.Asks {shape result : Shape} (request : Request shape)
    (frame : Frame shape result) (below : Chain result) : Juncture → Nat → Prop where
  /-- A peer has been asked. -/
  | away : Asks request frame below (.under (.away (.wait frame below))) 0
  /-- The node has asked itself. -/
  | own : Asks request frame below (.under (.due (.start (.serve request)) (.wait frame below))) 0
  /-- The answer has arrived. -/
  | heard (outcome : Outcome shape) {turns : Nat} (few : turns ≤ 1) :
      Asks request frame below (.under (.due (.resume frame outcome) below)) turns

namespace Juncture

variable {shape result : Shape} {request : Request shape} {frame : Frame shape result}
  {below : Chain result} {turns : Nat}

theorem asks_ask (node : Node) (peer : Contact) :
    ((node.ask peer request frame).action.juncture below).Asks request frame below 0 := by
  cases peer with
  | own => exact .own
  | remote handle => exact .away

theorem Asks.few {juncture : Juncture} (asks : juncture.Asks request frame below turns) :
    turns ≤ 1 := by
  cases asks with
  | away => exact Nat.zero_le 1
  | own => exact Nat.zero_le 1
  | heard outcome few => exact few

/-- An answer from elsewhere is one to the question. -/
theorem Asks.answer {awaited : Shape} {chain : Chain awaited}
    (asks : (Juncture.under (.away chain)).Asks request frame below turns)
    (outcome : Outcome awaited) : (chain.hear outcome).Asks request frame below turns := by
  cases asks with
  | away => exact .heard outcome (Nat.zero_le 1)

/-- The node answers its own question, or goes on with an answer. -/
theorem Asks.work {cue : Cue} {chain : Chain cue.result}
    (asks : (Juncture.under (.due cue chain)).Asks request frame below turns)
    {node : Node} {around : Surroundings}
    (plain : ∃ outcome, node.serve around request = node.reply outcome) :
    (cue = .start (.serve request) ∧ turns = 0 ∧
      ∃ outcome, (node.follow around cue).action.juncture chain =
        .under (.due (.resume frame outcome) below)) ∨
    ∃ outcome, cue = .resume frame outcome ∧ (node.follow around cue).action.juncture chain =
      (node.resume around frame outcome).action.juncture below := by
  cases asks with
  | own =>
      obtain ⟨outcome, hserve⟩ := plain
      refine .inl ⟨rfl, rfl, outcome, ?_⟩
      have hturn : node.follow around (.start (.serve request)) = node.reply outcome := hserve
      rw [hturn]
      rfl
  | heard outcome few => exact .inr ⟨outcome, rfl, rfl⟩

end Juncture

end RecordRing
