import RecordRing.Proofs.Network.Members

/-!
# Lives of a node

A node in a network of which nothing is known.  Clients and peers call the node in any order, also
while earlier operations of it wait; whatever it waits for may be answered at any moment and in any
way; and the directory may be another one at every turn.  A `Life` tells what becomes of the node
and lists its `Act`s, which are the turns that it takes.

An assertion about the acts and the node that no change of records and locks touches holds
throughout a life if every act keeps it (`Life.induct`).

## Implementation notes

An operation that the node carries out for another one of its own gives its answer to that one, so
nothing is assumed about such answers.  Answers from elsewhere are arbitrary, except that no number
out of range is an answer.
-/

namespace RecordRing

/-- What sets a node to work for one turn. -/
inductive Cue : Type where
  /-- An operation starts. -/
  | start {shape : Shape} (operation : Operation shape)
  /-- The answer that an operation waits for arrives. -/
  | resume {shape result : Shape} (frame : Frame shape result) (outcome : Outcome shape)

/-- The shape of the answer to which the work of a turn leads. -/
def Cue.result : Cue → Shape
  | @start shape _ => shape
  | @resume _ result _ _ => result

/-- The turn that a cue brings about. -/
def Node.follow (node : Node) (around : Surroundings) : (cue : Cue) → Turn cue.result
  | .start operation => node.start around operation
  | .resume frame outcome => node.resume around frame outcome

/-- Operations of one node that wait for one another, innermost first, by the shape of the answer
that is awaited. -/
inductive Chain : Shape → Type where
  /-- Nothing waits: the answer goes to whoever has called the node. -/
  | root {shape : Shape} : Chain shape
  /-- An operation waits, above the operations that wait for it. -/
  | wait {shape result : Shape} (frame : Frame shape result) (below : Chain result) : Chain shape

/-- An operation of a node that is under way. -/
inductive Strand : Type where
  /-- The node can go on with it. -/
  | due (cue : Cue) (below : Chain cue.result)
  /-- An answer from elsewhere is awaited. -/
  | away {shape : Shape} (chain : Chain shape)

/-- What an answer leads to. -/
def Chain.receive {shape : Shape} : Chain shape → Outcome shape → List Strand
  | .root, _ => []
  | .wait frame below, outcome => [.due (.resume frame outcome) below]

/-- What an action of a node leads to, above the operations that wait for its result. -/
def Action.next {result : Shape} (below : Chain result) : Action result → List Strand
  | .reply outcome => below.receive outcome
  | .ask .own request frame => [.due (.start (.serve request)) (.wait frame below)]
  | .ask (.remote _) _ frame => [.away (.wait frame below)]
  | .run operation frame => [.due (.start operation) (.wait frame below)]
  | .call _ frame => [.away (.wait frame below)]
  | .lock _ frame => [.away (.wait frame below)]
  | .sleep _ frame => [.away (.wait frame below)]

/-- The operation that a side effect starts, if it starts one.  The sender of reports works apart
from the node, but it asks the same directory. -/
def Effect.strand? : Effect → Option Strand
  | .spawn operation => some (.due (.start operation) .root)
  | .announce requester => some (.due (.start (.reportMoved requester)) .root)
  | _ => none

/-- Whether an operation is for others to call; the rest is started by the node itself. -/
def Operation.isPublic {shape : Shape} : Operation shape → Bool
  | .serve _ => true
  | .found => true
  | .join _ => true
  | .stabilize => true
  | .fixFingers => true
  | .refreshFingers => true
  | .fixPredecessor => true
  | .ringMembers => true
  | _ => false

/-- An outcome that does not come from a number out of range. -/
def Genuine {shape : Shape} (outcome : Outcome shape) : Prop :=
  ∀ error, outcome ≠ .error (.range error)

variable {shape result : Shape}

theorem genuine_ok (value : shape.Value) : Genuine (.ok value : Outcome shape) := by
  intro error h
  cases h

theorem genuine_done : Genuine (.ok () : Outcome .nothing) := @genuine_ok .nothing ()

theorem genuine_error {failure : Failure} (h : ∀ error, failure ≠ .range error) :
    Genuine (.error failure : Outcome shape) := by
  intro error heq
  exact h error (Except.error.inj heq)

theorem Genuine.failure {failure : Failure} (h : Genuine (.error failure : Outcome shape)) :
    Genuine (.error failure : Outcome result) := by
  intro error heq
  exact h error (congrArg Except.error (Except.error.inj heq))

/-- One turn of a node: the node before it, what the node sees, and what sets it to work. -/
structure Act where
  /-- The node before the turn. -/
  node : Node
  /-- What the node sees. -/
  around : Surroundings
  /-- What sets the node to work. -/
  cue : Cue

/-- What the node does in the turn. -/
def Act.turn (act : Act) : Turn act.cue.result := act.node.follow act.around act.cue

/-- A node with its operations that are under way. -/
structure Scene where
  /-- The node. -/
  node : Node
  /-- The operations under way, in any order. -/
  strands : List Strand

namespace Scene

/-- A node as it is made, which does nothing yet. -/
def fresh (id : Token) (store : Store) (config : Config) : Scene :=
  ⟨Node.fresh id store config, []⟩

/-- What can happen next, with the act of the node if it is a turn. -/
inductive Move : Scene → List Act → Scene → Prop where
  /-- The node is called. -/
  | call {node : Node} {strands : List Strand} {shape : Shape} {operation : Operation shape}
      (outer : operation.isPublic = true) :
      Move ⟨node, strands⟩ [] ⟨node, .due (.start operation) .root :: strands⟩
  /-- An answer arrives from elsewhere. -/
  | answer {node : Node} {before after : List Strand} {shape : Shape} {chain : Chain shape}
      {outcome : Outcome shape} (genuine : Genuine outcome) :
      Move ⟨node, before ++ .away chain :: after⟩ []
        ⟨node, before ++ chain.receive outcome ++ after⟩
  /-- The node goes on with an operation. -/
  | work {node : Node} {before after : List Strand} {cue : Cue} {below : Chain cue.result}
      (around : Surroundings) :
      Move ⟨node, before ++ .due cue below :: after⟩ [⟨node, around, cue⟩]
        ⟨(node.follow around cue).node,
          before ++ (node.follow around cue).action.next below ++ after ++
            (node.follow around cue).effects.filterMap Effect.strand?⟩
  /-- The records and the locks of the node change. -/
  | keep {node : Node} {strands : List Strand} (store : Store) (locks : LockTable) :
      Move ⟨node, strands⟩ [] ⟨{ node with store := store, locks := locks }, strands⟩

end Scene

/-- What becomes of a node and its operations, with its acts in their order. -/
inductive Life : Scene → List Act → Scene → Prop where
  /-- Nothing has happened yet. -/
  | nil (scene : Scene) : Life scene [] scene
  /-- One more thing happens. -/
  | snoc {first scene later : Scene} {acts more : List Act} (life : Life first acts scene)
      (move : scene.Move more later) : Life first (acts ++ more) later

namespace Life

variable {first scene later : Scene} {acts more : List Act}

theorem append (life : Life first acts scene) (rest : Life scene more later) :
    Life first (acts ++ more) later := by
  induction rest with
  | nil => simpa using life
  | snoc _ move ih =>
      rw [← List.append_assoc]
      exact .snoc ih move

/-- An assertion about the acts so far and the node holds throughout a life if a change of records
and locks and every act keep it. -/
theorem induct {holds : List Act → Node → Prop} (life : Life first acts later)
    (start : holds [] first.node)
    (keep : ∀ {acts node} (store : Store) (locks : LockTable), holds acts node →
      holds acts { node with store := store, locks := locks })
    (work : ∀ {acts} (act : Act), holds acts act.node →
      holds (acts ++ [act]) act.turn.node) :
    holds acts later.node := by
  induction life with
  | nil => exact start
  | snoc _ move ih =>
      have hsofar := ih
      cases move with
      | call outer => simpa using hsofar
      | answer genuine => simpa using hsofar
      | work around => exact work ⟨_, around, _⟩ hsofar
      | keep store locks => simpa using keep store locks hsofar

/-- The node is called and sets to work at once. -/
theorem called {node : Node} {strands : List Strand} (life : Life first acts ⟨node, strands⟩)
    {shape : Shape} (operation : Operation shape) (outer : operation.isPublic = true)
    (around : Surroundings) :
    Life first (acts ++ [⟨node, around, .start operation⟩])
      ⟨(node.start around operation).node,
        (node.start around operation).action.next .root ++ strands ++
          (node.start around operation).effects.filterMap Effect.strand?⟩ := by
  have hcalled : Life first acts ⟨node, [] ++ .due (.start operation) .root :: strands⟩ := by
    simpa using life.snoc (.call outer)
  exact hcalled.snoc (.work around)

/-- The node goes on with an operation. -/
theorem worked {node : Node} (before : List Strand) {after : List Strand} {cue : Cue}
    {below : Chain cue.result}
    (life : Life first acts ⟨node, before ++ .due cue below :: after⟩) (around : Surroundings) :
    Life first (acts ++ [⟨node, around, cue⟩])
      ⟨(node.follow around cue).node,
        before ++ (node.follow around cue).action.next below ++ after ++
          (node.follow around cue).effects.filterMap Effect.strand?⟩ :=
  life.snoc (.work around)

/-- An answer arrives and the node goes on at once. -/
theorem answered {node : Node} (before : List Strand) {after : List Strand}
    {shape result : Shape} {frame : Frame shape result} {below : Chain result}
    (life : Life first acts ⟨node, before ++ .away (.wait frame below) :: after⟩)
    (outcome : Outcome shape) (genuine : Genuine outcome) (around : Surroundings) :
    Life first (acts ++ [⟨node, around, .resume frame outcome⟩])
      ⟨(node.resume around frame outcome).node,
        before ++ (node.resume around frame outcome).action.next below ++ after ++
          (node.resume around frame outcome).effects.filterMap Effect.strand?⟩ := by
  have hmove : Scene.Move ⟨node, before ++ .away (.wait frame below) :: after⟩ []
      ⟨node, before ++ (Chain.wait frame below).receive outcome ++ after⟩ := .answer genuine
  have hanswered : Life first acts
      ⟨node, before ++ .due (.resume frame outcome) below :: after⟩ := by
    simpa [Chain.receive] using life.snoc hmove
  exact hanswered.snoc (.work around)

/-! ### A newcomer -/

namespace Newcomer

/-- Surroundings in which every node can be reached. -/
def around : Surroundings := ⟨0, fun _ => some 0⟩

/-- A node that has just been made. -/
def made : Node := .fresh (Token.wrapping 10) (.empty none) .standard

/-- The node when it gives up its ring to join another one. -/
def parted : Node := made.founded.rejoining

/-- The node after a pass, the report of which waits. -/
def waiting : Node := { parted with pending := [Token.wrapping 30] }

/-- The node when it knows its place. -/
def placed : Node := waiting.setSuccessor (Token.wrapping 20)

/-- The node when it has accepted a predecessor. -/
def merging : Node :=
  { placed with
    predecessor := some (Token.wrapping 5), migrationSource := some (Token.wrapping 20)
    lifecycle := .merging }

/-- The node at the end of its merge. -/
def stable : Node := { merging with lifecycle := .stable, pending := [] }

/-- The node founds a ring, begins to join another one, and passes records on, of which there are
none. -/
def opening : List Act :=
  [⟨made, around, .start .found⟩,
    ⟨made.founded, around, .start (.join (Token.wrapping 20))⟩,
    ⟨parted, around, .start (.serve (.requestMigration (Token.wrapping 30)))⟩,
    ⟨parted, around, .start (.migrateFor (Token.wrapping 30))⟩,
    ⟨parted, around, .start .migrate⟩,
    ⟨parted, around, .resume .namesAsked (.ok [])⟩,
    ⟨parted, around, .resume (.migratingFor (Token.wrapping 30)) (.ok 0)⟩]

/-- The node joins and merges. -/
def arrival : List Act :=
  [⟨waiting, around, .resume .placeAsked (.ok (Token.wrapping 20))⟩,
    ⟨placed, around, .start (.serve (.notify (Token.wrapping 5)))⟩,
    ⟨merging, around, .start (.serve (.migrationEnded (Token.wrapping 20)))⟩]

/-- The node when it has asked who its successor is. -/
def joining : Scene := ⟨waiting, [.away (.wait .placeAsked .root)]⟩

/-- The node when it has joined. -/
def joined : Scene :=
  ⟨stable, [.away (.wait .told .root),
    .due (.start (.askForRecords (Token.wrapping 20))) .root,
    .due (.start (.reportMoved (Token.wrapping 30))) .root]⟩

theorem life_opening : Life (Scene.fresh (Token.wrapping 10) (.empty none) .standard) opening
    joining := by
  have hparted : Life ⟨made, []⟩
      [⟨made, around, .start .found⟩,
        ⟨made.founded, around, .start (.join (Token.wrapping 20))⟩]
      ⟨parted, [.away (.wait .placeAsked .root)]⟩ :=
    ((nil ⟨made, []⟩).called .found rfl around).called (.join (Token.wrapping 20)) rfl around
  have hrequested : Life ⟨made, []⟩
      [⟨made, around, .start .found⟩,
        ⟨made.founded, around, .start (.join (Token.wrapping 20))⟩,
        ⟨parted, around, .start (.serve (.requestMigration (Token.wrapping 30)))⟩]
      ⟨parted, [.away (.wait .placeAsked .root),
        .due (.start (.migrateFor (Token.wrapping 30))) .root]⟩ :=
    hparted.called (.serve (.requestMigration (Token.wrapping 30))) rfl around
  have hasked : Life ⟨made, []⟩
      [⟨made, around, .start .found⟩,
        ⟨made.founded, around, .start (.join (Token.wrapping 20))⟩,
        ⟨parted, around, .start (.serve (.requestMigration (Token.wrapping 30)))⟩,
        ⟨parted, around, .start (.migrateFor (Token.wrapping 30))⟩,
        ⟨parted, around, .start .migrate⟩]
      ⟨parted, [.away (.wait .placeAsked .root),
        .away (.wait .namesAsked (.wait (.migratingFor (Token.wrapping 30)) .root))]⟩ :=
    (hrequested.worked [_] around).worked [_] around
  exact (hasked.answered [_] (.ok []) (@genuine_ok .names _) around).worked [_] around

theorem life_arrival : Life joining arrival joined := by
  have hplaced : Life joining [⟨waiting, around, .resume .placeAsked (.ok (Token.wrapping 20))⟩]
      ⟨placed, [.away (.wait .told .root)]⟩ :=
    (nil joining).answered [] (.ok (Token.wrapping 20)) (@genuine_ok .id _) around
  have hmerging : Life joining
      [⟨waiting, around, .resume .placeAsked (.ok (Token.wrapping 20))⟩,
        ⟨placed, around, .start (.serve (.notify (Token.wrapping 5)))⟩]
      ⟨merging, [.away (.wait .told .root),
        .due (.start (.askForRecords (Token.wrapping 20))) .root]⟩ :=
    hplaced.called (.serve (.notify (Token.wrapping 5))) rfl around
  exact hmerging.called (.serve (.migrationEnded (Token.wrapping 20))) rfl around

end Newcomer

end Life

end RecordRing
