import RecordRing.Proofs.Life.Basic
import RecordRing.Proofs.Ring.Joining

/-!
# Acts

What a single turn can do to a node.  Most turns are idle: they leave the node as it is and have no
effect but on locks and counters.  The others are listed by `Node.Shifts`, each with what sets it
off, and every turn is one of the list (`Node.shifts_follow`).

A turn also says what the node does next.  Unless it has been handed a number out of range, the node
waits for the owner of a routing slot only, and comes to no number out of range itself
(`Node.inRange_follow`).
-/

namespace RecordRing

/-- Whether a side effect neither starts an operation nor hands a report over. -/
def Effect.isQuiet : Effect → Bool
  | .release _ => true
  | .tally _ => true
  | _ => false

/-- The number of a routing slot. -/
def IsRoutingSlot (slot : Nat) : Prop := 0 < slot ∧ slot < keyBits

/-- A waiting operation waits for the owner of a routing slot, if it waits for the owner of a
slot. -/
def Frame.InRange {shape result : Shape} : Frame shape result → Prop
  | .slotOwnerAsked slot => IsRoutingSlot slot
  | _ => True

/-- No number out of range comes up when the node goes on. -/
def Cue.InRange : Cue → Prop
  | .start _ => True
  | .resume frame outcome => frame.InRange ∧ Genuine outcome

/-- No number out of range comes up in what a node does next. -/
def Action.InRange {result : Shape} : Action result → Prop
  | .reply outcome => Genuine outcome
  | .ask _ _ frame => frame.InRange
  | .run _ frame => frame.InRange
  | .call _ frame => frame.InRange
  | .lock _ frame => frame.InRange
  | .sleep _ frame => frame.InRange

/-- The requester on whose behalf a waiting operation passes records on, if it does. -/
def Frame.requester? {shape result : Shape} : Frame shape result → Option Token
  | .migratingFor requester => some requester
  | _ => none

/-- The requester of a pass that comes to its end, if the cue says so. -/
def Cue.passed? : Cue → Option Token
  | .resume frame (.ok _) => frame.requester?
  | _ => none

/-- A turn leaves the node as it is and touches nothing but locks and counters, and what comes next
is in range under a condition. -/
structure Turn.Idle {result : Shape} (turn : Turn result) (node : Node) (given : Prop) : Prop where
  same : turn.node = node
  quiet : ∀ effect ∈ turn.effects, effect.isQuiet = true
  next : given → turn.action.InRange

variable {shape result : Shape}

namespace Node

variable {node : Node} {around : Surroundings} {given : Prop}

/-! ## Idle turns -/

theorem idle_reply {outcome : Outcome result} (genuine : given → Genuine outcome) :
    (node.reply outcome).Idle node given :=
  ⟨rfl, by simp [reply], genuine⟩

theorem idle_ok (value : result.Value) : (node.reply (.ok value) : Turn result).Idle node given :=
  idle_reply fun _ => genuine_ok value

theorem idle_done : (node.reply (.ok ()) : Turn .nothing).Idle node given :=
  @idle_ok .nothing _ _ ()

theorem idle_fail {failure : Failure} (h : ∀ error, failure ≠ .range error) :
    (node.fail failure : Turn result).Idle node given :=
  idle_reply fun _ => genuine_error h

/-- A failure that is passed on. -/
theorem idle_error {failure : Failure} :
    (node.fail failure : Turn result).Idle node (Genuine (.error failure : Outcome shape)) :=
  idle_reply Genuine.failure

theorem idle_ask {peer : Contact} {request : Request shape} {frame : Frame shape result}
    (inRange : frame.InRange) : (node.ask peer request frame).Idle node given :=
  ⟨rfl, by simp [ask], fun _ => inRange⟩

theorem idle_run {operation : Operation shape} {frame : Frame shape result}
    (inRange : frame.InRange) : (node.run operation frame).Idle node given :=
  ⟨rfl, by simp [run], fun _ => inRange⟩

theorem idle_call {call : StoreCall shape} {frame : Frame shape result}
    (inRange : frame.InRange) : (node.call call frame).Idle node given :=
  ⟨rfl, by simp [Node.call], fun _ => inRange⟩

/-! ### Routing -/

theorem idle_consult (key current : Token) (hops : Nat) :
    (node.consult around key current hops).Idle node given := by
  rw [consult]
  split
  · split
    · exact idle_fail (by simp)
    · exact idle_ask trivial
  · exact ⟨rfl, by simp [Effect.isQuiet], fun _ => genuine_error (by simp)⟩

theorem idle_lookUp (key : Token) : (node.lookUp around key).Idle node given := by
  rw [lookUp]
  split
  · exact idle_fail (by simp)
  · dsimp only
    split
    · exact idle_ok _
    · split
      · exact idle_ok _
      · exact idle_consult ..

theorem idle_onSuccessor (key current : Token) (peer : Contact) (hops : Nat)
    (outcome : Outcome .knownId) :
    (node.onSuccessor key current peer hops outcome).Idle node (Genuine outcome) := by
  rcases outcome with failure | _ | successor
  · exact idle_error
  · exact idle_fail (by simp)
  · rw [onSuccessor]
    split
    · exact idle_ok _
    · exact idle_ask trivial

theorem idle_onFinger (key current successor : Token) (hops : Nat) (outcome : Outcome .id) :
    (node.onFinger around key current successor hops outcome).Idle node (Genuine outcome) := by
  cases outcome with
  | error failure => exact idle_error
  | ok next => exact idle_consult ..

theorem idle_walk (members : List Token) (next : Token) :
    (node.walk around members next).Idle node given := by
  rw [walk]
  split
  · exact idle_ok _
  · split
    · exact idle_fail (by simp)
    · exact idle_ask trivial

theorem idle_ringMembers : (node.ringMembers around).Idle node given := by
  rw [ringMembers]
  split
  · exact idle_fail (by simp)
  · exact idle_walk ..

theorem idle_onNext (members : List Token) (newest : Token) (outcome : Outcome .knownId) :
    (node.onNext around members newest outcome).Idle node (Genuine outcome) := by
  rcases outcome with failure | _ | next
  · exact idle_error
  · exact idle_fail (by simp)
  · exact idle_walk ..

/-! ### Repair -/

theorem idle_refresh (left : Nat) : (node.refresh left).Idle node given := by
  cases left with
  | zero => exact idle_ok _
  | succ left => exact idle_run trivial

theorem idle_onRefreshed (left : Nat) (outcome : Outcome .nothing) :
    (node.onRefreshed left outcome).Idle node (Genuine outcome) := by
  cases outcome with
  | error failure => exact idle_error
  | ok refreshed => exact idle_refresh left

theorem idle_tellSuccessor (successor : Token) (peer : Contact) :
    (node.tellSuccessor successor peer).Idle node given := by
  rw [tellSuccessor]
  split
  · exact idle_ok _
  · exact idle_ask trivial

/-! ### Record calls -/

theorem idle_attempt (call : RecordCall shape) : (node.attempt call).Idle node given :=
  ⟨rfl, by simp [attempt], fun _ => trivial⟩

theorem idle_sleep (millis : Nat) {frame : Frame .nothing result} (inRange : frame.InRange) :
    (⟨node, [], .sleep millis frame⟩ : Turn result).Idle node given :=
  ⟨rfl, by simp, fun _ => inRange⟩

theorem idle_enter (call : RecordCall shape) (since : Nat) :
    (node.enter around call since).Idle node given := by
  rw [enter]
  split
  · dsimp only
    split
    · split
      · exact idle_fail (by simp)
      · exact idle_sleep _ trivial
    · exact idle_sleep _ trivial
  · exact idle_run trivial

theorem idle_onPause (call : RecordCall shape) (since : Nat) (outcome : Outcome .nothing) :
    (node.onPause around call since outcome).Idle node (Genuine outcome) := by
  cases outcome with
  | error failure => exact idle_error
  | ok awaited => exact idle_enter call since

theorem idle_onAttempted (call : RecordCall shape) (outcome : Outcome shape) :
    (node.onAttempted around call outcome).Idle node (Genuine outcome) := by
  cases outcome with
  | error failure => exact idle_error
  | ok answer =>
      rw [onAttempted]
      split
      · split
        · exact idle_ok _
        · split
          · exact idle_attempt call
          · exact idle_ask trivial
      · exact idle_ok _

theorem idle_onHandedOn (call : RecordCall shape) (outcome : Outcome shape) :
    (node.onHandedOn call outcome).Idle node (Genuine outcome) := by
  cases outcome with
  | error failure => exact idle_attempt call
  | ok answer =>
      rw [onHandedOn]
      split
      · exact idle_attempt call
      · exact idle_ok _

theorem idle_onLock (call : RecordCall shape) (outcome : Outcome .nothing) :
    (node.onLock call outcome).Idle node (Genuine outcome) := by
  cases outcome with
  | error failure => exact idle_error
  | ok granted => exact idle_call trivial

theorem idle_onPerformed (call : RecordCall shape) (outcome : Outcome shape) :
    (node.onPerformed call outcome).Idle node (Genuine outcome) :=
  ⟨rfl, by simp [onPerformed, Effect.isQuiet], fun genuine => genuine⟩

/-! ### Migration -/

theorem idle_migrateStorages (moved : Nat) (storages : List String) :
    (node.migrateStorages moved storages).Idle node given := by
  induction storages with
  | nil => exact idle_ok _
  | cons storage rest ih =>
      rw [migrateStorages]
      split
      · exact ih
      · exact idle_call trivial

theorem idle_migrateKeys (storage : String) (storages : List String) (moved : Nat)
    (keys : List Token) : (node.migrateKeys storage storages moved keys).Idle node given := by
  cases keys with
  | nil => exact idle_migrateStorages ..
  | cons key rest => exact idle_run trivial

theorem idle_onNames (outcome : Outcome .names) :
    (node.onNames outcome).Idle node (Genuine outcome) := by
  cases outcome with
  | error failure => exact idle_error
  | ok storages => exact idle_migrateStorages 0 storages

theorem idle_onKeys (storage : String) (storages : List String) (moved : Nat)
    (outcome : Outcome .ids) :
    (node.onKeys storage storages moved outcome).Idle node (Genuine outcome) := by
  cases outcome with
  | error failure => exact idle_error
  | ok keys => exact idle_migrateKeys ..

theorem idle_onOwner (storage : String) (key : Token) (keys : List Token)
    (storages : List String) (moved : Nat) (outcome : Outcome .id) :
    (node.onOwner storage key keys storages moved outcome).Idle node (Genuine outcome) := by
  cases outcome with
  | error failure => exact idle_error
  | ok owner =>
      rw [onOwner]
      split
      · exact idle_migrateKeys ..
      · exact idle_run trivial

theorem idle_onMoved (storage : String) (keys : List Token) (storages : List String) (moved : Nat)
    (outcome : Outcome .flag) :
    (node.onMoved storage keys storages moved outcome).Idle node (Genuine outcome) := by
  cases outcome with
  | error failure => exact idle_error
  | ok done => exact idle_migrateKeys ..

theorem idle_transfer (storage : String) (key owner : Token) :
    (node.transfer storage key owner).Idle node given :=
  ⟨rfl, by simp [transfer], fun _ => trivial⟩

theorem idle_endTransfer (storage : String) (key : Token) {outcome : Outcome .flag}
    (genuine : given → Genuine outcome) :
    (node.endTransfer storage key outcome).Idle node given :=
  ⟨rfl, by simp [endTransfer, Effect.isQuiet], genuine⟩

theorem idle_onTransferLock (storage : String) (key owner : Token) (outcome : Outcome .nothing) :
    (node.onTransferLock storage key owner outcome).Idle node (Genuine outcome) := by
  cases outcome with
  | error failure => exact idle_error
  | ok granted => exact idle_call trivial

theorem idle_onTransferRead (storage : String) (key owner : Token) (outcome : Outcome .record) :
    (node.onTransferRead around storage key owner outcome).Idle node (Genuine outcome) := by
  rcases outcome with failure | _ | record
  · exact idle_endTransfer storage key Genuine.failure
  · exact idle_endTransfer storage key fun _ => genuine_ok _
  · rw [onTransferRead]
    split
    · exact idle_endTransfer storage key fun _ => genuine_error (by simp)
    · exact idle_ask trivial

theorem idle_onTransferHanded (storage : String) (key : Token) (version : UInt64)
    (outcome : Outcome .version) :
    (node.onTransferHanded storage key version outcome).Idle node (Genuine outcome) := by
  cases outcome with
  | error failure => exact idle_endTransfer storage key Genuine.failure
  | ok stored => exact idle_call trivial

theorem idle_onTransferDeleted (storage : String) (key : Token) (outcome : Outcome .flag) :
    (node.onTransferDeleted storage key outcome).Idle node (Genuine outcome) := by
  cases outcome with
  | error failure => exact idle_endTransfer storage key Genuine.failure
  | ok removed =>
      refine ⟨rfl, by simp [onTransferDeleted, endTransfer, Effect.isQuiet], fun _ => ?_⟩
      intro error h
      cases h

theorem idle_callKnown (peer : Token) (request : Request .nothing) :
    (node.callKnown around peer request).Idle node given := by
  rw [callKnown]
  split
  · exact idle_fail (by simp)
  · exact idle_ask trivial

/-! ## Every turn -/

/-- What a turn makes of a node, with its side effects. -/
inductive Shifts (node : Node) (around : Surroundings) : Cue → Node → List Effect → Prop where
  /-- The node founds a ring. -/
  | founded : Shifts node around (.start .found) node.founded []
  /-- The node begins to join, because it can reach the known node. -/
  | rejoining {known : Token} (reached : (node.resolve around known).isSome) :
      Shifts node around (.start (.join known)) node.rejoining []
  /-- The node learns its place. -/
  | placed (successor : Token) :
      Shifts node around (.resume .placeAsked (.ok successor)) (node.setSuccessor successor) []
  /-- The node accepts a predecessor and begins no merge. -/
  | accepted {candidate : Token} (other : candidate ≠ node.id)
      (closer : node.isCloser candidate = true)
      (waits : node.lifecycle = .joining → node.successor = none) :
      Shifts node around (.start (.serve (.notify candidate)))
        { node with predecessor := some candidate } []
  /-- The node accepts its first predecessor and begins to merge. -/
  | began {candidate source : Token} (other : candidate ≠ node.id)
      (closer : node.isCloser candidate = true) (joining : node.lifecycle = .joining)
      (known : node.successor = some source) (company : source ≠ node.id) :
      Shifts node around (.start (.serve (.notify candidate)))
        { node with
          predecessor := some candidate, migrationSource := some source, lifecycle := .merging }
        [.spawn (.askForRecords source)]
  /-- The node accepts its first predecessor and has nobody to take records from. -/
  | settled {candidate : Token} (other : candidate ≠ node.id)
      (closer : node.isCloser candidate = true) (joining : node.lifecycle = .joining)
      (known : node.successor = some node.id) :
      Shifts node around (.start (.serve (.notify candidate)))
        { node with
          predecessor := some candidate, migrationSource := some node.id, lifecycle := .stable
          pending := [] }
        (node.pending.map .announce)
  /-- The merge ends. -/
  | completed {source : Token} (recorded : node.migrationSource = some source)
      (merging : node.lifecycle = .merging) :
      Shifts node around (.start (.serve (.migrationEnded source)))
        { node with lifecycle := .stable, pending := [] } (node.pending.map .announce)
  /-- A pass on behalf of a requester is started. -/
  | requested (requester : Token) :
      Shifts node around (.start (.serve (.requestMigration requester))) node
        [.spawn (.migrateFor requester)]
  /-- A pass on behalf of a requester has come to its end, and is reported at once. -/
  | reported {requester : Token} {moved : Nat} (stable : node.lifecycle = .stable) :
      Shifts node around (.resume (.migratingFor requester) (.ok moved)) node
        [.announce requester]
  /-- A pass on behalf of a requester has come to its end, and its report waits. -/
  | deferred {requester : Token} {moved : Nat} (unstable : node.lifecycle ≠ .stable) :
      Shifts node around (.resume (.migratingFor requester) (.ok moved))
        { node with pending := node.pending ++ [requester] } []
  /-- The node exchanges its successor for another one. -/
  | redirected {cue : Cue} {effects : List Effect} {fingers : Fingers}
      (known : node.successor.isSome) (replaced : fingers.successor.isSome)
      (repairs : cue = .start .stabilize ∨ ∃ successor peer outcome,
        cue = .resume (.predecessorAsked successor peer) outcome)
      (quiet : ∀ effect ∈ effects, effect.isQuiet = true) :
      Shifts node around cue { node with fingers := fingers } effects
  /-- The cursor moves on. -/
  | advanced : Shifts node around (.start .fixFingers)
      { node with cursor := nextSlot node.cursor } []
  /-- The owner of a slot's start is entered. -/
  | entered {slot : Nat} {owner : Token} {index : Fin keyBits}
      (named : Fingers.slot? slot = .ok index) :
      Shifts node around (.resume (.slotOwnerAsked slot) (.ok owner))
        { node with
          fingers := (node.fingers.compareAndSet index (node.fingers.get index) (some owner)).2 } []
  /-- The node forgets a predecessor that has left. -/
  | bereft {before : Token} (held : node.predecessor = some before)
      (left : around.knows before = false) :
      Shifts node around (.start .fixPredecessor) { node with predecessor := none } []
  /-- The node stays as it is. -/
  | idle {cue : Cue} {effects : List Effect}
      (other : cue.passed? = none)
      (quiet : ∀ effect ∈ effects, effect.isQuiet = true) :
      Shifts node around cue node effects

theorem Shifts.of_idle {cue : Cue} {turn : Turn result} (idle : turn.Idle node given)
    (other : cue.passed? = none) :
    node.Shifts around cue turn.node turn.effects := by
  rw [idle.same]
  exact .idle other idle.quiet

/-- No pass comes to its end while the node repairs its successor. -/
theorem passed?_of_repairs {cue : Cue}
    (repairs : cue = .start .stabilize ∨ ∃ successor peer outcome,
      cue = .resume (.predecessorAsked successor peer) outcome) : cue.passed? = none := by
  rcases repairs with rfl | ⟨successor, peer, outcome, rfl⟩
  · rfl
  · cases outcome <;> rfl

theorem Shifts.of_redirected {cue : Cue} {turn : Turn result}
    (redirected : node.Redirected turn.node)
    (repairs : cue = .start .stabilize ∨ ∃ successor peer outcome,
      cue = .resume (.predecessorAsked successor peer) outcome)
    (quiet : ∀ effect ∈ turn.effects, effect.isQuiet = true) :
    node.Shifts around cue turn.node turn.effects := by
  rcases redirected with hsame | ⟨known, fingers, replaced, hnext⟩
  · rw [hsame]
    exact .idle (passed?_of_repairs repairs) quiet
  · rw [hnext]
    exact .redirected known replaced repairs quiet

theorem quiet_stabilize : ∀ effect ∈ (node.stabilize around).effects, effect.isQuiet = true := by
  cases holds : node.successor with
  | none => simp [stabilize, holds, fail, reply]
  | some successor =>
      obtain ⟨reached, id, contact, hturn, -⟩ := stabilize_eq around holds
      simp [hturn, ask]

theorem inRange_stabilize : (node.stabilize around).action.InRange := by
  cases holds : node.successor with
  | none =>
      have hfail : (node.fail (.noSuccessor node.id) : Turn .nothing).Idle node True :=
        idle_fail (by simp)
      simpa only [stabilize, holds] using hfail.next trivial
  | some successor =>
      obtain ⟨reached, id, contact, hturn, -⟩ := stabilize_eq around holds
      rw [hturn]
      trivial

theorem idle_told (node : Node) (successor : Token) (peer : Contact) :
    (node.tellSuccessor successor peer).Idle node True :=
  idle_tellSuccessor successor peer

/-- What follows the adoption of a closer successor. -/
theorem idle_adopted (node : Node) (around : Surroundings) (candidate : Token) :
    (match node.resolve around candidate with
      | none => node.fail (.nodeUnreachable candidate)
      | some closer => node.tellSuccessor candidate closer : Turn .nothing).Idle node True := by
  split
  · exact idle_fail (by simp)
  · exact idle_tellSuccessor ..

theorem quiet_onPredecessor (successor : Token) (peer : Contact) (outcome : Outcome .knownId) :
    ∀ effect ∈ (node.onPredecessor around successor peer outcome).effects,
      effect.isQuiet = true := by
  rcases outcome with failure | _ | candidate
  · simp [onPredecessor, fail, reply]
  · exact (idle_told node successor peer).quiet
  · rw [onPredecessor]
    split
    · split
      · rename_i fingers _
        intro effect hmem
        rcases List.mem_cons.1 hmem with rfl | hrest
        · rfl
        · exact (idle_adopted { node with fingers := fingers } around
            candidate).quiet effect hrest
      · exact quiet_stabilize
    · exact (idle_told node successor peer).quiet

theorem inRange_onPredecessor (successor : Token) (peer : Contact) {outcome : Outcome .knownId}
    (genuine : Genuine outcome) :
    (node.onPredecessor around successor peer outcome).action.InRange := by
  rcases outcome with failure | _ | candidate
  · exact genuine.failure
  · exact (idle_told node successor peer).next trivial
  · rw [onPredecessor]
    split
    · split
      · rename_i fingers _
        exact (idle_adopted { node with fingers := fingers } around
          candidate).next trivial
      · exact inRange_stabilize
    · exact (idle_told node successor peer).next trivial

theorem shifts_notified (node : Node) (around : Surroundings) (candidate : Token) :
    node.Shifts around (.start (.serve (.notify candidate))) (node.notified candidate).1
      (node.notified candidate).2 := by
  rw [notified]
  split
  · rename_i haccepts
    obtain ⟨other, closer⟩ := haccepts
    rw [beginMerge]
    split
    · rename_i source joining known
      split
      · rename_i hself
        subst hself
        exact .settled other closer joining known
      · rename_i company
        exact .began other closer joining known company
    · rename_i hwaits
      apply Shifts.accepted other closer
      intro joining
      cases hnext : node.successor with
      | none => rfl
      | some source => exact absurd hnext (hwaits source joining)
  · exact .idle rfl (by simp)

theorem shifts_migrationEnded (node : Node) (around : Surroundings) (source : Token) :
    node.Shifts around (.start (.serve (.migrationEnded source))) (node.migrationEnded source).1
      (node.migrationEnded source).2 := by
  rw [migrationEnded]
  split
  · rename_i hends
    exact .completed hends.1 hends.2
  · exact .idle rfl (by simp)

theorem shifts_reportMigration (node : Node) (around : Surroundings) (requester : Token)
    (moved : Nat) :
    node.Shifts around (.resume (.migratingFor requester) (.ok moved))
      (node.reportMigration requester).1 (node.reportMigration requester).2 := by
  rw [reportMigration]
  split
  · rename_i stable
    exact .reported stable
  · rename_i unstable
    exact .deferred unstable

/-- Every first turn of an operation is one of the list. -/
theorem shifts_start (node : Node) (around : Surroundings) (operation : Operation shape) :
    node.Shifts around (.start operation) (node.start around operation).node
      (node.start around operation).effects := by
  have hidle : ∀ {turn : Turn shape}, turn.Idle node True →
      node.Shifts around (.start operation) turn.node turn.effects :=
    fun idle => .of_idle idle rfl
  cases operation with
  | serve request =>
      cases request with
      | findSuccessor key => exact hidle (idle_lookUp key)
      | closestPrecedingFinger key => exact hidle (idle_ok _)
      | successor => exact hidle (idle_ok _)
      | predecessor => exact hidle (idle_ok _)
      | notify candidate => exact shifts_notified node around candidate
      | migrationEnded source => exact shifts_migrationEnded node around source
      | requestMigration requester => exact .requested requester
      | record call => exact hidle (idle_enter call around.now)
  | found => exact .founded
  | join known =>
      cases hpeer : node.resolve around known with
      | none =>
          have hturn : node.start around (.join known) = node.fail (.nodeUnreachable known) := by
            simp only [start, join, hpeer]
          rw [hturn]
          exact hidle (idle_fail (by simp))
      | some peer =>
          have hturn : node.start around (.join known) =
              node.rejoining.ask peer (.findSuccessor node.id) .placeAsked := by
            simp only [start, join, hpeer]
          rw [hturn]
          exact .rejoining (by simp [hpeer])
  | stabilize => exact .of_redirected (redirected_stabilize node around) (.inl rfl) quiet_stabilize
  | fixFingers =>
      cases hstart : node.id.slotStart node.cursor with
      | error error =>
          simp only [start, fixFingers, hstart]
          exact .advanced
      | ok position =>
          simp only [start, fixFingers, hstart]
          exact .advanced
  | refreshFingers => exact hidle (idle_refresh routingSlots)
  | fixPredecessor =>
      simp only [start, fixPredecessor]
      split
      · rename_i before held
        split
        · exact hidle idle_done
        · rename_i left
          exact .bereft held (Bool.eq_false_iff.2 left)
      · exact hidle idle_done
  | ringMembers => exact hidle idle_ringMembers
  | attempt call => exact hidle (idle_attempt call)
  | migrate => exact hidle (idle_call trivial)
  | transfer storage key owner => exact hidle (idle_transfer storage key owner)
  | migrateFor requester => exact hidle (idle_run trivial)
  | askForRecords source => exact hidle (idle_callKnown source _)
  | reportMoved requester => exact hidle (idle_callKnown requester _)

/-- Every turn of a waiting operation is one of the list. -/
theorem shifts_resume (node : Node) (around : Surroundings) (frame : Frame shape result)
    (outcome : Outcome shape) :
    node.Shifts around (.resume frame outcome) (node.resume around frame outcome).node
      (node.resume around frame outcome).effects := by
  have hidle : ∀ {turn : Turn result} {given : Prop}, turn.Idle node given →
      frame.requester? = none →
      node.Shifts around (.resume frame outcome) turn.node turn.effects := by
    intro turn given idle other
    refine .of_idle idle ?_
    cases outcome with
    | error failure => rfl
    | ok answer => exact other
  cases frame with
  | successorAsked key current peer hops => exact hidle (idle_onSuccessor ..) rfl
  | fingerAsked key current successor hops => exact hidle (idle_onFinger ..) rfl
  | placeAsked =>
      cases outcome with
      | error failure => exact hidle (idle_reply fun genuine => genuine) rfl
      | ok successor =>
          have hquiet : (node.onPlace around (.ok successor)).effects = [] := by
            rw [onPlace]
            split <;> rfl
          have hplaced := node_onPlace_ok node around successor
          simp only [resume, hquiet, hplaced]
          exact .placed successor
  | told => exact hidle (idle_reply fun genuine : Genuine outcome => genuine) rfl
  | predecessorAsked successor peer =>
      exact .of_redirected (redirected_onPredecessor node around successor peer outcome)
        (.inr ⟨successor, peer, outcome, rfl⟩) (quiet_onPredecessor successor peer outcome)
  | slotOwnerAsked slot =>
      cases outcome with
      | error failure => exact hidle (idle_reply fun genuine => genuine) rfl
      | ok owner =>
          cases hslot : Fingers.slot? slot with
          | error error =>
              have hturn : node.resume around (.slotOwnerAsked slot) (.ok owner) =
                  node.fail (.range error) := by
                simp only [resume, onSlotOwner, hslot]
              rw [hturn]
              exact hidle (idle_reply False.elim) rfl
          | ok index =>
              simp only [resume, onSlotOwner, hslot]
              split
              · exact hidle (idle_done : Turn.Idle _ node True) rfl
              · exact .entered hslot
  | refreshing left => exact hidle (idle_onRefreshed left outcome) rfl
  | nextAsked members newest => exact hidle (idle_onNext members newest outcome) rfl
  | joinAwaited call since => exact hidle (idle_onPause call since outcome) rfl
  | attempted call => exact hidle (idle_onAttempted call outcome) rfl
  | handedOn call => exact hidle (idle_onHandedOn call outcome) rfl
  | lockAwaited call => exact hidle (idle_onLock call outcome) rfl
  | performed call => exact hidle (idle_onPerformed call outcome) rfl
  | namesAsked => exact hidle (idle_onNames outcome) rfl
  | keysAsked storage storages moved => exact hidle (idle_onKeys ..) rfl
  | ownerAsked storage key keys storages moved => exact hidle (idle_onOwner ..) rfl
  | moving storage keys storages moved => exact hidle (idle_onMoved ..) rfl
  | transferLockAwaited storage key owner => exact hidle (idle_onTransferLock ..) rfl
  | transferRead storage key owner => exact hidle (idle_onTransferRead ..) rfl
  | transferHanded storage key version => exact hidle (idle_onTransferHanded ..) rfl
  | transferDeleted storage key => exact hidle (idle_onTransferDeleted ..) rfl
  | migratingFor requester =>
      cases outcome with
      | error failure => exact .of_idle (idle_reply fun genuine => genuine) rfl
      | ok moved => exact shifts_reportMigration node around requester moved

/-- Every turn is one of the list. -/
theorem shifts_follow (node : Node) (around : Surroundings) (cue : Cue) :
    node.Shifts around cue (node.follow around cue).node (node.follow around cue).effects := by
  cases cue with
  | start operation => exact shifts_start node around operation
  | resume frame outcome => exact shifts_resume node around frame outcome

theorem inRange_acknowledge (change : Node × List Effect) :
    (acknowledge change).action.InRange := genuine_done

theorem inRange_join (known : Token) : (node.join around known).action.InRange := by
  rw [join]
  split
  · exact genuine_error (by simp)
  · trivial

theorem inRange_onPlace {outcome : Outcome .id} (genuine : Genuine outcome) :
    (node.onPlace around outcome).action.InRange := by
  cases outcome with
  | error failure => exact genuine.failure
  | ok successor =>
      rw [onPlace]
      split
      · exact genuine_error (by simp)
      · trivial

theorem inRange_fixFingers (cursor : IsRoutingSlot node.cursor) :
    node.fixFingers.action.InRange := by
  have hstart : node.id.slotStart node.cursor =
      .ok (node.id.offset (1 <<< UInt64.ofNat node.cursor)) := if_pos cursor.2
  simp only [fixFingers, hstart]
  exact cursor

theorem inRange_onSlotOwner {slot : Nat} (inRange : IsRoutingSlot slot) {outcome : Outcome .id}
    (genuine : Genuine outcome) : (node.onSlotOwner slot outcome).action.InRange := by
  cases outcome with
  | error failure => exact genuine.failure
  | ok owner =>
      have hslot : Fingers.slot? slot = .ok ⟨slot, inRange.2⟩ := dif_pos inRange.2
      simp only [onSlotOwner, hslot]
      split <;> exact genuine_done

theorem inRange_onMigrated (requester : Token) {outcome : Outcome .count}
    (genuine : Genuine outcome) : (node.onMigrated requester outcome).action.InRange := by
  cases outcome with
  | error failure => exact genuine.failure
  | ok moved => exact inRange_acknowledge _

/-- A node whose cursor is at a routing slot comes to no number out of range when it starts an
operation. -/
theorem inRange_start (cursor : IsRoutingSlot node.cursor) (operation : Operation shape) :
    (node.start around operation).action.InRange := by
  have hidle : ∀ {turn : Turn shape}, turn.Idle node True → turn.action.InRange :=
    fun idle => idle.next trivial
  cases operation with
  | serve request =>
      cases request with
      | findSuccessor key => exact hidle (idle_lookUp key)
      | closestPrecedingFinger key => exact hidle (idle_ok _)
      | successor => exact hidle (idle_ok _)
      | predecessor => exact hidle (idle_ok _)
      | notify candidate => exact inRange_acknowledge _
      | migrationEnded source => exact inRange_acknowledge _
      | requestMigration requester => exact inRange_acknowledge _
      | record call => exact hidle (idle_enter call around.now)
  | found => exact genuine_done
  | join known => exact inRange_join known
  | stabilize => exact inRange_stabilize
  | fixFingers => exact inRange_fixFingers cursor
  | refreshFingers => exact hidle (idle_refresh routingSlots)
  | fixPredecessor => exact genuine_done
  | ringMembers => exact hidle idle_ringMembers
  | attempt call => exact hidle (idle_attempt call)
  | migrate => exact hidle (idle_call trivial)
  | transfer storage key owner => exact hidle (idle_transfer storage key owner)
  | migrateFor requester => exact hidle (idle_run trivial)
  | askForRecords source => exact hidle (idle_callKnown source _)
  | reportMoved requester => exact hidle (idle_callKnown requester _)

/-- A waiting operation that gets a genuine answer comes to no number out of range. -/
theorem inRange_resume {frame : Frame shape result} (inRange : frame.InRange)
    {outcome : Outcome shape} (genuine : Genuine outcome) :
    (node.resume around frame outcome).action.InRange := by
  cases frame with
  | successorAsked key current peer hops => exact (idle_onSuccessor ..).next genuine
  | fingerAsked key current successor hops => exact (idle_onFinger ..).next genuine
  | placeAsked => exact inRange_onPlace genuine
  | told => exact genuine
  | predecessorAsked successor peer => exact inRange_onPredecessor successor peer genuine
  | slotOwnerAsked slot => exact inRange_onSlotOwner inRange genuine
  | refreshing left => exact (idle_onRefreshed left outcome).next genuine
  | nextAsked members newest => exact (idle_onNext members newest outcome).next genuine
  | joinAwaited call since => exact (idle_onPause call since outcome).next genuine
  | attempted call => exact (idle_onAttempted call outcome).next genuine
  | handedOn call => exact (idle_onHandedOn call outcome).next genuine
  | lockAwaited call => exact (idle_onLock call outcome).next genuine
  | performed call => exact (idle_onPerformed call outcome).next genuine
  | namesAsked => exact (idle_onNames outcome).next genuine
  | keysAsked storage storages moved => exact (idle_onKeys ..).next genuine
  | ownerAsked storage key keys storages moved => exact (idle_onOwner ..).next genuine
  | moving storage keys storages moved => exact (idle_onMoved ..).next genuine
  | transferLockAwaited storage key owner => exact (idle_onTransferLock ..).next genuine
  | transferRead storage key owner => exact (idle_onTransferRead ..).next genuine
  | transferHanded storage key version => exact (idle_onTransferHanded ..).next genuine
  | transferDeleted storage key => exact (idle_onTransferDeleted ..).next genuine
  | migratingFor requester => exact inRange_onMigrated requester genuine

/-- A node whose cursor is at a routing slot, and which is handed nothing out of range, comes to no
number out of range. -/
theorem inRange_follow (cursor : IsRoutingSlot node.cursor) {cue : Cue} (inRange : cue.InRange) :
    (node.follow around cue).action.InRange := by
  cases cue with
  | start operation => exact inRange_start cursor operation
  | resume frame outcome => exact inRange_resume inRange.1 inRange.2

end Node

/-- A node keeps its name. -/
theorem Node.Shifts.named {node later : Node} {around : Surroundings} {cue : Cue}
    {effects : List Effect} (shifts : node.Shifts around cue later effects) :
    later.id = node.id := by
  cases shifts <;> rfl

theorem Act.shifts (act : Act) :
    act.node.Shifts act.around act.cue act.turn.node act.turn.effects :=
  Node.shifts_follow act.node act.around act.cue

theorem Life.named {first later : Scene} {acts : List Act} (life : Life first acts later) :
    later.node.id = first.node.id := by
  apply @Life.induct first later acts (fun _ node => node.id = first.node.id) life rfl
  · exact fun _ _ hnamed => hnamed
  · exact fun act hnamed => act.shifts.named.trans hnamed

end RecordRing
