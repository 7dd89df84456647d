import RecordRing.Proofs.Network.Members

/-!
# Locks along an operation

An operation that works on a record asks for the record's lock, keeps it while it waits for stores
and peers, and gives it back in the turn that ends its work.  What an operation holds can therefore
be read off the place where it waits: a frame `guards?` a lock, or it `wants?` one.

The main statements `orderly_start` and `orderly_resume` say that every turn keeps the books: the
lock that it takes over is given back or guarded by the frame that it leaves, and it neither touches
the records nor the lock table of its node.

## Implementation notes

Most operations never touch a record.  They are called plain, and a turn of a plain operation leads
to plain operations or to the transfer of a record.
-/

namespace RecordRing

/-! ## What frames hold -/

/-- The lock that a waiting operation holds. -/
def Frame.guards? {shape result : Shape} : Frame shape result → Option LockId
  | .performed call => some call.lockId
  | .transferRead storage key _ => some ⟨storage, key⟩
  | .transferHanded storage key _ => some ⟨storage, key⟩
  | .transferDeleted storage key => some ⟨storage, key⟩
  | _ => none

/-- The lock that a waiting operation has asked for. -/
def Frame.wants? {shape result : Shape} : Frame shape result → Option LockId
  | .lockAwaited call => some call.lockId
  | .transferLockAwaited storage key _ => some ⟨storage, key⟩
  | _ => none

/-- The lock that an operation holds when the awaited answer arrives: the one that it has guarded, or
the one that has been granted. -/
def Frame.holds? {shape result : Shape} (frame : Frame shape result) : Outcome shape → Option LockId
  | .ok _ => frame.guards?.or frame.wants?
  | .error _ => frame.guards?

/-- The lock that an operation still holds after a turn. -/
def Action.guards? {result : Shape} : Action result → Option LockId
  | .reply _ => none
  | .ask _ _ frame => frame.guards?
  | .run _ frame => frame.guards?
  | .call _ frame => frame.guards?
  | .lock _ frame => frame.guards?
  | .sleep _ frame => frame.guards?

/-- An operation that waits for a lock has asked for it, and no other one does. -/
def Action.Poised {result : Shape} : Action result → Prop
  | .reply _ => True
  | .ask _ _ frame => frame.wants? = none
  | .run _ frame => frame.wants? = none
  | .call _ frame => frame.wants? = none
  | .lock id frame => frame.wants? = some id
  | .sleep _ frame => frame.wants? = none

/-- The lock that a side effect gives back. -/
def Effect.released? : Effect → Option LockId
  | .release id => some id
  | _ => none

/-! ## Plain operations -/

/-- Whether a call to a peer does not concern a record. -/
def Request.plain {shape : Shape} : Request shape → Bool
  | .record _ => false
  | _ => true

/-- Whether a call on a store does not concern a record. -/
def StoreCall.plain {shape : Shape} : StoreCall shape → Bool
  | .record _ => false
  | _ => true

/-- Whether an operation touches no record on its own. -/
def Operation.plain {shape : Shape} : Operation shape → Bool
  | .serve request => request.plain
  | .attempt _ => false
  | .transfer .. => false
  | _ => true

/-- Whether a plain operation may carry out an operation first. -/
def Operation.eases {shape : Shape} : Operation shape → Bool
  | .transfer .. => true
  | operation => operation.plain

/-- Whether a waiting operation touches no record on its own. -/
def Frame.plain {shape result : Shape} : Frame shape result → Bool
  | .joinAwaited .. => false
  | .attempted _ => false
  | .handedOn _ => false
  | .lockAwaited _ => false
  | .performed _ => false
  | .transferLockAwaited .. => false
  | .transferRead .. => false
  | .transferHanded .. => false
  | .transferDeleted .. => false
  | _ => true

/-- What a plain operation does next. -/
def Action.Plain {result : Shape} : Action result → Prop
  | .reply _ => True
  | .ask _ request frame => request.plain = true ∧ frame.plain = true
  | .run operation frame => operation.eases = true ∧ frame.plain = true
  | .call asked frame => asked.plain = true ∧ frame.plain = true
  | .lock _ _ => False
  | .sleep _ _ => False

/-- What a node owns besides its view of the ring. -/
def Node.belongings (node : Node) : Token × Store × LockTable × Config :=
  (node.id, node.store, node.locks, node.config)

/-! ## Orderly turns -/

/-- A turn that keeps the books: the node keeps its belongings, and the lock that the operation has
held before is given back or still held. -/
structure Turn.Orderly {result : Shape} (node : Node) (hold : Option LockId) (plain : Bool)
    (turn : Turn result) : Prop where
  same : turn.node.belongings = node.belongings
  balance : turn.effects.filterMap Effect.released? ++ turn.action.guards?.toList = hold.toList
  poised : turn.action.Poised
  spawns : ∀ operation, .spawn operation ∈ turn.effects → operation.plain = true
  plain : plain = true → turn.action.Plain

namespace Turn

variable {shape result : Shape} {node new : Node} {hold : Option LockId} {plain : Bool}

/-- A turn without side effects. -/
theorem Orderly.quiet (same : new.belongings = node.belongings) {action : Action result}
    (guards : action.guards? = hold) (poised : action.Poised)
    (easy : plain = true → action.Plain) : Orderly node hold plain ⟨new, [], action⟩ :=
  ⟨same, by rw [List.filterMap_nil, List.nil_append, guards], poised,
    fun _ h => absurd h List.not_mem_nil, easy⟩

theorem Orderly.reply (same : new.belongings = node.belongings) (outcome : Outcome result) :
    Orderly node none plain (new.reply outcome) :=
  .quiet same rfl trivial fun _ => trivial

theorem Orderly.fail (same : new.belongings = node.belongings) (failure : Failure) :
    Orderly node none plain (new.fail failure : Turn result) :=
  .reply same _

theorem Orderly.ask (same : new.belongings = node.belongings) {peer : Contact}
    {request : Request shape} {frame : Frame shape result} (guards : frame.guards? = hold)
    (poised : frame.wants? = none)
    (easy : plain = true → request.plain = true ∧ frame.plain = true) :
    Orderly node hold plain (new.ask peer request frame) :=
  .quiet same guards poised easy

theorem Orderly.run (same : new.belongings = node.belongings) {operation : Operation shape}
    {frame : Frame shape result} (guards : frame.guards? = hold) (poised : frame.wants? = none)
    (easy : plain = true → operation.eases = true ∧ frame.plain = true) :
    Orderly node hold plain (new.run operation frame) :=
  .quiet same guards poised easy

theorem Orderly.call (same : new.belongings = node.belongings) {asked : StoreCall shape}
    {frame : Frame shape result} (guards : frame.guards? = hold) (poised : frame.wants? = none)
    (easy : plain = true → asked.plain = true ∧ frame.plain = true) :
    Orderly node hold plain (new.call asked frame) :=
  .quiet same guards poised easy

end Turn

namespace Node

variable {node new : Node} {around : Surroundings} {shape result : Shape} {plain : Bool}
  {key current successor : Token} {hops : Nat}

/-! ### Lookups -/

theorem orderly_consult (around : Surroundings) (key current : Token) (hops : Nat) :
    (node.consult around key current hops).Orderly node none plain := by
  rw [consult]
  split
  · split
    · exact .fail rfl _
    · exact .ask rfl rfl rfl fun _ => ⟨rfl, rfl⟩
  · exact ⟨rfl, rfl, trivial, by simp, fun _ => trivial⟩

theorem orderly_lookUp (around : Surroundings) (key : Token) :
    (node.lookUp around key).Orderly node none plain := by
  rw [lookUp]
  split
  · exact .fail rfl _
  · split
    · exact .reply rfl _
    · dsimp only
      split
      · exact .reply rfl _
      · exact orderly_consult ..

theorem orderly_onSuccessor (peer : Contact) (outcome : Outcome .knownId) :
    (node.onSuccessor key current peer hops outcome).Orderly node none plain := by
  rcases outcome with failure | _ | successor
  · exact .fail rfl _
  · exact .fail rfl _
  · rw [onSuccessor]
    split
    · exact .reply rfl _
    · exact .ask rfl rfl rfl fun _ => ⟨rfl, rfl⟩

theorem orderly_onFinger (outcome : Outcome .id) :
    (node.onFinger around key current successor hops outcome).Orderly node none plain := by
  cases outcome with
  | error failure => exact .fail rfl _
  | ok next => exact orderly_consult ..

/-! ### Membership -/

theorem orderly_join (known : Token) : (node.join around known).Orderly node none plain := by
  rw [join]
  split
  · exact .fail rfl _
  · have hsame : node.rejoining.belongings = node.belongings := rfl
    exact .ask hsame rfl rfl fun _ => ⟨rfl, rfl⟩

theorem orderly_onPlace (outcome : Outcome .id) :
    (node.onPlace around outcome).Orderly node none plain := by
  cases outcome with
  | error failure => exact .fail rfl _
  | ok successor =>
      have hsame : (node.setSuccessor successor).belongings = node.belongings := rfl
      rw [onPlace]
      split
      · exact .fail hsame _
      · exact .ask hsame rfl rfl fun _ => ⟨rfl, rfl⟩

theorem orderly_walk (members : List Token) (next : Token) :
    (node.walk around members next).Orderly node none plain := by
  rw [walk]
  split
  · exact .reply rfl _
  · split
    · exact .fail rfl _
    · exact .ask rfl rfl rfl fun _ => ⟨rfl, rfl⟩

theorem orderly_ringMembers : (node.ringMembers around).Orderly node none plain := by
  rw [ringMembers]
  split
  · exact .fail rfl _
  · exact orderly_walk ..

theorem orderly_onNext (members : List Token) (newest : Token) (outcome : Outcome .knownId) :
    (node.onNext around members newest outcome).Orderly node none plain := by
  rcases outcome with failure | _ | next
  · exact .fail rfl _
  · exact .fail rfl _
  · exact orderly_walk ..

/-- An acknowledged change that gives no lock back. -/
theorem orderly_acknowledge {change : Node × List Effect}
    (same : change.1.belongings = node.belongings)
    (releases : change.2.filterMap Effect.released? = [])
    (spawns : ∀ operation, .spawn operation ∈ change.2 → operation.plain = true) :
    (acknowledge change).Orderly node none plain :=
  ⟨same, by simp only [acknowledge, releases]; rfl, trivial, spawns, fun _ => trivial⟩

theorem released_announce (requesters : List Token) :
    (requesters.map Effect.announce).filterMap Effect.released? = [] := by
  induction requesters with
  | nil => rfl
  | cons requester rest ih => exact ih

theorem orderly_beginMerge (same : new.belongings = node.belongings) :
    (acknowledge new.beginMerge).Orderly node none plain := by
  rw [beginMerge]
  split
  · split
    · exact orderly_acknowledge same (released_announce _) (by simp [drainPending])
    · exact orderly_acknowledge same rfl (by simp [Operation.plain])
  · exact orderly_acknowledge same rfl (by simp)

theorem orderly_notified (candidate : Token) :
    (acknowledge (node.notified candidate)).Orderly node none plain := by
  rw [notified]
  split
  · exact orderly_beginMerge rfl
  · exact orderly_acknowledge rfl rfl (by simp)

theorem orderly_migrationEnded (source : Token) :
    (acknowledge (node.migrationEnded source)).Orderly node none plain := by
  rw [migrationEnded]
  split
  · exact orderly_acknowledge rfl (released_announce _) (by simp [drainPending])
  · exact orderly_acknowledge rfl rfl (by simp)

/-! ### Ring repair -/

theorem belongings_replaceSuccessor (node : Node) (around : Surroundings) (lost : Token) :
    (node.replaceSuccessor around lost).belongings = node.belongings := by
  simp only [replaceSuccessor, belongings]

theorem belongings_reachSuccessor (node : Node) (around : Surroundings) (successor : Token)
    (attempts : Nat) :
    (node.reachSuccessor around successor attempts).1.belongings = node.belongings := by
  induction attempts generalizing node successor with
  | zero => rfl
  | succ attempts ih =>
      rw [reachSuccessor]
      split
      · rfl
      · exact (ih _ _).trans (belongings_replaceSuccessor ..)

theorem orderly_stabilize : (node.stabilize around).Orderly node none plain := by
  rw [stabilize]
  split
  · exact .fail rfl _
  · rename_i successor _
    have hsame := belongings_reachSuccessor node around successor keyBits
    rw [approach]
    split
    · rename_i h
      rw [h] at hsame
      exact .ask hsame rfl rfl fun _ => ⟨rfl, rfl⟩
    · rename_i h
      rw [h] at hsame
      exact .fail hsame _

theorem orderly_tellSuccessor (same : new.belongings = node.belongings) (successor : Token)
    (peer : Contact) : (new.tellSuccessor successor peer).Orderly node none plain := by
  rw [tellSuccessor]
  split
  · exact .reply same _
  · exact .ask same rfl rfl fun _ => ⟨rfl, rfl⟩

theorem orderly_onPredecessor (successor : Token) (peer : Contact) (outcome : Outcome .knownId) :
    (node.onPredecessor around successor peer outcome).Orderly node none plain := by
  rcases outcome with failure | _ | candidate
  · exact .fail rfl _
  · exact orderly_tellSuccessor rfl ..
  · rw [onPredecessor]
    split
    · split
      · rename_i fingers _
        have hsame : ({ node with fingers := fingers } : Node).belongings = node.belongings := rfl
        have hcounted : ∀ {turn : Turn .nothing}, turn.effects = [] →
            turn.Orderly node none plain →
            Turn.Orderly node none plain
              { turn with effects := .tally .successorChanged :: turn.effects } := by
          intro turn hquiet h
          exact ⟨h.same, h.balance, h.poised, by simp [hquiet], h.plain⟩
        dsimp only
        split
        · exact hcounted rfl (.fail hsame _)
        · refine hcounted ?_ (orderly_tellSuccessor hsame ..)
          rw [tellSuccessor]
          split <;> rfl
      · exact orderly_stabilize
    · exact orderly_tellSuccessor rfl ..

theorem orderly_fixFingers : node.fixFingers.Orderly node none plain := by
  have hsame : ({ node with cursor := nextSlot node.cursor } : Node).belongings =
      node.belongings := rfl
  rw [fixFingers]
  split
  · exact .fail hsame _
  · exact .run hsame rfl rfl fun _ => ⟨rfl, rfl⟩

theorem orderly_onSlotOwner (slot : Nat) (outcome : Outcome .id) :
    (node.onSlotOwner slot outcome).Orderly node none plain := by
  cases outcome with
  | error failure => exact .fail rfl _
  | ok owner =>
      rw [onSlotOwner]
      split
      · exact .fail rfl _
      · dsimp only
        split
        · exact .reply rfl _
        · refine .reply ?_ _
          rfl

theorem orderly_refresh (left : Nat) : (node.refresh left).Orderly node none plain := by
  cases left with
  | zero => exact .reply rfl _
  | succ left => exact .run rfl rfl rfl fun _ => ⟨rfl, rfl⟩

theorem orderly_fixPredecessor :
    ((node.fixPredecessor around).reply (.ok ()) : Turn .nothing).Orderly node none plain := by
  refine .reply ?_ _
  rw [fixPredecessor]
  split
  · split <;> rfl
  · rfl

/-! ### Migration -/

theorem orderly_migrateStorages (moved : Nat) (storages : List String) :
    (node.migrateStorages moved storages).Orderly node none plain := by
  induction storages with
  | nil => exact .reply rfl _
  | cons storage rest ih =>
      rw [migrateStorages]
      split
      · exact ih
      · exact .call rfl rfl rfl fun _ => ⟨rfl, rfl⟩

theorem orderly_migrateKeys (storage : String) (storages : List String) (moved : Nat)
    (keys : List Token) :
    (node.migrateKeys storage storages moved keys).Orderly node none plain := by
  cases keys with
  | nil => exact orderly_migrateStorages ..
  | cons key rest => exact .run rfl rfl rfl fun _ => ⟨rfl, rfl⟩

theorem orderly_onOwner (storage : String) (key : Token) (keys : List Token)
    (storages : List String) (moved : Nat) (outcome : Outcome .id) :
    (node.onOwner storage key keys storages moved outcome).Orderly node none plain := by
  cases outcome with
  | error failure => exact .fail rfl _
  | ok owner =>
      rw [onOwner]
      split
      · exact orderly_migrateKeys ..
      · exact .run rfl rfl rfl fun _ => ⟨rfl, rfl⟩

theorem orderly_onMigrated (requester : Token) (outcome : Outcome .count) :
    (node.onMigrated requester outcome).Orderly node none plain := by
  cases outcome with
  | error failure => exact .fail rfl _
  | ok moved =>
      rw [onMigrated, reportMigration]
      split
      · exact orderly_acknowledge rfl rfl (by simp)
      · exact orderly_acknowledge rfl rfl (by simp)

theorem orderly_callKnown (peer : Token) {request : Request .nothing}
    (easy : request.plain = true) :
    (node.callKnown around peer request).Orderly node none plain := by
  rw [callKnown]
  split
  · exact .fail rfl _
  · exact .ask rfl rfl rfl fun _ => ⟨easy, rfl⟩

/-! ### Transfers -/

variable {storage : String}

/-- The end of a transfer gives the record's lock back. -/
theorem orderly_endTransfer (outcome : Outcome .flag) :
    (node.endTransfer storage key outcome).Orderly node (some ⟨storage, key⟩) false :=
  ⟨rfl, rfl, trivial, by simp [endTransfer], fun h => nomatch h⟩

theorem orderly_onTransferLock (owner : Token) (outcome : Outcome .nothing) :
    (node.onTransferLock storage key owner outcome).Orderly node
      ((Frame.transferLockAwaited storage key owner).holds? outcome) false := by
  cases outcome with
  | error failure => exact .fail rfl _
  | ok granted => exact .call rfl rfl rfl fun h => nomatch h

theorem orderly_onTransferRead (owner : Token) (outcome : Outcome .record) :
    (node.onTransferRead around storage key owner outcome).Orderly node (some ⟨storage, key⟩)
      false := by
  rcases outcome with failure | _ | record
  · exact orderly_endTransfer _
  · exact orderly_endTransfer _
  · rw [onTransferRead]
    split
    · exact orderly_endTransfer _
    · exact .ask rfl rfl rfl fun h => nomatch h

theorem orderly_onTransferHanded (version : UInt64) (outcome : Outcome .version) :
    (node.onTransferHanded storage key version outcome).Orderly node (some ⟨storage, key⟩)
      false := by
  cases outcome with
  | error failure => exact orderly_endTransfer _
  | ok stored => exact .call rfl rfl rfl fun h => nomatch h

theorem orderly_onTransferDeleted (outcome : Outcome .flag) :
    (node.onTransferDeleted storage key outcome).Orderly node (some ⟨storage, key⟩) false := by
  cases outcome with
  | error failure => exact orderly_endTransfer _
  | ok removed => exact ⟨rfl, rfl, trivial, by simp [onTransferDeleted, endTransfer], fun h => nomatch h⟩

/-! ### Record calls -/

theorem orderly_attempt (call : RecordCall shape) : (node.attempt call).Orderly node none false :=
  .quiet rfl rfl rfl fun h => nomatch h

theorem orderly_enter (call : RecordCall shape) (since : Nat) :
    (node.enter around call since).Orderly node none false := by
  have hsleep : Turn.Orderly node none false
      ⟨node, [], .sleep node.config.joinPoll (.joinAwaited call since)⟩ :=
    .quiet rfl rfl rfl fun h => nomatch h
  rw [enter]
  split
  · dsimp only
    split
    · split
      · exact .fail rfl _
      · exact hsleep
    · exact hsleep
  · exact .run rfl rfl rfl fun h => nomatch h

theorem orderly_onAttempted (call : RecordCall shape) (outcome : Outcome shape) :
    (node.onAttempted around call outcome).Orderly node none false := by
  cases outcome with
  | error failure => exact .fail rfl _
  | ok answer =>
      rw [onAttempted]
      split
      · split
        · exact .reply rfl _
        · split
          · exact orderly_attempt call
          · exact .ask rfl rfl rfl fun h => nomatch h
      · exact .reply rfl _

theorem orderly_onHandedOn (call : RecordCall shape) (outcome : Outcome shape) :
    (node.onHandedOn call outcome).Orderly node none false := by
  cases outcome with
  | error failure => exact orderly_attempt call
  | ok answer =>
      rw [onHandedOn]
      split
      · exact orderly_attempt call
      · exact .reply rfl _

/-! ### Every turn -/

/-- Every first turn of an operation keeps the books, and it holds no lock yet. -/
theorem orderly_start (node : Node) (around : Surroundings) (operation : Operation shape) :
    (node.start around operation).Orderly node none operation.plain := by
  cases operation with
  | serve request =>
      cases request with
      | findSuccessor key => exact orderly_lookUp around key
      | closestPrecedingFinger key => exact .reply rfl _
      | successor => exact .reply rfl _
      | predecessor => exact .reply rfl _
      | notify candidate => exact orderly_notified candidate
      | migrationEnded source => exact orderly_migrationEnded source
      | requestMigration requester =>
          have hturn : (acknowledge (node, [.spawn (.migrateFor requester)])).Orderly node none true :=
            orderly_acknowledge rfl rfl (by simp [Operation.plain])
          exact hturn
      | record call => exact orderly_enter call _
  | found =>
      have hsame : node.founded.belongings = node.belongings := rfl
      exact .reply hsame _
  | join known => exact orderly_join known
  | stabilize => exact orderly_stabilize
  | fixFingers => exact orderly_fixFingers
  | refreshFingers => exact orderly_refresh routingSlots
  | fixPredecessor => exact orderly_fixPredecessor
  | ringMembers => exact orderly_ringMembers
  | attempt call => exact orderly_attempt call
  | migrate => exact .call rfl rfl rfl fun _ => ⟨rfl, rfl⟩
  | transfer storage key owner => exact .quiet rfl rfl rfl fun h => nomatch h
  | migrateFor requester => exact .run rfl rfl rfl fun _ => ⟨rfl, rfl⟩
  | askForRecords source => exact orderly_callKnown source rfl
  | reportMoved requester => exact orderly_callKnown requester rfl

/-- Every turn of a waiting operation keeps the books. -/
theorem orderly_resume (node : Node) (around : Surroundings) (frame : Frame shape result)
    (outcome : Outcome shape) :
    (node.resume around frame outcome).Orderly node (frame.holds? outcome) frame.plain := by
  have hfree : ∀ {turn : Turn result} {plain : Bool},
      frame.guards? = none → frame.wants? = none → turn.Orderly node none plain →
      turn.Orderly node (frame.holds? outcome) plain := by
    intro turn plain hguards hwants horderly
    have hnone : frame.holds? outcome = none := by cases outcome <;> simp [Frame.holds?, *]
    exact hnone ▸ horderly
  have hguarded : ∀ {turn : Turn result} {plain : Bool} {id : LockId}, frame.guards? = some id →
      turn.Orderly node (some id) plain → turn.Orderly node (frame.holds? outcome) plain := by
    intro turn plain id hguards horderly
    have hsome : frame.holds? outcome = some id := by cases outcome <;> simp [Frame.holds?, *]
    exact hsome ▸ horderly
  cases frame with
  | successorAsked key current peer hops => exact hfree rfl rfl (orderly_onSuccessor peer outcome)
  | fingerAsked key current successor hops => exact hfree rfl rfl (orderly_onFinger outcome)
  | placeAsked => exact hfree rfl rfl (orderly_onPlace outcome)
  | told => exact hfree rfl rfl (.reply rfl outcome)
  | predecessorAsked successor peer =>
      exact hfree rfl rfl (orderly_onPredecessor successor peer outcome)
  | slotOwnerAsked slot => exact hfree rfl rfl (orderly_onSlotOwner slot outcome)
  | refreshing left =>
      cases outcome with
      | error failure => exact .fail rfl _
      | ok refreshed => exact orderly_refresh left
  | nextAsked members newest => exact hfree rfl rfl (orderly_onNext members newest outcome)
  | joinAwaited call since =>
      cases outcome with
      | error failure => exact .fail rfl _
      | ok awaited => exact orderly_enter call since
  | attempted call => exact hfree rfl rfl (orderly_onAttempted call outcome)
  | handedOn call => exact hfree rfl rfl (orderly_onHandedOn call outcome)
  | lockAwaited call =>
      cases outcome with
      | error failure => exact .fail rfl _
      | ok granted => exact .call rfl rfl rfl fun h => nomatch h
  | performed call => exact hguarded rfl ⟨rfl, rfl, trivial, by simp [resume, onPerformed], fun h => nomatch h⟩
  | namesAsked =>
      cases outcome with
      | error failure => exact .fail rfl _
      | ok storages => exact orderly_migrateStorages 0 storages
  | keysAsked storage storages moved =>
      cases outcome with
      | error failure => exact .fail rfl _
      | ok keys => exact orderly_migrateKeys storage storages moved keys
  | ownerAsked storage key keys storages moved =>
      exact hfree rfl rfl (orderly_onOwner storage key keys storages moved outcome)
  | moving storage keys storages moved =>
      cases outcome with
      | error failure => exact .fail rfl _
      | ok done => exact orderly_migrateKeys storage storages _ keys
  | transferLockAwaited storage key owner => exact orderly_onTransferLock owner outcome
  | transferRead storage key owner => exact hguarded rfl (orderly_onTransferRead owner outcome)
  | transferHanded storage key version =>
      exact hguarded rfl (orderly_onTransferHanded version outcome)
  | transferDeleted storage key => exact hguarded rfl (orderly_onTransferDeleted outcome)
  | migratingFor requester => exact hfree rfl rfl (orderly_onMigrated requester outcome)

end Node

end RecordRing
