import RecordRing.Proofs.Handover.Opening
import RecordRing.Proofs.Ring.Safety

/-!
# Records that clients create while nodes join

A node creates a record if its own store does not hold it.  While records are on their way to a node
that joins, another store may still hold it, and the record is doubled (`Doubles`): the transfer of the
earlier copy then fails for good, and both copies remain (`create_doubles`).

That is the only way in which a record gets a second copy.  In a run in which no client's call doubles a
record (`HeedfulRun`), whatever else clients do at any node while nodes join, every record is stored at
most once as soon as no transfer is about to delete its source (`Opening.held_once`).
-/

namespace RecordRing

namespace Network

variable {ids : List Token} {clients : Clients} {rules : Rules} {net after last : Network}
  {number : Nat} {id : LockId} {stored : Stored}

/-- A node creates a record for a client while another node holds a copy that stays. -/
def Doubles (net after : Network) : Prop :=
  ∃ number handle id, after = net.step number ∧ net.creates? number = some (handle, id) ∧
    net.stored? handle id = none ∧ after.stored? handle id ≠ none ∧
    ∃ other stored, net.stored? other id = some stored ∧ ¬ net.Doomed other id

/-- A run in which no record is doubled. -/
def HeedfulRun (rules : Rules) : Network → Network → Prop :=
  Relation.ReflTransGen fun net after => Move rules net after ∧ ¬ net.Doubles after

/-! ## Copies that stay -/

/-- A staged network in which no record has two copies that stay. -/
structure Undoubled (clients : Clients) (net : Network) : Prop where
  attended : ∃ history, net.Attended clients history
  books : net.Exclusive net.holdings
  sole : ∀ id, ∃ kept, net.Sole id kept

namespace Undoubled

/-- A step that doubles no record leaves every record with one copy at most that stays. -/
theorem sole_step (undoubled : net.Undoubled clients) (heeds : ¬ net.Doubles (net.step number))
    (id : LockId) : ∃ kept, (net.step number).Sole id kept := by
  obtain ⟨history, hattended⟩ := undoubled.attended
  obtain ⟨kept, hsole⟩ := undoubled.sole id
  rcases hattended.shift_or_creates undoubled.books number with hshift | ⟨peer, stored, hcreates⟩
  · exact ⟨_, hsole.shift hshift⟩
  · refine ⟨_, Sole.of_creates hcreates ?_ fun other twin htwin => ?_⟩
    · rintro ⟨other, hdoomed⟩
      obtain ⟨⟨copy, hcopy⟩, -⟩ := hattended.of_doomed hdoomed
      rw [hcreates.free] at hcopy
      cases hcopy
    · refine Classical.byContradiction fun hstays => heeds ?_
      refine ⟨number, peer, id, rfl, hcreates.makes, hcreates.free, ?_, other, twin, htwin, hstays⟩
      rw [hcreates.writes.stored?_self]
      exact Option.some_ne_none stored

theorem move (undoubled : net.Undoubled clients) (attend : rules.Attend clients)
    (empty : ∀ {member}, rules.Welcomes member →
      ∀ storage key, member.node.store.find? storage key = none)
    (move : Move rules net after) (heeds : ¬ net.Doubles after) : after.Undoubled clients := by
  obtain ⟨history, hattended⟩ := undoubled.attended
  obtain ⟨events, htraced⟩ := move.traced
  have hbooks := undoubled.books
  refine ⟨⟨_, hattended.move attend hbooks htraced⟩, hbooks.move move, fun id => ?_⟩
  rcases hattended.step_or_rests (fun welcome => empty welcome id.storage id.key) hbooks htraced
    with ⟨number, rfl, -⟩ | ⟨hstored, hdoomed, -⟩
  · exact undoubled.sole_step heeds id
  · obtain ⟨kept, hsole⟩ := undoubled.sole id
    exact ⟨kept, hsole.of_same hstored hdoomed⟩

theorem run (undoubled : net.Undoubled clients) (attend : rules.Attend clients)
    (empty : ∀ {member}, rules.Welcomes member →
      ∀ storage key, member.node.store.find? storage key = none)
    (run : HeedfulRun rules net after) : after.Undoubled clients := by
  induction run with
  | refl => exact undoubled
  | tail run move ih => exact ih.move attend empty move.1 move.2

end Undoubled

namespace Opening

theorem undoubled (opening : net.Opening ids) (clients : Clients) : net.Undoubled clients :=
  ⟨⟨[], .of_idle opening.members opening.tasks⟩, .of_idle opening.tasks opening.unlocked,
    fun id => ⟨_, (opening.kept clients id).sole⟩⟩

/-- Clients create, read, update and delete records at any node while nodes join, and no record is
doubled.  Then at any moment at which no transfer is about to delete its source, all the more when no
transfer is under way, every record is stored at one node at most. -/
theorem held_once (opening : net.Opening ids) (run : HeedfulRun (serving ids clients) net after)
    (still : ∀ (number : Nat) task, after.tasks[number]? = some task → task.doomed? = none) :
    ∀ id first second one two, after.stored? first id = some one →
      after.stored? second id = some two → first = second := by
  intro id first second one two hone htwo
  have hundoubled : after.Undoubled clients :=
    (opening.undoubled clients).run (attend_serving ids) (fun welcome => welcome) run
  obtain ⟨kept, hsole⟩ := hundoubled.sole id
  exact hsole.once hone htwo (not_doomed still first id) (not_doomed still second id)

end Opening

/-! ## Runs that are followed step by step -/

/-- Whether none of the steps creates a record for a client that some node holds. -/
def isHeedful (net : Network) : List Nat → Bool
  | [] => true
  | number :: rest =>
    (net.tasks.keys.all fun other => (net.creates? other).all fun (_, id) =>
      (List.range net.endpoints.size).all fun handle => (net.stored? handle id).isNone) &&
    (net.step number).isHeedful rest

theorem heedful_steps {numbers : List Nat} (orderly : net.isOrderly numbers = true)
    (heedful : net.isHeedful numbers = true) : HeedfulRun rules net (net.steps numbers) := by
  induction numbers generalizing net with
  | nil => exact Relation.ReflTransGen.refl
  | cons number rest ih =>
      rw [isOrderly, Bool.and_eq_true, Bool.not_eq_true'] at orderly
      rw [isHeedful, Bool.and_eq_true] at heedful
      refine Relation.ReflTransGen.head ⟨.step orderly.1, ?_⟩ (ih orderly.2 heedful.2)
      rintro ⟨other, handle, id, -, hcreates, -, -, holder, stored, hcopy, -⟩
      obtain ⟨task, htask, -⟩ := Option.bind_eq_some_iff.1 hcreates
      have hmem : other ∈ net.tasks.keys := by
        rw [Std.TreeMap.mem_keys, Std.TreeMap.mem_iff_isSome_getElem?, htask]
        rfl
      have hnobody := List.all_eq_true.1 heedful.1 other hmem
      rw [hcreates, Option.all_some, List.all_eq_true] at hnobody
      obtain ⟨node, hnode, -⟩ := Option.bind_eq_some_iff.1 hcopy
      have hfree := hnobody holder (List.mem_range.2 (lt_size_of_nodeAt? hnode))
      rw [hcopy] at hfree
      cases hfree

/-- A move that leaves every record where it is. -/
theorem heedful_of_same (move : Move rules net after)
    (same : ∀ handle id, after.stored? handle id = net.stored? handle id) :
    HeedfulRun rules net after := by
  refine Relation.ReflTransGen.single ⟨move, ?_⟩
  rintro ⟨number, handle, id, -, -, hfree, hmade, -⟩
  rw [same] at hmade
  exact hmade hfree

theorem heedful_welcome {id : UInt64} (welcome : rules.Welcomes (newcomer id))
    (new : ∀ handle < net.endpoints.size, net.idAt? handle ≠ some (Token.wrapping id)) :
    HeedfulRun rules net (net.welcome id) := by
  have hattach : HeedfulRun rules net (net.attach (.member (newcomer id))).2 :=
    heedful_of_same (move_attach_newcomer welcome new) fun handle _ => stored?_attach rfl handle
  exact hattach.trans (heedful_of_same (move_register_newcomer rules net id) fun _ _ => rfl)

theorem heedful_tell {handle : Handle} {shape : Shape} {operation : Operation shape}
    {numbers : List Nat} (permitted : rules.Permits net handle operation)
    (orderly : (net.spawn (taskOf (.client []) handle operation)).isOrderly numbers = true)
    (heedful : (net.spawn (taskOf (.client []) handle operation)).isHeedful numbers = true) :
    HeedfulRun rules net ((net.spawn (taskOf (.client []) handle operation)).steps numbers) := by
  have hlaunch : Move rules net (net.spawn (taskOf (.client []) handle operation)) :=
    .launch (fun _ h => absurd h List.not_mem_nil) permitted
  exact (heedful_of_same hlaunch fun _ _ => rfl).trans (heedful_steps orderly heedful)

theorem HeedfulRun.run (heedful : HeedfulRun rules net after) : Run rules net after := by
  induction heedful with
  | refl => exact Relation.ReflTransGen.refl
  | tail heedful move ih => exact ih.tail move.1

end Network

/-! ## A record on its way to a node that joins -/

namespace Parcel

open Network

/-- The nodes of a ring of two. -/
def ids : List Token := [Token.wrapping 0, Token.wrapping 100]

/-- The rules of a run in which clients make any calls on records. -/
def rules : Rules := serving ids fun _ => True

/-- A record that node 100 owns as long as no node is between its key and node 100. -/
def id : LockId := ⟨"docs", Token.wrapping 30⟩

/-- A member of the ring. -/
def member (id neighbour : UInt64) (store : Store) : Member :=
  { newcomer id with
    node := { Node.fresh (Token.wrapping id) store Config.standard with
      lifecycle := .stable
      predecessor := some (Token.wrapping neighbour)
      fingers := Fingers.empty.set Fingers.successorSlot (some (Token.wrapping neighbour)) } }

/-- The ring, with the record at its owner. -/
def laden : Network :=
  let members := [member 0 100 (Store.empty none),
    member 100 0 ((Store.empty none).put id.storage id.key ⟨[170], 0⟩)]
  let net := { Network.empty with endpoints := (members.map Endpoint.member).toArray }
  (net.register (Token.wrapping 0) 0).register (Token.wrapping 100) 1

/-- Node 50 has joined and begun to merge, and its request for records is on the way. -/
def merging : Network :=
  ((laden.welcome 50).tell 2 (.join (Token.wrapping 0)) (List.replicate 10 0)).tell 0 .stabilize
    (List.replicate 10 1)

/-- The record has been handed over to node 50, which is stable now. -/
def delivered : Network :=
  merging.steps (List.replicate 6 2 ++ List.replicate 30 3 ++ List.replicate 6 4)

/-- A record whose key node 50 owns, too. -/
def extra : LockId := ⟨"docs", Token.wrapping 40⟩

/-- A client has created that record at node 50. -/
def extended : Network :=
  delivered.ordered 2 (.serve (.record (.create extra.storage extra.key [187] 0))) 7

theorem find?_empty (storage : String) (key : Token) :
    (Store.empty none).find? storage key = none := by
  simp [Store.find?, Store.empty]

theorem size_laden : laden.endpoints.size = 2 := rfl

theorem idAt?_of_endpoint {handle : Handle} (h : laden.endpoints[handle]? = none) :
    laden.idAt? handle = none := by
  rw [idAt?, nodeAt?_of_endpoint h]
  rfl

theorem directory_laden (id : Token) : laden.directory[id]? =
    if Token.wrapping 100 = id then some 1 else if Token.wrapping 0 = id then some 0 else none := by
  simp only [laden, register, Network.empty, Std.TreeMap.getElem?_insert,
    Std.compare_eq_iff_eq, Std.TreeMap.getElem?_emptyc]

theorem rested_member {self neighbour : UInt64} (store : Store)
    (next : nextOf ids (Token.wrapping self) = Token.wrapping neighbour)
    (previous : previousOf ids (Token.wrapping self) = Token.wrapping neighbour)
    (ne : Token.wrapping neighbour ≠ Token.wrapping self) :
    (member self neighbour store).Rested ids where
  successor := (Fingers.get_set ..).trans (congrArg some next.symm)
  predecessor _ h := Option.some.inj h ▸ ⟨previous.symm, ne⟩
  stable := rfl
  pending := rfl
  cursor := Nat.le_refl 1
  locks _ := rfl
  clear := rfl
  silent := ⟨rfl, rfl⟩

theorem owned_laden (handle : Handle) {name : LockId} {stored : Stored} :
    laden.stored? handle name = some stored →
      laden.idAt? handle = some (ownerOf ids name.key) := by
  revert handle
  refine forall_of_two size_laden (fun found => ?_) (fun found => ?_) fun handle hnone found => ?_
  · cases found.symm.trans (find?_empty name.storage name.key)
  · have hfind : ((Store.empty none).put id.storage id.key ⟨[170], 0⟩).find? name.storage
        name.key = some stored := found
    rw [Store.find?_put, find?_empty] at hfind
    split at hfind
    · rename_i hname
      rw [← hname.2]
      decide
    · cases hfind
  · rw [stored?, nodeAt?_of_endpoint hnone] at found
    cases found

theorem opening_laden : laden.Opening ids where
  ascending := by decide
  census id := by
    have hids : (List.range laden.endpoints.size).filterMap laden.idAt? = ids := by decide
    rw [exists_idAt?_iff, hids]
  listed id handle := by
    constructor
    · intro h
      rw [directory_laden] at h
      split at h
      · rename_i heq
        cases h
        rw [← heq]
        decide
      · split at h
        · rename_i heq
          cases h
          rw [← heq]
          decide
        · cases h
    · revert handle
      refine forall_of_two size_laden (fun h => ?_) (fun h => ?_) fun handle hnone h => ?_
      · cases h
        decide
      · cases h
        decide
      · cases (idAt?_of_endpoint hnone).symm.trans h
  members := forall_of_two size_laden rfl rfl fun handle h => by simp only [script?, h]
  rested := by
    refine forall_of_two size_laden ?_ ?_ fun handle h member hmember => ?_
    · rintro _ ⟨⟩
      exact rested_member _ (by decide) (by decide) (by decide)
    · rintro _ ⟨⟩
      exact rested_member _ (by decide) (by decide) (by decide)
    · simp [member?, h] at hmember
  tasks number := Std.TreeMap.getElem?_emptyc
  owned handle _ _ := owned_laden handle

theorem heedful_merging : HeedfulRun rules laden merging := by
  have hjoin : rules.Permits (laden.welcome 50) 2 (.join (Token.wrapping 0)) :=
    ⟨Token.wrapping 50, by decide, by decide, 2, by decide⟩
  exact (heedful_welcome (fun _ _ => rfl) (by decide)).trans
    ((heedful_tell hjoin (by decide +kernel) (by decide +kernel)).trans
      (heedful_tell trivial (by decide +kernel) (by decide +kernel)))

/-- A record that has been moved to the node that joins, and one that a client has created there, are
nowhere else. -/
theorem held_once_extended :
    (∃ stored, extended.stored? 2 id = some stored) ∧
    (∃ stored, extended.stored? 2 extra = some stored) ∧
    ∀ handle stored, extended.stored? handle id = some stored ∨
      extended.stored? handle extra = some stored → handle = 2 := by
  have hdelivered : HeedfulRun rules merging delivered :=
    heedful_steps (by decide +kernel) (by decide +kernel)
  have hextended : HeedfulRun rules delivered extended :=
    heedful_tell trivial (by decide +kernel) (by decide +kernel)
  have hidle : ∀ number : Nat, extended.tasks[number]? = none := fun number =>
    Std.TreeMap.getElem?_of_isEmpty (by decide +kernel)
  have honce := opening_laden.held_once (heedful_merging.trans (hdelivered.trans hextended))
    fun number task htask => nomatch (hidle number).symm.trans htask
  have hmoved : extended.stored? 2 id = some ⟨[170], 0⟩ := by decide +kernel
  have hcreated : extended.stored? 2 extra = some ⟨[187], 0⟩ := by decide +kernel
  refine ⟨⟨_, hmoved⟩, ⟨_, hcreated⟩, fun handle stored h => ?_⟩
  rcases h with h | h
  · exact honce id handle 2 _ _ h hmoved
  · exact honce extra handle 2 _ _ h hcreated

/-- Node 0 has been asked for the owner of the record while node 50 merges. -/
def located : Network := merging.ordered 0 (.serve (.findSuccessor id.key)) 2

/-- A client creates the record. -/
def creation : Operation .version := .serve (.record (.create id.storage id.key [187] 0))

/-- Node 50 has created the record, and only then its request for records has arrived. -/
def doubled : Network :=
  (located.ordered 2 creation 7).steps (List.replicate 6 2 ++ List.replicate 28 5)

/-- A client that asks for the owner of the record is told of node 50, and creates the record there
with success.  Once everything has come to rest, two nodes hold the record. -/
theorem create_doubles :
    laden.Opening ids ∧ Run rules laden located ∧
    located.endings[3]?.bind (Ending.as? .id) = some (.ok (Token.wrapping 50)) ∧
    located.idAt? 2 = some (Token.wrapping 50) ∧
    Run rules located (located.spawn (taskOf (.client []) 2 creation)) ∧
    Run rules (located.spawn (taskOf (.client []) 2 creation)) doubled ∧
    doubled.endings[4]?.bind (Ending.as? .version) = some (.ok 0) ∧
    (∀ number : Nat, doubled.tasks[number]? = none) ∧
    doubled.stored? 1 id = some ⟨[170], 0⟩ ∧ doubled.stored? 2 id = some ⟨[187], 0⟩ := by
  have hlocated : Run rules merging located := (Trace.of_order rfl (by decide +kernel)).run
  have hlaunched : Move rules located (located.spawn (taskOf (.client []) 2 creation)) :=
    .launch (fun _ h => absurd h List.not_mem_nil) trivial
  have hcreated : Run rules (located.spawn (taskOf (.client []) 2 creation))
      (located.ordered 2 creation 7) := run_steps _ (by decide +kernel)
  have hdoubled : Run rules (located.ordered 2 creation 7) doubled := run_steps _ (by decide +kernel)
  exact ⟨opening_laden, heedful_merging.run.trans hlocated, by decide +kernel, by decide +kernel,
    .single hlaunched, hcreated.trans hdoubled, by decide +kernel,
    fun number => Std.TreeMap.getElem?_of_isEmpty (by decide +kernel), by decide +kernel,
    by decide +kernel⟩

end Parcel

end RecordRing
