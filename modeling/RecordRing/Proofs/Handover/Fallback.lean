import Mathlib.Data.List.TakeWhile
import RecordRing.Proofs.Network.Alone
import RecordRing.Proofs.Network.Calls

/-!
# Reads and deletions along merging nodes

While a node merges, a read or a deletion that misses goes on to the node from which the records are
still to arrive, and that node may merge itself.  So the call goes along a chain of nodes
(`Trail`), until a node keeps the record or the next node cannot be asked.  A node whose successor in
the chain has missed or failed tries its own store once more and misses again.

The call comes to what the first node that keeps the record makes of it, and no other store is
touched (`Trail.onward_serve`).  A refusal of that node is passed on to nobody but its own caller:
every node before it takes the failure for a miss.  For the two calls this is
`record_calls_fall_back`.

## Implementation notes

The run is followed along the chain of the network in which the call begins.  The networks on the way
are compared with it by their stores and locks alone (`Restocks`), so nothing about the chain has to
be carried along.
-/

namespace RecordRing

/-! ## Calls on one store -/

namespace Store

variable {shape : Shape} {call : RecordCall shape} {miss answer : shape.Value} {store : Store}
  {credential : Credential} {storage : String} {key : Token} {version : UInt64} {stored : Stored}

/-- A store that does not open refuses every call. -/
theorem perform_of_closed (call : RecordCall shape)
    (closed : store.opensFor credential = false) :
    store.perform credential (.record call) =
      (.error (.unauthorized credential.principal), store) := by
  cases call <;> simp [perform, create, read, update, delete, closed]

/-- A read or a deletion misses a record that the store does not keep. -/
theorem perform_of_absent (misses : call.misses miss = true)
    (opens : store.opensFor credential = true)
    (absent : store.find? call.lockId.storage call.lockId.key = none) :
    store.perform credential (.record call) = (.ok miss, store) := by
  cases call with
  | create storage key content version => cases misses
  | update storage key content version => cases misses
  | read storage key =>
      have hmiss : miss = none := Option.isNone_iff_eq_none.1 misses
      have habsent : store.find? storage key = none := absent
      simp [perform, read, opens, habsent, hmiss]
  | delete storage key version =>
      have hmiss : miss = false := by simpa [RecordCall.misses] using misses
      have habsent : store.find? storage key = none := absent
      simp [perform, delete, opens, habsent, hmiss]

/-- A read or a deletion that fails leaves the store as it is. -/
theorem perform_of_error {error : StoreError} (misses : call.misses miss = true)
    (fails : (store.perform credential (.record call)).1 = .error error) :
    (store.perform credential (.record call)).2 = store := by
  cases call with
  | create storage key content version => cases misses
  | update storage key content version => cases misses
  | read storage key => rfl
  | delete storage key version =>
      apply delete_of_ne_true
      have herror : (store.delete credential storage key version).1 = .error error := fails
      rw [herror]
      exact nofun

/-- No call misses a record that the store keeps. -/
theorem not_misses_of_found
    (found : store.find? call.lockId.storage call.lockId.key = some stored)
    (answers : (store.perform credential (.record call)).1 = .ok answer) :
    call.misses answer = false := by
  cases call with
  | create storage key content version => rfl
  | update storage key content version => rfl
  | read storage key =>
      have hfound : store.find? storage key = some stored := found
      simp only [perform, read, hfound] at answers
      split at answers
      · cases answers
        rfl
      · cases answers
  | delete storage key version =>
      have hfound : store.find? storage key = some stored := found
      simp only [perform, delete, hfound] at answers
      split at answers
      · split at answers
        · cases answers
        · cases answers
          rfl
      · cases answers

theorem read_of_found (opens : store.opensFor credential = true)
    (found : store.find? storage key = some stored) :
    store.read credential storage key = .ok (some ⟨key, stored.content, stored.version⟩) := by
  simp [read, opens, found]

theorem delete_of_other_version (opens : store.opensFor credential = true)
    (found : store.find? storage key = some stored) (other : stored.version ≠ version) :
    store.delete credential storage key version =
      (.error (.versionConflict key version stored.version), store) := by
  simp [delete, opens, found, other]

end Store

namespace Node

variable {node later : Node} {around : Surroundings} {shape : Shape} {call : RecordCall shape}
  {miss : shape.Value} {source : Token}

theorem previousOwner_of_stable (stable : node.lifecycle = .stable) : node.previousOwner = none := by
  apply if_neg
  rw [stable]
  exact nofun

theorem previousOwner_of_merging (merging : node.lifecycle = .merging)
    (held : node.migrationSource = some source) (other : source ≠ node.id) :
    node.previousOwner = some source := by
  rw [previousOwner, if_pos merging, held]
  exact Option.filter_some_pos (decide_eq_true other)

/-- After a miss the previous owner is asked, if it is known. -/
theorem onAttempted_of_owner (misses : call.misses miss = true)
    (owner : node.previousOwner = some source) (other : source ≠ node.id) :
    node.onAttempted around call (.ok miss) =
      match around.find? source with
      | none => node.attempt call
      | some peer => node.ask (.remote peer) (.record call) (.handedOn call) := by
  simp only [onAttempted, misses, if_true, owner, resolve, if_neg other]
  cases around.find? source <;> rfl

end Node

namespace Network

variable {net now after : Network} {handle : Handle} {node : Node} {id : LockId} {number : Nat}
  {purpose : Purpose} {shape : Shape} {stack : Stack shape} {call : RecordCall shape}
  {miss : shape.Value} {first next place : Token × Handle} {places rest : List (Token × Handle)}

/-! ## Chains of merging nodes -/

/-- A chain of nodes, by their identifiers and handles.  Every node but the last one merges and takes
its records over from the next one, which the directory leads to if it knows it; the last node is
stable. -/
inductive Trail (net : Network) : List (Token × Handle) → Prop where
  | stable {place : Token × Handle} {node : Node} (stands : net.Stands place.2 node)
      (named : node.id = place.1) (stable : node.lifecycle = .stable) : Trail net [place]
  | merging {place next : Token × Handle} {rest : List (Token × Handle)} {node : Node}
      (stands : net.Stands place.2 node) (named : node.id = place.1)
      (merging : node.lifecycle = .merging) (source : node.migrationSource = some next.1)
      (listed : net.directory[next.1]? = some next.2 ∨ net.directory[next.1]? = none)
      (later : Trail net (next :: rest)) : Trail net (place :: next :: rest)

/-- The directory leads to a node, and its store opens for it. -/
def reaches (net : Network) (place : Token × Handle) : Bool :=
  decide (net.directory[place.1]? = some place.2) && (net.nodeAt? place.2).any Node.opens

/-- The part of a chain that a call at its first node can come to. -/
def reached (net : Network) : List (Token × Handle) → List (Token × Handle)
  | [] => []
  | first :: rest => first :: rest.takeWhile net.reaches

/-- The first node of a chain that keeps a record, among those that a call can come to. -/
def keeper? (net : Network) (id : LockId) (places : List (Token × Handle)) :
    Option (Token × Handle) :=
  (net.reached places).find? fun place => (net.stored? place.2 id).isSome

theorem keeper?_of_kept (keeps : (net.stored? first.2 id).isSome = true)
    (rest : List (Token × Handle)) : net.keeper? id (first :: rest) = some first :=
  List.find?_cons_of_pos keeps

theorem keeper?_singleton (misses : net.stored? first.2 id = none) :
    net.keeper? id [first] = none := by
  simp [keeper?, reached, misses]

theorem keeper?_of_reaches (misses : net.stored? first.2 id = none)
    (reaches : net.reaches next = true) (rest : List (Token × Handle)) :
    net.keeper? id (first :: next :: rest) = net.keeper? id (next :: rest) := by
  simp [keeper?, reached, misses, reaches]

theorem keeper?_of_not_reaches (misses : net.stored? first.2 id = none)
    (lost : net.reaches next = false) (rest : List (Token × Handle)) :
    net.keeper? id (first :: next :: rest) = none := by
  simp [keeper?, reached, misses, lost]

theorem reached_sublist (net : Network) (places : List (Token × Handle)) :
    (net.reached places).Sublist places := by
  cases places with
  | nil => exact List.Sublist.refl _
  | cons first rest => exact (List.takeWhile_sublist _).cons_cons first

theorem mem_of_keeper? (keeper : net.keeper? id places = some place) : place ∈ places :=
  (reached_sublist net places).subset (List.mem_of_find?_eq_some keeper)

theorem opens_iff (found : net.nodeAt? handle = some node) :
    net.Opens handle ↔ node.opens = true := by
  constructor
  · rintro ⟨twin, htwin, hopens⟩
    rw [found, Option.some.injEq] at htwin
    rw [htwin]
    exact hopens
  · exact fun hopens => ⟨node, found, hopens⟩

/-- The keeper keeps the record, and its store opens if that of the first node does. -/
theorem keeper?_spec (opens : net.Opens first.2)
    (keeper : net.keeper? id (first :: rest) = some place)
    (found : net.nodeAt? place.2 = some node) :
    ∃ stored, node.opens = true ∧ node.store.find? id.storage id.key = some stored := by
  have hkeeps := List.find?_some keeper
  rw [stored?_of_nodeAt? found] at hkeeps
  obtain ⟨stored, hstored⟩ := Option.isSome_iff_exists.1 hkeeps
  refine ⟨stored, ?_, hstored⟩
  rcases List.mem_cons.1 (List.mem_of_find?_eq_some keeper) with rfl | hmem
  · exact (opens_iff found).1 opens
  · have hreaches := List.mem_takeWhile_imp hmem
    rw [reaches, Bool.and_eq_true, found, Option.any_some] at hreaches
    exact hreaches.2

/-! ## One node of a chain -/

theorem Stands.akin (stands : net.Stands handle node) (akin : net.Akin after) :
    ∃ later, after.Stands handle later ∧ later.bare = node.bare := by
  obtain ⟨member, hmember, rfl, hclear⟩ := stands
  have hm := akin.members handle
  rw [hmember, Option.map_some] at hm
  obtain ⟨later, hlater, hcore⟩ := Option.map_eq_some_iff.1 hm
  obtain ⟨hbare, hfaults⟩ := Prod.mk.inj hcore
  exact ⟨later.node, ⟨later, hlater, rfl, hfaults.trans hclear⟩, hbare⟩

theorem perform_of_lacks (misses : call.misses miss = true) (opens : net.Opens handle)
    (found : net.nodeAt? handle = some node) (lacks : net.stored? handle call.lockId = none) :
    node.store.perform node.config.credential (.record call) = (.ok miss, node.store) := by
  rw [stored?_of_nodeAt? found] at lacks
  exact Store.perform_of_absent misses ((opens_iff found).1 opens) lacks

/-- A node as it was, while no store has changed. -/
theorem Restocks.same (same : net.Restocks now net.store? net.lock?)
    (found : net.nodeAt? handle = some node) : ∃ later, now.nodeAt? handle = some later ∧
      later.bare = node.bare ∧ later.store = node.store ∧ later.config = node.config := by
  obtain ⟨later, hlater, hbare, hkept⟩ := same.nodeAt? found
  rw [store?_of_nodeAt? found, Option.some.injEq] at hkept
  exact ⟨later, hlater, hbare, hkept.symm, (congrArg Node.config hbare :)⟩

/-- A record call on the own store, while no store has changed. -/
theorem onward_try {later : Node} (same : net.Restocks now net.store? net.lock?)
    (free : net.lock? handle call.lockId = none) (found : net.nodeAt? handle = some node)
    (takes : now.Takes number purpose handle stack later (later.attempt call)) :
    ∃ after, Onward number now after ∧
      net.Restocks after (Function.update net.store? handle
        (some (node.store.perform node.config.credential (.record call)).2)) net.lock? ∧
      after.tasks[number]? = some ⟨purpose, shape,
        .answer ((node.store.perform node.config.credential (.record call)).1.mapError .store),
        stack⟩ := by
  obtain ⟨twin, htwin, -, hstore, hconfig⟩ := same.same found
  obtain rfl : twin = later := Option.some.inj (htwin.symm.trans takes.found)
  obtain ⟨after, hon, hstocked, htask⟩ := takes.attempts (by rw [same.lock?, free])
  rw [hstore, hconfig, same.store?, same.lock?] at hstocked
  rw [hstore, hconfig] at htask
  exact ⟨after, hon, same.trans hstocked, htask⟩

/-- A node that has joined first tries its own store. -/
theorem onward_first (same : net.Restocks now net.store? net.lock?)
    (free : net.lock? handle call.lockId = none) (found : net.nodeAt? handle = some node)
    (joined : node.lifecycle ≠ .joining)
    (begins : now.tasks[number]? =
      some ⟨purpose, shape, .start handle (.serve (.record call)), stack⟩) :
    ∃ after, Onward number now after ∧
      net.Restocks after (Function.update net.store? handle
        (some (node.store.perform node.config.credential (.record call)).2)) net.lock? ∧
      ∃ later, later.bare = node.bare ∧ after.Takes number purpose handle stack later
        (later.onAttempted after.surroundings call
          ((node.store.perform node.config.credential (.record call)).1.mapError .store)) := by
  obtain ⟨entering, hentering, hbare, -, -⟩ := same.same found
  have hturn : entering.start now.surroundings (.serve (.record call)) =
      entering.run (.attempt call) (.attempted call) := by
    apply if_neg
    rwa [show entering.lifecycle = node.lifecycle from (congrArg Node.lifecycle hbare :)]
  have htakes := takes_start begins hentering rfl
  rw [hturn] at htakes
  obtain ⟨entered, hon, halike, htask⟩ := htakes.quiet rfl
  have hentered := same.alike halike
  obtain ⟨trying, htrying, -, -, -⟩ := hentered.same found
  obtain ⟨after, hon', hstocked, htask'⟩ :=
    onward_try hentered free found (takes_start htask htrying rfl)
  obtain ⟨later, hlater, hsame, -⟩ := hstocked.nodeAt? found
  exact ⟨after, onward_trans hon hon', hstocked, later, hsame, takes_resume htask' hlater rfl⟩

/-- A node that keeps the record answers what its store answers. -/
theorem onward_kept {stored : Stored} (same : net.Restocks now net.store? net.lock?)
    (free : net.lock? handle call.lockId = none) (found : net.nodeAt? handle = some node)
    (joined : node.lifecycle ≠ .joining)
    (keeps : node.store.find? call.lockId.storage call.lockId.key = some stored)
    (begins : now.tasks[number]? =
      some ⟨purpose, shape, .start handle (.serve (.record call)), stack⟩) :
    ∃ after, Onward number now after ∧
      net.Restocks after (Function.update net.store? handle
        (some (node.store.perform node.config.credential (.record call)).2)) net.lock? ∧
      after.tasks[number]? = some ⟨purpose, shape,
        .answer ((node.store.perform node.config.credential (.record call)).1.mapError .store),
        stack⟩ := by
  obtain ⟨tried, hon, hstocked, later, -, htakes⟩ := onward_first same free found joined begins
  rw [onAttempted_eq_reply] at htakes
  · obtain ⟨after, hon', halike, htask⟩ := htakes.quiet rfl
    exact ⟨after, onward_trans hon hon', hstocked.alike halike, htask⟩
  · intro answer hanswer
    cases hperformed : (node.store.perform node.config.credential (.record call)).1 with
    | error error =>
        rw [hperformed] at hanswer
        cases hanswer
    | ok given =>
        rw [hperformed] at hanswer
        cases hanswer
        exact Store.not_misses_of_found keeps hperformed

/-- A node whose store does not open for it refuses. -/
theorem onward_closed (same : net.Restocks now net.store? net.lock?)
    (free : net.lock? handle call.lockId = none) (found : net.nodeAt? handle = some node)
    (joined : node.lifecycle ≠ .joining) (closed : node.opens = false)
    (begins : now.tasks[number]? =
      some ⟨purpose, shape, .start handle (.serve (.record call)), stack⟩) :
    ∃ failure after, Onward number now after ∧ net.Restocks after net.store? net.lock? ∧
      after.tasks[number]? = some ⟨purpose, shape, .answer (.error failure), stack⟩ := by
  obtain ⟨tried, hon, hstocked, later, -, htakes⟩ := onward_first same free found joined begins
  rw [Store.perform_of_closed call closed] at hstocked htakes
  rw [update_store?_self found] at hstocked
  obtain ⟨after, hon', halike, htask⟩ := htakes.quiet rfl
  exact ⟨_, after, onward_trans hon hon', hstocked.alike halike, htask⟩

section Missing

variable (same : net.Restocks now net.store? net.lock?)
  (free : net.lock? handle call.lockId = none) (found : net.nodeAt? handle = some node)
  (absent : node.store.perform node.config.credential (.record call) = (.ok miss, node.store))

include same free found absent

/-- A node that does not keep the record tries its own store in vain. -/
theorem onward_miss {later : Node}
    (takes : now.Takes number purpose handle stack later (later.attempt call)) :
    ∃ after, Onward number now after ∧ net.Restocks after net.store? net.lock? ∧
      after.tasks[number]? = some ⟨purpose, shape, .answer (.ok miss), stack⟩ := by
  obtain ⟨after, hon, hstocked, htask⟩ := onward_try same free found takes
  rw [absent] at hstocked htask
  rw [update_store?_self found] at hstocked
  exact ⟨after, hon, hstocked, htask⟩

/-- A node that has joined and does not keep the record decides where to go on. -/
theorem onward_first_miss (joined : node.lifecycle ≠ .joining)
    (begins : now.tasks[number]? =
      some ⟨purpose, shape, .start handle (.serve (.record call)), stack⟩) :
    ∃ after, Onward number now after ∧ net.Restocks after net.store? net.lock? ∧
      ∃ later, later.bare = node.bare ∧ after.Takes number purpose handle stack later
        (later.onAttempted after.surroundings call (.ok miss)) := by
  obtain ⟨after, hon, hstocked, later, hbare, htakes⟩ :=
    onward_first same free found joined begins
  rw [absent] at hstocked htakes
  rw [update_store?_self found] at hstocked
  exact ⟨after, hon, hstocked, later, hbare, htakes⟩

/-- A stable node has missed the record. -/
theorem onward_last (stable : node.lifecycle = .stable) (misses : call.misses miss = true)
    (begins : now.tasks[number]? =
      some ⟨purpose, shape, .start handle (.serve (.record call)), stack⟩) :
    ∃ after, Onward number now after ∧ net.Restocks after net.store? net.lock? ∧
      after.tasks[number]? = some ⟨purpose, shape, .answer (.ok miss), stack⟩ := by
  have hjoined : node.lifecycle ≠ .joining := by
    rw [stable]
    exact nofun
  obtain ⟨tried, hon, hstocked, later, hbare, htakes⟩ :=
    onward_first_miss same free found absent hjoined begins
  have hstable : later.lifecycle = .stable := (congrArg Node.lifecycle hbare :).trans stable
  have hturn : later.onAttempted tried.surroundings call (.ok miss) = later.reply (.ok miss) := by
    simp only [Node.onAttempted, misses, if_true, Node.previousOwner_of_stable hstable]
  rw [hturn] at htakes
  obtain ⟨after, hon', halike, htask⟩ := htakes.quiet rfl
  exact ⟨after, onward_trans hon hon', hstocked.alike halike, htask⟩

section Merging

variable {source : Token} (merging : node.lifecycle = .merging)
  (held : node.migrationSource = some source) (other : source ≠ node.id)
  (misses : call.misses miss = true)
  (begins : now.tasks[number]? =
    some ⟨purpose, shape, .start handle (.serve (.record call)), stack⟩)

include merging held other misses begins

/-- A merging node has missed the record and looks its source up. -/
theorem onward_source :
    ∃ after, Onward number now after ∧ net.Restocks after net.store? net.lock? ∧
      ∃ later, after.Takes number purpose handle stack later
        (match net.directory[source]? with
          | none => later.attempt call
          | some peer => later.ask (.remote peer) (.record call) (.handedOn call)) := by
  have hjoined : node.lifecycle ≠ .joining := by
    rw [merging]
    exact nofun
  obtain ⟨after, hon, hstocked, later, hbare, htakes⟩ :=
    onward_first_miss same free found absent hjoined begins
  have howner : later.previousOwner = some source :=
    (congrArg Node.previousOwner hbare :).trans
      (Node.previousOwner_of_merging merging held other)
  have hother : source ≠ later.id := by
    rwa [show later.id = node.id from (congrArg Node.id hbare :)]
  have hknown : after.surroundings.find? source = net.directory[source]? :=
    congrArg (fun directory : Std.TreeMap Token Handle => directory[source]?) hstocked.akin.directory
  rw [Node.onAttempted_of_owner misses howner hother, hknown] at htakes
  exact ⟨after, hon, hstocked, later, htakes⟩

/-- A merging node whose source is unknown misses the record. -/
theorem onward_lost (unknown : net.directory[source]? = none) :
    ∃ after, Onward number now after ∧ net.Restocks after net.store? net.lock? ∧
      after.tasks[number]? = some ⟨purpose, shape, .answer (.ok miss), stack⟩ := by
  obtain ⟨asking, hon, hstocked, later, htakes⟩ :=
    onward_source same free found absent merging held other misses begins
  rw [unknown] at htakes
  obtain ⟨after, hon', hstocked', htask⟩ := onward_miss hstocked free found absent htakes
  exact ⟨after, onward_trans hon hon', hstocked', htask⟩

/-- A merging node asks its source. -/
theorem onward_asked {peer : Handle} {target : Node} (known : net.directory[source]? = some peer)
    (stands : net.Stands peer target) :
    ∃ after, Onward number now after ∧ net.Restocks after net.store? net.lock? ∧
      after.tasks[number]? = some ⟨purpose, shape, .start peer (.serve (.record call)),
        .frame handle (.handedOn call) stack⟩ := by
  obtain ⟨asking, hon, hstocked, later, htakes⟩ :=
    onward_source same free found absent merging held other misses begins
  rw [known] at htakes
  obtain ⟨sending, hon', halike, htask⟩ := htakes.quiet rfl
  have hsending := hstocked.alike halike
  obtain ⟨reached, hreached, -⟩ := stands.akin hsending.akin
  have hasks : taskAfter purpose handle stack
      (.ask (.remote peer) (.record call) (.handedOn call)) = sending.tasks[number]? := htask.symm
  have hpeer : sending.Stands ((Contact.remote peer).at handle) reached := hreached
  obtain ⟨after, hon'', halike', htask'⟩ := onward_ask_stands hasks hpeer
  exact ⟨after, onward_trans hon (onward_trans hon' hon''), hsending.alike halike', htask'⟩

end Merging

/-- A failure or a miss of the next node leads back to the own store. -/
theorem onward_back {outcome : Outcome shape}
    (missed : ∀ answer, outcome = .ok answer → call.misses answer = true)
    (answered : now.tasks[number]? =
      some ⟨purpose, shape, .answer outcome, .frame handle (.handedOn call) stack⟩) :
    ∃ after, Onward number now after ∧ net.Restocks after net.store? net.lock? ∧
      after.tasks[number]? = some ⟨purpose, shape, .answer (.ok miss), stack⟩ := by
  obtain ⟨later, hlater, -, -, -⟩ := same.same found
  have htakes := takes_resume answered hlater rfl
  have hturn : later.resume now.surroundings (.handedOn call) outcome = later.attempt call := by
    cases outcome with
    | error failure => rfl
    | ok answer => exact if_pos (missed answer rfl)
  rw [hturn] at htakes
  exact onward_miss same free found absent htakes

end Missing

/-- An answer of the next node is passed on. -/
theorem onward_pass {kept : Handle → Option Store} {answer : shape.Value}
    (stocked : net.Restocks now kept net.lock?) (found : net.nodeAt? handle = some node)
    (hits : call.misses answer = false)
    (answered : now.tasks[number]? =
      some ⟨purpose, shape, .answer (.ok answer), .frame handle (.handedOn call) stack⟩) :
    ∃ after, Onward number now after ∧ net.Restocks after kept net.lock? ∧
      after.tasks[number]? = some ⟨purpose, shape, .answer (.ok answer), stack⟩ := by
  obtain ⟨later, hlater, -, -⟩ := stocked.nodeAt? found
  have htakes := takes_resume answered hlater rfl
  have hturn : later.resume now.surroundings (.handedOn call) (.ok answer) =
      later.reply (.ok answer) := by
    apply if_neg
    rw [hits]
    exact Bool.false_ne_true
  rw [hturn] at htakes
  obtain ⟨after, hon, halike, htask⟩ := htakes.quiet rfl
  exact ⟨after, hon, stocked.alike halike, htask⟩

/-! ## The whole chain -/

/-- What the caller at the start of a chain learns of the keeper's answer.  A refusal is passed on if
the caller has asked the keeper itself; otherwise the nodes in between take it for a miss. -/
def passedOn (miss : shape.Value) (itself : Bool) : Except StoreError shape.Value → Outcome shape
  | .ok answer => .ok answer
  | .error error => if itself then .error (.store error) else .ok miss

theorem passedOn_itself (miss : shape.Value) (answer : Except StoreError shape.Value) :
    passedOn miss true answer = answer.mapError .store := by
  cases answer <;> rfl

/-- What a record call comes to at a chain, and what becomes of the stores. -/
inductive Concludes (net : Network) (call : RecordCall shape) (miss : shape.Value)
    (first : Token × Handle) (rest : List (Token × Handle)) (after : Network) :
    Outcome shape → Prop where
  /-- Nobody keeps the record. -/
  | missed (nobody : net.keeper? call.lockId (first :: rest) = none)
      (same : net.Restocks after net.store? net.lock?) :
      Concludes net call miss first rest after (.ok miss)
  /-- The keeper carries the call out. -/
  | kept {place : Token × Handle} {node : Node}
      (keeper : net.keeper? call.lockId (first :: rest) = some place)
      (found : net.nodeAt? place.2 = some node)
      (stocked : net.Restocks after (Function.update net.store? place.2
        (some (node.store.perform node.config.credential (.record call)).2)) net.lock?) :
      Concludes net call miss first rest after (passedOn miss (place = first)
        (node.store.perform node.config.credential (.record call)).1)

/-- The answer of the next node comes back to a node that does not keep the record. -/
theorem onward_returned {outcome : Outcome shape} (misses : call.misses miss = true)
    (free : net.lock? first.2 call.lockId = none) (found : net.nodeAt? first.2 = some node)
    (absent : node.store.perform node.config.credential (.record call) = (.ok miss, node.store))
    (lacks : net.stored? first.2 call.lockId = none) (reaches : net.reaches next = true)
    (distinct : first ∉ next :: rest) (concludes : net.Concludes call miss next rest now outcome)
    (answered : now.tasks[number]? =
      some ⟨purpose, shape, .answer outcome, .frame first.2 (.handedOn call) stack⟩) :
    ∃ outcome after, Onward number now after ∧
      net.Concludes call miss first (next :: rest) after outcome ∧
      after.tasks[number]? = some ⟨purpose, shape, .answer outcome, stack⟩ := by
  have hkeeper := keeper?_of_reaches lacks reaches rest
  cases concludes with
  | missed nobody same =>
      have hmissed : ∀ answer, (.ok miss : Outcome shape) = .ok answer →
          call.misses answer = true := by
        rintro answer ⟨⟩
        exact misses
      obtain ⟨after, hon, hsame, htask⟩ := onward_back same free found absent hmissed answered
      exact ⟨_, after, hon, .missed (hkeeper.trans nobody) hsame, htask⟩
  | @kept place target keeper stands stocked =>
      have hother : place ≠ first := fun heq => distinct (heq ▸ mem_of_keeper? keeper)
      have hunchanged := update_store?_self stands
      cases hperformed : (target.store.perform target.config.credential (.record call)).1 with
      | ok answer =>
          -- the answer is passed on
          have hkeeps := List.find?_some keeper
          rw [stored?_of_nodeAt? stands] at hkeeps
          obtain ⟨stored, hstored⟩ := Option.isSome_iff_exists.1 hkeeps
          have hhits := Store.not_misses_of_found hstored hperformed
          rw [hperformed] at answered
          obtain ⟨after, hon, hstocked, htask⟩ := onward_pass stocked found hhits answered
          have hconcludes : net.Concludes call miss first (next :: rest) after _ :=
            .kept (hkeeper.trans keeper) stands hstocked
          rw [hperformed] at hconcludes
          exact ⟨_, after, hon, hconcludes, htask⟩
      | error error =>
          -- the refusal is taken for a miss
          have hsame := Store.perform_of_error misses hperformed
          rw [hsame, hunchanged] at stocked
          have hmissed : ∀ answer, passedOn miss (place = next)
              (target.store.perform target.config.credential (.record call)).1 = .ok answer →
                call.misses answer = true := by
            intro answer hanswer
            rw [hperformed, passedOn] at hanswer
            split at hanswer
            · cases hanswer
            · cases hanswer
              exact misses
          obtain ⟨after, hon, hstocked, htask⟩ :=
            onward_back stocked free found absent hmissed answered
          have hkept : net.Restocks after (Function.update net.store? place.2
              (some (target.store.perform target.config.credential (.record call)).2)) net.lock? := by
            rwa [hsame, hunchanged]
          have hconcludes : net.Concludes call miss first (next :: rest) after _ :=
            .kept (hkeeper.trans keeper) stands hkept
          rw [hperformed, decide_eq_false hother] at hconcludes
          exact ⟨_, after, hon, hconcludes, htask⟩

namespace Trail

theorem stands_first (trail : net.Trail (first :: rest)) :
    ∃ node, net.Stands first.2 node ∧ node.lifecycle ≠ .joining := by
  cases trail with
  | stable stands named stable => exact ⟨_, stands, by rw [stable]; exact nofun⟩
  | merging stands named merging source listed later =>
      exact ⟨_, stands, by rw [merging]; exact nofun⟩

/-- The first node of a chain keeps the record. -/
theorem onward_keeper (trail : net.Trail (first :: rest))
    (same : net.Restocks now net.store? net.lock?) (free : net.lock? first.2 call.lockId = none)
    (keeps : (net.stored? first.2 call.lockId).isSome = true)
    (begins : now.tasks[number]? =
      some ⟨purpose, shape, .start first.2 (.serve (.record call)), stack⟩) (miss : shape.Value) :
    ∃ outcome after, Onward number now after ∧ net.Concludes call miss first rest after outcome ∧
      after.tasks[number]? = some ⟨purpose, shape, .answer outcome, stack⟩ := by
  obtain ⟨node, hstands, hjoined⟩ := trail.stands_first
  have hfound := hstands.nodeAt?
  have hkeeper := keeper?_of_kept keeps rest
  rw [stored?_of_nodeAt? hfound] at keeps
  obtain ⟨stored, hstored⟩ := Option.isSome_iff_exists.1 keeps
  obtain ⟨after, hon, hstocked, htask⟩ := onward_kept same free hfound hjoined hstored begins
  have hconcludes : net.Concludes call miss first rest after _ := .kept hkeeper hfound hstocked
  rw [decide_eq_true rfl, passedOn_itself] at hconcludes
  exact ⟨_, after, hon, hconcludes, htask⟩

theorem reaches_iff (stands : net.Stands next.2 node) :
    net.reaches next = true ↔ net.directory[next.1]? = some next.2 ∧ node.opens = true := by
  rw [reaches, Bool.and_eq_true, decide_eq_true_eq, stands.nodeAt?, Option.any_some]

/-- A merging node that does not keep the record misses it if the next node cannot be reached. -/
theorem onward_unreached (same : net.Restocks now net.store? net.lock?)
    (free : ∀ handle, net.lock? handle call.lockId = none) (found : net.nodeAt? handle = some node)
    (absent : node.store.perform node.config.credential (.record call) = (.ok miss, node.store))
    (merging : node.lifecycle = .merging) (held : node.migrationSource = some next.1)
    (other : next.1 ≠ node.id) (misses : call.misses miss = true)
    (listed : net.directory[next.1]? = some next.2 ∨ net.directory[next.1]? = none)
    (later : net.Trail (next :: rest)) (lost : ¬ net.reaches next = true)
    (begins : now.tasks[number]? =
      some ⟨purpose, shape, .start handle (.serve (.record call)), stack⟩) :
    ∃ after, Onward number now after ∧ net.Restocks after net.store? net.lock? ∧
      after.tasks[number]? = some ⟨purpose, shape, .answer (.ok miss), stack⟩ := by
  cases listed with
  | inr unknown =>
      exact onward_lost same (free handle) found absent merging held other misses begins unknown
  | inl known =>
      obtain ⟨target, hstands, hjoined⟩ := later.stands_first
      have hclosed : target.opens = false := by
        rw [reaches_iff hstands] at lost
        exact Bool.eq_false_iff.2 fun hopen => lost ⟨known, hopen⟩
      obtain ⟨asked, hon, hasked, htask⟩ :=
        onward_asked same (free handle) found absent merging held other misses begins known hstands
      obtain ⟨failure, mid, hon', hmid, htask'⟩ :=
        onward_closed hasked (free next.2) hstands.nodeAt? hjoined hclosed htask
      have hmissed : ∀ answer, (.error failure : Outcome shape) = .ok answer →
          call.misses answer = true := by
        intro answer hanswer
        cases hanswer
      obtain ⟨after, hon'', hsame, htask''⟩ :=
        onward_back hmid (free handle) found absent hmissed htask'
      exact ⟨after, onward_trans hon (onward_trans hon' hon''), hsame, htask''⟩

/-- A record call at a chain is carried out by the keeper, if there is one. -/
theorem onward_serve (trail : net.Trail (first :: rest))
    (distinct : ((first :: rest).map Prod.fst).Nodup) (misses : call.misses miss = true)
    (free : ∀ handle, net.lock? handle call.lockId = none) (opens : net.Opens first.2)
    (same : net.Restocks now net.store? net.lock?)
    (begins : now.tasks[number]? =
      some ⟨purpose, shape, .start first.2 (.serve (.record call)), stack⟩) :
    ∃ outcome after, Onward number now after ∧ net.Concludes call miss first rest after outcome ∧
      after.tasks[number]? = some ⟨purpose, shape, .answer outcome, stack⟩ := by
  induction rest generalizing first now stack with
  | nil =>
      by_cases hkept : (net.stored? first.2 call.lockId).isSome = true
      · exact trail.onward_keeper same (free first.2) hkept begins miss
      have hlacks := Option.not_isSome_iff_eq_none.1 hkept
      cases trail with
      | stable stands named stable =>
          have habsent := perform_of_lacks misses opens stands.nodeAt? hlacks
          obtain ⟨after, hon, hsame, htask⟩ :=
            onward_last same (free first.2) stands.nodeAt? habsent stable misses begins
          exact ⟨_, after, hon, .missed (keeper?_singleton hlacks) hsame, htask⟩
  | cons next rest ih =>
      by_cases hkept : (net.stored? first.2 call.lockId).isSome = true
      · exact trail.onward_keeper same (free first.2) hkept begins miss
      have hlacks := Option.not_isSome_iff_eq_none.1 hkept
      cases trail with
      | merging stands named merging source listed later =>
          have hfound := stands.nodeAt?
          have habsent := perform_of_lacks misses opens hfound hlacks
          obtain ⟨hfresh, hrest⟩ := List.nodup_cons.1 distinct
          have hapart : first ∉ next :: rest := fun hmem => hfresh (List.mem_map_of_mem hmem)
          have hother : next.1 ≠ first.1 := fun heq => hfresh (heq ▸ List.mem_cons_self)
          rw [← named] at hother
          by_cases hreaches : net.reaches next = true
          · obtain ⟨target, htarget, -⟩ := later.stands_first
            obtain ⟨known, hopen⟩ := (reaches_iff htarget).1 hreaches
            obtain ⟨asked, hon, hasked, htask⟩ := onward_asked same (free first.2) hfound habsent
              merging source hother misses begins known htarget
            obtain ⟨outcome, mid, hon', hmid, htask'⟩ :=
              ih later hrest ((opens_iff htarget.nodeAt?).2 hopen) hasked htask
            obtain ⟨outcome', after, hon'', hconcludes, htask''⟩ := onward_returned misses
              (free first.2) hfound habsent hlacks hreaches hapart hmid htask'
            exact ⟨outcome', after, onward_trans hon (onward_trans hon' hon''), hconcludes, htask''⟩
          · obtain ⟨after, hon, hsame, htask⟩ := onward_unreached same free hfound habsent merging
              source hother misses listed later hreaches begins
            have hlost := Bool.eq_false_iff.2 hreaches
            exact ⟨_, after, hon, .missed (keeper?_of_not_reaches hlacks hlost rest) hsame, htask⟩

end Trail

/-! ## Reads and deletions -/

/-- Along a chain of merging nodes a read finds the record of the first node that keeps it, and
changes nothing.  A deletion removes it there if it has the expected version, and changes no other
store; if the version is another one, nothing changes, and only a first node that keeps the record
itself says so.  Nodes beyond one that the directory does not know, or whose store does not open for
it, are as good as empty. -/
theorem record_calls_fall_back (trail : net.Trail (first :: rest))
    (distinct : ((first :: rest).map Prod.fst).Nodup) (opens : net.Opens first.2)
    (free : ∀ handle id, net.lock? handle id = none) :
    (∀ number purpose storage key stack, net.tasks[number]? =
        some ⟨purpose, .record, .start first.2 (.serve (.record (.read storage key))), stack⟩ →
      ∃ after, Onward number net after ∧ net.Restocks after net.store? net.lock? ∧
        after.tasks[number]? = some ⟨purpose, .record,
          .answer (.ok ((net.keeper? ⟨storage, key⟩ (first :: rest)).bind fun place =>
            (net.stored? place.2 ⟨storage, key⟩).map fun stored =>
              ⟨key, stored.content, stored.version⟩)), stack⟩) ∧
    ∀ number purpose storage key version stack, net.tasks[number]? =
        some ⟨purpose, .flag, .start first.2 (.serve (.record (.delete storage key version))),
          stack⟩ →
      ∃ outcome after, Onward number net after ∧
        after.tasks[number]? = some ⟨purpose, .flag, .answer outcome, stack⟩ ∧
        match net.keeper? ⟨storage, key⟩ (first :: rest) with
        | none => outcome = .ok false ∧ net.Restocks after net.store? net.lock?
        | some place => ∃ store stored, net.store? place.2 = some store ∧
            store.find? storage key = some stored ∧
            if stored.version = version then
              outcome = .ok true ∧ net.Restocks after
                (Function.update net.store? place.2 (some (store.drop storage key))) net.lock?
            else
              net.Restocks after net.store? net.lock? ∧ outcome =
                if place = first then .error (.store (.versionConflict key version stored.version))
                else .ok false := by
  have hbegun := Restocks.refl net
  constructor
  · intro number purpose storage key stack begins
    have hmisses : (RecordCall.read storage key).misses none = true := rfl
    obtain ⟨outcome, after, hon, hconcludes, htask⟩ :=
      trail.onward_serve distinct hmisses (fun handle => free handle _) opens hbegun begins
    refine ⟨after, hon, ?_⟩
    cases hconcludes with
    | missed nobody same =>
        have hnobody : net.keeper? ⟨storage, key⟩ (first :: rest) = none := nobody
        rw [hnobody]
        exact ⟨same, htask⟩
    | @kept place node keeper found stocked =>
        have hkeeper : net.keeper? ⟨storage, key⟩ (first :: rest) = some place := keeper
        obtain ⟨stored, hopens, hstored⟩ := keeper?_spec opens hkeeper found
        have hread : node.store.perform node.config.credential (.record (.read storage key)) =
            (.ok (some ⟨key, stored.content, stored.version⟩), node.store) :=
          congrArg (fun answer => (answer, node.store)) (Store.read_of_found hopens hstored)
        rw [hread] at stocked htask
        rw [update_store?_self found] at stocked
        rw [hkeeper, Option.bind_some, stored?_of_nodeAt? found, hstored]
        exact ⟨stocked, htask⟩
  · intro number purpose storage key version stack begins
    have hmisses : (RecordCall.delete storage key version).misses false = true := rfl
    obtain ⟨outcome, after, hon, hconcludes, htask⟩ :=
      trail.onward_serve distinct hmisses (fun handle => free handle _) opens hbegun begins
    refine ⟨outcome, after, hon, htask, ?_⟩
    cases hconcludes with
    | missed nobody same =>
        have hnobody : net.keeper? ⟨storage, key⟩ (first :: rest) = none := nobody
        rw [hnobody]
        exact ⟨rfl, same⟩
    | @kept place node keeper found stocked =>
        have hkeeper : net.keeper? ⟨storage, key⟩ (first :: rest) = some place := keeper
        obtain ⟨stored, hopens, hstored⟩ := keeper?_spec opens hkeeper found
        rw [hkeeper]
        refine ⟨node.store, stored, store?_of_nodeAt? found, hstored, ?_⟩
        by_cases hversion : stored.version = version
        · subst hversion
          have hdelete : node.store.perform node.config.credential
              (.record (.delete storage key stored.version)) =
                (.ok true, node.store.drop storage key) := Store.delete_eq hopens hstored
          rw [hdelete] at stocked
          rw [if_pos rfl, hdelete]
          exact ⟨rfl, stocked⟩
        · have hrefuse : node.store.perform node.config.credential
              (.record (.delete storage key version)) =
                (.error (.versionConflict key version stored.version), node.store) :=
            Store.delete_of_other_version hopens hstored hversion
          rw [hrefuse, update_store?_self found] at stocked
          rw [if_neg hversion, hrefuse]
          refine ⟨stocked, ?_⟩
          simp only [passedOn, decide_eq_true_eq]

/-- Two merging nodes and the stable node behind them, with the first node asked to read a record
and to delete it in two versions.  The other two keep the record, the second one in version 3. -/
def mergingLine : Network :=
  let key := Token.wrapping 7
  let node (id : UInt64) (lifecycle : Lifecycle) (source : Option Token) (store : Store) : Endpoint :=
    .member ⟨{ Node.fresh (Token.wrapping id) store Config.standard with
      lifecycle := lifecycle, migrationSource := source }, Link.clear, StoreDelay.zero, [], false⟩
  let keeping (version : UInt64) : Store := (Store.empty none).put "docs" key ⟨[1], version⟩
  { Network.empty with
    endpoints := #[node 500 .merging (some (Token.wrapping 1000)) (Store.empty none),
      node 1000 .merging (some (Token.wrapping 2000)) (keeping 3), node 2000 .stable none (keeping 0)]
    directory := (Std.TreeMap.empty.insert (Token.wrapping 1000) 1).insert (Token.wrapping 2000) 2
    tasks := ((Std.TreeMap.empty.insert 0
      (taskOf (.client []) 0 (.serve (.record (.read "docs" key))))).insert 1
      (taskOf (.client []) 0 (.serve (.record (.delete "docs" key 0))))).insert 2
      (taskOf (.client []) 0 (.serve (.record (.delete "docs" key 3)))) }

/-- The nodes of the line behind the first one, by their identifiers and handles. -/
def behindFirst : List (Token × Handle) := [(Token.wrapping 1000, 1), (Token.wrapping 2000, 2)]

theorem trail_mergingLine : mergingLine.Trail ((Token.wrapping 500, 0) :: behindFirst) := by
  have hlast : mergingLine.Trail [(Token.wrapping 2000, 2)] := .stable ⟨_, rfl, rfl, rfl⟩ rfl rfl
  have hsecond : mergingLine.Trail behindFirst :=
    .merging ⟨_, rfl, rfl, rfl⟩ rfl rfl rfl (.inl (by decide)) hlast
  exact .merging ⟨_, rfl, rfl, rfl⟩ rfl rfl rfl (.inl (by decide)) hsecond

theorem lock?_mergingLine (handle : Handle) (id : LockId) : mergingLine.lock? handle id = none := by
  match handle with
  | 0 => rfl
  | 1 => rfl
  | 2 => rfl
  | _ + 3 => rfl

/-- The record is found at the second node.  Its deletion in another version fails unnoticed, and in
the right version it leaves the record of the third node alone. -/
theorem record_calls_fall_back_line :
    (∃ after, Onward 0 mergingLine after ∧ after.tasks[0]? = some ⟨.client [], .record,
      .answer (.ok (some ⟨Token.wrapping 7, [1], 3⟩)), .root⟩) ∧
    (∃ after, Onward 1 mergingLine after ∧ after.store? = mergingLine.store? ∧
      after.tasks[1]? = some ⟨.client [], .flag, .answer (.ok false), .root⟩) ∧
    ∃ after, Onward 2 mergingLine after ∧ after.store? 2 = mergingLine.store? 2 ∧
      after.tasks[2]? = some ⟨.client [], .flag, .answer (.ok true), .root⟩ := by
  have hdistinct : (((Token.wrapping 500, 0) :: behindFirst).map Prod.fst).Nodup := by decide
  have hopens : mergingLine.Opens 0 := ⟨_, rfl, rfl⟩
  have hkeeper : mergingLine.keeper? ⟨"docs", Token.wrapping 7⟩
      ((Token.wrapping 500, 0) :: behindFirst) = some (Token.wrapping 1000, 1) := by decide
  have hversion : ∀ stored ∈ mergingLine.stored? 1 ⟨"docs", Token.wrapping 7⟩,
      stored.version = 3 := by decide
  obtain ⟨hreads, hdeletes⟩ :=
    record_calls_fall_back trail_mergingLine hdistinct hopens lock?_mergingLine
  refine ⟨?_, ?_, ?_⟩
  · obtain ⟨after, hon, -, htask⟩ := hreads 0 _ _ _ _ rfl
    exact ⟨after, hon, htask⟩
  · obtain ⟨outcome, after, hon, htask, hends⟩ := hdeletes 1 _ _ _ _ _ rfl
    rw [hkeeper] at hends
    obtain ⟨store, stored, hstore, hstored, hends⟩ := hends
    have hheld := hversion stored (by rw [stored?_eq_bind, hstore]; exact hstored)
    rw [if_neg (by rw [hheld]; decide), if_neg (by decide)] at hends
    obtain ⟨hstocked, rfl⟩ := hends
    exact ⟨after, hon, hstocked.store?, htask⟩
  · obtain ⟨outcome, after, hon, htask, hends⟩ := hdeletes 2 _ _ _ _ _ rfl
    rw [hkeeper] at hends
    obtain ⟨store, stored, hstore, hstored, hends⟩ := hends
    have hheld := hversion stored (by rw [stored?_eq_bind, hstore]; exact hstored)
    rw [if_pos hheld] at hends
    obtain ⟨rfl, hstocked⟩ := hends
    refine ⟨after, hon, ?_, htask⟩
    rw [hstocked.store?, Function.update_of_ne (by decide)]

end Network

end RecordRing
