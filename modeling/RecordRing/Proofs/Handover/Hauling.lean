import RecordRing.Proofs.Handover.Pass
import RecordRing.Proofs.Network.Resting

/-!
# Moving records without a wait

Where nothing is held back and no lock is held, a record operation of a node that has joined comes
to its end without a wait, and so does the transfer of a record to its owner
(`transfer_achieves`).  Nothing changes on the way but records and counters (`Hauls`).

## Implementation notes

`Matches` leaves the tasks in place, which `Akin` does not speak of; the tables of records and locks
are those of `Alters`.
-/

namespace RecordRing

/-- A member without records, locks and counters. -/
def Member.plain (member : Member) : Member := { member.uncounted with node := member.node.bare }

theorem StoreDelay.of_zero {shape : Shape} (call : StoreCall shape) :
    StoreDelay.zero.of call = 0 := by
  cases call with
  | record call => cases call <;> rfl
  | keys storage => rfl
  | names => rfl

namespace Network

variable {net mid after last : Network} {number holder : Nat} {handle peer : Handle} {id : LockId}
  {member new : Member} {node later target : Node} {shape result : Shape} {config : Config}
  {members : List Token} {name : Token}

/-! ## Networks that are the same but for records and locks -/

/-- Two networks are the same but for records, locks and counters. -/
structure Matches (net after : Network) : Prop where
  rest : { after with endpoints := net.endpoints, tallies := net.tallies } = net
  scripts : after.script? = net.script?
  members : ∀ handle,
    (after.member? handle).map Member.plain = (net.member? handle).map Member.plain

namespace Matches

theorem trans (h : net.Matches after) (h' : after.Matches last) : net.Matches last where
  rest := by
    have hrest := congrArg (fun left : Network =>
      { left with endpoints := net.endpoints, tallies := net.tallies }) h'.rest
    exact hrest.trans h.rest
  scripts := h'.scripts.trans h.scripts
  members handle := (h'.members handle).trans (h.members handle)

theorem symm (h : net.Matches after) : after.Matches net where
  rest := by
    have hrest := congrArg (fun left : Network =>
      { left with endpoints := after.endpoints, tallies := after.tallies }) h.rest
    exact hrest.symm
  scripts := h.scripts.symm
  members handle := (h.members handle).symm

theorem of_same (h : net.Same after) : net.Matches after where
  rest := h.rest
  scripts := h.scripts
  members handle := by
    have hm := congrArg (Option.map fun member : Member =>
      { member with node := member.node.bare }) (h.members handle)
    rwa [Option.map_map, Option.map_map] at hm

theorem setMember (found : net.member? handle = some member) (same : new.plain = member.plain) :
    net.Matches (net.setMember handle new) where
  rest := rfl
  scripts := script?_setMember found new
  members other := by
    rw [member?_setMember found]
    split
    · rename_i heq
      rw [← heq, found, Option.map_some, Option.map_some, same]
    · rfl

theorem directory (h : net.Matches after) : after.directory = net.directory :=
  (congrArg Network.directory h.rest :)

theorem tasks (h : net.Matches after) : after.tasks = net.tasks :=
  (congrArg Network.tasks h.rest :)

theorem surroundings (h : net.Matches after) : after.surroundings = net.surroundings :=
  (congrArg Network.surroundings h.rest :)

theorem member? (h : net.Matches after) (found : net.member? handle = some member) :
    ∃ later, after.member? handle = some later ∧ later.plain = member.plain := by
  have hm := h.members handle
  rw [found, Option.map_some] at hm
  exact Option.map_eq_some_iff.1 hm

/-- A node as it was, up to its records and locks. -/
theorem nodeAt? (h : net.Matches after) (found : net.nodeAt? handle = some node) :
    ∃ later, after.nodeAt? handle = some later ∧ later.bare = node.bare := by
  obtain ⟨member, hmember, rfl⟩ := nodeAt?_eq_some.1 found
  obtain ⟨later, hlater, hplain⟩ := h.member? hmember
  exact ⟨later.node, nodeAt?_of_member? hlater, congrArg Member.node hplain⟩

theorem houses (h : net.Matches after) (houses : net.Houses name handle node) :
    ∃ later, after.Houses name handle later ∧ later.bare = node.bare := by
  obtain ⟨later, hlater, hbare⟩ := h.nodeAt? houses.stands
  exact ⟨later, ⟨h.directory ▸ houses.listed, hlater⟩, hbare⟩

theorem resident? (h : net.Matches after) (found : net.resident? name = some node) :
    ∃ later, after.resident? name = some later ∧ later.bare = node.bare := by
  obtain ⟨handle, houses⟩ := resident?_eq_some.1 found
  obtain ⟨later, hlater, hbare⟩ := h.houses houses
  exact ⟨later, hlater.resident?, hbare⟩

theorem prompt (h : net.Matches after) (prompt : net.Prompt) : after.Prompt where
  members handle later found := by
    obtain ⟨member, hmember, hplain⟩ := h.symm.member? found
    have hprompt := prompt.members handle member hmember
    simp only [Member.plain, Member.uncounted, Member.mk.injEq, Link.mk.injEq] at hplain
    exact ⟨hplain.2.1.1.symm.trans hprompt.delays, hplain.2.1.2.1.symm.trans hprompt.faults,
      hplain.2.2.1.symm.trans hprompt.store⟩
  scripts handle := by rw [h.scripts, prompt.scripts]

theorem numbered (h : net.Matches after) (numbered : net.Numbered) : after.Numbered :=
  numbered.congr (fun number => by rw [h.tasks]) (congrArg Network.ready h.rest :)
    (congrArg Network.waiting h.rest :) (Nat.le_of_eq (congrArg Network.nextTask h.rest :).symm)

theorem populated (h : net.Matches after) (populated : net.Populated config members) :
    after.Populated config members where
  numbered := h.numbered populated.numbered
  prompt := h.prompt populated.prompt
  listed id handle found := populated.listed id handle (h.directory ▸ found)
  resides id mem := by
    obtain ⟨node, hnode⟩ := populated.resides id mem
    obtain ⟨later, hlater, -⟩ := h.resident? hnode
    exact ⟨later, hlater⟩
  named id later found := by
    obtain ⟨node, hnode, hbare⟩ := h.symm.resident? found
    have hid : node.bare.id = later.bare.id := congrArg Node.id hbare
    exact hid.symm.trans (populated.named id node hnode)
  regular id later found := by
    obtain ⟨node, hnode, hbare⟩ := h.symm.resident? found
    have hregular := populated.regular id node hnode
    have hfingers : node.bare.fingers = later.bare.fingers := congrArg Node.fingers hbare
    have hpredecessor : node.bare.predecessor = later.bare.predecessor :=
      congrArg Node.predecessor hbare
    have hcursor : node.bare.cursor = later.bare.cursor := congrArg Node.cursor hbare
    exact {
      config := ((congrArg Node.config hbare :) : node.config = later.config).symm.trans
        hregular.config
      fingers := fun slot finger found => hregular.fingers slot finger (hfingers.symm ▸ found)
      predecessor := fun before found => hregular.predecessor before (hpredecessor.symm ▸ found)
      first := hregular.first.trans_eq hcursor
      last := hcursor.symm.trans_lt hregular.last }

theorem calm {allowed : Token → Operation .nothing → Prop} (h : net.Matches after)
    (calm : net.Calm allowed) : after.Calm allowed := by
  refine calm.of_less h.directory (fun number task found => h.tasks ▸ found) ?_
  intro handle later found
  obtain ⟨member, hmember, hplain⟩ := h.symm.member? found
  refine ⟨member, hmember, fun requester mem => ?_⟩
  have hoffice : member.plain.owed = later.plain.owed := congrArg Member.owed hplain
  exact hoffice.symm ▸ mem

end Matches

/-! ## Networks in which records have moved -/

/-- Nothing has changed but records, locks and counters, and records and locks are those of two
tables. -/
structure Hauls (net after : Network) (kept : Handle → LockId → Option Stored)
    (held : Handle → LockId → Option HeldLock) : Prop where
  frame : net.Matches after
  alters : net.Alters after kept held

namespace Hauls

variable {kept lent : Handle → LockId → Option Stored}
  {held left : Handle → LockId → Option HeldLock}

theorem trans (h : net.Hauls mid kept held) (h' : mid.Hauls after lent left) :
    net.Hauls after lent left :=
  ⟨h.frame.trans h'.frame, h.alters.trans h'.alters⟩

theorem of_same (h : net.Same after) : net.Hauls after net.stored? net.lock? :=
  ⟨.of_same h, .of_alike h.alike⟩

theorem stored? (h : net.Hauls after kept held) : after.stored? = kept := h.alters.stored?

theorem lock? (h : net.Hauls after kept held) : after.lock? = held := h.alters.lock?

/-- A node as it was, up to its records and locks. -/
theorem nodeAt? (h : net.Hauls after kept held) (found : net.nodeAt? handle = some node) :
    ∃ later, after.nodeAt? handle = some later ∧ later.bare = node.bare ∧
      later.opens = node.opens :=
  h.alters.nodeAt? found

/-- The network after a node has overwritten one record. -/
theorem of_store (found : net.nodeAt? handle = some node) {store : Store} {value : Option Stored}
    (written : ∀ other name, store.find? other name =
      if id.storage = other ∧ id.key = name then value else node.store.find? other name)
    (bound : store.required = node.store.required) :
    net.Hauls (net.setNode handle { node with store := store })
      (overwriting net.stored? handle id value) net.lock? := by
  refine ⟨?_, ?_⟩
  · obtain ⟨member, hmember, rfl⟩ := nodeAt?_eq_some.1 found
    rw [setNode_eq hmember]
    exact .setMember hmember rfl
  · obtain ⟨hakin, hopens, hstored, hlock⟩ :=
      Alters.of_store found written bound net.nextTask
        (taskOf .background handle (.fixPredecessor : Operation .nothing))
    exact ⟨hakin.trans (.of_same rfl rfl), hopens, hstored, hlock⟩

end Hauls

/-- Events that are counted leave no other trace. -/
theorem same_tallies (net : Network) (handle : Handle) {effects : List Effect}
    (counts : ∀ effect ∈ effects, ∃ counter, effect = .tally counter) :
    net.Same (effects.foldl (fun left effect => left.perform handle effect) net) := by
  induction effects generalizing net with
  | nil => exact Same.refl net
  | cons effect rest ih =>
      obtain ⟨counter, rfl⟩ := counts effect List.mem_cons_self
      have hcounted : net.Same (net.perform handle (.tally counter)) := by
        cases found : net.member? handle with
        | none =>
            rw [perform_none found]
            exact Same.refl net
        | some member =>
            rw [perform_tally found]
            exact Same.counted net counter
      exact hcounted.trans (ih _ fun other h => counts other (List.mem_cons_of_mem _ h))

/-! ## Turns under a lock -/

namespace Achieves

variable {turn : Turn result} {post : Outcome result → Network → Prop} {outcome : Outcome result}

/-- A turn that takes a lock that nobody holds. -/
theorem lock {frame : Frame .nothing result} (acts : turn.action = .lock id frame)
    (found : net.nodeAt? handle = some node) (same : turn.node = node) (quiet : turn.effects = [])
    (free : net.lock? handle id = none)
    (resumes : ∀ mid later,
      net.Hauls mid net.stored? (overwriting net.lock? handle id (some ⟨number, []⟩)) →
      mid.nodeAt? handle = some later → later.bare = node.bare → later.store = node.store →
      Achieves number mid handle (later.resume mid.surroundings frame (.ok ())) post) :
    Achieves number net handle turn post := by
  have henact := enact_same found same quiet
  obtain ⟨member, hmember, rfl⟩ := nodeAt?_eq_some.1 found
  rw [lock?_of_nodeAt? found] at free
  let table := (member.node.locks.acquire id net.now
    ⟨number, net.now + member.node.config.lockTimeout⟩).2
  obtain ⟨-, hfind⟩ := LockTable.acquire_free free net.now
    ⟨number, net.now + member.node.config.lockTimeout⟩
  have hlocked : net.Hauls (net.setMember handle (member.withLocks table)) net.stored?
      (overwriting net.lock? handle id (some ⟨number, []⟩)) := by
    refine ⟨.setMember hmember rfl, .of_relocks ⟨.setMember hmember rfl, .setMember hmember rfl, ?_⟩⟩
    funext other name
    exact lock?_withLocks hmember hfind other name
  have hlater : (net.setMember handle (member.withLocks table)).nodeAt? handle =
      some (member.withLocks table).node := by
    rw [nodeAt?_setMember hmember, if_pos rfl]
  obtain ⟨outcome, after, hyields, hpost⟩ := resumes _ _ hlocked hlater rfl rfl
  have hlocking : (net.enact handle turn).locked number handle member id =
      net.setMember handle (member.withLocks table) := by
    rw [henact]
    rfl
  refine ⟨outcome, after, .lock acts (henact.symm ▸ hmember) free (hlocking ▸ hlater) ?_, hpost⟩
  rw [hlocking, henact]
  exact hyields

/-- A turn that calls the own store. -/
theorem call {call : StoreCall shape} {frame : Frame shape result}
    (acts : turn.action = .call call frame) (found : net.nodeAt? handle = some node)
    (same : turn.node = node) (quiet : turn.effects = []) (prompt : net.Prompt)
    (resumes : ∀ later,
      later = { node with store := (node.store.perform node.config.credential call).2 } →
      (net.setNode handle later).nodeAt? handle = some later →
      Achieves number (net.setNode handle later) handle (later.resume net.surroundings frame
        ((node.store.perform node.config.credential call).1.mapError .store)) post) :
    Achieves number net handle turn post := by
  have henact := enact_same found same quiet
  obtain ⟨member, hmember, rfl⟩ := nodeAt?_eq_some.1 found
  have hstore := (prompt.members handle member hmember).store
  let later : Node :=
    { member.node with store := (member.node.store.perform member.node.config.credential call).2 }
  have hset : (net.enact handle turn).accessed handle member call = net.setNode handle later := by
    rw [henact, setNode_eq hmember]
    rfl
  have hlater : (net.setNode handle later).nodeAt? handle = some later := by
    rw [nodeAt?_setNode, if_pos rfl, found, Option.map_some]
  obtain ⟨outcome, after, hyields, hpost⟩ := resumes later rfl hlater
  refine ⟨outcome, after, .call acts (henact.symm ▸ hmember) ?_ (hset ▸ hlater) ?_, hpost⟩
  · rw [hstore]
    exact StoreDelay.of_zero call
  · rw [hset, henact]
    exact hyields

/-- A last turn that gives a lock back for which nobody waits. -/
theorem release {effects : List Effect} (acts : turn.action = .reply outcome)
    (found : net.nodeAt? handle = some node) (same : turn.node = node)
    (releases : turn.effects = effects ++ [.release id])
    (counts : ∀ effect ∈ effects, ∃ counter, effect = .tally counter)
    (held : net.lock? handle id = some ⟨holder, []⟩)
    (achieved : ∀ after, net.Hauls after net.stored? (overwriting net.lock? handle id none) →
      post outcome after) : Achieves number net handle turn post := by
  refine .reply acts (achieved _ ?_)
  rw [enact, same, setNode_self found, releases, List.foldl_append, List.foldl_cons,
    List.foldl_nil]
  have hcounted := same_tallies net handle counts
  generalize effects.foldl (fun left effect => left.perform handle effect) net = counted at hcounted
  have hbegun : net.Hauls counted net.stored? net.lock? := .of_same hcounted
  obtain ⟨member, hmember, -⟩ := nodeAt?_eq_some.1 ((hcounted.nodeAt? handle).trans found)
  have hheld : counted.lock? handle id = some ⟨holder, []⟩ := by rw [hbegun.lock?, held]
  have hfree : (member.node.locks.release id).1 = none := by
    rw [lock?_of_nodeAt? (nodeAt?_of_member? hmember)] at hheld
    rw [LockTable.release_fst hheld]
    rfl
  have hfreed : counted.Hauls
      (counted.setMember handle (member.withLocks (member.node.locks.release id).2))
      counted.stored? (overwriting counted.lock? handle id none) := by
    refine ⟨.setMember hmember rfl, .of_relocks ⟨.setMember hmember rfl, .setMember hmember rfl, ?_⟩⟩
    funext other name
    exact Exclusive.lock?_release hmember hheld other name
  rw [perform_release hmember, hfree]
  have hall := hbegun.trans hfreed
  rwa [hbegun.stored?, hbegun.lock?] at hall

end Achieves

/-! ## Record calls -/

/-- A record call on the own store, under the record's lock, leaves the locks as they were. -/
theorem attempt_achieves {call : RecordCall shape} {value : Option Stored} (prompt : net.Prompt)
    (found : net.nodeAt? handle = some node) (free : net.lock? handle call.lockId = none)
    (written : ∀ other name,
      (node.store.perform node.config.credential (.record call)).2.find? other name =
        if call.lockId.storage = other ∧ call.lockId.key = name then value
        else node.store.find? other name)
    (bound : (node.store.perform node.config.credential (.record call)).2.required =
      node.store.required) :
    Achieves number net handle (node.attempt call) fun outcome after =>
      outcome = (node.store.perform node.config.credential (.record call)).1.mapError .store ∧
        net.Hauls after (overwriting net.stored? handle call.lockId value) net.lock? := by
  refine .lock rfl found rfl rfl free fun locked holding hlocked hholding hbare hstore => ?_
  have hconfig : holding.config = node.config := (congrArg Node.config hbare :)
  rw [← hstore, ← hconfig] at written bound
  refine .call rfl hholding rfl rfl (hlocked.frame.prompt prompt) fun later hlater hstands => ?_
  have hperformed : locked.Hauls (locked.setNode handle later)
      (overwriting locked.stored? handle call.lockId value) locked.lock? := by
    rw [hlater]
    exact .of_store hholding written bound
  have hheld : (locked.setNode handle later).lock? handle call.lockId = some ⟨number, []⟩ := by
    rw [hperformed.lock?, hlocked.lock?, overwriting_self]
  have hreleases : ([.release call.lockId] : List Effect) = [] ++ [.release call.lockId] := rfl
  refine .release rfl hstands rfl hreleases nofun hheld ?_
  · intro after hafter
    rw [hstore, hconfig]
    refine ⟨rfl, ?_⟩
    have hall := hlocked.trans (hperformed.trans hafter)
    rwa [hperformed.stored?, hperformed.lock?, hlocked.lock?, hlocked.stored?, overwriting_twice,
      overwriting_same free] at hall

/-- A node that has joined serves a record call that cannot miss on its own store. -/
theorem serve_record_achieves {call : RecordCall shape} {value : Option Stored}
    (prompt : net.Prompt) (found : net.nodeAt? handle = some node)
    (joined : node.lifecycle ≠ .joining) (hits : ∀ answer, call.misses answer = false)
    (free : net.lock? handle call.lockId = none)
    (written : ∀ other name,
      (node.store.perform node.config.credential (.record call)).2.find? other name =
        if call.lockId.storage = other ∧ call.lockId.key = name then value
        else node.store.find? other name)
    (bound : (node.store.perform node.config.credential (.record call)).2.required =
      node.store.required) :
    Achieves number net handle (node.serve net.surroundings (.record call)) fun outcome after =>
      outcome = (node.store.perform node.config.credential (.record call)).1.mapError .store ∧
        net.Hauls after (overwriting net.stored? handle call.lockId value) net.lock? := by
  have hturn : node.serve net.surroundings (.record call) =
      node.run (.attempt call) (.attempted call) := if_neg joined
  rw [hturn]
  refine .run_same rfl found rfl rfl ?_
  refine (attempt_achieves prompt found free written bound).weaken ?_
  rintro answer mid ⟨hanswer, hmid⟩
  obtain ⟨later, hlater, -, -⟩ := hmid.nodeAt? found
  refine ⟨later, hlater, ?_⟩
  rw [Node.resume, onAttempted_eq_reply later mid.surroundings _ fun answer _ => hits answer]
  exact .answer_same hlater ⟨hanswer, hmid⟩

variable {content : List UInt8} {version : UInt64} {stored : Stored} {contact : Contact}
  {owner : Token}

/-- A node that has joined creates a record that it does not have. -/
theorem create_achieves (prompt : net.Prompt) (found : net.nodeAt? handle = some node)
    (joined : node.lifecycle ≠ .joining) (opens : node.opens = true)
    (free : net.lock? handle id = none) (lacks : net.stored? handle id = none) :
    Achieves number net handle
      (node.serve net.surroundings (.record (.create id.storage id.key content version)))
        fun outcome after => outcome = .ok version ∧
          net.Hauls after (overwriting net.stored? handle id (some ⟨content, version⟩))
            net.lock? := by
  rw [stored?_of_nodeAt? found] at lacks
  have hopens : node.store.opensFor node.config.credential = true := opens
  have hperform : node.store.perform node.config.credential
      (.record (.create id.storage id.key content version)) =
        (.ok version, node.store.put id.storage id.key ⟨content, version⟩) := by
    rw [Store.perform, Store.create, if_pos hopens, lacks]
  have hfree : net.lock? handle (RecordCall.create id.storage id.key content version).lockId =
    none := free
  refine (serve_record_achieves prompt found joined (fun _ => rfl) hfree
    (by rw [hperform]; exact fun _ _ => Store.find?_put ..) (by rw [hperform]; rfl)).weaken ?_
  rintro outcome after ⟨houtcome, hafter⟩
  rw [hperform] at houtcome
  exact ⟨houtcome, hafter⟩

/-- A node that has the record already refuses to create it. -/
theorem create_refused (prompt : net.Prompt) (found : net.nodeAt? handle = some node)
    (joined : node.lifecycle ≠ .joining) (opens : node.opens = true)
    (free : net.lock? handle id = none) (keeps : net.stored? handle id = some stored) :
    Achieves number net handle
      (node.serve net.surroundings (.record (.create id.storage id.key content version)))
        fun outcome _ => outcome = .error (.store (.alreadyExists id.storage id.key)) := by
  rw [stored?_of_nodeAt? found] at keeps
  have hopens : node.store.opensFor node.config.credential = true := opens
  have hperform : node.store.perform node.config.credential
      (.record (.create id.storage id.key content version)) =
        (.error (.alreadyExists id.storage id.key), node.store) := by
    rw [Store.perform, Store.create, if_pos hopens, keeps]
  have hsame : ∀ other name, node.store.find? other name =
      if id.storage = other ∧ id.key = name then some stored
      else node.store.find? other name := by
    intro other name
    split
    · rename_i hsame
      rw [← hsame.1, ← hsame.2, keeps]
    · rfl
  have hfree : net.lock? handle (RecordCall.create id.storage id.key content version).lockId =
    none := free
  refine (serve_record_achieves prompt found joined (fun _ => rfl) hfree
    (by rw [hperform]; exact hsame) (by rw [hperform])).weaken ?_
  rintro outcome after ⟨houtcome, -⟩
  rw [hperform] at houtcome
  exact houtcome

/-! ## The transfer of a record -/

/-- A record is transferred to a node that has joined and does not have it. -/
theorem transfer_achieves (prompt : net.Prompt) (found : net.nodeAt? handle = some node)
    (opens : node.opens = true) (keeps : net.stored? handle id = some stored)
    (other : owner ≠ node.id) (listed : net.directory[owner]? = some peer) (apart : handle ≠ peer)
    (meets : net.nodeAt? peer = some target) (joined : target.lifecycle ≠ .joining)
    (opened : target.opens = true) (lacks : net.stored? peer id = none)
    (free : ∀ place, net.lock? place id = none) :
    Achieves number net handle (node.transfer id.storage id.key owner) fun outcome after =>
      outcome = .ok true ∧ net.Hauls after (moving net.stored? handle peer id) net.lock? := by
  have hapart : (handle, id) ≠ (peer, id) := fun heq => apart (congrArg Prod.fst heq)
  refine .lock rfl found rfl rfl (free handle) fun locked holding hlocked hholding hbare hstore => ?_
  have hconfig : holding.config = node.config := (congrArg Node.config hbare :)
  have hid : holding.id = node.id := (congrArg Node.id hbare :)
  have hopens : holding.opens = true := by rw [← opens, Node.opens, Node.opens, hstore, hconfig]
  have hkept : locked.stored? handle id = some stored := by rw [hlocked.stored?, keeps]
  have hread := read_of_opens hopens ((stored?_of_nodeAt? hholding id).symm.trans hkept)
  have hprompt := hlocked.frame.prompt prompt
  -- the record is read
  refine .call rfl hholding rfl rfl hprompt fun reading hreading _ => ?_
  rw [hread] at hreading ⊢
  obtain rfl : reading = holding := hreading
  rw [setNode_self hholding]
  have hresolve : reading.resolve net.surroundings owner = some (.remote peer) := by
    rw [Node.resolve, hid, if_neg other]
    exact congrArg (Option.map Contact.remote) listed
  have hturn : reading.resume net.surroundings (.transferRead id.storage id.key owner)
      (.ok (some ⟨id.key, stored.content, stored.version⟩)) =
      reading.ask (.remote peer) (.record (.create id.storage id.key stored.content stored.version))
        (.transferHanded id.storage id.key stored.version) := by
    simp only [Node.resume, Node.onTransferRead, hresolve]
  obtain ⟨asked, hasked, hask, hopened⟩ := hlocked.nodeAt? meets
  rw [hlocked.frame.surroundings]
  show Achieves number locked handle
    (reading.resume net.surroundings (.transferRead id.storage id.key owner)
      (.ok (some ⟨id.key, stored.content, stored.version⟩))) _
  rw [hturn]
  have henact : locked.enact handle (reading.ask (.remote peer)
    (.record (.create id.storage id.key stored.content stored.version))
      (.transferHanded id.storage id.key stored.version)) = locked :=
    enact_same hholding rfl rfl
  -- the owner creates it
  refine .ask rfl (henact.symm ▸ hprompt) (henact.symm ▸ hasked) fun next hnext => ?_
  rw [henact] at hnext
  have hsent : locked.Hauls next locked.stored? locked.lock? := .of_same hnext
  have hsame : asked.bare.lifecycle = target.bare.lifecycle := congrArg Node.lifecycle hask
  have hlacks : next.stored? peer id = none := by rw [hsent.stored?, hlocked.stored?, lacks]
  have hfree : next.lock? peer id = none := by
    rw [hsent.lock?, hlocked.lock?, overwriting_of_ne hapart, free peer]
  refine (create_achieves (hsent.frame.prompt hprompt) ((hnext.nodeAt? peer).trans hasked)
    (hsame.trans_ne joined) (hopened.trans opened) hfree hlacks).weaken ?_
  rintro answer created ⟨rfl, hcreated⟩
  have hbegun := hlocked.trans (hsent.trans hcreated)
  obtain ⟨waiting, hwaiting, -, hopen⟩ := hbegun.nodeAt? found
  refine ⟨waiting, hwaiting, ?_⟩
  -- the node deletes it
  have hstored : waiting.store.find? id.storage id.key = some stored := by
    rw [← stored?_of_nodeAt? hwaiting, hcreated.stored?, overwriting_of_ne (Ne.symm hapart),
      hsent.stored?, hkept]
  have hperform : waiting.store.perform waiting.config.credential
      (.record (.delete id.storage id.key stored.version)) =
        (.ok true, waiting.store.drop id.storage id.key) :=
    Store.delete_eq (hopen.trans opens) hstored
  refine .call rfl hwaiting rfl rfl (hbegun.frame.prompt prompt) fun dropping hdropping hstands => ?_
  rw [hperform] at hdropping ⊢
  have hdropped : created.Hauls (created.setNode handle dropping)
      (overwriting created.stored? handle id none) created.lock? := by
    rw [hdropping]
    exact .of_store hwaiting (fun _ _ => Store.find?_drop ..) rfl
  have hall := hbegun.trans hdropped
  have hheld : (created.setNode handle dropping).lock? handle id = some ⟨number, []⟩ := by
    rw [hall.lock?, hcreated.lock?, hsent.lock?, hlocked.lock?, overwriting_self]
  have hreleases : (dropping.resume created.surroundings (.transferDeleted id.storage id.key)
      (.ok true)).effects = [.tally .recordMoved] ++ [.release id] := rfl
  refine .release rfl hstands rfl hreleases (by simp) hheld ?_
  intro after hafter
  refine ⟨rfl, ?_⟩
  have hdone := hall.trans hafter
  rw [hall.stored?, hall.lock?, hcreated.stored?, hcreated.lock?, hsent.stored?, hsent.lock?,
    hlocked.stored?, hlocked.lock?, overwriting_twice, overwriting_same (free handle)] at hdone
  rw [moving, keeps]
  exact hdone

end Network

end RecordRing
