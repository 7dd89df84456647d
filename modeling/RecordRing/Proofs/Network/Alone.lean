import Mathlib.Logic.Function.Basic
import RecordRing.Proofs.Network.Onward
import RecordRing.Proofs.Network.Records

/-!
# Records and locks along one task

What a task does to the records and the locks of the nodes while every other task rests.  A lock
that nobody holds is granted at once and nobody waits for it when it is given back, so an operation
under a record's lock leaves the locks as they were, and what it does to the records is what it does
to one store (`Takes.attempts`).

`Restocks` tells what becomes of a network by the table of all stores and the table of all locks that
it leads to, and `Alters` by the table of all records and the table of all locks.

## Implementation notes

`Takes` says which turn the next step of a task is.  The lemmas about turns that take a lock, call
the store or give a lock back do not mention whether the turn is the first one of an operation or a
later one.
-/

namespace RecordRing

/-- Whether a node's store opens for the node itself. -/
def Node.opens (node : Node) : Bool := node.store.opensFor node.config.credential

/-- Why a node's store refuses a record call of the node, if it does. -/
def Node.refusal? (node : Node) {shape : Shape} (call : RecordCall shape) : Option StoreError :=
  match (node.store.perform node.config.credential (.record call)).1 with
  | .ok _ => none
  | .error error => some error

namespace Network

variable {net mid after last : Network} {number holder : Nat} {handle : Handle} {id : LockId}
  {node : Node} {purpose : Purpose} {shape result : Shape} {below : Stack result}
  {turn : Turn result}

/-! ## Tables of all nodes -/

section Overwriting

variable {α : Type} {table : Handle → LockId → α} {value : α}

/-- A table over the records of all nodes with one entry overwritten. -/
def overwriting (table : Handle → LockId → α) (handle : Handle) (id : LockId) (value : α) :
    Handle → LockId → α :=
  fun other name => if (handle, id) = (other, name) then value else table other name

theorem overwriting_self : overwriting table handle id value handle id = value := if_pos rfl

theorem overwriting_of_ne {other : Handle} {name : LockId} (ne : (handle, id) ≠ (other, name)) :
    overwriting table handle id value other name = table other name := if_neg ne

theorem overwriting_twice (first : α) :
    overwriting (overwriting table handle id first) handle id value =
      overwriting table handle id value := by
  funext other name
  simp only [overwriting]
  split <;> rfl

/-- Overwriting an entry by itself changes nothing. -/
theorem overwriting_same (same : table handle id = value) :
    overwriting table handle id value = table := by
  funext other name
  rw [overwriting]
  split
  · rename_i h
    obtain ⟨rfl, rfl⟩ := Prod.mk.inj h
    exact same.symm
  · rfl

end Overwriting

/-- The nodes are as they were up to their locks, and these are those of a table. -/
structure Relocks (net after : Network) (held : Handle → LockId → Option HeldLock) : Prop where
  akin : net.Akin after
  steady : net.Steady after
  lock? : after.lock? = held

theorem Relocks.of_alike (alike : net.Alike after) : net.Relocks after net.lock? :=
  ⟨alike.akin, .of_alike alike, lock?_congr alike.nodeAt?⟩

/-- A node as it was, up to its locks. -/
theorem Relocks.nodeAt? {held : Handle → LockId → Option HeldLock} (h : net.Relocks after held)
    (found : net.nodeAt? handle = some node) : ∃ later, after.nodeAt? handle = some later ∧
      later.id = node.id ∧ later.store = node.store ∧ later.config = node.config := by
  have hholding := h.steady.nodes handle
  rw [found, Option.map_some] at hholding
  obtain ⟨later, hlater, hsame⟩ := Option.map_eq_some_iff.1 hholding
  simp only [Node.holding, Prod.mk.injEq] at hsame
  exact ⟨later, hlater, hsame⟩

theorem Relocks.trans {held lent : Handle → LockId → Option HeldLock} (h : net.Relocks mid held)
    (h' : mid.Relocks after lent) : net.Relocks after lent :=
  ⟨h.akin.trans h'.akin, h.steady.trans h'.steady, h'.lock?⟩

theorem Relocks.alike {held : Handle → LockId → Option HeldLock} (h : net.Relocks mid held)
    (alike : mid.Alike after) : net.Relocks after held :=
  ⟨h.akin.trans alike.akin, h.steady.trans (.of_alike alike),
    (lock?_congr alike.nodeAt?).trans h.lock?⟩

/-- The stores of the nodes. -/
def store? (net : Network) (handle : Handle) : Option Store := (net.nodeAt? handle).map Node.store

theorem store?_of_nodeAt? (found : net.nodeAt? handle = some node) :
    net.store? handle = some node.store := by
  rw [store?, found, Option.map_some]

theorem update_store?_self (found : net.nodeAt? handle = some node) :
    Function.update net.store? handle (some node.store) = net.store? := by
  rw [← store?_of_nodeAt? found, Function.update_eq_self]

theorem stored?_eq_bind (net : Network) (handle : Handle) (id : LockId) : net.stored? handle id =
    (net.store? handle).bind fun store => store.find? id.storage id.key := by
  rw [stored?, store?, Option.bind_map]
  rfl

/-- The nodes are as they were up to their stores and locks, and these are those of two tables. -/
structure Restocks (net after : Network) (kept : Handle → Option Store)
    (held : Handle → LockId → Option HeldLock) : Prop where
  akin : net.Akin after
  store? : after.store? = kept
  lock? : after.lock? = held

namespace Restocks

variable {kept later : Handle → Option Store} {held lent : Handle → LockId → Option HeldLock}

theorem refl (net : Network) : net.Restocks net net.store? net.lock? := ⟨.refl net, rfl, rfl⟩

theorem trans (h : net.Restocks mid kept held) (h' : mid.Restocks after later lent) :
    net.Restocks after later lent :=
  ⟨h.akin.trans h'.akin, h'.store?, h'.lock?⟩

theorem of_relocks (h : net.Relocks after held) : net.Restocks after net.store? held := by
  refine ⟨h.akin, ?_, h.lock?⟩
  funext handle
  have hsame := congrArg (Option.map fun holding : Token × Store × Config => holding.2.1)
    (h.steady.nodes handle)
  rw [Option.map_map, Option.map_map] at hsame
  exact hsame

theorem alike (h : net.Restocks mid kept held) (alike : mid.Alike after) :
    net.Restocks after kept held := by
  have h' := h.trans (.of_relocks (.of_alike alike))
  rwa [h.store?, h.lock?] at h'

/-- A node as it was, up to its store and its locks. -/
theorem nodeAt? (h : net.Restocks after kept held) (found : net.nodeAt? handle = some node) :
    ∃ later, after.nodeAt? handle = some later ∧ later.bare = node.bare ∧
      kept handle = some later.store := by
  have hbare := h.akin.nodes handle
  rw [found, Option.map_some] at hbare
  obtain ⟨later, hlater, hsame⟩ := Option.map_eq_some_iff.1 hbare
  refine ⟨later, hlater, hsame, ?_⟩
  rw [← h.store?, store?_of_nodeAt? hlater]

/-- The network after a node has overwritten its store. -/
theorem of_store (found : net.nodeAt? handle = some node) (store : Store) (number : Nat)
    (task : Task) :
    net.Restocks ((net.setNode handle { node with store := store }).putTask number task)
      (Function.update net.store? handle (some store)) net.lock? := by
  obtain ⟨member, hm, rfl⟩ := nodeAt?_eq_some.1 found
  rw [setNode_eq hm]
  let new : Member := { member with node := { member.node with store := store } }
  have hakin : net.Akin (net.setMember handle new) := .setMember hm rfl
  refine ⟨hakin.trans (.of_same rfl rfl), ?_, ?_⟩
  · funext other
    show ((net.setMember handle new).nodeAt? other).map Node.store = _
    rw [nodeAt?_setMember hm]
    by_cases hsame : handle = other
    · subst hsame
      rw [if_pos rfl, Function.update_self, Option.map_some]
    · rw [if_neg hsame, Function.update_of_ne (Ne.symm hsame)]
      rfl
  · rw [lock?_of_member? (member?_putTask task)]
    exact lock?_setMember_same hm rfl

end Restocks

/-- The nodes are as they were up to records and locks, their stores open for whom they opened, and
records and locks are those of two tables. -/
structure Alters (net after : Network) (kept : Handle → LockId → Option Stored)
    (held : Handle → LockId → Option HeldLock) : Prop where
  akin : net.Akin after
  opens : ∀ handle, (after.nodeAt? handle).map Node.opens = (net.nodeAt? handle).map Node.opens
  stored? : after.stored? = kept
  lock? : after.lock? = held

namespace Alters

variable {kept later : Handle → LockId → Option Stored}
  {held lent : Handle → LockId → Option HeldLock}

theorem trans (h : net.Alters mid kept held) (h' : mid.Alters after later lent) :
    net.Alters after later lent :=
  ⟨h.akin.trans h'.akin, fun handle => (h'.opens handle).trans (h.opens handle), h'.stored?,
    h'.lock?⟩

theorem of_relocks (h : net.Relocks after held) : net.Alters after net.stored? held := by
  refine ⟨h.akin, fun handle => ?_, ?_, h.lock?⟩
  · have hsame := congrArg (Option.map fun holding : Token × Store × Config =>
      holding.2.1.opensFor holding.2.2.credential) (h.steady.nodes handle)
    rw [Option.map_map, Option.map_map] at hsame
    exact hsame
  · funext handle id
    exact h.steady.stored? handle id

theorem of_alike (alike : net.Alike after) : net.Alters after net.stored? net.lock? :=
  of_relocks (.of_alike alike)

/-- Quiet moves on the way leave the tables as they are. -/
theorem after_alike (alike : net.Alike mid) (h : mid.Alters after kept held) :
    net.Alters after kept held :=
  (of_alike alike).trans h

theorem alike (h : net.Alters mid kept held) (alike : mid.Alike after) :
    net.Alters after kept held := by
  have h' := h.trans (of_alike alike)
  rwa [h.stored?, h.lock?] at h'

/-- A node as it was, up to its records and locks. -/
theorem nodeAt? (h : net.Alters after kept held) (found : net.nodeAt? handle = some node) :
    ∃ later, after.nodeAt? handle = some later ∧ later.bare = node.bare ∧
      later.opens = node.opens := by
  have hbare := h.akin.nodes handle
  have hopens := h.opens handle
  rw [found, Option.map_some] at hbare hopens
  obtain ⟨later, hlater, hsame⟩ := Option.map_eq_some_iff.1 hbare
  rw [hlater, Option.map_some, Option.some.injEq] at hopens
  exact ⟨later, hlater, hsame, hopens⟩

/-- A node has exchanged its store for one that opens for the same and differs in one record. -/
theorem of_restocks {store : Store} {value : Option Stored}
    (h : net.Restocks after (Function.update net.store? handle (some store)) held)
    (found : net.nodeAt? handle = some node)
    (written : ∀ other name, store.find? other name =
      if id.storage = other ∧ id.key = name then value else node.store.find? other name)
    (bound : store.required = node.store.required) :
    net.Alters after (overwriting net.stored? handle id value) held := by
  refine ⟨h.akin, fun other => ?_, ?_, h.lock?⟩
  · cases htwin : net.nodeAt? other with
    | none =>
        have hnodes := h.akin.nodes other
        rw [htwin, Option.map_none, Option.map_eq_none_iff] at hnodes
        rw [hnodes]
    | some twin =>
        obtain ⟨later, hlater, hbare, hkept⟩ := h.nodeAt? htwin
        have hconfig : later.config = twin.config := (congrArg Node.config hbare :)
        have hrequired : later.store.required = twin.store.required := by
          by_cases hsame : other = handle
          · subst hsame
            rw [Function.update_self, Option.some.injEq] at hkept
            obtain rfl : twin = node := Option.some.inj (htwin.symm.trans found)
            rw [← hkept, bound]
          · rw [Function.update_of_ne hsame, store?_of_nodeAt? htwin, Option.some.injEq] at hkept
            rw [hkept]
        rw [hlater, Option.map_some, Option.map_some, Node.opens, Node.opens, hconfig,
          Store.opensFor, Store.opensFor, hrequired]
  · funext other name
    rw [stored?_eq_bind, h.store?]
    by_cases hsame : other = handle
    · subst hsame
      have hname : (other, id) = (other, name) ↔ id.storage = name.storage ∧ id.key = name.key := by
        cases id
        cases name
        simp
      rw [Function.update_self, Option.bind_some, written, overwriting, stored?_of_nodeAt? found]
      simp only [hname]
    · rw [Function.update_of_ne hsame, ← stored?_eq_bind, overwriting_of_ne]
      exact fun heq => hsame (Prod.mk.inj heq).1.symm

/-- The network after a node has overwritten one record. -/
theorem of_store (found : net.nodeAt? handle = some node) {store : Store} {value : Option Stored}
    (written : ∀ other name, store.find? other name =
      if id.storage = other ∧ id.key = name then value else node.store.find? other name)
    (bound : store.required = node.store.required) (number : Nat) (task : Task) :
    net.Alters ((net.setNode handle { node with store := store }).putTask number task)
      (overwriting net.stored? handle id value) net.lock? :=
  of_restocks (.of_store found store number task) found written bound

end Alters

/-! ## Steps that are turns -/

/-- The next step of a task is a turn of a node, which gives the node no second place on a ring. -/
structure Takes (net : Network) (number : Nat) (purpose : Purpose) (handle : Handle)
    (below : Stack result) (node : Node) (turn : Turn result) : Prop where
  found : net.nodeAt? handle = some node
  active : net.canGoOn number = true
  first : net.replaces number = false
  works : net.step number = net.work number purpose handle below fun _ _ => turn

theorem onward_of_canGoOn (active : net.canGoOn number = true)
    (first : net.replaces number = false) : Onward number net (net.step number) :=
  Relation.ReflTransGen.single ⟨first, by rw [proceed, if_pos active]⟩

theorem work_congr (number : Nat) (purpose : Purpose) (below : Stack result)
    (turns : Node → Surroundings → Turn result) (found : net.nodeAt? handle = some node) :
    net.work number purpose handle below turns =
      net.work number purpose handle below fun _ _ => turns node net.surroundings := by
  obtain ⟨member, hm, rfl⟩ := nodeAt?_eq_some.1 found
  simp only [work, hm]

/-- A turn that leaves its node as it is only has its side effects and its action. -/
theorem work_same (number : Nat) (purpose : Purpose) (below : Stack result)
    (found : net.nodeAt? handle = some node) (same : turn.node = node) :
    net.work number purpose handle below (fun _ _ => turn) =
      (turn.effects.foldl (fun left effect => left.perform handle effect) net).act number purpose
        handle below turn.action := by
  have hself := setNode_self found
  obtain ⟨member, hm, rfl⟩ := nodeAt?_eq_some.1 found
  rw [setNode_eq hm, ← same] at hself
  simp only [work, hm, hself]

theorem takes_start {operation : Operation result}
    (at_start : net.tasks[number]? = some ⟨purpose, result, .start handle operation, below⟩)
    (found : net.nodeAt? handle = some node) (first : operation.places = false) :
    net.Takes number purpose handle below node (node.start net.surroundings operation) := by
  refine ⟨found, by simp [canGoOn, at_start, Control.waitsUntil?],
    by simp [replaces, at_start, first], ?_⟩
  simp only [step, at_start]
  exact work_congr number purpose below (fun node around => node.start around operation) found

theorem takes_resume {frame : Frame shape result} {outcome : Outcome shape}
    (answered : net.tasks[number]? =
      some ⟨purpose, shape, .answer outcome, .frame handle frame below⟩)
    (found : net.nodeAt? handle = some node) (first : frame.places outcome = false) :
    net.Takes number purpose handle below node (node.resume net.surroundings frame outcome) := by
  refine ⟨found, by simp [canGoOn, answered, Control.waitsUntil?],
    by simp [replaces, answered, first], ?_⟩
  simp only [step, answered]
  exact work_congr number purpose below (fun node around => node.resume around frame outcome) found

namespace Takes

/-- A turn after which the task goes on at once. -/
theorem goes_on {task : Task} (takes : net.Takes number purpose handle below node turn)
    (works : net.work number purpose handle below (fun _ _ => turn) = mid.putTask number task) :
    ∃ after, Onward number net after ∧ mid.Alike after ∧ after.tasks[number]? = some task := by
  have hon := onward_of_canGoOn takes.active takes.first
  rw [takes.works, works] at hon
  exact ⟨mid.putTask number task, hon, (Alike.refl mid).putTask number task,
    getElem?_putTask_self task⟩

/-- A turn without side effects leads to a task that goes on at once. -/
theorem quiet {action : Action result} {task : Task}
    (takes : net.Takes number purpose handle below node ⟨node, [], action⟩)
    (next : taskAfter purpose handle below action = some task) :
    ∃ after, Onward number net after ∧ net.Alike after ∧ after.tasks[number]? = some task := by
  apply takes.goes_on
  rw [work_same number purpose below takes.found rfl]
  exact act_eq_putTask next net

/-- A lock that nobody holds is granted at once. -/
theorem lock {frame : Frame .nothing result}
    (takes : net.Takes number purpose handle below node ⟨node, [], .lock id frame⟩)
    (free : net.lock? handle id = none) : ∃ after, Onward number net after ∧
      net.Relocks after (overwriting net.lock? handle id (some ⟨number, []⟩)) ∧
      after.tasks[number]? =
        some ⟨purpose, .nothing, .answer (.ok ()), .frame handle frame below⟩ := by
  have found := takes.found
  obtain ⟨member, hm, rfl⟩ := nodeAt?_eq_some.1 found
  rw [lock?_of_nodeAt? found] at free
  let deadline := net.now + member.node.config.lockTimeout
  obtain ⟨hgranted, hfind⟩ := LockTable.acquire_free free net.now ⟨number, deadline⟩
  let table := (member.node.locks.acquire id net.now ⟨number, deadline⟩).2
  have hlocked : net.Relocks (net.setMember handle (member.withLocks table))
      (overwriting net.lock? handle id (some ⟨number, []⟩)) := by
    refine ⟨.setMember hm rfl, .setMember hm rfl, ?_⟩
    funext other name
    exact lock?_withLocks hm hfind other name
  have hworks : net.work number purpose handle below
      (fun _ _ => ⟨member.node, [], .lock id frame⟩) =
        (net.setMember handle (member.withLocks table)).putTask number
          ⟨purpose, .nothing, .answer (.ok ()), .frame handle frame below⟩ := by
    rw [work_same number purpose below found rfl]
    simp only [List.foldl_nil, act, hm]
    rw [hgranted]
    rfl
  obtain ⟨after, hon, halike, htask⟩ := takes.goes_on hworks
  exact ⟨after, hon, hlocked.alike halike, htask⟩

/-- A lock for which nobody waits is free again when it is given back. -/
theorem release {effects : List Effect} {outcome : Outcome result}
    (takes : net.Takes number purpose handle below node
      ⟨node, effects ++ [.release id], .reply outcome⟩)
    (keeps : ∀ effect ∈ effects, ∀ id, effect ≠ .release id)
    (held : net.lock? handle id = some ⟨holder, []⟩) : ∃ after, Onward number net after ∧
      net.Relocks after (overwriting net.lock? handle id none) ∧
      after.tasks[number]? = some ⟨purpose, result, .answer outcome, below⟩ := by
  let counted := effects.foldl (fun left effect => left.perform handle effect) net
  have hcounted : net.Alike counted := alike_performs net handle effects keeps
  have hlocks : counted.lock? = net.lock? := lock?_congr hcounted.nodeAt?
  have hheld : counted.lock? handle id = some ⟨holder, []⟩ := by rw [hlocks, held]
  obtain ⟨member, hm, -⟩ := nodeAt?_eq_some.1 ((hcounted.nodeAt? handle).trans takes.found)
  have hfree : (member.node.locks.release id).1 = none := by
    rw [lock?_of_nodeAt? (nodeAt?_of_member? hm)] at hheld
    rw [LockTable.release_fst hheld]
    rfl
  let freed := counted.setMember handle (member.withLocks (member.node.locks.release id).2)
  have hfreed : counted.Relocks freed (overwriting net.lock? handle id none) := by
    refine ⟨.setMember hm rfl, .setMember hm rfl, ?_⟩
    rw [← hlocks]
    funext other name
    exact Exclusive.lock?_release hm hheld other name
  have hworks : net.work number purpose handle below
      (fun _ _ => ⟨node, effects ++ [.release id], .reply outcome⟩) =
        freed.putTask number ⟨purpose, result, .answer outcome, below⟩ := by
    rw [work_same number purpose below takes.found rfl]
    show Network.act (List.foldl _ net (effects ++ [.release id])) _ _ _ _ _ = _
    rw [List.foldl_append, List.foldl_cons, List.foldl_nil, perform_release hm, hfree]
    rfl
  obtain ⟨after, hon, halike, htask⟩ := takes.goes_on hworks
  exact ⟨after, hon, ((Relocks.of_alike hcounted).trans hfreed).alike halike, htask⟩

/-! ### Calls on the own store -/

variable {asked : Shape} {demand : StoreCall asked} {frame : Frame asked result}

/-- A call on the own store is carried out. -/
theorem call (takes : net.Takes number purpose handle below node (node.call demand frame)) :
    ∃ reaching, net.Alike reaching ∧ Onward number net
      (reaching.access number purpose handle demand (.frame handle frame below)) := by
  have found := takes.found
  obtain ⟨member, hm, rfl⟩ := nodeAt?_eq_some.1 found
  have hworks : net.work number purpose handle below (fun _ _ => member.node.call demand frame) =
      net.putTask number ⟨purpose, asked,
        .after net.now (member.storeDelay.of demand) (.access handle demand),
        .frame handle frame below⟩ := by
    rw [work_same number purpose below found rfl]
    simp only [Node.call, List.foldl_nil, act, hm, Option.elim_some]
  obtain ⟨calling, hon, halike, htask⟩ := takes.goes_on hworks
  obtain ⟨reaching, hconsults, halike', htask'⟩ := consults_after htask
  have hgoes : reaching.canGoOn number = true := by simp [canGoOn, htask', Control.waitsUntil?]
  have haccess := onward_of_canGoOn hgoes (by simp [replaces, htask'])
  simp only [step, htask'] at haccess
  exact ⟨reaching, halike.trans halike',
    onward_trans hon (onward_trans hconsults.onward haccess)⟩

/-- A call that leaves the store as it is comes back with the answer. -/
theorem reads (takes : net.Takes number purpose handle below node (node.call demand frame))
    (same : (node.store.perform node.config.credential demand).2 = node.store) :
    ∃ after, Onward number net after ∧ net.Alike after ∧ after.tasks[number]? =
      some ⟨purpose, asked,
        .answer ((node.store.perform node.config.credential demand).1.mapError .store),
        .frame handle frame below⟩ := by
  obtain ⟨reaching, halike, hon⟩ := takes.call
  rw [access_same ((halike.nodeAt? handle).trans takes.found) number purpose _ same] at hon
  exact ⟨_, hon, halike.putTask number _, getElem?_putTask_self _⟩

/-- A call comes back with the answer, and the store is what it has made of it. -/
theorem performs (takes : net.Takes number purpose handle below node (node.call demand frame)) :
    ∃ after, Onward number net after ∧
      net.Restocks after (Function.update net.store? handle
        (some (node.store.perform node.config.credential demand).2)) net.lock? ∧
      after.tasks[number]? = some ⟨purpose, asked,
        .answer ((node.store.perform node.config.credential demand).1.mapError .store),
        .frame handle frame below⟩ := by
  obtain ⟨reaching, halike, hon⟩ := takes.call
  have hfound := (halike.nodeAt? handle).trans takes.found
  obtain ⟨outcome, rfl, haccess⟩ :=
    access_eq hfound number purpose demand (.frame handle frame below)
  rw [haccess] at hon
  have hreached : net.Restocks reaching net.store? net.lock? := (Restocks.refl net).alike halike
  refine ⟨_, hon, ?_, getElem?_putTask_self _⟩
  rw [← hreached.store?, ← hreached.lock?]
  exact hreached.trans (.of_store hfound _ number _)

/-- A call that overwrites at most one record comes back with the answer. -/
theorem writes {value : Option Stored}
    (takes : net.Takes number purpose handle below node (node.call demand frame))
    (written : ∀ other name,
      (node.store.perform node.config.credential demand).2.find? other name =
        if id.storage = other ∧ id.key = name then value else node.store.find? other name)
    (bound : (node.store.perform node.config.credential demand).2.required =
      node.store.required) :
    ∃ after, Onward number net after ∧
      net.Alters after (overwriting net.stored? handle id value) net.lock? ∧
      after.tasks[number]? = some ⟨purpose, asked,
        .answer ((node.store.perform node.config.credential demand).1.mapError .store),
        .frame handle frame below⟩ := by
  obtain ⟨after, hon, hstocked, htask⟩ := takes.performs
  exact ⟨after, hon, .of_restocks hstocked takes.found written bound, htask⟩

/-- A record call on the own store, under the record's lock, leaves the locks as they were. -/
theorem attempts {call : RecordCall result}
    (takes : net.Takes number purpose handle below node (node.attempt call))
    (free : net.lock? handle call.lockId = none) :
    ∃ after, Onward number net after ∧
      net.Restocks after (Function.update net.store? handle
        (some (node.store.perform node.config.credential (.record call)).2)) net.lock? ∧
      after.tasks[number]? = some ⟨purpose, result,
        .answer ((node.store.perform node.config.credential (.record call)).1.mapError .store),
        below⟩ := by
  obtain ⟨locked, hon₁, hlocked, htask₁⟩ := takes.lock free
  obtain ⟨holding, hholding, -, hstore, hconfig⟩ := hlocked.nodeAt? takes.found
  have hbegun := Restocks.of_relocks hlocked
  obtain ⟨performed, hon₂, hperformed, htask₂⟩ := (takes_resume htask₁ hholding rfl).performs
  rw [hstore, hconfig] at hperformed htask₂
  obtain ⟨done, hdone, -, -⟩ := hperformed.nodeAt? hholding
  have hheld : performed.lock? handle call.lockId = some ⟨number, []⟩ := by
    rw [hperformed.lock?, hlocked.lock?]
    exact overwriting_self
  have hreleases : performed.Takes number purpose handle below done
      ⟨done, [] ++ [.release call.lockId], _⟩ := takes_resume htask₂ hdone rfl
  obtain ⟨after, hon₃, hafter, htask₃⟩ := hreleases.release nofun hheld
  refine ⟨after, onward_trans hon₁ (onward_trans hon₂ hon₃), ?_, htask₃⟩
  have hstocked := hbegun.trans (hperformed.trans (.of_relocks hafter))
  rwa [hperformed.store?, hperformed.lock?, hlocked.lock?, hbegun.store?, overwriting_twice,
    overwriting_same free] at hstocked

end Takes

/-! ## Operations under a record's lock -/

section Operations

variable {call : RecordCall shape} {stack : Stack shape} {value : Option Stored}

/-- A record call on the own store overwrites at most one record. -/
theorem onward_attempt
    (at_start : net.tasks[number]? = some ⟨purpose, shape, .start handle (.attempt call), stack⟩)
    (found : net.nodeAt? handle = some node) (free : net.lock? handle call.lockId = none)
    (written : ∀ other name,
      (node.store.perform node.config.credential (.record call)).2.find? other name =
        if call.lockId.storage = other ∧ call.lockId.key = name then value
        else node.store.find? other name)
    (bound : (node.store.perform node.config.credential (.record call)).2.required =
      node.store.required) :
    ∃ after, Onward number net after ∧
      net.Alters after (overwriting net.stored? handle call.lockId value) net.lock? ∧
      after.tasks[number]? = some ⟨purpose, shape,
        .answer ((node.store.perform node.config.credential (.record call)).1.mapError .store),
        stack⟩ := by
  obtain ⟨after, hon, hstocked, htask⟩ := (takes_start at_start found rfl).attempts free
  exact ⟨after, hon, .of_restocks hstocked found written bound, htask⟩

/-- A record call that does not miss ends with the first attempt on the own store. -/
theorem onAttempted_eq_reply (node : Node) (around : Surroundings) (outcome : Outcome shape)
    (hits : ∀ answer, outcome = .ok answer → call.misses answer = false) :
    node.onAttempted around call outcome = node.reply outcome := by
  cases outcome with
  | error failure => rfl
  | ok answer =>
      rw [Node.onAttempted, hits answer rfl]
      rfl

/-- A node that has joined serves a record call that cannot miss on its own store. -/
theorem onward_serve_record
    (at_start : net.tasks[number]? =
      some ⟨purpose, shape, .start handle (.serve (.record call)), stack⟩)
    (found : net.nodeAt? handle = some node) (joined : node.lifecycle ≠ .joining)
    (hits : ∀ answer, call.misses answer = false) (free : net.lock? handle call.lockId = none)
    (written : ∀ other name,
      (node.store.perform node.config.credential (.record call)).2.find? other name =
        if call.lockId.storage = other ∧ call.lockId.key = name then value
        else node.store.find? other name)
    (bound : (node.store.perform node.config.credential (.record call)).2.required =
      node.store.required) :
    ∃ after, Onward number net after ∧
      net.Alters after (overwriting net.stored? handle call.lockId value) net.lock? ∧
      after.tasks[number]? = some ⟨purpose, shape,
        .answer ((node.store.perform node.config.credential (.record call)).1.mapError .store),
        stack⟩ := by
  have hturn : node.start net.surroundings (.serve (.record call)) =
      node.run (.attempt call) (.attempted call) := if_neg joined
  obtain ⟨entered, hon₁, halike₁, htask₁⟩ :=
    onward_start_same at_start found rfl (by rw [hturn]; rfl) (by rw [hturn]; simp [Node.run])
      (by rw [hturn]; rfl)
  have hlocks := lock?_congr halike₁.nodeAt?
  obtain ⟨attempted, hon₂, halters, htask₂⟩ := onward_attempt htask₁
    ((halike₁.nodeAt? handle).trans found) (by rw [hlocks, free]) written bound
  obtain ⟨later, hlater, -, -⟩ := halters.nodeAt? ((halike₁.nodeAt? handle).trans found)
  have hreplies : later.resume attempted.surroundings (.attempted call) _ = _ :=
    onAttempted_eq_reply later attempted.surroundings
      ((node.store.perform node.config.credential (.record call)).1.mapError .store)
      fun answer _ => hits answer
  obtain ⟨after, hon₃, halike₃, htask₃⟩ := Takes.quiet
    (hreplies ▸ takes_resume htask₂ hlater rfl) rfl
  refine ⟨after, onward_trans hon₁ (onward_trans hon₂ hon₃), ?_, htask₃⟩
  have h := (halters.alike halike₃).after_alike halike₁
  rwa [hlocks, (Alters.of_alike halike₁).stored?] at h

end Operations

/-! ## Creating a record -/

section Create

variable {storage : String} {key : Token} {content : List UInt8} {version : UInt64}
  {stack : Stack .version}

/-- A node refuses to create a record if its store does not open, or has one already. -/
theorem refusal?_create (node : Node) (storage : String) (key : Token) (content : List UInt8)
    (version : UInt64) : node.refusal? (.create storage key content version) =
      if node.opens then (node.store.find? storage key).map fun _ => .alreadyExists storage key
      else some (.unauthorized node.config.credential.principal) := by
  rw [Node.refusal?, Store.perform, Store.create, Node.opens]
  by_cases hopens : node.store.opensFor node.config.credential = true
  · rw [if_pos hopens, if_pos hopens]
    cases node.store.find? storage key <;> rfl
  · rw [if_neg hopens, if_neg hopens]

/-- A node that has joined and is asked to create a record refuses and leaves its store as it is, or
it has not had the record before and has it afterwards. -/
theorem onward_create
    (at_start : net.tasks[number]? = some ⟨purpose, .version,
      .start handle (.serve (.record (.create storage key content version))), stack⟩)
    (found : net.nodeAt? handle = some node) (joined : node.lifecycle ≠ .joining)
    (free : net.lock? handle ⟨storage, key⟩ = none) :
    (∃ error after, node.refusal? (.create storage key content version) = some error ∧
      Onward number net after ∧ net.Alters after net.stored? net.lock? ∧
      after.tasks[number]? = some ⟨purpose, .version, .answer (.error (.store error)), stack⟩) ∨
    ∃ after, node.refusal? (.create storage key content version) = none ∧
      Onward number net after ∧
      net.Alters after (overwriting net.stored? handle ⟨storage, key⟩ (some ⟨content, version⟩))
        net.lock? ∧
      after.tasks[number]? = some ⟨purpose, .version, .answer (.ok version), stack⟩ := by
  rcases node.store.create_cases node.config.credential storage key content version with
    ⟨error, h⟩ | ⟨hfree, h⟩
  · have hperform : node.store.perform node.config.credential
        (.record (.create storage key content version)) = (.error error, node.store) := h
    have hsame : ∀ other name, node.store.find? other name =
        if storage = other ∧ key = name then node.store.find? storage key
        else node.store.find? other name := by
      intro other name
      split
      · rename_i hsame
        rw [hsame.1, hsame.2]
      · rfl
    obtain ⟨after, hon, halters, htask⟩ := onward_serve_record at_start found joined (fun _ => rfl)
      free (by rw [hperform]; exact hsame) (by rw [hperform])
    rw [hperform] at htask
    have hkept : overwriting net.stored? handle
        (RecordCall.create storage key content version).lockId (node.store.find? storage key) =
          net.stored? := overwriting_same (stored?_of_nodeAt? found _)
    rw [hkept] at halters
    exact .inl ⟨error, after, by rw [Node.refusal?, hperform], hon, halters, htask⟩
  · have hperform : node.store.perform node.config.credential
        (.record (.create storage key content version)) =
          (.ok version, node.store.put storage key ⟨content, version⟩) := h
    obtain ⟨after, hon, halters, htask⟩ := onward_serve_record at_start found joined (fun _ => rfl)
      free (by rw [hperform]; exact fun _ _ => Store.find?_put ..) (by rw [hperform]; rfl)
    rw [hperform] at htask
    exact .inr ⟨after, by rw [Node.refusal?, hperform], hon, halters, htask⟩

end Create

end Network

end RecordRing
