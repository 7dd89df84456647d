import RecordRing.Lock.Balance

/-!
# Sound registries

Between two operations no reference is on its way, and no entry is left behind by the last one who was
interested in its lock (`LockRegistry.Sound`).  Each operation keeps a registry sound, and what it does
can be told by looking at who holds a lock and who waits for it (`LockRegistry.find?`).
-/

namespace RecordRing

namespace LockRegistry

variable {registry after : LockRegistry} {pending rest : List MutexRef} {id other : LockId}
  {ref guard : MutexRef} {address : Nat} {lock : HeldLock} {waiter : Waiter}

/-- Who holds a lock and who waits for it. -/
def find? (registry : LockRegistry) (id : LockId) : Option HeldLock :=
  (registry.held id).head?.map fun guard =>
    ⟨guard.ticket, (registry.mutex guard.address).waiters⟩

/-- No reference is on its way, and every entry leads to a mutex in use. -/
structure Sound (registry : LockRegistry) : Prop where
  balanced : registry.Balanced []
  used : ∀ (id : LockId) (address : Nat), registry.entries[id]? = some address →
    1 < (registry.mutex address).references

theorem Sound.empty : LockRegistry.empty.Sound := by
  have hnone (id : LockId) : LockRegistry.empty.entries[id]? = none := Std.TreeMap.getElem?_emptyc
  refine ⟨⟨?apart, fun id => ⟨?led, ?cell⟩⟩, ?used⟩
  case apart =>
    intro id _ _ found
    cases (hnone id).symm.trans found
  case led =>
    intro ref href
    cases href
  case cell =>
    intro address found
    cases (hnone id).symm.trans found
  case used =>
    intro id address found
    cases (hnone id).symm.trans found

/-! ## The view of a registry -/

theorem find?_of_held_nil (free : registry.held id = []) : registry.find? id = none := by
  rw [find?, free]
  rfl

theorem find?_of_held_cons (held : registry.held id = guard :: rest) :
    registry.find? id = some ⟨guard.ticket, (registry.mutex guard.address).waiters⟩ := by
  rw [find?, held]
  rfl

theorem mem_of_held_cons (held : registry.held id = guard :: rest) :
    guard ∈ registry.guards ∧ guard.id = id := by
  have hmem : guard ∈ registry.held id := held ▸ List.mem_cons_self
  exact ⟨(List.mem_filter.1 hmem).1, isFor_iff.1 (List.mem_filter.1 hmem).2⟩

/-- Two registries that agree about a name look the same there. -/
theorem find?_congr (held : after.held id = registry.held id)
    (waiters : ∀ guard ∈ registry.held id,
      (after.mutex guard.address).waiters = (registry.mutex guard.address).waiters) :
    after.find? id = registry.find? id := by
  cases h : registry.held id with
  | nil => rw [find?_of_held_nil h, find?_of_held_nil (held.trans h)]
  | cons guard rest =>
      rw [find?_of_held_cons h, find?_of_held_cons (held.trans h),
        waiters guard (h ▸ List.mem_cons_self)]

/-- What is left alone looks the same. -/
theorem Elsewhere.find? (elsewhere : Elsewhere id registry after)
    (balanced : registry.Balanced pending) (hne : other ≠ id) :
    after.find? other = registry.find? other := by
  apply find?_congr (elsewhere.held other hne)
  intro guard hguard
  have hled := (balanced.names other).led guard
    (List.mem_append_left _ (List.mem_append_left _ hguard))
  rw [elsewhere.mutexes other hne _ hled]

/-- A change that makes a lock look some way is one of the whole view. -/
theorem Change.find? (change : Change id rest registry after)
    (balanced : registry.Balanced pending) {left : Option HeldLock}
    (own : after.find? id = left) (other : LockId) :
    after.find? other = if id = other then left else registry.find? other := by
  by_cases h : id = other
  · rw [if_pos h, ← h, own]
  · rw [if_neg h, change.elsewhere.find? balanced (Ne.symm h)]

/-- Names without an entry are those whose lock is free. -/
theorem Sound.find?_eq_none (sound : registry.Sound) :
    registry.find? id = none ↔ registry.entries[id]? = none := by
  constructor
  · intro free
    have hheld : registry.held id = [] := by
      rw [LockRegistry.find?, Option.map_eq_none_iff] at free
      exact List.head?_eq_none_iff.1 free
    refine Option.eq_none_iff_forall_ne_some.2 fun address found => ?_
    have hcell := (sound.balanced.names id).cell address found
    have hfree : (registry.mutex address).locked = false := by
      have hlocked := hcell.locked
      rw [hheld] at hlocked
      exact Bool.toNat_eq_zero.1 hlocked.symm
    have hnobody : (registry.mutex address).waiters = [] := by
      by_cases h : (registry.mutex address).waiters = []
      · exact h
      · cases hfree.symm.trans (hcell.busy h)
    have hawaited : registry.awaited id = [] := by
      have hqueued := hcell.queued
      rw [hnobody] at hqueued
      exact List.map_eq_nil_iff.1 hqueued.symm
    have hcounted := hcell.counted
    rw [hheld, hawaited] at hcounted
    exact absurd (sound.used id address found) (by rw [hcounted]; exact Nat.lt_irrefl 1)
  · exact fun none => find?_of_held_nil (sound.balanced.filter_of_free none).1

/-- The entries of other names lead to mutexes in use as before. -/
theorem Change.used (change : Change id rest registry after) (sound : registry.Sound) :
    ∀ other, other ≠ id → ∀ address, after.entries[other]? = some address →
      1 < (after.mutex address).references := by
  intro other hne address found
  rw [change.elsewhere.entries other hne] at found
  rw [change.elsewhere.mutexes other hne address found]
  exact sound.used other address found

/-- A change after which somebody holds the lock keeps a registry sound. -/
theorem Change.sound (change : Change id [] registry after) (sound : registry.Sound)
    (held : after.held id = guard :: rest) : after.Sound := by
  refine ⟨change.balanced, fun other address found => ?_⟩
  by_cases h : other = id
  · subst h
    have hcounted := ((change.balanced.names other).cell address found).counted
    rw [held, List.length_cons] at hcounted
    omega
  · exact change.used sound other h address found

/-! ## Dropping references -/

theorem held_dereference (registry : LockRegistry) (address : Nat) (id : LockId) :
    (registry.dereference address).held id = registry.held id := by
  simp only [dereference]
  split <;> rfl

theorem held_prune (registry : LockRegistry) (id other : LockId) :
    (registry.prune id).held other = registry.held other := by
  unfold prune
  split
  · rfl
  · split
    · exact held_dereference ..
    · rfl

theorem waiters_dereference (registry : LockRegistry) (address place : Nat)
    (shared : 1 < (registry.mutex address).references) :
    ((registry.dereference address).mutex place).waiters = (registry.mutex place).waiters := by
  rw [mutex_dereference registry address place shared]
  split
  · rename_i same
    rw [same]
  · rfl

/-- After the last reference that was on its way has been dropped, the registry is sound, and it looks
the same as before. -/
theorem Balanced.drop (balanced : registry.Balanced [ref])
    (used : ∀ other, other ≠ ref.id → ∀ address, registry.entries[other]? = some address →
      1 < (registry.mutex address).references) :
    (registry.drop ref).Sound ∧ ∀ id, (registry.drop ref).find? id = registry.find? id := by
  have hfound := balanced.found (List.mem_append_right _ List.mem_cons_self)
  have hcounted := ((balanced.names ref.id).cell ref.address hfound).counted
  rw [filter_cons_own ref rfl, List.length_cons] at hcounted
  have hback := balanced.dereference
  obtain ⟨hpruned, hleft⟩ := hback.balanced.prune ref.id
  have helsewhere := hback.elsewhere.trans hpruned.elsewhere
  refine ⟨⟨hpruned.balanced, fun id address found => ?used⟩, fun id => ?view⟩
  case used =>
    by_cases h : id = ref.id
    · subst h
      obtain ⟨hsame, hshared⟩ := hleft address found
      rw [LockRegistry.drop, hsame]
      exact hshared
    · have hbefore : registry.entries[id]? = some address := (helsewhere.entries id h).symm.trans found
      rw [LockRegistry.drop, helsewhere.mutexes id h address hbefore]
      exact used id h address hbefore
  case view =>
    by_cases h : id = ref.id
    · subst h
      apply find?_congr ((held_prune ..).trans (held_dereference ..))
      intro guard hguard
      -- Somebody holds the lock, so the entry stays.
      have hpos := List.length_pos_of_mem hguard
      have hled := (hback.balanced.names ref.id).led guard
        (List.mem_append_left _ (List.mem_append_left _ (by rwa [held_dereference])))
      have hshared := ((hback.balanced.names ref.id).cell guard.address hled).counted
      rw [held_dereference] at hshared
      rw [Balanced.prune_of_shared hled (by omega),
        waiters_dereference _ _ _ (by omega)]
    · exact helsewhere.find? balanced h

/-! ## Locks -/

theorem waiters_setMutex (registry : LockRegistry) (address : Nat) (mutex : SharedMutex) :
    ((registry.setMutex address mutex).mutex address).waiters = mutex.waiters := by
  rw [mutex_setMutex, if_pos rfl]

theorem Sound.acquire_free (sound : registry.Sound) (free : registry.find? id = none) (now : Nat)
    (waiter : Waiter) :
    (registry.acquire id now waiter).1 = .granted ∧ (registry.acquire id now waiter).2.Sound ∧
      ∀ other, (registry.acquire id now waiter).2.find? other =
        if id = other then some ⟨waiter.ticket, []⟩ else registry.find? other := by
  have hnone := sound.find?_eq_none.1 free
  have hreference := sound.balanced.reference_of_free hnone waiter.ticket
  generalize hfound : (registry.reference id).2 = found at hreference
  have hplace : (registry.reference id).1 = registry.nextAddress := by rw [reference_of_free hnone]
  have hmutex : found.mutex registry.nextAddress = ⟨2, false, []⟩ := by
    rw [← hfound, reference_of_free hnone]
    exact (mutex_setMutex registry _ _ _).trans (if_pos rfl)
  have hacquire : registry.acquire id now waiter =
      (.granted, found.lock ⟨waiter.ticket, id, registry.nextAddress⟩) := by
    simp [acquire, hfound, hplace, hmutex]
  rw [hacquire]
  have hchange := hreference.trans (hreference.balanced.lock (congrArg SharedMutex.locked hmutex))
  have hheld : (found.lock ⟨waiter.ticket, id, registry.nextAddress⟩).held id =
      ⟨waiter.ticket, id, registry.nextAddress⟩ :: found.held id :=
    filter_cons_own _ rfl found.guards
  refine ⟨rfl, hchange.sound sound hheld, hchange.find? sound.balanced ?_⟩
  rw [find?_of_held_cons hheld]
  exact congrArg (fun waiters => some (HeldLock.mk waiter.ticket waiters))
    ((waiters_setMutex ..).trans (congrArg SharedMutex.waiters hmutex))

/-- What is known about a lock that is held. -/
theorem Sound.held_of_find? (sound : registry.Sound) (held : registry.find? id = some lock) :
    ∃ guard, registry.held id = [guard] ∧ guard.ticket = lock.holder ∧ guard ∈ registry.guards ∧
      guard.id = id ∧ registry.entries[id]? = some guard.address ∧
        (registry.mutex guard.address).locked = true ∧
          (registry.mutex guard.address).waiters = lock.waiters := by
  cases h : registry.held id with
  | nil => cases (find?_of_held_nil h).symm.trans held
  | cons guard rest =>
      obtain ⟨hmem, rfl⟩ := mem_of_held_cons h
      have hfound := sound.balanced.found (List.mem_append_left _ (List.mem_append_left _ hmem))
      have hlocked := ((sound.balanced.names guard.id).cell guard.address hfound).locked
      have hsingle := (sound.balanced.erase_guard hmem hfound).1
      rw [hsingle, List.length_singleton] at hlocked
      rw [find?_of_held_cons h, Option.some.injEq] at held
      refine ⟨guard, h.symm.trans hsingle, congrArg HeldLock.holder held, hmem, rfl, hfound,
        Bool.toNat_eq_one.1 hlocked.symm, congrArg HeldLock.waiters held⟩

/-- An entry leads to the mutex of a lock that is held. -/
theorem Sound.find?_of_entry (sound : registry.Sound) (found : registry.entries[id]? = some address) :
    ∃ lock, registry.find? id = some lock ∧ (registry.mutex address).waiters = lock.waiters := by
  cases h : registry.find? id with
  | none => cases (sound.find?_eq_none.1 h).symm.trans found
  | some lock =>
      obtain ⟨guard, -, -, -, -, hentry, -, hwaiters⟩ := sound.held_of_find? h
      cases found.symm.trans hentry
      exact ⟨lock, rfl, hwaiters⟩

/-- Those in the queue of a lock are the attempts that wait for it. -/
theorem Sound.queue_eq (sound : registry.Sound) (held : registry.find? id = some lock) :
    lock.waiters.map Waiter.ticket = (registry.awaited id).map MutexRef.ticket := by
  obtain ⟨guard, -, -, -, -, hentry, -, hwaiters⟩ := sound.held_of_find? held
  rw [← hwaiters]
  exact ((sound.balanced.names id).cell guard.address hentry).queued

/-- The guard of a lock is that of its holder. -/
theorem Sound.mem_guards (sound : registry.Sound) {ticket : Nat} :
    (∃ guard ∈ registry.guards, guard.ticket = ticket ∧ guard.id = id) ↔
      ∃ lock, registry.find? id = some lock ∧ lock.holder = ticket := by
  constructor
  · rintro ⟨guard, hmem, rfl, rfl⟩
    have hfound := sound.balanced.found (List.mem_append_left _ (List.mem_append_left _ hmem))
    exact ⟨_, find?_of_held_cons (sound.balanced.erase_guard hmem hfound).1, rfl⟩
  · rintro ⟨lock, hlock, rfl⟩
    obtain ⟨guard, -, hticket, hmem, hid, -⟩ := sound.held_of_find? hlock
    exact ⟨guard, hmem, hticket, hid⟩

/-- The attempts that wait are those in the queues. -/
theorem Sound.mem_waiting (sound : registry.Sound) {ticket : Nat} :
    (∃ ref ∈ registry.waiting, ref.ticket = ticket ∧ ref.id = id) ↔
      ∃ lock, registry.find? id = some lock ∧ ticket ∈ lock.waiters.map Waiter.ticket := by
  constructor
  · rintro ⟨ref, hmem, rfl, rfl⟩
    have hfound := sound.balanced.found (List.mem_append_left _ (List.mem_append_right _ hmem))
    obtain ⟨lock, hlock, -⟩ := sound.find?_of_entry hfound
    refine ⟨lock, hlock, sound.queue_eq hlock ▸ List.mem_map_of_mem ?_⟩
    exact List.mem_filter.2 ⟨hmem, isFor_iff.2 rfl⟩
  · rintro ⟨lock, hlock, hticket⟩
    rw [sound.queue_eq hlock] at hticket
    obtain ⟨ref, href, hticket⟩ := List.mem_map.1 hticket
    obtain ⟨hmem, hid⟩ := List.mem_filter.1 href
    exact ⟨ref, hmem, hticket, isFor_iff.1 hid⟩

/-- The references to a mutex are those of its entry, its guard and its queue. -/
theorem Sound.references (sound : registry.Sound) (found : registry.entries[id]? = some address) :
    ∃ lock, registry.find? id = some lock ∧ (registry.mutex address).references =
      1 + (lock.holder :: lock.waiters.map Waiter.ticket).length := by
  obtain ⟨lock, hlock, -⟩ := sound.find?_of_entry found
  obtain ⟨guard, hheld, -⟩ := sound.held_of_find? hlock
  refine ⟨lock, hlock, ?_⟩
  have hcounted := ((sound.balanced.names id).cell address found).counted
  rw [hheld, List.length_singleton] at hcounted
  rw [hcounted, List.length_cons, sound.queue_eq hlock, List.length_map, List.filter_nil,
    List.length_nil]
  omega

theorem Sound.acquire_held (sound : registry.Sound) (held : registry.find? id = some lock)
    (now : Nat) (waiter : Waiter) :
    (registry.acquire id now waiter).2.Sound ∧
      if waiter.deadline ≤ now then
        (registry.acquire id now waiter).1 = .refused ∧
          ∀ other, (registry.acquire id now waiter).2.find? other = registry.find? other
      else
        (registry.acquire id now waiter).1 = .queued ∧
          ∀ other, (registry.acquire id now waiter).2.find? other =
            if id = other then some { lock with waiters := lock.waiters ++ [waiter] }
            else registry.find? other := by
  obtain ⟨guard, hheld, hticket, hmem, hid, hentry, hlocked, hwaiters⟩ := sound.held_of_find? held
  have hreference := sound.balanced.reference_of_found hentry waiter.ticket
  have hmutex : (registry.reference id).2.mutex guard.address =
      { registry.mutex guard.address with
        references := (registry.mutex guard.address).references + 1 } := by
    rw [reference_of_found hentry]
    exact (mutex_setMutex registry _ _ _).trans (if_pos rfl)
  have hguards : (registry.reference id).2.held id = [guard] := by
    rw [reference_of_found hentry]
    exact hheld
  have hplace : (registry.reference id).1 = guard.address := by rw [reference_of_found hentry]
  generalize hfound : (registry.reference id).2 = found at hreference hmutex hguards
  have hsame : found.find? id = registry.find? id := by
    rw [find?_of_held_cons hguards, find?_of_held_cons hheld, hmutex]
  by_cases late : waiter.deadline ≤ now
  · have hacquire : registry.acquire id now waiter =
        (.refused, found.drop ⟨waiter.ticket, id, guard.address⟩) := by
      simp [acquire, hfound, hplace, hmutex, hlocked, late]
    obtain ⟨hsound, hview⟩ := hreference.balanced.drop (hreference.used sound)
    rw [hacquire, if_pos late]
    refine ⟨hsound, rfl, fun other => (hview other).trans ?_⟩
    rw [hreference.find? sound.balanced hsame other]
    split
    · rename_i same
      rw [same]
    · rfl
  · have hacquire : registry.acquire id now waiter =
        (.queued, found.enqueue ⟨waiter.ticket, id, guard.address⟩ waiter.deadline) := by
      simp [acquire, hfound, hplace, hmutex, hlocked, late]
    have hbusy : (found.mutex guard.address).locked = true := by rw [hmutex, ← hlocked]
    have hchange := hreference.trans (hreference.balanced.enqueue hbusy waiter.deadline)
    rw [hacquire, if_neg late]
    have hstill : (found.enqueue ⟨waiter.ticket, id, guard.address⟩ waiter.deadline).held id =
        [guard] := hguards
    refine ⟨hchange.sound sound hstill, rfl, hchange.find? sound.balanced ?_⟩
    rw [find?_of_held_cons hstill, hticket]
    refine congrArg (fun waiters => some (HeldLock.mk lock.holder waiters)) ?_
    calc ((found.enqueue ⟨waiter.ticket, id, guard.address⟩ waiter.deadline).mutex
          guard.address).waiters
      _ = (found.mutex guard.address).waiters ++ [waiter] := waiters_setMutex ..
      _ = lock.waiters ++ [waiter] := by rw [hmutex, ← hwaiters]

theorem Sound.release (sound : registry.Sound) (mem : guard ∈ registry.guards) :
    (registry.release guard).2.Sound ∧
      (registry.release guard).1 =
        ((registry.find? guard.id).bind fun lock => lock.waiters.head?).map Waiter.ticket ∧
      ∀ other, (registry.release guard).2.find? other =
        if guard.id = other then
          (registry.find? guard.id).bind fun lock =>
            lock.waiters.head?.map fun next => ⟨next.ticket, lock.waiters.tail⟩
        else registry.find? other := by
  have hfound := sound.balanced.found (List.mem_append_left _ (List.mem_append_left _ mem))
  have hheld := (sound.balanced.erase_guard mem hfound).1
  rw [find?_of_held_cons hheld]
  suffices h : Change guard.id [guard] registry (registry.unlock guard).2 ∧
      (registry.unlock guard).1 =
        (registry.mutex guard.address).waiters.head?.map Waiter.ticket ∧
      (registry.unlock guard).2.find? guard.id =
        (registry.mutex guard.address).waiters.head?.map fun next =>
          ⟨next.ticket, (registry.mutex guard.address).waiters.tail⟩ by
    obtain ⟨hchange, hnext, hown⟩ := h
    obtain ⟨hsound, hview⟩ := hchange.balanced.drop (hchange.used sound)
    exact ⟨hsound, hnext, fun other =>
      (hview other).trans (hchange.find? sound.balanced hown other)⟩
  cases hwaiters : (registry.mutex guard.address).waiters with
  | nil =>
      obtain ⟨hnext, hchange, hleft⟩ := sound.balanced.unlock_of_alone mem hwaiters
      exact ⟨hchange, hnext, find?_of_held_nil hleft⟩
  | cons next others =>
      obtain ⟨hnext, hchange, hothers, heir, hticket, haddress, hleft⟩ :=
        sound.balanced.unlock_of_heir mem hwaiters
      refine ⟨hchange, hnext, ?_⟩
      rw [find?_of_held_cons hleft, hticket, haddress, hothers]
      rfl

theorem Sound.giveUp (sound : registry.Sound) (mem : ref ∈ registry.waiting) :
    (registry.giveUp ref).Sound ∧
      ∀ other, (registry.giveUp ref).find? other =
        if ref.id = other then
          (registry.find? ref.id).map fun lock =>
            { lock with
              waiters := lock.waiters.eraseP fun waiter => waiter.ticket = ref.ticket }
        else registry.find? other := by
  obtain ⟨hchange, hheld, hwaiters⟩ := sound.balanced.cancel mem
  obtain ⟨hsound, hview⟩ := hchange.balanced.drop (hchange.used sound)
  refine ⟨hsound, fun other => (hview other).trans (hchange.find? sound.balanced ?_ other)⟩
  cases h : registry.held ref.id with
  | nil => rw [find?_of_held_nil h, find?_of_held_nil (hheld.trans h), Option.map_none]
  | cons guard rest =>
      obtain ⟨hguard, hid⟩ := mem_of_held_cons h
      have hfound := sound.balanced.found (List.mem_append_left _ (List.mem_append_right _ mem))
      have haddress : guard.address = ref.address :=
        sound.balanced.address_eq hfound (List.mem_append_left _ (List.mem_append_left _ hguard)) hid
      rw [find?_of_held_cons h, find?_of_held_cons (hheld.trans h), haddress, hwaiters,
        Option.map_some]

end LockRegistry

end RecordRing
