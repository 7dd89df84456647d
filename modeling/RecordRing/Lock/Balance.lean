import RecordRing.Lock.Registry

/-!
# References to locks in balance

The mutex that a name leads to is the one that all attempts and guards of that name refer to, and it
counts them right (`LockRegistry.Balanced`).  So an entry is never removed while its mutex is in use, a
lock has one guard at a time, and it is awaited only while it has a guard.

## Implementation notes

Between two operations every reference belongs to a guard or to an attempt that waits.  In the middle of
an operation some are on their way, `pending`; each part of an operation keeps the balance with those.
An operation is about one name, so what it does is split into what it leaves alone (`Elsewhere`) and
what it does to the name (`Local`).
-/

namespace RecordRing

/-! ## Lists from which one element has been taken -/

section Lists

variable {α : Type} {p q r : α → Bool}

theorem filter_eraseP : {l : List α} → (∀ x ∈ l, p x = (q x && r x)) →
    (l.eraseP p).filter q = (l.filter q).eraseP r
  | [], _ => rfl
  | x :: rest, h => by
      have ih := filter_eraseP fun y hy => h y (List.mem_cons_of_mem x hy)
      have hx := h x List.mem_cons_self
      cases hq : q x with
      | false =>
          rw [hq, Bool.false_and] at hx
          rw [List.eraseP_cons_of_neg (by simp [hx]), List.filter_cons_of_neg (by simp [hq]),
            List.filter_cons_of_neg (by simp [hq]), ih]
      | true =>
          rw [hq, Bool.true_and] at hx
          rw [List.filter_cons_of_pos hq]
          cases hr : r x with
          | true => rw [List.eraseP_cons_of_pos (hx.trans hr), List.eraseP_cons_of_pos hr]
          | false =>
              rw [List.eraseP_cons_of_neg (by simp [hx, hr]), List.filter_cons_of_pos hq,
                List.eraseP_cons_of_neg (by simp [hr]), ih]

theorem filter_eraseP_of_not : {l : List α} → (∀ x ∈ l, p x = true → q x = false) →
    (l.eraseP p).filter q = l.filter q
  | [], _ => rfl
  | x :: rest, h => by
      have ih := filter_eraseP_of_not fun y hy => h y (List.mem_cons_of_mem x hy)
      cases hp : p x with
      | true =>
          rw [List.eraseP_cons_of_pos hp,
            List.filter_cons_of_neg (by simp [h x List.mem_cons_self hp])]
      | false =>
          rw [List.eraseP_cons_of_neg (by simp [hp])]
          simp only [List.filter_cons, ih]

theorem find?_eq_find?_filter {l : List α} (h : ∀ x ∈ l, p x = (q x && r x)) :
    l.find? p = (l.filter q).find? r := by
  induction l with
  | nil => rfl
  | cons x rest ih =>
      have hrest := ih fun y hy => h y (List.mem_cons_of_mem x hy)
      have hx := h x List.mem_cons_self
      cases hq : q x <;> cases hr : r x <;> simp_all

end Lists

/-! ## The mutexes in memory -/

namespace LockRegistry

variable {registry after last : LockRegistry} {pending rest : List MutexRef} {id other : LockId}
  {ref guard : MutexRef} {address place : Nat}

theorem mutex_setMutex (registry : LockRegistry) (address place : Nat) (mutex : SharedMutex) :
    (registry.setMutex address mutex).mutex place =
      if address = place then mutex else registry.mutex place := by
  simp [setMutex, LockRegistry.mutex, Std.TreeMap.getD_insert]

theorem mutex_dereference (registry : LockRegistry) (address place : Nat)
    (shared : 1 < (registry.mutex address).references) :
    (registry.dereference address).mutex place =
      if address = place then
        { registry.mutex address with references := (registry.mutex address).references - 1 }
      else registry.mutex place := by
  rw [dereference, if_neg (Nat.not_le_of_lt shared), mutex_setMutex]

/-! ## Balance -/

/-- The guards of a lock. -/
def held (registry : LockRegistry) (id : LockId) : List MutexRef :=
  registry.guards.filter (MutexRef.isFor id)

/-- The attempts that wait for a lock. -/
def awaited (registry : LockRegistry) (id : LockId) : List MutexRef :=
  registry.waiting.filter (MutexRef.isFor id)

/-- The mutex of a name with an entry agrees with the references to it. -/
structure Cell (pending : List MutexRef) (registry : LockRegistry) (id : LockId) (address : Nat) :
    Prop where
  below : address < registry.nextAddress
  /-- The entry is a reference, too. -/
  counted : (registry.mutex address).references = 1 + ((registry.held id).length +
    (registry.awaited id).length + (pending.filter (MutexRef.isFor id)).length)
  locked : (registry.held id).length = (registry.mutex address).locked.toNat
  queued : (registry.mutex address).waiters.map Waiter.ticket =
    (registry.awaited id).map MutexRef.ticket
  busy : (registry.mutex address).waiters ≠ [] → (registry.mutex address).locked = true

/-- The references under one name are in balance. -/
structure Local (pending : List MutexRef) (registry : LockRegistry) (id : LockId) : Prop where
  led : ∀ ref ∈ registry.held id ++ registry.awaited id ++ pending.filter (MutexRef.isFor id),
    registry.entries[id]? = some ref.address
  cell : ∀ address, registry.entries[id]? = some address → registry.Cell pending id address

/-- All references are in balance, and no two names lead to one mutex. -/
structure Balanced (pending : List MutexRef) (registry : LockRegistry) : Prop where
  apart : ∀ {id other : LockId} {address : Nat}, registry.entries[id]? = some address →
    registry.entries[other]? = some address → id = other
  names : ∀ id, registry.Local pending id

/-- What a change of one name leaves alone. -/
structure Elsewhere (id : LockId) (registry after : LockRegistry) : Prop where
  grows : registry.nextAddress ≤ after.nextAddress
  entries : ∀ other, other ≠ id → after.entries[other]? = registry.entries[other]?
  mutexes : ∀ other, other ≠ id → ∀ address, registry.entries[other]? = some address →
    after.mutex address = registry.mutex address
  held : ∀ other, other ≠ id → after.held other = registry.held other
  awaited : ∀ other, other ≠ id → after.awaited other = registry.awaited other

namespace Elsewhere

theorem refl (id : LockId) (registry : LockRegistry) : Elsewhere id registry registry :=
  ⟨Nat.le_refl _, fun _ _ => rfl, fun _ _ _ _ => rfl, fun _ _ => rfl, fun _ _ => rfl⟩

theorem trans (first : Elsewhere id registry after) (second : Elsewhere id after last) :
    Elsewhere id registry last where
  grows := Nat.le_trans first.grows second.grows
  entries other hne := (second.entries other hne).trans (first.entries other hne)
  mutexes other hne address found :=
    (second.mutexes other hne address ((first.entries other hne).trans found)).trans
      (first.mutexes other hne address found)
  held other hne := (second.held other hne).trans (first.held other hne)
  awaited other hne := (second.awaited other hne).trans (first.awaited other hne)

end Elsewhere

/-- One name has been changed, and the references are in balance again. -/
structure Change (id : LockId) (rest : List MutexRef) (registry after : LockRegistry) : Prop where
  elsewhere : Elsewhere id registry after
  balanced : after.Balanced rest

theorem Change.trans (first : Change id pending registry after)
    (second : Change id rest after last) : Change id rest registry last :=
  ⟨first.elsewhere.trans second.elsewhere, second.balanced⟩

theorem isFor_iff : ref.isFor id = true ↔ ref.id = id := decide_eq_true_iff

theorem isFor_of_ne (same : ref.id = id) (hne : other ≠ id) : ¬ ref.isFor other = true :=
  fun h => hne ((isFor_iff.1 h).symm.trans same)

namespace Balanced

/-- The balance is kept if one name is changed and is in balance afterwards. -/
theorem of_elsewhere (balanced : registry.Balanced pending) (elsewhere : Elsewhere id registry after)
    (same : ∀ other, other ≠ id →
      rest.filter (MutexRef.isFor other) = pending.filter (MutexRef.isFor other))
    (own : after.Local rest id)
    (new : ∀ address, after.entries[id]? = some address →
      registry.entries[id]? = some address ∨ registry.nextAddress ≤ address) :
    after.Balanced rest where
  apart {first second address} hfirst hsecond := by
    have hself {other : LockId} (hne : other ≠ id) (hid : after.entries[id]? = some address)
        (hother : after.entries[other]? = some address) : False := by
      rw [elsewhere.entries other hne] at hother
      rcases new address hid with hold | hnew
      · exact hne (balanced.apart hother hold)
      · exact Nat.not_lt_of_le hnew ((balanced.names other).cell address hother).below
    by_cases h : first = id
    · by_cases h' : second = id
      · exact h.trans h'.symm
      · exact (hself h' (h ▸ hfirst) hsecond).elim
    · by_cases h' : second = id
      · exact (hself h (h' ▸ hsecond) hfirst).elim
      · rw [elsewhere.entries first h] at hfirst
        rw [elsewhere.entries second h'] at hsecond
        exact balanced.apart hfirst hsecond
  names other := by
    by_cases h : other = id
    · exact h ▸ own
    have hbefore := balanced.names other
    refine ⟨fun ref href => ?_, fun address found => ?_⟩
    · rw [elsewhere.held other h, elsewhere.awaited other h, same other h] at href
      rw [elsewhere.entries other h]
      exact hbefore.led ref href
    · rw [elsewhere.entries other h] at found
      have hcell := hbefore.cell address found
      have hmutex := elsewhere.mutexes other h address found
      refine ⟨Nat.lt_of_lt_of_le hcell.below elsewhere.grows, ?_, ?_, ?_, ?_⟩
      · rw [hmutex, elsewhere.held other h, elsewhere.awaited other h, same other h]
        exact hcell.counted
      · rw [hmutex, elsewhere.held other h]
        exact hcell.locked
      · rw [hmutex, elsewhere.awaited other h]
        exact hcell.queued
      · rw [hmutex]
        exact hcell.busy

/-- A reference is one to the mutex that its name leads to. -/
theorem found (balanced : registry.Balanced pending)
    (mem : ref ∈ registry.guards ++ registry.waiting ++ pending) :
    registry.entries[ref.id]? = some ref.address := by
  apply (balanced.names ref.id).led ref
  rw [held, awaited, ← List.filter_append, ← List.filter_append]
  exact List.mem_filter.2 ⟨mem, isFor_iff.2 rfl⟩

theorem address_eq (balanced : registry.Balanced pending)
    (found : registry.entries[id]? = some address)
    (mem : ref ∈ registry.guards ++ registry.waiting ++ pending) (same : ref.id = id) :
    ref.address = address := by
  subst same
  exact Option.some.inj ((balanced.found mem).symm.trans found)

/-- The mutex of a name is overwritten, and its references are passed around: the name is in balance
if the numbers fit. -/
theorem edit (balanced : registry.Balanced pending)
    (found : registry.entries[id]? = some address) (mutex : SharedMutex)
    (guards waiting : List MutexRef)
    (others : ∀ other, other ≠ id →
      guards.filter (MutexRef.isFor other) = registry.held other ∧
        waiting.filter (MutexRef.isFor other) = registry.awaited other ∧
          rest.filter (MutexRef.isFor other) = pending.filter (MutexRef.isFor other))
    (led : ∀ ref ∈ guards ++ waiting ++ rest, ref.id = id → ref.address = address)
    (counted : mutex.references = 1 + ((guards.filter (MutexRef.isFor id)).length +
      (waiting.filter (MutexRef.isFor id)).length + (rest.filter (MutexRef.isFor id)).length))
    (locked : (guards.filter (MutexRef.isFor id)).length = mutex.locked.toNat)
    (queued : mutex.waiters.map Waiter.ticket =
      (waiting.filter (MutexRef.isFor id)).map MutexRef.ticket)
    (busy : mutex.waiters ≠ [] → mutex.locked = true) :
    let after : LockRegistry :=
      { registry.setMutex address mutex with guards := guards, waiting := waiting }
    Change id rest registry after := by
  intro after
  have hmutex (place : Nat) : after.mutex place =
      if address = place then mutex else registry.mutex place :=
    mutex_setMutex registry address place mutex
  have helsewhere : Elsewhere id registry after := by
    refine ⟨Nat.le_refl _, fun _ _ => rfl, fun other hne place also => ?_,
      fun other hne => (others other hne).1, fun other hne => (others other hne).2.1⟩
    rw [hmutex, if_neg]
    rintro rfl
    exact hne (balanced.apart also found)
  refine ⟨helsewhere, balanced.of_elsewhere helsewhere (fun other hne => (others other hne).2.2)
    ⟨fun ref href => ?_, fun place hplace => ?_⟩ fun _ => Or.inl⟩
  · rw [held, awaited, ← List.filter_append, ← List.filter_append, List.mem_filter] at href
    rw [led ref href.1 (isFor_iff.1 href.2)]
    exact found
  · obtain rfl : address = place := Option.some.inj (found.symm.trans hplace)
    have hself : after.mutex address = mutex := (hmutex address).trans (if_pos rfl)
    have hbelow := ((balanced.names id).cell address found).below
    constructor
    · exact hbelow
    · rw [hself]
      exact counted
    · rw [hself]
      exact locked
    · rw [hself]
      exact queued
    · rw [hself]
      exact busy

end Balanced

/-! ## References -/

theorem filter_cons_elsewhere (ref : MutexRef) (same : ref.id = id) (hne : other ≠ id)
    (list : List MutexRef) :
    (ref :: list).filter (MutexRef.isFor other) = list.filter (MutexRef.isFor other) :=
  List.filter_cons_of_neg (isFor_of_ne same hne)

theorem filter_cons_own (ref : MutexRef) (same : ref.id = id) (list : List MutexRef) :
    (ref :: list).filter (MutexRef.isFor id) = ref :: list.filter (MutexRef.isFor id) :=
  List.filter_cons_of_pos (isFor_iff.2 same)

theorem reference_of_found (found : registry.entries[id]? = some address) :
    registry.reference id = (address, registry.setMutex address
      { registry.mutex address with references := (registry.mutex address).references + 1 }) := by
  simp only [LockRegistry.reference, found]

theorem reference_of_free (free : registry.entries[id]? = none) :
    registry.reference id = (registry.nextAddress,
      { registry.setMutex registry.nextAddress ⟨2, false, []⟩ with
        entries := registry.entries.insert id registry.nextAddress
        nextAddress := registry.nextAddress + 1 }) := by
  simp only [LockRegistry.reference, free]

namespace Balanced

/-- The references to a mutex are those under its name. -/
theorem isAt_eq (balanced : registry.Balanced pending)
    (found : registry.entries[id]? = some address) (ticket : Nat)
    (mem : ref ∈ registry.waiting) :
    ref.isAt address ticket = (ref.isFor id && decide (ref.ticket = ticket)) := by
  have hmem : ref ∈ registry.guards ++ registry.waiting ++ pending :=
    List.mem_append_left _ (List.mem_append_right _ mem)
  have hplace : ref.address = address ↔ ref.id = id := by
    constructor
    · intro same
      exact balanced.apart ((balanced.found hmem).trans (congrArg some same)) found
    · exact balanced.address_eq found hmem
  simp only [MutexRef.isAt, MutexRef.isFor, hplace]

/-- A reference to a mutex in use is taken and is on its way. -/
theorem reference_of_found (balanced : registry.Balanced pending)
    (found : registry.entries[id]? = some address) (ticket : Nat) :
    Change id (⟨ticket, id, address⟩ :: pending) registry (registry.reference id).2 := by
  have hcell := (balanced.names id).cell address found
  rw [LockRegistry.reference_of_found found]
  apply balanced.edit found _ registry.guards registry.waiting
  · exact fun other hne => ⟨rfl, rfl, filter_cons_elsewhere _ rfl hne _⟩
  · intro ref href same
    rcases List.mem_append.1 href with href | href
    · exact balanced.address_eq found (List.mem_append_left _ href) same
    rcases List.mem_cons.1 href with rfl | href
    · rfl
    · exact balanced.address_eq found (List.mem_append_right _ href) same
  · have hcounted := hcell.counted
    rw [filter_cons_own ⟨ticket, id, address⟩ rfl, List.length_cons]
    simp only [held, awaited] at hcounted ⊢
    omega
  · exact hcell.locked
  · exact hcell.queued
  · exact hcell.busy

/-- There are no references under a name without an entry. -/
theorem filter_of_free (balanced : registry.Balanced pending)
    (free : registry.entries[id]? = none) :
    registry.held id = [] ∧ registry.awaited id = [] ∧ pending.filter (MutexRef.isFor id) = [] := by
  have hnone : ∀ ref,
      ref ∉ registry.held id ++ registry.awaited id ++ pending.filter (MutexRef.isFor id) := by
    intro ref href
    cases free.symm.trans ((balanced.names id).led ref href)
  have hnil := List.eq_nil_iff_forall_not_mem.2 hnone
  rwa [List.append_eq_nil_iff, List.append_eq_nil_iff, and_assoc] at hnil

/-- A new mutex is made, with one reference in its entry and one on its way. -/
theorem reference_of_free (balanced : registry.Balanced pending)
    (free : registry.entries[id]? = none) (ticket : Nat) :
    Change id (⟨ticket, id, registry.nextAddress⟩ :: pending) registry
      (registry.reference id).2 := by
  obtain ⟨hheld, hawaited, hpending⟩ := balanced.filter_of_free free
  rw [LockRegistry.reference_of_free free]
  generalize hafter : ({ registry.setMutex registry.nextAddress ⟨2, false, []⟩ with
    entries := registry.entries.insert id registry.nextAddress
    nextAddress := registry.nextAddress + 1 } : LockRegistry) = after
  have hmutex (place : Nat) : after.mutex place =
      if registry.nextAddress = place then ⟨2, false, []⟩ else registry.mutex place := by
    rw [← hafter]
    exact mutex_setMutex registry registry.nextAddress place ⟨2, false, []⟩
  have hentries (other : LockId) : after.entries[other]? =
      if id = other then some registry.nextAddress else registry.entries[other]? := by
    rw [← hafter]
    simp only [Std.TreeMap.getElem?_insert, Std.LawfulEqOrd.compare_eq_iff_eq]
  have hguards : after.guards = registry.guards := by rw [← hafter]; rfl
  have hwaiting : after.waiting = registry.waiting := by rw [← hafter]; rfl
  have hnext : after.nextAddress = registry.nextAddress + 1 := by rw [← hafter]
  have helsewhere : Elsewhere id registry after := by
    refine ⟨?_, fun other hne => ?_, fun other hne place found => ?_, fun other _ => ?_,
      fun other _ => ?_⟩
    · rw [hnext]
      exact Nat.le_succ _
    · rw [hentries, if_neg (Ne.symm hne)]
    · rw [hmutex, if_neg]
      exact (Nat.ne_of_lt ((balanced.names other).cell place found).below).symm
    · rw [held, held, hguards]
    · rw [awaited, awaited, hwaiting]
  refine ⟨helsewhere, balanced.of_elsewhere helsewhere
    (fun other hne => filter_cons_elsewhere _ rfl hne _) ⟨?led, ?cell⟩ ?new⟩
  case led =>
    rw [held, awaited, hguards, hwaiting, ← held, ← awaited, hheld, hawaited,
      filter_cons_own ⟨ticket, id, _⟩ rfl, hpending, hentries, if_pos rfl]
    intro ref href
    rw [List.mem_singleton.1 href]
  case cell =>
    intro address found
    rw [hentries, if_pos rfl, Option.some.injEq] at found
    subst found
    constructor
    · rw [hnext]
      exact Nat.lt_succ_self _
    all_goals
      rw [held] at hheld
      rw [awaited] at hawaited
      simp only [held, awaited, hguards, hwaiting, hheld, hawaited, hmutex]
      simp [filter_cons_own, hpending]
  case new =>
    intro address found
    rw [hentries, if_pos rfl, Option.some.injEq] at found
    exact Or.inr (Nat.le_of_eq found)

/-! ## Locking and unlocking -/

/-- A reference on its way becomes that of a guard. -/
theorem lock (balanced : registry.Balanced (ref :: rest))
    (free : (registry.mutex ref.address).locked = false) :
    Change ref.id rest registry (registry.lock ref) := by
  have hfound := balanced.found (List.mem_append_right _ List.mem_cons_self)
  have hcell := (balanced.names ref.id).cell ref.address hfound
  have hheld : registry.guards.filter (MutexRef.isFor ref.id) = [] := by
    apply List.eq_nil_of_length_eq_zero
    exact hcell.locked.trans (congrArg Bool.toNat free)
  apply balanced.edit hfound _ (ref :: registry.guards) registry.waiting
  · exact fun other hne => ⟨filter_cons_elsewhere _ rfl hne _, rfl,
      (filter_cons_elsewhere _ rfl hne _).symm⟩
  · intro other hother same
    refine balanced.address_eq hfound ?_ same
    grind
  · have hcounted := hcell.counted
    rw [filter_cons_own ref rfl, List.length_cons] at hcounted ⊢
    simp only [held, awaited] at hcounted
    change (registry.mutex ref.address).references = _
    omega
  · rw [filter_cons_own ref rfl, hheld]
    rfl
  · exact hcell.queued
  · exact fun _ => rfl

/-- A reference on its way becomes that of an attempt that waits. -/
theorem enqueue (balanced : registry.Balanced (ref :: rest))
    (busy : (registry.mutex ref.address).locked = true) (deadline : Nat) :
    Change ref.id rest registry (registry.enqueue ref deadline) := by
  have hfound := balanced.found (List.mem_append_right _ List.mem_cons_self)
  have hcell := (balanced.names ref.id).cell ref.address hfound
  have hwaits (other : LockId) : (registry.waiting ++ [ref]).filter (MutexRef.isFor other) =
      registry.awaited other ++ [ref].filter (MutexRef.isFor other) :=
    List.filter_append ..
  apply balanced.edit hfound _ registry.guards (registry.waiting ++ [ref])
  · intro other hne
    refine ⟨rfl, ?_, (filter_cons_elsewhere _ rfl hne _).symm⟩
    rw [hwaits, filter_cons_elsewhere _ rfl hne, List.filter_nil, List.append_nil]
  · intro other hother same
    refine balanced.address_eq hfound ?_ same
    grind
  · have hcounted := hcell.counted
    rw [filter_cons_own ref rfl, List.length_cons] at hcounted
    rw [hwaits, filter_cons_own ref rfl, List.length_append, List.filter_nil, List.length_singleton]
    simp only [held] at hcounted
    change (registry.mutex ref.address).references = _
    omega
  · exact hcell.locked
  · rw [hwaits, filter_cons_own ref rfl, List.filter_nil, List.map_append, List.map_append,
      hcell.queued]
    rfl
  · exact fun _ => busy

/-- What is left when the reference of a guard is taken out of the list. -/
theorem erase_guard (balanced : registry.Balanced pending) (mem : guard ∈ registry.guards)
    (found : registry.entries[guard.id]? = some address) :
    registry.held guard.id = [guard] ∧
      (registry.guards.erase guard).filter (MutexRef.isFor guard.id) = [] ∧
        ∀ other, other ≠ guard.id →
          (registry.guards.erase guard).filter (MutexRef.isFor other) = registry.held other := by
  have hcell := (balanced.names guard.id).cell address found
  have hmem : guard ∈ registry.held guard.id := List.mem_filter.2 ⟨mem, isFor_iff.2 rfl⟩
  have hheld : registry.held guard.id = [guard] := by
    have hlength : (registry.held guard.id).length ≤ 1 :=
      Nat.le_trans (Nat.le_of_eq hcell.locked) (Bool.toNat_le _)
    obtain ⟨single, hsingle⟩ := List.length_eq_one_iff.1
      (Nat.le_antisymm hlength (List.length_pos_of_mem hmem))
    rw [hsingle] at hmem ⊢
    rw [List.mem_singleton.1 hmem]
  refine ⟨hheld, ?_, fun other hne => ?_⟩
  · have hsplit := (List.perm_cons_erase mem).filter (MutexRef.isFor guard.id)
    rw [filter_cons_own guard rfl] at hsplit
    have hlength := hsplit.length_eq
    rw [← held, hheld, List.length_cons, List.length_cons] at hlength
    exact List.eq_nil_of_length_eq_zero (Nat.succ.inj hlength).symm
  · rw [List.erase_eq_eraseP, held]
    apply filter_eraseP_of_not
    intro ref _ same
    rw [← eq_of_beq same]
    exact Bool.eq_false_iff.2 (isFor_of_ne rfl hne)

/-- What is left when a reference to a mutex is taken out of the attempts that wait. -/
theorem erase_waiting (balanced : registry.Balanced pending)
    (found : registry.entries[id]? = some address) (ticket : Nat) :
    (registry.waiting.eraseP (MutexRef.isAt address ticket)).filter (MutexRef.isFor id) =
        (registry.awaited id).eraseP (fun ref => ref.ticket = ticket) ∧
      ∀ other, other ≠ id →
        (registry.waiting.eraseP (MutexRef.isAt address ticket)).filter (MutexRef.isFor other) =
          registry.awaited other := by
  refine ⟨filter_eraseP fun ref href => balanced.isAt_eq found ticket href,
    fun other hne => ?_⟩
  apply filter_eraseP_of_not
  intro ref href same
  rw [balanced.isAt_eq found ticket href, Bool.and_eq_true] at same
  exact Bool.eq_false_iff.2 (isFor_of_ne (isFor_iff.1 same.1) hne)

theorem unlock_of_alone (balanced : registry.Balanced pending) (mem : guard ∈ registry.guards)
    (alone : (registry.mutex guard.address).waiters = []) :
    (registry.unlock guard).1 = none ∧
      Change guard.id (guard :: pending) registry (registry.unlock guard).2 ∧
        (registry.unlock guard).2.held guard.id = [] := by
  have hfound := balanced.found (List.mem_append_left _ (List.mem_append_left _ mem))
  have hcell := (balanced.names guard.id).cell guard.address hfound
  obtain ⟨hheld, hleft, hothers⟩ := balanced.erase_guard mem hfound
  have hunlock : registry.unlock guard = (none,
      { registry.setMutex guard.address { registry.mutex guard.address with locked := false } with
        guards := registry.guards.erase guard }) := by
    simp only [LockRegistry.unlock, alone]
  rw [hunlock]
  refine ⟨rfl, ?_, hleft⟩
  apply balanced.edit hfound _ (registry.guards.erase guard) registry.waiting
  · exact fun other hne => ⟨hothers other hne, rfl, filter_cons_elsewhere _ rfl hne _⟩
  · intro ref href same
    refine balanced.address_eq hfound ?_ same
    have hsub : ref ∈ registry.guards.erase guard → ref ∈ registry.guards :=
      List.mem_of_mem_erase
    grind
  · have hcounted := hcell.counted
    rw [hheld] at hcounted
    rw [filter_cons_own guard rfl, hleft, List.length_cons]
    simp only [awaited, List.length_singleton] at hcounted
    change (registry.mutex guard.address).references = _
    rw [List.length_nil]
    omega
  · rw [hleft]
    rfl
  · exact hcell.queued
  · exact fun busy => (busy alone).elim

/-- The first in the queue of a mutex is the first of the attempts that wait under its name. -/
theorem exists_heir (balanced : registry.Balanced pending)
    (found : registry.entries[id]? = some address) {next : Waiter} {others : List Waiter}
    (waits : (registry.mutex address).waiters = next :: others) :
    ∃ heir heirs, registry.awaited id = heir :: heirs ∧ heir.ticket = next.ticket ∧
      heir.id = id ∧ heir.address = address ∧ heirs.map MutexRef.ticket = others.map Waiter.ticket ∧
        registry.waiting.find? (MutexRef.isAt address next.ticket) = some heir := by
  have hqueued := ((balanced.names id).cell address found).queued
  rw [waits, List.map_cons] at hqueued
  obtain ⟨heir, heirs, hawaited, hticket, hheirs⟩ := List.map_eq_cons_iff.1 hqueued.symm
  have hmem : heir ∈ registry.awaited id := hawaited ▸ List.mem_cons_self
  obtain ⟨hwaiting, hfor⟩ := List.mem_filter.1 hmem
  refine ⟨heir, heirs, hawaited, hticket, isFor_iff.1 hfor, ?_, hheirs, ?_⟩
  · refine balanced.address_eq found ?_ (isFor_iff.1 hfor)
    exact List.mem_append_left _ (List.mem_append_right _ hwaiting)
  · rw [find?_eq_find?_filter fun ref href => balanced.isAt_eq found next.ticket href]
    change (registry.awaited id).find? _ = _
    rw [hawaited]
    exact List.find?_cons_of_pos (decide_eq_true hticket)

/-- The first of those that wait gets the mutex. -/
theorem unlock_of_heir (balanced : registry.Balanced pending) (mem : guard ∈ registry.guards)
    {next : Waiter} {others : List Waiter}
    (waits : (registry.mutex guard.address).waiters = next :: others) :
    (registry.unlock guard).1 = some next.ticket ∧
      Change guard.id (guard :: pending) registry (registry.unlock guard).2 ∧
        ((registry.unlock guard).2.mutex guard.address).waiters = others ∧
          ∃ heir, heir.ticket = next.ticket ∧ heir.address = guard.address ∧
            (registry.unlock guard).2.held guard.id = [heir] := by
  have hfound := balanced.found (List.mem_append_left _ (List.mem_append_left _ mem))
  have hcell := (balanced.names guard.id).cell guard.address hfound
  have hbusy : (registry.mutex guard.address).locked = true :=
    hcell.busy (by rw [waits]; exact List.cons_ne_nil _ _)
  obtain ⟨hheld, hleft, hothers⟩ := balanced.erase_guard mem hfound
  obtain ⟨heir, heirs, hawaited, hticket, hid, haddress, hheirs, hfirst⟩ :=
    balanced.exists_heir hfound waits
  obtain ⟨hown, hwaits⟩ := balanced.erase_waiting hfound next.ticket
  rw [hawaited] at hown
  replace hown := hown.trans (List.eraseP_cons_of_pos (decide_eq_true hticket))
  have hunlock : registry.unlock guard = (some next.ticket,
      { registry.setMutex guard.address { registry.mutex guard.address with waiters := others } with
        guards := heir :: registry.guards.erase guard
        waiting := registry.waiting.eraseP (MutexRef.isAt guard.address next.ticket) }) := by
    simp only [LockRegistry.unlock, waits, hfirst]
    rfl
  rw [hunlock]
  refine ⟨rfl, ?change, ?_, heir, hticket, haddress, ?_⟩
  case change =>
    apply balanced.edit hfound _ (heir :: registry.guards.erase guard)
    · intro other hne
      refine ⟨?_, hwaits other hne, filter_cons_elsewhere _ rfl hne _⟩
      rw [filter_cons_elsewhere heir hid hne, hothers other hne]
    · intro ref href same
      refine balanced.address_eq hfound ?_ same
      have hsub : ref ∈ registry.guards.erase guard → ref ∈ registry.guards :=
        List.mem_of_mem_erase
      have hsub' : ref ∈ registry.waiting.eraseP (MutexRef.isAt guard.address next.ticket) →
          ref ∈ registry.waiting :=
        List.mem_of_mem_eraseP
      grind
    · have hcounted := hcell.counted
      rw [hheld, hawaited, List.length_cons, List.length_cons, List.length_nil] at hcounted
      rw [filter_cons_own heir hid, filter_cons_own guard rfl, hleft, hown, List.length_cons,
        List.length_cons, List.length_nil]
      change (registry.mutex guard.address).references = _
      omega
    · rw [filter_cons_own heir hid, hleft]
      exact (congrArg Bool.toNat hbusy).symm
    · rw [hown]
      exact hheirs.symm
    · exact fun _ => hbusy
  · exact congrArg SharedMutex.waiters ((mutex_setMutex ..).trans (if_pos rfl))
  · exact (filter_cons_own heir hid _).trans (congrArg _ hleft)

/-- An attempt that waits no longer has its reference on its way. -/
theorem cancel (balanced : registry.Balanced pending) (mem : ref ∈ registry.waiting) :
    Change ref.id (ref :: pending) registry (registry.cancel ref) ∧
      (registry.cancel ref).held ref.id = registry.held ref.id ∧
        ((registry.cancel ref).mutex ref.address).waiters =
          (registry.mutex ref.address).waiters.eraseP
            fun waiter => waiter.ticket = ref.ticket := by
  have hfound := balanced.found (List.mem_append_left _ (List.mem_append_right _ mem))
  have hcell := (balanced.names ref.id).cell ref.address hfound
  obtain ⟨hown, hwaits⟩ := balanced.erase_waiting hfound ref.ticket
  refine ⟨?change, rfl, congrArg SharedMutex.waiters ((mutex_setMutex ..).trans (if_pos rfl))⟩
  apply balanced.edit hfound _ registry.guards
    (registry.waiting.eraseP (MutexRef.isAt ref.address ref.ticket))
  · exact fun other hne => ⟨rfl, hwaits other hne, filter_cons_elsewhere _ rfl hne _⟩
  · intro other hother same
    refine balanced.address_eq hfound ?_ same
    have hsub : other ∈ registry.waiting.eraseP (MutexRef.isAt ref.address ref.ticket) →
        other ∈ registry.waiting :=
      List.mem_of_mem_eraseP
    grind
  · have hcounted := hcell.counted
    have hmem : ref ∈ registry.awaited ref.id := List.mem_filter.2 ⟨mem, isFor_iff.2 rfl⟩
    have hpos := List.length_pos_of_mem hmem
    rw [hown, List.length_eraseP_of_mem hmem (decide_eq_true rfl), filter_cons_own ref rfl,
      List.length_cons]
    change (registry.mutex ref.address).references = _
    simp only [held] at hcounted
    omega
  · exact hcell.locked
  · rw [hown]
    calc ((registry.mutex ref.address).waiters.eraseP
          fun waiter => waiter.ticket = ref.ticket).map Waiter.ticket
      _ = ((registry.mutex ref.address).waiters.map Waiter.ticket).eraseP
          (fun ticket => ticket = ref.ticket) := by rw [List.eraseP_map]; rfl
      _ = ((registry.awaited ref.id).map MutexRef.ticket).eraseP
          (fun ticket => ticket = ref.ticket) := by rw [hcell.queued]
      _ = _ := by rw [List.eraseP_map]; rfl
  · exact fun some => hcell.busy fun none => some (by rw [none]; rfl)

/-! ## Dropping references -/

/-- A reference on its way is given back. -/
theorem dereference (balanced : registry.Balanced (ref :: rest)) :
    Change ref.id rest registry (registry.dereference ref.address) := by
  have hfound := balanced.found (List.mem_append_right _ List.mem_cons_self)
  have hcell := (balanced.names ref.id).cell ref.address hfound
  have hcounted := hcell.counted
  rw [filter_cons_own ref rfl, List.length_cons] at hcounted
  rw [LockRegistry.dereference, if_neg (by omega)]
  apply balanced.edit hfound _ registry.guards registry.waiting
  · exact fun other hne => ⟨rfl, rfl, (filter_cons_elsewhere _ rfl hne _).symm⟩
  · intro other hother same
    refine balanced.address_eq hfound ?_ same
    grind
  · change (registry.mutex ref.address).references - 1 = _
    simp only [held, awaited] at hcounted
    omega
  · exact hcell.locked
  · exact hcell.queued
  · exact hcell.busy

theorem prune_of_shared (found : registry.entries[id]? = some address)
    (shared : (registry.mutex address).references ≠ 1) : registry.prune id = registry := by
  simp only [LockRegistry.prune, found, if_neg shared]

/-- An entry that has the only reference to its mutex is removed, and the mutex with it. -/
theorem prune_of_single (balanced : registry.Balanced [])
    (found : registry.entries[id]? = some address)
    (single : (registry.mutex address).references = 1) :
    Change id [] registry (registry.prune id) ∧ (registry.prune id).entries[id]? = none := by
  generalize hafter : registry.prune id = after
  have hprune : after =
      { registry with
        entries := registry.entries.erase id
        mutexes := registry.mutexes.erase address } := by
    rw [← hafter]
    simp only [LockRegistry.prune, found, if_pos single]
    exact if_pos (Nat.le_of_eq single)
  have hmutex (place : Nat) (hne : address ≠ place) :
      after.mutex place = registry.mutex place := by
    rw [hprune]
    simp [LockRegistry.mutex, Std.TreeMap.getD_erase, hne]
  have hentries (other : LockId) : after.entries[other]? =
      if id = other then none else registry.entries[other]? := by
    rw [hprune]
    simp only [Std.TreeMap.getElem?_erase, Std.LawfulEqOrd.compare_eq_iff_eq]
  have hheld (other : LockId) : after.held other = registry.held other := by rw [hprune]; rfl
  have hawaited (other : LockId) : after.awaited other = registry.awaited other := by
    rw [hprune]; rfl
  have helsewhere : Elsewhere id registry after := by
    refine ⟨Nat.le_of_eq (by rw [hprune]), fun other hne => ?_,
      fun other hne place also => hmutex place ?_, fun other _ => hheld other,
      fun other _ => hawaited other⟩
    · rw [hentries, if_neg (Ne.symm hne)]
    · rintro rfl
      exact hne (balanced.apart also found)
  have hnone : after.entries[id]? = none := (hentries id).trans (if_pos rfl)
  have hcounted := ((balanced.names id).cell address found).counted
  refine ⟨⟨helsewhere, balanced.of_elsewhere helsewhere (fun _ _ => rfl) ⟨?_, ?_⟩ ?_⟩, hnone⟩
  · intro ref href
    have hpos := List.length_pos_of_mem href
    rw [hheld, hawaited, List.length_append, List.length_append] at hpos
    omega
  all_goals
    rw [hnone]
    intro _ found
    cases found

/-- The entry of a name is removed or stays, according to whether its mutex is in use. -/
theorem prune (balanced : registry.Balanced []) (id : LockId) :
    Change id [] registry (registry.prune id) ∧
      ∀ address, (registry.prune id).entries[id]? = some address →
        registry.prune id = registry ∧ 1 < (registry.mutex address).references := by
  cases hfound : registry.entries[id]? with
  | none =>
      have hsame : registry.prune id = registry := by simp only [LockRegistry.prune, hfound]
      rw [hsame, hfound]
      exact ⟨⟨Elsewhere.refl id registry, balanced⟩, fun _ h => by cases h⟩
  | some address =>
      by_cases single : (registry.mutex address).references = 1
      · obtain ⟨hchange, hnone⟩ := balanced.prune_of_single hfound single
        rw [hnone]
        exact ⟨hchange, fun _ h => by cases h⟩
      · have hcounted := ((balanced.names id).cell address hfound).counted
        rw [prune_of_shared hfound single, hfound]
        refine ⟨⟨Elsewhere.refl id registry, balanced⟩, fun place h => ⟨rfl, ?_⟩⟩
        cases h
        omega

end Balanced

end LockRegistry

end RecordRing
