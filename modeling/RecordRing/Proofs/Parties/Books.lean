import Mathlib.Data.List.Nodup
import RecordRing.Lock.Parties
import RecordRing.Proofs.Network.Exclusion

/-!
# The books of competing parties

How the lock table, the attempts that wait and the standings of the parties agree (`Parties.Books`).
Each thing that a party does keeps the books: it takes a lock (`Parties.Books.acquire`), gives one
back (`Parties.Books.release`) or lets time pass (`Parties.Books.advance`).

## Implementation notes

The books are kept against the list of all attempts in the order in which they began, so that the
ticket of an attempt is its place in this list.  Every attempt is made by a party of its own, which
stands for the guard that the attempt may end with; then a lock that changes hands is never followed
by another one.
-/

namespace RecordRing

theorem values_eq_map_toList {α β : Type} {cmp : α → α → Ordering} (map : Std.TreeMap α β cmp) :
    map.values = map.toList.map Prod.snd := by
  change Std.DTreeMap.Internal.Impl.values map.inner.inner =
    (Std.DTreeMap.Internal.Impl.Const.toList map.inner.inner).map _
  rw [Std.DTreeMap.Internal.Impl.values_eq_map_snd,
    Std.DTreeMap.Internal.Impl.Const.toList_eq_toListModel_map, List.map_map]
  rfl

/-! ## Lock tables -/

namespace LockTable

variable {table : LockTable} {id : LockId} {lock : HeldLock}

/-- What is left of a lock when tickets are taken out of queues. -/
theorem find?_withdrawn (leaving : List (LockId × Nat)) (table : LockTable) (id : LockId)
    (distinct : ∀ lock, table.find? id = some lock → (lock.waiters.map Waiter.ticket).Nodup) :
    (leaving.foldl (fun left (id, ticket) => left.withdraw id ticket) table).find? id =
      (table.find? id).map fun held =>
        { held with
          waiters := held.waiters.filter fun waiter => (id, waiter.ticket) ∉ leaving } := by
  induction leaving generalizing table with
  | nil =>
      simp only [List.foldl_nil, List.not_mem_nil, not_false_eq_true, decide_true, List.filter_true,
        Option.map_id']
  | cons first rest ih =>
      obtain ⟨other, ticket⟩ := first
      by_cases same : other = id
      · subst same
        have hfirst := (find?_withdraw_of_nodup distinct other ticket).trans (if_pos rfl)
        rw [List.foldl_cons, ih, hfirst, Option.map_map]
        · refine congrArg (Option.map · (table.find? other)) (funext fun held => ?_)
          simp only [Function.comp_apply, List.filter_filter, HeldLock.mk.injEq, true_and]
          refine List.filter_congr fun waiter _ => ?_
          simp only [List.mem_cons, Prod.mk.injEq, true_and, not_or, Bool.decide_and]
          exact Bool.and_comm _ _
        · intro lock hlock
          rw [hfirst] at hlock
          obtain ⟨before, hbefore, rfl⟩ := Option.map_eq_some_iff.1 hlock
          exact (distinct before hbefore).sublist (List.filter_sublist.map _)
      · have hfirst := (find?_withdraw table other id ticket).trans (if_neg same)
        have hother : ∀ waiter : Waiter,
            (id, waiter.ticket) ∉ (other, ticket) :: rest ↔ (id, waiter.ticket) ∉ rest := by
          intro waiter
          simp [Ne.symm same]
        rw [List.foldl_cons, ih _ (hfirst ▸ distinct), hfirst]
        simp only [hother]

/-- The waiters of a lock whose deadline has not come are left. -/
theorem find?_expire (found : table.find? id = some lock)
    (distinct : (lock.waiters.map Waiter.ticket).Nodup) (moment : Nat) :
    (table.expire moment).find? id =
      some { lock with waiters := lock.waiters.filter fun waiter => moment < waiter.deadline } := by
  rw [expire, find?_withdrawn _ _ _ fun other h => Option.some.inj (found.symm.trans h) ▸ distinct,
    found, Option.map_some]
  refine congrArg (fun waiters => some { lock with waiters := waiters })
    (List.filter_congr fun waiter hwaiter => ?_)
  refine decide_eq_decide.mpr ⟨fun stays => ?_, fun early due => ?_⟩
  · exact Nat.lt_of_not_le fun late =>
      stays (mem_due.mpr ⟨lock, found, waiter, hwaiter, late, rfl⟩)
  · obtain ⟨other, hother, waiter', hwaiter', hlate, hticket⟩ := mem_due.mp due
    cases found.symm.trans hother
    cases List.inj_on_of_nodup_map distinct hwaiter' hwaiter hticket
    exact absurd early (Nat.not_lt.mpr hlate)

theorem find?_expire_none (free : table.find? id = none) (moment : Nat) :
    (table.expire moment).find? id = none := by
  have hdistinct : ∀ lock, table.find? id = some lock → (lock.waiters.map Waiter.ticket).Nodup :=
    fun _ found => nomatch free.symm.trans found
  rw [expire, find?_withdrawn _ _ _ hdistinct, free, Option.map_none]

/-- The locks of a table, each of them once. -/
def ids (table : LockTable) : List LockId := table.registry.entries.keys

theorem length_ids (table : LockTable) : table.ids.length = table.size :=
  Std.TreeMap.length_keys

theorem nodup_ids (table : LockTable) : table.ids.Nodup :=
  Std.TreeMap.nodup_keys

theorem mem_ids : id ∈ table.ids ↔ (table.find? id).isSome := by
  rw [ids, Std.TreeMap.mem_keys, mem_entries]

end LockTable

/-! ## The passing of time -/

/-- How an attempt ends that is not granted in time. -/
def Attempt.lapsed (attempt : Attempt) : Standing :=
  .gaveUp (.lockTimeout attempt.id.key attempt.timeout)

namespace Parties

variable {parties before between after : Parties} {ticket : Nat} {attempt : Attempt}

/-- The parties whose attempts wait do not stand anywhere, and each of them waits only once. -/
structure Quiet (parties : Parties) : Prop where
  none : ∀ {ticket : Nat} {attempt : Attempt}, parties.attempts[ticket]? = some attempt →
    parties.standing? attempt.name = none
  apart : ∀ {ticket other : Nat} {attempt attempt' : Attempt},
    parties.attempts[ticket]? = some attempt → parties.attempts[other]? = some attempt' →
    attempt.name = attempt'.name → ticket = other

/-- What it means that some attempts have given up: they wait no longer, and their parties stand
accordingly. -/
structure GivesUp (late : List Nat) (before after : Parties) : Prop where
  table : after.table = before.table
  now : after.now = before.now
  nextTicket : after.nextTicket = before.nextTicket
  attempts : ∀ ticket attempt, after.attempts[ticket]? = some attempt ↔
    ticket ∉ late ∧ before.attempts[ticket]? = some attempt
  standing : ∀ name standing, after.standing? name = some standing ↔
    before.standing? name = some standing ∨ ∃ ticket ∈ late, ∃ attempt,
      before.attempts[ticket]? = some attempt ∧ attempt.name = name ∧ attempt.lapsed = standing

theorem GivesUp.nil (parties : Parties) : GivesUp [] parties parties :=
  ⟨rfl, rfl, rfl, by simp, by simp⟩

theorem GivesUp.trans {first rest : List Nat} (left : GivesUp first before between)
    (right : GivesUp rest between after) : GivesUp (first ++ rest) before after where
  table := right.table.trans left.table
  now := right.now.trans left.now
  nextTicket := right.nextTicket.trans left.nextTicket
  attempts ticket attempt := by
    rw [right.attempts, left.attempts, List.mem_append, not_or, ← and_assoc, and_comm (a := ¬_)]
  standing name standing := by
    rw [right.standing, left.standing, or_assoc]
    refine or_congr_right ⟨?_, ?_⟩
    · rintro (⟨ticket, hfirst, hattempt⟩ | ⟨ticket, hrest, attempt, hwaits, hstanding⟩)
      · exact ⟨ticket, List.mem_append_left _ hfirst, hattempt⟩
      · exact ⟨ticket, List.mem_append_right _ hrest, attempt, ((left.attempts _ _).mp hwaits).2,
          hstanding⟩
    · rintro ⟨ticket, hticket, attempt, hwaits, hstanding⟩
      by_cases hfirst : ticket ∈ first
      · exact Or.inl ⟨ticket, hfirst, attempt, hwaits, hstanding⟩
      · exact Or.inr ⟨ticket, (List.mem_append.mp hticket).resolve_left hfirst, attempt,
          (left.attempts _ _).mpr ⟨hfirst, hwaits⟩, hstanding⟩

theorem GivesUp.quiet {late : List Nat} (gives : GivesUp late before after)
    (quiet : before.Quiet) : after.Quiet where
  none {ticket attempt} hwaits := by
    obtain ⟨hstays, hbefore⟩ := (gives.attempts _ _).mp hwaits
    refine Option.eq_none_iff_forall_ne_some.mpr fun standing hstanding => ?_
    obtain hstood | ⟨other, hlate, attempt', hother, hname, -⟩ :=
      (gives.standing _ _).mp hstanding
    · cases (quiet.none hbefore).symm.trans hstood
    · exact hstays (quiet.apart hother hbefore hname ▸ hlate)
  apart hwaits hother :=
    quiet.apart ((gives.attempts _ _).mp hwaits).2 ((gives.attempts _ _).mp hother).2

theorem giveUp_givesUp (quiet : parties.Quiet) (ticket : Nat) :
    GivesUp [ticket] parties (parties.giveUp ticket) := by
  cases hticket : parties.attempts[ticket]? with
  | none =>
      simp only [giveUp, hticket]
      refine ⟨rfl, rfl, rfl, fun other attempt => ?_, fun name standing => ?_⟩
      · rw [List.mem_singleton]
        refine ⟨fun hother => ⟨?_, hother⟩, And.right⟩
        rintro rfl
        cases hticket.symm.trans hother
      · simp [hticket]
  | some attempt =>
      have hstanding : parties.standings[attempt.name]? = none := quiet.none hticket
      simp only [giveUp, hticket, conclude, standing?, hstanding]
      refine ⟨rfl, rfl, rfl, fun other attempt' => ?_, fun name standing => ?_⟩
      · simp only [Std.TreeMap.getElem?_erase, Std.LawfulEqOrd.compare_eq_iff_eq,
          List.mem_singleton]
        by_cases h : ticket = other
        · simp [h]
        · simp [h, Ne.symm h]
      · simp only [standing?, Std.TreeMap.getElem?_insert, Std.LawfulEqOrd.compare_eq_iff_eq,
          List.mem_singleton, exists_eq_left, hticket, Option.some.injEq, exists_eq_left']
        by_cases h : attempt.name = name
        · subst h
          simp [hstanding, Attempt.lapsed]
        · simp [h]

theorem foldl_giveUp (quiet : parties.Quiet) (late : List Nat) :
    GivesUp late parties (late.foldl giveUp parties) := by
  induction late generalizing parties with
  | nil => exact GivesUp.nil parties
  | cons ticket rest ih =>
      have hfirst := giveUp_givesUp quiet ticket
      exact hfirst.trans (ih (hfirst.quiet quiet))

/-- What it means that time has moved to a moment: the attempts whose deadline has come have given
up, and all others stay as they are. -/
structure Moves (moment : Nat) (before after : Parties) : Prop where
  now : after.now = moment
  nextTicket : after.nextTicket = before.nextTicket
  table : ∀ id, after.table.find? id = (before.table.find? id).map fun lock =>
    { lock with waiters := lock.waiters.filter fun waiter => moment < waiter.deadline }
  attempts : ∀ (ticket : Nat) (attempt : Attempt), after.attempts[ticket]? = some attempt ↔
    before.attempts[ticket]? = some attempt ∧ moment < attempt.deadline
  standing : ∀ name standing, after.standing? name = some standing ↔
    before.standing? name = some standing ∨ ∃ (ticket : Nat) (attempt : Attempt),
      before.attempts[ticket]? = some attempt ∧ attempt.deadline ≤ moment ∧ attempt.name = name ∧
        attempt.lapsed = standing

/-- To move to a moment by way of an earlier one is to move there. -/
theorem Moves.trans {first second : Nat} (left : Moves first before between)
    (right : Moves second between after) (le : first ≤ second) : Moves second before after where
  now := right.now
  nextTicket := right.nextTicket.trans left.nextTicket
  table id := by
    rw [right.table, left.table, Option.map_map]
    refine congrArg (Option.map · _) (funext fun lock => ?_)
    simp only [Function.comp_apply, List.filter_filter, HeldLock.mk.injEq, true_and]
    refine List.filter_congr fun waiter _ => ?_
    rw [← Bool.decide_and]
    refine decide_eq_decide.mpr (and_iff_left_of_imp fun early => Nat.lt_of_le_of_lt le early)
  attempts ticket attempt := by
    rw [right.attempts, left.attempts, and_assoc]
    exact and_congr_right fun _ => and_iff_right_of_imp fun early => Nat.lt_of_le_of_lt le early
  standing name standing := by
    rw [right.standing, left.standing, or_assoc]
    refine or_congr_right ⟨?_, ?_⟩
    · rintro (⟨ticket, attempt, hwaits, hlate, hrest⟩ | ⟨ticket, attempt, hwaits, hlate, hrest⟩)
      · exact ⟨ticket, attempt, hwaits, Nat.le_trans hlate le, hrest⟩
      · exact ⟨ticket, attempt, ((left.attempts _ _).mp hwaits).1, hlate, hrest⟩
    · rintro ⟨ticket, attempt, hwaits, hlate, hrest⟩
      rcases Nat.lt_or_ge first attempt.deadline with early | late
      · exact Or.inr ⟨ticket, attempt, (left.attempts _ _).mpr ⟨hwaits, early⟩, hlate, hrest⟩
      · exact Or.inl ⟨ticket, attempt, hwaits, late, hrest⟩

/-! ## The books -/

/-- How the lock table, the attempts that wait and the standings of the parties agree, after some
attempts have begun. -/
structure Books (begun : List Attempt) (parties : Parties) : Prop where
  /-- The tickets are the places of the attempts. -/
  tickets : parties.nextTicket = begun.length
  /-- Every attempt has a party of its own. -/
  names : (begun.map Attempt.name).Nodup
  /-- An attempt that waits has begun and stands in the queue of its lock. -/
  queued : ∀ {ticket : Nat} {attempt : Attempt}, parties.attempts[ticket]? = some attempt →
    begun[ticket]? = some attempt ∧ ∃ lock, parties.table.find? attempt.id = some lock ∧
      ⟨ticket, attempt.deadline⟩ ∈ lock.waiters
  /-- Those in the queue of a lock are attempts that wait for it. -/
  awaited : ∀ {id lock waiter}, parties.table.find? id = some lock → waiter ∈ lock.waiters →
    ∃ attempt, parties.attempts[waiter.ticket]? = some attempt ∧ attempt.id = id ∧
      attempt.deadline = waiter.deadline
  /-- The holder of a lock has begun before those that wait for it, and these in the order of the
  queue. -/
  ascending : ∀ {id lock}, parties.table.find? id = some lock →
    (lock.holder :: lock.waiters.map Waiter.ticket).Pairwise (· < ·)
  /-- The holder of a lock stands there. -/
  held : ∀ {id lock}, parties.table.find? id = some lock → ∃ attempt,
    begun[lock.holder]? = some attempt ∧ attempt.id = id ∧
      parties.standing? attempt.name = some (.held id)
  /-- One that stands at a lock is its holder. -/
  holding : ∀ {name id}, parties.standing? name = some (.held id) → ∃ lock attempt,
    parties.table.find? id = some lock ∧ begun[lock.holder]? = some attempt ∧ attempt.name = name
  /-- One that has given up is past its deadline. -/
  failed : ∀ {name failure}, parties.standing? name = some (.gaveUp failure) →
    ∃ (ticket : Nat) (attempt : Attempt),
      begun[ticket]? = some attempt ∧ attempt.name = name ∧ attempt.lapsed = .gaveUp failure ∧
        attempt.deadline ≤ parties.now
  /-- One that waits stands nowhere. -/
  none : ∀ {ticket : Nat} {attempt : Attempt}, parties.attempts[ticket]? = some attempt →
    parties.standing? attempt.name = none
  /-- One that waits is before its deadline. -/
  timely : ∀ {ticket : Nat} {attempt : Attempt}, parties.attempts[ticket]? = some attempt →
    parties.now < attempt.deadline
  /-- Where one waits, those who began later to take the same lock wait as well or have given up. -/
  ordered : ∀ {ticket later : Nat} {attempt attempt' : Attempt},
    parties.attempts[ticket]? = some attempt → ticket < later → begun[later]? = some attempt' →
    attempt'.id = attempt.id →
      parties.attempts[later]? = some attempt' ∨
        parties.standing? attempt'.name = some attempt'.lapsed

namespace Books

variable {begun : List Attempt} {name : String} {id : LockId} {lock : HeldLock}
  {moment timeout : Nat}

theorem empty : Books [] Parties.empty where
  tickets := rfl
  names := List.nodup_nil
  queued h := by simp [Parties.empty] at h
  awaited h := by simp [Parties.empty, LockTable.find?_empty] at h
  ascending h := by simp [Parties.empty, LockTable.find?_empty] at h
  held h := by simp [Parties.empty, LockTable.find?_empty] at h
  holding h := by simp [Parties.empty, standing?] at h
  failed h := by simp [Parties.empty, standing?] at h
  none h := by simp [Parties.empty] at h
  timely h := by simp [Parties.empty] at h
  ordered h := by simp [Parties.empty] at h

/-- A party has begun one attempt. -/
theorem unique (books : Books begun parties) {i j : Nat} {attempt attempt' : Attempt}
    (hi : begun[i]? = some attempt) (hj : begun[j]? = some attempt')
    (same : attempt.name = attempt'.name) : i = j := by
  have hi' : (begun.map Attempt.name)[i]? = some attempt.name := by simp [hi]
  have hj' : (begun.map Attempt.name)[j]? = some attempt.name := by simp [hj, same]
  obtain ⟨hlt, -⟩ := List.getElem?_eq_some_iff.mp hi'
  exact (List.getElem?_inj hlt books.names).mp (hi'.trans hj'.symm)

theorem quiet (books : Books begun parties) : parties.Quiet where
  none := books.none
  apart hwaits hother := books.unique (books.queued hwaits).1 (books.queued hother).1

/-- A party without an attempt stands nowhere. -/
theorem standing?_new (books : Books begun parties)
    (new : ∀ attempt ∈ begun, attempt.name ≠ name) : parties.standing? name = .none := by
  refine Option.eq_none_iff_forall_ne_some.mpr fun standing hstanding => ?_
  cases standing with
  | held id =>
      obtain ⟨lock, attempt, -, hattempt, hname⟩ := books.holding hstanding
      exact new attempt (List.mem_of_getElem? hattempt) hname
  | gaveUp failure =>
      obtain ⟨ticket, attempt, hattempt, hname, -⟩ := books.failed hstanding
      exact new attempt (List.mem_of_getElem? hattempt) hname

theorem mem_late (books : Books begun parties) (waits : parties.attempts[ticket]? = some attempt) :
    ticket ∈ (parties.table.due moment).map Prod.snd ↔ attempt.deadline ≤ moment := by
  rw [List.mem_map]
  constructor
  · rintro ⟨⟨id, _⟩, hdue, rfl⟩
    obtain ⟨lock, hfound, waiter, hwaiter, hlate, rfl⟩ := LockTable.mem_due.mp hdue
    obtain ⟨attempt', hwaits, -, hdeadline⟩ := books.awaited hfound hwaiter
    cases waits.symm.trans hwaits
    exact hdeadline ▸ hlate
  · intro hlate
    obtain ⟨-, lock, hfound, hwaiter⟩ := books.queued waits
    exact ⟨(attempt.id, ticket), LockTable.mem_due.mpr ⟨lock, hfound, _, hwaiter, hlate, rfl⟩, rfl⟩

theorem moves (books : Books begun parties) (moment : Nat) :
    Moves moment parties (parties.moveTo moment) := by
  have hquiet : Quiet { parties with table := parties.table.expire moment, now := moment } :=
    ⟨books.quiet.none, books.quiet.apart⟩
  obtain ⟨htable, hnow, hnext, hattempts, hstanding⟩ :=
    foldl_giveUp hquiet ((parties.table.due moment).map Prod.snd)
  refine ⟨hnow, hnext, fun id => ?_, fun ticket attempt => ?_, fun name standing => ?_⟩
  · rw [moveTo, htable]
    cases hfound : parties.table.find? id with
    | none => exact LockTable.find?_expire_none hfound moment
    | some lock =>
        exact LockTable.find?_expire hfound
          ((List.pairwise_cons.mp (books.ascending hfound)).2.imp Nat.ne_of_lt) moment
  · rw [moveTo, hattempts, and_comm]
    refine and_congr_right fun hwaits => ?_
    rw [books.mem_late hwaits, Nat.not_le]
  · rw [moveTo, hstanding]
    refine or_congr_right ⟨?_, ?_⟩
    · rintro ⟨ticket, hlate, attempt, hwaits, hname, hlapsed⟩
      exact ⟨ticket, attempt, hwaits, (books.mem_late hwaits).mp hlate, hname, hlapsed⟩
    · rintro ⟨ticket, attempt, hwaits, hlate, hname, hlapsed⟩
      exact ⟨ticket, (books.mem_late hwaits).mpr hlate, attempt, hwaits, hname, hlapsed⟩

theorem moveTo (books : Books begun parties) (later : parties.now ≤ moment) :
    Books begun (parties.moveTo moment) := by
  obtain ⟨hnow, hnext, htable, hattempts, hstanding⟩ := books.moves moment
  have hheld {name id} : (parties.moveTo moment).standing? name = some (.held id) ↔
      parties.standing? name = some (.held id) := by
    rw [hstanding]
    refine or_iff_left ?_
    rintro ⟨ticket, attempt, -, -, -, hlapsed⟩
    cases hlapsed
  have hfound {id lock} (h : (parties.moveTo moment).table.find? id = some lock) :
      ∃ lock', parties.table.find? id = some lock' ∧ lock'.holder = lock.holder ∧
        (lock'.waiters.filter fun waiter => moment < waiter.deadline) = lock.waiters := by
    rw [htable, Option.map_eq_some_iff] at h
    obtain ⟨lock', hlock', rfl⟩ := h
    exact ⟨lock', hlock', rfl, rfl⟩
  refine ⟨hnext.trans books.tickets, books.names, ?queued, ?awaited, ?ascending, ?held, ?holding,
    ?failed, ?none, ?timely, ?ordered⟩
  case queued =>
    intro ticket attempt hwaits
    obtain ⟨hwaits, hearly⟩ := (hattempts _ _).mp hwaits
    obtain ⟨hbegun, lock, hlock, hwaiter⟩ := books.queued hwaits
    refine ⟨hbegun, _, by rw [htable, hlock]; rfl, List.mem_filter.mpr ⟨hwaiter, ?_⟩⟩
    exact decide_eq_true hearly
  case awaited =>
    intro id lock waiter hlock hwaiter
    obtain ⟨lock', hlock', -, hwaiters⟩ := hfound hlock
    obtain ⟨hwaiter, hearly⟩ := List.mem_filter.mp (hwaiters ▸ hwaiter)
    obtain ⟨attempt, hwaits, hid, hdeadline⟩ := books.awaited hlock' hwaiter
    exact ⟨attempt, (hattempts _ _).mpr ⟨hwaits, hdeadline ▸ of_decide_eq_true hearly⟩, hid,
      hdeadline⟩
  case ascending =>
    intro id lock hlock
    obtain ⟨lock', hlock', hholder, hwaiters⟩ := hfound hlock
    rw [← hholder, ← hwaiters]
    exact (books.ascending hlock').sublist ((List.filter_sublist.map _).cons_cons _)
  case held =>
    intro id lock hlock
    obtain ⟨lock', hlock', hholder, -⟩ := hfound hlock
    obtain ⟨attempt, hbegun, hid, hstands⟩ := books.held hlock'
    exact ⟨attempt, hholder ▸ hbegun, hid, hheld.mpr hstands⟩
  case holding =>
    intro name id hstands
    obtain ⟨lock, attempt, hlock, hbegun, hname⟩ := books.holding (hheld.mp hstands)
    refine ⟨{ lock with waiters := lock.waiters.filter fun waiter => moment < waiter.deadline },
      attempt, ?_, hbegun, hname⟩
    rw [htable, hlock]
    rfl
  case failed =>
    intro name failure hstands
    rw [hnow]
    obtain hstood | ⟨ticket, attempt, hwaits, hlate, hname, hlapsed⟩ := (hstanding _ _).mp hstands
    · obtain ⟨ticket, attempt, hbegun, hname, hlapsed, hlate⟩ := books.failed hstood
      exact ⟨ticket, attempt, hbegun, hname, hlapsed, Nat.le_trans hlate later⟩
    · exact ⟨ticket, attempt, (books.queued hwaits).1, hname, hlapsed, hlate⟩
  case none =>
    intro ticket attempt hwaits
    obtain ⟨hwaits, hearly⟩ := (hattempts _ _).mp hwaits
    refine Option.eq_none_iff_forall_ne_some.mpr fun standing hstands => ?_
    obtain hstood | ⟨other, attempt', hother, hlate, hname, -⟩ := (hstanding _ _).mp hstands
    · cases (books.none hwaits).symm.trans hstood
    · cases books.quiet.apart hother hwaits hname
      cases hother.symm.trans hwaits
      exact absurd hearly (Nat.not_lt.mpr hlate)
  case timely =>
    intro ticket attempt hwaits
    rw [hnow]
    exact ((hattempts _ _).mp hwaits).2
  case ordered =>
    intro ticket later' attempt attempt' hwaits hlt hbegun hid
    obtain hother | hstood := books.ordered ((hattempts _ _).mp hwaits).1 hlt hbegun hid
    · rcases Nat.lt_or_ge moment attempt'.deadline with hearly | hlate
      · exact Or.inl ((hattempts _ _).mpr ⟨hother, hearly⟩)
      · exact Or.inr ((hstanding _ _).mpr (Or.inr ⟨later', attempt', hother, hlate, rfl, rfl⟩))
    · exact Or.inr ((hstanding _ _).mpr (Or.inl hstood))

/-- The next deadline is still to come. -/
theorem now_lt_of_nextDeadline? (books : Books begun parties)
    (next : parties.nextDeadline? = some moment) : parties.now < moment := by
  have hmem : moment ∈ parties.attempts.values.map Attempt.deadline := List.min?_mem next
  obtain ⟨attempt, hattempt, rfl⟩ := List.mem_map.mp hmem
  rw [values_eq_map_toList, List.mem_map] at hattempt
  obtain ⟨⟨ticket, _⟩, hentry, rfl⟩ := hattempt
  exact books.timely (Std.TreeMap.mem_toList_iff_getElem?_eq_some.mp hentry)

/-- However many deadlines are made out on the way, time moves to the moment. -/
theorem elapse (books : Books begun parties) (deadlines : Nat) (later : parties.now ≤ moment) :
    Moves moment parties (parties.elapse deadlines moment) ∧
      Books begun (parties.elapse deadlines moment) := by
  have hmoveTo {parties : Parties} (books : Books begun parties) (later : parties.now ≤ moment) :
      Moves moment parties (parties.moveTo moment) ∧ Books begun (parties.moveTo moment) :=
    ⟨books.moves moment, books.moveTo later⟩
  induction deadlines generalizing parties with
  | zero => exact hmoveTo books later
  | succ deadlines ih =>
      rw [Parties.elapse]
      split
      · rename_i next hnext
        split
        · rename_i hlt
          have hmoved := books.moveTo (Nat.le_of_lt (books.now_lt_of_nextDeadline? hnext))
          have hnow : (parties.moveTo next).now = next := (books.moves next).now
          obtain ⟨hmoves, hbooks⟩ := ih hmoved (Nat.le_trans (Nat.le_of_eq hnow) (Nat.le_of_lt hlt))
          exact ⟨(books.moves next).trans hmoves (Nat.le_of_lt hlt), hbooks⟩
        · exact hmoveTo books later
      · exact hmoveTo books later

theorem advance (books : Books begun parties) (millis : Nat) :
    Moves (parties.now + millis) parties (parties.advance millis) ∧
      Books begun (parties.advance millis) :=
  books.elapse _ (Nat.le_add_right _ _)

end Books

/-! ## Taking a lock -/

section Taking

variable {begun : List Attempt} {name : String} {id : LockId} {lock : HeldLock} {timeout : Nat}

theorem conclude_of_none (none : parties.standing? name = .none) (standing : Standing) :
    parties.conclude name standing =
      { parties with standings := parties.standings.insert name standing } := by
  simp only [standing?] at none
  simp only [conclude, standing?, none]

/-- A free lock is taken at once. -/
theorem acquire_of_free (free : parties.table.find? id = none)
    (none : parties.standing? name = .none) :
    parties.acquire name id timeout true =
      { parties with
        table := (parties.table.acquire id parties.now
          ⟨parties.nextTicket, parties.now + timeout⟩).2
        nextTicket := parties.nextTicket + 1
        standings := parties.standings.insert name (.held id) } := by
  obtain ⟨hgranted, -⟩ := LockTable.acquire_free free parties.now
    ⟨parties.nextTicket, parties.now + timeout⟩
  simp only [acquire, hgranted]
  rw [conclude_of_none]
  exact none

/-- A held lock is not awaited without time to wait. -/
theorem acquire_of_no_time (held : parties.table.find? id = some lock)
    (none : parties.standing? name = .none) :
    parties.acquire name id 0 true =
      { parties with
        table := (parties.table.acquire id parties.now ⟨parties.nextTicket, parties.now⟩).2
        nextTicket := parties.nextTicket + 1
        standings := parties.standings.insert name (.gaveUp (.lockTimeout id.key 0)) } := by
  have hacquire := LockTable.acquire_held held parties.now ⟨parties.nextTicket, parties.now⟩
  rw [if_pos (Nat.le_refl _)] at hacquire
  simp only [acquire, Nat.add_zero, hacquire.1]
  rw [conclude_of_none]
  exact none

/-- A held lock is awaited. -/
theorem acquire_of_held (held : parties.table.find? id = some lock) (time : 0 < timeout) :
    parties.acquire name id timeout true =
      { parties with
        table := (parties.table.acquire id parties.now
          ⟨parties.nextTicket, parties.now + timeout⟩).2
        nextTicket := parties.nextTicket + 1
        attempts := parties.attempts.insert parties.nextTicket
          ⟨name, id, timeout, parties.now + timeout⟩ } := by
  have hacquire := LockTable.acquire_held held parties.now
    ⟨parties.nextTicket, parties.now + timeout⟩
  rw [if_neg (Nat.not_le_of_lt (Nat.lt_add_of_pos_right time))] at hacquire
  simp only [acquire, hacquire.1, if_true]

/-- What the table looks like when a held lock is awaited. -/
theorem find?_of_held (held : parties.table.find? id = some lock) (time : 0 < timeout)
    (other : LockId) :
    (parties.table.acquire id parties.now
        ⟨parties.nextTicket, parties.now + timeout⟩).2.find? other =
      if id = other then
        some { lock with waiters := lock.waiters ++ [⟨parties.nextTicket, parties.now + timeout⟩] }
      else parties.table.find? other := by
  have hacquire := LockTable.acquire_held held parties.now
    ⟨parties.nextTicket, parties.now + timeout⟩
  rw [if_neg (Nat.not_le_of_lt (Nat.lt_add_of_pos_right time))] at hacquire
  exact hacquire.2 other

/-- What the table looks like when a held lock is not awaited. -/
theorem find?_of_no_time (held : parties.table.find? id = some lock) (other : LockId) :
    (parties.table.acquire id parties.now ⟨parties.nextTicket, parties.now⟩).2.find? other =
      parties.table.find? other := by
  have hacquire := LockTable.acquire_held held parties.now ⟨parties.nextTicket, parties.now⟩
  rw [if_pos (Nat.le_refl _)] at hacquire
  exact hacquire.2 other

end Taking

theorem getElem?_snoc {begun : List Attempt} {last : Attempt} :
    (begun ++ [last])[ticket]? = some attempt ↔
      begun[ticket]? = some attempt ∨ ticket = begun.length ∧ last = attempt := by
  rw [List.getElem?_append]
  split
  · rename_i h
    exact (or_iff_left fun ⟨heq, _⟩ => Nat.ne_of_lt h heq).symm
  · rename_i h
    rw [List.getElem?_eq_none (Nat.not_lt.mp h), List.getElem?_singleton]
    simp
    omega

theorem getElem?_insert_standing (parties : Parties) (name other : String) (standing : Standing) :
    (parties.standings.insert name standing)[other]? =
      if name = other then some standing else parties.standing? other := by
  simp [Std.TreeMap.getElem?_insert, standing?]

namespace Books

variable {begun : List Attempt} {name : String} {id : LockId} {lock : HeldLock} {timeout : Nat}

theorem lt_length (books : Books begun parties) (waits : parties.attempts[ticket]? = some attempt) :
    ticket < begun.length :=
  (List.getElem?_eq_some_iff.mp (books.queued waits).1).1

theorem name_ne (books : Books begun parties) (new : ∀ attempt ∈ begun, attempt.name ≠ name)
    (waits : parties.attempts[ticket]? = some attempt) : name ≠ attempt.name :=
  (new _ (List.mem_of_getElem? (books.queued waits).1)).symm

theorem names_snoc (books : Books begun parties) (new : ∀ attempt ∈ begun, attempt.name ≠ name)
    (id : LockId) (timeout deadline : Nat) :
    ((begun ++ [(⟨name, id, timeout, deadline⟩ : Attempt)]).map Attempt.name).Nodup := by
  rw [List.map_append, List.nodup_append]
  refine ⟨books.names, List.nodup_singleton _, fun other hother last hlast => ?_⟩
  obtain ⟨attempt, hattempt, rfl⟩ := List.mem_map.mp hother
  cases List.mem_singleton.mp hlast
  exact new attempt hattempt

theorem acquire_of_free (books : Books begun parties) (new : ∀ attempt ∈ begun, attempt.name ≠ name)
    (free : parties.table.find? id = .none) :
    Books (begun ++ [⟨name, id, timeout, parties.now + timeout⟩])
      (parties.acquire name id timeout true) := by
  have hother {ticket : Nat} {attempt : Attempt}
      (hwaits : parties.attempts[ticket]? = some attempt) : id ≠ attempt.id := by
    rintro rfl
    obtain ⟨-, lock, hlock, -⟩ := books.queued hwaits
    cases free.symm.trans hlock
  rw [Parties.acquire_of_free free (books.standing?_new new)]
  refine ⟨?tickets, books.names_snoc new .., ?queued, ?awaited, ?ascending, ?held, ?holding,
    ?failed, ?none, books.timely, ?ordered⟩
  all_goals
    simp only [(LockTable.acquire_free free _ _).2, standing?, getElem?_insert_standing,
      getElem?_snoc]
  case tickets => rw [books.tickets, List.length_append, List.length_singleton]
  case queued =>
    intro ticket attempt hwaits
    rw [if_neg (hother hwaits)]
    exact ⟨Or.inl (books.queued hwaits).1, (books.queued hwaits).2⟩
  case awaited =>
    intro id' lock waiter hlock hwaiter
    split at hlock
    · cases hlock
      cases hwaiter
    · exact books.awaited hlock hwaiter
  case ascending =>
    intro id' lock hlock
    split at hlock
    · cases hlock
      exact List.pairwise_singleton _ _
    · exact books.ascending hlock
  case held =>
    intro id' lock hlock
    split at hlock
    · rename_i same
      cases hlock
      exact ⟨_, Or.inr ⟨books.tickets, rfl⟩, same, by simp [same]⟩
    · obtain ⟨attempt, hbegun, hid, hstands⟩ := books.held hlock
      refine ⟨attempt, Or.inl hbegun, hid, ?_⟩
      rw [if_neg (new _ (List.mem_of_getElem? hbegun)).symm]
      exact hstands
  case holding =>
    intro other id' hstands
    split at hstands
    · rename_i same
      cases hstands
      exact ⟨_, _, if_pos rfl, Or.inr ⟨books.tickets, rfl⟩, same⟩
    · obtain ⟨lock, attempt, hlock, hbegun, hname⟩ := books.holding hstands
      refine ⟨lock, attempt, ?_, Or.inl hbegun, hname⟩
      rw [if_neg]
      · exact hlock
      · rintro rfl
        cases free.symm.trans hlock
  case failed =>
    intro other failure hstands
    split at hstands
    · cases hstands
    · obtain ⟨ticket, attempt, hbegun, hrest⟩ := books.failed hstands
      exact ⟨ticket, attempt, Or.inl hbegun, hrest⟩
  case none =>
    intro ticket attempt hwaits
    rw [if_neg (books.name_ne new hwaits)]
    exact books.none hwaits
  case ordered =>
    intro ticket later attempt attempt' hwaits hlt hbegun hid
    rcases hbegun with hbegun | ⟨-, rfl⟩
    · rw [if_neg (new _ (List.mem_of_getElem? hbegun)).symm]
      exact books.ordered hwaits hlt hbegun hid
    · exact absurd hid (hother hwaits)

theorem acquire_of_no_time (books : Books begun parties)
    (new : ∀ attempt ∈ begun, attempt.name ≠ name) (held : parties.table.find? id = some lock) :
    Books (begun ++ [⟨name, id, 0, parties.now + 0⟩]) (parties.acquire name id 0 true) := by
  rw [Parties.acquire_of_no_time held (books.standing?_new new)]
  refine ⟨?tickets, books.names_snoc new .., ?queued, ?awaited, ?ascending, ?held, ?holding,
    ?failed, ?none, books.timely, ?ordered⟩
  all_goals simp only [find?_of_no_time held, standing?, getElem?_insert_standing, getElem?_snoc]
  case awaited => exact books.awaited
  case ascending => exact books.ascending
  case tickets => rw [books.tickets, List.length_append, List.length_singleton]
  case queued =>
    intro ticket attempt hwaits
    exact ⟨Or.inl (books.queued hwaits).1, (books.queued hwaits).2⟩
  case held =>
    intro id' lock hlock
    obtain ⟨attempt, hbegun, hid, hstands⟩ := books.held hlock
    refine ⟨attempt, Or.inl hbegun, hid, ?_⟩
    rw [if_neg (new _ (List.mem_of_getElem? hbegun)).symm]
    exact hstands
  case holding =>
    intro other id' hstands
    split at hstands
    · cases hstands
    · obtain ⟨lock, attempt, hlock, hbegun, hname⟩ := books.holding hstands
      exact ⟨lock, attempt, hlock, Or.inl hbegun, hname⟩
  case failed =>
    intro other failure hstands
    split at hstands
    · rename_i same
      cases hstands
      exact ⟨_, _, Or.inr ⟨rfl, rfl⟩, same, rfl, Nat.le_refl _⟩
    · obtain ⟨ticket, attempt, hbegun, hrest⟩ := books.failed hstands
      exact ⟨ticket, attempt, Or.inl hbegun, hrest⟩
  case none =>
    intro ticket attempt hwaits
    rw [if_neg (books.name_ne new hwaits)]
    exact books.none hwaits
  case ordered =>
    intro ticket later attempt attempt' hwaits hlt hbegun hid
    rcases hbegun with hbegun | ⟨-, rfl⟩
    · rw [if_neg (new _ (List.mem_of_getElem? hbegun)).symm]
      exact books.ordered hwaits hlt hbegun hid
    · exact Or.inr (if_pos rfl)

theorem acquire_of_held (books : Books begun parties)
    (new : ∀ attempt ∈ begun, attempt.name ≠ name) (held : parties.table.find? id = some lock)
    (time : 0 < timeout) :
    Books (begun ++ [⟨name, id, timeout, parties.now + timeout⟩])
      (parties.acquire name id timeout true) := by
  have hattempts {ticket : Nat} {attempt last : Attempt} :
      (parties.attempts.insert parties.nextTicket last)[ticket]? = some attempt ↔
        parties.attempts[ticket]? = some attempt ∨ ticket = begun.length ∧ last = attempt := by
    simp only [Std.TreeMap.getElem?_insert, Std.LawfulEqOrd.compare_eq_iff_eq, books.tickets]
    split
    · rename_i h
      subst h
      simp only [Option.some.injEq, true_and]
      exact (or_iff_right fun hwaits => Nat.lt_irrefl _ (books.lt_length hwaits)).symm
    · rename_i h
      simp [Ne.symm h]
  rw [Parties.acquire_of_held held time]
  refine ⟨?tickets, books.names_snoc new .., ?queued, ?awaited, ?ascending, ?held, ?holding,
    ?failed, ?none, ?timely, ?ordered⟩
  all_goals simp only [find?_of_held held time, standing?, getElem?_snoc, hattempts]
  case tickets => rw [books.tickets, List.length_append, List.length_singleton]
  case queued =>
    rintro ticket attempt (hwaits | ⟨rfl, rfl⟩)
    · obtain ⟨hbegun, other, hother, hwaiter⟩ := books.queued hwaits
      refine ⟨Or.inl hbegun, ?_⟩
      split
      · rename_i same
        cases (same ▸ held).symm.trans hother
        exact ⟨_, rfl, List.mem_append_left _ hwaiter⟩
      · exact ⟨other, hother, hwaiter⟩
    · refine ⟨Or.inr ⟨rfl, rfl⟩, _, if_pos rfl, List.mem_append_right _ ?_⟩
      rw [books.tickets]
      exact List.mem_singleton_self _
  case awaited =>
    intro id' lock' waiter hlock hwaiter
    split at hlock
    · rename_i same
      subst same
      cases hlock
      rcases List.mem_append.mp hwaiter with hwaiter | hlast
      · obtain ⟨attempt, hwaits, hrest⟩ := books.awaited held hwaiter
        exact ⟨attempt, Or.inl hwaits, hrest⟩
      · cases List.mem_singleton.mp hlast
        exact ⟨_, Or.inr ⟨books.tickets, rfl⟩, rfl, rfl⟩
    · obtain ⟨attempt, hwaits, hrest⟩ := books.awaited hlock hwaiter
      exact ⟨attempt, Or.inl hwaits, hrest⟩
  case ascending =>
    intro id' lock' hlock
    split at hlock
    · cases hlock
      rw [List.map_append, ← List.cons_append, List.pairwise_append]
      refine ⟨books.ascending held, List.pairwise_singleton _ _, fun first hfirst last hlast => ?_⟩
      cases List.mem_singleton.mp hlast
      rw [books.tickets]
      rcases List.mem_cons.mp hfirst with rfl | hwaiter
      · obtain ⟨attempt, hbegun, -⟩ := books.held held
        exact (List.getElem?_eq_some_iff.mp hbegun).1
      · obtain ⟨waiter, hmem, rfl⟩ := List.mem_map.mp hwaiter
        obtain ⟨attempt, hwaits, -⟩ := books.awaited held hmem
        exact books.lt_length hwaits
    · exact books.ascending hlock
  case held =>
    intro id' lock' hlock
    have hold : ∃ old, parties.table.find? id' = some old ∧ old.holder = lock'.holder := by
      split at hlock
      · rename_i same
        subst same
        cases hlock
        exact ⟨lock, held, rfl⟩
      · exact ⟨lock', hlock, rfl⟩
    obtain ⟨old, hold, hholder⟩ := hold
    obtain ⟨attempt, hbegun, hrest⟩ := books.held hold
    exact ⟨attempt, Or.inl (hholder ▸ hbegun), hrest⟩
  case holding =>
    intro other id' hstands
    obtain ⟨lock', attempt, hlock, hbegun, hname⟩ := books.holding hstands
    split
    · rename_i same
      cases (same ▸ held).symm.trans hlock
      exact ⟨_, attempt, rfl, Or.inl hbegun, hname⟩
    · exact ⟨lock', attempt, hlock, Or.inl hbegun, hname⟩
  case failed =>
    intro other failure hstands
    obtain ⟨ticket, attempt, hbegun, hrest⟩ := books.failed hstands
    exact ⟨ticket, attempt, Or.inl hbegun, hrest⟩
  case none =>
    rintro ticket attempt (hwaits | ⟨rfl, rfl⟩)
    · exact books.none hwaits
    · exact books.standing?_new new
  case timely =>
    rintro ticket attempt (hwaits | ⟨rfl, rfl⟩)
    · exact books.timely hwaits
    · exact Nat.lt_add_of_pos_right time
  case ordered =>
    rintro ticket later attempt attempt' (hwaits | ⟨rfl, rfl⟩) hlt (hbegun | ⟨hlast, hattempt'⟩) hid
    · exact (books.ordered hwaits hlt hbegun hid).imp_left Or.inl
    · exact Or.inl (Or.inr ⟨hlast, hattempt'⟩)
    · exact absurd (List.getElem?_eq_some_iff.mp hbegun).1 (Nat.lt_asymm hlt)
    · exact absurd hlast (Nat.ne_of_gt hlt)

theorem acquire (books : Books begun parties) (new : ∀ attempt ∈ begun, attempt.name ≠ name)
    (id : LockId) (timeout : Nat) :
    Books (begun ++ [⟨name, id, timeout, parties.now + timeout⟩])
      (parties.acquire name id timeout true) := by
  cases hfound : parties.table.find? id with
  | none => exact books.acquire_of_free new hfound
  | some lock =>
      cases timeout with
      | zero => exact books.acquire_of_no_time new hfound
      | succ time => exact books.acquire_of_held new hfound (Nat.succ_pos time)

/-- Who begins to take a lock does not touch older attempts, other parties and other locks. -/
theorem acquire_keeps (books : Books begun parties) (new : ∀ attempt ∈ begun, attempt.name ≠ name)
    (id : LockId) (timeout : Nat) :
    (∀ ticket, ticket ≠ begun.length →
      (parties.acquire name id timeout true).attempts[ticket]? = parties.attempts[ticket]?) ∧
    (∀ other, name ≠ other →
      (parties.acquire name id timeout true).standing? other = parties.standing? other) ∧
    ∀ other, id ≠ other →
      (parties.acquire name id timeout true).table.find? other = parties.table.find? other := by
  have hnone := books.standing?_new new
  cases hfound : parties.table.find? id with
  | none =>
      rw [Parties.acquire_of_free hfound hnone]
      refine ⟨fun _ _ => rfl, fun other hne => ?_, fun other hne => ?_⟩
      · exact (getElem?_insert_standing ..).trans (if_neg hne)
      · exact ((LockTable.acquire_free hfound _ _).2 other).trans (if_neg hne)
  | some lock =>
      cases timeout with
      | zero =>
          rw [Parties.acquire_of_no_time hfound hnone]
          refine ⟨fun _ _ => rfl, fun other hne => ?_, fun other _ => find?_of_no_time hfound other⟩
          exact (getElem?_insert_standing ..).trans (if_neg hne)
      | succ time =>
          rw [Parties.acquire_of_held hfound (Nat.succ_pos time)]
          refine ⟨fun ticket hne => ?_, fun _ _ => rfl, fun other hne => ?_⟩
          · rw [books.tickets]
            simp [Std.TreeMap.getElem?_insert, Ne.symm hne]
          · exact (find?_of_held hfound (Nat.succ_pos time) other).trans (if_neg hne)

end Books

/-! ## Giving a lock back -/

section Giving

variable {begun : List Attempt} {name : String} {id : LockId} {holder : Nat} {next : Waiter}
  {rest : List Waiter}

/-- A lock that nobody waits for is free again. -/
theorem release_of_alone (stands : parties.standing? name = some (.held id))
    (found : parties.table.find? id = some ⟨holder, []⟩) :
    (parties.release name).2 =
      { parties with
        table := (parties.table.release id).2
        standings := parties.standings.erase name } := by
  have hnobody : (parties.table.release id).1 = none := LockTable.release_fst found
  simp only [release, stands]
  rw [giveBack.eq_def]
  simp only [hnobody, heir?, Option.bind_none]
  split
  · contradiction
  · rfl

/-- A lock that is awaited goes to the first of those who wait. -/
theorem release_of_heir (stands : parties.standing? name = some (.held id))
    (found : parties.table.find? id = some ⟨holder, next :: rest⟩)
    (waits : parties.attempts[next.ticket]? = some attempt)
    (none : parties.standing? attempt.name = none) :
    (parties.release name).2 =
      { parties with
        table := (parties.table.release id).2
        standings := (parties.standings.erase name).insert attempt.name (.held attempt.id)
        attempts := parties.attempts.erase next.ticket } := by
  have hsize : parties.attempts.size ≠ 0 := fun hzero => by
    have hempty : parties.attempts.isEmpty = true := by
      rw [Std.TreeMap.isEmpty_eq_size_eq_zero, hzero]
      rfl
    rw [Std.TreeMap.getElem?_of_isEmpty hempty] at waits
    cases waits
  have hnone : (parties.standings.erase name)[attempt.name]? = Option.none := by
    rw [Std.TreeMap.getElem?_erase]
    split
    · rfl
    · exact none
  have hnext : (parties.table.release id).1 = some next.ticket := LockTable.release_fst found
  obtain ⟨depth, hdepth⟩ := Nat.exists_eq_succ_of_ne_zero hsize
  simp only [release, stands, hdepth]
  rw [giveBack.eq_def]
  simp only [hnext, heir?, Option.bind_some, waits, Option.map_some, standing?,
    hnone]

/-- What the table looks like when a lock is given back that nobody waits for. -/
theorem find?_of_alone (found : parties.table.find? id = some ⟨holder, []⟩) (other : LockId) :
    (parties.table.release id).2.find? other =
      if id = other then none else parties.table.find? other := by
  rw [LockTable.find?_release, found]

/-- What the table looks like when a lock is given back that somebody waits for. -/
theorem find?_of_heir (found : parties.table.find? id = some ⟨holder, next :: rest⟩)
    (other : LockId) :
    (parties.table.release id).2.find? other =
      if id = other then some ⟨next.ticket, rest⟩ else parties.table.find? other := by
  rw [LockTable.find?_release, found]

theorem getElem?_erase_standing (parties : Parties) (name other : String) :
    (parties.standings.erase name)[other]? =
      if name = other then .none else parties.standing? other := by
  simp [Std.TreeMap.getElem?_erase, standing?]

end Giving

namespace Books

variable {begun : List Attempt} {name : String} {id : LockId} {holder : Nat} {next : Waiter}
  {rest : List Waiter}

/-- The locks that others hold are other locks. -/
theorem holder_unique (books : Books begun parties) {other : String}
    (stands : parties.standing? name = some (.held id))
    (stands' : parties.standing? other = some (.held id)) : name = other := by
  obtain ⟨lock, attempt, hlock, hbegun, rfl⟩ := books.holding stands
  obtain ⟨lock', attempt', hlock', hbegun', rfl⟩ := books.holding stands'
  cases hlock.symm.trans hlock'
  cases hbegun.symm.trans hbegun'
  rfl

/-- One that waits does not hold a lock. -/
theorem name_ne_of_waits (books : Books begun parties) {standing : Standing}
    (stands : parties.standing? name = some standing)
    (waits : parties.attempts[ticket]? = some attempt) : name ≠ attempt.name := by
  rintro rfl
  cases (books.none waits).symm.trans stands

theorem release_of_alone (books : Books begun parties)
    (stands : parties.standing? name = some (.held id))
    (found : parties.table.find? id = some ⟨holder, []⟩) :
    Books begun (parties.release name).2 := by
  have hother {ticket : Nat} {attempt : Attempt}
      (hwaits : parties.attempts[ticket]? = some attempt) : id ≠ attempt.id := by
    rintro rfl
    obtain ⟨-, lock, hlock, hwaiter⟩ := books.queued hwaits
    cases found.symm.trans hlock
    cases hwaiter
  rw [Parties.release_of_alone stands found]
  refine ⟨books.tickets, books.names, ?queued, ?awaited, ?ascending, ?held, ?holding, ?failed,
    ?none, books.timely, ?ordered⟩
  all_goals simp only [find?_of_alone found, standing?, getElem?_erase_standing]
  case queued =>
    intro ticket attempt hwaits
    rw [if_neg (hother hwaits)]
    exact books.queued hwaits
  case awaited =>
    intro id' lock waiter hlock hwaiter
    exact books.awaited (Option.ite_none_left_eq_some.mp hlock).2 hwaiter
  case ascending =>
    intro id' lock hlock
    exact books.ascending (Option.ite_none_left_eq_some.mp hlock).2
  case held =>
    intro id' lock hlock
    obtain ⟨hne, hlock⟩ := Option.ite_none_left_eq_some.mp hlock
    obtain ⟨attempt, hbegun, hid, hstands⟩ := books.held hlock
    refine ⟨attempt, hbegun, hid, Option.ite_none_left_eq_some.mpr ⟨?_, hstands⟩⟩
    rintro rfl
    cases stands.symm.trans hstands
    exact hne rfl
  case holding =>
    intro other id' hstands
    obtain ⟨hne, hstands⟩ := Option.ite_none_left_eq_some.mp hstands
    obtain ⟨lock, attempt, hlock, hrest⟩ := books.holding hstands
    refine ⟨lock, attempt, Option.ite_none_left_eq_some.mpr ⟨?_, hlock⟩, hrest⟩
    rintro rfl
    exact hne (books.holder_unique stands hstands)
  case failed =>
    intro other failure hstands
    exact books.failed (Option.ite_none_left_eq_some.mp hstands).2
  case none =>
    intro ticket attempt hwaits
    have hnone : parties.standings[attempt.name]? = .none := books.none hwaits
    rw [hnone, ite_self]
  case ordered =>
    intro ticket later attempt attempt' hwaits hlt hbegun hid
    refine (books.ordered hwaits hlt hbegun hid).imp_right fun hlapsed => ?_
    refine Option.ite_none_left_eq_some.mpr ⟨?_, hlapsed⟩
    rintro rfl
    cases stands.symm.trans hlapsed

theorem release_of_heir (books : Books begun parties)
    (stands : parties.standing? name = some (.held id))
    (found : parties.table.find? id = some ⟨holder, next :: rest⟩) :
    Books begun (parties.release name).2 := by
  obtain ⟨heir, hheir, hid, -⟩ := books.awaited found List.mem_cons_self
  have hbegun := (books.queued hheir).1
  have hascending := books.ascending found
  rw [List.map_cons, List.pairwise_cons, List.pairwise_cons] at hascending
  have hattempts {ticket : Nat} {attempt : Attempt} :
      (parties.attempts.erase next.ticket)[ticket]? = some attempt ↔
        next.ticket ≠ ticket ∧ parties.attempts[ticket]? = some attempt := by
    simp only [Std.TreeMap.getElem?_erase, Std.LawfulEqOrd.compare_eq_iff_eq,
      Option.ite_none_left_eq_some, ne_eq]
  have hstanding (other : String) :
      ((parties.standings.erase name).insert heir.name (.held heir.id))[other]? =
        if heir.name = other then some (.held id)
        else if name = other then .none else parties.standing? other := by
    simp only [Std.TreeMap.getElem?_insert, Std.LawfulEqOrd.compare_eq_iff_eq,
      getElem?_erase_standing, hid]
  have hkept {other : String} {standing : Standing} (hother : name ≠ other)
      (hstands : parties.standing? other = some standing) :
      (if heir.name = other then some (.held id)
        else if name = other then .none else parties.standing? other) = some standing := by
    rw [if_neg, if_neg hother, hstands]
    rintro rfl
    cases (books.none hheir).symm.trans hstands
  rw [Parties.release_of_heir stands found hheir (books.none hheir)]
  refine ⟨books.tickets, books.names, ?queued, ?awaited, ?ascending, ?held, ?holding, ?failed,
    ?none, ?timely, ?ordered⟩
  all_goals simp only [find?_of_heir found, standing?, hstanding, hattempts]
  case queued =>
    rintro ticket attempt ⟨hne, hwaits⟩
    obtain ⟨hbegun, lock, hlock, hwaiter⟩ := books.queued hwaits
    refine ⟨hbegun, ?_⟩
    split
    · rename_i same
      cases (same ▸ found).symm.trans hlock
      refine ⟨_, rfl, (List.mem_cons.mp hwaiter).resolve_left fun heq => hne ?_⟩
      rw [← heq]
    · exact ⟨lock, hlock, hwaiter⟩
  case awaited =>
    intro id' lock waiter hlock hwaiter
    split at hlock
    · rename_i same
      subst same
      cases hlock
      obtain ⟨attempt, hwaits, hrest⟩ := books.awaited found (List.mem_cons_of_mem _ hwaiter)
      refine ⟨attempt, ⟨?_, hwaits⟩, hrest⟩
      exact Nat.ne_of_lt (hascending.2.1 _ (List.mem_map_of_mem hwaiter))
    · rename_i hne
      obtain ⟨attempt, hwaits, hid', hdeadline⟩ := books.awaited hlock hwaiter
      refine ⟨attempt, ⟨fun heq => hne ?_, hwaits⟩, hid', hdeadline⟩
      cases hheir.symm.trans (heq ▸ hwaits)
      exact hid.symm.trans hid'
  case ascending =>
    intro id' lock hlock
    split at hlock
    · cases hlock
      exact List.pairwise_cons.mpr hascending.2
    · exact books.ascending hlock
  case held =>
    intro id' lock hlock
    split at hlock
    · rename_i same
      subst same
      cases hlock
      exact ⟨heir, hbegun, hid, if_pos rfl⟩
    · rename_i hne
      obtain ⟨attempt, hbegun, hid', hstands⟩ := books.held hlock
      refine ⟨attempt, hbegun, hid', hkept ?_ hstands⟩
      rintro rfl
      cases stands.symm.trans hstands
      exact hne rfl
  case holding =>
    intro other id' hstands
    split at hstands
    · rename_i same
      cases hstands
      exact ⟨_, heir, if_pos rfl, hbegun, same⟩
    · obtain ⟨hne, hstands⟩ := Option.ite_none_left_eq_some.mp hstands
      obtain ⟨lock, attempt, hlock, hrest⟩ := books.holding hstands
      refine ⟨lock, attempt, ?_, hrest⟩
      rw [if_neg]
      · exact hlock
      · rintro rfl
        exact hne (books.holder_unique stands hstands)
  case failed =>
    intro other failure hstands
    split at hstands
    · cases hstands
    · exact books.failed (Option.ite_none_left_eq_some.mp hstands).2
  case none =>
    rintro ticket attempt ⟨hne, hwaits⟩
    have hnone : parties.standings[attempt.name]? = .none := books.none hwaits
    rw [if_neg fun hname => hne (books.quiet.apart hheir hwaits hname), hnone, ite_self]
  case timely =>
    rintro ticket attempt ⟨-, hwaits⟩
    exact books.timely hwaits
  case ordered =>
    rintro ticket later attempt attempt' ⟨hne, hwaits⟩ hlt hbegun' hid'
    obtain hother | hlapsed := books.ordered hwaits hlt hbegun' hid'
    · -- The new holder has begun first, so it is not one of those who began later.
      refine Or.inl ⟨?_, hother⟩
      rintro rfl
      cases hheir.symm.trans hother
      obtain ⟨-, lock, hlock, hwaiter⟩ := books.queued hwaits
      rw [← hid', hid] at hlock
      cases found.symm.trans hlock
      rcases List.mem_cons.mp hwaiter with heq | hmem
      · exact hne (congrArg Waiter.ticket heq).symm
      · exact absurd (hascending.2.1 _ (List.mem_map_of_mem hmem)) (Nat.lt_asymm hlt)
    · refine Or.inr (hkept ?_ hlapsed)
      rintro rfl
      cases stands.symm.trans hlapsed

theorem release (books : Books begun parties) (stands : parties.standing? name = some (.held id)) :
    Books begun (parties.release name).2 := by
  obtain ⟨⟨holder, waiters⟩, attempt, hlock, -⟩ := books.holding stands
  cases waiters with
  | nil => exact books.release_of_alone stands hlock
  | cons next rest => exact books.release_of_heir stands hlock

/-- Who gives a lock back does not touch others, apart from the one that gets it. -/
theorem release_keeps (books : Books begun parties)
    (stands : parties.standing? name = some (.held id)) :
    (∀ (ticket : Nat) (attempt : Attempt),
      (parties.release name).2.attempts[ticket]? = some attempt →
        parties.attempts[ticket]? = some attempt) ∧
    (∀ (ticket : Nat) (attempt : Attempt), parties.attempts[ticket]? = some attempt →
      (parties.release name).2.attempts[ticket]? = some attempt ∨
        attempt.id = id ∧ (parties.release name).2.standing? attempt.name = some (.held id)) ∧
    (∀ other standing, (parties.release name).2.standing? other = some standing →
      name ≠ other ∧ (parties.standing? other = some standing ∨ standing = .held id)) ∧
    (∀ other standing, name ≠ other → parties.standing? other = some standing →
      (parties.release name).2.standing? other = some standing) ∧
    ∀ other, id ≠ other →
      (parties.release name).2.table.find? other = parties.table.find? other := by
  obtain ⟨⟨holder, waiters⟩, -, hlock, -⟩ := books.holding stands
  cases waiters with
  | nil =>
      rw [Parties.release_of_alone stands hlock]
      simp only [standing?, getElem?_erase_standing, find?_of_alone hlock,
        Option.ite_none_left_eq_some]
      refine ⟨fun _ _ h => h, fun _ _ h => Or.inl h, fun _ _ h => ⟨h.1, Or.inl h.2⟩,
        fun _ _ hne h => ⟨hne, h⟩, fun _ hne => if_neg hne⟩
  | cons next rest =>
      obtain ⟨heir, hheir, hid, -⟩ := books.awaited hlock List.mem_cons_self
      have hname : name ≠ heir.name := books.name_ne_of_waits stands hheir
      rw [Parties.release_of_heir stands hlock hheir (books.none hheir)]
      simp only [standing?, Std.TreeMap.getElem?_insert, Std.TreeMap.getElem?_erase,
        Std.LawfulEqOrd.compare_eq_iff_eq, find?_of_heir hlock, Option.ite_none_left_eq_some,
        hid]
      refine ⟨fun _ _ h => h.2, fun ticket attempt hwaits => ?_, fun other standing hstands => ?_,
        fun other standing hne hstands => ?_, fun _ hne => if_neg hne⟩
      · by_cases hnext : next.ticket = ticket
        · subst hnext
          cases hheir.symm.trans hwaits
          exact Or.inr ⟨hid, if_pos rfl⟩
        · exact Or.inl ⟨hnext, hwaits⟩
      · split at hstands
        · rename_i same
          exact ⟨same ▸ hname, Or.inr (Option.some.inj hstands).symm⟩
        · obtain ⟨hne, hstands⟩ := Option.ite_none_left_eq_some.mp hstands
          exact ⟨hne, Or.inl hstands⟩
      · rw [if_neg (books.name_ne_of_waits hstands hheir).symm, if_neg hne]
        exact hstands

end Books

end Parties

end RecordRing
