import RecordRing.Proofs.Parties.Books

/-!
# Locks go to those who asked first

What a whole course of parties that take locks, give them back and let time pass comes to.  A lock
is held by one party at a time, those who wait for it get it in the order in which they began, and
an attempt that is not granted in time has given up from its deadline on.  The mutexes behind the locks
keep up with this: a lock has an entry exactly as long as somebody is interested in it, all who are
refer to the mutex in the entry, and the references to it are counted right
(`Course.grants_in_order`).

## Implementation notes

A party that takes a lock goes on with other things; that it waits instead is no more than a course
in which time passes until its attempt has ended.
-/

namespace RecordRing

/-! ## Courses -/

/-- What parties do. -/
inductive Deed where
  /-- A party begins to take a lock, for which it waits so many milliseconds. -/
  | acquire (name : String) (id : LockId) (timeout : Nat)
  /-- A party gives back the lock that it holds. -/
  | release (name : String)
  /-- Some milliseconds pass. -/
  | advance (millis : Nat)

/-- The attempts to take locks, in the order in which they began, and what has become of them. -/
structure Course where
  /-- The attempts. -/
  begun : List Attempt
  /-- The locks and the parties. -/
  parties : Parties

namespace Course

/-- Nothing has begun. -/
def start : Course := ⟨[], Parties.empty⟩

/-- A party that takes a lock is a new one, and one that gives a lock back holds it. -/
def Allows (course : Course) : Deed → Prop
  | .acquire name _ _ => ∀ attempt ∈ course.begun, attempt.name ≠ name
  | .release name => ∃ id, course.parties.standing? name = some (.held id)
  | .advance _ => True

/-- The attempt that begins when a party takes a lock. -/
def attempt (course : Course) (name : String) (id : LockId) (timeout : Nat) : Attempt :=
  ⟨name, id, timeout, course.parties.now + timeout⟩

/-- What a deed makes of a course. -/
def after (course : Course) : Deed → Course
  | .acquire name id timeout =>
    ⟨course.begun ++ [course.attempt name id timeout], course.parties.acquire name id timeout true⟩
  | .release name => ⟨course.begun, (course.parties.release name).2⟩
  | .advance millis => ⟨course.begun, course.parties.advance millis⟩

/-- One course is continued by another. -/
inductive Leads (first : Course) : Course → Prop where
  | refl : Leads first first
  | step {course : Course} {deed : Deed} (leads : Leads first course)
    (allowed : course.Allows deed) : Leads first (course.after deed)

/-- An attempt waits for its lock. -/
def Waits (course : Course) (ticket : Nat) (attempt : Attempt) : Prop :=
  course.begun[ticket]? = some attempt ∧ course.parties.attempts[ticket]? = some attempt

/-- An attempt has ended with its lock, which has not been given back. -/
def Holds (course : Course) (ticket : Nat) (attempt : Attempt) : Prop :=
  course.begun[ticket]? = some attempt ∧
    course.parties.standing? attempt.name = some (.held attempt.id)

/-- An attempt has ended without its lock. -/
def TimedOut (course : Course) (ticket : Nat) (attempt : Attempt) : Prop :=
  course.begun[ticket]? = some attempt ∧
    course.parties.standing? attempt.name = some attempt.lapsed

instance (course : Course) (ticket : Nat) (attempt : Attempt) :
    Decidable (course.Waits ticket attempt) := inferInstanceAs (Decidable (_ ∧ _))

instance (course : Course) (ticket : Nat) (attempt : Attempt) :
    Decidable (course.Holds ticket attempt) := inferInstanceAs (Decidable (_ ∧ _))

instance (course : Course) (ticket : Nat) (attempt : Attempt) :
    Decidable (course.TimedOut ticket attempt) := inferInstanceAs (Decidable (_ ∧ _))

/-- The lock that a deed is about. -/
def concerns? (course : Course) : Deed → Option LockId
  | .acquire _ id _ => some id
  | .release name =>
    match course.parties.standing? name with
    | some (.held id) => some id
    | _ => none
  | .advance _ => none

/-- What holds at every moment of a course. -/
structure Fair (course : Course) : Prop where
  /-- A lock has one holder. -/
  exclusive : ∀ {i j a b}, course.Holds i a → course.Holds j b → a.id = b.id → i = j
  /-- A lock that is awaited is held. -/
  attended : ∀ {i a}, course.Waits i a → ∃ j b, course.Holds j b ∧ b.id = a.id
  /-- While an attempt waits, no later one has got the lock: it waits too, or it has given up. -/
  ordered : ∀ {i j a b}, course.Waits i a → i < j → course.begun[j]? = some b → b.id = a.id →
    course.Waits j b ∨ course.TimedOut j b
  /-- An attempt waits only before its deadline. -/
  waits : ∀ {i a}, course.Waits i a → course.parties.now < a.deadline ∧ ¬course.Holds i a
  /-- An attempt has given up only when its deadline has come, and it does not have the lock. -/
  timedOut : ∀ {i a}, course.TimedOut i a → a.deadline ≤ course.parties.now ∧ ¬course.Holds i a
  /-- The size of the table is the number of different locks that are held or awaited. -/
  counted : ∃ ids : List LockId, ids.Nodup ∧ course.parties.table.size = ids.length ∧
    ∀ id, id ∈ ids ↔ ∃ i a, a.id = id ∧ (course.Holds i a ∨ course.Waits i a)
  /-- The table is empty once no lock is held or awaited, and only then. -/
  empty : course.parties.table.isEmpty = true ↔ ∀ i a, ¬course.Holds i a ∧ ¬course.Waits i a
  /-- A lock has an entry while it is held or awaited, and only then. -/
  entered : ∀ {id}, id ∈ course.parties.table.registry.entries ↔
    ∃ i a, a.id = id ∧ (course.Holds i a ∨ course.Waits i a)
  /-- The guards that are alive are those of the attempts that hold a lock. -/
  guards : ∀ {i id}, (∃ guard ∈ course.parties.table.registry.guards,
    guard.ticket = i ∧ guard.id = id) ↔ ∃ a, a.id = id ∧ course.Holds i a
  /-- The references that wait are those of the attempts that wait. -/
  queues : ∀ {i id}, (∃ ref ∈ course.parties.table.registry.waiting,
    ref.ticket = i ∧ ref.id = id) ↔ ∃ a, a.id = id ∧ course.Waits i a
  /-- All who hold a lock or wait for it refer to the mutex in its entry. -/
  shared : ∀ ref ∈ course.parties.table.registry.guards ++ course.parties.table.registry.waiting,
    course.parties.table.registry.entries[ref.id]? = some ref.address
  /-- The mutex of an entry counts one reference for the entry and one for each of those who hold the
  lock or wait for it. -/
  references : ∀ {id address}, course.parties.table.registry.entries[id]? = some address →
    ∃ tickets : List Nat, tickets.Nodup ∧
      (course.parties.table.registry.mutex address).references = 1 + tickets.length ∧
      ∀ i, i ∈ tickets ↔ ∃ a, a.id = id ∧ (course.Holds i a ∨ course.Waits i a)

/-- What a deed changes. -/
structure Faithful (course : Course) (deed : Deed) : Prop where
  /-- A lock that nobody holds is granted at once. -/
  free : ∀ {name id timeout}, deed = .acquire name id timeout →
    (∀ j b, course.Holds j b → b.id ≠ id) →
      (course.after deed).Holds course.begun.length (course.attempt name id timeout)
  /-- A lock that is held is awaited if there is time. -/
  busy : ∀ {name id timeout j b}, deed = .acquire name id timeout → course.Holds j b → b.id = id →
    if 0 < timeout then
      (course.after deed).Waits course.begun.length (course.attempt name id timeout)
    else (course.after deed).TimedOut course.begun.length (course.attempt name id timeout)
  /-- An attempt that waits goes on waiting, or gets the lock from a party that gives it back. -/
  waits : ∀ {i a}, course.Waits i a → (∀ millis, deed ≠ .advance millis) →
    (course.after deed).Waits i a ∨ (course.after deed).Holds i a ∧
      ∃ j b, course.Holds j b ∧ b.id = a.id ∧ deed = .release b.name
  /-- An attempt gives up when its deadline comes, and not before. -/
  expires : ∀ {i a millis}, course.Waits i a → deed = .advance millis →
    if a.deadline ≤ course.parties.now + millis then (course.after deed).TimedOut i a
    else (course.after deed).Waits i a
  /-- A lock is held until it is given back. -/
  holds : ∀ {i a}, course.Holds i a →
    ((course.after deed).Holds i a ↔ deed ≠ .release a.name) ∧ ¬(course.after deed).Waits i a
  /-- An attempt that has given up stays without the lock. -/
  timedOut : ∀ {i a}, course.TimedOut i a → (course.after deed).TimedOut i a
  /-- What is done with one lock does not touch the attempts to take others. -/
  isolated : ∀ {id i a}, course.concerns? deed = some id → a.id ≠ id →
    ((course.after deed).Waits i a ↔ course.Waits i a) ∧
      ((course.after deed).Holds i a ↔ course.Holds i a) ∧
        ((course.after deed).TimedOut i a ↔ course.TimedOut i a)
  /-- What is done with one lock does not touch the entries of others. -/
  entries : ∀ {id other}, course.concerns? deed = some id → other ≠ id →
    (course.after deed).parties.table.find? other = course.parties.table.find? other

variable {course later : Course} {deed : Deed} {i j : Nat} {a b : Attempt} {name : String}
  {id : LockId} {timeout : Nat}

/-- The books of a course. -/
abbrev Books (course : Course) : Prop := Parties.Books course.begun course.parties

theorem Books.after (books : course.Books) (allowed : course.Allows deed) :
    (course.after deed).Books := by
  cases deed with
  | acquire name id timeout => exact Parties.Books.acquire books allowed id timeout
  | release name =>
      obtain ⟨id, hstands⟩ := allowed
      exact Parties.Books.release books hstands
  | advance millis => exact (Parties.Books.advance books millis).2

theorem Leads.books (leads : start.Leads course) : course.Books := by
  induction leads with
  | refl => exact Parties.Books.empty
  | step _ allowed ih => exact ih.after allowed

/-- The holder of a lock, according to the table. -/
theorem holds_iff (books : course.Books) :
    course.Holds i a ↔ course.begun[i]? = some a ∧
      ∃ lock, course.parties.table.find? a.id = some lock ∧ lock.holder = i := by
  refine and_congr_right fun hbegun => ⟨fun hstands => ?_, ?_⟩
  · obtain ⟨lock, attempt, hlock, hholder, hname⟩ := Parties.Books.holding books hstands
    exact ⟨lock, hlock, Parties.Books.unique books hholder hbegun hname⟩
  · rintro ⟨lock, hlock, rfl⟩
    obtain ⟨attempt, hholder, hid, hstands⟩ := Parties.Books.held books hlock
    cases hholder.symm.trans hbegun
    exact hstands

/-- The attempt that holds a lock is the holder in the table. -/
theorem exists_holds_iff (books : course.Books) :
    (∃ a, a.id = id ∧ course.Holds i a) ↔
      ∃ lock, course.parties.table.find? id = some lock ∧ lock.holder = i := by
  constructor
  · rintro ⟨a, rfl, hholds⟩
    exact ((holds_iff books).mp hholds).2
  · rintro ⟨lock, hlock, rfl⟩
    obtain ⟨attempt, hbegun, hid, hstands⟩ := Parties.Books.held books hlock
    exact ⟨attempt, hid, hbegun, hid ▸ hstands⟩

/-- The attempts that wait for a lock are those in its queue. -/
theorem exists_waits_iff (books : course.Books) :
    (∃ a, a.id = id ∧ course.Waits i a) ↔
      ∃ lock, course.parties.table.find? id = some lock ∧
        i ∈ lock.waiters.map Waiter.ticket := by
  constructor
  · rintro ⟨a, rfl, -, hwaits⟩
    obtain ⟨-, lock, hlock, hwaiter⟩ := Parties.Books.queued books hwaits
    exact ⟨lock, hlock, List.mem_map_of_mem hwaiter⟩
  · rintro ⟨lock, hlock, hticket⟩
    obtain ⟨waiter, hwaiter, rfl⟩ := List.mem_map.mp hticket
    obtain ⟨attempt, hwaits, hid, -⟩ := Parties.Books.awaited books hlock hwaiter
    exact ⟨attempt, hid, (Parties.Books.queued books hwaits).1, hwaits⟩

/-- The attempts at a lock are those that the table knows. -/
theorem mem_tickets (books : course.Books) {lock : HeldLock}
    (found : course.parties.table.find? id = some lock) :
    i ∈ lock.holder :: lock.waiters.map Waiter.ticket ↔
      ∃ a, a.id = id ∧ (course.Holds i a ∨ course.Waits i a) := by
  rw [List.mem_cons]
  constructor
  · rintro (rfl | hticket)
    · obtain ⟨a, hid, hholds⟩ := (exists_holds_iff books).mpr ⟨lock, found, rfl⟩
      exact ⟨a, hid, Or.inl hholds⟩
    · obtain ⟨a, hid, hwaits⟩ := (exists_waits_iff books).mpr ⟨lock, found, hticket⟩
      exact ⟨a, hid, Or.inr hwaits⟩
  · rintro ⟨a, hid, hholds | hwaits⟩
    · obtain ⟨lock', hlock, rfl⟩ := (exists_holds_iff books).mp ⟨a, hid, hholds⟩
      cases found.symm.trans hlock
      exact Or.inl rfl
    · obtain ⟨lock', hlock, hticket⟩ := (exists_waits_iff books).mp ⟨a, hid, hwaits⟩
      cases found.symm.trans hlock
      exact Or.inr hticket

/-- A lock in the table is held by somebody. -/
theorem holds_of_found (books : course.Books) {lock : HeldLock}
    (found : course.parties.table.find? id = some lock) : ∃ i a, course.Holds i a ∧ a.id = id := by
  obtain ⟨a, hid, hholds⟩ := (exists_holds_iff books).mpr ⟨lock, found, rfl⟩
  exact ⟨lock.holder, a, hholds, hid⟩

/-- The locks in the table are those that are held or awaited. -/
theorem isSome_find?_iff (books : course.Books) :
    (course.parties.table.find? id).isSome ↔
      ∃ i a, a.id = id ∧ (course.Holds i a ∨ course.Waits i a) := by
  rw [Option.isSome_iff_exists]
  constructor
  · rintro ⟨lock, hlock⟩
    exact ⟨lock.holder, (mem_tickets books hlock).mp List.mem_cons_self⟩
  · rintro ⟨i, a, hid, hholds | hwaits⟩
    · obtain ⟨lock, hlock, -⟩ := (exists_holds_iff books).mp ⟨a, hid, hholds⟩
      exact ⟨lock, hlock⟩
    · obtain ⟨lock, hlock, -⟩ := (exists_waits_iff books).mp ⟨a, hid, hwaits⟩
      exact ⟨lock, hlock⟩

theorem fair_of_books (books : course.Books) : course.Fair := by
  have hlocks (id : LockId) : (course.parties.table.find? id).isSome ↔
      ∃ i a, a.id = id ∧ (course.Holds i a ∨ course.Waits i a) := isSome_find?_iff books
  have hsound := course.parties.table.sound
  refine ⟨?exclusive, ?attended, ?ordered, ?waits, ?timedOut, ?counted, ?empty,
    LockTable.mem_entries.trans (hlocks _), hsound.mem_guards.trans (exists_holds_iff books).symm,
    hsound.mem_waiting.trans (exists_waits_iff books).symm,
    fun ref href => hsound.balanced.found (List.mem_append_left _ href), ?references⟩
  case exclusive =>
    intro i j a b hi hj hid
    obtain ⟨-, lock, hlock, rfl⟩ := (holds_iff books).mp hi
    obtain ⟨-, lock', hlock', rfl⟩ := (holds_iff books).mp hj
    cases (hid ▸ hlock).symm.trans hlock'
    rfl
  case attended =>
    intro i a hwaits
    obtain ⟨-, lock, hlock, -⟩ := Parties.Books.queued books hwaits.2
    exact holds_of_found books hlock
  case ordered =>
    intro i j a b hwaits hlt hbegun hid
    exact (Parties.Books.ordered books hwaits.2 hlt hbegun hid).imp (And.intro hbegun)
      (And.intro hbegun)
  case waits =>
    intro i a hwaits
    refine ⟨Parties.Books.timely books hwaits.2, fun hholds => ?_⟩
    cases (Parties.Books.none books hwaits.2).symm.trans hholds.2
  case timedOut =>
    rintro i a ⟨hbegun, hstands⟩
    refine ⟨?_, fun hholds => ?_⟩
    · obtain ⟨j, b, hbegun', hname, -, hlate⟩ := Parties.Books.failed books hstands
      cases Parties.Books.unique books hbegun' hbegun hname
      cases hbegun.symm.trans hbegun'
      exact hlate
    · cases hstands.symm.trans hholds.2
  case counted =>
    exact ⟨course.parties.table.ids, LockTable.nodup_ids _, (LockTable.length_ids _).symm,
      fun id => LockTable.mem_ids.trans (hlocks id)⟩
  case empty =>
    rw [LockTable.isEmpty_iff]
    constructor
    · intro hfree i a
      refine ⟨fun hholds => ?_, fun hwaits => ?_⟩
      · exact absurd ((hlocks a.id).mpr ⟨i, a, rfl, Or.inl hholds⟩) (by simp [hfree])
      · exact absurd ((hlocks a.id).mpr ⟨i, a, rfl, Or.inr hwaits⟩) (by simp [hfree])
    · intro hnobody id
      refine Option.not_isSome_iff_eq_none.mp fun hsome => ?_
      obtain ⟨i, a, -, hholds | hwaits⟩ := (hlocks id).mp hsome
      · exact (hnobody i a).1 hholds
      · exact (hnobody i a).2 hwaits
  case references =>
    intro id address found
    obtain ⟨lock, hlock, hreferences⟩ := hsound.references found
    refine ⟨_, ?_, hreferences, fun i => mem_tickets books hlock⟩
    exact (Parties.Books.ascending books hlock).imp Nat.ne_of_lt

/-- The last attempt and the earlier ones, when a party begins to take a lock. -/
theorem begun_after_acquire : (course.after (.acquire name id timeout)).begun[i]? = some a ↔
    course.begun[i]? = some a ∨ i = course.begun.length ∧ course.attempt name id timeout = a :=
  Parties.getElem?_snoc

/-- Who begins to take a lock does not touch older attempts. -/
theorem kept_of_acquire (books : course.Books) (allowed : course.Allows (.acquire name id timeout))
    (older : i ≠ course.begun.length) :
    ((course.after (.acquire name id timeout)).Waits i a ↔ course.Waits i a) ∧
      ((course.after (.acquire name id timeout)).Holds i a ↔ course.Holds i a) ∧
        ((course.after (.acquire name id timeout)).TimedOut i a ↔ course.TimedOut i a) := by
  obtain ⟨hattempts, hstanding, -⟩ := Parties.Books.acquire_keeps books allowed id timeout
  have hbegun : (course.after (.acquire name id timeout)).begun[i]? = some a ↔
      course.begun[i]? = some a :=
    begun_after_acquire.trans (or_iff_left fun last => older last.1)
  have hsame (hbegun : course.begun[i]? = some a) :
      (course.after (.acquire name id timeout)).parties.standing? a.name =
        course.parties.standing? a.name :=
    hstanding _ (allowed _ (List.mem_of_getElem? hbegun)).symm
  refine ⟨?_, ?_, ?_⟩
  · rw [Waits, Waits, hbegun]
    exact and_congr_right fun _ => Eq.congr_left (hattempts i older)
  · rw [Holds, Holds, hbegun]
    exact and_congr_right fun hbegun => by rw [hsame hbegun]
  · rw [TimedOut, TimedOut, hbegun]
    exact and_congr_right fun hbegun => by rw [hsame hbegun]

theorem faithful_acquire (books : course.Books)
    (allowed : course.Allows (.acquire name id timeout)) :
    course.Faithful (.acquire name id timeout) := by
  have hnone : course.parties.standing? name = none := Parties.Books.standing?_new books allowed
  have hlast : (course.after (.acquire name id timeout)).begun[course.begun.length]? =
      some (course.attempt name id timeout) := begun_after_acquire.mpr (Or.inr ⟨rfl, rfl⟩)
  have hold {i : Nat} {a : Attempt} (hbegun : course.begun[i]? = some a) :
      i ≠ course.begun.length :=
    Nat.ne_of_lt (List.getElem?_eq_some_iff.mp hbegun).1
  have hkept {i : Nat} {a : Attempt} (hbegun : course.begun[i]? = some a) :=
    kept_of_acquire (a := a) books allowed (hold hbegun)
  refine ⟨?free, ?busy, ?waits, ?expires, ?holds, ?timedOut, ?isolated, ?entries⟩
  case free =>
    rintro _ _ _ ⟨⟩ hnobody
    have hfree : course.parties.table.find? id = none := by
      refine Option.eq_none_iff_forall_ne_some.mpr fun lock hlock => ?_
      obtain ⟨j, b, hholds, hid⟩ := holds_of_found books hlock
      exact hnobody j b hholds hid
    refine ⟨hlast, ?_⟩
    simp only [after]
    rw [Parties.acquire_of_free hfree hnone]
    exact (Parties.getElem?_insert_standing ..).trans (if_pos rfl)
  case busy =>
    rintro _ _ _ j b ⟨⟩ hholds rfl
    obtain ⟨-, lock, hlock, -⟩ := (holds_iff books).mp hholds
    split
    · rename_i time
      refine ⟨hlast, ?_⟩
      simp only [after]
      rw [Parties.acquire_of_held hlock time, Parties.Books.tickets books]
      exact Std.TreeMap.getElem?_insert_self
    · rename_i time
      cases Nat.eq_zero_of_not_pos time
      refine ⟨hlast, ?_⟩
      simp only [after]
      rw [Parties.acquire_of_no_time hlock hnone]
      exact (Parties.getElem?_insert_standing ..).trans (if_pos rfl)
  case waits => exact fun hwaits _ => Or.inl ((hkept hwaits.1).1.mpr hwaits)
  case expires => rintro _ _ _ - ⟨⟩
  case holds =>
    intro i a hholds
    refine ⟨iff_of_true ((hkept hholds.1).2.1.mpr hholds) nofun, fun hwaits => ?_⟩
    exact ((fair_of_books books).waits ((hkept hholds.1).1.mp hwaits)).2 hholds
  case timedOut => exact fun htimed => (hkept htimed.1).2.2.mpr htimed
  case isolated =>
    rintro _ i a ⟨⟩ hid
    by_cases hi : i = course.begun.length
    · have hnot : ¬course.begun[i]? = some a := fun hbegun => hold hbegun hi
      have hnot' : ¬(course.after (.acquire name id timeout)).begun[i]? = some a := fun hbegun => by
        obtain ⟨-, rfl⟩ := (begun_after_acquire.mp hbegun).resolve_left hnot
        exact hid rfl
      exact ⟨iff_of_false (fun h => hnot' h.1) (fun h => hnot h.1),
        iff_of_false (fun h => hnot' h.1) (fun h => hnot h.1),
        iff_of_false (fun h => hnot' h.1) (fun h => hnot h.1)⟩
    · exact kept_of_acquire books allowed hi
  case entries =>
    rintro _ other ⟨⟩ hne
    exact (Parties.Books.acquire_keeps books allowed id timeout).2.2 other hne.symm

theorem faithful_release (books : course.Books) (allowed : course.Allows (.release name)) :
    course.Faithful (.release name) := by
  obtain ⟨id, hstands⟩ := allowed
  obtain ⟨hattempts, hwaiting, hstanding, hkept, htable⟩ :=
    Parties.Books.release_keeps books hstands
  obtain ⟨lock, attempt, hlock, hbegun, rfl⟩ := Parties.Books.holding books hstands
  have hid : attempt.id = id := by
    obtain ⟨attempt', hbegun', hid, -⟩ := Parties.Books.held books hlock
    cases hbegun.symm.trans hbegun'
    exact hid
  subst hid
  have hconcerns : course.concerns? (.release attempt.name) = some attempt.id := by
    simp only [concerns?, hstands]
  refine ⟨nofun, nofun, ?waits, nofun, ?holds, ?timedOut, ?isolated, ?entries⟩
  case waits =>
    rintro i a ⟨hbegun', hwaits⟩ -
    obtain hwaits | ⟨hid, hholds⟩ := hwaiting i a hwaits
    · exact Or.inl ⟨hbegun', hwaits⟩
    · exact Or.inr ⟨⟨hbegun', hid ▸ hholds⟩, _, attempt, ⟨hbegun, hstands⟩, hid.symm, rfl⟩
  case holds =>
    rintro i a ⟨hbegun', hholds⟩
    refine ⟨⟨fun hafter heq => ?_, fun hne => ⟨hbegun', hkept _ _ (fun heq => ?_) hholds⟩⟩,
      fun hwaits => ?_⟩
    · exact (hstanding _ _ hafter.2).1 (Deed.release.inj heq)
    · exact hne (congrArg Deed.release heq)
    · exact ((fair_of_books books).waits ⟨hbegun', hattempts _ _ hwaits.2⟩).2 ⟨hbegun', hholds⟩
  case timedOut =>
    rintro i a ⟨hbegun', htimed⟩
    refine ⟨hbegun', hkept _ _ (fun heq => ?_) htimed⟩
    cases (heq ▸ hstands).symm.trans htimed
  case isolated =>
    intro id' i a hid hne
    cases hconcerns.symm.trans hid
    have hname (hbegun' : course.begun[i]? = some a) : attempt.name ≠ a.name := fun heq => hne <| by
      cases Parties.Books.unique books hbegun hbegun' heq
      cases hbegun.symm.trans hbegun'
      rfl
    refine ⟨⟨fun hwaits => ⟨hwaits.1, hattempts _ _ hwaits.2⟩, fun hwaits => ⟨hwaits.1, ?_⟩⟩,
      ⟨fun hholds => ⟨hholds.1, ?_⟩, fun hholds => ⟨hholds.1, hkept _ _ (hname hholds.1) hholds.2⟩⟩,
      ⟨fun htimed => ⟨htimed.1, ?_⟩, fun htimed => ⟨htimed.1, hkept _ _ (hname htimed.1) htimed.2⟩⟩⟩
    · exact (hwaiting _ _ hwaits.2).resolve_right fun hgranted => hne hgranted.1
    · exact (hstanding _ _ hholds.2).2.resolve_right fun hgranted =>
        hne (Standing.held.inj hgranted)
    · exact (hstanding _ _ htimed.2).2.resolve_right nofun
  case entries =>
    intro id' other hid hne
    cases hconcerns.symm.trans hid
    exact htable other hne.symm

theorem faithful_advance (books : course.Books) (millis : Nat) :
    course.Faithful (.advance millis) := by
  obtain ⟨-, -, -, hattempts, hstanding⟩ := (Parties.Books.advance books millis).1
  refine ⟨nofun, nofun, fun _ still => absurd rfl (still millis), ?expires, ?holds, ?timedOut,
    nofun, nofun⟩
  case expires =>
    rintro i a _ ⟨hbegun, hwaits⟩ ⟨⟩
    split
    · rename_i late
      exact ⟨hbegun, (hstanding _ _).mpr (Or.inr ⟨i, a, hwaits, late, rfl, rfl⟩)⟩
    · rename_i early
      exact ⟨hbegun, (hattempts _ _).mpr ⟨hwaits, Nat.not_le.mp early⟩⟩
  case holds =>
    rintro i a ⟨hbegun, hholds⟩
    refine ⟨iff_of_true ⟨hbegun, (hstanding _ _).mpr (Or.inl hholds)⟩ nofun, fun hwaits => ?_⟩
    exact ((fair_of_books books).waits ⟨hbegun, ((hattempts _ _).mp hwaits.2).1⟩).2 ⟨hbegun, hholds⟩
  case timedOut =>
    rintro i a ⟨hbegun, htimed⟩
    exact ⟨hbegun, (hstanding _ _).mpr (Or.inl htimed)⟩

theorem faithful_of_books (books : course.Books) (allowed : course.Allows deed) :
    course.Faithful deed := by
  cases deed with
  | acquire name id timeout => exact faithful_acquire books allowed
  | release name => exact faithful_release books allowed
  | advance millis => exact faithful_advance books millis

/-- Once an attempt has given up, it stays without the lock. -/
theorem TimedOut.final (books : course.Books) (timedOut : course.TimedOut i a)
    (leads : course.Leads later) : later.Books ∧ later.TimedOut i a := by
  induction leads with
  | refl => exact ⟨books, timedOut⟩
  | step _ allowed ih =>
      exact ⟨ih.1.after allowed, (faithful_of_books ih.1 allowed).timedOut ih.2⟩

/-- **Locks go to those who asked first.**  At every moment of a course, a lock has one holder, it
is awaited only while it is held, and no attempt has overtaken an earlier one that still waits; its
entry is there while somebody holds the lock or waits for it, and leads to the one mutex that all of
them refer to; every deed grants and ends attempts as it should and leaves other locks alone; and an
attempt that has not been granted in time is never granted. -/
theorem grants_in_order (leads : start.Leads course) :
    course.Fair ∧ (∀ deed, course.Allows deed → course.Faithful deed) ∧
      ∀ later, course.Leads later → ∀ i a, course.TimedOut i a →
        later.TimedOut i a ∧ ¬later.Holds i a := by
  have hbooks := leads.books
  refine ⟨fair_of_books hbooks, fun deed allowed => faithful_of_books hbooks allowed,
    fun later hlater i a htimed => ?_⟩
  obtain ⟨hbooks', htimed'⟩ := htimed.final hbooks hlater
  exact ⟨htimed', ((fair_of_books hbooks').timedOut htimed').2⟩

/-- Three parties take one lock.  The first one keeps it until the second one has given up. -/
def dispute (id : LockId) : Course :=
  [.acquire "a" id 20, .acquire "b" id 5, .acquire "c" id 90, .advance 5, .release "a"].foldl after
    start

/-- The third party of a dispute gets the lock. -/
theorem grants_in_order_dispute :
    let id : LockId := ⟨"docs", Token.wrapping 3⟩
    start.Leads (dispute id) ∧ (dispute id).Holds 2 ⟨"c", id, 90, 90⟩ ∧
      (dispute id).TimedOut 1 ⟨"b", id, 5, 5⟩ ∧ (dispute id).Fair := by
  intro id
  have leads : start.Leads (dispute id) := by
    simp only [dispute, List.foldl_cons, List.foldl_nil]
    refine .step (.step (.step (.step (.step .refl ?_) ?_) ?_) ?_) ⟨id, ?_⟩
    · simp [Allows, start]
    · simp [Allows, after, attempt, start]
    · simp [Allows, after, attempt, start]
    · trivial
    · decide +kernel
  exact ⟨leads, by decide +kernel, by decide +kernel, (grants_in_order leads).1⟩

end Course

end RecordRing
