import RecordRing.Proofs.Handover.Attended

/-!
# One copy of every record

Transfers move a record between nodes while clients read, update and delete it, in any order.  As
long as the record has not been removed it has one copy that no task is about to delete, and that copy
is what the history of the run makes of the record (`Sole`).  So an update or a deletion always finds
the record as all earlier ones have left it, wherever it lies by then.

## Implementation notes

What a history says about a record follows from the list alone, once every event is known to have
found the record there (`Coherent`).
-/

namespace RecordRing

variable {id : LockId} {kept origin : Option Stored} {history events : List Event} {stored : Stored}

/-! ## Histories of a record -/

theorem ledger_spares (spares : ∀ event ∈ events, event.Spares id) :
    ledger id kept events = kept := by
  induction events with
  | nil => rfl
  | cons event rest ih =>
      rw [ledger, List.foldl_cons, (spares event (List.mem_cons_self ..)).same]
      exact ih fun other h => spares other (List.mem_cons_of_mem _ h)

/-- Every event that concerns a record finds the record there, and the version of a record that
cannot grow is the largest. -/
def Coherent (id : LockId) : Option Stored → List Event → Prop
  | _, [] => True
  | kept, event :: rest =>
    (event.Spares id ∨ ∃ stored, kept = some stored ∧
      (event.overruns id = true → UInt64.size ≤ stored.version.toNat + 1)) ∧
    Coherent id (event.replay id kept) rest

namespace Coherent

theorem of_spares (spares : ∀ event ∈ events, event.Spares id) : Coherent id kept events := by
  induction events generalizing kept with
  | nil => trivial
  | cons event rest ih =>
      exact ⟨Or.inl (spares event (List.mem_cons_self ..)),
        ih fun other h => spares other (List.mem_cons_of_mem _ h)⟩

theorem append (coherent : Coherent id kept history)
    (later : Coherent id (ledger id kept history) events) : Coherent id kept (history ++ events) := by
  induction history generalizing kept with
  | nil => exact later
  | cons event rest ih => exact ⟨coherent.1, ih coherent.2 later⟩

/-- No event concerns a record that is not there. -/
theorem spares (coherent : Coherent id none history) : ∀ event ∈ history, event.Spares id := by
  induction history with
  | nil => exact fun event h => (List.not_mem_nil h).elim
  | cons event rest ih =>
      obtain ⟨hfirst, hrest⟩ := coherent
      rw [Event.replay_none] at hrest
      intro other hmem
      rcases List.mem_cons.1 hmem with rfl | hlater
      · rcases hfirst with hspares | ⟨stored, hnone, -⟩
        · exact hspares
        · cases hnone
      · exact ih hrest other hlater

/-- A record is removed at most once. -/
theorem countP_removes (coherent : Coherent id kept history) :
    history.countP (Event.removes id) ≤ 1 := by
  induction history generalizing kept with
  | nil => exact Nat.zero_le 1
  | cons event rest ih =>
      rw [List.countP_cons]
      split
      · rename_i hremoves
        have hgone : event.replay id kept = none := by
          cases kept with
          | none => exact event.replay_none id
          | some stored =>
              rcases event.replay_cases id stored with ⟨-, h⟩ | ⟨h, -, -⟩ | ⟨h, -, -⟩
              · exact h
              · rw [hremoves] at h
                cases h
              · rw [hremoves] at h
                cases h
        have hrest := coherent.2
        rw [hgone] at hrest
        have hzero : rest.countP (Event.removes id) = 0 := by
          rw [List.countP_eq_zero]
          intro other hmem
          rw [(hrest.spares other hmem).keeps]
          exact Bool.false_ne_true
        exact Nat.le_of_eq (congrArg (· + 1) hzero)
      · exact ih coherent.2

/-- No version is the largest as long as there are too few updates. -/
theorem overruns (coherent : Coherent id (some stored) history)
    (small : stored.version.toNat + (payloads id history).length + 1 < UInt64.size) :
    ∀ event ∈ history, event.overruns id = false := by
  induction history generalizing stored with
  | nil => exact fun event h => (List.not_mem_nil h).elim
  | cons event rest ih =>
      obtain ⟨hfirst, hrest⟩ := coherent
      have hhead : event.overruns id = false := by
        rcases hfirst with hspares | ⟨found, heq, hlarge⟩
        · exact hspares.grows
        · cases heq
          refine Bool.eq_false_iff.2 fun hoverruns => ?_
          have hfull := hlarge hoverruns
          omega
      intro other hmem
      rcases List.mem_cons.1 hmem with rfl | hlater
      · exact hhead
      · rcases event.replay_cases id stored with ⟨-, hreplay⟩ | ⟨-, -, hreplay⟩ | ⟨-, h, -⟩
        · rw [hreplay] at hrest
          exact (hrest.spares other hlater).grows
        · rw [hreplay] at hrest
          refine ih hrest ?_ other hlater
          cases hpayload : event.payload? id with
          | none => simpa [payloads, hpayload] using small
          | some content =>
              have hlist : payloads id (event :: rest) = content :: payloads id rest := by
                simp [payloads, hpayload]
              rw [hlist, List.length_cons] at small
              have hgrows : (stored.version + 1).toNat = stored.version.toNat + 1 := by
                rw [UInt64.toNat_add]
                exact Nat.mod_eq_of_lt (by simp [UInt64.size] at small ⊢; omega)
              show (stored.version + 1).toNat + (payloads id rest).length + 1 < UInt64.size
              omega
        · rw [hhead] at h
          cases h

end Coherent

namespace Network

variable {clients : Clients} {rules : Rules} {net after last : Network} {handle : Handle}

/-- A record has one copy that no task is about to delete, if there is one at all, and that copy is as
it should be. -/
structure Sole (net : Network) (id : LockId) (kept : Option Stored) : Prop where
  intact : ∀ {handle stored}, net.stored? handle id = some stored → ¬ net.Doomed handle id →
    kept = some stored
  lasts : ∀ {stored}, kept = some stored →
    ∃ handle, net.stored? handle id = some stored ∧ ¬ net.Doomed handle id
  once : ∀ {first second one two}, net.stored? first id = some one →
    net.stored? second id = some two → ¬ net.Doomed first id → ¬ net.Doomed second id →
    first = second

namespace Sole

theorem of_same (sole : net.Sole id kept)
    (stored : ∀ handle, after.stored? handle id = net.stored? handle id)
    (doomed : ∀ handle, after.Doomed handle id ↔ net.Doomed handle id) : after.Sole id kept := by
  refine ⟨?_, ?_, ?_⟩
  · intro handle value hvalue hstays
    rw [stored] at hvalue
    rw [doomed] at hstays
    exact sole.intact hvalue hstays
  · intro value hvalue
    obtain ⟨handle, hstored, hstays⟩ := sole.lasts hvalue
    exact ⟨handle, (stored handle).trans hstored, fun h => hstays ((doomed handle).1 h)⟩
  · intro first second one two hone htwo hfirst hsecond
    rw [stored] at hone htwo
    rw [doomed] at hfirst hsecond
    exact sole.once hone htwo hfirst hsecond

/-- All copies but the one at a node are doomed. -/
theorem of_only {peer : Handle} {value : Option Stored}
    (only : ∀ {handle found}, after.stored? handle id = some found → ¬ after.Doomed handle id →
      handle = peer)
    (copy : after.stored? peer id = value) (stays : ¬ after.Doomed peer id) :
    after.Sole id value := by
  refine ⟨fun hfound hstays => ?_, fun hvalue => ⟨peer, copy.trans hvalue, stays⟩,
    fun hone htwo hfirst hsecond => ?_⟩
  · rw [only hfound hstays, copy] at hfound
    exact hfound
  · rw [only hone hfirst, only htwo hsecond]

/-- A node has stored the copy that another one is about to delete. -/
theorem of_handed (sole : net.Sole id kept) {source peer : Handle}
    (copy : net.stored? source id = some stored) (free : net.stored? peer id = none)
    (writes : net.Writes after peer id (some stored)) (stays : ¬ net.Doomed source id)
    (apart : ¬ net.Doomed peer id)
    (doomed : ∀ handle, after.Doomed handle id ↔ net.Doomed handle id ∨ handle = source) :
    after.Sole id kept := by
  have hnever : ¬ after.Doomed peer id := by
    rw [doomed]
    rintro (hdoomed | rfl)
    · exact apart hdoomed
    · rw [free] at copy
      cases copy
  rw [sole.intact copy stays]
  refine of_only (fun {handle value} hvalue hstays => ?_) writes.stored?_self hnever
  -- all other copies are doomed now
  refine Decidable.byContradiction fun hne => ?_
  rw [writes.stored?_of_ne fun h => hne (congrArg Prod.fst h).symm] at hvalue
  rw [doomed, not_or] at hstays
  exact hstays.2 (sole.once hvalue copy hstays.1 stays)

/-- A doomed copy has been deleted. -/
theorem of_dropped (sole : net.Sole id kept) {source : Handle} (fated : net.Doomed source id)
    (writes : net.Writes after source id none)
    (doomed : ∀ handle, after.Doomed handle id ↔ net.Doomed handle id ∧ handle ≠ source) :
    after.Sole id kept := by
  have hbefore : ∀ {handle value}, after.stored? handle id = some value →
      ¬ after.Doomed handle id → net.stored? handle id = some value ∧ ¬ net.Doomed handle id := by
    intro handle value hvalue hstays
    have hne : handle ≠ source := by
      rintro rfl
      rw [writes.stored?_self] at hvalue
      cases hvalue
    rw [writes.stored?_of_ne fun h => hne (congrArg Prod.fst h).symm] at hvalue
    exact ⟨hvalue, fun h => hstays ((doomed handle).2 ⟨h, hne⟩)⟩
  refine ⟨?_, ?_, ?_⟩
  · intro handle value hvalue hstays
    obtain ⟨hold, hfree⟩ := hbefore hvalue hstays
    exact sole.intact hold hfree
  · intro value hvalue
    obtain ⟨handle, hcopy, hstays⟩ := sole.lasts hvalue
    refine ⟨handle, ?_, fun h => hstays ((doomed handle).1 h).1⟩
    rw [writes.stored?_of_ne]
    · exact hcopy
    · intro heq
      cases congrArg Prod.fst heq
      exact hstays fated
  · intro first second one two hone htwo hfirst hsecond
    obtain ⟨hone, hfirst⟩ := hbefore hone hfirst
    obtain ⟨htwo, hsecond⟩ := hbefore htwo hsecond
    exact sole.once hone htwo hfirst hsecond

/-- The copy that stays has been overwritten or deleted. -/
theorem of_edited (sole : net.Sole id kept) {peer : Handle} {value : Option Stored}
    (copy : net.stored? peer id = some stored) (stays : ¬ net.Doomed peer id)
    (writes : net.Writes after peer id value)
    (doomed : ∀ handle, after.Doomed handle id ↔ net.Doomed handle id) : after.Sole id value := by
  refine of_only (fun {handle found} hfound hstays => ?_) writes.stored?_self
    fun h => stays ((doomed peer).1 h)
  refine Decidable.byContradiction fun hne => hne ?_
  rw [writes.stored?_of_ne fun h => hne (congrArg Prod.fst h).symm] at hfound
  rw [doomed] at hstays
  exact sole.once hfound copy hstays stays

/-- A client has created a record of which no copy stays elsewhere. -/
theorem of_creates {number : Nat} {peer : Handle} (creates : net.Creates clients number id peer stored)
    (apart : ¬ net.Doomed peer id)
    (lone : ∀ other twin, net.stored? other id = some twin → net.Doomed other id) :
    (net.step number).Sole id (some stored) := by
  refine of_only (fun {handle found} hfound hstays => ?_) creates.writes.stored?_self
    fun h => apart ((creates.doomed peer).1 h)
  refine Decidable.byContradiction fun hne => hstays ((creates.doomed handle).2 ?_)
  rw [creates.writes.stored?_of_ne fun h => hne (congrArg Prod.fst h).symm] at hfound
  exact lone handle found hfound

/-- A move makes of a record what it shows. -/
theorem shift (sole : net.Sole id kept) (shift : net.Shift clients after id events) :
    after.Sole id (ledger id kept events) := by
  cases shift with
  | rests stored doomed spares =>
      rw [ledger_spares spares]
      exact sole.of_same stored doomed
  | handed copy free writes stays apart doomed spares =>
      rw [ledger_spares spares]
      exact sole.of_handed copy free writes stays apart doomed
  | dropped fated writes doomed spares =>
      rw [ledger_spares spares]
      exact sole.of_dropped fated writes doomed
  | edited asked names copy stays writes doomed shows large =>
      rw [shows, sole.intact copy stays]
      exact sole.of_edited copy stays writes doomed

theorem coherent (sole : net.Sole id kept) (shift : net.Shift clients after id events) :
    Coherent id kept events := by
  cases shift with
  | rests stored doomed spares => exact .of_spares spares
  | handed copy free writes stays apart doomed spares => exact .of_spares spares
  | dropped fated writes doomed spares => exact .of_spares spares
  | edited asked names copy stays writes doomed shows large =>
      rw [shows]
      exact ⟨Or.inr ⟨_, sole.intact copy stays, large⟩, trivial⟩

/-- Where a record is gone that has been removed, it does not come back. -/
theorem absent (sole : net.Sole id none) (shift : net.Shift clients after id events)
    (gone : net.stored? handle id = none) : after.stored? handle id = none := by
  cases shift with
  | rests stored doomed spares => exact (stored handle).trans gone
  | handed copy free writes stays apart doomed spares => cases sole.intact copy stays
  | dropped fated writes doomed spares =>
      rw [writes.stored?, gone]
      split <;> rfl
  | edited asked names copy stays writes doomed shows large => cases sole.intact copy stays

end Sole

/-! ## Runs -/

/-- A staged network in which a record is what the history makes of it. -/
structure Kept (net : Network) (clients : Clients) (id : LockId) (origin : Option Stored)
    (history : List Event) : Prop where
  attended : net.Attended clients history
  books : net.Exclusive net.holdings
  sole : net.Sole id (ledger id origin history)
  coherent : Coherent id origin history
  idle : (∀ {kind} {call : RecordCall kind}, clients call → call.lockId ≠ id) →
    ∀ event ∈ history, event.Spares id

namespace Kept

/-- A network at rest in which a record is stored at most once. -/
theorem of_idle (members : ∀ handle, net.script? handle = none)
    (tasks : ∀ number : Nat, net.tasks[number]? = none)
    (locks : ∀ handle id, net.lock? handle id = none)
    (stored : ∀ handle stored, net.stored? handle id = some stored → origin = some stored)
    (lasts : ∀ stored, origin = some stored → ∃ handle, net.stored? handle id = some stored)
    (once : ∀ first second one two, net.stored? first id = some one →
      net.stored? second id = some two → first = second) : net.Kept clients id origin [] := by
  refine ⟨.of_idle members tasks, .of_idle tasks locks, ⟨fun h _ => stored _ _ h, fun h => ?_,
    fun hone htwo _ _ => once _ _ _ _ hone htwo⟩, trivial,
    fun _ event h => (List.not_mem_nil h).elim⟩
  obtain ⟨handle, hcopy⟩ := lasts _ h
  exact ⟨handle, hcopy, not_doomed_of_idle tasks⟩

/-- A move keeps a record as its history says. -/
theorem move (kept : net.Kept clients id origin history) (keep : rules.Keep clients id)
    (traced : Traced rules net events after) :
    after.Kept clients id origin (history ++ events) := by
  have hshift := kept.attended.shift keep kept.books traced
  refine ⟨kept.attended.move keep.attend kept.books traced, kept.books.move traced.move, ?_,
    kept.coherent.append (kept.sole.coherent hshift), fun hidle event hevent => ?_⟩
  · rw [ledger_append]
    exact kept.sole.shift hshift
  · rcases List.mem_append.1 hevent with hold | hnew
    · exact kept.idle hidle event hold
    · cases hshift with
      | rests stored doomed spares => exact spares event hnew
      | handed copy free writes stays apart doomed spares => exact spares event hnew
      | dropped fated writes doomed spares => exact spares event hnew
      | edited asked names copy stays writes doomed shows large => exact absurd names (hidle asked)

/-- A run keeps a record as its history says. -/
theorem trace (kept : net.Kept clients id origin history) (keep : rules.Keep clients id)
    (trace : Trace rules net events after) : after.Kept clients id origin (history ++ events) := by
  induction trace with
  | start => rwa [List.append_nil]
  | move before traced ih =>
      rw [← List.append_assoc]
      exact ih.move keep traced

/-- A record that has been removed is nowhere but where a task is about to delete it. -/
theorem stored?_of_removed (kept : net.Kept clients id origin history)
    (removed : ledger id origin history = none)
    (calm : ¬ net.Doomed handle id) : net.stored? handle id = none := by
  cases hstored : net.stored? handle id with
  | none => rfl
  | some stored =>
      have hkept := kept.sole.intact hstored calm
      rw [removed] at hkept
      cases hkept

/-- Where a removed record is gone, it does not come back. -/
theorem stays_removed (kept : net.Kept clients id origin history) (keep : rules.Keep clients id)
    (removed : ledger id origin history = none)
    (gone : net.stored? handle id = none) (trace : Trace rules net events after) :
    after.stored? handle id = none := by
  induction trace with
  | start => exact gone
  | move before traced ih =>
      have hkept := kept.trace keep before
      have hsole := hkept.sole
      rw [ledger_append, removed, ledger_none] at hsole
      exact hsole.absent (hkept.attended.shift keep hkept.books traced) ih

/-- When no transfer is about to delete its source, a record that has not been removed is stored
once. -/
theorem stored_once (kept : net.Kept clients id origin history) (calm : ∀ handle, ¬ net.Doomed handle id)
    (lasts : ledger id origin history = some stored) :
    ∃ holder, net.stored? holder id = some stored ∧
      ∀ other, other ≠ holder → net.stored? other id = none := by
  obtain ⟨holder, hcopy, hstays⟩ := kept.sole.lasts lasts
  refine ⟨holder, hcopy, fun other hne => ?_⟩
  cases hother : net.stored? other id with
  | none => rfl
  | some twin => exact absurd (kept.sole.once hother hcopy (calm other) hstays) hne

end Kept

end Network

end RecordRing
