import Mathlib.Data.Finmap
import Mathlib.Data.Finset.Sort
import RecordRing.Call
import RecordRing.Proofs.Store.ByteOrder

/-!
# Catalogues

A catalogue is what a record store stands for: a finite map from storages and keys to payloads with
versions, and the set of the names of storages in which something has been created.  It answers
every call that a store does (`Catalogue.respond`), and it neither checks credentials nor knows a
largest version.

`Responder.entries` are the answers to a series of inquiries, of a store or of a catalogue.

## Implementation notes

The answers that list something are sorted: keys by their positions, and names by their bytes.
-/

namespace RecordRing

/-! ## Inquiries -/

/-- What can be asked of a store. -/
inductive Inquiry : Type where
  /-- A call under the credential of a party. -/
  | call {shape : Shape} (call : StoreCall shape)
  /-- The number of records in a storage. -/
  | count (storage : String)
  /-- Whether there is no record. -/
  | isEmpty

/-- The type of the answers to an inquiry. -/
@[reducible] def Inquiry.Answer : Inquiry → Type
  | @call shape _ => Except StoreError shape.Value
  | count _ => Nat
  | isEmpty => Bool

/-- An inquiry and the answer to it. -/
structure Entry where
  /-- The inquiry. -/
  inquiry : Inquiry
  /-- The answer. -/
  answer : inquiry.Answer

/-- The storage in which a record has been created, if one has. -/
def Entry.created? : Entry → Option String
  | ⟨.call (.record (.create storage _ _ _)), .ok _⟩ => some storage
  | _ => none

/-- The expected version of a successful update of a record. -/
def Entry.updated? (storage : String) (key : Token) : Entry → Option UInt64
  | ⟨.call (.record (.update name id _ version)), .ok _⟩ =>
    if name = storage ∧ id = key then some version else none
  | _ => none

/-- Whether a record has been deleted. -/
def Entry.deletes (storage : String) (key : Token) : Entry → Bool
  | ⟨.call (.record (.delete name id _)), .ok true⟩ => name = storage ∧ id = key
  | _ => false

/-- What answers inquiries, and changes while it does. -/
abbrev Responder (State : Type) := State → (inquiry : Inquiry) → inquiry.Answer × State

namespace Responder

variable {State : Type}

/-- The state after a series of inquiries. -/
def after (respond : Responder State) : State → List Inquiry → State
  | state, [] => state
  | state, inquiry :: rest => respond.after (respond state inquiry).2 rest

/-- The inquiries of a series with their answers. -/
def entries (respond : Responder State) : State → List Inquiry → List Entry
  | _, [] => []
  | state, inquiry :: rest =>
    ⟨inquiry, (respond state inquiry).1⟩ :: respond.entries (respond state inquiry).2 rest

variable {respond : Responder State} {state : State} {inquiries : List Inquiry}

theorem map_inquiry_entries : (respond.entries state inquiries).map Entry.inquiry = inquiries := by
  induction inquiries generalizing state with
  | nil => rfl
  | cons inquiry inquiries ih => exact congrArg _ ih

/-- Where the entries part, so do the inquiries. -/
theorem entries_eq_append {first last : List Entry}
    (parts : respond.entries state inquiries = first ++ last) :
    ∃ before rest, inquiries = before ++ rest ∧ respond.entries state before = first ∧
      respond.entries (respond.after state before) rest = last := by
  induction first generalizing state inquiries with
  | nil => exact ⟨[], inquiries, rfl, rfl, parts⟩
  | cons entry first ih =>
      cases inquiries with
      | nil => cases parts
      | cons inquiry inquiries =>
          obtain ⟨hentry, hrest⟩ := List.cons.inj parts
          obtain ⟨before, rest, rfl, hfirst, hlast⟩ := ih hrest
          refine ⟨inquiry :: before, rest, rfl, ?_, hlast⟩
          rw [entries, hentry, hfirst]

end Responder

/-! ## Catalogues -/

/-- What a store stands for. -/
structure Catalogue where
  /-- What is kept under the storages and keys. -/
  records : Finmap fun _ : String × Token => Stored
  /-- The storages in which something has been created. -/
  names : Finset String

/-- Keys in the order of their positions. -/
def KeyOrder (a b : Token) : Prop := a.toNat ≤ b.toNat

instance : DecidableRel KeyOrder := fun a b => inferInstanceAs (Decidable (a.toNat ≤ b.toNat))

instance : IsTrans Token KeyOrder := ⟨fun _ _ _ => Nat.le_trans⟩

instance : Std.Antisymm KeyOrder :=
  ⟨fun _ _ le ge => Token.toNat_inj.1 (Nat.le_antisymm le ge)⟩

instance : Std.Total KeyOrder := ⟨fun a b => Nat.le_total a.toNat b.toNat⟩

/-- Names in the order of their bytes. -/
def NameOrder (a b : String) : Prop := ¬ nameBytes b < nameBytes a

instance : DecidableRel NameOrder :=
  fun a b => inferInstanceAs (Decidable (¬ nameBytes b < nameBytes a))

theorem nameOrder_iff {a b : String} : NameOrder a b ↔ a ≤ b := by
  rw [NameOrder, nameBytes_lt_iff, not_lt]

instance : IsTrans String NameOrder :=
  ⟨fun _ _ _ first second => nameOrder_iff.2
    ((nameOrder_iff.1 first).trans (nameOrder_iff.1 second))⟩

instance : Std.Antisymm NameOrder :=
  ⟨fun _ _ le ge => le_antisymm (nameOrder_iff.1 le) (nameOrder_iff.1 ge)⟩

instance : Std.Total NameOrder :=
  ⟨fun a b => (le_total a b).imp nameOrder_iff.2 nameOrder_iff.2⟩

namespace Catalogue

variable {catalogue : Catalogue} {storage name : String} {key other : Token} {stored : Stored}

/-- The catalogue without records and names. -/
def empty : Catalogue := ⟨∅, ∅⟩

/-- What is kept under a storage and key. -/
def find? (catalogue : Catalogue) (storage : String) (key : Token) : Option Stored :=
  catalogue.records.lookup (storage, key)

/-- The catalogue with something kept under a storage and key. -/
def put (catalogue : Catalogue) (storage : String) (key : Token) (stored : Stored) : Catalogue :=
  { catalogue with records := catalogue.records.insert (storage, key) stored }

/-- The catalogue with a key dropped from a storage. -/
def drop (catalogue : Catalogue) (storage : String) (key : Token) : Catalogue :=
  { catalogue with records := catalogue.records.erase (storage, key) }

/-- The catalogue with one more name. -/
def enter (catalogue : Catalogue) (storage : String) : Catalogue :=
  { catalogue with names := insert storage catalogue.names }

/-- The keys of a storage. -/
def keys (catalogue : Catalogue) (storage : String) : Finset Token :=
  (catalogue.records.keys.filter fun id => id.1 = storage).image Prod.snd

/-- The answer of a catalogue to an inquiry, and the catalogue afterwards. -/
def respond : Responder Catalogue
  | catalogue, .call (.record (.create storage key content version)) =>
    match catalogue.find? storage key with
    | some _ => (.error (.alreadyExists storage key), catalogue)
    | none => (.ok version, (catalogue.put storage key ⟨content, version⟩).enter storage)
  | catalogue, .call (.record (.read storage key)) =>
    (.ok ((catalogue.find? storage key).map fun stored => ⟨key, stored.content, stored.version⟩),
      catalogue)
  | catalogue, .call (.record (.update storage key content version)) =>
    match catalogue.find? storage key with
    | none => (.error (.notFound storage key), catalogue)
    | some stored =>
      if stored.version = version then
        (.ok (version + 1), catalogue.put storage key ⟨content, version + 1⟩)
      else (.error (.versionConflict key version stored.version), catalogue)
  | catalogue, .call (.record (.delete storage key version)) =>
    match catalogue.find? storage key with
    | none => (.ok false, catalogue)
    | some stored =>
      if stored.version = version then (.ok true, catalogue.drop storage key)
      else (.error (.versionConflict key version stored.version), catalogue)
  | catalogue, .call (.keys storage) => (.ok ((catalogue.keys storage).sort KeyOrder), catalogue)
  | catalogue, .call .names => (.ok (catalogue.names.sort NameOrder), catalogue)
  | catalogue, .count storage => ((catalogue.keys storage).card, catalogue)
  | catalogue, .isEmpty => (decide (catalogue.records.keys = ∅), catalogue)

@[simp] theorem find?_empty (storage : String) (key : Token) : empty.find? storage key = none :=
  Finmap.lookup_empty _

theorem find?_put (catalogue : Catalogue) (storage name : String) (key other : Token)
    (stored : Stored) : (catalogue.put storage key stored).find? name other =
      if storage = name ∧ key = other then some stored else catalogue.find? name other := by
  split
  · rename_i h
    rw [← h.1, ← h.2]
    exact Finmap.lookup_insert _
  · rename_i h
    apply Finmap.lookup_insert_of_ne
    intro heq
    exact h ⟨(congrArg Prod.fst heq).symm, (congrArg Prod.snd heq).symm⟩

theorem find?_drop (catalogue : Catalogue) (storage name : String) (key other : Token) :
    (catalogue.drop storage key).find? name other =
      if storage = name ∧ key = other then none else catalogue.find? name other := by
  split
  · rename_i h
    rw [← h.1, ← h.2]
    exact Finmap.lookup_erase _ _
  · rename_i h
    apply Finmap.lookup_erase_ne
    intro heq
    exact h ⟨(congrArg Prod.fst heq).symm, (congrArg Prod.snd heq).symm⟩

@[simp] theorem find?_enter : (catalogue.enter name).find? storage key =
    catalogue.find? storage key := rfl

theorem mem_keys_iff : key ∈ catalogue.keys storage ↔
    (catalogue.find? storage key).isSome = true := by
  simp only [keys, find?, Finset.mem_image, Finset.mem_filter, Finmap.mem_keys,
    Finmap.lookup_isSome]
  constructor
  · rintro ⟨⟨name, id⟩, ⟨hmem, rfl⟩, rfl⟩
    exact hmem
  · intro hmem
    exact ⟨(storage, key), ⟨hmem, rfl⟩, rfl⟩

theorem isEmpty_iff : catalogue.records.keys = ∅ ↔
    ∀ storage key, catalogue.find? storage key = none := by
  rw [Finset.eq_empty_iff_forall_notMem]
  simp only [Prod.forall, Finmap.mem_keys, find?, Finmap.lookup_eq_none]

/-- The keys of a storage are listed in ascending order, each of them once. -/
theorem pairwise_sort_keys (keys : Finset Token) :
    (keys.sort KeyOrder).Pairwise fun a b => a.toNat < b.toNat := by
  have hle : (keys.sort KeyOrder).Pairwise KeyOrder := keys.pairwise_sort KeyOrder
  have hne : (keys.sort KeyOrder).Pairwise (· ≠ ·) := keys.sort_nodup KeyOrder
  refine (hle.and hne).imp ?_
  rintro a b ⟨le, ne⟩
  exact lt_of_le_of_ne le fun heq => ne (Token.toNat_inj.1 heq)

/-- The names are listed in ascending order of their bytes, each of them once. -/
theorem pairwise_sort_names (names : Finset String) :
    (names.sort NameOrder).Pairwise fun a b => nameBytes a < nameBytes b := by
  have hle : (names.sort NameOrder).Pairwise NameOrder := names.pairwise_sort NameOrder
  have hne : (names.sort NameOrder).Pairwise (· ≠ ·) := names.sort_nodup NameOrder
  refine (hle.and hne).imp ?_
  rintro a b ⟨le, ne⟩
  exact nameBytes_lt_iff.2 (lt_of_le_of_ne (nameOrder_iff.1 le) ne)

end Catalogue

end RecordRing
