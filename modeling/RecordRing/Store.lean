import RecordRing.Config
import RecordRing.Record.Basic
import Std.Data.TreeMap

/-!
# Record stores

A store keeps records in named storages.  Every call carries the credential of the party opening the
store, and a store may be bound to one credential.  Writers name the version they expect, so of
several writers that saw one version only one succeeds.

A storage is listed from the first record created in it, also after its last record is deleted.

## Implementation notes

A write answers with the store it leaves behind also when it fails.  The only failing write that
leaves another store is an update at the largest version: the payload is replaced before the version
fails to grow.
-/

namespace RecordRing

/-- Why a store refuses a call. -/
inductive StoreError where
  /-- The record to update is absent. -/
  | notFound (storage : String) (key : Token)
  /-- The record to create is present. -/
  | alreadyExists (storage : String) (key : Token)
  /-- The record has another version than the writer expected. -/
  | versionConflict (key : Token) (expected actual : UInt64)
  /-- The store is bound to another credential. -/
  | unauthorized (principal : String)
  /-- The record's version is the largest there is. -/
  | versionOverflow
  deriving DecidableEq

namespace StoreError

/-- The text of a store error. -/
def message : StoreError → String
  | notFound storage key =>
    let shown := key.render
    s!"record {shown} not found in storage '{storage}'"
  | alreadyExists storage key =>
    let shown := key.render
    s!"record {shown} already exists in storage '{storage}'"
  | versionConflict key expected actual =>
    let shown := key.render
    s!"version conflict on record {shown}: expected {expected}, found {actual}"
  | unauthorized principal => s!"principal '{principal}' is not allowed to open the store"
  | versionOverflow => "attempt to add with overflow"

end StoreError

/-- What a storage keeps under a key. -/
structure Stored where
  /-- The payload. -/
  content : List UInt8
  /-- The version of the payload. -/
  version : UInt64
  deriving DecidableEq

/-- The records of one storage by key. -/
abbrev Storage := Std.TreeMap Token Stored

/-- Named storages of records, possibly bound to one credential. -/
structure Store where
  /-- The storages by name. -/
  storages : Std.TreeMap String Storage
  /-- The only credential that may open the store, if it is bound to one. -/
  required : Option Credential

namespace Store

/-- The store without storages that opens for `required`, or for everyone. -/
def empty (required : Option Credential) : Store := ⟨∅, required⟩

instance : Inhabited Store := ⟨empty none⟩

/-- The view of a store: what it keeps under a storage and key. -/
def find? (store : Store) (storage : String) (key : Token) : Option Stored :=
  store.storages[storage]?.bind fun records => records[key]?

/-- Whether the store opens for a credential. -/
def opensFor (store : Store) (credential : Credential) : Bool :=
  match store.required with
  | none => true
  | some required => required = credential

/-- The store with something kept under a storage and key. -/
def put (store : Store) (storage : String) (key : Token) (stored : Stored) : Store :=
  { store with
    storages := store.storages.alter storage fun records =>
      some ((records.getD ∅).insert key stored) }

/-- The store with a key dropped from a storage. -/
def drop (store : Store) (storage : String) (key : Token) : Store :=
  { store with storages := store.storages.modify storage fun records => records.erase key }

/-- Creates a record with the given version. -/
def create (store : Store) (credential : Credential) (storage : String) (key : Token)
    (content : List UInt8) (version : UInt64) : Except StoreError UInt64 × Store :=
  if store.opensFor credential then
    match store.find? storage key with
    | some _ => (.error (.alreadyExists storage key), store)
    | none => (.ok version, store.put storage key ⟨content, version⟩)
  else (.error (.unauthorized credential.principal), store)

/-- Reads a record. -/
def read (store : Store) (credential : Credential) (storage : String) (key : Token) :
    Except StoreError (Option Record) :=
  if store.opensFor credential then
    .ok ((store.find? storage key).map fun stored => ⟨key, stored.content, stored.version⟩)
  else .error (.unauthorized credential.principal)

/-- Replaces the payload of a record whose version is the expected one, and answers with its next
version. -/
def update (store : Store) (credential : Credential) (storage : String) (key : Token)
    (content : List UInt8) (version : UInt64) : Except StoreError UInt64 × Store :=
  if store.opensFor credential then
    match store.find? storage key with
    | none => (.error (.notFound storage key), store)
    | some stored =>
      if stored.version ≠ version then
        (.error (.versionConflict key version stored.version), store)
      else if version.toNat + 1 < UInt64.size then
        (.ok (version + 1), store.put storage key ⟨content, version + 1⟩)
      else (.error .versionOverflow, store.put storage key ⟨content, version⟩)
  else (.error (.unauthorized credential.principal), store)

/-- Removes a record whose version is the expected one; the answer says whether there was one. -/
def delete (store : Store) (credential : Credential) (storage : String) (key : Token)
    (version : UInt64) : Except StoreError Bool × Store :=
  if store.opensFor credential then
    match store.find? storage key with
    | none => (.ok false, store)
    | some stored =>
      if stored.version ≠ version then
        (.error (.versionConflict key version stored.version), store)
      else (.ok true, store.drop storage key)
  else (.error (.unauthorized credential.principal), store)

/-- The keys of a storage in ascending order. -/
def keys (store : Store) (credential : Credential) (storage : String) :
    Except StoreError (List Token) :=
  if store.opensFor credential then .ok (store.storages[storage]?.elim [] Std.TreeMap.keys)
  else .error (.unauthorized credential.principal)

/-- The names of the storages in ascending order. -/
def names (store : Store) (credential : Credential) : Except StoreError (List String) :=
  if store.opensFor credential then .ok store.storages.keys
  else .error (.unauthorized credential.principal)

/-- The number of records in a storage. -/
def count (store : Store) (storage : String) : Nat :=
  store.storages[storage]?.elim 0 Std.TreeMap.size

/-- The number of records in all storages. -/
def total (store : Store) : Nat :=
  store.storages.values.foldl (fun before records => before + records.size) 0

/-- Whether no storage has a record. -/
def isEmpty (store : Store) : Bool := store.storages.values.all Std.TreeMap.isEmpty

/-- Every storage with its records, by name and key. -/
def contents (store : Store) : List (String × List Record) :=
  store.storages.toList.map fun (name, records) =>
    (name, records.toList.map fun (key, stored) => ⟨key, stored.content, stored.version⟩)

theorem find?_put (store : Store) (storage name : String) (key other : Token) (stored : Stored) :
    (store.put storage key stored).find? name other =
      if storage = name ∧ key = other then some stored else store.find? name other := by
  simp only [find?, put, Std.TreeMap.getElem?_alter, Std.LawfulEqOrd.compare_eq_iff_eq]
  split
  · rename_i h
    subst h
    cases store.storages[storage]? <;>
      simp [Std.TreeMap.getElem?_insert]
  · rename_i h
    simp [h]

theorem find?_drop (store : Store) (storage name : String) (key other : Token) :
    (store.drop storage key).find? name other =
      if storage = name ∧ key = other then none else store.find? name other := by
  simp only [find?, drop, Std.TreeMap.getElem?_modify, Std.LawfulEqOrd.compare_eq_iff_eq]
  split
  · rename_i h
    subst h
    cases store.storages[storage]? <;>
      simp [Std.TreeMap.getElem?_erase]
  · rename_i h
    simp [h]

end Store

end RecordRing
