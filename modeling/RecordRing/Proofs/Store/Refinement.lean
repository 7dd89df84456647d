import RecordRing.Proofs.Handover.Scan
import RecordRing.Proofs.Network.Records
import RecordRing.Proofs.Parties.Books
import RecordRing.Proofs.Store.Catalogue

/-!
# Stores stand for catalogues

A store that opens for a credential answers an inquiry as the catalogue does that it stands for,
unless the inquiry is an update of a record of the largest version (`Store.respond_eq`).  Of a
storage that has been emptied the catalogue keeps the name only.

`Store.Changes` lists what an inquiry can make of a store; the names of the storages and the version
of a record are followed through it (`Changes.mem_iff`, `Changes.kept`).
-/

namespace RecordRing

namespace Store

variable {store : Store} {catalogue : Catalogue} {credential : Credential}
  {storage name : String} {key : Token} {stored : Stored}

/-- The answer of a store to an inquiry under a credential, and the store afterwards. -/
def respond (credential : Credential) : Responder Store
  | store, .call call => store.perform credential call
  | store, .count storage => (store.count storage, store)
  | store, .isEmpty => (store.isEmpty, store)

/-- A store stands for a catalogue. -/
structure Shows (store : Store) (catalogue : Catalogue) : Prop where
  records : ∀ storage key, store.find? storage key = catalogue.find? storage key
  names : ∀ name, name ∈ store.storages ↔ name ∈ catalogue.names

theorem mem_put : name ∈ (store.put storage key stored).storages ↔
    name = storage ∨ name ∈ store.storages := by
  simp only [put, Std.TreeMap.mem_alter, Std.LawfulEqOrd.compare_eq_iff_eq]
  split
  · rename_i h
    simp [h]
  · rename_i h
    simp [Ne.symm h]

theorem mem_drop : name ∈ (store.drop storage key).storages ↔ name ∈ store.storages := by
  rw [drop, Std.TreeMap.mem_modify]

theorem mem_of_find? (found : store.find? storage key = some stored) :
    storage ∈ store.storages := by
  apply Std.TreeMap.mem_keys.1
  apply mem_keys_of_find?
  rw [found]
  rfl

theorem mem_values_iff {records : Storage} :
    records ∈ store.storages.values ↔
      ∃ storage : String, store.storages[storage]? = some records := by
  rw [values_eq_map_toList, List.mem_map]
  constructor
  · rintro ⟨⟨storage, _⟩, hentry, rfl⟩
    exact ⟨storage, Std.TreeMap.mem_toList_iff_getElem?_eq_some.1 hentry⟩
  · rintro ⟨storage, hrecords⟩
    exact ⟨(storage, records), Std.TreeMap.mem_toList_iff_getElem?_eq_some.2 hrecords, rfl⟩

theorem isEmpty_records_iff {records : Storage} :
    records.isEmpty = true ↔ ∀ key : Token, records[key]? = none := by
  simp only [Std.TreeMap.isEmpty_iff_forall_not_mem, Std.TreeMap.mem_iff_isSome_getElem?,
    Bool.not_eq_true, Option.isSome_eq_false_iff, Option.isNone_iff_eq_none]

/-- A store is empty if it keeps nothing under any storage and key. -/
theorem isEmpty_iff : store.isEmpty = true ↔ ∀ storage key, store.find? storage key = none := by
  rw [isEmpty, List.all_eq_true]
  constructor
  · intro hall storage key
    rw [find?]
    cases hrecords : store.storages[storage]? with
    | none => rfl
    | some records =>
        have hempty := hall records (mem_values_iff.2 ⟨storage, hrecords⟩)
        exact isEmpty_records_iff.1 hempty key
  · intro hnone records hmem
    obtain ⟨storage, hrecords⟩ := mem_values_iff.1 hmem
    apply isEmpty_records_iff.2
    intro key
    have hkey := hnone storage key
    rw [find?, hrecords] at hkey
    exact hkey

namespace Shows

theorem create (shows : store.Shows catalogue) (storage : String) (key : Token)
    (stored : Stored) :
    (store.put storage key stored).Shows ((catalogue.put storage key stored).enter storage) where
  records name other := by
    rw [find?_put, Catalogue.find?_enter, Catalogue.find?_put, shows.records]
  names name := by
    rw [mem_put, shows.names]
    exact Finset.mem_insert.symm

theorem update (shows : store.Shows catalogue) (found : store.find? storage key = some stored)
    (later : Stored) : (store.put storage key later).Shows (catalogue.put storage key later) where
  records name other := by
    rw [find?_put, Catalogue.find?_put, shows.records]
  names name := by
    rw [mem_put, shows.names]
    constructor
    · rintro (rfl | hmem)
      · exact (shows.names name).1 (mem_of_find? found)
      · exact hmem
    · exact Or.inr

theorem delete (shows : store.Shows catalogue) (storage : String) (key : Token) :
    (store.drop storage key).Shows (catalogue.drop storage key) where
  records name other := by
    rw [find?_drop, Catalogue.find?_drop, shows.records]
  names name := by
    rw [mem_drop, shows.names]
    rfl

/-- The keys of a storage are those of the catalogue, in their order. -/
theorem listed_eq (shows : store.Shows catalogue) (storage : String) :
    store.listed storage = (catalogue.keys storage).sort KeyOrder := by
  have hlisted : (store.listed storage).Pairwise fun a b => a.toNat < b.toNat := by
    apply (store.pairwise_listed storage).imp
    intro a b hless
    exact UInt64.lt_iff_toNat_lt.1 (Std.compare_eq_lt.1 hless)
  have : Std.Irrefl fun a b : Token => a.toNat < b.toNat := ⟨fun _ => Nat.lt_irrefl _⟩
  have : Std.Antisymm fun a b : Token => a.toNat < b.toNat :=
    ⟨fun _ _ hless hmore => absurd hmore (Nat.lt_asymm hless)⟩
  apply hlisted.eq_of_mem_iff (Catalogue.pairwise_sort_keys _)
  intro key
  rw [mem_listed_iff, Finset.mem_sort, Catalogue.mem_keys_iff, shows.records]

/-- The names of the storages are those of the catalogue, in their order. -/
theorem keys_eq (shows : store.Shows catalogue) :
    store.storages.keys = catalogue.names.sort NameOrder := by
  have hkeys : store.storages.keys.Pairwise fun a b => nameBytes a < nameBytes b := by
    apply Std.TreeMap.ordered_keys.imp
    intro a b hless
    exact nameBytes_lt_iff.2 (compareOfLessAndEq_eq_lt.1 hless)
  have : Std.Irrefl fun a b : String => nameBytes a < nameBytes b := ⟨fun _ => List.lt_irrefl _⟩
  have : Std.Antisymm fun a b : String => nameBytes a < nameBytes b :=
    ⟨fun _ _ hless hmore => absurd hmore (List.lt_asymm hless)⟩
  apply hkeys.eq_of_mem_iff (Catalogue.pairwise_sort_names _)
  intro name
  rw [Std.TreeMap.mem_keys, Finset.mem_sort, shows.names]

theorem count_eq (shows : store.Shows catalogue) (storage : String) :
    store.count storage = (catalogue.keys storage).card := by
  calc
    store.count storage = (store.listed storage).length := by
      rw [count, listed]
      cases store.storages[storage]? with
      | none => rfl
      | some records => exact Std.TreeMap.length_keys.symm
    _ = (catalogue.keys storage).card := by rw [shows.listed_eq, Finset.length_sort]

theorem isEmpty_eq (shows : store.Shows catalogue) :
    store.isEmpty = decide (catalogue.records.keys = ∅) := by
  apply Bool.eq_iff_iff.2
  rw [decide_eq_true_iff, Catalogue.isEmpty_iff, isEmpty_iff]
  simp only [shows.records]

end Shows

/-- The inquiry is an update of a record of the largest version. -/
def Overruns (store : Store) : Inquiry → Prop
  | .call (.record (.update storage key _ version)) =>
    ∃ stored, store.find? storage key = some stored ∧ stored.version = version ∧
      version.toNat + 1 = UInt64.size
  | _ => False

/-- A store answers an inquiry as the catalogue does that it stands for, and stands for the
catalogue afterwards. -/
theorem respond_eq (shows : store.Shows catalogue) (opens : store.opensFor credential = true)
    (inquiry : Inquiry) (spared : ¬ store.Overruns inquiry) :
    (respond credential store inquiry).1 = (Catalogue.respond catalogue inquiry).1 ∧
      (respond credential store inquiry).2.Shows (Catalogue.respond catalogue inquiry).2 := by
  cases inquiry with
  | count storage => exact ⟨shows.count_eq storage, shows⟩
  | isEmpty => exact ⟨shows.isEmpty_eq, shows⟩
  | call call =>
      cases call with
      | names =>
          simp only [respond, perform, Store.names, opens, if_true, Catalogue.respond]
          exact ⟨congrArg _ shows.keys_eq, shows⟩
      | keys storage =>
          simp only [respond, perform, Store.keys, opens, if_true, Catalogue.respond]
          exact ⟨congrArg _ (shows.listed_eq storage), shows⟩
      | record call =>
          cases call with
          | create storage key content version =>
              simp only [respond, perform, Store.create, opens, if_true, Catalogue.respond,
                ← shows.records]
              cases hfound : store.find? storage key with
              | none => exact ⟨rfl, shows.create storage key _⟩
              | some stored => exact ⟨rfl, shows⟩
          | read storage key =>
              simp only [respond, perform, Store.read, opens, if_true, Catalogue.respond,
                ← shows.records]
              exact ⟨trivial, shows⟩
          | update storage key content version =>
              simp only [respond, perform, Store.update, opens, if_true, Catalogue.respond,
                ← shows.records]
              cases hfound : store.find? storage key with
              | none => exact ⟨rfl, shows⟩
              | some stored =>
                  by_cases hversion : stored.version = version
                  · have hsmall : version.toNat + 1 < UInt64.size := by
                      have hsize := version.toNat_lt_size
                      have hspared : version.toNat + 1 ≠ UInt64.size :=
                        fun hlast => spared ⟨stored, hfound, hversion, hlast⟩
                      omega
                    simp only [hversion, ne_eq, not_true_eq_false, if_false, hsmall, if_true]
                    exact ⟨trivial, shows.update hfound _⟩
                  · simp only [hversion, ne_eq, not_false_eq_true, if_true, if_false]
                    exact ⟨trivial, shows⟩
          | delete storage key version =>
              simp only [respond, perform, Store.delete, opens, if_true, Catalogue.respond,
                ← shows.records]
              cases hfound : store.find? storage key with
              | none => exact ⟨rfl, shows⟩
              | some stored =>
                  by_cases hversion : stored.version = version
                  · simp only [hversion, ne_eq, not_true_eq_false, if_false, if_true]
                    exact ⟨trivial, shows.delete storage key⟩
                  · simp only [hversion, ne_eq, not_false_eq_true, if_true, if_false]
                    exact ⟨trivial, shows⟩

/-! ### Changes -/

/-- What an inquiry can make of a store, if it is no update of a record of the largest version. -/
inductive Changes (store : Store) : Entry → Store → Prop where
  /-- The store stays as it is. -/
  | stays {entry : Entry} (created : entry.created? = none)
      (updated : ∀ storage key, entry.updated? storage key = none)
      (deletes : ∀ storage key, entry.deletes storage key = false) : Changes store entry store
  /-- A record is created that has been absent. -/
  | created {storage : String} {key : Token} {content : List UInt8} {version : UInt64}
      (absent : store.find? storage key = none) :
      Changes store ⟨.call (.record (.create storage key content version)), .ok version⟩
        (store.put storage key ⟨content, version⟩)
  /-- A record of the expected version is updated. -/
  | updated {storage : String} {key : Token} {content : List UInt8} {stored : Stored}
      (found : store.find? storage key = some stored)
      (grows : stored.version.toNat + 1 < UInt64.size) :
      Changes store
        ⟨.call (.record (.update storage key content stored.version)), .ok (stored.version + 1)⟩
        (store.put storage key ⟨content, stored.version + 1⟩)
  /-- A record of the expected version is deleted. -/
  | deleted {storage : String} {key : Token} {stored : Stored}
      (found : store.find? storage key = some stored) :
      Changes store ⟨.call (.record (.delete storage key stored.version)), .ok true⟩
        (store.drop storage key)

theorem changes_respond (store : Store) (credential : Credential) (inquiry : Inquiry)
    (spared : ¬ store.Overruns inquiry) :
    store.Changes ⟨inquiry, (respond credential store inquiry).1⟩
      (respond credential store inquiry).2 := by
  cases inquiry with
  | count storage => exact .stays rfl (fun _ _ => rfl) fun _ _ => rfl
  | isEmpty => exact .stays rfl (fun _ _ => rfl) fun _ _ => rfl
  | call call =>
      cases call with
      | names => exact .stays rfl (fun _ _ => rfl) fun _ _ => rfl
      | keys storage => exact .stays rfl (fun _ _ => rfl) fun _ _ => rfl
      | record call =>
          cases call with
          | read storage key => exact .stays rfl (fun _ _ => rfl) fun _ _ => rfl
          | create storage key content version =>
              simp only [respond, perform]
              rcases store.create_cases credential storage key content version with
                ⟨error, h⟩ | ⟨absent, h⟩
              · rw [h]
                exact .stays rfl (fun _ _ => rfl) fun _ _ => rfl
              · rw [h]
                exact .created absent
          | update storage key content version =>
              simp only [respond, perform]
              rcases store.update_cases credential storage key content version with
                ⟨error, -, h⟩ | ⟨stored, found, rfl, ⟨grows, h⟩ | ⟨overruns, h⟩⟩
              · rw [h]
                exact .stays rfl (fun _ _ => rfl) fun _ _ => rfl
              · rw [h]
                exact .updated found grows
              · have hsize := stored.version.toNat_lt_size
                exact absurd ⟨stored, found, rfl, by omega⟩ spared
          | delete storage key version =>
              simp only [respond, perform]
              rcases store.delete_cases credential storage key version with
                ⟨answer, idles, h⟩ | ⟨stored, found, rfl, h⟩
              · rw [h]
                rcases answer with error | _ | _
                · exact .stays rfl (fun _ _ => rfl) fun _ _ => rfl
                · exact .stays rfl (fun _ _ => rfl) fun _ _ => rfl
                · cases idles
              · rw [h]
                exact .deleted found

namespace Changes

variable {entry : Entry} {next : Store}

theorem required (changes : store.Changes entry next) : next.required = store.required := by
  cases changes <;> rfl

/-- The names are those in which something is created. -/
theorem mem_iff (changes : store.Changes entry next) (name : String) :
    name ∈ next.storages ↔ name ∈ store.storages ∨ entry.created? = some name := by
  cases changes with
  | stays created updated deletes => simp [created]
  | @created storage key content version absent =>
      rw [mem_put]
      simp only [Entry.created?, Option.some.injEq]
      tauto
  | @updated storage key content stored found grows =>
      rw [mem_put]
      simp only [Entry.created?, reduceCtorEq, or_false]
      constructor
      · rintro (rfl | hmem)
        · exact mem_of_find? found
        · exact hmem
      · exact Or.inr
  | deleted found => simp [mem_drop, Entry.created?]

/-- While a record is not deleted, its successful updates expect its versions, one after the
other. -/
theorem kept (changes : store.Changes entry next) (found : store.find? storage key = some stored)
    (undeleted : entry.deletes storage key = false) :
    entry.updated? storage key = none ∧ next.find? storage key = some stored ∨
      entry.updated? storage key = some stored.version ∧
        stored.version.toNat + 1 < UInt64.size ∧
        ∃ content, next.find? storage key = some ⟨content, stored.version + 1⟩ := by
  cases changes with
  | stays created updated deletes => exact Or.inl ⟨updated storage key, found⟩
  | @created name id content version absent =>
      left
      refine ⟨rfl, ?_⟩
      rw [find?_put, if_neg, found]
      rintro ⟨rfl, rfl⟩
      rw [found] at absent
      cases absent
  | @updated name id content held hheld grows =>
      by_cases hsame : name = storage ∧ id = key
      · obtain ⟨rfl, rfl⟩ := hsame
        rw [found] at hheld
        cases hheld
        right
        refine ⟨?_, grows, content, ?_⟩
        · simp [Entry.updated?]
        · simp [find?_put]
      · left
        refine ⟨?_, ?_⟩
        · simp [Entry.updated?, hsame]
        · rw [find?_put, if_neg hsame, found]
  | @deleted name id held hheld =>
      left
      refine ⟨rfl, ?_⟩
      rw [find?_drop, if_neg, found]
      intro hsame
      simp [Entry.deletes, hsame] at undeleted

end Changes

/-! ## Calls that fail -/

section Failing

variable {error : StoreError} {content : List UInt8} {version : UInt64}

/-- An update that fails leaves the store as it is, unless the record has the largest version.  Then
the payload is in place before the version cannot be counted up, and nothing else has changed. -/
theorem update_of_error
    (fails : (store.update credential storage key content version).1 = .error error) :
    (store.update credential storage key content version).2 = store ∨
      ∃ stored, store.find? storage key = some stored ∧ stored.version = version ∧
        UInt64.size ≤ version.toNat + 1 ∧ error = .versionOverflow ∧
        (∀ other id, (store.update credential storage key content version).2.find? other id =
          if storage = other ∧ key = id then some { stored with content := content }
          else store.find? other id) ∧
        ∀ name, name ∈ (store.update credential storage key content version).2.storages ↔
          name ∈ store.storages := by
  rcases store.update_cases credential storage key content version with
    ⟨failure, other, h⟩ | ⟨stored, found, rfl, ⟨small, h⟩ | ⟨large, h⟩⟩
  · left
    rw [h]
  · rw [h] at fails
    cases fails
  · rw [h] at fails ⊢
    cases fails
    refine .inr ⟨stored, found, rfl, large, rfl, ?_, ?_⟩
    · intro other id
      rw [find?_put]
    · intro name
      rw [mem_put]
      constructor
      · rintro (rfl | mem)
        · exact mem_of_find? found
        · exact mem
      · exact Or.inr

/-- A record of the largest version whose update has failed reads as the new payload. -/
example :
    let full : UInt64 := 18446744073709551615
    let store := (Store.empty none).put "s" (Token.wrapping 1) ⟨[170], full⟩
    let next := (store.update ⟨"node", ""⟩ "s" (Token.wrapping 1) [187] full).2
    (next.find? "s" (Token.wrapping 1)).map Stored.content = some [187] := by
  decide

end Failing

end Store

end RecordRing
