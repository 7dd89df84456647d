import RecordRing.Proofs.Store.Refinement

/-!
# Series of inquiries

Over a series of inquiries a store answers as the catalogue that it stands for
(`Store.entries_eq`).  Its names are those in which the series has created something
(`Store.mem_after_iff`), and while a record is not deleted the updates of it that succeed expect its
versions, one after the other (`Store.updates_consecutive`): of two writers that expect one version
only one succeeds.
-/

namespace RecordRing

/-- What an entry tells about the catalogue that it is an answer of, and about the entries before
it. -/
def Entry.Tells (catalogue : Catalogue) (before : List Entry) : Entry → Prop
  | ⟨.call (.record (.create storage key _ _)), answer⟩ =>
    answer.isOk = true ↔ catalogue.find? storage key = none
  | ⟨.call (.record (.read storage key)), answer⟩ =>
    answer = .ok ((catalogue.find? storage key).map fun stored =>
      ⟨key, stored.content, stored.version⟩)
  | ⟨.call (.record (.update storage key _ version)), answer⟩ =>
    ∀ stored, catalogue.find? storage key = some stored →
      (answer.isOk = true ↔ stored.version = version)
  | ⟨.call (.record (.delete storage key version)), answer⟩ =>
    ∀ stored, catalogue.find? storage key = some stored →
      (answer = .ok true ↔ stored.version = version)
  | ⟨.call (.keys storage), answer⟩ =>
    ∃ keys, answer = .ok keys ∧ keys.Pairwise (fun a b => a.toNat < b.toNat) ∧
      ∀ key, key ∈ keys ↔ (catalogue.find? storage key).isSome = true
  | ⟨.call .names, answer⟩ =>
    ∃ names, answer = .ok names ∧ names.Pairwise (fun a b => nameBytes a < nameBytes b) ∧
      ∀ name, name ∈ names ↔ ∃ entry ∈ before, entry.created? = some name
  | ⟨.count storage, answer⟩ => answer = (catalogue.keys storage).card
  | ⟨.isEmpty, answer⟩ =>
    answer = true ↔ ∀ storage key, catalogue.find? storage key = none

/-- The answers of a catalogue tell of it. -/
theorem Catalogue.tells_respond {catalogue : Catalogue} {before : List Entry}
    (named : ∀ name, name ∈ catalogue.names ↔ ∃ entry ∈ before, entry.created? = some name)
    (inquiry : Inquiry) :
    Entry.Tells catalogue before ⟨inquiry, (Catalogue.respond catalogue inquiry).1⟩ := by
  cases inquiry with
  | count storage => rfl
  | isEmpty => exact decide_eq_true_iff.trans Catalogue.isEmpty_iff
  | call call =>
      cases call with
      | names =>
          refine ⟨_, rfl, Catalogue.pairwise_sort_names _, ?_⟩
          intro name
          rw [Finset.mem_sort, named]
      | keys storage =>
          refine ⟨_, rfl, Catalogue.pairwise_sort_keys _, ?_⟩
          intro key
          rw [Finset.mem_sort, Catalogue.mem_keys_iff]
      | record call =>
          cases call with
          | read storage key => rfl
          | create storage key content version =>
              simp only [Entry.Tells, Catalogue.respond]
              cases catalogue.find? storage key with
              | none => simp [Except.isOk, Except.toBool]
              | some stored => simp [Except.isOk, Except.toBool]
          | update storage key content version =>
              intro stored found
              simp only [Catalogue.respond, found]
              split
              · rename_i h
                simp [Except.isOk, Except.toBool, h]
              · rename_i h
                simp [Except.isOk, Except.toBool, h]
          | delete storage key version =>
              intro stored found
              simp only [Catalogue.respond, found]
              split
              · rename_i h
                simp [h]
              · rename_i h
                simp [h]

namespace Store

variable {store : Store} {catalogue : Catalogue} {required : Option Credential}
  {credential : Credential} {storage : String} {key : Token} {stored : Stored}
  {before inquiries : List Inquiry}

/-- No inquiry of a series is an update of a record of the largest version. -/
def Spares (credential : Credential) : Store → List Inquiry → Prop
  | _, [] => True
  | store, inquiry :: rest =>
    ¬ store.Overruns inquiry ∧ Spares credential (respond credential store inquiry).2 rest

theorem spares_append : Spares credential store (before ++ inquiries) ↔
    Spares credential store before ∧
      Spares credential ((respond credential).after store before) inquiries := by
  induction before generalizing store with
  | nil => exact (and_iff_right trivial).symm
  | cons inquiry before ih =>
      rw [List.cons_append, Spares, Spares, ih, and_assoc]
      rfl

theorem shows_empty (required : Option Credential) :
    (Store.empty required).Shows .empty where
  records storage key := by
    rw [Catalogue.find?_empty]
    simp [find?, empty]
  names name := by simp [empty, Catalogue.empty]

theorem opensFor_respond (opens : store.opensFor credential = true) {inquiry : Inquiry}
    (spared : ¬ store.Overruns inquiry) :
    (respond credential store inquiry).2.opensFor credential = true := by
  rw [opensFor, (store.changes_respond credential inquiry spared).required]
  exact opens

theorem opensFor_after (opens : store.opensFor credential = true)
    (spares : Spares credential store inquiries) :
    ((respond credential).after store inquiries).opensFor credential = true := by
  induction inquiries generalizing store with
  | nil => exact opens
  | cons inquiry inquiries ih => exact ih (opensFor_respond opens spares.1) spares.2

/-- A store answers a series of inquiries as the catalogue that it stands for. -/
theorem entries_eq (shows : store.Shows catalogue) (opens : store.opensFor credential = true)
    (spares : Spares credential store inquiries) :
    (respond credential).entries store inquiries =
        Catalogue.respond.entries catalogue inquiries ∧
      ((respond credential).after store inquiries).Shows
        (Catalogue.respond.after catalogue inquiries) := by
  induction inquiries generalizing store catalogue with
  | nil => exact ⟨rfl, shows⟩
  | cons inquiry inquiries ih =>
      obtain ⟨hspared, hrest⟩ := spares
      obtain ⟨hanswer, hshows⟩ := respond_eq shows opens inquiry hspared
      obtain ⟨hentries, hafter⟩ := ih hshows (opensFor_respond opens hspared) hrest
      refine ⟨?_, hafter⟩
      rw [Responder.entries, Responder.entries, hanswer, hentries]

/-- The names are those in which something has been created. -/
theorem mem_after_iff (spares : Spares credential store inquiries) (name : String) :
    name ∈ ((respond credential).after store inquiries).storages ↔ name ∈ store.storages ∨
      ∃ entry ∈ (respond credential).entries store inquiries, entry.created? = some name := by
  induction inquiries generalizing store with
  | nil => simp [Responder.after, Responder.entries]
  | cons inquiry inquiries ih =>
      obtain ⟨hspared, hrest⟩ := spares
      rw [Responder.after, Responder.entries, List.exists_mem_cons_iff, ih hrest,
        (store.changes_respond credential inquiry hspared).mem_iff, or_assoc]

/-- The updates of a record that succeed before it is deleted expect its versions, one after the
other. -/
theorem updates_consecutive (found : store.find? storage key = some stored)
    (spares : Spares credential store inquiries)
    (undeleted : ∀ entry ∈ (respond credential).entries store inquiries,
      entry.deletes storage key = false) :
    ∃ count, (((respond credential).entries store inquiries).filterMap
      (Entry.updated? storage key)).map UInt64.toNat =
        List.range' stored.version.toNat count := by
  induction inquiries generalizing store stored with
  | nil => exact ⟨0, rfl⟩
  | cons inquiry inquiries ih =>
      obtain ⟨hspared, hrest⟩ := spares
      rw [Responder.entries, List.forall_mem_cons] at undeleted
      rcases (store.changes_respond credential inquiry hspared).kept found undeleted.1 with
        ⟨hnone, hfound⟩ | ⟨hupdated, grows, content, hfound⟩
      · obtain ⟨count, hcount⟩ := ih hfound hrest undeleted.2
        refine ⟨count, ?_⟩
        rw [Responder.entries, List.filterMap_cons_none hnone, hcount]
      · obtain ⟨count, hcount⟩ := ih hfound hrest undeleted.2
        refine ⟨count + 1, ?_⟩
        have hnext : (stored.version + 1).toNat = stored.version.toNat + 1 := by
          rw [UInt64.toNat_add]
          exact Nat.mod_eq_of_lt grows
        rw [Responder.entries, List.filterMap_cons_some hupdated, List.map_cons, hcount, hnext]
        rfl

/-- What a store keeps that has created a record under a storage and key. -/
theorem find?_of_created {content : List UInt8} {version : UInt64} {inquiry : Inquiry}
    (spared : ¬ store.Overruns inquiry)
    (created : ⟨inquiry, (respond credential store inquiry).1⟩ =
      (⟨.call (.record (.create storage key content version)), .ok version⟩ : Entry)) :
    (respond credential store inquiry).2.find? storage key = some ⟨content, version⟩ := by
  have hchanges := store.changes_respond credential inquiry spared
  rw [created] at hchanges
  generalize (respond credential store inquiry).2 = next at hchanges
  cases hchanges with
  | stays uncreated _ _ => cases uncreated
  | created absent => simp [find?_put]

/-- The updates of a record that succeed after it is created and before it is deleted expect the
created version and those after it. -/
theorem updates_consecutive_of_created {content : List UInt8} {version : UInt64}
    {before middle rest : List Entry} (spares : Spares credential store inquiries)
    (parts : (respond credential).entries store inquiries = before ++
      ⟨.call (.record (.create storage key content version)), .ok version⟩ :: middle ++ rest)
    (undeleted : ∀ entry ∈ middle, entry.deletes storage key = false) :
    ∃ count, (middle.filterMap (Entry.updated? storage key)).map UInt64.toNat =
      List.range' version.toNat count := by
  obtain ⟨first, last, rfl, hfirst, -⟩ := Responder.entries_eq_append parts
  obtain ⟨sooner, later, rfl, -, hlater⟩ := Responder.entries_eq_append hfirst
  obtain ⟨-, hspares⟩ := spares_append.1 (spares_append.1 spares).1
  cases later with
  | nil => cases hlater
  | cons inquiry later =>
      obtain ⟨hcreated, rfl⟩ := List.cons.inj hlater
      exact updates_consecutive (find?_of_created hspares.1 hcreated) hspares.2 undeleted

/-- The answers of a store that has been empty tell of the catalogue that it stands for. -/
theorem tells_of_entries {before rest : List Entry} {entry : Entry}
    (opens : (Store.empty required).opensFor credential = true)
    (spares : Spares credential (Store.empty required) inquiries)
    (parts : (respond credential).entries (Store.empty required) inquiries =
      before ++ entry :: rest) :
    entry.Tells (Catalogue.respond.after .empty (before.map Entry.inquiry)) before := by
  obtain ⟨sooner, later, rfl, rfl, hlater⟩ := Responder.entries_eq_append parts
  obtain ⟨hsooner, hspares⟩ := spares_append.1 spares
  obtain ⟨-, hafter⟩ := entries_eq (shows_empty required) opens hsooner
  rw [Responder.map_inquiry_entries]
  cases later with
  | nil => cases hlater
  | cons inquiry later =>
      obtain ⟨rfl, -⟩ := List.cons.inj hlater
      rw [(respond_eq hafter (opensFor_after opens hsooner) inquiry hspares.1).1]
      apply Catalogue.tells_respond
      intro name
      rw [← hafter.names, mem_after_iff hsooner]
      simp [empty]

/-- A store that opens for a credential answers as a finite catalogue does, as long as no record of
the largest version is updated: what its answers tell of the catalogue is right, and the updates of
a record that succeed after it has been created and before it is deleted expect the created version
and those after it, each of them once. -/
theorem answers_as_catalogue (opens : (Store.empty required).opensFor credential = true)
    (spares : Spares credential (Store.empty required) inquiries) :
    (respond credential).entries (Store.empty required) inquiries =
      Catalogue.respond.entries .empty inquiries ∧
    (∀ before entry rest,
      (respond credential).entries (Store.empty required) inquiries = before ++ entry :: rest →
        entry.Tells (Catalogue.respond.after .empty (before.map Entry.inquiry)) before) ∧
    (∀ before storage key content version middle rest,
      (respond credential).entries (Store.empty required) inquiries = before ++
        ⟨.call (.record (.create storage key content version)), .ok version⟩ :: middle ++ rest →
      (∀ entry ∈ middle, entry.deletes storage key = false) →
        (middle.filterMap (Entry.updated? storage key)).Nodup ∧
        ∃ count, (middle.filterMap (Entry.updated? storage key)).map UInt64.toNat =
          List.range' version.toNat count) := by
  refine ⟨(entries_eq (shows_empty required) opens spares).1, ?_, ?_⟩
  · intro before entry rest parts
    exact tells_of_entries opens spares parts
  · intro before storage key content version middle rest parts undeleted
    obtain ⟨count, hcount⟩ := updates_consecutive_of_created spares parts undeleted
    refine ⟨?_, count, hcount⟩
    -- The numbers of a range differ, and so do the versions.
    apply List.Nodup.of_map UInt64.toNat
    rw [hcount]
    exact List.nodup_range'

/-- The party that opens the store of the rivals. -/
def rival : Credential := ⟨"alice", "key"⟩

/-- Two writers of one record both have seen its first version; later the record is deleted and
created again, and a storage is emptied. -/
def rivalry : List Inquiry :=
  let key := Token.wrapping 1
  [.call (.record (.create "b" key [] 5)), .call (.record (.update "b" key [1] 5)),
    .call (.record (.update "b" key [2] 5)), .call (.record (.update "b" key [2] 6)),
    .call (.record (.delete "b" key 7)), .call (.record (.create "b" key [] 2)),
    .call (.record (.update "b" key [3] 2)), .call (.record (.create "a" key [] 0)),
    .call (.record (.delete "a" key 0)), .call .names]

/-- Only the first of the rivals succeeds with the version that both have seen, and the emptied
storage is listed. -/
theorem answers_as_catalogue_rivalry :
    (Store.empty (some rival)).opensFor rival = true ∧
    Spares rival (Store.empty (some rival)) rivalry ∧
    (Catalogue.respond.entries .empty rivalry).filterMap
      (Entry.updated? "b" (Token.wrapping 1)) = [5, 6, 2] ∧
    ⟨.call .names, .ok ["a", "b"]⟩ ∈ Catalogue.respond.entries .empty rivalry := by
  have hopens : (Store.empty (some rival)).opensFor rival = true := by decide
  have hspares : Spares rival (Store.empty (some rival)) rivalry := by
    refine ⟨id, ?_, ?_, ?_, id, id, ?_, id, id, id, trivial⟩
    all_goals
      rintro ⟨-, -, -, hlast⟩
      exact absurd hlast (by decide)
  have hentries := (answers_as_catalogue hopens hspares).1
  refine ⟨hopens, hspares, ?_, ?_⟩
  · rw [← hentries]
    rfl
  · rw [← hentries]
    apply List.mem_of_getLast?
    rfl

end Store

end RecordRing
