import Mathlib.Data.List.Sort
import RecordRing.Node.Basic
import RecordRing.Lock

/-!
# The records that take part in migration

A pass of migration goes over the storages of a node by name, leaves the excluded ones out, and goes
over the keys of each other one in ascending order.  `Node.scan` is what it goes over: every record
that the node keeps in a storage that is not excluded (`Node.mem_scan_iff`), each of them once and
in the order of storages and keys (`Node.pairwise_scan`).

## Implementation notes

The keys of a storage are determined by what the store keeps under them (`Store.listed_congr`), so a
storage from which nothing has been moved is listed as it was at the beginning of the pass.
-/

namespace RecordRing

/-! ## Stores -/

namespace Store

variable {store other : Store} {storage : String} {key : Token}

/-- The keys of a storage in ascending order; a storage without records has none. -/
def listed (store : Store) (storage : String) : List Token :=
  store.storages[storage]?.elim [] Std.TreeMap.keys

theorem mem_listed_iff : key ∈ store.listed storage ↔ (store.find? storage key).isSome := by
  rw [listed, find?]
  cases store.storages[storage]? with
  | none => simp
  | some records =>
      rw [Option.elim_some, Option.bind_some, Std.TreeMap.mem_keys,
        Std.TreeMap.mem_iff_isSome_getElem?]

theorem pairwise_listed (store : Store) (storage : String) :
    (store.listed storage).Pairwise fun a b => compare a b = .lt := by
  rw [listed]
  cases store.storages[storage]? with
  | none => exact .nil
  | some records => exact Std.TreeMap.ordered_keys

/-- The keys of a storage are determined by what is kept under them. -/
theorem listed_congr (same : ∀ key, store.find? storage key = other.find? storage key) :
    store.listed storage = other.listed storage := by
  have : Std.Antisymm fun a b : Token => compare a b = .lt :=
    ⟨fun _ _ hless hmore => absurd hmore (Std.OrientedCmp.not_lt_of_lt hless)⟩
  have : Std.Irrefl fun a b : Token => compare a b = .lt := ⟨fun _ h => by simp at h⟩
  refine (store.pairwise_listed storage).eq_of_mem_iff (other.pairwise_listed storage) fun key => ?_
  rw [mem_listed_iff, mem_listed_iff, same]

/-- A storage with a record is among the names of the storages. -/
theorem mem_keys_of_find? (h : (store.find? storage key).isSome) :
    storage ∈ store.storages.keys := by
  rw [Std.TreeMap.mem_keys, Std.TreeMap.mem_iff_isSome_getElem?]
  rw [find?] at h
  cases hrecords : store.storages[storage]? with
  | none =>
      rw [hrecords] at h
      cases h
  | some records => rfl

end Store

/-! ## Nodes -/

namespace Node

variable {node : Node} {storage : String} {storages : List String} {id : LockId}

/-- What a pass of migration goes over when these storages are left. -/
def remaining (node : Node) (storages : List String) : List LockId :=
  storages.flatMap fun storage =>
    if node.config.isExcluded storage then []
    else (node.store.listed storage).map (LockId.mk storage)

/-- What a pass of migration goes over. -/
def scan (node : Node) : List LockId := node.remaining node.store.storages.keys

theorem remaining_cons_of_excluded (h : node.config.isExcluded storage = true) :
    node.remaining (storage :: storages) = node.remaining storages := by
  rw [remaining, List.flatMap_cons, if_pos h, List.nil_append, remaining]

theorem remaining_cons (h : ¬ node.config.isExcluded storage = true) :
    node.remaining (storage :: storages) =
      (node.store.listed storage).map (LockId.mk storage) ++ node.remaining storages := by
  rw [remaining, List.flatMap_cons, if_neg h, remaining]

theorem mem_remaining_iff : id ∈ node.remaining storages ↔ id.storage ∈ storages ∧
    node.config.isExcluded id.storage = false ∧
      (node.store.find? id.storage id.key).isSome := by
  rw [remaining, List.mem_flatMap]
  constructor
  · rintro ⟨storage, hmem, hid⟩
    by_cases hexcluded : node.config.isExcluded storage = true
    · rw [if_pos hexcluded] at hid
      cases hid
    · rw [if_neg hexcluded, List.mem_map] at hid
      obtain ⟨key, hkey, rfl⟩ := hid
      exact ⟨hmem, Bool.eq_false_iff.2 hexcluded, Store.mem_listed_iff.1 hkey⟩
  · rintro ⟨hmem, hincluded, hfound⟩
    refine ⟨id.storage, hmem, ?_⟩
    rw [if_neg (Bool.eq_false_iff.1 hincluded)]
    exact List.mem_map.2 ⟨id.key, Store.mem_listed_iff.2 hfound, rfl⟩

/-- A pass goes over every record that the node keeps, except in storages whose names are those of
excluded ones up to the case of the letters `A` to `Z`. -/
theorem mem_scan_iff (node : Node) (id : LockId) :
    id ∈ node.scan ↔ (node.store.find? id.storage id.key).isSome ∧
      ∀ name ∈ node.config.excluded,
        id.storage.toList.map Char.toLower ≠ name.toList.map Char.toLower := by
  rw [scan, mem_remaining_iff]
  have hexcluded : node.config.isExcluded id.storage = false ↔ ∀ name ∈ node.config.excluded,
      id.storage.toList.map Char.toLower ≠ name.toList.map Char.toLower := by
    simp [Config.isExcluded, Config.sameName]
  rw [hexcluded]
  constructor
  · rintro ⟨-, hincluded, hfound⟩
    exact ⟨hfound, hincluded⟩
  · rintro ⟨hfound, hincluded⟩
    exact ⟨Store.mem_keys_of_find? hfound, hincluded, hfound⟩

/-- A pass goes over the storages by name, and over the keys of each in ascending order. -/
theorem pairwise_scan (node : Node) :
    node.scan.Pairwise fun before after => compare before.storage after.storage = .lt ∨
      before.storage = after.storage ∧ compare before.key after.key = .lt := by
  rw [scan, remaining, List.pairwise_flatMap]
  have hmem : ∀ {storage : String} {id : LockId},
      id ∈ (if node.config.isExcluded storage then []
        else (node.store.listed storage).map (LockId.mk storage)) → id.storage = storage := by
    intro storage id hid
    split at hid
    · cases hid
    · obtain ⟨key, -, rfl⟩ := List.mem_map.1 hid
      rfl
  constructor
  · intro storage hstorage
    split
    · exact .nil
    · rw [List.pairwise_map]
      exact (node.store.pairwise_listed storage).imp fun hless => .inr ⟨rfl, hless⟩
  · refine Std.TreeMap.ordered_keys.imp fun hless before hbefore after hafter => .inl ?_
    rw [hmem hbefore, hmem hafter]
    exact hless

theorem nodup_scan (node : Node) : node.scan.Nodup := by
  refine node.pairwise_scan.imp fun hless heq => ?_
  subst heq
  rcases hless with hless | ⟨-, hless⟩
  · simp at hless
  · simp at hless

end Node

end RecordRing
