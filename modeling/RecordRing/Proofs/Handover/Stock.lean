import Mathlib.Logic.Function.Basic
import RecordRing.Proofs.Handover.Hauling

/-!
# Passes that always come to an end

A network is stocked when no lock is held and every record is kept once: `Stocked` tells who keeps
the record of a key.  A pass of a node hands its records to their owners one after the other, unless
a lookup fails on the way (`pass_achieves`).  When the pass has ended well, the node keeps no record
of another owner.

## Implementation notes

An owner is whatever the lookups of the node name; they need not be lookups on a ring.
-/

namespace RecordRing

namespace Network

variable {net now after : Network} {name storage : String} {holder last : Token → Option Token}
  {number : Nat} {handle peer : Handle} {node new : Node} {id key source target : Token}
  {stored : Stored} {config : Config} {members : List Token}

/-- A node stands at every handle to which the directory leads. -/
theorem Populated.houses_of_listed (populated : net.Populated config members)
    (listed : net.directory[id]? = some handle) : ∃ node, net.Houses id handle node := by
  obtain ⟨peer, node, houses⟩ := populated.houses (populated.listed id handle listed)
  obtain rfl : handle = peer := Option.some.inj (listed.symm.trans houses.listed)
  exact ⟨node, houses⟩

/-- Different identifiers lead to different handles. -/
theorem Populated.listed_inj (populated : net.Populated config members)
    (listed : net.directory[id]? = some handle) (listed' : net.directory[key]? = some handle) :
    id = key := by
  obtain ⟨node, houses⟩ := populated.houses_of_listed listed
  exact populated.handle_inj houses ⟨listed', houses.stands⟩

/-! ## Who keeps which record -/

/-- All records are in one storage and no lock is held, and the table tells who keeps the record of
a key. -/
structure Stocked (net : Network) (name : String) (holder : Token → Option Token) : Prop where
  opens : ∀ handle node, net.nodeAt? handle = some node → node.opens = true
  free : ∀ handle lock, net.lock? handle lock = none
  keeps : ∀ (id : Token) handle, net.directory[id]? = some handle → ∀ lock,
    (net.stored? handle lock).isSome = true ↔ lock.storage = name ∧ holder lock.key = some id

theorem Keeps.stocked (h : net.Keeps after) (stocked : net.Stocked name holder) :
    after.Stocked name holder where
  opens handle node found := stocked.opens handle node (h.nodeAt? handle ▸ found)
  free handle lock := by rw [lock?_congr h.nodeAt?, stocked.free]
  keeps id handle listed lock := by
    rw [stored?, h.nodeAt?, ← stored?]
    exact stocked.keeps id handle (h.directory ▸ listed) lock

namespace Stocked

/-- A node is overwritten by one with the same records and locks. -/
theorem setNode (stocked : net.Stocked name holder) (stands : net.nodeAt? handle = some node)
    (store : new.store = node.store) (locks : new.locks = node.locks)
    (config : new.config = node.config) : (net.setNode handle new).Stocked name holder where
  opens other later found := by
    rw [nodeAt?_setNode] at found
    split at found
    · rename_i heq
      subst heq
      rw [stands, Option.map_some, Option.some.injEq] at found
      rw [← found, Node.opens, store, config]
      exact stocked.opens handle node stands
    · exact stocked.opens other later found
  free other lock := by
    have hfree := stocked.free other lock
    rw [lock?, nodeAt?_setNode]
    split
    · rename_i heq
      subst heq
      rw [lock?_of_nodeAt? stands] at hfree
      rw [stands, Option.map_some, Option.bind_some, locks, hfree]
    · exact hfree
  keeps id other listed lock := by
    rw [directory_setNode] at listed
    rw [← stocked.keeps id other listed lock, stored?, nodeAt?_setNode]
    split
    · rename_i heq
      subst heq
      rw [stored?_of_nodeAt? stands, stands, Option.map_some, Option.bind_some, store]
    · rfl

/-- What is kept has changed as two tables say. -/
theorem hauls {kept : Handle → LockId → Option Stored} (stocked : net.Stocked name holder)
    (hauls : net.Hauls after kept net.lock?)
    (keeps : ∀ (id : Token) handle, net.directory[id]? = some handle → ∀ lock,
      (kept handle lock).isSome = true ↔ lock.storage = name ∧ last lock.key = some id) :
    after.Stocked name last where
  opens handle later found := by
    have hopens := hauls.alters.opens handle
    rw [found, Option.map_some] at hopens
    obtain ⟨node, hnode, hsame⟩ := Option.map_eq_some_iff.1 hopens.symm
    rw [← hsame]
    exact stocked.opens handle node hnode
  free handle lock := by rw [hauls.lock?, stocked.free]
  keeps id handle listed lock := by
    rw [hauls.stored?]
    exact keeps id handle (hauls.frame.directory ▸ listed) lock

variable (populated : net.Populated config members)
include populated

/-- A node takes a record that nobody has kept. -/
theorem created (stocked : net.Stocked name holder) (houses : net.Houses id handle node)
    (new : holder key = none) (hauls : net.Hauls after
      (overwriting net.stored? handle ⟨name, key⟩ (some stored)) net.lock?) :
    after.Stocked name (Function.update holder key (some id)) := by
  refine stocked.hauls hauls fun other place listed lock => ?_
  have hkeeps := stocked.keeps other place listed lock
  by_cases hlock : lock = ⟨name, key⟩
  · subst hlock
    rw [Function.update_self]
    by_cases hplace : handle = place
    · subst hplace
      obtain rfl : other = id := populated.handle_inj ⟨listed, houses.stands⟩ houses
      rw [overwriting_self]
      exact ⟨fun _ => ⟨rfl, rfl⟩, fun _ => rfl⟩
    · rw [overwriting_of_ne fun heq => hplace (congrArg Prod.fst heq), hkeeps, new]
      refine ⟨fun h => absurd h.2 (Option.some_ne_none _).symm, fun h => absurd ?_ hplace⟩
      rw [Option.some.injEq] at h
      exact Option.some.inj (houses.listed.symm.trans (h.2 ▸ listed))
  · rw [overwriting_of_ne fun heq => hlock (congrArg Prod.snd heq).symm, hkeeps]
    refine and_congr_right fun hstorage => ?_
    rw [Function.update_of_ne]
    rintro rfl
    exact hlock (congrArg (LockId.mk · lock.key) hstorage)

/-- A record moves from one node to another. -/
theorem moved (stocked : net.Stocked name holder) (houses : net.Houses id handle node)
    (meets : net.Houses target peer new) (other : target ≠ id) (kept : holder key = some id)
    (hauls : net.Hauls after (moving net.stored? handle peer ⟨name, key⟩) net.lock?) :
    after.Stocked name (Function.update holder key (some target)) := by
  have hhad := (stocked.keeps id handle houses.listed ⟨name, key⟩).2 ⟨rfl, kept⟩
  refine stocked.hauls hauls fun owner place hplace lock => ?_
  have hkeeps := stocked.keeps owner place hplace lock
  by_cases hlock : lock = ⟨name, key⟩
  · subst hlock
    rw [Function.update_self, Option.some.injEq, moving]
    by_cases hsource : handle = place
    · subst hsource
      obtain rfl := populated.listed_inj hplace houses.listed
      rw [overwriting_self]
      exact ⟨fun h => absurd h (Bool.false_ne_true), fun h => absurd h.2 other⟩
    · rw [overwriting_of_ne fun heq => hsource (congrArg Prod.fst heq)]
      by_cases htarget : peer = place
      · subst htarget
        obtain rfl := populated.listed_inj hplace meets.listed
        rw [overwriting_self]
        exact ⟨fun _ => ⟨rfl, rfl⟩, fun _ => hhad⟩
      · rw [overwriting_of_ne fun heq => htarget (congrArg Prod.fst heq), hkeeps, kept,
          Option.some.injEq]
        refine ⟨fun h => absurd ?_ hsource, fun h => absurd ?_ htarget⟩
        · exact Option.some.inj (houses.listed.symm.trans (h.2 ▸ hplace))
        · exact Option.some.inj (meets.listed.symm.trans (h.2 ▸ hplace))
  · rw [moving, overwriting_of_ne fun heq => hlock (congrArg Prod.snd heq).symm,
      overwriting_of_ne fun heq => hlock (congrArg Prod.snd heq).symm, hkeeps]
    refine and_congr_right fun hstorage => ?_
    rw [Function.update_of_ne]
    rintro rfl
    exact hlock (congrArg (LockId.mk · lock.key) hstorage)

end Stocked

/-! ## A pass -/

variable {owner : Token → Token} {storages : List String} {keys : List Token} {moved : Nat}

/-- Records of a node have moved to their owners, and all others are where they were. -/
def Drifts (owner : Token → Token) (id : Token) (holder last : Token → Option Token) : Prop :=
  ∀ key, last key = holder key ∨ holder key = some id ∧ last key = some (owner key)

theorem Drifts.update (drifts : Drifts owner id holder last) (kept : last key = some id) :
    Drifts owner id holder (Function.update last key (some (owner key))) := by
  intro other
  by_cases heq : other = key
  · subst heq
    rw [Function.update_self]
    refine Or.inr ⟨?_, rfl⟩
    exact (drifts other).elim (fun h => h.symm.trans kept) (·.1)
  · rw [Function.update_of_ne heq]
    exact drifts other

/-- A node of a stocked network can hand its records over: its lookups name the owners or fail, and
the other owners have joined. -/
structure Carries (net : Network) (config : Config) (members : List Token) (name : String)
    (holder : Token → Option Token) (owner : Token → Token) (number : Nat) (id : Token)
    (handle : Handle) : Prop where
  populated : net.Populated config members
  stocked : net.Stocked name holder
  listed : net.directory[id]? = some handle
  included : config.isExcluded name = false
  looks : ∀ {now : Network} {node : Node} (key : Token), net.Matches now →
    now.nodeAt? handle = some node → holder key = some id →
    Achieves number now handle (node.lookUp now.surroundings key) fun outcome after =>
      now.Same after ∧ (outcome = .ok (owner key) ∨ ∃ failure, outcome = .error failure)
  joined : ∀ key, holder key = some id → owner key ≠ id →
    ∃ peer target, net.Houses (owner key) peer target ∧ target.lifecycle ≠ .joining

/-- During a pass only records of the node have moved, and they have moved to their owners. -/
structure Carrying (net : Network) (name : String) (holder : Token → Option Token)
    (owner : Token → Token) (id : Token) (now : Network) (last : Token → Option Token) : Prop where
  frame : net.Matches now
  stocked : now.Stocked name last
  drifts : Drifts owner id holder last

/-- What a pass comes to: if it ends well, all records that the node keeps are its own. -/
def Passed (net : Network) (name : String) (holder : Token → Option Token)
    (owner : Token → Token) (id : Token) (outcome : Outcome .count) (after : Network) : Prop :=
  ∃ last, net.Carrying name holder owner id after last ∧
    ∀ count, outcome = .ok count → ∀ key, last key = some id → owner key = id

namespace Carrying

theorem same (passing : net.Carrying name holder owner id now last) (same : now.Same after) :
    net.Carrying name holder owner id after last :=
  ⟨passing.frame.trans (.of_same same), same.keeps.stocked passing.stocked, passing.drifts⟩

/-- A pass that fails. -/
theorem fails (passing : net.Carrying name holder owner id now last)
    (stands : now.nodeAt? handle = some node) (failure : Failure) (number : Nat) :
    Achieves number now handle (node.fail failure) (net.Passed name holder owner id) :=
  .answer_same stands ⟨last, passing, fun _ => nofun⟩

end Carrying

namespace Carries

variable (carries : net.Carries config members name holder owner number id handle)
include carries

/-- A record moves to its owner. -/
theorem moves (passing : net.Carrying name holder owner id now last)
    (stands : now.nodeAt? handle = some node) (kept : last key = some id)
    (other : owner key ≠ id) :
    Achieves number now handle (node.transfer name key (owner key)) fun outcome after =>
      outcome = .ok true ∧
        net.Carrying name holder owner id after (Function.update last key (some (owner key))) := by
  have hheld : holder key = some id :=
    (passing.drifts key).elim (fun h => h.symm.trans kept) (·.1)
  obtain ⟨peer, first, hfirst, hjoined⟩ := carries.joined key hheld other
  obtain ⟨target, htarget, hbare⟩ := passing.frame.houses hfirst
  have hpopulated := passing.frame.populated carries.populated
  have hhouses : now.Houses id handle node :=
    ⟨passing.frame.directory ▸ carries.listed, stands⟩
  have hsame : target.bare.lifecycle = first.bare.lifecycle := congrArg Node.lifecycle hbare
  have hapart : handle ≠ peer := by
    rintro rfl
    exact other (hpopulated.handle_inj htarget hhouses)
  obtain ⟨stored, hstored⟩ := Option.isSome_iff_exists.1
    ((passing.stocked.keeps id handle hhouses.listed ⟨name, key⟩).2 ⟨rfl, kept⟩)
  have hlacks : now.stored? peer ⟨name, key⟩ = none := by
    rw [← Option.not_isSome_iff_eq_none, passing.stocked.keeps _ peer htarget.listed]
    exact fun h => other (Option.some.inj (h.2.symm.trans kept))
  refine (transfer_achieves hpopulated.prompt stands (passing.stocked.opens handle node stands)
    hstored (hpopulated.id_eq hhouses ▸ other) htarget.listed hapart htarget.stands
    (hsame.trans_ne hjoined) (passing.stocked.opens peer target htarget.stands) hlacks
    fun place => passing.stocked.free place _).weaken ?_
  rintro outcome after ⟨houtcome, hafter⟩
  exact ⟨houtcome, passing.frame.trans hafter.frame,
    passing.stocked.moved hpopulated hhouses htarget other kept hafter, passing.drifts.update kept⟩

/-- A pass goes on over the keys of a storage. -/
theorem keys_achieve (passing : net.Carrying name holder owner id now last)
    (stands : now.nodeAt? handle = some node) (distinct : keys.Nodup)
    (mine : ∀ key ∈ keys, storage = name ∧ last key = some id)
    (covers : ∀ key, last key = some id → owner key = id ∨ key ∈ keys ∨ name ∈ storages)
    (goes_on : ∀ {now last node} (moved : Nat), net.Carrying name holder owner id now last →
      now.nodeAt? handle = some node →
      (∀ key, last key = some id → owner key = id ∨ name ∈ storages) →
      Achieves number now handle (node.migrateStorages moved storages)
        (net.Passed name holder owner id)) (moved : Nat) :
    Achieves number now handle (node.migrateKeys storage storages moved keys)
      (net.Passed name holder owner id) := by
  induction keys generalizing now last node moved with
  | nil => exact goes_on moved passing stands fun key h => (covers key h).imp_right (by simp)
  | cons key rest ih =>
      obtain ⟨hfresh, hdistinct⟩ := List.nodup_cons.1 distinct
      obtain ⟨rfl, hkept⟩ := mine key List.mem_cons_self
      have hmine (other : Token) (h : other ∈ rest) : storage = storage ∧ last other = some id :=
        mine other (List.mem_cons_of_mem key h)
      have hheld : holder key = some id :=
        (passing.drifts key).elim (fun h => h.symm.trans hkept) (·.1)
      refine .run_same rfl stands rfl rfl ?_
      refine (carries.looks key passing.frame stands hheld).weaken ?_
      rintro answer asked ⟨hasked, hanswer⟩
      have hpassing := passing.same hasked
      have hstands := (hasked.nodeAt? handle).trans stands
      have hid : node.id = id := (passing.frame.populated carries.populated).id_eq
        ⟨passing.frame.directory ▸ carries.listed, stands⟩
      refine ⟨node, hstands, ?_⟩
      rcases hanswer with rfl | ⟨failure, rfl⟩
      · rw [Node.resume, Node.onOwner, hid]
        by_cases hown : owner key = id
        · rw [if_pos hown]
          refine ih hpassing hstands hdistinct hmine (fun other h => ?_) moved
          rcases covers other h with howned | hmem | hleft
          · exact Or.inl howned
          · rcases List.mem_cons.1 hmem with rfl | hrest
            · exact Or.inl hown
            · exact Or.inr (Or.inl hrest)
          · exact Or.inr (Or.inr hleft)
        · rw [if_neg hown]
          refine .run_same rfl hstands rfl rfl ?_
          refine (carries.moves hpassing hstands hkept hown).weaken ?_
          rintro outcome after ⟨rfl, hafter⟩
          obtain ⟨later, hlater, -⟩ := (hpassing.frame.symm.trans hafter.frame).nodeAt? hstands
          refine ⟨later, hlater, ?_⟩
          have hupdate (other : Token) (hne : other ≠ key) :
              Function.update last key (some (owner key)) other = last other :=
            Function.update_of_ne hne _ _
          refine ih hafter hlater hdistinct (fun other h => ⟨rfl, ?_⟩) (fun other h => ?_) (moved + 1)
          · rw [hupdate other (fun heq => hfresh (heq ▸ h))]
            exact (hmine other h).2
          · by_cases heq : other = key
            · subst heq
              rw [Function.update_self, Option.some.injEq] at h
              exact absurd h hown
            · rw [hupdate other heq] at h
              refine (covers other h).imp_right (Or.imp_left fun hmem => ?_)
              exact (List.mem_cons.1 hmem).resolve_left heq
      · exact hpassing.fails hstands failure number

/-- A pass goes on over some storages. -/
theorem storages_achieve (storages : List String)
    (passing : net.Carrying name holder owner id now last)
    (stands : now.nodeAt? handle = some node)
    (covers : ∀ key, last key = some id → owner key = id ∨ name ∈ storages) (moved : Nat) :
    Achieves number now handle (node.migrateStorages moved storages)
      (net.Passed name holder owner id) := by
  induction storages generalizing now last node moved with
  | nil =>
      refine .answer_same stands ⟨last, passing, fun _ _ key h => ?_⟩
      exact (covers key h).resolve_right List.not_mem_nil
  | cons storage rest ih =>
      have hpopulated := passing.frame.populated carries.populated
      have hlisted : now.directory[id]? = some handle := passing.frame.directory ▸ carries.listed
      have hconfig := (hpopulated.regular_of ⟨hlisted, stands⟩).config
      rw [Node.migrateStorages, hconfig]
      split
      · rename_i hexcluded
        refine ih passing stands (fun key h => (covers key h).imp_right fun hmem => ?_) moved
        refine (List.mem_cons.1 hmem).resolve_left fun heq => ?_
        rw [← heq, carries.included] at hexcluded
        cases hexcluded
      · have hopens : node.store.opensFor node.config.credential = true :=
          passing.stocked.opens handle node stands
        have hperform : node.store.perform node.config.credential (.keys storage) =
            (.ok (node.store.listed storage), node.store) := by
          rw [Store.perform, Store.keys, if_pos hopens]
          rfl
        have hmem (key : Token) : key ∈ node.store.listed storage ↔
            storage = name ∧ last key = some id := by
          rw [Store.mem_listed_iff, ← passing.stocked.keeps id handle hlisted ⟨storage, key⟩,
            stored?_of_nodeAt? stands]
        refine .call rfl stands rfl rfl hpopulated.prompt fun later hlater hstands => ?_
        rw [hperform] at hlater ⊢
        obtain rfl : later = node := hlater
        rw [setNode_self stands]
        refine carries.keys_achieve passing stands ?_ (fun key => (hmem key).1) (fun key h => ?_)
          (fun moved passing stands covers => ih passing stands covers moved) moved
        · refine (later.store.pairwise_listed storage).imp fun hlt heq => ?_
          subst heq
          simp at hlt
        · rcases covers key h with howned | hname
          · exact Or.inl howned
          · refine Or.inr ((List.mem_cons.1 hname).imp_left fun heq => ?_)
            exact (hmem key).2 ⟨heq.symm, h⟩

/-- A pass hands the records to their owners one after the other until a lookup fails. -/
theorem pass_achieves {around : Surroundings} (stands : net.nodeAt? handle = some node) :
    Achieves number net handle (node.start around .migrate) (net.Passed name holder owner id) := by
  have hpassing : net.Carrying name holder owner id net holder :=
    ⟨.of_same (Same.refl net), carries.stocked, fun _ => Or.inl rfl⟩
  have hopens : node.store.opensFor node.config.credential = true :=
    carries.stocked.opens handle node stands
  have hperform : node.store.perform node.config.credential .names =
      (.ok node.store.storages.keys, node.store) := by
    rw [Store.perform, Store.names, if_pos hopens]
  refine .call rfl stands rfl rfl carries.populated.prompt fun later hlater hstands => ?_
  rw [hperform] at hlater ⊢
  obtain rfl : later = node := hlater
  rw [setNode_self stands]
  refine carries.storages_achieve _ hpassing stands (fun key h => Or.inr ?_) 0
  have hkept := (carries.stocked.keeps id handle carries.listed ⟨name, key⟩).2 ⟨rfl, h⟩
  rw [stored?_of_nodeAt? stands] at hkept
  exact Store.mem_keys_of_find? hkept

end Carries

end Network

end RecordRing
