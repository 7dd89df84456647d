import RecordRing.Proofs.Network.Others

/-!
# Records of nodes

What the nodes of a network keep of a record, and what a store that carries out a call does to it
(`carried_access`): it leaves every record in place, or it overwrites the one that the call names.
-/

namespace RecordRing

namespace Network

variable {net after : Network} {handle : Handle} {id : LockId} {shape : Shape}

/-! ## Records of nodes -/

/-- What a node keeps of a record. -/
def stored? (net : Network) (handle : Handle) (id : LockId) : Option Stored :=
  (net.nodeAt? handle).bind fun node => node.store.find? id.storage id.key

/-- A node stands at a handle. -/
def Present (net : Network) (handle : Handle) : Prop :=
  ∃ node, net.nodeAt? handle = some node

/-- The store of a node opens for the node itself. -/
def Opens (net : Network) (handle : Handle) : Prop :=
  ∃ node, net.nodeAt? handle = some node ∧ node.store.opensFor node.config.credential = true

theorem stored?_of_nodeAt? {node : Node} (found : net.nodeAt? handle = some node) (id : LockId) :
    net.stored? handle id = node.store.find? id.storage id.key := by
  rw [stored?, found, Option.bind_some]

namespace Steady

theorem stored? (steady : net.Steady after) (handle : Handle) (id : LockId) :
    after.stored? handle id = net.stored? handle id := by
  have h := congrArg (fun holding => holding.bind fun holding : Token × Store × Config =>
    holding.2.1.find? id.storage id.key) (steady.nodes handle)
  simp only [Option.bind_map] at h
  exact h

theorem present (steady : net.Steady after) (h : net.Present handle) : after.Present handle := by
  obtain ⟨node, found⟩ := h
  have hnodes := steady.nodes handle
  rw [found, Option.map_some] at hnodes
  obtain ⟨later, hlater, -⟩ := Option.map_eq_some_iff.1 hnodes
  exact ⟨later, hlater⟩

theorem opens (steady : net.Steady after) (h : net.Opens handle) : after.Opens handle := by
  obtain ⟨node, found, hopens⟩ := h
  have hnodes := steady.nodes handle
  rw [found, Option.map_some] at hnodes
  obtain ⟨later, hlater, hsame⟩ := Option.map_eq_some_iff.1 hnodes
  obtain ⟨-, hstore, hconfig⟩ := by simpa only [Node.holding, Prod.mk.injEq] using hsame
  exact ⟨later, hlater, by rw [hstore, hconfig, hopens]⟩

end Steady

/-- One node has overwritten one record, and all other records are as they were. -/
structure Writes (net after : Network) (handle : Handle) (id : LockId) (value : Option Stored) :
    Prop where
  stored? : ∀ other name, after.stored? other name =
    if (handle, id) = (other, name) then value else net.stored? other name
  present : ∀ other, net.Present other → after.Present other
  opens : ∀ other, net.Opens other → after.Opens other

theorem Writes.stored?_of_ne {value : Option Stored} (writes : net.Writes after handle id value)
    {other : Handle} {name : LockId} (ne : (handle, id) ≠ (other, name)) :
    after.stored? other name = net.stored? other name := by
  rw [writes.stored?, if_neg ne]

theorem Writes.stored?_self {value : Option Stored} (writes : net.Writes after handle id value) :
    after.stored? handle id = value := by
  rw [writes.stored?, if_pos rfl]

/-- The network after a node has overwritten one record. -/
theorem writes_setNode {node : Node} (found : net.nodeAt? handle = some node) {store : Store}
    {storage : String} {key : Token} {value : Option Stored}
    (written : ∀ other name, store.find? other name =
      if storage = other ∧ key = name then value else node.store.find? other name)
    (opens : ∀ credential, store.opensFor credential = node.store.opensFor credential)
    (number : Nat) (task : Task) :
    net.Writes ((net.setNode handle { node with store := store }).putTask number task) handle
      ⟨storage, key⟩ value := by
  have hat : ∀ other, ((net.setNode handle { node with store := store }).putTask number
      task).nodeAt? other =
        if handle = other then some { node with store := store } else net.nodeAt? other := by
    intro other
    refine (nodeAt?_setNode net handle _ other).trans ?_
    split
    · rename_i h
      rw [← h, found, Option.map_some]
    · rfl
  refine ⟨?_, ?_, ?_⟩
  · intro other name
    rw [Network.stored?, hat]
    by_cases hhandle : handle = other
    · subst hhandle
      rw [if_pos rfl, Option.bind_some, stored?_of_nodeAt? found]
      refine (written name.storage name.key).trans ?_
      by_cases hname : storage = name.storage ∧ key = name.key
      · rw [if_pos hname, if_pos]
        rw [hname.1, hname.2]
      · rw [if_neg hname, if_neg]
        intro h
        obtain ⟨-, rfl⟩ := Prod.mk.inj h
        exact hname ⟨rfl, rfl⟩
    · rw [if_neg hhandle, if_neg fun h => hhandle (congrArg Prod.fst h)]
      rfl
  · rintro other ⟨twin, htwin⟩
    rw [Present, hat]
    split
    · exact ⟨_, rfl⟩
    · exact ⟨twin, htwin⟩
  · rintro other ⟨twin, htwin, hopens⟩
    rw [Opens, hat]
    split
    · rename_i h
      rw [← h, found, Option.some.injEq] at htwin
      refine ⟨_, rfl, ?_⟩
      rw [← htwin] at hopens
      exact (opens _).trans hopens
    · exact ⟨twin, htwin, hopens⟩

/-! ## Calls on a store -/

/-- A store that carries out a call answers it. -/
theorem access_eq {node : Node} (found : net.nodeAt? handle = some node) (number : Nat)
    (purpose : Purpose) (call : StoreCall shape) (stack : Stack shape) :
    ∃ outcome : Outcome shape,
      outcome = (node.store.perform node.config.credential call).1.mapError .store ∧
      net.access number purpose handle call stack =
        (net.setNode handle
          { node with store := (node.store.perform node.config.credential call).2 }).putTask
            number ⟨purpose, shape, .answer outcome, stack⟩ := by
  obtain ⟨member, hm, rfl⟩ := nodeAt?_eq_some.1 found
  refine ⟨_, rfl, ?_⟩
  simp only [access, hm, setNode_eq hm]
  cases (member.node.store.perform member.node.config.credential call).1 <;> rfl

theorem access_of_none (missing : net.nodeAt? handle = none) (number : Nat) (purpose : Purpose)
    (call : StoreCall shape) (stack : Stack shape) :
    net.access number purpose handle call stack = net.dropTask number := by
  have hm : net.member? handle = none := Option.map_eq_none_iff.1 missing
  simp only [access, hm]

/-- A call that leaves the store as it is. -/
theorem access_same {node : Node} (found : net.nodeAt? handle = some node) (number : Nat)
    (purpose : Purpose) {call : StoreCall shape} (stack : Stack shape)
    (same : (node.store.perform node.config.credential call).2 = node.store) :
    net.access number purpose handle call stack = net.putTask number ⟨purpose, shape,
      .answer ((node.store.perform node.config.credential call).1.mapError .store), stack⟩ := by
  obtain ⟨outcome, rfl, haccess⟩ := access_eq found number purpose call stack
  rw [haccess, same]
  exact congrArg (fun net : Network => net.putTask number _) (setNode_self found)

end Network

/-- A call that does not concern a record leaves the store as it is. -/
theorem Store.perform_plain (store : Store) (credential : Credential) {call : StoreCall shape}
    (plain : call.plain = true) : (store.perform credential call).2 = store := by
  cases call with
  | record call => cases plain
  | keys storage => rfl
  | names => rfl

theorem Store.delete_eq {store : Store} {credential : Credential} {storage : String} {key : Token}
    {stored : Stored} (opens : store.opensFor credential = true)
    (found : store.find? storage key = some stored) :
    store.delete credential storage key stored.version = (.ok true, store.drop storage key) := by
  rw [Store.delete, if_pos opens, found]
  exact if_neg (fun h => h rfl)

/-- Whether a store that gives an answer to a call leaves its records in place. -/
def RecordCall.idles {kind : Shape} : RecordCall kind → Except StoreError kind.Value → Bool
  | .create .., .ok _ => false
  | .create .., .error _ => true
  | .read .., _ => true
  | .update .., .ok _ => false
  | .update .., .error failure => failure ≠ .versionOverflow
  | .delete .., .ok removed => !removed
  | .delete .., .error _ => true

namespace Store

variable (store : Store) (credential : Credential) (storage : String) (key : Token)
  (content : List UInt8) (version : UInt64)

/-- A store that creates a record has not had it before; otherwise nothing is created. -/
theorem create_cases :
    (∃ error, store.create credential storage key content version = (.error error, store)) ∨
    store.find? storage key = none ∧ store.create credential storage key content version =
      (.ok version, store.put storage key ⟨content, version⟩) := by
  rw [create]
  split
  · split
    · exact Or.inl ⟨_, rfl⟩
    · rename_i h
      exact Or.inr ⟨h, rfl⟩
  · exact Or.inl ⟨_, rfl⟩

/-- A store that updates a record has had it in the expected version; otherwise nothing changes. -/
theorem update_cases :
    (∃ error, error ≠ .versionOverflow ∧
      store.update credential storage key content version = (.error error, store)) ∨
    ∃ stored, store.find? storage key = some stored ∧ stored.version = version ∧
      (version.toNat + 1 < UInt64.size ∧ store.update credential storage key content version =
          (.ok (version + 1), store.put storage key ⟨content, version + 1⟩) ∨
        UInt64.size ≤ version.toNat + 1 ∧ store.update credential storage key content version =
          (.error .versionOverflow, store.put storage key ⟨content, version⟩)) := by
  rw [update]
  split
  · split
    · exact Or.inl ⟨.notFound storage key, nofun, rfl⟩
    · rename_i stored hfound
      split
      · exact Or.inl ⟨.versionConflict key version stored.version, nofun, rfl⟩
      · rename_i hversion
        refine Or.inr ⟨stored, hfound, Decidable.not_not.1 hversion, ?_⟩
        split
        · rename_i hsmall
          exact Or.inl ⟨hsmall, rfl⟩
        · rename_i hlarge
          exact Or.inr ⟨Nat.not_lt.1 hlarge, rfl⟩
  · exact Or.inl ⟨.unauthorized credential.principal, nofun, rfl⟩

/-- A store that deletes a record has had it in the expected version; otherwise nothing changes. -/
theorem delete_cases :
    (∃ answer, (RecordCall.delete storage key version).idles answer = true ∧
      store.delete credential storage key version = (answer, store)) ∨
    ∃ stored, store.find? storage key = some stored ∧ stored.version = version ∧
      store.delete credential storage key version = (.ok true, store.drop storage key) := by
  rw [delete]
  split
  · split
    · exact Or.inl ⟨_, rfl, rfl⟩
    · rename_i stored hfound
      split
      · exact Or.inl ⟨_, rfl, rfl⟩
      · rename_i hversion
        exact Or.inr ⟨stored, hfound, Decidable.not_not.1 hversion, rfl⟩
  · exact Or.inl ⟨_, rfl, rfl⟩

variable {store credential storage key content version}

/-- A store that creates nothing stays as it is. -/
theorem create_of_error {error : StoreError}
    (fails : (store.create credential storage key content version).1 = .error error) :
    (store.create credential storage key content version).2 = store := by
  rcases store.create_cases credential storage key content version with
    ⟨failure, h⟩ | ⟨absent, h⟩
  · rw [h]
  · rw [h] at fails
    cases fails

/-- A store that deletes nothing stays as it is. -/
theorem delete_of_ne_true
    (fails : (store.delete credential storage key version).1 ≠ .ok true) :
    (store.delete credential storage key version).2 = store := by
  rcases store.delete_cases credential storage key version with
    ⟨answer, idles, h⟩ | ⟨stored, found, held, h⟩
  · rw [h]
  · rw [h] at fails
    exact absurd rfl fails

end Store

namespace Network

variable {net after : Network} {number : Nat} {peer : Handle} {kind : Shape} {node : Node}

/-- What a call that a node's store has carried out means for the records. -/
inductive Carried (net after : Network) (peer : Handle) :
    {kind : Shape} → RecordCall kind → Except StoreError kind.Value → Prop where
  | idle {kind : Shape} {call : RecordCall kind} {answer : Except StoreError kind.Value}
      (idles : call.idles answer = true) (steady : net.Steady after) :
      Carried net after peer call answer
  | created (storage : String) (key : Token) (content : List UInt8) (version : UInt64)
      (free : net.stored? peer ⟨storage, key⟩ = none)
      (writes : net.Writes after peer ⟨storage, key⟩ (some ⟨content, version⟩)) :
      Carried net after peer (.create storage key content version) (.ok version)
  | updated (storage : String) (key : Token) (content : List UInt8) {stored : Stored}
      (copy : net.stored? peer ⟨storage, key⟩ = some stored)
      (small : stored.version.toNat + 1 < UInt64.size)
      (writes : net.Writes after peer ⟨storage, key⟩ (some ⟨content, stored.version + 1⟩)) :
      Carried net after peer (.update storage key content stored.version) (.ok (stored.version + 1))
  | overran (storage : String) (key : Token) (content : List UInt8) {stored : Stored}
      (copy : net.stored? peer ⟨storage, key⟩ = some stored)
      (large : UInt64.size ≤ stored.version.toNat + 1)
      (writes : net.Writes after peer ⟨storage, key⟩ (some ⟨content, stored.version⟩)) :
      Carried net after peer (.update storage key content stored.version) (.error .versionOverflow)
  | deleted (storage : String) (key : Token) {stored : Stored}
      (copy : net.stored? peer ⟨storage, key⟩ = some stored)
      (writes : net.Writes after peer ⟨storage, key⟩ none) :
      Carried net after peer (.delete storage key stored.version) (.ok true)

/-- What a node's store does when it carries out a record call. -/
theorem carried_access (found : net.nodeAt? peer = some node) (number : Nat) (purpose : Purpose)
    (call : RecordCall kind) (stack : Stack kind) :
    net.Carried (net.access number purpose peer (.record call) stack) peer call
      (node.store.perform node.config.credential (.record call)).1 := by
  obtain ⟨outcome, -, haccess⟩ := access_eq found number purpose (.record call) stack
  have hidle : ∀ {answer : Except StoreError kind.Value},
      node.store.perform node.config.credential (.record call) = (answer, node.store) →
      call.idles answer = true →
      net.Carried (net.access number purpose peer (.record call) stack) peer call answer := by
    intro answer hperform hidles
    refine .idle hidles ?_
    rw [access_same found number purpose stack (by rw [hperform])]
    exact .of_member? rfl
  have hwrites : ∀ {answer : Except StoreError kind.Value} {store : Store} {storage : String}
      {key : Token} {value : Option Stored},
      node.store.perform node.config.credential (.record call) = (answer, store) →
      (∀ other name, store.find? other name =
        if storage = other ∧ key = name then value else node.store.find? other name) →
      (∀ credential, store.opensFor credential = node.store.opensFor credential) →
      net.Writes (net.access number purpose peer (.record call) stack) peer ⟨storage, key⟩ value := by
    intro answer store storage key value hperform hwritten hopens
    rw [haccess, hperform]
    exact writes_setNode found hwritten hopens number _
  have hstored : ∀ storage key, net.stored? peer ⟨storage, key⟩ = node.store.find? storage key :=
    fun storage key => stored?_of_nodeAt? found ⟨storage, key⟩
  cases call with
  | create storage key content version =>
      rcases node.store.create_cases node.config.credential storage key content version with
        ⟨error, h⟩ | ⟨hfree, h⟩
      · have hperform : node.store.perform node.config.credential
            (.record (.create storage key content version)) = (.error error, node.store) := h
        rw [hperform]
        exact hidle hperform rfl
      · have hperform : node.store.perform node.config.credential
            (.record (.create storage key content version)) =
              (.ok version, node.store.put storage key ⟨content, version⟩) := h
        rw [hperform]
        exact .created storage key content version ((hstored storage key).trans hfree)
          (hwrites hperform (fun _ _ => Store.find?_put ..) fun _ => rfl)
  | read storage key => exact hidle rfl rfl
  | update storage key content version =>
      rcases node.store.update_cases node.config.credential storage key content version with
        ⟨error, hne, h⟩ | ⟨stored, hfound, rfl, ⟨hsmall, h⟩ | ⟨hlarge, h⟩⟩
      · have hperform : node.store.perform node.config.credential
            (.record (.update storage key content version)) = (.error error, node.store) := h
        rw [hperform]
        exact hidle hperform (by simp [RecordCall.idles, hne])
      · have hperform : node.store.perform node.config.credential
            (.record (.update storage key content stored.version)) =
              (.ok (stored.version + 1),
                node.store.put storage key ⟨content, stored.version + 1⟩) := h
        rw [hperform]
        exact .updated storage key content ((hstored storage key).trans hfound) hsmall
          (hwrites hperform (fun _ _ => Store.find?_put ..) fun _ => rfl)
      · have hperform : node.store.perform node.config.credential
            (.record (.update storage key content stored.version)) =
              (.error .versionOverflow,
                node.store.put storage key ⟨content, stored.version⟩) := h
        rw [hperform]
        exact .overran storage key content ((hstored storage key).trans hfound) hlarge
          (hwrites hperform (fun _ _ => Store.find?_put ..) fun _ => rfl)
  | delete storage key version =>
      rcases node.store.delete_cases node.config.credential storage key version with
        ⟨answer, hidles, h⟩ | ⟨stored, hfound, rfl, h⟩
      · have hperform : node.store.perform node.config.credential
            (.record (.delete storage key version)) = (answer, node.store) := h
        rw [hperform]
        exact hidle hperform hidles
      · have hperform : node.store.perform node.config.credential
            (.record (.delete storage key stored.version)) =
              (.ok true, node.store.drop storage key) := h
        rw [hperform]
        exact .deleted storage key ((hstored storage key).trans hfound)
          (hwrites hperform (fun _ _ => Store.find?_drop ..) fun _ => rfl)

end Network

end RecordRing
