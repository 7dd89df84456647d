import Mathlib.Data.List.TakeWhile
import RecordRing.Proofs.Handover.Scan
import RecordRing.Proofs.Network.Alone
import RecordRing.Proofs.Routing

/-!
# A pass of migration

A node of a ring goes over its records and hands each one that another node owns to its owner.
While every other task rests, the records move one after the other in the order of the scan, until
an owner refuses one; a record that an owner refuses is still where it was, at the node and at the
owner, and so are all records after it (`pass_moves_records`).

A record is never lost on the way and never kept by both nodes when the pass is over, because its
transfer ends either with the record at its owner or with all records unchanged (`onward_transfer`).

## Implementation notes

Whether an owner takes a record over is asked of the network before the pass (`refusal?`).  The
answer is the same when the record's turn comes: the records that have moved by then are other ones.
-/

namespace RecordRing

/-- A refusal depends on the store and the tunables of a node alone. -/
theorem Node.refusal?_congr {node later : Node} (store : later.store = node.store)
    (config : later.config = node.config) {shape : Shape} (call : RecordCall shape) :
    later.refusal? call = node.refusal? call := by
  rw [refusal?, refusal?, store, config]

namespace Network

variable {net now after : Network} {number : Nat} {handle peer : Handle} {node : Node}
  {member : Member} {purpose : Purpose} {id : LockId} {stored : Stored} {owner : Token}

/-! ## Members whose records and locks change -/

theorem Relocks.serves {held : Handle → LockId → Option HeldLock} (h : net.Relocks after held)
    (serves : net.Serves owner peer member) : ∃ later, after.Serves owner peer later ∧
      later.node.bare = member.node.bare ∧ later.node.store = member.node.store ∧
      later.node.config = member.node.config := by
  obtain ⟨later, hlater, hbare⟩ := serves.akin h.akin
  obtain ⟨twin, htwin, -, hstore, hconfig⟩ := h.nodeAt? (nodeAt?_of_member? serves.stands)
  obtain rfl : later.node = twin :=
    Option.some.inj ((nodeAt?_of_member? hlater.stands).symm.trans htwin)
  exact ⟨later, hlater, hbare, hstore, hconfig⟩

theorem Alters.serves {kept : Handle → LockId → Option Stored}
    {held : Handle → LockId → Option HeldLock} (h : net.Alters after kept held)
    (serves : net.Serves owner peer member) : ∃ later, after.Serves owner peer later ∧
      later.node.bare = member.node.bare ∧ later.node.opens = member.node.opens := by
  obtain ⟨later, hlater, hbare⟩ := serves.akin h.akin
  obtain ⟨twin, htwin, -, hopens⟩ := h.nodeAt? (nodeAt?_of_member? serves.stands)
  obtain rfl : later.node = twin :=
    Option.some.inj ((nodeAt?_of_member? hlater.stands).symm.trans htwin)
  exact ⟨later, hlater, hbare, hopens⟩

/-! ## The transfer of a record -/

/-- The records of all nodes after one of them has moved from one node to another. -/
def moving (table : Handle → LockId → Option Stored) (source target : Handle) (id : LockId) :
    Handle → LockId → Option Stored :=
  overwriting (overwriting table target id (table source id)) source id none

/-- A store that opens reads the record that it has. -/
theorem read_of_opens (opens : node.opens = true)
    (found : node.store.find? id.storage id.key = some stored) :
    node.store.perform node.config.credential (.record (.read id.storage id.key)) =
      (.ok (some ⟨id.key, stored.content, stored.version⟩), node.store) := by
  have hopens : node.store.opensFor node.config.credential = true := opens
  rw [Store.perform, Store.read, if_pos hopens, found, Option.map_some]

/-- The transfer of a record up to the moment at which its owner is asked to create it. -/
theorem onward_hand {stack : Stack .flag}
    (at_start : net.tasks[number]? = some ⟨purpose, .flag,
      .start handle (.transfer id.storage id.key owner), stack⟩)
    (found : net.nodeAt? handle = some node) (opens : node.opens = true) (other : owner ≠ node.id)
    (keeps : net.stored? handle id = some stored) (serves : net.Serves owner peer member)
    (free : net.lock? handle id = none) :
    ∃ after, Onward number net after ∧
      net.Relocks after (overwriting net.lock? handle id (some ⟨number, []⟩)) ∧
      after.tasks[number]? = some ⟨purpose, .version,
        .start peer (.serve (.record (.create id.storage id.key stored.content stored.version))),
        .frame handle (.transferHanded id.storage id.key stored.version) stack⟩ := by
  rw [stored?_of_nodeAt? found] at keeps
  obtain ⟨locked, hon₁, hlocked, htask₁⟩ := (takes_start at_start found rfl).lock free
  obtain ⟨holding, hholding, hid, hstore, hconfig⟩ := hlocked.nodeAt? found
  have hopens : holding.opens = true := by rw [← opens, Node.opens, Node.opens, hstore, hconfig]
  have hread := read_of_opens hopens (hstore ▸ keeps)
  obtain ⟨reading, hon₂, halike₂, htask₂⟩ :=
    (takes_resume htask₁ hholding rfl).reads (congrArg Prod.snd hread)
  rw [hread] at htask₂
  obtain ⟨target, hserves, -⟩ := serves.akin (hlocked.alike halike₂).akin
  have hresolve : holding.resolve reading.surroundings owner = some (.remote peer) := by
    rw [Node.resolve, hid, if_neg other]
    exact congrArg (Option.map Contact.remote) hserves.listed
  have hturn : holding.resume reading.surroundings (.transferRead id.storage id.key owner)
      (.ok (some ⟨id.key, stored.content, stored.version⟩)) =
      holding.ask (.remote peer) (.record (.create id.storage id.key stored.content stored.version))
        (.transferHanded id.storage id.key stored.version) := by
    simp only [Node.resume, Node.onTransferRead, hresolve]
  obtain ⟨asking, hon₃, halike₃, htask₃⟩ := Takes.quiet
    (hturn ▸ takes_resume htask₂ ((halike₂.nodeAt? handle).trans hholding) rfl) rfl
  obtain ⟨asked, hasked, -⟩ := hserves.alike halike₃
  obtain ⟨after, hon₄, halike₄, htask₄⟩ := consults_send htask₃ hasked.stands (hasked.passes _)
  exact ⟨after, onward_trans hon₁ (onward_trans hon₂ (onward_trans hon₃ hon₄.onward)),
    hlocked.alike (halike₂.trans (halike₃.trans halike₄)), htask₄⟩

/-- A transfer whose record the owner has refused ends with all locks as they were. -/
theorem onward_refused {stack : Stack .flag} {version : UInt64} {failure : Failure}
    (answered : net.tasks[number]? = some ⟨purpose, .version, .answer (.error failure),
      .frame handle (.transferHanded id.storage id.key version) stack⟩)
    (found : net.nodeAt? handle = some node) (held : net.lock? handle id = some ⟨number, []⟩) :
    ∃ after, Onward number net after ∧ net.Relocks after (overwriting net.lock? handle id none) ∧
      after.tasks[number]? = some ⟨purpose, .flag, .answer (.error failure), stack⟩ := by
  have hreleases : net.Takes number purpose handle stack node ⟨node, [] ++ [.release id], _⟩ :=
    takes_resume answered found rfl
  exact hreleases.release nofun held

/-- A transfer whose record the owner has taken over deletes the record and ends. -/
theorem onward_taken {stack : Stack .flag} {version : UInt64}
    (answered : net.tasks[number]? = some ⟨purpose, .version, .answer (.ok version),
      .frame handle (.transferHanded id.storage id.key stored.version) stack⟩)
    (found : net.nodeAt? handle = some node) (opens : node.opens = true)
    (keeps : net.stored? handle id = some stored) (held : net.lock? handle id = some ⟨number, []⟩) :
    ∃ after, Onward number net after ∧
      net.Alters after (overwriting net.stored? handle id none)
        (overwriting net.lock? handle id none) ∧
      after.tasks[number]? = some ⟨purpose, .flag, .answer (.ok true), stack⟩ := by
  rw [stored?_of_nodeAt? found] at keeps
  have hperform : node.store.perform node.config.credential
      (.record (.delete id.storage id.key stored.version)) =
        (.ok true, node.store.drop id.storage id.key) := Store.delete_eq opens keeps
  obtain ⟨deleted, hon₁, hdeleted, htask₁⟩ := (takes_resume answered found rfl).writes
    (by rw [hperform]; exact fun _ _ => Store.find?_drop ..) (by rw [hperform]; rfl)
  rw [hperform] at htask₁
  obtain ⟨later, hlater, -, -⟩ := hdeleted.nodeAt? found
  have hreleases : deleted.Takes number purpose handle stack later
      ⟨later, [.tally .recordMoved] ++ [.release id], _⟩ := takes_resume htask₁ hlater rfl
  obtain ⟨after, hon₂, hafter, htask₂⟩ := hreleases.release (by simp) (by rw [hdeleted.lock?, held])
  have halters := hdeleted.trans (.of_relocks hafter)
  rw [hdeleted.stored?, hdeleted.lock?] at halters
  exact ⟨after, onward_trans hon₁ hon₂, halters, htask₂⟩

/-- The transfer of a record ends with all records as they were, because the owner refuses it, or
with the record at its owner. -/
theorem onward_transfer {stack : Stack .flag}
    (at_start : net.tasks[number]? = some ⟨purpose, .flag,
      .start handle (.transfer id.storage id.key owner), stack⟩)
    (found : net.nodeAt? handle = some node) (opens : node.opens = true) (other : owner ≠ node.id)
    (keeps : net.stored? handle id = some stored) (serves : net.Serves owner peer member)
    (joined : member.node.lifecycle ≠ .joining) (free : ∀ place, net.lock? place id = none) :
    (∃ error after, member.node.refusal? (.create id.storage id.key stored.content stored.version) =
        some error ∧ Onward number net after ∧ net.Alters after net.stored? net.lock? ∧
      after.tasks[number]? = some ⟨purpose, .flag, .answer (.error (.store error)), stack⟩) ∨
    ∃ after, member.node.refusal? (.create id.storage id.key stored.content stored.version) = none ∧
      Onward number net after ∧ net.Alters after (moving net.stored? handle peer id) net.lock? ∧
      after.tasks[number]? = some ⟨purpose, .flag, .answer (.ok true), stack⟩ := by
  have hapart : (handle, id) ≠ (peer, id) := by
    rintro hsame
    obtain ⟨rfl, -⟩ := Prod.mk.inj hsame
    rw [nodeAt?_of_member? serves.stands, Option.some.injEq] at found
    exact other (found ▸ serves.named.symm)
  obtain ⟨handing, hon₁, hhanding, htask₁⟩ :=
    onward_hand at_start found opens other keeps serves (free handle)
  have hbegun := Alters.of_relocks hhanding
  obtain ⟨holding, hholding, -, hopens⟩ := hbegun.nodeAt? found
  -- the owner stands as it stood before the transfer
  obtain ⟨target, hserves, hbare, hstore, hconfig⟩ := hhanding.serves serves
  have htarget := nodeAt?_of_member? hserves.stands
  have hlifecycle : target.node.bare.lifecycle = member.node.bare.lifecycle :=
    congrArg Node.lifecycle hbare
  have hfree : handing.lock? peer id = none := by
    rw [hhanding.lock?, overwriting_of_ne hapart, free peer]
  have hheld : handing.lock? handle id = some ⟨number, []⟩ := by
    rw [hhanding.lock?, overwriting_self]
  rcases onward_create htask₁ htarget (hlifecycle.trans_ne joined) hfree with
    ⟨error, created, hrefusal, hon₂, hcreated, htask₂⟩ | ⟨created, hrefusal, hon₂, hcreated, htask₂⟩
  · rw [Node.refusal?_congr hstore hconfig] at hrefusal
    obtain ⟨waiting, hwaiting, -, -⟩ := hcreated.nodeAt? hholding
    obtain ⟨after, hon₃, hafter, htask₃⟩ :=
      onward_refused htask₂ hwaiting (by rw [hcreated.lock?, hheld])
    refine .inl ⟨error, after, hrefusal, onward_trans hon₁ (onward_trans hon₂ hon₃), ?_, htask₃⟩
    have halters := hbegun.trans (hcreated.trans (.of_relocks hafter))
    rwa [hcreated.stored?, hcreated.lock?, hhanding.lock?, hbegun.stored?, overwriting_twice,
      overwriting_same (free handle)] at halters
  · rw [Node.refusal?_congr hstore hconfig] at hrefusal
    obtain ⟨waiting, hwaiting, -, hopen⟩ := hcreated.nodeAt? hholding
    have hkept : created.stored? handle id = some stored := by
      rw [hcreated.stored?, overwriting_of_ne (Ne.symm hapart), hbegun.stored?, keeps]
    obtain ⟨after, hon₃, hafter, htask₃⟩ := onward_taken htask₂ hwaiting
      (hopen.trans (hopens.trans opens)) hkept (by rw [hcreated.lock?, hheld])
    refine .inr ⟨after, hrefusal, onward_trans hon₁ (onward_trans hon₂ hon₃), ?_, htask₃⟩
    have halters := hbegun.trans (hcreated.trans hafter)
    rw [hcreated.stored?, hcreated.lock?, hhanding.lock?, hbegun.stored?, overwriting_twice,
      overwriting_same (free handle)] at halters
    rw [moving, keeps]
    exact halters

/-! ## The records that move -/

variable {ids : List Token} {origin : Token} {done rest : List LockId}

/-- Some records of a node have moved to their owners, and all other records are where they were. -/
structure Moved (net : Network) (ids : List Token) (handle : Handle) (done : List LockId)
    (after : Network) : Prop where
  gone : ∀ id ∈ done, after.stored? handle id = none
  arrived : ∀ id ∈ done, ∃ peer, net.directory[ownerOf ids id.key]? = some peer ∧
    after.stored? peer id = net.stored? handle id
  others : ∀ place id, (id ∈ done → place ≠ handle ∧
    net.directory[ownerOf ids id.key]? ≠ some place) → after.stored? place id = net.stored? place id

namespace Moved

theorem nil (same : after.stored? = net.stored?) : net.Moved ids handle [] after :=
  ⟨nofun, nofun, fun place id _ => by rw [same]⟩

theorem congr (h : net.Moved ids handle done now) (same : after.stored? = now.stored?) :
    net.Moved ids handle done after := by
  refine ⟨?_, ?_, ?_⟩
  · rw [same]
    exact h.gone
  · rw [same]
    exact h.arrived
  · rw [same]
    exact h.others

/-- A record that has not moved is where it was. -/
theorem stays (h : net.Moved ids handle done now) (fresh : id ∉ done) (place : Handle) :
    now.stored? place id = net.stored? place id :=
  h.others place id fun hmem => absurd hmem fresh

/-- One more record moves. -/
theorem snoc (h : net.Moved ids handle done now) (fresh : id ∉ done)
    (listed : net.directory[ownerOf ids id.key]? = some peer) (apart : handle ≠ peer)
    (moves : after.stored? = moving now.stored? handle peer id) :
    net.Moved ids handle (done ++ [id]) after := by
  have hrest : ∀ {place name}, (handle, id) ≠ (place, name) → (peer, id) ≠ (place, name) →
      after.stored? place name = now.stored? place name := by
    intro place name hsource htarget
    rw [moves, moving, overwriting_of_ne hsource, overwriting_of_ne htarget]
  have hother : ∀ {name}, name ∈ done → ∀ {first second : Handle},
      (first, id) ≠ (second, name) := by
    rintro name hname first second hsame
    obtain ⟨-, rfl⟩ := Prod.mk.inj hsame
    exact fresh hname
  refine ⟨fun name hname => ?_, fun name hname => ?_, fun place name hname => ?_⟩
  · rcases List.mem_append.1 hname with hdone | hlast
    · rw [hrest (hother hdone) (hother hdone), h.gone name hdone]
    · obtain rfl := List.mem_singleton.1 hlast
      rw [moves, moving, overwriting_self]
  · rcases List.mem_append.1 hname with hdone | hlast
    · obtain ⟨place, hplace, hkept⟩ := h.arrived name hdone
      exact ⟨place, hplace, (hrest (hother hdone) (hother hdone)).trans hkept⟩
    · obtain rfl := List.mem_singleton.1 hlast
      refine ⟨peer, listed, ?_⟩
      rw [moves, moving, overwriting_of_ne fun hsame => apart (congrArg Prod.fst hsame),
        overwriting_self, h.stays fresh]
  · by_cases hsame : name = id
    · subst hsame
      obtain ⟨hsource, htarget⟩ := hname (List.mem_append_right done (List.mem_singleton.2 rfl))
      rw [hrest (fun hsame => hsource (congrArg Prod.fst hsame).symm)
        fun hsame => htarget (listed.trans (congrArg (fun pair => some pair.1) hsame)),
        h.stays fresh]
    · have hne : ∀ {first second : Handle}, (first, id) ≠ (second, name) :=
        fun heq => hsame (congrArg Prod.snd heq).symm
      rw [hrest hne hne]
      exact h.others place name fun hdone => hname (List.mem_append_left [id] hdone)

end Moved

/-- Why the owner of a record does not take it over from a node, if it refuses to. -/
def refusal? (net : Network) (ids : List Token) (handle : Handle) (id : LockId) :
    Option StoreError :=
  (net.stored? handle id).bind fun stored =>
    net.directory[ownerOf ids id.key]?.bind fun peer =>
      (net.nodeAt? peer).bind fun owner =>
        owner.refusal? (.create id.storage id.key stored.content stored.version)

/-- The records of a list that move to their owners up to the first one that is refused, and the
refusal.  Records of the node itself are passed over. -/
def haul (net : Network) (ids : List Token) (handle : Handle) (origin : Token) :
    List LockId → List LockId × Option StoreError
  | [] => ([], none)
  | id :: rest =>
    if ownerOf ids id.key = origin then net.haul ids handle origin rest
    else
      match net.refusal? ids handle id with
      | some error => ([], some error)
      | none =>
        let (moved, refused) := net.haul ids handle origin rest
        (id :: moved, refused)

/-- How a pass ends that has moved some records before and some more now. -/
def haulOutcome (moved : Nat) : List LockId × Option StoreError → Outcome .count
  | (hauled, none) => .ok (moved + hauled.length)
  | (_, some error) => .error (.store error)

/-- The records that another node owns move up to the first one that is refused. -/
theorem haul_eq (net : Network) (ids : List Token) (handle : Handle) (origin : Token)
    (rest : List LockId) : net.haul ids handle origin rest =
      ((rest.filter fun id => ownerOf ids id.key ≠ origin).takeWhile fun id =>
          (net.refusal? ids handle id).isNone,
        (rest.filter fun id => ownerOf ids id.key ≠ origin).findSome?
          (net.refusal? ids handle)) := by
  induction rest with
  | nil => rfl
  | cons id rest ih =>
      by_cases hself : ownerOf ids id.key = origin
      · rw [List.filter_cons_of_neg (by simpa using hself), haul, if_pos hself, ih]
      · rw [List.filter_cons_of_pos (by simpa using hself), haul, if_neg hself, ih,
          List.takeWhile_cons, List.findSome?_cons]
        cases net.refusal? ids handle id <;> rfl

variable {movers before later : List LockId}

/-- If no owner refuses, every record that another node owns moves. -/
theorem haul_of_accepted (foreign : movers = rest.filter fun id => ownerOf ids id.key ≠ origin)
    (accepted : ∀ id ∈ movers, net.refusal? ids handle id = none) :
    net.haul ids handle origin rest = (movers, none) := by
  rw [haul_eq, ← foreign, List.findSome?_eq_none_iff.2 accepted,
    List.takeWhile_eq_self_iff.2 fun id hid => by rw [accepted id hid]; rfl]

/-- The records before the first one that is refused move. -/
theorem haul_of_refused {error : StoreError}
    (foreign : movers = rest.filter fun id => ownerOf ids id.key ≠ origin)
    (split : movers = before ++ id :: later)
    (accepted : ∀ earlier ∈ before, net.refusal? ids handle earlier = none)
    (refused : net.refusal? ids handle id = some error) :
    net.haul ids handle origin rest = (before, some error) := by
  rw [haul_eq, ← foreign, split, List.findSome?_append, List.findSome?_eq_none_iff.2 accepted,
    List.findSome?_cons, refused, List.takeWhile_append_of_pos fun id hid => by
      rw [accepted id hid]; rfl, List.takeWhile_cons_of_neg (by rw [refused]; simp),
    List.append_nil]
  rfl

/-- Records that are accepted one after the other are among those that move. -/
theorem haul_of_prefix (foreign : movers = rest.filter fun id => ownerOf ids id.key ≠ origin)
    (split : movers = before ++ later)
    (accepted : ∀ earlier ∈ before, net.refusal? ids handle earlier = none) :
    ∃ more, (net.haul ids handle origin rest).1 = before ++ more := by
  rw [haul_eq, ← foreign, split, List.takeWhile_append_of_pos fun id hid => by
    rw [accepted id hid]; rfl]
  exact ⟨_, rfl⟩

/-! ## The network during a pass -/

/-- A node of a ring can carry a pass out: all nodes of the ring have joined, no lock is held,
lookups of the node reach all other nodes, and the node's store opens for it. -/
structure Courier (net : Network) (ids : List Token) (origin : Token) (handle : Handle)
    (member : Member) : Prop where
  ring : net.SuccessorRing ids
  joined : ∀ id ∈ ids, ∀ place other, net.Serves id place other → other.node.lifecycle ≠ .joining
  free : ∀ place id, net.lock? place id = none
  mem : origin ∈ ids
  serves : net.Serves origin handle member
  hops : ids.length - 1 ≤ member.node.config.maxHops
  opens : member.node.opens = true

/-- The network between two records of a pass: some records have moved, and nothing else has
changed. -/
structure Underway (net : Network) (ids : List Token) (handle : Handle) (done : List LockId)
    (now : Network) : Prop where
  alters : net.Alters now now.stored? net.lock?
  moved : net.Moved ids handle done now
  had : ∀ id ∈ done, (net.stored? handle id).isSome

/-- The pass goes on: locks are as they were, and the records are told. -/
theorem Underway.trans (underway : net.Underway ids handle done now)
    {kept : Handle → LockId → Option Stored} (alters : now.Alters after kept now.lock?)
    (moved : net.Moved ids handle rest after) (had : ∀ id ∈ rest, (net.stored? handle id).isSome) :
    net.Underway ids handle rest after := by
  have hafter := underway.alters.trans alters
  rw [← alters.stored?, underway.alters.lock?] at hafter
  exact ⟨hafter, moved, had⟩

theorem Underway.alike (underway : net.Underway ids handle done now) (alike : now.Alike after) :
    net.Underway ids handle done after :=
  underway.trans (.of_alike alike) (underway.moved.congr (Alters.of_alike alike).stored?)
    underway.had

/-- What an owner says to a record in its turn is what it would have said before the pass. -/
theorem Underway.refusal?_eq (underway : net.Underway ids handle done now) (fresh : id ∉ done)
    (keeps : net.stored? handle id = some stored) {place : Member}
    (serves : now.Serves (ownerOf ids id.key) peer place) :
    place.node.refusal? (.create id.storage id.key stored.content stored.version) =
      net.refusal? ids handle id := by
  obtain ⟨before, hbefore, -⟩ := serves.akin underway.alters.akin.symm
  obtain ⟨later, hlater, hbare, hopens⟩ := underway.alters.serves hbefore
  obtain ⟨-, rfl⟩ := serves.unique hlater
  have hfind : place.node.store.find? id.storage id.key =
      before.node.store.find? id.storage id.key := by
    rw [← stored?_of_nodeAt? (nodeAt?_of_member? serves.stands),
      ← stored?_of_nodeAt? (nodeAt?_of_member? hbefore.stands),
      underway.moved.stays fresh]
  have hconfig : place.node.config = before.node.config := by
    have h := congrArg Node.config hbare
    exact h
  rw [refusal?, keeps, Option.bind_some, hbefore.listed, Option.bind_some,
    nodeAt?_of_member? hbefore.stands, Option.bind_some, refusal?_create, refusal?_create, hopens,
    hfind, hconfig]

namespace Courier

variable {storage : String} {key : Token} {keys : List Token} {storages : List String} {moved : Nat}
  {below : Stack .count}

/-- During a pass the node stands where it stood. -/
theorem here (courier : net.Courier ids origin handle member)
    (underway : net.Underway ids handle done now) (found : now.nodeAt? handle = some node) :
    ∃ later, now.Serves origin handle later ∧ later.node = node ∧
      node.bare = member.node.bare ∧ node.opens = true := by
  obtain ⟨later, hserves, hbare, hopens⟩ := underway.alters.serves courier.serves
  obtain rfl : later.node = node :=
    Option.some.inj ((nodeAt?_of_member? hserves.stands).symm.trans found)
  exact ⟨later, hserves, rfl, hbare, hopens.trans courier.opens⟩

/-- A storage from which nothing has moved is listed as it was before the pass. -/
theorem listed_eq (courier : net.Courier ids origin handle member)
    (underway : net.Underway ids handle done now) (found : now.nodeAt? handle = some node)
    (fresh : ∀ key, (⟨storage, key⟩ : LockId) ∉ done) :
    node.store.listed storage = member.node.store.listed storage := by
  apply Store.listed_congr
  intro key
  have hstays := underway.moved.stays (fresh key) handle
  rwa [stored?_of_nodeAt? found,
    stored?_of_nodeAt? (nodeAt?_of_member? courier.serves.stands)] at hstays

/-- The next record of a pass has its owner looked up. -/
theorem onward_owner (courier : net.Courier ids origin handle member)
    (underway : net.Underway ids handle done now)
    (takes : now.Takes number purpose handle below node
      (node.migrateKeys storage storages moved (key :: keys))) :
    ∃ after, Onward number now after ∧ now.Alike after ∧
      after.Takes number purpose handle below node
        (node.onOwner storage key keys storages moved (.ok (ownerOf ids key))) := by
  obtain ⟨later, hserves, rfl, hbare, -⟩ := courier.here underway takes.found
  obtain ⟨looking, hon, halike, htask⟩ := takes.quiet rfl
  obtain ⟨asked, hasked, hnode⟩ := hserves.alike halike
  have hring := courier.ring.akin (underway.alters.akin.trans halike.akin)
  obtain ⟨outcome, after, hon', halike', htask', -, hends⟩ :=
    lookUp_answers hring courier.mem hasked htask
  have hconfig : later.node.bare.config = member.node.bare.config := congrArg Node.config hbare
  have houtcome : outcome = .ok (ownerOf ids key) := by
    apply hends
    rw [hnode]
    exact courier.hops.trans_eq (congrArg Config.maxHops hconfig).symm
  rw [houtcome] at htask'
  have hall := halike.trans halike'
  exact ⟨after, onward_trans hon hon', hall,
    takes_resume htask' ((hall.nodeAt? handle).trans takes.found) rfl⟩

/-- The next record of a pass is handed to its owner. -/
theorem onward_move (courier : net.Courier ids origin handle member)
    (underway : net.Underway ids handle done now)
    (takes : now.Takes number purpose handle below node
      (node.run (.transfer id.storage id.key (ownerOf ids id.key))
        (.moving storage keys storages moved)))
    (other : ownerOf ids id.key ≠ origin) (fresh : id ∉ done)
    (keeps : net.stored? handle id = some stored) :
    (∃ error after, net.refusal? ids handle id = some error ∧ Onward number now after ∧
      net.Underway ids handle done after ∧
      after.tasks[number]? = some ⟨purpose, .count, .answer (.error (.store error)), below⟩) ∨
    ∃ after later, net.refusal? ids handle id = none ∧ Onward number now after ∧
      net.Underway ids handle (done ++ [id]) after ∧ after.Takes number purpose handle below later
        (later.migrateKeys storage storages (moved + 1) keys) := by
  obtain ⟨here, hhere, rfl, -, hopens⟩ := courier.here underway takes.found
  obtain ⟨running, hon₁, halike, htask₁⟩ := takes.quiet rfl
  have hunderway := underway.alike halike
  have hfound := (halike.nodeAt? handle).trans takes.found
  -- the owner, before the pass and now
  have howner := ownerOf_mem courier.mem id.key
  obtain ⟨peer, place, hplace, -⟩ := courier.ring.serves _ howner
  obtain ⟨target, hserves, hbare⟩ := hplace.akin hunderway.alters.akin
  have hjoined : target.node.lifecycle ≠ .joining := by
    have hsame := congrArg Node.lifecycle hbare
    exact hsame.trans_ne (courier.joined _ howner peer place hplace)
  have hrefusal := hunderway.refusal?_eq fresh keeps hserves
  have hapart : handle ≠ peer := by
    rintro rfl
    have hsame := courier.serves.stands.symm.trans hplace.stands
    rw [Option.some.injEq] at hsame
    exact other (hplace.named.symm.trans (hsame ▸ courier.serves.named))
  rcases onward_transfer htask₁ hfound hopens (hhere.named.symm ▸ other)
    ((hunderway.moved.stays fresh handle).trans keeps) hserves hjoined
    (fun place => by rw [hunderway.alters.lock?, courier.free]) with
    ⟨error, refused, herror, hon₂, halters, htask₂⟩ | ⟨taken, hnone, hon₂, halters, htask₂⟩
  · have hrefused : net.Underway ids handle done refused :=
      hunderway.trans halters (hunderway.moved.congr halters.stored?) underway.had
    obtain ⟨waiting, hwaiting, -, -⟩ := halters.nodeAt? hfound
    obtain ⟨after, hon₃, halike', htask₃⟩ := (takes_resume htask₂ hwaiting rfl).quiet rfl
    exact .inl ⟨error, after, hrefusal.symm.trans herror,
      onward_trans hon₁ (onward_trans hon₂ hon₃), hrefused.alike halike', htask₃⟩
  · have hmoved := hunderway.moved.snoc fresh hplace.listed hapart halters.stored?
    have hhad : ∀ name ∈ done ++ [id], (net.stored? handle name).isSome := by
      intro name hname
      rcases List.mem_append.1 hname with hdone | hlast
      · exact underway.had name hdone
      · rw [List.mem_singleton.1 hlast, keeps]
        rfl
    obtain ⟨waiting, hwaiting, -, -⟩ := halters.nodeAt? hfound
    exact .inr ⟨taken, waiting, hrefusal.symm.trans hnone, onward_trans hon₁ hon₂,
      hunderway.trans halters hmoved hhad, takes_resume htask₂ hwaiting rfl⟩

end Courier

/-! ## The run of a pass -/

section Run

variable {storage : String} {keys : List Token} {storages : List String} {moved : Nat}
  {below : Stack .count} {mid : Network} {error : StoreError}

/-- A pass that has some records left comes to its end.  The records move one after the other up to
the first one that is refused, and the pass answers with their number or with the refusal. -/
def Finishes (net : Network) (ids : List Token) (origin : Token) (handle : Handle) (number : Nat)
    (purpose : Purpose) (below : Stack .count) (now : Network) (done : List LockId) (moved : Nat)
    (rest : List LockId) : Prop :=
  ∃ after, Onward number now after ∧
    after.tasks[number]? = some ⟨purpose, .count,
      .answer (haulOutcome moved (net.haul ids handle origin rest)), below⟩ ∧
    net.Underway ids handle (done ++ (net.haul ids handle origin rest).1) after ∧
    ∀ before later, (net.haul ids handle origin rest).1 = before ++ later →
      ∃ mid, Onward number now mid ∧ Onward number mid after ∧
        net.Underway ids handle (done ++ before) mid

namespace Finishes

theorem sooner (on : Onward number now mid)
    (h : net.Finishes ids origin handle number purpose below mid done moved rest) :
    net.Finishes ids origin handle number purpose below now done moved rest := by
  obtain ⟨after, hon, htask, hunderway, hbefore⟩ := h
  refine ⟨after, onward_trans on hon, htask, hunderway, fun before later hsplit => ?_⟩
  obtain ⟨between, hto, hfrom, hthen⟩ := hbefore before later hsplit
  exact ⟨between, onward_trans on hto, hfrom, hthen⟩

/-- Nothing more moves. -/
theorem halt {refusal : Option StoreError} (underway : net.Underway ids handle done now)
    (ends : net.haul ids handle origin rest = ([], refusal))
    (answered : now.tasks[number]? =
      some ⟨purpose, .count, .answer (haulOutcome moved ([], refusal)), below⟩) :
    net.Finishes ids origin handle number purpose below now done moved rest := by
  rw [Finishes, ends]
  refine ⟨now, onward_refl number now, answered, by rwa [List.append_nil],
    fun before later hsplit => ⟨now, onward_refl number now, onward_refl number now, ?_⟩⟩
  obtain ⟨rfl, -⟩ := List.append_eq_nil_iff.1 hsplit.symm
  rwa [List.append_nil]

/-- The next record belongs to the node itself. -/
theorem own (self : ownerOf ids id.key = origin)
    (h : net.Finishes ids origin handle number purpose below now done moved rest) :
    net.Finishes ids origin handle number purpose below now done moved (id :: rest) := by
  have hhaul : net.haul ids handle origin (id :: rest) = net.haul ids handle origin rest := by
    rw [haul, if_pos self]
  rwa [Finishes, hhaul]

/-- The next record has moved. -/
theorem taken (other : ownerOf ids id.key ≠ origin) (accepted : net.refusal? ids handle id = none)
    (underway : net.Underway ids handle done now) (on : Onward number now mid)
    (h : net.Finishes ids origin handle number purpose below mid (done ++ [id]) (moved + 1) rest) :
    net.Finishes ids origin handle number purpose below now done moved (id :: rest) := by
  obtain ⟨after, hon, htask, hunderway, hbefore⟩ := h
  rcases hrest : net.haul ids handle origin rest with ⟨hauled, refusal⟩
  rw [hrest] at htask hunderway hbefore
  have hhaul : net.haul ids handle origin (id :: rest) = (id :: hauled, refusal) := by
    rw [haul, if_neg other, accepted, hrest]
  have houtcome : haulOutcome moved (id :: hauled, refusal) =
      haulOutcome (moved + 1) (hauled, refusal) := by
    cases refusal with
    | none =>
        have hsum : moved + (hauled.length + 1) = moved + 1 + hauled.length := by omega
        exact congrArg Except.ok hsum
    | some error => rfl
  rw [Finishes, hhaul, houtcome]
  rw [List.append_assoc] at hunderway
  refine ⟨after, onward_trans on hon, htask, hunderway, fun before later hsplit => ?_⟩
  cases before with
  | nil =>
      exact ⟨now, onward_refl number now, onward_trans on hon, by rwa [List.append_nil]⟩
  | cons first before =>
      rw [List.cons_append, List.cons.injEq] at hsplit
      obtain ⟨rfl, hsplit⟩ := hsplit
      obtain ⟨between, hto, hfrom, hthen⟩ := hbefore before later hsplit
      rw [List.append_assoc] at hthen
      exact ⟨between, onward_trans on hto, hfrom, hthen⟩

end Finishes

namespace Courier

/-- The keys of one storage, when the storages after it are known to come to their end. -/
theorem finishes_keys (courier : net.Courier ids origin handle member)
    (goes : ∀ now node done moved, net.Underway ids handle done now →
      now.Takes number purpose handle below node (node.migrateStorages moved storages) →
      (done ++ member.node.remaining storages).Nodup →
      net.Finishes ids origin handle number purpose below now done moved
        (member.node.remaining storages))
    (underway : net.Underway ids handle done now)
    (takes : now.Takes number purpose handle below node
      (node.migrateKeys storage storages moved keys))
    (had : ∀ key ∈ keys, (net.stored? handle ⟨storage, key⟩).isSome)
    (nodup : (done ++ (keys.map (LockId.mk storage) ++ member.node.remaining storages)).Nodup) :
    net.Finishes ids origin handle number purpose below now done moved
      (keys.map (LockId.mk storage) ++ member.node.remaining storages) := by
  induction keys generalizing now node done moved with
  | nil => exact goes now node done moved underway takes nodup
  | cons key keys ih =>
      rw [List.map_cons, List.cons_append] at nodup ⊢
      have hfresh : (⟨storage, key⟩ : LockId) ∉ done := fun hmem =>
        (List.nodup_append.1 nodup).2.2 _ hmem _ List.mem_cons_self rfl
      have hhad : ∀ key ∈ keys, (net.stored? handle ⟨storage, key⟩).isSome :=
        fun other hmem => had other (List.mem_cons_of_mem key hmem)
      obtain ⟨asked, hon₁, halike, htakes⟩ := courier.onward_owner underway takes
      have hunderway := underway.alike halike
      obtain ⟨here, hhere, rfl, -, -⟩ := courier.here underway takes.found
      by_cases hself : ownerOf ids key = origin
      · rw [Node.onOwner, if_pos (hself.trans hhere.named.symm)] at htakes
        apply Finishes.own hself
        apply Finishes.sooner hon₁
        exact ih hunderway htakes hhad (nodup.sublist (by simp))
      · rw [Node.onOwner, if_neg (hhere.named.symm ▸ hself)] at htakes
        obtain ⟨stored, hstored⟩ := Option.isSome_iff_exists.1 (had key List.mem_cons_self)
        rcases courier.onward_move hunderway htakes hself hfresh hstored with
          ⟨error, after, herror, hon₂, hafter, htask⟩ | ⟨after, later, hnone, hon₂, hafter, hnext⟩
        · have hhaul : net.haul ids handle origin (⟨storage, key⟩ ::
              (keys.map (LockId.mk storage) ++ member.node.remaining storages)) =
                ([], some error) := by rw [haul, if_neg hself, herror]
          exact .sooner (onward_trans hon₁ hon₂) (.halt hafter hhaul htask)
        · apply Finishes.taken hself hnone underway (onward_trans hon₁ hon₂)
          apply ih hafter hnext hhad
          rwa [List.append_assoc]

/-- The storages that are left. -/
theorem finishes_storages (courier : net.Courier ids origin handle member)
    (underway : net.Underway ids handle done now)
    (takes : now.Takes number purpose handle below node (node.migrateStorages moved storages))
    (nodup : (done ++ member.node.remaining storages).Nodup) :
    net.Finishes ids origin handle number purpose below now done moved
      (member.node.remaining storages) := by
  induction storages generalizing now node done moved with
  | nil =>
      obtain ⟨after, hon, halike, htask⟩ := takes.quiet rfl
      exact .sooner hon (.halt (underway.alike halike) rfl htask)
  | cons storage storages ih =>
      obtain ⟨here, hhere, rfl, hbare, hopens⟩ := courier.here underway takes.found
      have hconfig : here.node.config = member.node.config := by
        have h := congrArg Node.config hbare
        exact h
      by_cases hexcluded : member.node.config.isExcluded storage = true
      · rw [Node.migrateStorages, if_pos (hconfig ▸ hexcluded)] at takes
        rw [Node.remaining_cons_of_excluded hexcluded] at nodup ⊢
        exact ih underway takes nodup
      · rw [Node.migrateStorages, if_neg (hconfig ▸ hexcluded)] at takes
        -- a record of this storage that had moved would be among those that are left
        have hfresh : ∀ key, (⟨storage, key⟩ : LockId) ∉ done := by
          intro key hmem
          have hfound := underway.had _ hmem
          rw [stored?_of_nodeAt? (nodeAt?_of_member? courier.serves.stands)] at hfound
          exact (List.nodup_append.1 nodup).2.2 _ hmem _ (Node.mem_remaining_iff.2
            ⟨List.mem_cons_self, Bool.eq_false_iff.2 hexcluded, hfound⟩) rfl
        have hkeys : here.node.store.perform here.node.config.credential (.keys storage) =
            (.ok (member.node.store.listed storage), here.node.store) := by
          rw [← courier.listed_eq underway takes.found hfresh]
          exact congrArg (·, here.node.store) (if_pos hopens)
        obtain ⟨listing, hon, halike, htask⟩ := takes.reads (congrArg Prod.snd hkeys)
        rw [hkeys] at htask
        rw [Node.remaining_cons hexcluded] at nodup ⊢
        have htakes := takes_resume htask ((halike.nodeAt? handle).trans takes.found) rfl
        apply Finishes.sooner hon
        refine courier.finishes_keys (fun _ _ _ _ => ih) (underway.alike halike) htakes ?_ nodup
        intro key hkey
        rw [stored?_of_nodeAt? (nodeAt?_of_member? courier.serves.stands)]
        exact Store.mem_listed_iff.1 hkey

/-- A whole pass. -/
theorem finishes_scan (courier : net.Courier ids origin handle member)
    (begins : net.tasks[number]? = some ⟨purpose, .count, .start handle .migrate, below⟩) :
    net.Finishes ids origin handle number purpose below net [] 0 member.node.scan := by
  have hfound := nodeAt?_of_member? courier.serves.stands
  have hnames : member.node.store.perform member.node.config.credential .names =
      (.ok member.node.store.storages.keys, member.node.store) :=
    congrArg (·, member.node.store) (if_pos courier.opens)
  obtain ⟨naming, hon, halike, htask⟩ :=
    (takes_start begins hfound rfl).reads (congrArg Prod.snd hnames)
  rw [hnames] at htask
  have hunderway : net.Underway ids handle [] net :=
    ⟨.of_alike (.refl net), .nil rfl, nofun⟩
  apply Finishes.sooner hon
  exact courier.finishes_storages (hunderway.alike halike)
    (takes_resume htask ((halike.nodeAt? handle).trans hfound) rfl) member.node.nodup_scan

end Courier

/-- A pass goes over the records in the storages that are not excluded, by storage and by key, and
the records that other nodes own move one after the other in this order.  If no owner refuses, each
of them moves to its owner with its payload and version, the pass answers with their number, and all
other records are as they were.  If an owner refuses, the pass ends with the refusal: the records
before have moved, and the refused record and those after it are where they were, as is everything
else. -/
theorem pass_moves_records (courier : net.Courier ids origin handle member)
    (begins : net.tasks[number]? = some ⟨purpose, .count, .start handle .migrate, below⟩)
    {movers : List LockId}
    (foreign : movers = member.node.scan.filter fun id => ownerOf ids id.key ≠ origin) :
    (∀ key, ∀ id ∈ ids, insideHalfOpen (previousOf ids id) id key = true ↔ id = ownerOf ids key) ∧
    (∀ id, id ∈ member.node.scan ↔ (net.stored? handle id).isSome ∧
      ∀ name ∈ member.node.config.excluded,
        id.storage.toList.map Char.toLower ≠ name.toList.map Char.toLower) ∧
    (member.node.scan.Pairwise fun before after => compare before.storage after.storage = .lt ∨
      before.storage = after.storage ∧ compare before.key after.key = .lt) ∧
    ∃ outcome after, Onward number net after ∧
      after.tasks[number]? = some ⟨purpose, .count, .answer outcome, below⟩ ∧
      net.Alters after after.stored? net.lock? ∧
      ((∀ id ∈ movers, net.refusal? ids handle id = none) →
        outcome = .ok movers.length ∧ net.Moved ids handle movers after) ∧
      (∀ before id later error, movers = before ++ id :: later →
        (∀ earlier ∈ before, net.refusal? ids handle earlier = none) →
        net.refusal? ids handle id = some error →
        outcome = .error (.store error) ∧ net.Moved ids handle before after ∧
          (∀ left ∈ id :: later, after.stored? handle left = net.stored? handle left) ∧
          ∀ place, after.stored? place id = net.stored? place id) ∧
      ∀ done left, movers = done ++ left → (∀ id ∈ done, net.refusal? ids handle id = none) →
        ∃ mid, Onward number net mid ∧ Onward number mid after ∧ net.Moved ids handle done mid := by
  have hstored : ∀ id, net.stored? handle id = member.node.store.find? id.storage id.key :=
    stored?_of_nodeAt? (nodeAt?_of_member? courier.serves.stands)
  have hnodup : movers.Nodup := foreign ▸ member.node.nodup_scan.filter _
  obtain ⟨after, hon, htask, hunderway, hbefore⟩ := courier.finishes_scan begins
  rw [List.nil_append] at hunderway
  refine ⟨fun key _ hid => insideHalfOpen_previousOf_iff courier.ring.ascending hid key,
    fun id => by rw [hstored, Node.mem_scan_iff], member.node.pairwise_scan, _, after, hon, htask,
    hunderway.alters, fun accepted => ?_, fun before id later error split accepted refused => ?_,
    fun done left split accepted => ?_⟩
  · have hhaul := haul_of_accepted foreign accepted
    rw [hhaul] at hunderway ⊢
    exact ⟨congrArg Except.ok (Nat.zero_add _), hunderway.moved⟩
  · have hhaul := haul_of_refused foreign split accepted refused
    rw [hhaul] at hunderway ⊢
    rw [split] at hnodup
    have hleft : ∀ left ∈ id :: later, left ∉ before := fun left hmem hdone =>
      (List.nodup_append.1 hnodup).2.2 left hdone left hmem rfl
    exact ⟨rfl, hunderway.moved, fun left hmem => hunderway.moved.stays (hleft left hmem) handle,
      hunderway.moved.stays (hleft id List.mem_cons_self)⟩
  · obtain ⟨more, hmore⟩ := haul_of_prefix foreign split accepted
    obtain ⟨mid, hto, hfrom, hmid⟩ := hbefore done more hmore
    exact ⟨mid, hto, hfrom, hmid.moved⟩

end Run

/-! ## A pair that shares records -/

/-- The identifiers of a ring of two. -/
def sharingIds : List Token := [10, 20].map Token.wrapping

/-- The records of the second node of the pair.  The first and the last of its documents belong to
the first node, and its notes are excluded from migration. -/
def sharedStore : Store :=
  ((((Store.empty none).put "docs" (Token.wrapping 25) ⟨[3], 7⟩).put "docs" (Token.wrapping 15)
    ⟨[2], 0⟩).put "docs" (Token.wrapping 5) ⟨[1], 4⟩).put "Notes" (Token.wrapping 5) ⟨[4], 0⟩

/-- A member of the pair. -/
def sharingMember (id : Token) (store : Store) : Member where
  node :=
    { Node.fresh id store { Config.standard with excluded := ["NOTES"] } with
      fingers := Fingers.empty.set Fingers.successorSlot (some (nextOf sharingIds id))
      lifecycle := .stable }
  link := Link.clear
  storeDelay := StoreDelay.zero
  outbox := []
  sending := false

/-- A ring of two nodes with a pass at the second one; the first has some documents. -/
def sharingPair (documents : Store) : Network :=
  { Network.empty with
    endpoints := #[.member (sharingMember (Token.wrapping 10) documents),
      .member (sharingMember (Token.wrapping 20) sharedStore)]
    directory := (Std.TreeMap.empty.insert (Token.wrapping 10) 0).insert (Token.wrapping 20) 1
    tasks := Std.TreeMap.empty.insert 0 (taskOf (.client []) 1 .migrate) }

/-- The documents of the second node that belong to the first one. -/
def sharedDocuments : List LockId := [⟨"docs", Token.wrapping 5⟩, ⟨"docs", Token.wrapping 25⟩]

theorem sharedDocuments_eq : sharedDocuments =
    (sharingMember (Token.wrapping 20) sharedStore).node.scan.filter fun id =>
      ownerOf sharingIds id.key ≠ Token.wrapping 20 := by decide

theorem serves_sharingPair (documents : Store) (index : Fin 2) :
    (sharingPair documents).Serves (sharingIds.get index) index.val
      (sharingMember (sharingIds.get index) ([documents, sharedStore].get index)) := by
  match index with
  | 0 => exact ⟨rfl, rfl, rfl, rfl⟩
  | 1 => exact ⟨rfl, rfl, rfl, rfl⟩

theorem courier_sharingPair (documents : Store) : (sharingPair documents).Courier sharingIds
    (Token.wrapping 20) 1 (sharingMember (Token.wrapping 20) sharedStore) where
  ring := by
    refine ⟨by decide, fun id hid => ?_⟩
    obtain ⟨index, rfl⟩ := List.get_of_mem hid
    refine ⟨index.val, _, serves_sharingPair documents index, ?_, fun slot finger hget => .inl ?_⟩
    · simp only [Node.successor, Fingers.successor, sharingMember, Fingers.get_set, if_pos]
    · simp only [sharingMember, Fingers.get_set, Fingers.get_empty] at hget
      split at hget
      · exact Option.some.inj hget ▸ nextOf_mem hid _
      · cases hget
  joined id hid place other serves := by
    obtain ⟨index, rfl⟩ := List.get_of_mem hid
    obtain ⟨-, rfl⟩ := serves.unique (serves_sharingPair documents index)
    show Lifecycle.stable ≠ .joining
    decide
  free place id := by
    rcases place with _ | _ | place
    · rfl
    · rfl
    · rfl
  mem := by decide
  serves := serves_sharingPair documents 1
  hops := by decide
  opens := rfl

/-- The records of a first node that has the last document already. -/
def crowdedStore : Store := (Store.empty none).put "docs" (Token.wrapping 25) ⟨[9], 0⟩

/-- Both documents move to a first node that has none.  A first node that has the last one already
refuses it, and only the document before has moved. -/
theorem sharingPair_moves :
    (∃ after, Onward 0 (sharingPair (Store.empty none)) after ∧
      after.tasks[0]? = some ⟨.client [], .count, .answer (.ok 2), .root⟩ ∧
      (sharingPair (Store.empty none)).Moved sharingIds 1 sharedDocuments after) ∧
    ∃ after, Onward 0 (sharingPair crowdedStore) after ∧
      after.tasks[0]? = some ⟨.client [], .count,
        .answer (.error (.store (.alreadyExists "docs" (Token.wrapping 25)))), .root⟩ ∧
      (sharingPair crowdedStore).Moved sharingIds 1 [⟨"docs", Token.wrapping 5⟩] after := by
  have hbegins : ∀ documents, (sharingPair documents).tasks[0]? =
      some ⟨.client [], .count, .start 1 .migrate, .root⟩ := fun _ => rfl
  constructor
  · obtain ⟨-, -, -, outcome, after, hon, htask, -, haccepted, -⟩ := pass_moves_records
      (courier_sharingPair (Store.empty none)) (hbegins _) sharedDocuments_eq
    obtain ⟨rfl, hmoved⟩ := haccepted (by decide)
    exact ⟨after, hon, htask, hmoved⟩
  · obtain ⟨-, -, -, outcome, after, hon, htask, -, -, hrefused, -⟩ := pass_moves_records
      (courier_sharingPair crowdedStore) (hbegins _) sharedDocuments_eq
    have hsplit : sharedDocuments =
        [⟨"docs", Token.wrapping 5⟩] ++ ⟨"docs", Token.wrapping 25⟩ :: [] := rfl
    obtain ⟨rfl, hmoved, -⟩ := hrefused _ _ _ _ hsplit (by decide)
      (show _ = some (.alreadyExists "docs" (Token.wrapping 25)) by decide)
    exact ⟨after, hon, htask, hmoved⟩

end Network

end RecordRing
