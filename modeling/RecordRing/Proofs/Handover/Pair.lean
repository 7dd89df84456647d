import RecordRing.Proofs.Handover.Single
import RecordRing.Proofs.Ring.Links

/-!
# One record between two nodes

Clients read, update and delete a record at any node while transfers move it from one node to another
(`traffic`).  Then only these two nodes ever hold the record, and at most one transfer moves it
(`Route.Confined`).  Together with what every run keeps of a record, this says where the record is and
what it is at every moment, whatever the order of locks, store calls and remote calls
(`Route.stays_single`).

## Implementation notes

That the record is created nowhere but at its target is a contract between operations: it follows
from what every operation may start and what every waiting operation remembers, without a look at the
stores.
-/

namespace RecordRing

/-- Whether a call creates a record. -/
def RecordCall.makes {kind : Shape} (id : LockId) : RecordCall kind → Bool
  | .create storage key _ _ => ⟨storage, key⟩ = id
  | _ => false

/-- A record, the node that it is transferred from, and the node that it is transferred to. -/
structure Route where
  /-- The record. -/
  id : LockId
  /-- The node that the record is transferred from. -/
  source : Handle
  /-- The node that the record is transferred to. -/
  target : Handle
  /-- The identifier of the node that the record is transferred to. -/
  owner : Token

namespace Route

variable {route : Route} {net after : Network} {handle : Handle} {node : Node} {shape result : Shape}

/-! ## The contract of a route -/

/-- A call creates the record at the target only. -/
def Serves (route : Route) (handle : Handle) {kind : Shape} (call : RecordCall kind) : Prop :=
  call.makes route.id = true → handle = route.target

/-- A transfer of the record is one from the source to the owner. -/
def Hauls (route : Route) (handle : Handle) (storage : String) (key owner : Token) : Prop :=
  ⟨storage, key⟩ = route.id → handle = route.source ∧ owner = route.owner

/-- What a member may be told to do. -/
def Duty (route : Route) (handle : Handle) {shape : Shape} : Operation shape → Prop
  | .serve (.record call) => route.Serves handle call
  | .serve (.migrationEnded _) => True
  | .attempt call => route.Serves handle call
  | .transfer storage key owner => route.Hauls handle storage key owner
  | .reportMoved _ => True
  | _ => False

/-- Where an operation of a member may wait. -/
def Keeps (route : Route) (handle : Handle) {shape result : Shape} : Frame shape result → Prop
  | .told => True
  | .joinAwaited call _ => route.Serves handle call
  | .attempted call => route.Serves handle call
  | .handedOn call => route.Serves handle call
  | .lockAwaited call => route.Serves handle call
  | .performed call => route.Serves handle call
  | .transferLockAwaited storage key owner => route.Hauls handle storage key owner
  | .transferRead storage key owner => route.Hauls handle storage key owner
  | .transferHanded storage key _ => ⟨storage, key⟩ = route.id → handle = route.source
  | .transferDeleted storage key => ⟨storage, key⟩ = route.id → handle = route.source
  | _ => False

/-- The owner's identifier names the target and nothing else. -/
structure Leads (route : Route) (net : Network) : Prop where
  members : ∀ handle, net.script? handle = none
  named : net.idAt? route.target = some route.owner
  unique : ∀ handle, net.idAt? handle = some route.owner → handle = route.target
  listed : ∀ handle, net.directory[route.owner]? = some handle → handle = route.target

/-- The contract of a route.  The answers of operations mean nothing. -/
def contract (route : Route) : Contract where
  Holds := route.Leads
  Later _ _ := True
  Duty _ handle _ operation := route.Duty handle operation
  Promise _ _ _ _ _ := True
  Keeps _ handle _ _ frame := route.Keeps handle frame
  Wants _ _ _ _ _ _ := True
  Gives _ _ _ _ _ _ := True

/-- What an action of a member may be. -/
def Does (route : Route) (handle : Handle) {result : Shape} : Action result → Prop
  | .reply _ => True
  | .ask contact request frame =>
    route.Duty (contact.at handle) (.serve request) ∧ route.Keeps handle frame
  | .run operation frame => route.Duty handle operation ∧ route.Keeps handle frame
  | .call _ frame => route.Keeps handle frame
  | .lock _ frame => route.Keeps handle frame
  | .sleep _ frame => route.Keeps handle frame

/-- A turn does what the contract allows, and starts nothing on its own. -/
structure Allows (route : Route) (handle : Handle) {result : Shape} (turn : Turn result) : Prop where
  spawns : ∀ operation, .spawn operation ∉ turn.effects
  does : route.Does handle turn.action

theorem Allows.quiet {action : Action result} (does : route.Does handle action) :
    route.Allows handle (⟨node, [], action⟩ : Turn result) :=
  ⟨fun _ => List.not_mem_nil, does⟩

/-! ## Turns -/

/-- The contact that the owner is resolved to is the target. -/
theorem Leads.at_eq (leads : route.Leads net) (found : net.nodeAt? handle = some node)
    {peer : Contact} (h : node.resolve net.surroundings route.owner = some peer) :
    peer.at handle = route.target := by
  rw [Node.resolve] at h
  split at h
  · rename_i hself
    rw [← Option.some.inj h]
    exact leads.unique handle ((Network.idAt?_of_nodeAt? found).trans (congrArg some hself.symm))
  · obtain ⟨other, hother, rfl⟩ := Option.map_eq_some_iff.1 h
    exact leads.listed other hother

theorem not_makes_of_misses {kind : Shape} {call : RecordCall kind} {answer : kind.Value}
    (h : call.misses answer = true) : call.makes route.id = false := by
  cases call <;> first | rfl | cases h

variable {kind : Shape} {call : RecordCall kind}

theorem allows_attempt (serves : route.Serves handle call) :
    route.Allows handle (node.attempt call) :=
  .quiet serves

theorem allows_enter (serves : route.Serves handle call) (around : Surroundings) (since : Nat) :
    route.Allows handle (node.enter around call since) := by
  rw [Node.enter]
  split
  · dsimp only
    split
    · split
      · exact .quiet trivial
      · exact .quiet serves
    · exact .quiet serves
  · exact .quiet ⟨serves, serves⟩

theorem allows_onAttempted (serves : route.Serves handle call) (around : Surroundings)
    (outcome : Outcome kind) : route.Allows handle (node.onAttempted around call outcome) := by
  cases outcome with
  | error failure => exact .quiet trivial
  | ok answer =>
      rw [Node.onAttempted]
      split
      · rename_i hmiss
        -- a call that misses creates nothing, so it may go anywhere
        have hanywhere : ∀ place, route.Serves place call := fun place hmakes => by
          rw [not_makes_of_misses hmiss] at hmakes
          cases hmakes
        split
        · exact .quiet trivial
        · split
          · exact allows_attempt serves
          · exact .quiet ⟨hanywhere _, serves⟩
      · exact .quiet trivial

theorem allows_onHandedOn (serves : route.Serves handle call) (outcome : Outcome kind) :
    route.Allows handle (node.onHandedOn call outcome) := by
  cases outcome with
  | error failure => exact allows_attempt serves
  | ok answer =>
      rw [Node.onHandedOn]
      split
      · exact allows_attempt serves
      · exact .quiet trivial

theorem allows_endTransfer (storage : String) (key : Token) (outcome : Outcome .flag) :
    route.Allows handle (node.endTransfer storage key outcome) := by
  refine ⟨fun operation h => ?_, trivial⟩
  cases List.mem_singleton.1 h

theorem allows_onTransferRead (leads : route.Leads net) (found : net.nodeAt? handle = some node)
    {storage : String} {key owner : Token} (hauls : route.Hauls handle storage key owner)
    (outcome : Outcome .record) :
    route.Allows handle (node.onTransferRead net.surroundings storage key owner outcome) := by
  rcases outcome with failure | _ | record
  · exact allows_endTransfer ..
  · exact allows_endTransfer ..
  · rw [Node.onTransferRead]
    split
    · exact allows_endTransfer ..
    · rename_i peer hpeer
      refine .quiet ⟨fun hmakes => ?_, fun heq => (hauls heq).1⟩
      rw [(hauls (of_decide_eq_true hmakes)).2] at hpeer
      exact leads.at_eq found hpeer

theorem allows_migrationEnded (node : Node) (source : Token) :
    route.Allows handle (Node.acknowledge (node.migrationEnded source)) := by
  rw [Node.migrationEnded]
  split
  · refine ⟨fun operation h => ?_, trivial⟩
    obtain ⟨requester, -, heq⟩ := List.mem_map.1 h
    cases heq
  · exact .quiet trivial

theorem allows_start {operation : Operation shape} (duty : route.Duty handle operation)
    (around : Surroundings) : route.Allows handle (node.start around operation) := by
  cases operation with
  | serve request =>
      cases request with
      | record call => exact allows_enter duty around around.now
      | migrationEnded source => exact allows_migrationEnded node source
      | _ => cases duty
  | attempt call => exact allows_attempt duty
  | transfer storage key owner => exact .quiet duty
  | reportMoved requester =>
      show route.Allows handle (node.callKnown around requester _)
      rw [Node.callKnown]
      split
      · exact .quiet trivial
      · exact .quiet ⟨trivial, trivial⟩
  | _ => cases duty

theorem allows_resume (leads : route.Leads net) (found : net.nodeAt? handle = some node)
    {frame : Frame shape result} (keeps : route.Keeps handle frame) (outcome : Outcome shape) :
    route.Allows handle (node.resume net.surroundings frame outcome) := by
  cases frame with
  | told => exact .quiet trivial
  | joinAwaited call since =>
      cases outcome with
      | error failure => exact .quiet trivial
      | ok awaited => exact allows_enter keeps net.surroundings since
  | attempted call => exact allows_onAttempted keeps net.surroundings outcome
  | handedOn call => exact allows_onHandedOn keeps outcome
  | lockAwaited call =>
      cases outcome with
      | error failure => exact .quiet trivial
      | ok granted => exact .quiet keeps
  | performed call =>
      refine ⟨fun operation h => ?_, trivial⟩
      cases List.mem_singleton.1 h
  | transferLockAwaited storage key owner =>
      cases outcome with
      | error failure => exact .quiet trivial
      | ok granted => exact .quiet keeps
  | transferRead storage key owner => exact allows_onTransferRead leads found keeps outcome
  | transferHanded storage key version =>
      cases outcome with
      | error failure => exact allows_endTransfer ..
      | ok answer => exact .quiet keeps
  | transferDeleted storage key =>
      cases outcome with
      | error failure => exact allows_endTransfer ..
      | ok removed =>
          refine ⟨fun operation h => ?_, trivial⟩
          rcases List.mem_cons.1 h with heq | hrest
          · cases heq
          · cases List.mem_singleton.1 hrest
  | _ => cases keeps

/-! ## The contract holds -/

theorem Leads.change (leads : route.Leads net) {new : Node}
    (found : net.nodeAt? handle = some node) (same : new.id = node.id) :
    route.Leads (net.setNode handle new) := by
  have hid := Network.Ring.idAt?_change found same
  refine ⟨fun other => ?_, (hid _).trans leads.named, fun other h => ?_,
    fun other h => ?_⟩
  · rw [Network.script?_setNode]
    exact leads.members other
  · exact leads.unique other ((hid other).symm.trans h)
  · rw [Network.directory_setNode] at h
    exact leads.listed other h

/-- A turn that does what the contract allows keeps the contract. -/
theorem Allows.turnSound {turn : Turn result} {wanted : Network → Outcome result → Prop}
    (allows : route.Allows handle turn) (leads : route.Leads net)
    (found : net.nodeAt? handle = some node) (same : turn.node.id = node.id)
    (wants : ∀ later outcome, wanted later outcome) :
    route.contract.TurnSound net handle turn wanted := by
  refine ⟨⟨trivial, leads.change found same⟩,
    fun operation h => (allows.spawns operation h).elim, ?_⟩
  have hdoes := allows.does
  revert hdoes
  generalize turn.action = action
  intro hdoes
  have haccepts : ∀ {shape : Shape} {given : Network → Outcome shape → Prop}
      {wanted : Network → Outcome shape → Prop}, (∀ later outcome, wanted later outcome) →
      route.contract.Meets (net.setNode handle turn.node) given wanted :=
    fun hwanted later _ outcome _ => hwanted later outcome
  cases action with
  | reply outcome => exact wants _ outcome
  | ask contact request frame =>
      exact ⟨⟨hdoes.1, haccepts fun _ _ => trivial⟩, hdoes.2, haccepts wants⟩
  | run operation frame =>
      exact ⟨⟨hdoes.1, haccepts fun _ _ => trivial⟩, hdoes.2, haccepts wants⟩
  | call asked frame => exact ⟨haccepts fun _ _ => trivial, hdoes, haccepts wants⟩
  | lock id frame => exact ⟨haccepts fun _ _ => trivial, hdoes, haccepts wants⟩
  | sleep millis frame => exact ⟨haccepts fun _ _ => trivial, hdoes, haccepts wants⟩

theorem lawful (route : Route) : route.contract.Lawful where
  refl _ := trivial
  trans _ _ := trivial
  akin {net after} leads akin := by
    refine ⟨trivial, fun handle => ?_, (akin.idAt? _).trans leads.named, fun handle h => ?_,
      fun handle h => ?_⟩
    · rw [akin.scripts]
      exact leads.members handle
    · exact leads.unique handle ((akin.idAt? handle).symm.trans h)
    · rw [akin.directory] at h
      exact leads.listed handle h
  members leads := leads.members _
  duty _ h := h
  keeps _ h := h
  wants _ _ := trivial
  failure := trivial
  report := trivial
  start {net handle node shape operation} leads found duty _ := by
    have horderly := node.orderly_start net.surroundings operation
    exact (allows_start duty net.surroundings).turnSound leads found
      (congrArg Prod.fst horderly.same) fun _ _ => trivial
  resume {net handle node shape result frame outcome} leads found keeps _ _ := by
    have horderly := node.orderly_resume net.surroundings frame outcome
    exact (allows_resume leads found keeps outcome).turnSound leads found
      (congrArg Prod.fst horderly.same) fun _ _ => trivial

end Route

/-- The rules of a run in which clients call any operation on records at any node, except that they do
not create the record of a route, and in which this record is transferred along the route only. -/
def traffic (route : Route) : Rules where
  Welcomes member := member.node.store.find? route.id.storage route.id.key = none
  Permits _ handle _ operation :=
    match operation with
    | .serve (.record call) => call.makes route.id = false
    | .serve (.migrationEnded _) => True
    | .transfer storage key owner => route.Hauls handle storage key owner
    | _ => False

namespace Route

variable {route : Route} {net after : Network}

theorem covers_traffic (route : Route) : route.contract.Covers (traffic route) where
  attach {net member} leads fresh new welcome := by
    have hat : ∀ handle, (net.attach (.member member)).2.idAt? handle =
        if handle = net.endpoints.size then some member.node.id else net.idAt? handle := by
      intro handle
      rw [Network.idAt?, Network.nodeAt?_attach, Network.idAt?]
      split <;> rfl
    obtain ⟨twin, htwin, hname⟩ := Network.idAt?_eq_some.1 leads.named
    refine ⟨trivial, fun handle => ?_, ?_, fun handle h => ?_, leads.listed⟩
    · rw [Network.script?_attach]
      exact leads.members handle
    · rw [hat, if_neg]
      · exact leads.named
      · intro heq
        rw [heq, Network.nodeAt?_size] at htwin
        cases htwin
    · rw [hat] at h
      split at h
      · exact absurd (hname.trans (Option.some.inj h).symm) (new _ twin htwin)
      · exact leads.unique handle h
  register {net handle node} leads found := by
    refine ⟨trivial, leads.members, leads.named, leads.unique, fun other h => ?_⟩
    have hget : (net.register node.id handle).directory[route.owner]? =
        if node.id = route.owner then some handle else net.directory[route.owner]? := by
      simp [Network.register, Std.TreeMap.getElem?_insert]
    rw [hget] at h
    split at h
    · rename_i hself
      rw [← Option.some.inj h]
      exact leads.unique handle ((Network.idAt?_of_nodeAt? found).trans (congrArg some hself))
    · exact leads.listed other h
  launch {net handle shape operation} leads permitted := by
    cases operation with
    | serve request =>
        cases request with
        | record call =>
            intro hmakes
            rw [show call.makes route.id = false from permitted] at hmakes
            cases hmakes
        | migrationEnded source => trivial
        | _ => cases permitted
    | transfer storage key owner => exact permitted
    | _ => cases permitted

/-- The calls that clients may make in the traffic along a route. -/
def Calls (route : Route) {kind : Shape} (call : RecordCall kind) : Prop :=
  call.makes route.id = false

theorem keep_traffic (route : Route) : (traffic route).Keep route.Calls route.id where
  attend {net handle shape operation} permitted := by
    cases operation with
    | serve request =>
        cases request with
        | record call => exact permitted
        | migrationEnded source => rfl
        | _ => cases permitted
    | transfer storage key owner => trivial
    | _ => cases permitted
  unmade content version h := by
    rw [Calls, RecordCall.makes] at h
    exact of_decide_eq_false h rfl
  empty welcome := welcome

/-! ## Where the record is -/

variable {origin : Option Stored} {history events : List Event} {number : Nat} {handle : Handle}
  {stored : Stored}

/-- The record appears at the target only. -/
theorem appears_at_target (attended : net.Attended route.Calls history)
    (sound : route.contract.Sound net) (gone : net.stored? handle route.id = none)
    (later : (net.step number).stored? handle route.id = some stored) : handle = route.target := by
  obtain ⟨purpose, content, version, stack, htask⟩ := Network.creating_of_appears gone later
  obtain ⟨job, hstage, -⟩ := (attended.staged number _ htask).stage
  obtain ⟨below, rfl⟩ := hstage.stack_of_creating
  have hkeeps : route.Keeps handle
      (.performed (.create route.id.storage route.id.key content version)) :=
    (sound.tasks number _ htask).stack.1.1
  exact hkeeps (decide_eq_true rfl)

/-- The record is dropped at the source only. -/
theorem drops_at_source (attended : net.Attended route.Calls history)
    (sound : route.contract.Sound net) {source : Handle}
    (shown : .dropped number source route.id ∈ net.events number) : source = route.source := by
  rcases Network.mem_events shown with ⟨shape, outcome, -, heq⟩ |
    ⟨purpose, shape, result, handle, place, below, value, call, frame, htask, hshows⟩
  · cases heq
  · rcases Frame.mem_shows hshows with ⟨value, heq⟩ | heq | ⟨id, hdrops, heq⟩
    · cases heq
    · cases heq
    · cases heq
      obtain ⟨job, hstage, -⟩ := (attended.staged number _ htask).stage
      rw [← hstage.place_of_access]
      have hkeeps : route.Keeps place frame := (sound.tasks number _ htask).stack.1.1
      cases frame with
      | transferDeleted storage key => exact hkeeps (Option.some.inj hdrops)
      | _ => cases hdrops

/-- The record is nowhere but at the two ends of the route, and once it has been moved it is no longer
at the source. -/
structure Confined (route : Route) (origin : Option Stored) (history : List Event) (net : Network) :
    Prop where
  kept : net.Kept route.Calls route.id origin history
  sound : route.contract.Sound net
  within : ∀ {handle stored}, net.stored? handle route.id = some stored →
    handle = route.source ∨ handle = route.target
  moved : ∀ event ∈ history, event.drops route.id = true →
    net.stored? route.source route.id = none
  once : history.countP (Event.drops route.id) ≤ 1

namespace Confined

theorem step (confined : route.Confined origin history net) (apart : route.source ≠ route.target)
    (kept : (net.step number).Kept route.Calls route.id origin (history ++ net.events number))
    (sound : route.contract.Sound (net.step number)) :
    route.Confined origin (history ++ net.events number) (net.step number) := by
  have hattended := confined.kept.attended
  have hfound : ∀ event ∈ net.events number, event.drops route.id = true →
      net.events number = [.dropped number route.source route.id] ∧
      (∃ stored, net.stored? route.source route.id = some stored) ∧
      (net.step number).stored? route.source route.id = none := by
    intro event hshown hdrops
    obtain ⟨source, hshows, hcopy, hwrites⟩ := hattended.drop_step hshown hdrops
    have hsource : source = route.source :=
      drops_at_source hattended confined.sound (hshows ▸ List.mem_singleton.2 rfl)
    subst hsource
    exact ⟨hshows, hcopy, hwrites.stored?_self⟩
  refine ⟨kept, sound, fun {handle stored} hstored => ?_, fun event hevent hdrops => ?_, ?_⟩
  · cases hbefore : net.stored? handle route.id with
    | none => exact Or.inr (appears_at_target hattended confined.sound hbefore hstored)
    | some old => exact confined.within hbefore
  · rcases List.mem_append.1 hevent with hold | hnew
    · cases hlater : (net.step number).stored? route.source route.id with
      | none => rfl
      | some stored =>
          have hgone := confined.moved event hold hdrops
          exact absurd (appears_at_target hattended confined.sound hgone hlater) apart
    · exact (hfound event hnew hdrops).2.2
  · rw [List.countP_append]
    by_cases hnew : ∃ event ∈ net.events number, event.drops route.id = true
    · obtain ⟨event, hshown, hdrops⟩ := hnew
      obtain ⟨hshows, ⟨stored, hcopy⟩, -⟩ := hfound event hshown hdrops
      have hnone : history.countP (Event.drops route.id) = 0 := by
        rw [List.countP_eq_zero]
        intro other hother hdropped
        rw [confined.moved other hother hdropped] at hcopy
        cases hcopy
      rw [hnone, hshows, Nat.zero_add]
      exact List.countP_le_length
    · have hnone : (net.events number).countP (Event.drops route.id) = 0 := by
        rw [List.countP_eq_zero]
        exact fun event hshown hdrops => hnew ⟨event, hshown, hdrops⟩
      rw [hnone]
      exact confined.once

theorem move (confined : route.Confined origin history net) (apart : route.source ≠ route.target)
    (traced : Traced (traffic route) net events after) :
    route.Confined origin (history ++ events) after := by
  have hkept := confined.kept.move (keep_traffic route) traced
  have hsound := (confined.sound.move route.lawful (covers_traffic route) traced.move).1
  rcases confined.kept.attended.step_or_rests (keep_traffic route).empty confined.kept.books traced with
    ⟨number, rfl, rfl⟩ | ⟨stored, doomed, silent⟩
  · exact confined.step apart hkept hsound
  · have hnever : ∀ event ∈ events, event.drops route.id ≠ true := fun event h hdrops => by
      rw [(silent event h).stays] at hdrops
      cases hdrops
    refine ⟨hkept, hsound, fun {handle value} hvalue => ?_, fun event hevent hdrops => ?_, ?_⟩
    · exact confined.within ((stored handle).symm.trans hvalue)
    · rw [stored]
      exact confined.moved event
        ((List.mem_append.1 hevent).resolve_right fun h => hnever event h hdrops) hdrops
    · rw [List.countP_append, List.countP_eq_zero.2 hnever]
      exact confined.once

theorem trace (confined : route.Confined origin history net) (apart : route.source ≠ route.target)
    (trace : Trace (traffic route) net events after) :
    route.Confined origin (history ++ events) after := by
  induction trace with
  | start => rwa [List.append_nil]
  | move before traced ih =>
      rw [← List.append_assoc]
      exact ih.move apart traced

end Confined

/-! ## Runs along a route -/

/-- A network at rest in which the record lies at the source of a route and nowhere else. -/
structure Seated (route : Route) (stored : Stored) (net : Network) : Prop where
  leads : route.Leads net
  apart : route.source ≠ route.target
  tasks : ∀ number : Nat, net.tasks[number]? = none
  locks : ∀ handle id, net.lock? handle id = none
  copy : net.stored? route.source route.id = some stored
  alone : ∀ handle, handle ≠ route.source → net.stored? handle route.id = none

theorem Seated.confined (seated : route.Seated stored net) :
    route.Confined (some stored) [] net := by
  have honly : ∀ {handle value}, net.stored? handle route.id = some value →
      handle = route.source := by
    intro handle value hvalue
    refine Decidable.byContradiction fun hne => ?_
    rw [seated.alone handle hne] at hvalue
    cases hvalue
  refine ⟨.of_idle seated.leads.members seated.tasks seated.locks ?_ ?_ ?_, ⟨seated.leads, ?_⟩,
    fun hvalue => Or.inl (honly hvalue), fun event h => (List.not_mem_nil h).elim, Nat.zero_le 1⟩
  · intro handle value hvalue
    rw [honly hvalue, seated.copy] at hvalue
    exact hvalue
  · intro value hvalue
    exact ⟨route.source, seated.copy.trans hvalue⟩
  · intro first second one two hone htwo
    rw [honly hone, honly htwo]
  · intro number task htask
    rw [seated.tasks] at htask
    cases htask

end Route

/-- An operation of a client has ended with an outcome. -/
def Returned {shape : Shape} (history : List Event) (number : Nat) (operation : Operation shape)
    (outcome : Outcome shape) : Prop :=
  (∃ handle, .begun number handle operation ∈ history) ∧ .ended number outcome ∈ history

theorem Event.eq_of_countP_le_one {p : Event → Bool} {history : List Event}
    (once : history.countP p ≤ 1) {one two : Event} (hone : one ∈ history) (htwo : two ∈ history)
    (pone : p one = true) (ptwo : p two = true) : one = two := by
  rw [List.countP_eq_length_filter] at once
  have hfirst := List.mem_filter.2 ⟨hone, pone⟩
  have hsecond := List.mem_filter.2 ⟨htwo, ptwo⟩
  revert once hfirst hsecond
  cases history.filter p with
  | nil => exact fun _ h _ => (List.not_mem_nil h).elim
  | cons event rest =>
      intro once hfirst hsecond
      have hrest : rest = [] := List.length_eq_zero_iff.1 (Nat.le_zero.1 (Nat.le_of_succ_le_succ once))
      subst hrest
      rw [List.mem_singleton.1 hfirst, List.mem_singleton.1 hsecond]

namespace Route

variable {route : Route} {net after : Network} {history : List Event} {stored : Stored}

/-- While clients work on a record at two nodes and transfers move it from one to the other:

- at most one deletion has removed the record;
- as long as none has, the record is at exactly one of the two nodes whenever no transfer is about to
  delete its source, with the last payload that an update has given to it and a version that has
  grown by one with each update;
- once one has, it is nowhere as soon as no transfer is about to delete its source, and never again;
- at most one transfer has moved the record;
- the outcome of a client's call is what a store has answered to it, once. -/
theorem stays_single (seated : route.Seated stored net)
    (trace : Trace (traffic route) net history after) :
    (∀ first second before later,
      Returned history first (.serve (.record (.delete route.id.storage route.id.key before)))
        (.ok true) →
      Returned history second (.serve (.record (.delete route.id.storage route.id.key later)))
        (.ok true) → first = second) ∧
    ((∀ event ∈ history, event.removes route.id = false) →
      (∀ handle, ¬ after.Doomed handle route.id) →
      stored.version.toNat + (payloads route.id history).length + 1 < UInt64.size →
      ∃ holder, (holder = route.source ∨ holder = route.target) ∧
        after.stored? holder route.id =
          some ⟨(payloads route.id history).getLastD stored.content,
            stored.version + UInt64.ofNat (payloads route.id history).length⟩ ∧
        ∀ other, other ≠ holder → after.stored? other route.id = none) ∧
    ((∃ event ∈ history, event.removes route.id = true) →
      (∀ handle, ¬ after.Doomed handle route.id) →
      ∀ more last, Trace (traffic route) after more last →
        ∀ handle, last.stored? handle route.id = none) ∧
    (∀ first second one two,
      Returned history first (.transfer route.id.storage route.id.key one) (.ok true) →
      Returned history second (.transfer route.id.storage route.id.key two) (.ok true) →
      first = second) ∧
    ∀ number kind (call : RecordCall kind) outcome,
      Returned history number (.serve (.record call)) outcome →
      call.Backed history number outcome := by
  have hconfined : route.Confined (some stored) history after :=
    seated.confined.trace seated.apart trace
  have hkept := hconfined.kept
  have hbacked : ∀ {number : Nat} {shape : Shape} {operation : Operation shape}
      {outcome : Outcome shape}, Returned history number operation outcome →
      operation.Backed history number outcome := fun ⟨⟨_, hbegun⟩, hended⟩ =>
    hkept.attended.backed hbegun hended
  refine ⟨?_, ?_, ?_, ?_, fun number kind call outcome returned => hbacked returned⟩
  · intro first second before later hfirst hsecond
    obtain ⟨one, hone⟩ := RecordCall.Backed.shown (hbacked hfirst) true rfl rfl
    obtain ⟨two, htwo⟩ := RecordCall.Backed.shown (hbacked hsecond) true rfl rfl
    have hremoves : ∀ number peer version, Event.removes route.id
        (.served number peer (.delete route.id.storage route.id.key version) true) = true :=
      fun number peer version => by simp [Event.removes]
    have heq := Event.eq_of_countP_le_one hkept.coherent.countP_removes hone htwo
      (hremoves _ _ _) (hremoves _ _ _)
    exact congrArg Event.number heq
  · intro hkeeps hcalm hsmall
    have hledger := ledger_eq stored history hkeeps (hkept.coherent.overruns hsmall)
    obtain ⟨holder, hholder, hothers⟩ := hkept.stored_once hcalm hledger
    exact ⟨holder, hconfined.within hholder, hholder, hothers⟩
  · intro hremoved hcalm more last hmore handle
    have hnone := (ledger_eq_none stored history).2 hremoved
    have hgone := hkept.stored?_of_removed hnone (hcalm handle)
    exact hkept.stays_removed (keep_traffic route) hnone hgone hmore
  · intro first second one two hfirst hsecond
    obtain ⟨source, hone⟩ := hbacked hfirst rfl
    obtain ⟨origin, htwo⟩ := hbacked hsecond rfl
    have hdrops : ∀ number place, Event.drops route.id
        (.dropped number place ⟨route.id.storage, route.id.key⟩) = true :=
      fun number place => decide_eq_true rfl
    have heq := Event.eq_of_countP_le_one hconfined.once hone htwo (hdrops _ _) (hdrops _ _)
    exact congrArg Event.number heq

/-! ## A record on its way -/

/-- A record of node 10 that belongs to node 20. -/
def short : Route := ⟨⟨"notes", Token.wrapping 15⟩, 0, 1, Token.wrapping 20⟩

/-- Node 10 with the record, and node 20, which merges from it. -/
def seat : Network :=
  let store := (Store.empty none).put "notes" (Token.wrapping 15) ⟨[1], 3⟩
  let source := Node.fresh (Token.wrapping 10) store Config.standard
  let target := Node.fresh (Token.wrapping 20) (Store.empty none) Config.standard
  let members : List Member :=
    [⟨{ source with lifecycle := .stable }, Link.clear, StoreDelay.zero, [], false⟩,
      ⟨{ target with lifecycle := .merging, migrationSource := some source.id }, Link.clear,
        StoreDelay.zero, [], false⟩]
  let net := { Network.empty with endpoints := (members.map Endpoint.member).toArray }
  (net.register source.id 0).register target.id 1

/-- A client of node 10 updates the record. -/
def update : Operation .version := .serve (.record (.update "notes" (Token.wrapping 15) [2] 3))

/-- Node 10 hands the record to node 20. -/
def hand : Operation .flag := .transfer "notes" (Token.wrapping 15) (Token.wrapping 20)

/-- A client of node 20 deletes the record. -/
def removal : Operation .flag := .serve (.record (.delete "notes" (Token.wrapping 15) 4))

/-- The network after the update. -/
def updated : Network := seat.ordered 0 update 8

/-- The network after the update and the transfer. -/
def moved : Network := updated.ordered 0 hand 20

/-- The network after the deletion. -/
def deleted : Network := moved.ordered 1 removal 8

/-- What the update and the transfer have shown. -/
def movement : List Event := seat.order 0 update 8 ++ updated.order 0 hand 20

theorem seated_short : short.Seated ⟨[1], 3⟩ seat := by
  have htwo : seat.endpoints.size = 2 := by decide
  have hlisted : seat.directory[short.owner]? = some short.target := by decide
  refine ⟨⟨Network.forall_of_two htwo rfl rfl fun handle h => ?_, by decide,
    Network.forall_of_two htwo ?_ (fun _ => rfl) fun handle h => ?_, fun handle h => ?_⟩, by decide,
    fun number => Std.TreeMap.getElem?_emptyc,
    Network.forall_of_two htwo LockTable.find?_empty LockTable.find?_empty fun handle h id => ?_,
    by decide,
    Network.forall_of_two htwo (fun h => absurd rfl h) (fun _ => by decide) fun handle h _ => ?_⟩
  · simp only [Network.script?, h]
  · exact fun h => absurd h (by decide)
  · intro hid
    rw [Network.idAt?, Network.nodeAt?_of_endpoint h] at hid
    cases hid
  · rw [hlisted] at h
    exact (Option.some.inj h).symm
  · rw [Network.lock?, Network.nodeAt?_of_endpoint h]
    rfl
  · rw [Network.stored?, Network.nodeAt?_of_endpoint h]
    rfl

theorem trace_moved : Trace (traffic short) seat movement moved :=
  (Trace.of_order rfl (by decide)).trans (.of_order (fun _ => ⟨rfl, rfl⟩) (by decide +kernel))

theorem trace_deleted : Trace (traffic short) seat (movement ++ moved.order 1 removal 8) deleted :=
  trace_moved.trans (.of_order rfl (by decide +kernel))

/-- The updated record has moved to node 20 and is nowhere else, and once it has been deleted there it
is gone for good. -/
theorem stays_single_short :
    (∃ holder, (holder = short.source ∨ holder = short.target) ∧
      moved.stored? holder short.id = some ⟨[2], 4⟩ ∧
      ∀ other, other ≠ holder → moved.stored? other short.id = none) ∧
    ∀ more last, Trace (traffic short) deleted more last →
      ∀ handle, last.stored? handle short.id = none := by
  obtain ⟨-, hkeeps, -⟩ := stays_single seated_short trace_moved
  obtain ⟨-, -, hremoved, -⟩ := stays_single seated_short trace_deleted
  have hidle : ∀ {net : Network}, net.tasks.isEmpty = true →
      ∀ handle, ¬ net.Doomed handle short.id := by
    intro net hempty handle
    exact Network.not_doomed_of_idle fun number => Std.TreeMap.getElem?_of_isEmpty hempty
  constructor
  · have hnone : movement.all (fun event => !event.removes short.id) = true := by decide +kernel
    have hpayloads : payloads short.id movement = [[2]] := by decide +kernel
    rw [hpayloads] at hkeeps
    refine hkeeps (fun event h => ?_) (hidle (by decide +kernel)) (by decide)
    simpa using List.all_eq_true.1 hnone event h
  · have hany : (movement ++ moved.order 1 removal 8).any (Event.removes short.id) = true := by
      decide +kernel
    exact hremoved (List.any_eq_true.1 hany) (hidle (by decide +kernel))

end Route

end RecordRing
