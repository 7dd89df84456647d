import RecordRing.Proofs.Network.Contract
import RecordRing.Proofs.Ring.Links

/-!
# The contract of a ring

What each operation of a node counts on while nodes join the ring of one founder, and what its
answer means.  The answers are stale by the time they are used, so what they mean has to last: a
lookup names a node that has joined and is no farther from the founder than the key, and a node
named as predecessor leads to the one that named it.
-/

namespace RecordRing.Network

variable {founder : Token} {net after : Network} {handle : Handle} {node : Node}
  {shape result : Shape}

/-! ## The contract -/

/-- What the answer of a lookup means: the owner has joined, and it is no farther from the founder
than the key. -/
def Finds (founder : Token) (net : Network) (handle : Handle) (key : Token) : Outcome .id → Prop
  | .ok owner => ∃ id, net.idAt? handle = some id ∧ net.Joined id ∧ net.Joined owner ∧
    owner.gap founder ≤ key.gap founder
  | .error _ => True

/-- A position that may be the successor of another. -/
def Nearer (founder : Token) (net : Network) (a b : Token) : Prop :=
  net.Joined b ∧ (a ≠ founder → b.gap founder < a.gap founder)

/-- What a member counts on when it is asked. -/
def AskedDuty (founder : Token) (net : Network) (handle : Handle) {shape : Shape} :
    Request shape → Prop
  | .notify candidate => ∃ id, net.idAt? handle = some id ∧ net.Leads founder candidate id
  | _ => True

/-- What the answer of a member that is asked means. -/
def AskedPromise (founder : Token) (net : Network) (handle : Handle) {shape : Shape} :
    Request shape → Outcome shape → Prop
  | .findSuccessor key, outcome => net.Finds founder handle key outcome
  | .successor, .ok (some next) => ∃ id, net.idAt? handle = some id ∧ net.Nearer founder id next
  | .predecessor, .ok (some before) =>
    ∃ id, net.idAt? handle = some id ∧ net.Leads founder before id
  | _, _ => True

/-- What a member counts on when it starts an operation. -/
def RingDuty (founder : Token) (net : Network) (handle : Handle) {shape : Shape} :
    Operation shape → Prop
  | .found => net.idAt? handle = some founder
  | .join _ => ∃ id, net.idAt? handle = some id ∧ id ≠ founder ∧ net.Registered id
  | .serve request => AskedDuty founder net handle request
  | _ => True

/-- What the answer of a member's operation means. -/
def RingPromise (founder : Token) (net : Network) (handle : Handle) {shape : Shape} :
    Operation shape → Outcome shape → Prop
  | .serve request, outcome => AskedPromise founder net handle request outcome
  | _, _ => True

/-- What a waiting operation of a member remembers. -/
def RingKeeps (founder : Token) (net : Network) (handle : Handle) {shape result : Shape} :
    Frame shape result → Prop
  | .successorAsked .. => ∃ id, net.idAt? handle = some id ∧ net.Joined id
  | .fingerAsked .. => ∃ id, net.idAt? handle = some id ∧ net.Joined id
  | .placeAsked => ∃ id, net.idAt? handle = some id ∧ id ≠ founder ∧ net.Registered id
  | .predecessorAsked successor peer => ∃ id, net.idAt? handle = some id ∧
    net.Leads founder id successor ∧ net.idAt? (peer.at handle) = some successor
  | .slotOwnerAsked slot => 1 ≤ slot
  | _ => True

/-- What a waiting operation of a member expects of the answer. -/
def RingWants (founder : Token) (net : Network) (handle : Handle) {shape result : Shape} :
    Frame shape result → Outcome shape → Prop
  | .successorAsked _ current _ _, .ok (some next) => net.Nearer founder current next
  | .placeAsked, .ok owner => net.Joined owner ∧ net.Registered founder ∧
    ∃ id, net.idAt? handle = some id ∧ owner.gap founder ≤ id.gap founder
  | .predecessorAsked successor _, .ok (some before) => net.Leads founder before successor
  | _, _ => True

/-- What the answer of a waiting operation will mean. -/
def RingGives (founder : Token) (net : Network) (handle : Handle) {shape result : Shape} :
    Frame shape result → Outcome result → Prop
  | .successorAsked key _ _ _, outcome => net.Finds founder handle key outcome
  | .fingerAsked key _ _ _, outcome => net.Finds founder handle key outcome
  | _, _ => True

/-- The contract of a ring with one founder. -/
def ringContract (founder : Token) : Contract where
  Holds := Ring founder
  Later := Grows founder
  Duty net handle _ operation := RingDuty founder net handle operation
  Promise net handle _ operation outcome := RingPromise founder net handle operation outcome
  Keeps net handle _ _ frame := RingKeeps founder net handle frame
  Wants net handle _ _ frame outcome := RingWants founder net handle frame outcome
  Gives net handle _ _ frame outcome := RingGives founder net handle frame outcome

/-! ## What lasts -/

namespace Grows

variable {a b key : Token}

theorem refl (founder : Token) (net : Network) : net.Grows founder net :=
  ⟨fun _ _ h => h, fun _ _ h => h, fun _ _ h => h⟩

theorem trans {last : Network} (h : net.Grows founder after) (h' : after.Grows founder last) :
    net.Grows founder last :=
  ⟨fun handle id hid => h'.stays handle id (h.stays handle id hid),
    fun id handle hid => h'.registered id handle (h.registered id handle hid),
    fun a b hab => h'.leads a b (h.leads a b hab)⟩

theorem knows (h : net.Grows founder after) (registered : net.Registered a) : after.Registered a := by
  obtain ⟨handle, hget⟩ := registered
  exact ⟨handle, h.registered a handle hget⟩

theorem joined (h : net.Grows founder after) (joined : net.Joined a) : after.Joined a := by
  obtain ⟨b, hlinked⟩ := joined
  exact (h.leads a b (.link hlinked)).joined

theorem nearer (h : net.Grows founder after) (nearer : net.Nearer founder a b) :
    after.Nearer founder a b :=
  ⟨h.joined nearer.1, nearer.2⟩

theorem duty (h : net.Grows founder after) {operation : Operation shape}
    (duty : RingDuty founder net handle operation) : RingDuty founder after handle operation := by
  cases operation with
  | found => exact h.stays handle founder duty
  | join known =>
      obtain ⟨id, hid, hne, hreg⟩ := duty
      exact ⟨id, h.stays handle id hid, hne, h.knows hreg⟩
  | serve request =>
      cases request with
      | notify candidate =>
          obtain ⟨id, hid, hleads⟩ := duty
          exact ⟨id, h.stays handle id hid, h.leads candidate id hleads⟩
      | _ => exact trivial
  | _ => exact trivial

theorem keeps (h : net.Grows founder after) {frame : Frame shape result}
    (keeps : RingKeeps founder net handle frame) : RingKeeps founder after handle frame := by
  cases frame with
  | successorAsked key current peer hops =>
      obtain ⟨id, hid, hjoined⟩ := keeps
      exact ⟨id, h.stays handle id hid, h.joined hjoined⟩
  | fingerAsked key current successor hops =>
      obtain ⟨id, hid, hjoined⟩ := keeps
      exact ⟨id, h.stays handle id hid, h.joined hjoined⟩
  | placeAsked =>
      obtain ⟨id, hid, hne, hreg⟩ := keeps
      exact ⟨id, h.stays handle id hid, hne, h.knows hreg⟩
  | predecessorAsked successor peer =>
      obtain ⟨id, hid, hleads, hpeer⟩ := keeps
      exact ⟨id, h.stays handle id hid, h.leads id successor hleads, h.stays _ successor hpeer⟩
  | slotOwnerAsked slot => exact keeps
  | _ => exact trivial

theorem wants (h : net.Grows founder after) {frame : Frame shape result} {outcome : Outcome shape}
    (wants : RingWants founder net handle frame outcome) :
    RingWants founder after handle frame outcome := by
  cases outcome with
  | error failure => cases frame <;> exact trivial
  | ok value =>
      cases frame with
      | successorAsked key current peer hops =>
          cases value with
          | none => exact trivial
          | some next => exact h.nearer wants
      | placeAsked =>
          obtain ⟨hjoined, hreg, id, hid, hle⟩ := wants
          exact ⟨h.joined hjoined, h.knows hreg, id, h.stays handle id hid, hle⟩
      | predecessorAsked successor peer =>
          cases value with
          | none => exact trivial
          | some before => exact h.leads before successor wants
      | _ => exact trivial

end Grows

theorem ringWants_failure (frame : Frame shape result) (failure : Failure) :
    RingWants founder net handle frame (.error failure) := by
  cases frame <;> exact trivial

end RecordRing.Network
