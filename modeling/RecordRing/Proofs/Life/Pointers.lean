import RecordRing.Proofs.Life.Acts
import RecordRing.Proofs.Ring.Tuning

/-!
# The pointers of a node

Whatever a node goes through, a successor that it knows is exchanged and never forgotten, it is not
its own predecessor, and its cursor is at a routing slot (`Life.pointers_kept`).  The cursor matters
when the node waits: the number of a slot is kept in the operation that waits for its owner, so the
range of the numbers is an assertion about the operations under way too (`Scene.InRange`).
-/

namespace RecordRing

/-! ### Single turns -/

namespace Node

variable {node later : Node} {around : Surroundings} {cue : Cue} {effects : List Effect}

theorem Shifts.cursor (shifts : node.Shifts around cue later effects)
    (inRange : IsRoutingSlot node.cursor) : IsRoutingSlot later.cursor := by
  cases shifts with
  | advanced => exact ⟨nextSlot_first node.cursor, nextSlot_last node.cursor⟩
  | _ => exact inRange

/-- A node accepts other nodes only as its predecessor. -/
theorem Shifts.predecessor (shifts : node.Shifts around cue later effects)
    (other : node.predecessor ≠ some node.id) : later.predecessor ≠ some later.id := by
  have haccepted : ∀ {candidate}, candidate ≠ node.id → some candidate ≠ some node.id := by
    intro candidate hne heq
    exact hne (Option.some.inj heq)
  cases shifts with
  | founded => exact nofun
  | rejoining reached => exact nofun
  | accepted hother closer waits => exact haccepted hother
  | began hother closer joining known company => exact haccepted hother
  | settled hother closer joining known => exact haccepted hother
  | bereft held left => exact nofun
  | _ => exact other

/-- A known successor is exchanged or kept. -/
theorem Shifts.successor (shifts : node.Shifts around cue later effects)
    (known : node.successor.isSome = true) : later.successor.isSome = true := by
  cases shifts with
  | founded =>
      change (node.setSuccessor node.id).successor.isSome = true
      simp
  | placed successor => simp
  | redirected hknown replaced repairs quiet => exact replaced
  | @entered slot owner index named =>
      rcases node.fingers.get_compareAndSet_cases index Fingers.successorSlot
        (node.fingers.get index) (some owner) with hsame | ⟨-, hentered⟩
      · simpa only [Node.successor, Fingers.successor, hsame] using known
      · simp [Node.successor, Fingers.successor, hentered]
  | _ => exact known

end Node

/-! ### Operations under way -/

/-- No number out of range comes up in any of the operations that wait. -/
def Chain.InRange {shape : Shape} : Chain shape → Prop
  | .root => True
  | .wait frame below => frame.InRange ∧ below.InRange

/-- No number out of range comes up in an operation under way. -/
def Strand.InRange : Strand → Prop
  | .due cue below => cue.InRange ∧ below.InRange
  | .away chain => chain.InRange

/-- The cursor is at a routing slot, and no number out of range comes up in what is under way. -/
structure Scene.InRange (scene : Scene) : Prop where
  cursor : IsRoutingSlot scene.node.cursor
  strands : ∀ strand ∈ scene.strands, strand.InRange

theorem Chain.inRange_receive {shape : Shape} {chain : Chain shape} (inRange : chain.InRange)
    {outcome : Outcome shape} (genuine : Genuine outcome) :
    ∀ strand ∈ chain.receive outcome, strand.InRange := by
  cases chain with
  | root => exact fun _ hmem => absurd hmem List.not_mem_nil
  | wait frame below =>
      intro strand hmem
      obtain rfl := List.mem_singleton.1 hmem
      exact ⟨⟨inRange.1, genuine⟩, inRange.2⟩

theorem Action.inRange_next {result : Shape} {below : Chain result} (waiting : below.InRange)
    {action : Action result} (inRange : action.InRange) :
    ∀ strand ∈ action.next below, strand.InRange := by
  cases action with
  | reply outcome => exact Chain.inRange_receive waiting inRange
  | ask peer request frame =>
      intro strand hmem
      cases peer <;> obtain rfl := List.mem_singleton.1 hmem
      · exact ⟨trivial, inRange, waiting⟩
      · exact ⟨inRange, waiting⟩
  | run operation frame =>
      intro strand hmem
      obtain rfl := List.mem_singleton.1 hmem
      exact ⟨trivial, inRange, waiting⟩
  | call call frame =>
      intro strand hmem
      obtain rfl := List.mem_singleton.1 hmem
      exact ⟨inRange, waiting⟩
  | lock id frame =>
      intro strand hmem
      obtain rfl := List.mem_singleton.1 hmem
      exact ⟨inRange, waiting⟩
  | sleep millis frame =>
      intro strand hmem
      obtain rfl := List.mem_singleton.1 hmem
      exact ⟨inRange, waiting⟩

theorem Effect.inRange_strand? {effect : Effect} {strand : Strand}
    (starts : effect.strand? = some strand) : strand.InRange := by
  cases effect with
  | spawn operation =>
      obtain rfl := Option.some.inj starts
      exact ⟨trivial, trivial⟩
  | announce requester =>
      obtain rfl := Option.some.inj starts
      exact ⟨trivial, trivial⟩
  | release id => cases starts
  | tally counter => cases starts

/-- Nothing that happens brings a number out of range up. -/
theorem Scene.Move.inRange {scene later : Scene} {acts : List Act}
    (move : scene.Move acts later) (inRange : scene.InRange) :
    later.InRange ∧ ∀ act ∈ acts, act.cue.InRange ∧ act.turn.action.InRange := by
  obtain ⟨hcursor, hstrands⟩ := inRange
  cases move with
  | call outer =>
      refine ⟨⟨hcursor, ?_⟩, by simp⟩
      intro strand hmem
      rcases List.mem_cons.1 hmem with rfl | hsooner
      · exact ⟨trivial, trivial⟩
      · exact hstrands strand hsooner
  | @answer node before after shape chain outcome genuine =>
      have hchain : chain.InRange := hstrands (.away chain) (by simp)
      have hreceived := Chain.inRange_receive hchain genuine
      refine ⟨⟨hcursor, ?_⟩, by simp⟩
      intro strand hmem
      simp only [List.mem_append] at hmem
      rcases hmem with (hbefore | hnext) | hafter
      · exact hstrands strand (by simp [hbefore])
      · exact hreceived strand hnext
      · exact hstrands strand (by simp [hafter])
  | @work node before after cue below around =>
      have hdue : Strand.InRange (.due cue below) := hstrands (.due cue below) (by simp)
      have haction : (node.follow around cue).action.InRange :=
        Node.inRange_follow hcursor hdue.1
      have hnexts := Action.inRange_next hdue.2 haction
      have hlater : IsRoutingSlot (node.follow around cue).node.cursor :=
        (Node.shifts_follow node around cue).cursor hcursor
      refine ⟨⟨hlater, ?_⟩, ?_⟩
      · intro strand hmem
        simp only [List.mem_append, List.mem_filterMap] at hmem
        rcases hmem with ((hbefore | hnext) | hafter) | ⟨effect, -, hstarts⟩
        · exact hstrands strand (by simp [hbefore])
        · exact hnexts strand hnext
        · exact hstrands strand (by simp [hafter])
        · exact Effect.inRange_strand? hstarts
      · intro act hmem
        obtain rfl := List.mem_singleton.1 hmem
        exact ⟨hdue.1, haction⟩
  | keep store locks => exact ⟨⟨hcursor, hstrands⟩, by simp⟩

/-! ### Finger repair -/

namespace Act

variable {act : Act}

/-- Finger repair changes no finger when it starts. -/
theorem fingers_fixFingers (tends : act.cue = .start .fixFingers) :
    act.turn.node.fingers = act.node.fingers := by
  have hshifts := act.shifts
  generalize act.turn.node = later at hshifts ⊢
  generalize act.turn.effects = effects at hshifts
  rw [tends] at hshifts
  cases hshifts with
  | redirected known replaced repairs quiet =>
      rcases repairs with h | ⟨successor, peer, outcome, h⟩ <;> cases h
  | advanced => rfl
  | idle other quiet => rfl

/-- Finger repair changes no other finger than the one it has looked up. -/
theorem fingers_slotOwner {slot : Nat} {outcome : Outcome .id}
    (tends : act.cue = .resume (.slotOwnerAsked slot) outcome) {other : Fin keyBits}
    (ne : other.val ≠ slot) :
    act.turn.node.fingers.get other = act.node.fingers.get other := by
  have hshifts := act.shifts
  generalize act.turn.node = later at hshifts ⊢
  generalize act.turn.effects = effects at hshifts
  rw [tends] at hshifts
  cases hshifts with
  | redirected known replaced repairs quiet =>
      rcases repairs with h | ⟨successor, peer, outcome, h⟩ <;> cases h
  | @entered slot owner index named =>
      have hindex : index.val = slot := by
        rw [Fingers.slot?] at named
        split at named <;> cases named
        rfl
      have hne : index ≠ other := by
        intro heq
        apply ne
        rw [← heq, hindex]
      exact Fingers.get_compareAndSet_of_ne hne
  | idle hother quiet => rfl

end Act

namespace Life

variable {id : Token} {store : Store} {config : Config} {first scene later : Scene}
  {acts more : List Act}

theorem inRange (life : Life first acts later) (start : first.InRange) :
    later.InRange ∧ ∀ act ∈ acts, act.cue.InRange ∧ act.turn.action.InRange := by
  induction life with
  | nil => exact ⟨start, by simp⟩
  | snoc _ move ih =>
      obtain ⟨hscene, hacts⟩ := ih
      obtain ⟨hlater, hmore⟩ := move.inRange hscene
      refine ⟨hlater, ?_⟩
      intro act hmem
      rcases List.mem_append.1 hmem with hsooner | hlast
      · exact hacts act hsooner
      · exact hmore act hlast

theorem successor (life : Life first acts later) (known : first.node.successor.isSome = true) :
    later.node.successor.isSome = true := by
  apply @Life.induct first later acts (fun _ node => node.successor.isSome = true) life known
  · exact fun _ _ hknown => hknown
  · exact fun act hknown => act.shifts.successor hknown

theorem predecessor (life : Life first acts later)
    (other : first.node.predecessor ≠ some first.node.id) :
    later.node.predecessor ≠ some later.node.id := by
  apply @Life.induct first later acts (fun _ node => node.predecessor ≠ some node.id) life other
  · exact fun _ _ hother => hother
  · exact fun act hother => act.shifts.predecessor hother

/-- After any life of a node and whatever comes next, a successor that is known stays known, the
node is not its own predecessor, and the cursor is at a routing slot.  Finger repair changes only
fingers of routing slots, and no number of a slot is out of range. -/
theorem pointers_kept (before : Life (Scene.fresh id store config) acts scene)
    (life : Life scene more later) :
    (scene.node.successor.isSome = true → later.node.successor.isSome = true) ∧
    scene.node.predecessor ≠ some id ∧
    (1 ≤ scene.node.cursor ∧ scene.node.cursor ≤ 62) ∧
    (∀ act ∈ acts, act.cue = .start .fixFingers →
      act.turn.node.fingers = act.node.fingers) ∧
    (∀ act ∈ acts, ∀ slot outcome, act.cue = .resume (.slotOwnerAsked slot) outcome →
      1 ≤ slot ∧ slot ≤ 62 ∧ ∀ other : Fin keyBits, other.val ≠ slot →
        act.turn.node.fingers.get other = act.node.fingers.get other) ∧
    (∀ act ∈ acts, ∀ error, act.turn.action ≠ .reply (.error (.range error))) := by
  have hfresh : (Scene.fresh id store config).InRange :=
    ⟨⟨Nat.zero_lt_one, (by decide : 1 < keyBits)⟩, fun _ hmem => absurd hmem List.not_mem_nil⟩
  have hother := before.predecessor nofun
  rw [before.named] at hother
  obtain ⟨hscene, hacts⟩ := before.inRange hfresh
  refine ⟨life.successor, hother, ⟨hscene.cursor.1, Nat.le_of_lt_succ hscene.cursor.2⟩, ?_, ?_, ?_⟩
  · intro act _ tends
    exact Act.fingers_fixFingers tends
  · intro act hmem slot outcome tends
    have hslot : IsRoutingSlot slot := by
      have hcue := (hacts act hmem).1
      rw [tends] at hcue
      exact hcue.1
    refine ⟨hslot.1, Nat.le_of_lt_succ hslot.2, ?_⟩
    intro other ne
    exact Act.fingers_slotOwner tends ne
  · intro act hmem error hreply
    have haction := (hacts act hmem).2
    rw [hreply] at haction
    exact haction error rfl

/-- The node of `Newcomer` when it has founded a ring and refreshed a slot. -/
def Newcomer.entered : Node :=
  { made.founded with
    cursor := 2
    fingers := (made.founded.fingers.compareAndSet ⟨1, by decide⟩ none
      (some (Token.wrapping 10))).2 }

/-- The life of a node that founds a ring, refreshes a slot and repairs its successor. -/
theorem pointers_kept_newcomer : ∃ (acts more : List Act) (later : Scene),
    Life (Scene.fresh (Token.wrapping 10) (.empty none) .standard) acts ⟨Newcomer.entered, []⟩ ∧
      Life ⟨Newcomer.entered, []⟩ more later ∧ later.node.successor.isSome = true ∧
      ∀ act ∈ acts, ∀ error, act.turn.action ≠ .reply (.error (.range error)) := by
  have hfounded := (nil ⟨Newcomer.made, []⟩).called .found rfl Newcomer.around
  have hasked := hfounded.called .fixFingers rfl Newcomer.around
  have hfound := hasked.worked [] Newcomer.around
  have hentered : Life ⟨Newcomer.made, []⟩ _ ⟨Newcomer.entered, []⟩ :=
    hfound.worked [] Newcomer.around
  have hrepaired := (nil ⟨Newcomer.entered, []⟩).called .stabilize rfl Newcomer.around
  have hkept := pointers_kept hentered hrepaired
  exact ⟨_, _, _, hentered, hrepaired, hkept.1 rfl, hkept.2.2.2.2.2⟩

end Life

end RecordRing
