import RecordRing.Proofs.Network.Alone

/-!
# Peers that a task asks

Every call over a link, with the peer at its end, while one task is carried on and every other task
rests (`Asks`).  A node that works without side effects asks nobody by that, and a question for the
successor is one call, whatever the peer answers.

## Implementation notes

`Consults` lists the peers of a lookup by what is learnt from them.  Here a call counts as soon as
it is sent, so a peer that is asked in vain counts as well.
-/

namespace RecordRing.Network

variable {net after last : Network} {number : Nat} {handle peer : Handle} {peers more : List Handle}
  {member : Member} {node : Node} {purpose : Purpose} {shape result : Shape} {task : Task}

/-- The peer to which a task is about to send a call. -/
def asked? (net : Network) (number : Nat) : Option Handle :=
  match net.tasks[number]? with
  | some ⟨_, _, .send peer _, _⟩ => some peer
  | _ => none

/-- Carrying one task on, with the peers to which it sends calls on the way, in order. -/
inductive Asks (number : Nat) : Network → List Handle → Network → Prop
  | rest {net : Network} : Asks number net [] net
  | next {net after : Network} {peers : List Handle} (first : net.replaces number = false)
      (later : Asks number (net.proceed number) peers after) :
      Asks number net ((net.asked? number).toList ++ peers) after

namespace Asks

theorem trans (h : Asks number net peers after) (h' : Asks number after more last) :
    Asks number net (peers ++ more) last := by
  induction h with
  | rest => exact h'
  | next first later ih =>
      rw [List.append_assoc]
      exact .next first (ih h')

/-- A step of a task that does not wait. -/
theorem step (active : net.canGoOn number = true) (first : net.replaces number = false) :
    Asks number net (net.asked? number).toList (net.step number) := by
  have h := Asks.next first (.rest : Asks number (net.proceed number) [] _)
  rwa [List.append_nil, show net.proceed number = net.step number from if_pos active] at h

end Asks

/-- A turn without side effects leads to a task that goes on at once, and nobody is asked by it. -/
theorem Takes.asks_nobody {below : Stack result} {action : Action result}
    (takes : net.Takes number purpose handle below node ⟨node, [], action⟩)
    (silent : net.asked? number = none)
    (next : taskAfter purpose handle below action = some task) :
    ∃ after, Asks number net [] after ∧ net.Alike after ∧ after.tasks[number]? = some task := by
  have hstep : net.step number = net.putTask number task := by
    rw [takes.works, work_same number purpose below takes.found rfl]
    exact act_eq_putTask next net
  have hasks := Asks.step takes.active takes.first
  rw [silent, hstep] at hasks
  exact ⟨_, hasks, (Alike.refl net).putTask number task, getElem?_putTask_self task⟩

theorem asks_start {operation : Operation result} {below : Stack result} {action : Action result}
    (at_start : net.tasks[number]? = some ⟨purpose, result, .start handle operation, below⟩)
    (found : net.nodeAt? handle = some node) (first : operation.places = false)
    (turn : node.start net.surroundings operation = ⟨node, [], action⟩)
    (next : taskAfter purpose handle below action = some task) :
    ∃ after, Asks number net [] after ∧ net.Alike after ∧ after.tasks[number]? = some task := by
  have htakes := takes_start at_start found first
  rw [turn] at htakes
  exact htakes.asks_nobody (by simp only [asked?, at_start]) next

theorem asks_resume {frame : Frame shape result} {outcome : Outcome shape} {below : Stack result}
    {action : Action result}
    (answered : net.tasks[number]? =
      some ⟨purpose, shape, .answer outcome, .frame handle frame below⟩)
    (found : net.nodeAt? handle = some node) (first : frame.places outcome = false)
    (turn : node.resume net.surroundings frame outcome = ⟨node, [], action⟩)
    (next : taskAfter purpose handle below action = some task) :
    ∃ after, Asks number net [] after ∧ net.Alike after ∧ after.tasks[number]? = some task := by
  have htakes := takes_resume answered found first
  rw [turn] at htakes
  exact htakes.asks_nobody (by simp only [asked?, answered]) next

/-- A peer that is asked for its successor names it, if its link lets the question pass. -/
theorem asks_successor {stack : Stack .knownId}
    (sent : net.tasks[number]? = some ⟨purpose, .knownId, .send peer .successor, stack⟩)
    (found : net.member? peer = some member) (passes : member.link.fails .successor = false) :
    ∃ after, Asks number net [peer] after ∧ net.Alike after ∧
      after.tasks[number]? =
        some ⟨purpose, .knownId, .answer (.ok member.node.successor), stack⟩ := by
  -- the call is sent at once, for questions for the successor are never held back
  have hgoes : net.canGoOn number = true := by simp [canGoOn, sent, Control.waitsUntil?]
  have hleaves := Asks.step hgoes (by simp [replaces, sent])
  have hsend : net.step number = (net.setMember peer member).putTask number
      ⟨purpose, .knownId, .arrive peer .successor, stack⟩ := by
    simp only [Network.step, sent, send, found]
    rfl
  rw [show net.asked? number = some peer by simp only [asked?, sent], hsend] at hleaves
  let leaving := (net.setMember peer member).putTask number
    ⟨purpose, .knownId, .arrive peer .successor, stack⟩
  have hleaving : net.Alike leaving := (Alike.setMember found rfl).putTask number _
  have harriving : leaving.tasks[number]? =
      some ⟨purpose, .knownId, .arrive peer .successor, stack⟩ := getElem?_putTask_self _
  have hpeer : leaving.member? peer = some member := by
    rw [member?_putTask, member?_setMember found, if_pos rfl]
  -- it arrives
  have hgoes' : leaving.canGoOn number = true := by
    simp [canGoOn, harriving, Control.waitsUntil?]
  have hreaches := Asks.step hgoes' (by simp [replaces, harriving])
  have harrive : leaving.step number = leaving.putTask number
      ⟨purpose, .knownId, .start peer (.serve .successor), stack⟩ := by
    simp only [Network.step, harriving, arrive, endpoint_of_member? hpeer]
    rw [if_neg]
    exact Bool.eq_false_iff.1 passes
  rw [show leaving.asked? number = none by simp only [asked?, harriving], harrive] at hreaches
  let serving := leaving.putTask number ⟨purpose, .knownId, .start peer (.serve .successor), stack⟩
  have hserving : leaving.Alike serving := (Alike.refl leaving).putTask number _
  -- and the peer answers
  have hnode : serving.nodeAt? peer = some member.node :=
    (hserving.nodeAt? peer).trans (nodeAt?_of_member? hpeer)
  have hserves : serving.tasks[number]? =
      some ⟨purpose, .knownId, .start peer (.serve .successor), stack⟩ := getElem?_putTask_self _
  obtain ⟨after, hanswers, halike, htask⟩ := asks_start hserves hnode rfl rfl rfl
  exact ⟨after, hleaves.trans (hreaches.trans hanswers), hleaving.trans (hserving.trans halike),
    htask⟩

end RecordRing.Network
