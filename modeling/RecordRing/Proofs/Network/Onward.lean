import RecordRing.Proofs.Network.Moves

/-!
# Carrying one task on

What becomes of a network when a single task is carried on and every other task rests.  Such a run
is determined by the network, so a statement that a task reaches an answer says what the operation
does when nothing interferes.

`Consults` also lists the peers whose successors the task learns on the way, which is how many peers a
lookup asks.

## Implementation notes

A call over a link takes several steps: the link counts it and may hold it back, it arrives, and the
peer starts to serve it.  `consults_send` takes them together.
-/

namespace RecordRing.Network

variable {net after last : Network} {number : Nat} {handle peer : Handle} {member : Member}
  {node : Node} {purpose : Purpose} {shape result : Shape} {task : Task}

/-- Carries a task on by one step, or wakes it when it waits. -/
def proceed (net : Network) (number : Nat) : Network :=
  if net.canGoOn number then net.step number else net.wake number

/-- Carrying one task on, and no other, leads from one network to another, and no node takes a place
on a ring twice on the way. -/
def Onward (number : Nat) : Network → Network → Prop :=
  Relation.ReflTransGen fun net next => net.replaces number = false ∧ next = net.proceed number

theorem onward_refl (number : Nat) (net : Network) : Onward number net net :=
  Relation.ReflTransGen.refl

theorem onward_trans (h : Onward number net after) (h' : Onward number after last) :
    Onward number net last :=
  Relation.ReflTransGen.trans h h'

/-- The peer whose successor the innermost lookup of a task is about to learn. -/
def consulted? (net : Network) (number : Nat) : Option Token :=
  match net.tasks[number]? with
  | some ⟨_, _, .answer _, .frame _ (.successorAsked _ current _ _) _⟩ => some current
  | _ => none

/-- Carrying one task on, with the peers whose successors it learns on the way, in order. -/
inductive Consults (number : Nat) : Network → List Token → Network → Prop
  | rest {net : Network} : Consults number net [] net
  | next {net after : Network} {peers : List Token} (first : net.replaces number = false)
      (later : Consults number (net.proceed number) peers after) :
      Consults number net ((net.consulted? number).toList ++ peers) after

theorem Consults.onward {peers : List Token} (h : Consults number net peers after) :
    Onward number net after := by
  induction h with
  | rest => exact onward_refl number _
  | next first later ih => exact Relation.ReflTransGen.head ⟨first, rfl⟩ ih

theorem Consults.trans {peers more : List Token} (h : Consults number net peers after)
    (h' : Consults number after more last) : Consults number net (peers ++ more) last := by
  induction h with
  | rest => exact h'
  | next first later ih =>
      rw [List.append_assoc]
      exact .next first (ih h')

/-- A part of the way on which nothing is learnt. -/
theorem Consults.quietly {peers : List Token} (h : Consults number net [] after)
    (h' : Consults number after peers last) : Consults number net peers last :=
  h.trans h'

theorem consults_proceed (first : net.replaces number = false) :
    Consults number net (net.consulted? number).toList (net.proceed number) := by
  have h := Consults.next first (.rest : Consults number (net.proceed number) [] _)
  rwa [List.append_nil] at h

theorem consults_step (found : net.tasks[number]? = some task)
    (active : task.control.waitsUntil? = none) (first : net.replaces number = false) :
    Consults number net (net.consulted? number).toList (net.step number) := by
  have h := consults_proceed first
  rwa [show net.proceed number = net.step number by simp [proceed, canGoOn, found, active]] at h

theorem onward_step (found : net.tasks[number]? = some task)
    (active : task.control.waitsUntil? = none) (first : net.replaces number = false) :
    Onward number net (net.step number) :=
  (consults_step found active first).onward

theorem consults_wake {stack : Stack shape} {moment : Nat} {next : Control shape}
    (found : net.tasks[number]? = some ⟨purpose, shape, .hold moment next, stack⟩) :
    Consults number net [] (net.wake number) := by
  have hfirst : net.replaces number = false := by simp [replaces, found]
  have h := consults_proceed hfirst
  rwa [show net.consulted? number = none by simp only [consulted?, found],
    show net.proceed number = net.wake number by
      simp [proceed, canGoOn, found, Control.waitsUntil?]] at h

/-- Carrying one task on is a run. -/
theorem run_of_onward (rules : Rules) (h : Onward number net after) : Run rules net after := by
  induction h with
  | refl => exact Relation.ReflTransGen.refl
  | tail _ hnext ih =>
      obtain ⟨hfirst, rfl⟩ := hnext
      apply Relation.ReflTransGen.tail ih
      rw [proceed]
      split
      · exact .step hfirst
      · exact .wake

/-! ## Turns -/

/-- The task that an action leads to, unless it calls the own store, takes a lock or pauses. -/
def taskAfter (purpose : Purpose) (handle : Handle) (below : Stack result) :
    Action result → Option Task
  | .reply outcome => some ⟨purpose, _, .answer outcome, below⟩
  | .ask .own request frame =>
    some ⟨purpose, _, .start handle (.serve request), .frame handle frame below⟩
  | .ask (.remote peer) request frame =>
    some ⟨purpose, _, .send peer request, .frame handle frame below⟩
  | .run operation frame => some ⟨purpose, _, .start handle operation, .frame handle frame below⟩
  | _ => none

theorem act_eq_putTask {below : Stack result} {action : Action result}
    (h : taskAfter purpose handle below action = some task) (net : Network) :
    net.act number purpose handle below action = net.putTask number task := by
  cases action with
  | reply outcome => exact congrArg (net.putTask number) (Option.some.inj h)
  | ask contact request frame =>
      cases contact with
      | own => exact congrArg (net.putTask number) (Option.some.inj h)
      | remote peer => exact congrArg (net.putTask number) (Option.some.inj h)
  | run operation frame => exact congrArg (net.putTask number) (Option.some.inj h)
  | call call frame => cases h
  | lock id frame => cases h
  | sleep millis frame => cases h

/-- A turn overwrites the node that takes it, and the task goes on with its action. -/
theorem work_alike (number : Nat) {below : Stack result}
    (turn : Node → Surroundings → Turn result) (found : net.nodeAt? handle = some node)
    (keeps : ∀ effect ∈ (turn node net.surroundings).effects, ∀ id, effect ≠ .release id)
    (next : taskAfter purpose handle below (turn node net.surroundings).action = some task) :
    (net.setNode handle (turn node net.surroundings).node).Alike
        (net.work number purpose handle below turn) ∧
      (net.work number purpose handle below turn).tasks[number]? = some task := by
  obtain ⟨member, hm, rfl⟩ := nodeAt?_eq_some.1 found
  simp only [work, hm, act_eq_putTask next, setNode_eq hm]
  exact ⟨(alike_performs _ handle _ keeps).putTask number task, getElem?_putTask_self task⟩

/-- Carrying on a task that starts an operation. -/
theorem consults_start {operation : Operation result} {below : Stack result}
    (at_start : net.tasks[number]? = some ⟨purpose, result, .start handle operation, below⟩)
    (found : net.nodeAt? handle = some node) (first : operation.places = false)
    (keeps : ∀ effect ∈ (node.start net.surroundings operation).effects,
      ∀ id, effect ≠ .release id)
    (next : taskAfter purpose handle below (node.start net.surroundings operation).action =
      some task) :
    ∃ after, Consults number net [] after ∧
      (net.setNode handle (node.start net.surroundings operation).node).Alike after ∧
      after.tasks[number]? = some task := by
  have hstep : net.step number =
      net.work number purpose handle below fun node around => node.start around operation := by
    simp only [step, at_start]
  obtain ⟨alike, tasks⟩ := work_alike number
    (fun node around => node.start around operation) found keeps next
  have hfirst : net.replaces number = false := by simp [replaces, at_start, first]
  have hquiet : net.consulted? number = none := by simp only [consulted?, at_start]
  have hon := consults_step at_start rfl hfirst
  rw [hquiet] at hon
  exact ⟨net.step number, hon, hstep ▸ alike, hstep ▸ tasks⟩

/-- Carrying on a task whose innermost operation gets its answer. -/
theorem consults_resume {frame : Frame shape result} {outcome : Outcome shape} {below : Stack result}
    (answered : net.tasks[number]? =
      some ⟨purpose, shape, .answer outcome, .frame handle frame below⟩)
    (found : net.nodeAt? handle = some node) (first : frame.places outcome = false)
    (keeps : ∀ effect ∈ (node.resume net.surroundings frame outcome).effects,
      ∀ id, effect ≠ .release id)
    (next : taskAfter purpose handle below (node.resume net.surroundings frame outcome).action =
      some task) :
    ∃ after, Consults number net (net.consulted? number).toList after ∧
      (net.setNode handle (node.resume net.surroundings frame outcome).node).Alike after ∧
      after.tasks[number]? = some task := by
  have hstep : net.step number =
      net.work number purpose handle below fun node around => node.resume around frame outcome := by
    simp only [step, answered]
  obtain ⟨alike, tasks⟩ := work_alike number
    (fun node around => node.resume around frame outcome) found keeps next
  have hfirst : net.replaces number = false := by simp [replaces, answered, first]
  exact ⟨net.step number, consults_step answered rfl hfirst, hstep ▸ alike, hstep ▸ tasks⟩

theorem onward_start {operation : Operation result} {below : Stack result}
    (at_start : net.tasks[number]? = some ⟨purpose, result, .start handle operation, below⟩)
    (found : net.nodeAt? handle = some node) (first : operation.places = false)
    (keeps : ∀ effect ∈ (node.start net.surroundings operation).effects,
      ∀ id, effect ≠ .release id)
    (next : taskAfter purpose handle below (node.start net.surroundings operation).action =
      some task) :
    ∃ after, Onward number net after ∧
      (net.setNode handle (node.start net.surroundings operation).node).Alike after ∧
      after.tasks[number]? = some task := by
  obtain ⟨after, hon, halike, htask⟩ := consults_start at_start found first keeps next
  exact ⟨after, hon.onward, halike, htask⟩

theorem onward_resume {frame : Frame shape result} {outcome : Outcome shape} {below : Stack result}
    (answered : net.tasks[number]? =
      some ⟨purpose, shape, .answer outcome, .frame handle frame below⟩)
    (found : net.nodeAt? handle = some node) (first : frame.places outcome = false)
    (keeps : ∀ effect ∈ (node.resume net.surroundings frame outcome).effects,
      ∀ id, effect ≠ .release id)
    (next : taskAfter purpose handle below (node.resume net.surroundings frame outcome).action =
      some task) :
    ∃ after, Onward number net after ∧
      (net.setNode handle (node.resume net.surroundings frame outcome).node).Alike after ∧
      after.tasks[number]? = some task := by
  obtain ⟨after, hon, halike, htask⟩ := consults_resume answered found first keeps next
  exact ⟨after, hon.onward, halike, htask⟩

/-- A first turn that leaves the node as it is leaves every member as it is. -/
theorem consults_start_same {operation : Operation result} {below : Stack result}
    (at_start : net.tasks[number]? = some ⟨purpose, result, .start handle operation, below⟩)
    (found : net.nodeAt? handle = some node) (first : operation.places = false)
    (same : (node.start net.surroundings operation).node = node)
    (keeps : ∀ effect ∈ (node.start net.surroundings operation).effects,
      ∀ id, effect ≠ .release id)
    (next : taskAfter purpose handle below (node.start net.surroundings operation).action =
      some task) :
    ∃ after, Consults number net [] after ∧ net.Alike after ∧ after.tasks[number]? = some task := by
  obtain ⟨after, hon, halike, htask⟩ := consults_start at_start found first keeps next
  rw [same] at halike
  exact ⟨after, hon, (Alike.setNode found).trans halike, htask⟩

/-- A later turn that leaves the node as it is leaves every member as it is. -/
theorem consults_resume_same {frame : Frame shape result} {outcome : Outcome shape}
    {below : Stack result}
    (answered : net.tasks[number]? =
      some ⟨purpose, shape, .answer outcome, .frame handle frame below⟩)
    (found : net.nodeAt? handle = some node) (first : frame.places outcome = false)
    (same : (node.resume net.surroundings frame outcome).node = node)
    (keeps : ∀ effect ∈ (node.resume net.surroundings frame outcome).effects,
      ∀ id, effect ≠ .release id)
    (next : taskAfter purpose handle below (node.resume net.surroundings frame outcome).action =
      some task) :
    ∃ after, Consults number net (net.consulted? number).toList after ∧ net.Alike after ∧
      after.tasks[number]? = some task := by
  obtain ⟨after, hon, halike, htask⟩ := consults_resume answered found first keeps next
  rw [same] at halike
  exact ⟨after, hon, (Alike.setNode found).trans halike, htask⟩

theorem onward_start_same {operation : Operation result} {below : Stack result}
    (at_start : net.tasks[number]? = some ⟨purpose, result, .start handle operation, below⟩)
    (found : net.nodeAt? handle = some node) (first : operation.places = false)
    (same : (node.start net.surroundings operation).node = node)
    (keeps : ∀ effect ∈ (node.start net.surroundings operation).effects,
      ∀ id, effect ≠ .release id)
    (next : taskAfter purpose handle below (node.start net.surroundings operation).action =
      some task) :
    ∃ after, Onward number net after ∧ net.Alike after ∧ after.tasks[number]? = some task := by
  obtain ⟨after, hon, halike, htask⟩ := consults_start_same at_start found first same keeps next
  exact ⟨after, hon.onward, halike, htask⟩

theorem onward_resume_same {frame : Frame shape result} {outcome : Outcome shape}
    {below : Stack result}
    (answered : net.tasks[number]? =
      some ⟨purpose, shape, .answer outcome, .frame handle frame below⟩)
    (found : net.nodeAt? handle = some node) (first : frame.places outcome = false)
    (same : (node.resume net.surroundings frame outcome).node = node)
    (keeps : ∀ effect ∈ (node.resume net.surroundings frame outcome).effects,
      ∀ id, effect ≠ .release id)
    (next : taskAfter purpose handle below (node.resume net.surroundings frame outcome).action =
      some task) :
    ∃ after, Onward number net after ∧ net.Alike after ∧ after.tasks[number]? = some task := by
  obtain ⟨after, hon, halike, htask⟩ := consults_resume_same answered found first same keeps next
  exact ⟨after, hon.onward, halike, htask⟩

/-! ## Calls over links -/

/-- Carrying on a task that may be held back first. -/
theorem consults_after {stack : Stack shape} {moment delay : Nat} {next : Control shape}
    (held : net.tasks[number]? = some ⟨purpose, shape, .after moment delay next, stack⟩) :
    ∃ after, Consults number net [] after ∧ net.Alike after ∧
      after.tasks[number]? = some ⟨purpose, shape, next, stack⟩ := by
  by_cases h : delay = 0
  · rw [Control.after, if_pos h] at held
    exact ⟨net, .rest, Alike.refl net, held⟩
  · rw [Control.after, if_neg h] at held
    refine ⟨net.wake number, consults_wake held, ?_, ?_⟩
    · simp only [wake, held]
      exact Alike.of_same rfl rfl rfl
    · simp only [wake, held]
      exact getElem?_putTask_self _

/-- A call over a link that does not fail it reaches the peer. -/
theorem consults_send {request : Request shape} {stack : Stack shape}
    (sent : net.tasks[number]? = some ⟨purpose, shape, .send peer request, stack⟩)
    (found : net.member? peer = some member)
    (passes : member.link.fails request.method = false) :
    ∃ after, Consults number net [] after ∧ net.Alike after ∧
      after.tasks[number]? = some ⟨purpose, shape, .start peer (.serve request), stack⟩ := by
  have hface : ({ member with link := member.link.counting request.method } : Member).face =
      member.face := by
    rw [Member.face, Member.face, Link.faults_counting]
  have hstep : net.step number =
      (net.setMember peer { member with link := member.link.counting request.method }).putTask
        number ⟨purpose, shape, .after net.now (member.link.delay request.method)
          (.arrive peer request), stack⟩ := by
    simp only [step, sent, send, found]
  have halike : net.Alike (net.step number) := by
    rw [hstep]
    exact (Alike.setMember found hface).putTask number _
  have hheld : (net.step number).tasks[number]? = some ⟨purpose, shape,
      .after net.now (member.link.delay request.method) (.arrive peer request), stack⟩ := by
    rw [hstep]
    exact getElem?_putTask_self _
  obtain ⟨arriving, hon, harriving, htask⟩ := consults_after hheld
  obtain ⟨at_peer, hpeer, hpasses⟩ : ∃ at_peer, arriving.member? peer = some at_peer ∧
      at_peer.link.fails request.method = false := by
    have hm := (halike.trans harriving).members peer
    rw [found, Option.map_some] at hm
    obtain ⟨at_peer, hat, hsame⟩ := Option.map_eq_some_iff.1 hm
    refine ⟨at_peer, hat, ?_⟩
    rw [← passes, Link.fails, Link.fails]
    exact congrArg (fun face : Node × List Method × StoreDelay => face.2.1.contains _) hsame
  have hlast : arriving.step number =
      arriving.putTask number ⟨purpose, shape, .start peer (.serve request), stack⟩ := by
    simp only [step, htask, arrive, endpoint_of_member? hpeer, hpasses]
    rfl
  refine ⟨arriving.step number, ?_, ?_, ?_⟩
  · have hsent : net.replaces number = false := by simp [replaces, sent]
    have harrives : arriving.replaces number = false := by simp [replaces, htask]
    have hleaves := consults_step sent rfl hsent
    have hreaches := consults_step htask rfl harrives
    rw [show net.consulted? number = none by simp only [consulted?, sent]] at hleaves
    rw [show arriving.consulted? number = none by simp only [consulted?, htask]] at hreaches
    exact hleaves.quietly (hon.quietly hreaches)
  · rw [hlast]
    exact (halike.trans harriving).putTask number _
  · rw [hlast]
    exact getElem?_putTask_self _

/-- A call that the peer answers at once, with its node unchanged, comes back with the answer. -/
theorem consults_query {request : Request shape} {stack : Stack shape} {outcome : Outcome shape}
    (sent : net.tasks[number]? = some ⟨purpose, shape, .send peer request, stack⟩)
    (found : net.member? peer = some member)
    (passes : member.link.fails request.method = false)
    (answers : member.node.serve net.surroundings request = member.node.reply outcome) :
    ∃ after, Consults number net [] after ∧ net.Alike after ∧
      after.tasks[number]? = some ⟨purpose, shape, .answer outcome, stack⟩ := by
  obtain ⟨serving, hon, halike, htask⟩ := consults_send sent found passes
  have hnode : serving.nodeAt? peer = some member.node := by
    rw [halike.nodeAt?, nodeAt?_of_member? found]
  have hturn : member.node.start serving.surroundings (.serve request) =
      member.node.reply outcome := by
    rw [halike.surroundings]
    exact answers
  obtain ⟨after, hon', halike', htask'⟩ := consults_start_same htask hnode rfl (by rw [hturn]; rfl)
    (by rw [hturn]; simp [Node.reply]) (by rw [hturn]; rfl)
  exact ⟨after, hon.quietly hon', halike.trans halike', htask'⟩

/-- A contact that is asked starts to serve the request. -/
theorem onward_ask {contact : Contact} {request : Request shape} {frame : Frame shape result}
    {below : Stack result}
    (asks : taskAfter purpose handle below (.ask contact request frame) = net.tasks[number]?)
    (found : net.member? (contact.at handle) = some member)
    (passes : member.link.fails request.method = false) :
    ∃ after, Onward number net after ∧ net.Alike after ∧ after.tasks[number]? =
      some ⟨purpose, shape, .start (contact.at handle) (.serve request),
        .frame handle frame below⟩ := by
  cases contact with
  | own => exact ⟨net, onward_refl number net, Alike.refl net, asks.symm⟩
  | remote peer =>
      obtain ⟨after, hon, halike, htask⟩ := consults_send asks.symm found passes
      exact ⟨after, hon.onward, halike, htask⟩

/-! ## Whole calls -/

/-- The answer of the outermost operation ends the task. -/
theorem onward_finish {outcome : Outcome shape}
    (answered : net.tasks[number]? = some ⟨.client [], shape, .answer outcome, .root⟩) :
    ∃ after, Onward number net after ∧ net.Alike after ∧ after.tasks[number]? = none ∧
      after.endings[number]? = some ⟨shape, outcome⟩ := by
  have hfirst : net.replaces number = false := by simp [replaces, answered]
  refine ⟨net.step number, onward_step answered rfl hfirst, ?_, ?_, ?_⟩
  · simp only [step, answered, finish]
    exact Alike.of_same rfl rfl rfl
  · simp only [step, answered, finish]
    rw [dropTask, Std.TreeMap.getElem?_erase_self]
  · simp only [step, answered, finish]
    exact Std.TreeMap.getElem?_insert_self

/-- A member is told to carry out an operation, and does so while every other task rests. -/
def Completes (net : Network) (handle : Handle) (operation : Operation .nothing)
    (after : Network) : Prop :=
  Onward net.nextTask (net.spawn (taskOf (.client []) handle operation)) after ∧
    after.tasks[net.nextTask]? = none

theorem proceed_of_none (ended : net.tasks[number]? = none) : net.proceed number = net := by
  simp [proceed, canGoOn, wake, ended]

theorem onward_of_none (ended : net.tasks[number]? = none) (h : Onward number net after) :
    after = net := by
  induction h with
  | refl => rfl
  | tail _ hnext ih => rw [hnext.2, ih, proceed_of_none ended]

/-- A member that carries out a permitted operation takes part in a run. -/
theorem Completes.run {rules : Rules} {operation : Operation .nothing}
    (h : net.Completes handle operation after) (permitted : rules.Permits net handle operation) :
    Run rules net after :=
  Relation.ReflTransGen.head (.tell permitted) (run_of_onward rules h.1)

/-- An operation that is carried out on its own leads to one network only. -/
theorem Completes.unique {operation : Operation .nothing} (h : net.Completes handle operation after)
    (h' : net.Completes handle operation last) : after = last := by
  have hright : Relator.RightUnique fun now next : Network =>
      now.replaces net.nextTask = false ∧ next = now.proceed net.nextTask :=
    fun _ _ _ hfirst hsecond => hfirst.2.trans hsecond.2.symm
  rcases Relation.ReflTransGen.total_of_right_unique hright h.1 h'.1 with hmore | hmore
  · exact (onward_of_none h.2 hmore).symm
  · exact onward_of_none h'.2 hmore

end RecordRing.Network
