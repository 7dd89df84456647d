import Mathlib.Logic.Relation
import RecordRing.Proofs.Network.Leads

/-!
# Work without a wait

Where no call is held back and no lock is taken, a task goes on from its first turn to its outcome
before any other task does.  `Yields` says what such work comes to, in terms of a network that does
not contain the task: the turns that the members take one after the other, and what each of them
leaves behind.  A task that stands at a turn is then carried on to the outcome (`Yields.straight`),
whatever it was started for and whichever operations wait for the outcome.

## Implementation notes

`Bears` relates a network and the same network with one more task.  The tasks of the two are
compared by their numbers only, because a task that moves on is overwritten.
-/

namespace RecordRing.Network

variable {net after last loaded : Network} {number other : Nat} {handle peer : Handle}
  {member : Member} {node : Node} {purpose : Purpose} {shape result : Shape} {task new : Task}

/-! ## Carrying one task straight on -/

/-- Carrying one task on, which does not wait on the way, leads from one network to another. -/
def Straight (number : Nat) : Network → Network → Prop :=
  Relation.ReflTransGen fun net next => net.canGoOn number = true ∧ next = net.step number

theorem Straight.refl (number : Nat) (net : Network) : Straight number net net :=
  Relation.ReflTransGen.refl

theorem Straight.trans (h : Straight number net after) (h' : Straight number after last) :
    Straight number net last :=
  Relation.ReflTransGen.trans h h'

theorem straight_step (active : net.canGoOn number = true) :
    Straight number net (net.step number) :=
  Relation.ReflTransGen.single ⟨active, rfl⟩

theorem canGoOn_of_active (found : net.tasks[number]? = some task)
    (active : task.control.waitsUntil? = none) : net.canGoOn number = true := by
  simp [canGoOn, found, active]

theorem runTask_of_canGoOn (active : net.canGoOn number = true) :
    net.runTask number = (net.step number).runTask number := by
  rw [runTask, repeatM_eq_of_monadTail]
  simp only [repeatM.body, active, if_true]
  rfl

theorem runTask_of_not_canGoOn (idle : net.canGoOn number = false) : net.runTask number =
    if net.tasks.contains number then net.makeWait number else net := by
  rw [runTask, repeatM_eq_of_monadTail]
  simp only [repeatM.body, idle, Bool.false_eq_true, if_false]
  rfl

/-- What a task comes to is what it comes to from a later point on. -/
theorem Straight.runTask_eq (h : Straight number net after) :
    net.runTask number = after.runTask number := by
  induction h with
  | refl => rfl
  | tail _ hnext ih =>
      obtain ⟨hactive, rfl⟩ := hnext
      rw [ih, runTask_of_canGoOn hactive]

/-- A task that ends is carried on to its end. -/
theorem Straight.runTask_of_ended (h : Straight number net after)
    (ended : after.tasks[number]? = none) : net.runTask number = after := by
  have hcontains : after.tasks.contains number = false := by
    rw [Std.TreeMap.contains_eq_isSome_getElem?, ended, Option.isSome_none]
  rw [h.runTask_eq, runTask_of_not_canGoOn (by simp [canGoOn, ended]), if_neg (by simp [hcontains])]

/-- A task that comes to a wait is carried on to the wait. -/
theorem Straight.runTask_of_waits (h : Straight number net after)
    (found : after.tasks[number]? = some task) (waits : task.control.waitsUntil? ≠ none) :
    net.runTask number = after.makeWait number := by
  have hcontains : after.tasks.contains number = true := by
    rw [Std.TreeMap.contains_eq_isSome_getElem?, found, Option.isSome_some]
  have hidle : after.canGoOn number = false := by
    rw [canGoOn, found]
    exact Option.isNone_eq_false_iff.2 (Option.isSome_iff_ne_none.2 waits)
  rw [h.runTask_eq, runTask_of_not_canGoOn hidle, if_pos hcontains]

/-! ## A network with one more task -/

/-- A network with one more task than another, whose number has been given out. -/
structure Bears (net : Network) (number : Nat) (task : Task) (loaded : Network) : Prop where
  free : net.tasks[number]? = none
  old : number < net.nextTask
  tasks : ∀ other : Nat, loaded.tasks[other]? =
    if number = other then some task else net.tasks[other]?
  rest : { loaded with tasks := net.tasks } = net

namespace Bears

theorem found (bears : net.Bears number task loaded) : loaded.tasks[number]? = some task := by
  rw [bears.tasks, if_pos rfl]

theorem endpoints (bears : net.Bears number task loaded) : loaded.endpoints = net.endpoints :=
  (congrArg Network.endpoints bears.rest :)

theorem nextTask (bears : net.Bears number task loaded) : loaded.nextTask = net.nextTask :=
  (congrArg Network.nextTask bears.rest :)

theorem now (bears : net.Bears number task loaded) : loaded.now = net.now :=
  (congrArg Network.now bears.rest :)

theorem directory (bears : net.Bears number task loaded) : loaded.directory = net.directory :=
  (congrArg Network.directory bears.rest :)

theorem surroundings (bears : net.Bears number task loaded) :
    loaded.surroundings = net.surroundings :=
  (congrArg Network.surroundings bears.rest :)

theorem member? (bears : net.Bears number task loaded) : loaded.member? = net.member? :=
  member?_congr bears.endpoints

theorem nodeAt? (bears : net.Bears number task loaded) (handle : Handle) :
    loaded.nodeAt? handle = net.nodeAt? handle := by
  rw [Network.nodeAt?, Network.nodeAt?, bears.member?]

theorem putTask (bears : net.Bears number task loaded) (new : Task) :
    net.Bears number new (loaded.putTask number new) where
  free := bears.free
  old := bears.old
  tasks other := by
    rw [getElem?_putTask]
    split
    · rfl
    · rename_i hne
      rw [bears.tasks, if_neg hne]
  rest := bears.rest

theorem setMember (bears : net.Bears number task loaded) (handle : Handle) (new : Member) :
    (net.setMember handle new).Bears number task (loaded.setMember handle new) :=
  ⟨bears.free, bears.old, bears.tasks, congrArg (fun left => left.setMember handle new) bears.rest⟩

theorem setNode (bears : net.Bears number task loaded) (handle : Handle) (new : Node) :
    (net.setNode handle new).Bears number task (loaded.setNode handle new) := by
  rw [Network.setNode, Network.setNode, bears.member?]
  split
  · exact bears.setMember handle _
  · exact bears

theorem count (bears : net.Bears number task loaded) (counter : Counter) :
    (net.count counter).Bears number task (loaded.count counter) :=
  ⟨bears.free, bears.old, bears.tasks, congrArg (fun left => left.count counter) bears.rest⟩

theorem spawn (bears : net.Bears number task loaded) (new : Task) :
    (net.spawn new).Bears number task (loaded.spawn new) := by
  have hne : net.nextTask ≠ number := Nat.ne_of_gt bears.old
  have hput (left : Network) (other : Nat) : (left.spawn new).tasks[other]? =
      if left.nextTask = other then some new else left.tasks[other]? :=
    getElem?_putTask new other
  refine ⟨?_, Nat.lt_succ_of_lt bears.old, fun other => ?_, ?_⟩
  · rw [hput, if_neg hne, bears.free]
  · rw [hput, hput, bears.nextTask, bears.tasks]
    by_cases hnew : net.nextTask = other
    · rw [if_pos hnew, if_pos hnew, if_neg fun heq => hne (hnew.trans heq.symm)]
    · rw [if_neg hnew, if_neg hnew]
  · have hrest := congrArg (fun left : Network => left.spawn new) bears.rest
    rw [← hrest]
    rfl

/-- A task that does not wait for a lock is granted none. -/
theorem grant (bears : net.Bears number task loaded) (idle : task.control.queue? = none)
    (other : Nat) : (net.grant other).Bears number task (loaded.grant other) := by
  by_cases hsame : number = other
  · subst hsame
    have hnet : net.grant number = net := by
      simp only [Network.grant, bears.free]
    have hloaded : loaded.grant number = loaded := by
      simp only [Network.grant, bears.found]
      split
      · rename_i heq
        cases Option.some.inj heq
        cases idle
      · rfl
    rw [hnet, hloaded]
    exact bears
  · have htask : loaded.tasks[other]? = net.tasks[other]? := by rw [bears.tasks, if_neg hsame]
    rw [Network.grant, Network.grant, htask]
    split
    · refine ⟨?_, bears.old, fun key => ?_, ?_⟩
      · exact (getElem?_putTask _ _).trans ((if_neg (Ne.symm hsame)).trans bears.free)
      · refine (getElem?_putTask _ _).trans (Eq.trans ?_
          (congrArg (ite _ _) (getElem?_putTask _ _).symm))
        rw [bears.tasks]
        by_cases hkey : other = key
        · rw [if_pos hkey, if_pos hkey, if_neg fun heq => hsame (heq.trans hkey.symm)]
        · rw [if_neg hkey, if_neg hkey]
      · exact congrArg (fun left : Network => (left.putTask other _).makeReady other) bears.rest
    · exact bears

theorem perform (bears : net.Bears number task loaded) (idle : task.control.queue? = none)
    (handle : Handle) (effect : Effect) :
    (net.perform handle effect).Bears number task (loaded.perform handle effect) := by
  cases found : net.member? handle with
  | none =>
      rw [perform_none found, perform_none (bears.member? ▸ found)]
      exact bears
  | some member =>
      have hloaded : loaded.member? handle = some member := bears.member? ▸ found
      cases effect with
      | release id =>
          rw [perform_release found, perform_release hloaded]
          split
          · exact (bears.setMember handle _).grant idle _
          · exact bears.setMember handle _
      | spawn operation =>
          rw [perform_spawn found, perform_spawn hloaded]
          exact bears.spawn _
      | announce requester =>
          rw [perform_announce found, perform_announce hloaded]
          split
          · exact bears.setMember handle _
          · exact (bears.setMember handle _).spawn _
      | tally counter =>
          rw [perform_tally found, perform_tally hloaded]
          exact bears.count counter

theorem performs (bears : net.Bears number task loaded) (idle : task.control.queue? = none)
    (handle : Handle) (effects : List Effect) :
    (effects.foldl (fun left effect => left.perform handle effect) net).Bears number task
      (effects.foldl (fun left effect => left.perform handle effect) loaded) := by
  induction effects generalizing net loaded with
  | nil => exact bears
  | cons effect rest ih => exact ih (bears.perform idle handle effect)

end Bears

/-! ## Turns and their outcomes -/

/-- What a turn of a member does to the network apart from its action. -/
def enact (net : Network) (handle : Handle) {result : Shape} (turn : Turn result) : Network :=
  turn.effects.foldl (fun left effect => left.perform handle effect) (net.setNode handle turn.node)

theorem Bears.enact (bears : net.Bears number task loaded) (idle : task.control.queue? = none)
    (handle : Handle) (turn : Turn result) :
    (net.enact handle turn).Bears number task (loaded.enact handle turn) :=
  (bears.setNode handle turn.node).performs idle handle turn.effects

/-- A call of a kind passes at once to a contact of a member: a link counts it. -/
def Passes (net : Network) (contact : Contact) (method : Method) (after : Network) : Prop :=
  match contact with
  | .own => after = net
  | .remote peer => ∃ member, net.member? peer = some member ∧ member.link.delay method = 0 ∧
    member.link.fails method = false ∧
    after = net.setMember peer { member with link := member.link.counting method }

/-- A member's store carries out a call. -/
def accessed (net : Network) (handle : Handle) (member : Member) {shape : Shape}
    (call : StoreCall shape) : Network :=
  net.setMember handle { member with node := { member.node with
    store := (member.node.store.perform member.node.config.credential call).2 } }

/-- A task takes a free lock of a member. -/
def locked (net : Network) (number : Nat) (handle : Handle) (member : Member) (id : LockId) :
    Network :=
  net.setMember handle (member.withLocks (member.node.locks.acquire id net.now
    ⟨number, net.now + member.node.config.lockTimeout⟩).2)

/-- A member that takes a turn comes to an outcome without a wait, in a task of a number. -/
inductive Yields (number : Nat) : {result : Shape} → Network → Handle → Turn result →
    Outcome result → Network → Prop where
  /-- The turn ends the operation. -/
  | reply {result : Shape} {net : Network} {handle : Handle} {turn : Turn result}
      {outcome : Outcome result} (acts : turn.action = .reply outcome) :
      Yields number net handle turn outcome (net.enact handle turn)
  /-- A contact is asked, and the member goes on with its answer. -/
  | ask {result shape : Shape} {net next mid after : Network} {handle : Handle} {turn : Turn result}
      {outcome : Outcome result} {contact : Contact} {request : Request shape}
      {frame : Frame shape result} {asked node : Node} {answer : Outcome shape}
      (acts : turn.action = .ask contact request frame)
      (passes : (net.enact handle turn).Passes contact request.method next)
      (meets : next.nodeAt? (contact.at handle) = some asked)
      (serves : Yields number next (contact.at handle) (asked.serve next.surroundings request)
        answer mid)
      (found : mid.nodeAt? handle = some node)
      (resumes : Yields number mid handle (node.resume mid.surroundings frame answer) outcome
        after) :
      Yields number net handle turn outcome after
  /-- The member carries out another operation first. -/
  | run {result shape : Shape} {net mid after : Network} {handle : Handle} {turn : Turn result}
      {outcome : Outcome result} {operation : Operation shape} {frame : Frame shape result}
      {first node : Node} {answer : Outcome shape} (acts : turn.action = .run operation frame)
      (meets : (net.enact handle turn).nodeAt? handle = some first)
      (starts : Yields number (net.enact handle turn) handle
        (first.start (net.enact handle turn).surroundings operation) answer mid)
      (found : mid.nodeAt? handle = some node)
      (resumes : Yields number mid handle (node.resume mid.surroundings frame answer) outcome
        after) :
      Yields number net handle turn outcome after
  /-- The member's store carries out a call. -/
  | call {result shape : Shape} {net after : Network} {handle : Handle} {turn : Turn result}
      {outcome : Outcome result} {call : StoreCall shape} {frame : Frame shape result}
      {member : Member} {node : Node} (acts : turn.action = .call call frame)
      (meets : (net.enact handle turn).member? handle = some member)
      (prompt : member.storeDelay.of call = 0)
      (found : ((net.enact handle turn).accessed handle member call).nodeAt? handle = some node)
      (resumes : Yields number ((net.enact handle turn).accessed handle member call) handle
        (node.resume (net.enact handle turn).surroundings frame
          ((member.node.store.perform member.node.config.credential call).1.mapError .store))
        outcome after) :
      Yields number net handle turn outcome after
  /-- The member takes a free lock. -/
  | lock {result : Shape} {net after : Network} {handle : Handle} {turn : Turn result}
      {outcome : Outcome result} {id : LockId} {frame : Frame .nothing result} {member : Member}
      {node : Node} (acts : turn.action = .lock id frame)
      (meets : (net.enact handle turn).member? handle = some member)
      (free : member.node.locks.find? id = none)
      (found : ((net.enact handle turn).locked number handle member id).nodeAt? handle = some node)
      (resumes : Yields number ((net.enact handle turn).locked number handle member id) handle
        (node.resume (net.enact handle turn).surroundings frame (.ok ())) outcome after) :
      Yields number net handle turn outcome after

/-- A member carries an operation out without a wait, in a task of a number. -/
def Performs (number : Nat) (net : Network) (handle : Handle) {shape : Shape}
    (operation : Operation shape) (outcome : Outcome shape) (after : Network) : Prop :=
  ∃ node, net.nodeAt? handle = some node ∧
    Yields number net handle (node.start net.surroundings operation) outcome after

/-- The next step of a task is a turn of a member. -/
structure Turns (loaded : Network) (number : Nat) (purpose : Purpose) (handle : Handle)
    {result : Shape} (below : Stack result) (turn : Turn result) : Prop where
  active : loaded.canGoOn number = true
  works : loaded.step number = loaded.work number purpose handle below fun _ _ => turn

theorem turns_of_start {operation : Operation result} {below : Stack result}
    (at_start : loaded.tasks[number]? = some ⟨purpose, result, .start handle operation, below⟩)
    (found : loaded.nodeAt? handle = some node) :
    loaded.Turns number purpose handle below (node.start loaded.surroundings operation) := by
  refine ⟨canGoOn_of_active at_start rfl, ?_⟩
  rw [step_start at_start]
  obtain ⟨member, hmember, rfl⟩ := nodeAt?_eq_some.1 found
  simp only [work, hmember]

theorem turns_of_answer {frame : Frame shape result} {outcome : Outcome shape}
    {below : Stack result} (answered : loaded.tasks[number]? =
      some ⟨purpose, shape, .answer outcome, .frame handle frame below⟩)
    (found : loaded.nodeAt? handle = some node) :
    loaded.Turns number purpose handle below (node.resume loaded.surroundings frame outcome) := by
  refine ⟨canGoOn_of_active answered rfl, ?_⟩
  rw [step_answer answered]
  obtain ⟨member, hmember, rfl⟩ := nodeAt?_eq_some.1 found
  simp only [work, hmember]

/-- A turn of a member that is there leads to its action. -/
theorem Turns.step_eq {below : Stack result} {turn : Turn result}
    (turns : loaded.Turns number purpose handle below turn)
    (found : loaded.nodeAt? handle = some node) : loaded.step number =
      (loaded.enact handle turn).act number purpose handle below turn.action := by
  obtain ⟨member, hmember, rfl⟩ := nodeAt?_eq_some.1 found
  rw [turns.works, enact, setNode_eq hmember]
  simp only [work, hmember]

/-! ## From turns to steps -/

/-- A call that a link passes at once is served next. -/
theorem straight_send {request : Request shape} {stack : Stack shape}
    (bears : net.Bears number ⟨purpose, shape, .send peer request, stack⟩ loaded)
    (passes : net.Passes (.remote peer) request.method after) : ∃ serving,
      Straight number loaded serving ∧
        after.Bears number ⟨purpose, shape, .start peer (.serve request), stack⟩ serving := by
  obtain ⟨member, hmember, hdelay, hfails, rfl⟩ := passes
  let counted : Member := { member with link := member.link.counting request.method }
  have hloaded : loaded.member? peer = some member := bears.member? ▸ hmember
  have hsent : loaded.step number = (loaded.setMember peer counted).putTask number
      ⟨purpose, shape, .arrive peer request, stack⟩ := by
    rw [step_send bears.found]
    simp only [send, hloaded, hdelay, Control.after, if_pos, counted]
  have harriving := (bears.setMember peer counted).putTask
    ⟨purpose, shape, .arrive peer request, stack⟩
  rw [← hsent] at harriving
  have hpeer : (loaded.step number).member? peer = some counted := by
    rw [harriving.member?, member?_setMember hmember, if_pos rfl]
  have hfails' : counted.link.fails request.method = false := by
    rw [Link.fails, Link.faults_counting]
    exact hfails
  have harrived : (loaded.step number).step number = (loaded.step number).putTask number
      ⟨purpose, shape, .start peer (.serve request), stack⟩ := by
    rw [step_arrive harriving.found]
    simp only [arrive, endpoint_of_member? hpeer, hfails', Bool.false_eq_true, if_false]
  refine ⟨(loaded.step number).step number, ?_, ?_⟩
  · exact (straight_step (canGoOn_of_active bears.found rfl)).trans
      (straight_step (canGoOn_of_active harriving.found rfl))
  · rw [harrived]
    exact harriving.putTask _

/-- A call that a member's store carries out at once. -/
theorem straight_access {call : StoreCall shape} {stack : Stack shape}
    (bears : net.Bears number ⟨purpose, shape, .access handle call, stack⟩ loaded)
    (found : net.member? handle = some member) : ∃ answered, Straight number loaded answered ∧
      (net.accessed handle member call).Bears number ⟨purpose, shape, .answer
        ((member.node.store.perform member.node.config.credential call).1.mapError .store), stack⟩
        answered := by
  have hloaded : loaded.member? handle = some member := bears.member? ▸ found
  have hstep : loaded.step number = (loaded.accessed handle member call).putTask number
      ⟨purpose, shape, .answer
        ((member.node.store.perform member.node.config.credential call).1.mapError .store),
        stack⟩ := by
    rw [step_access bears.found]
    simp only [access, hloaded, accessed]
    cases (member.node.store.perform member.node.config.credential call).1 <;> rfl
  refine ⟨_, straight_step (canGoOn_of_active bears.found rfl), ?_⟩
  rw [hstep]
  exact (bears.setMember handle _).putTask _

/-- A task that stands at a turn is carried straight on to the outcome that the turn comes to. -/
theorem Yields.straight {turn : Turn result} {outcome : Outcome result}
    (yields : Yields number net handle turn outcome after) :
    ∀ {loaded : Network} {purpose : Purpose} {below : Stack result} {task : Task} {node : Node},
      net.Bears number task loaded → task.control.queue? = none →
      net.nodeAt? handle = some node → loaded.Turns number purpose handle below turn →
      ∃ ended, Straight number loaded ended ∧
        after.Bears number ⟨purpose, result, .answer outcome, below⟩ ended := by
  induction yields with
  | @reply result net handle turn outcome acts =>
      intro loaded purpose below task node bears idle found turns
      have hstep := turns.step_eq (bears.nodeAt? handle ▸ found)
      rw [acts] at hstep
      refine ⟨_, straight_step turns.active, ?_⟩
      rw [hstep]
      exact (bears.enact idle handle turn).putTask _
  | @ask result shape net next mid after handle turn outcome contact request frame asked node
      answer acts passes meets serves found resumes ihserves ihresumes =>
      intro loaded purpose below task first bears idle hfirst turns
      have hstep := turns.step_eq (bears.nodeAt? handle ▸ hfirst)
      rw [acts] at hstep
      -- the request is at the contact, which takes its first turn
      obtain ⟨serving, hserving, hbears⟩ : ∃ serving, Straight number loaded serving ∧
          next.Bears number ⟨purpose, shape, .start (contact.at handle) (.serve request),
            .frame handle frame below⟩ serving := by
        cases contact with
        | own =>
            cases passes
            refine ⟨_, straight_step turns.active, ?_⟩
            rw [hstep]
            exact (bears.enact idle handle turn).putTask _
        | remote peer =>
            have hsent := (bears.enact idle handle turn).putTask
              ⟨purpose, shape, .send peer request, .frame handle frame below⟩
            obtain ⟨serving, hserving, hbears⟩ := straight_send hsent passes
            have hstraight := straight_step turns.active
            rw [hstep] at hstraight
            exact ⟨serving, hstraight.trans hserving, hbears⟩
      have hturns := turns_of_start hbears.found (hbears.nodeAt? _ ▸ meets)
      rw [hbears.surroundings] at hturns
      obtain ⟨answered, hanswered, hbears'⟩ := ihserves hbears rfl meets hturns
      have hturns' := turns_of_answer hbears'.found (hbears'.nodeAt? _ ▸ found)
      rw [hbears'.surroundings] at hturns'
      obtain ⟨ended, hended, hlast⟩ := ihresumes hbears' rfl found hturns'
      exact ⟨ended, (hserving.trans hanswered).trans hended, hlast⟩
  | @run result shape net mid after handle turn outcome operation frame first node answer acts meets
      starts found resumes ihstarts ihresumes =>
      intro loaded purpose below task before bears idle hbefore turns
      have hstep := turns.step_eq (bears.nodeAt? handle ▸ hbefore)
      rw [acts] at hstep
      have hbears := (bears.enact idle handle turn).putTask
        ⟨purpose, shape, .start handle operation, .frame handle frame below⟩
      have hturns := turns_of_start hbears.found (hbears.nodeAt? _ ▸ meets)
      rw [hbears.surroundings] at hturns
      obtain ⟨answered, hanswered, hbears'⟩ := ihstarts hbears rfl meets hturns
      have hturns' := turns_of_answer hbears'.found (hbears'.nodeAt? _ ▸ found)
      rw [hbears'.surroundings] at hturns'
      obtain ⟨ended, hended, hlast⟩ := ihresumes hbears' rfl found hturns'
      refine ⟨ended, ?_, hlast⟩
      exact ((hstep ▸ straight_step turns.active).trans hanswered).trans hended
  | @call result shape net after handle turn outcome call frame member node acts meets prompt found
      resumes ih =>
      intro loaded purpose below task before bears idle hbefore turns
      have hstep := turns.step_eq (bears.nodeAt? handle ▸ hbefore)
      have hmeets : (loaded.enact handle turn).member? handle = some member :=
        (bears.enact idle handle turn).member? ▸ meets
      simp only [acts, act, hmeets, Option.elim_some, prompt, Control.after, if_true] at hstep
      have hbears := (bears.enact idle handle turn).putTask
        ⟨purpose, shape, .access handle call, .frame handle frame below⟩
      obtain ⟨answered, hanswered, hbears'⟩ := straight_access hbears meets
      have hturns := turns_of_answer hbears'.found (hbears'.nodeAt? _ ▸ found)
      rw [hbears'.surroundings] at hturns
      obtain ⟨ended, hended, hlast⟩ := ih hbears' rfl found hturns
      refine ⟨ended, ?_, hlast⟩
      exact ((hstep ▸ straight_step turns.active).trans hanswered).trans hended
  | @lock result net after handle turn outcome id frame member node acts meets free found resumes
      ih =>
      intro loaded purpose below task before bears idle hbefore turns
      have henacted := bears.enact idle handle turn
      have hstep := turns.step_eq (bears.nodeAt? handle ▸ hbefore)
      have hmeets : (loaded.enact handle turn).member? handle = some member :=
        henacted.member? ▸ meets
      have hgrant := (LockTable.acquire_free free (net.enact handle turn).now
        ⟨number, (net.enact handle turn).now + member.node.config.lockTimeout⟩).1
      simp only [acts, act, hmeets, henacted.now, hgrant] at hstep
      have hbears := (henacted.setMember handle (member.withLocks (member.node.locks.acquire id
        (net.enact handle turn).now ⟨number, (net.enact handle turn).now +
          member.node.config.lockTimeout⟩).2)).putTask
        ⟨purpose, .nothing, .answer (.ok ()), .frame handle frame below⟩
      have hturns := turns_of_answer hbears.found (hbears.nodeAt? _ ▸ found)
      rw [hbears.surroundings] at hturns
      obtain ⟨ended, hended, hlast⟩ := ih hbears rfl found hturns
      refine ⟨ended, ?_, hlast⟩
      exact (hstep ▸ straight_step turns.active).trans hended

end RecordRing.Network
