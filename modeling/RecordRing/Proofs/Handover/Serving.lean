import RecordRing.Proofs.Network.Leads

/-!
# Serving a record call

A record call waits for its node to have joined, takes the record's lock, is carried out by the store
and gives the lock back.  A read or a deletion that misses goes on to the node's previous owner, which
may go on in the same way, and in the end the own store is tried once more.  So a call is on its way to
a store (`Serving`) or its outcome is on its way back (`Served`), and an outcome that is no miss comes
back unchanged (`Served.step`).

## Implementation notes

The same call is served for clients and for transfers, so the operations that wait for its outcome
are a parameter.  Every wait of the call itself leaves frames that pass the outcome on (`Relay`).
-/

namespace RecordRing

variable {kind : Shape} {call : RecordCall kind} {rest : Stack kind} {shape result : Shape}

/-- A call that may miss its record. -/
def RecordCall.Fallible {kind : Shape} (call : RecordCall kind) : Prop :=
  ∃ answer, call.misses answer = true

/-- Whether the outcome of a call is an answer other than a miss. -/
def RecordCall.hits {kind : Shape} (call : RecordCall kind) : Outcome kind → Bool
  | .ok answer => !call.misses answer
  | .error _ => false

theorem RecordCall.not_fallible_create (storage : String) (key : Token) (content : List UInt8)
    (version : UInt64) : ¬ (create storage key content version).Fallible := by
  rintro ⟨answer, h⟩
  cases h

/-- Waiting operations that pass the outcome of a call on to the rest of the stack. -/
inductive Relay {kind : Shape} (call : RecordCall kind) (rest : Stack kind) : Stack kind → Prop where
  | rest : Relay call rest rest
  | attempted {below : Stack kind} (peer : Handle) (relay : Relay call rest below) :
      Relay call rest (.frame peer (.attempted call) below)
  | handedOn {below : Stack kind} (peer : Handle) (fallible : call.Fallible)
      (relay : Relay call rest below) : Relay call rest (.frame peer (.handedOn call) below)

/-- A record call is on its way to a store. -/
inductive Serving {kind : Shape} (call : RecordCall kind) (rest : Stack kind) :
    {shape : Shape} → Control shape → Stack shape → Prop where
  | sent {below : Stack kind} (peer : Handle) (relay : Relay call rest below) :
      Serving call rest (.send peer (.record call)) below
  | arrived {below : Stack kind} (peer : Handle) (relay : Relay call rest below) :
      Serving call rest (.arrive peer (.record call)) below
  | called {below : Stack kind} (peer : Handle) (relay : Relay call rest below) :
      Serving call rest (.start peer (.serve (.record call))) below
  | paused {below : Stack kind} (peer : Handle) (since : Nat) (outcome : Outcome .nothing)
      (relay : Relay call rest below) :
      Serving call rest (.answer outcome) (.frame peer (.joinAwaited call since) below)
  | trying {below : Stack kind} (peer : Handle) (relay : Relay call rest below) :
      Serving call rest (.start peer (.attempt call)) below
  | queued {below : Stack kind} (peer : Handle) (deadline : Nat) (relay : Relay call rest below) :
      Serving call rest (.queue peer call.lockId deadline) (.frame peer (.lockAwaited call) below)
  | locked {below : Stack kind} (peer : Handle) (outcome : Outcome .nothing)
      (relay : Relay call rest below) :
      Serving call rest (.answer outcome) (.frame peer (.lockAwaited call) below)
  | performing {below : Stack kind} (peer : Handle) (relay : Relay call rest below) :
      Serving call rest (.access peer (.record call)) (.frame peer (.performed call) below)
  | held {shape : Shape} {next : Control shape} {stack : Stack shape} (moment : Nat)
      (serving : Serving call rest next stack) : Serving call rest (.hold moment next) stack

/-- The outcome of a record call is on its way back. -/
inductive Served {kind : Shape} (call : RecordCall kind) (rest : Stack kind) (outcome : Outcome kind) :
    Control kind → Stack kind → Prop where
  | performed {below : Stack kind} (peer : Handle) (relay : Relay call rest below) :
      Served call rest outcome (.answer outcome) (.frame peer (.performed call) below)
  | passed {stack : Stack kind} (relay : Relay call rest stack) :
      Served call rest outcome (.answer outcome) stack

/-! ## Locks on the way -/

theorem Relay.guards {stack : Stack kind} (relay : Relay call rest stack) :
    stack.guards = rest.guards := by
  induction relay with
  | rest => rfl
  | attempted peer relay ih => exact ih
  | handedOn peer fallible relay ih => exact ih

theorem Serving.mem_guards {control : Control shape} {stack : Stack shape} {lock : Handle × LockId}
    (serving : Serving call rest control stack) (h : lock ∈ rest.guards) : lock ∈ stack.guards := by
  induction serving with
  | paused peer since outcome relay => exact relay.guards ▸ h
  | queued peer deadline relay => exact relay.guards ▸ h
  | locked peer outcome relay => exact relay.guards ▸ h
  | performing peer relay => exact List.mem_append_right _ (relay.guards ▸ h)
  | held moment serving ih => exact ih
  | sent peer relay => exact relay.guards ▸ h
  | arrived peer relay => exact relay.guards ▸ h
  | called peer relay => exact relay.guards ▸ h
  | trying peer relay => exact relay.guards ▸ h

theorem Served.mem_guards {outcome : Outcome kind} {control : Control kind} {stack : Stack kind}
    {lock : Handle × LockId} (served : Served call rest outcome control stack)
    (h : lock ∈ rest.guards) : lock ∈ stack.guards := by
  cases served with
  | performed peer relay => exact List.mem_append_right _ (relay.guards ▸ h)
  | passed relay => exact relay.guards ▸ h

/-! ## Steps -/

theorem Serving.delayed {control : Control shape} {stack : Stack shape} (now delay : Nat)
    (serving : Serving call rest control stack) :
    Serving call rest (Control.after now delay control) stack := by
  rw [Control.after]
  split
  · exact serving
  · exact .held _ serving

/-- A call that is held back is where it will go on. -/
theorem Serving.next {moment : Nat} {next : Control shape} {stack : Stack shape}
    (serving : Serving call rest (.hold moment next) stack) : Serving call rest next stack := by
  cases serving with
  | held moment serving => exact serving

/-- A call that waits for a lock and is granted or refused it. -/
theorem Serving.answered {handle : Handle} {id : LockId} {deadline : Nat} {stack : Stack .nothing}
    (serving : Serving call rest (.queue handle id deadline) stack) (outcome : Outcome .nothing) :
    Serving call rest (.answer outcome) stack := by
  cases serving with
  | queued peer deadline relay => exact .locked handle outcome relay

/-- What becomes of a task that serves a record call: it ends, goes on to serve, or has failed. -/
inductive Serving.Next {kind : Shape} (purpose : Purpose) (call : RecordCall kind)
    (rest : Stack kind) : Option Task → Prop where
  | ended : Next purpose call rest none
  | on {shape : Shape} {control : Control shape} {stack : Stack shape}
      (serving : Serving call rest control stack) :
      Next purpose call rest (some ⟨purpose, shape, control, stack⟩)
  | failed {control : Control kind} {stack : Stack kind} (failure : Failure)
      (served : Served call rest (.error failure) control stack) :
      Next purpose call rest (some ⟨purpose, kind, control, stack⟩)

/-- What becomes of a task on the way back from a record call: the outcome is passed on, or after a
failure or a miss another store is tried. -/
inductive Served.Next {kind : Shape} (purpose : Purpose) (call : RecordCall kind)
    (rest : Stack kind) (outcome : Outcome kind) : Task → Prop where
  | on {control : Control kind} {stack : Stack kind} (served : Served call rest outcome control stack) :
      Next purpose call rest outcome ⟨purpose, kind, control, stack⟩
  | again {shape : Shape} {control : Control shape} {stack : Stack shape} (fallible : call.Fallible)
      (misses : call.hits outcome = false) (serving : Serving call rest control stack) :
      Next purpose call rest outcome ⟨purpose, shape, control, stack⟩

variable {net : Network} {number : Nat} {handle : Handle} {purpose : Purpose} {node : Node}
  {around : Surroundings} {below : Stack kind} {task : Task}

theorem Serving.next_of_work {turn : Node → Surroundings → Turn result} {stack : Stack result}
    (leads : ∀ node, net.nodeAt? handle = some node → ∀ next,
      (turn node net.surroundings).action.Leaves purpose handle stack next →
      Serving.Next purpose call rest (some next)) :
    Serving.Next purpose call rest
      (net.work number purpose handle stack turn).tasks[number]? := by
  cases found : net.nodeAt? handle with
  | none =>
      rw [Network.work_of_none found, Network.getElem?_dropTask, if_pos rfl]
      exact .ended
  | some node =>
      obtain ⟨next, hnext, hleaves⟩ : ∃ next,
          (net.work number purpose handle stack turn).tasks[number]? = some next ∧
          (turn node net.surroundings).action.Leaves purpose handle stack next :=
        Network.leaves_work found turn stack
      rw [hnext]
      exact leads node found next hleaves

theorem Serving.next_enter {since : Nat} (relay : Relay call rest below)
    (leaves : (node.enter around call since).action.Leaves purpose handle below task) :
    Serving.Next purpose call rest (some task) := by
  have hsleep : ∀ {next : Task}, (Action.sleep node.config.joinPoll
      (Frame.joinAwaited call since)).Leaves purpose handle below next →
      Serving.Next purpose call rest (some next) := by
    intro next hleaves
    cases hleaves with
    | sleep millis frame now => exact .on (Serving.delayed _ _ (.paused handle since _ relay))
  rw [Node.enter] at leaves
  split at leaves
  · dsimp only at leaves
    split at leaves
    · split at leaves
      · cases leaves with
        | reply outcome => exact .failed _ (.passed relay)
      · exact hsleep leaves
    · exact hsleep leaves
  · cases leaves with
    | run operation frame => exact .on (.trying handle (.attempted handle relay))

theorem Serving.of_attempt (relay : Relay call rest below)
    (leaves : (node.attempt call).action.Leaves purpose handle below task) :
    ∃ (control : Control .nothing) (stack : Stack .nothing),
      task = ⟨purpose, .nothing, control, stack⟩ ∧ Serving call rest control stack := by
  cases leaves with
  | taken id frame outcome => exact ⟨_, _, rfl, .locked handle outcome relay⟩
  | queued id frame deadline => exact ⟨_, _, rfl, .queued handle deadline relay⟩

/-- A step of a task that serves a record call and is not at its store yet. -/
theorem Serving.step {control : Control shape} {stack : Stack shape}
    (serving : Serving call rest control stack)
    (htask : net.tasks[number]? = some ⟨purpose, shape, control, stack⟩)
    (members : ∀ handle, net.script? handle = none)
    (early : ∀ handle call, control ≠ .access handle call) :
    Serving.Next purpose call rest (net.step number).tasks[number]? := by
  cases serving with
  | sent peer relay =>
      rw [Network.step_send htask]
      obtain ⟨now, delay, hfound⟩ := Network.task_send net number purpose peer (.record call) _
      rw [hfound]
      exact .on (Serving.delayed now delay (.arrived peer relay))
  | arrived peer relay =>
      rw [Network.step_arrive htask]
      rcases Network.task_arrive members number purpose peer (.record call) _ with hnone |
        ⟨failure, hfound⟩ | hfound
      · rw [hnone]
        exact .ended
      · rw [hfound]
        exact .failed failure (.passed relay)
      · rw [hfound]
        exact .on (.called peer relay)
  | called peer relay =>
      rw [Network.step_start htask]
      exact Serving.next_of_work fun node found next hleaves => Serving.next_enter relay hleaves
  | paused peer since outcome relay =>
      rw [Network.step_answer htask]
      refine Serving.next_of_work fun node found next hleaves => ?_
      cases outcome with
      | error failure =>
          cases hleaves with
          | reply outcome => exact .failed failure (.passed relay)
      | ok awaited => exact Serving.next_enter relay hleaves
  | trying peer relay =>
      rw [Network.step_start htask]
      refine Serving.next_of_work fun node found next hleaves => ?_
      obtain ⟨control, stack, rfl, hserving⟩ := Serving.of_attempt relay hleaves
      exact .on hserving
  | queued peer deadline relay =>
      have hstep : net.step number = net := by simp only [Network.step, htask]
      rw [hstep, htask]
      exact .on (.queued peer deadline relay)
  | locked peer outcome relay =>
      rw [Network.step_answer htask]
      refine Serving.next_of_work fun node found next hleaves => ?_
      cases outcome with
      | error failure =>
          cases hleaves with
          | reply outcome => exact .failed failure (.passed relay)
      | ok granted =>
          cases hleaves with
          | call asked frame now delay =>
              exact .on (Serving.delayed now delay (.performing peer relay))
  | performing peer relay => exact absurd rfl (early peer (.record call))
  | held moment serving =>
      have hstep : net.step number = net := by simp only [Network.step, htask]
      rw [hstep, htask]
      exact .on (.held moment serving)

/-- A miss goes on to the previous owner, if there is one. -/
theorem Served.next_attempted {outcome : Outcome kind} (relay : Relay call rest below)
    (leaves : (node.onAttempted around call outcome).action.Leaves purpose handle below task) :
    Served.Next purpose call rest outcome task := by
  have hreply : ∀ {next : Task}, (Action.reply outcome).Leaves purpose handle below next →
      Served.Next purpose call rest outcome next := by
    intro next hleaves
    cases hleaves with
    | reply outcome => exact .on (.passed relay)
  cases outcome with
  | error failure => exact hreply leaves
  | ok answer =>
      rw [Node.onAttempted] at leaves
      split at leaves
      · rename_i hmiss
        have hmisses : call.hits (.ok answer) = false := by rw [RecordCall.hits, hmiss]; rfl
        have hrelay := fun peer => Relay.handedOn peer ⟨answer, hmiss⟩ relay
        split at leaves
        · exact hreply leaves
        · split at leaves
          · obtain ⟨control, stack, rfl, hserving⟩ := Serving.of_attempt relay leaves
            exact .again ⟨answer, hmiss⟩ hmisses hserving
          · cases leaves with
            | own request frame => exact .again ⟨answer, hmiss⟩ hmisses (.called handle (hrelay _))
            | remote peer request frame =>
                exact .again ⟨answer, hmiss⟩ hmisses (.sent peer (hrelay _))
      · exact hreply leaves

/-- A miss at the previous owner, and a failure there, leads back to the own store. -/
theorem Served.next_handedOn {outcome : Outcome kind} (fallible : call.Fallible)
    (relay : Relay call rest below)
    (leaves : (node.onHandedOn call outcome).action.Leaves purpose handle below task) :
    Served.Next purpose call rest outcome task := by
  have hagain : call.hits outcome = false →
      (node.attempt call).action.Leaves purpose handle below task →
      Served.Next purpose call rest outcome task := by
    intro hmisses hleaves
    obtain ⟨control, stack, rfl, hserving⟩ := Serving.of_attempt relay hleaves
    exact .again fallible hmisses hserving
  cases outcome with
  | error failure => exact hagain rfl leaves
  | ok answer =>
      rw [Node.onHandedOn] at leaves
      split at leaves
      · rename_i hmiss
        exact hagain (by rw [RecordCall.hits, hmiss]; rfl) leaves
      · cases leaves with
        | reply outcome => exact .on (.passed relay)

/-- A step of a task on the way back from a record call, up to the operations that wait for it. -/
theorem Served.step {outcome : Outcome kind} {control : Control kind} {stack : Stack kind}
    (served : Served call rest outcome control stack) (stands : stack.Stands net)
    (htask : net.tasks[number]? = some ⟨purpose, kind, control, stack⟩) :
    control = .answer outcome ∧ stack = rest ∨
    ∃ task, (net.step number).tasks[number]? = some task ∧
      Served.Next purpose call rest outcome task := by
  have hwork : ∀ {handle : Handle} {frame : Frame kind kind} {below : Stack kind},
      net.Present handle →
      net.tasks[number]? = some ⟨purpose, kind, .answer outcome, .frame handle frame below⟩ →
      (∀ (node : Node) task, (node.resume net.surroundings frame outcome).action.Leaves purpose handle
        below task → Served.Next purpose call rest outcome task) →
      ∃ task, (net.step number).tasks[number]? = some task ∧
        Served.Next purpose call rest outcome task := by
    rintro handle frame below ⟨node, found⟩ hanswer hleads
    rw [Network.step_answer hanswer]
    obtain ⟨next, hnext, hleaves⟩ := Network.leaves_work found
      (fun node around => node.resume around frame outcome) below
    exact ⟨next, hnext, hleads node next hleaves⟩
  cases served with
  | performed peer relay =>
      refine Or.inr (hwork stands.1 htask fun node task leaves => ?_)
      cases leaves with
      | reply outcome => exact .on (.passed relay)
  | passed relay =>
      cases relay with
      | rest => exact Or.inl ⟨rfl, rfl⟩
      | attempted peer relay =>
          exact Or.inr (hwork stands.1 htask fun node task leaves =>
            Served.next_attempted relay leaves)
      | handedOn peer fallible relay =>
          exact Or.inr (hwork stands.1 htask fun node task leaves =>
            Served.next_handedOn fallible relay leaves)

end RecordRing
