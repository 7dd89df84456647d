import Mathlib.Data.List.Chain
import Mathlib.Data.List.Induction
import Mathlib.Data.List.Nodup
import RecordRing.Proofs.Network.Asked
import RecordRing.Proofs.Ring.Circuit

/-!
# Walks along arbitrary successors

Successors may point anywhere: nowhere at all, to a node that cannot be reached, or back to a node
that the walk has met after it left its origin.  Whatever they are, a walk that meets no node twice
is determined by its origin (`Orbit.prefix_or_prefix`), so there is one point at which it can go no
further (`Orbit.eq_of_spent`).  A node that lists the ring comes to this point and reports what it
finds there (`ringMembers_follows_successors`).

The peers that it asks are named by the directory and met once each, so they are no more than its
entries.
-/

namespace RecordRing

variable {next? : Token → Option Token} {origin last next : Token} {ids walked other : List Token}

/-- The identifiers that a walk along pointers has met, in order and each of them once. -/
structure Orbit (next? : Token → Option Token) (origin : Token) (walked : List Token) : Prop where
  head : walked.head? = some origin
  distinct : walked.Nodup
  follows : walked.IsChain fun id next => next? id = some next

/-- A walk can go no further: its last pointer is unknown, or leads back to where it has been. -/
def Spent (next? : Token → Option Token) (walked : List Token) : Prop :=
  ∀ last ∈ walked.getLast?, ∀ next, next? last = some next → next ∈ walked

namespace Orbit

theorem singleton (next? : Token → Option Token) (origin : Token) : Orbit next? origin [origin] :=
  ⟨rfl, List.nodup_singleton origin, List.isChain_singleton origin⟩

theorem mem_origin (h : Orbit next? origin walked) : origin ∈ walked :=
  List.mem_of_head? h.head

/-- A walk goes on to an identifier that it has not met. -/
theorem step (h : Orbit next? origin walked) (ends : walked.getLast? = some last)
    (points : next? last = some next) (new : next ∉ walked) :
    Orbit next? origin (walked ++ [next]) := by
  refine ⟨?_, ?_, List.isChain_append.2 ⟨h.follows, List.isChain_singleton next, ?_⟩⟩
  · rw [List.head?_append, h.head]
    rfl
  · rw [← List.concat_eq_append]
    exact h.distinct.concat new
  · intro id hid later hlater
    rw [ends, Option.mem_some_iff] at hid
    rw [List.head?_singleton, Option.mem_some_iff] at hlater
    rw [← hid, ← hlater, points]

/-- A walk has only begun, or it has come to its last identifier by the pointer of the one
before. -/
theorem of_append (h : Orbit next? origin (walked ++ [next])) :
    walked = [] ∧ next = origin ∨
      ∃ last, Orbit next? origin walked ∧ walked.getLast? = some last ∧ next? last = some next ∧
        next ∉ walked := by
  obtain ⟨hhead, hdistinct, hfollows⟩ := h
  obtain ⟨hbefore, -, hlink⟩ := List.isChain_append.1 hfollows
  rw [← List.concat_eq_append, List.nodup_concat] at hdistinct
  cases hlast : walked.getLast? with
  | none =>
      obtain rfl := List.getLast?_eq_none_iff.1 hlast
      exact .inl ⟨rfl, Option.some.inj hhead⟩
  | some last =>
      refine .inr ⟨last, ⟨?_, hdistinct.2, hbefore⟩, rfl, ?_, hdistinct.1⟩
      · cases walked with
        | nil => cases hlast
        | cons first rest => exact hhead
      · exact hlink last hlast next (by simp)

end Orbit

/-- Of two chains along pointers from one identifier, one goes on where the other ends. -/
theorem prefix_or_prefix_of_isChain (head : walked.head? = other.head?)
    (follows : walked.IsChain fun id next => next? id = some next)
    (follows' : other.IsChain fun id next => next? id = some next) :
    walked <+: other ∨ other <+: walked := by
  induction walked generalizing other with
  | nil => exact .inl List.nil_prefix
  | cons id rest ih =>
      cases other with
      | nil => cases head
      | cons id' rest' =>
          obtain rfl : id = id' := Option.some.inj head
          rw [List.cons_prefix_cons, List.cons_prefix_cons]
          cases rest with
          | nil => exact .inl ⟨rfl, List.nil_prefix⟩
          | cons next rest =>
              cases rest' with
              | nil => exact .inr ⟨rfl, List.nil_prefix⟩
              | cons next' rest' =>
                  obtain ⟨hpoints, hfollows⟩ := List.isChain_cons_cons.1 follows
                  obtain ⟨hpoints', hfollows'⟩ := List.isChain_cons_cons.1 follows'
                  have hnext : next = next' := Option.some.inj (hpoints.symm.trans hpoints')
                  have hhead : (next :: rest).head? = (next' :: rest').head? :=
                    congrArg some hnext
                  exact (ih hhead hfollows hfollows').imp (⟨rfl, ·⟩) (⟨rfl, ·⟩)

namespace Orbit

/-- Of two walks from one origin, one goes on where the other ends. -/
theorem prefix_or_prefix (h : Orbit next? origin walked) (h' : Orbit next? origin other) :
    walked <+: other ∨ other <+: walked :=
  prefix_or_prefix_of_isChain (h.head.trans h'.head.symm) h.follows h'.follows

/-- A walk that can go no further is not the beginning of a longer one. -/
theorem eq_of_prefix (h : Orbit next? origin walked) (h' : Orbit next? origin other)
    (spent : Spent next? walked) (begins : walked <+: other) : walked = other := by
  obtain ⟨rest, rfl⟩ := begins
  cases rest with
  | nil => rw [List.append_nil]
  | cons next rest =>
      obtain ⟨last, hlast⟩ : ∃ last, walked.getLast? = some last := by
        refine Option.ne_none_iff_exists'.1 fun hnone => ?_
        have hmem := h.mem_origin
        rw [List.getLast?_eq_none_iff.1 hnone] at hmem
        exact List.not_mem_nil hmem
      have hpoints := (List.isChain_append.1 h'.follows).2.2 last hlast next rfl
      have hmem : next ∈ walked := spent last hlast next hpoints
      have hapart := (List.nodup_append.1 h'.distinct).2.2
      exact absurd rfl (hapart next hmem next (List.mem_cons_self ..))

/-- There is one point at which walks from an origin can go no further. -/
theorem eq_of_spent (h : Orbit next? origin walked) (h' : Orbit next? origin other)
    (spent : Spent next? walked) (spent' : Spent next? other) : walked = other := by
  rcases h.prefix_or_prefix h' with hbegins | hbegins
  · exact h.eq_of_prefix h' spent hbegins
  · exact (h'.eq_of_prefix h spent' hbegins).symm

/-- Along the successors of a closed ring a walk meets the identifiers in circular order. -/
theorem walked_of_closed (h : Orbit next? origin walked) (ascending : Ascending ids)
    (mem : origin ∈ ids) (closed : ∀ id ∈ ids, next? id = some (nextOf ids id))
    (ends : walked.getLast? = some last) : Walked ids origin walked last := by
  induction walked using List.reverseRecOn generalizing last with
  | nil => cases ends
  | append_singleton before newest ih =>
      obtain rfl : newest = last := by simpa using ends
      rcases h.of_append with ⟨rfl, rfl⟩ | ⟨prior, hbefore, hprior, hpoints, hnew⟩
      · exact walked_singleton mem
      · have hwalked := ih hbefore hprior
        rw [closed prior hwalked.last_mem, Option.some.injEq] at hpoints
        subst hpoints
        exact hwalked.step ascending hnew

end Orbit

/-! ## The walk of a node -/

namespace Network

variable {net now : Network} {number : Nat} {handle peer : Handle} {node : Node} {id : Token}
  {purpose : Purpose} {stack : Stack .ids}

/-- The node that a node reaches under an identifier: itself under its own, and others through the
directory. -/
def reached? (net : Network) (node : Node) (id : Token) : Option Node :=
  if id = node.id then some node else net.resident? id

/-- The successor that belongs to an identifier, as far as a node can reach it. -/
def pointer? (net : Network) (node : Node) (id : Token) : Option Token :=
  (net.reached? node id).bind Node.successor

/-- Behind every entry of the directory stands a node that can be asked for its successor. -/
def Answering (net : Network) : Prop :=
  ∀ (id : Token) peer, net.directory[id]? = some peer →
    ∃ member, net.member? peer = some member ∧ member.link.fails .successor = false

theorem reached?_own (net : Network) (node : Node) : net.reached? node node.id = some node :=
  if_pos rfl

theorem reached?_of_ne (other : id ≠ node.id) :
    net.reached? node id = net.directory[id]?.bind net.nodeAt? :=
  if_neg other

theorem resolve_of_ne (other : id ≠ node.id) :
    node.resolve net.surroundings id = net.directory[id]?.map .remote :=
  if_neg other

namespace Answering

/-- A peer of the directory can still be asked when only tasks have gone on. -/
theorem alike (answering : net.Answering) (alike : net.Alike now)
    (listed : net.directory[id]? = some peer) : ∃ member, now.member? peer = some member ∧
      member.link.fails .successor = false ∧ net.nodeAt? peer = some member.node := by
  obtain ⟨before, hbefore, hpasses⟩ := answering id peer listed
  have hm := alike.members peer
  rw [hbefore, Option.map_some] at hm
  obtain ⟨member, hmember, hface⟩ := Option.map_eq_some_iff.1 hm
  simp only [Member.face, Prod.mk.injEq] at hface
  refine ⟨member, hmember, ?_, ?_⟩
  · rw [Link.fails, hface.2.1]
    exact hpasses
  · rw [hface.1]
    exact nodeAt?_of_member? hbefore

/-- What a node cannot reach is what does not resolve. -/
theorem reached?_eq_none (answering : net.Answering) :
    net.reached? node id = none ↔ node.resolve net.surroundings id = none := by
  by_cases hown : id = node.id
  · simp [reached?, Node.resolve, hown]
  · rw [reached?_of_ne hown, resolve_of_ne hown, Option.map_eq_none_iff]
    constructor
    · intro haway
      refine Option.eq_none_iff_forall_ne_some.2 fun peer hlisted => ?_
      obtain ⟨member, hmember, -⟩ := answering id peer hlisted
      rw [hlisted, Option.bind_some, nodeAt?_of_member? hmember] at haway
      cases haway
    · intro hunlisted
      rw [hunlisted, Option.bind_none]

end Answering

/-- What a walk reports when it can go no further. -/
def report (net : Network) (node : Node) (walked : List Token) (last : Token) : Outcome .ids :=
  match net.reached? node last with
  | none => .error (.nodeUnreachable last)
  | some target => if target.successor.isSome then .ok walked else .error (.noSuccessor last)

theorem ok_eq_report {ring : List Token} : .ok ring = net.report node walked last ↔
    ring = walked ∧ ∃ next, net.pointer? node last = some next := by
  rw [report, pointer?]
  cases net.reached? node last with
  | none => simp
  | some target => cases hsuccessor : target.successor <;> simp [hsuccessor]

theorem error_eq_report {failure : Failure} : .error failure = net.report node walked last ↔
    net.reached? node last = none ∧ failure = .nodeUnreachable last ∨
      ∃ target, net.reached? node last = some target ∧ target.successor = none ∧
        failure = .noSuccessor last := by
  rw [report]
  cases net.reached? node last with
  | none => simp
  | some target => cases hsuccessor : target.successor <;> simp [hsuccessor]

/-- An outcome is what the walk of a node comes to when it can go no further. -/
def Surveys (net : Network) (node : Node) (outcome : Outcome .ids) : Prop :=
  ∃ walked last, Orbit (net.pointer? node) node.id walked ∧ walked.getLast? = some last ∧
    Spent (net.pointer? node) walked ∧ outcome = net.report node walked last

/-- A walk comes to one outcome only. -/
theorem Surveys.unique {outcome outcome' : Outcome .ids} (h : net.Surveys node outcome)
    (h' : net.Surveys node outcome') : outcome = outcome' := by
  obtain ⟨walked, last, horbit, hlast, hspent, rfl⟩ := h
  obtain ⟨walked', last', horbit', hlast', hspent', rfl⟩ := h'
  obtain rfl := horbit.eq_of_spent horbit' hspent hspent'
  obtain rfl : last = last' := Option.some.inj (hlast.symm.trans hlast')
  rfl

/-- A walk whose last pointer is unknown can go no further. -/
theorem spent_of_pointer?_eq_none (ends : walked.getLast? = some last)
    (unknown : net.pointer? node last = none) : Spent (net.pointer? node) walked := by
  intro id hid next hnext
  obtain rfl : last = id := Option.some.inj (ends.symm.trans hid)
  rw [unknown] at hnext
  cases hnext

theorem surveys_ring (orbit : Orbit (net.pointer? node) node.id walked)
    (ends : walked.getLast? = some last) (points : net.pointer? node last = some next)
    (met : next ∈ walked) : net.Surveys node (.ok walked) := by
  refine ⟨walked, last, orbit, ends, fun id hid after hafter => ?_, ?_⟩
  · obtain rfl : last = id := Option.some.inj (ends.symm.trans hid)
    rw [points, Option.some.injEq] at hafter
    rw [← hafter]
    exact met
  · obtain ⟨target, hreached, hsuccessor⟩ := Option.bind_eq_some_iff.1 points
    simp only [report, hreached, hsuccessor, Option.isSome_some, if_true]

theorem surveys_unreachable (orbit : Orbit (net.pointer? node) node.id walked)
    (ends : walked.getLast? = some last) (away : net.reached? node last = none) :
    net.Surveys node (.error (.nodeUnreachable last)) := by
  refine ⟨walked, last, orbit, ends, spent_of_pointer?_eq_none ends ?_, ?_⟩
  · rw [pointer?, away, Option.bind_none]
  · simp only [report, away]

theorem surveys_lost {target : Node} (orbit : Orbit (net.pointer? node) node.id walked)
    (ends : walked.getLast? = some last) (reaches : net.reached? node last = some target)
    (unknown : target.successor = none) : net.Surveys node (.error (.noSuccessor last)) := by
  refine ⟨walked, last, orbit, ends, spent_of_pointer?_eq_none ends ?_, ?_⟩
  · rw [pointer?, reaches, Option.bind_some, unknown]
  · simp [report, reaches, unknown]

/-! ### Its run -/

theorem walk_eq (node : Node) (around : Surroundings) (walked : List Token) (next : Token) :
    node.walk around walked next = ⟨node, [], (node.walk around walked next).action⟩ := by
  rw [Node.walk]
  split
  · rfl
  · split <;> rfl

theorem walk_next (node : Node) (around : Surroundings) (walked : List Token) (next : Token)
    (purpose : Purpose) (handle : Handle) (stack : Stack .ids) : ∃ task,
      taskAfter purpose handle stack (node.walk around walked next).action = some task := by
  rw [Node.walk]
  split
  · exact ⟨_, rfl⟩
  · split
    · exact ⟨_, rfl⟩
    · rename_i contact _
      cases contact <;> exact ⟨_, rfl⟩

/-- A walk that comes to an identifier that it has not met asks the peer of this identifier for its
successor. -/
theorem asks_next (answering : net.Answering) (alike : net.Alike now) (new : next ∉ walked)
    (other : next ≠ node.id) (listed : net.directory[next]? = some peer)
    (task : taskAfter purpose handle stack (node.walk net.surroundings walked next).action =
      now.tasks[number]?) :
    ∃ target told, net.reached? node next = some target ∧ Asks number now [peer] told ∧
      net.Alike told ∧
      told.tasks[number]? = some ⟨purpose, .knownId, .answer (.ok target.successor),
        .frame handle (.nextAsked (walked ++ [next]) next) stack⟩ := by
  obtain ⟨member, hmember, hpasses, hnode⟩ := answering.alike alike listed
  have hresolve : node.resolve net.surroundings next = some (.remote peer) := by
    rw [resolve_of_ne other, listed, Option.map_some]
  have hsent : now.tasks[number]? = some ⟨purpose, .knownId, .send peer .successor,
      .frame handle (.nextAsked (walked ++ [next]) next) stack⟩ := by
    rw [← task, Node.walk, if_neg new, hresolve]
    rfl
  obtain ⟨told, hasks, htold, htask⟩ := asks_successor hsent hmember hpasses
  refine ⟨member.node, told, ?_, hasks, alike.trans htold, htask⟩
  rw [reached?_of_ne other, listed, Option.bind_some, hnode]

/-- The entries of the directory that a walk has not met are fewer when it has gone on to one. -/
theorem countP_unmet_lt (listed : net.directory[next]? = some peer) (new : next ∉ walked) :
    net.directory.keys.countP (· ∉ walked ++ [next]) <
      net.directory.keys.countP (· ∉ walked) := by
  refine countP_lt_countP (c := next) (fun id _ hid => ?_) ?_ (decide_eq_true new) ?_
  · refine decide_eq_true fun hmem => of_decide_eq_true hid ?_
    exact List.mem_append.2 (.inl hmem)
  · rw [Std.TreeMap.mem_keys, Std.TreeMap.mem_iff_isSome_getElem?, listed]
    rfl
  · simp

/-- A walk ends, and every peer that it asks on the way is one of the directory that it has not met
before. -/
theorem walk_answers (answering : net.Answering) (found : net.nodeAt? handle = some node)
    (orbit : Orbit (net.pointer? node) node.id walked) (ends : walked.getLast? = some last)
    (points : net.pointer? node last = some next) (alike : net.Alike now)
    (task : taskAfter purpose handle stack (node.walk net.surroundings walked next).action =
      now.tasks[number]?) :
    ∃ outcome peers after, net.Surveys node outcome ∧ Asks number now peers after ∧
      net.Alike after ∧ after.tasks[number]? = some ⟨purpose, .ids, .answer outcome, stack⟩ ∧
      peers.length ≤ net.directory.keys.countP (· ∉ walked) := by
  -- every peer that is asked leaves fewer entries of the directory that have not been met
  induction hleft : net.directory.keys.countP (· ∉ walked) using Nat.strongRecOn
    generalizing now walked last next with
  | ind left ih =>
  subst hleft
  by_cases hmet : next ∈ walked
  · refine ⟨.ok walked, [], now, surveys_ring orbit ends points hmet, .rest, alike, ?_,
      Nat.zero_le _⟩
    rw [← task, Node.walk, if_pos hmet]
    rfl
  · have horbit := orbit.step ends points hmet
    have hends : (walked ++ [next]).getLast? = some next := List.getLast?_concat
    have hother : next ≠ node.id := by
      rintro rfl
      exact hmet orbit.mem_origin
    cases hlisted : net.directory[next]? with
    | none =>
        have haway : net.reached? node next = none := by
          rw [reached?_of_ne hother, hlisted, Option.bind_none]
        refine ⟨.error (.nodeUnreachable next), [], now, surveys_unreachable horbit hends haway,
          .rest, alike, ?_, Nat.zero_le _⟩
        rw [← task, Node.walk, if_neg hmet, answering.reached?_eq_none.1 haway]
        rfl
    | some peer =>
        obtain ⟨target, told, hreached, hasks, htold, htask⟩ :=
          asks_next answering alike hmet hother hlisted task
        have hself : told.nodeAt? handle = some node := (htold.nodeAt? handle).trans found
        have hfewer := countP_unmet_lt hlisted hmet
        cases hsuccessor : target.successor with
        | none =>
            rw [hsuccessor] at htask
            obtain ⟨after, hfails, hafter, hanswer⟩ := asks_resume htask hself rfl
              (show node.resume told.surroundings _ _ = node.fail (.noSuccessor next) from rfl) rfl
            exact ⟨_, _, after, surveys_lost horbit hends hreached hsuccessor, hasks.trans hfails,
              htold.trans hafter, hanswer, Nat.succ_le_of_lt (Nat.zero_lt_of_lt hfewer)⟩
        | some further =>
            rw [hsuccessor] at htask
            have hturn : node.resume told.surroundings (.nextAsked (walked ++ [next]) next)
                (.ok (some further)) = node.walk net.surroundings (walked ++ [next]) further := by
              rw [htold.surroundings]
              rfl
            obtain ⟨task', hnext⟩ := walk_next node net.surroundings (walked ++ [next]) further
              purpose handle stack
            obtain ⟨walking, hwalks, hwalking, htask'⟩ := asks_resume htask hself rfl
              (hturn.trans (walk_eq ..)) hnext
            have hpoints : net.pointer? node next = some further := by
              rw [pointer?, hreached, Option.bind_some, hsuccessor]
            obtain ⟨outcome, peers, after, hsurveys, hrest, hafter, hanswer, hfew⟩ :=
              ih _ hfewer horbit hends hpoints (htold.trans hwalking) (hnext.trans htask'.symm) rfl
            refine ⟨outcome, _, after, hsurveys, hasks.trans (hwalks.trans hrest), hafter, hanswer,
              ?_⟩
            rw [List.nil_append, List.length_append, List.length_singleton]
            omega

/-- A node that lists the ring as it sees it asks no more peers than the directory has entries, and
comes to what its walk comes to. -/
theorem ringMembers_surveys (answering : net.Answering) (found : net.nodeAt? handle = some node)
    (begins : net.tasks[number]? = some ⟨purpose, .ids, .start handle .ringMembers, stack⟩) :
    ∃ outcome peers after, net.Surveys node outcome ∧ Asks number net peers after ∧
      net.Alike after ∧ after.tasks[number]? = some ⟨purpose, .ids, .answer outcome, stack⟩ ∧
      peers.length ≤ net.directory.size := by
  have horbit := Orbit.singleton (net.pointer? node) node.id
  cases hsuccessor : node.successor with
  | none =>
      have hturn : node.start net.surroundings .ringMembers = node.fail (.noSuccessor node.id) := by
        simp only [Node.start, Node.ringMembers, hsuccessor]
      obtain ⟨after, hfails, hafter, hanswer⟩ := asks_start begins found rfl hturn rfl
      exact ⟨_, [], after, surveys_lost horbit rfl (reached?_own net node) hsuccessor, hfails,
        hafter, hanswer, Nat.zero_le _⟩
  | some next =>
      have hturn : node.start net.surroundings .ringMembers =
          node.walk net.surroundings [node.id] next := by
        simp only [Node.start, Node.ringMembers, hsuccessor]
      obtain ⟨task, hnext⟩ := walk_next node net.surroundings [node.id] next purpose handle stack
      obtain ⟨walking, hwalks, hwalking, htask⟩ :=
        asks_start begins found rfl (hturn.trans (walk_eq ..)) hnext
      have hpoints : net.pointer? node node.id = some next := by
        rw [pointer?, reached?_own, Option.bind_some, hsuccessor]
      obtain ⟨outcome, peers, after, hsurveys, hasks, hafter, hanswer, hfew⟩ :=
        walk_answers answering found horbit rfl hpoints hwalking (hnext.trans htask.symm)
      refine ⟨outcome, _, after, hsurveys, hwalks.trans hasks, hafter, hanswer, ?_⟩
      calc ([] ++ peers).length
        _ ≤ net.directory.keys.countP (· ∉ [node.id]) := hfew
        _ ≤ net.directory.keys.length := List.countP_le_length
        _ = net.directory.size := Std.TreeMap.length_keys

/-- On a closed ring the walk of a node lists the ring. -/
theorem Surveys.circuit {outcome : Outcome .ids} (h : net.Surveys node outcome)
    (ascending : Ascending ids) (mem : node.id ∈ ids)
    (closed : ∀ id ∈ ids, net.pointer? node id = some (nextOf ids id)) :
    ∃ ring, outcome = .ok ring ∧ Circuit ids node.id ring := by
  obtain ⟨walked, last, horbit, hlast, hspent, rfl⟩ := h
  have hwalked := horbit.walked_of_closed ascending mem closed hlast
  have hpoints := closed last hwalked.last_mem
  obtain ⟨target, hreached, hsuccessor⟩ := Option.bind_eq_some_iff.1 hpoints
  refine ⟨walked, ?_, hwalked.circuit ascending (hspent last hlast _ hpoints)⟩
  simp only [report, hreached, hsuccessor, Option.isSome_some, if_true]

/-- Whatever the successors are, a node that lists the ring comes to an end after it has asked no
more peers than the directory has entries.  If it lists some members, then they begin with the node,
each of them once and each the successor of the one before, and the successor of the last is one of
them.  It fails exactly when the walk comes to an identifier that cannot be reached or whose
successor is not known, and names it.  On a closed ring it lists all members clockwise. -/
theorem ringMembers_follows_successors (answering : net.Answering)
    (found : net.nodeAt? handle = some node)
    (begins : net.tasks[number]? = some ⟨purpose, .ids, .start handle .ringMembers, stack⟩) :
    ∃ outcome peers after, Asks number net peers after ∧ net.Alike after ∧
      after.tasks[number]? = some ⟨purpose, .ids, .answer outcome, stack⟩ ∧
      peers.length ≤ net.directory.size ∧
      (∀ ring, outcome = .ok ring ↔ ring.head? = some node.id ∧ ring.Nodup ∧
        ring.IsChain (fun id next => net.pointer? node id = some next) ∧
        ∃ last, ring.getLast? = some last ∧ ∃ next ∈ ring, net.pointer? node last = some next) ∧
      (∀ failure, outcome = .error failure ↔
        ∃ walked last, Orbit (net.pointer? node) node.id walked ∧ walked.getLast? = some last ∧
          (node.resolve net.surroundings last = none ∧ failure = .nodeUnreachable last ∨
            ∃ target, net.reached? node last = some target ∧ target.successor = none ∧
              failure = .noSuccessor last)) ∧
      ∀ ids, Ascending ids → node.id ∈ ids →
        (∀ id ∈ ids, net.pointer? node id = some (nextOf ids id)) →
        ∃ ring, outcome = .ok ring ∧ Circuit ids node.id ring := by
  obtain ⟨outcome, peers, after, hsurveys, hasks, hafter, hanswer, hfew⟩ :=
    ringMembers_surveys answering found begins
  refine ⟨outcome, peers, after, hasks, hafter, hanswer, hfew, fun ring => ⟨?_, ?_⟩,
    fun failure => ⟨?_, ?_⟩, fun ids ascending mem closed => hsurveys.circuit ascending mem closed⟩
  · rintro rfl
    obtain ⟨walked, last, horbit, hlast, hspent, hreport⟩ := hsurveys
    obtain ⟨rfl, next, hpoints⟩ := ok_eq_report.1 hreport
    exact ⟨horbit.head, horbit.distinct, horbit.follows, last, hlast, next,
      hspent last hlast next hpoints, hpoints⟩
  · rintro ⟨hhead, hdistinct, hfollows, last, hlast, next, hmet, hpoints⟩
    exact hsurveys.unique (surveys_ring ⟨hhead, hdistinct, hfollows⟩ hlast hpoints hmet)
  · rintro rfl
    obtain ⟨walked, last, horbit, hlast, -, hreport⟩ := hsurveys
    refine ⟨walked, last, horbit, hlast, ?_⟩
    rw [← answering.reached?_eq_none]
    exact error_eq_report.1 hreport
  · rintro ⟨walked, last, horbit, hlast, ⟨haway, rfl⟩ | ⟨target, hreached, hunknown, rfl⟩⟩
    · exact hsurveys.unique
        (surveys_unreachable horbit hlast (answering.reached?_eq_none.2 haway))
    · exact hsurveys.unique (surveys_lost horbit hlast hreached hunknown)

end Network

/-! ### A cycle that the origin is not on -/

namespace Lasso

/-- A node that knows its successor and nothing else. -/
def member (id next : UInt64) : Member where
  node := (Node.fresh (Token.wrapping id) (.empty none) Config.standard).setSuccessor
    (Token.wrapping next)
  link := Link.clear
  storeDelay := StoreDelay.zero
  outbox := []
  sending := false

/-- The identifiers of the three nodes. -/
def members : List Token := [10, 20, 30].map Token.wrapping

/-- A network whose first node leads into the cycle of the two others, and is told to list the
ring. -/
def net : Network :=
  { Network.empty with
    endpoints := #[.member (member 10 20), .member (member 20 30), .member (member 30 20)]
    directory := Std.TreeMap.ofList (members.zip [0, 1, 2])
    tasks := Std.TreeMap.empty.insert 0 (Network.taskOf (.client []) 0 .ringMembers) }

theorem answering_net : net.Answering := by
  intro id peer listed
  have hlist : net.directory.toList = members.zip [0, 1, 2] := by decide
  have hentry := Std.TreeMap.mem_toList_iff_getElem?_eq_some.2 listed
  rw [hlist] at hentry
  have hpeer : peer ∈ [0, 1, 2] := (List.of_mem_zip hentry).2
  simp only [List.mem_cons, List.not_mem_nil, or_false] at hpeer
  rcases hpeer with rfl | rfl | rfl
  · exact ⟨member 10 20, rfl, rfl⟩
  · exact ⟨member 20 30, rfl, rfl⟩
  · exact ⟨member 30 20, rfl, rfl⟩

/-- The first node asks the two others, and lists them although none of them leads back to it. -/
theorem ringMembers_follows_successors_lasso : ∃ peers after, Network.Asks 0 net peers after ∧
    after.tasks[0]? = some ⟨.client [], .ids, .answer (.ok members), .root⟩ ∧ peers.length ≤ 3 := by
  have hfound : net.nodeAt? 0 = some (member 10 20).node := rfl
  have hbegins : net.tasks[0]? = some ⟨.client [], .ids, .start 0 .ringMembers, .root⟩ := rfl
  obtain ⟨outcome, peers, after, hasks, -, hanswer, hfew, hlists, -, -⟩ :=
    Network.ringMembers_follows_successors answering_net hfound hbegins
  obtain rfl : outcome = .ok members := (hlists members).2
    ⟨rfl, by decide, by decide, Token.wrapping 30, rfl, Token.wrapping 20, by decide, by decide⟩
  exact ⟨peers, after, hasks, hanswer, hfew⟩

end Lasso

end RecordRing
