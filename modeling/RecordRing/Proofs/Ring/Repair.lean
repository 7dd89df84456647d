import RecordRing.Proofs.Network.Calls
import RecordRing.Proofs.Ring.Turns

/-!
# Successor repair on its own

What a call of successor repair does in a ring while every other task rests: it ends, and it ends
well (`Ring.completes_stabilize`).  What it leaves behind is one of three things (`Repaired`), and the
ring holds afterwards.
-/

namespace RecordRing.Network

variable {founder : Token} {net after : Network} {handle : Handle} {node target : Node}
  {contact : Contact} {candidate : Token}

/-- In a ring no link fails a call. -/
theorem Ring.stands (ring : net.Ring founder) (found : net.nodeAt? handle = some node) :
    net.Stands handle node := by
  obtain ⟨member, hmember, hnode⟩ := nodeAt?_eq_some.1 found
  exact ⟨member, hmember, hnode, ring.clear handle member hmember⟩

/-- What successor repair may leave behind when nothing interferes with it. -/
inductive Repaired (net : Network) (handle : Handle) (node : Node) (after : Network) : Prop where
  /-- A node that knows no other leaves everything as it is. -/
  | alone (own : node.successor = some node.id) (unknown : node.predecessor = none)
      (same : net.Alike after)
  /-- The successor knows no node in between, and is told about the node. -/
  | told {next : Token} {peer : Handle} (holds : node.successor = some next)
      (other : next ≠ node.id)
      (nobody : ∀ before, net.Precedes before next → ¬ insideOpen node.id next before = true)
      (at_peer : net.idAt? peer = some next) (tells : net.Told peer node.id after)
  /-- The node before the successor is in between; it is adopted, and told about the node. -/
  | adopted {lost candidate : Token} {fingers : Fingers} {adopting : Network} {peer : Handle}
      (holds : node.successor = some lost) (before : net.Precedes candidate lost)
      (between : insideOpen node.id lost candidate = true)
      (adopts : fingers.successor = some candidate)
      (moves : (net.setNode handle { node with fingers := fingers }).Alike adopting)
      (at_peer : adopting.idAt? peer = some candidate) (tells : adopting.Told peer node.id after)

theorem Repaired.of_alike {last : Network} (alike : net.Alike after)
    (repaired : after.Repaired handle node last) : net.Repaired handle node last := by
  cases repaired with
  | alone own unknown same => exact .alone own unknown (alike.trans same)
  | told holds other nobody at_peer tells =>
      have hnobody := fun before h => nobody before (alike.akin.symm.precedes h)
      have hat := (alike.akin.idAt? _).symm.trans at_peer
      exact .told holds other hnobody hat (tells.of_alike alike)
  | adopted holds before between adopts moves at_peer tells =>
      exact .adopted holds (alike.akin.precedes before) between adopts
        ((alike.overwrite _ _).trans moves) at_peer tells

/-- The second half of successor repair when there is nobody in between. -/
theorem Ring.repairs_keeping (ring : net.Ring founder) (found : net.nodeAt? handle = some node)
    (holds : node.successor = some target.id) (stands : net.nodeAt? (contact.at handle) = some target)
    (nobody : ∀ id, target.predecessor = some id → ¬ insideOpen node.id target.id id = true)
    (kept : target.id = node.id ∧ net.Alike after ∨
      target.id ≠ node.id ∧ net.Told (contact.at handle) node.id after) :
    net.Repaired handle node after := by
  rcases kept with ⟨hself, halike⟩ | ⟨hother, htold⟩
  · have hsame := ring.distinct (contact.at handle) handle target.id (idAt?_of_nodeAt? stands)
    rw [hself] at hsame
    rw [hsame (idAt?_of_nodeAt? found), found] at stands
    obtain rfl := Option.some.inj stands
    have hunknown : node.predecessor = none := by
      cases hbefore : node.predecessor with
      | none => rfl
      | some before =>
          have hne := (ring.before _ _ (precedes_of_nodeAt? found hbefore)).1
          exact absurd (insideOpen_iff.2 ⟨hne, Or.inl rfl⟩) (nobody before hbefore)
    exact .alone holds hunknown halike
  · exact .told holds hother (fun before h => nobody before ((ring.precedes_iff stands).1 h))
      (idAt?_of_nodeAt? stands) htold

/-- The node before the successor can be reached if it is in between. -/
theorem Ring.resolve_between (ring : net.Ring founder) (found : net.nodeAt? handle = some node)
    {next : Token} (holds : node.successor = some next) (before : net.Precedes candidate next)
    (between : insideOpen node.id next candidate = true) :
    ∃ closer, node.resolve net.surroundings candidate = some closer := by
  -- it leads to the successor and is not the founder
  have hleads := (ring.before _ _ before).2
  have hfounder := (gap_lt_of_insideOpen between
    (ring.nearer _ _ (linked_of_nodeAt? found holds))).1
  exact resolve_of_registered (ring.registered hleads.joined hfounder).1

/-- In a ring, successor repair on its own ends well at every node that has joined. -/
theorem Ring.completes_stabilize (ring : net.Ring founder) (found : net.nodeAt? handle = some node)
    {next : Token} (holds : node.successor = some next) : ∃ after,
      net.Completes handle .stabilize after ∧
      after.endings[net.nextTask]? = some ⟨.nothing, .ok ()⟩ ∧ net.Repaired handle node after := by
  obtain ⟨contact, hat, hturn⟩ := ring.stabilize_eq found holds
  obtain ⟨target, htarget, rfl⟩ := idAt?_eq_some.1 hat
  have hkeep := setNode_self found
  obtain ⟨learned, hon, halike, htask⟩ :=
    onward_learn found hturn (by rw [hkeep]; exact ring.stands htarget)
  rw [hkeep] at halike
  have hring := (ring.akin halike.akin).1
  have hfound := (halike.nodeAt? _).trans found
  have hstands := (ring.stands htarget).alike halike
  by_cases hbetween : ∃ candidate, target.predecessor = some candidate ∧
      insideOpen node.id target.id candidate = true
  · obtain ⟨candidate, hbefore, hinside⟩ := hbetween
    have hprecedes := precedes_of_nodeAt? hstands.nodeAt? hbefore
    obtain ⟨closer, hcloser⟩ := hring.resolve_between hfound holds hprecedes hinside
    have hcandidate := idAt?_resolve hring hfound hcloser
    obtain ⟨adopted, hadopted, -⟩ := idAt?_eq_some.1 hcandidate
    obtain ⟨after, fingers, hon', hnone, hending, hadopts, -, htold⟩ :=
      onward_adopt hfound holds hbefore hinside hcloser (hring.stands hadopted) htask
    let adopting : Node := { node with fingers := fingers }
    have hat : (learned.setNode handle adopting).idAt? (closer.at handle) = some candidate :=
      (Ring.idAt?_change hfound (show adopting.id = node.id from rfl) _).trans hcandidate
    have hrepaired : learned.Repaired handle node after :=
      .adopted holds hprecedes hinside hadopts (Alike.refl _) hat htold
    exact ⟨after, ⟨onward_trans hon hon', hnone⟩, hending, hrepaired.of_alike halike⟩
  · have hnobody : ∀ id, target.predecessor = some id → ¬ insideOpen node.id target.id id = true :=
      fun id hid hinside => hbetween ⟨id, hid, hinside⟩
    obtain ⟨after, hon', hnone, hending, hkept⟩ := onward_keep hfound hstands hnobody htask
    have hrepaired := hring.repairs_keeping hfound holds hstands.nodeAt? hnobody hkept
    exact ⟨after, ⟨onward_trans hon hon', hnone⟩, hending, hrepaired.of_alike halike⟩

end RecordRing.Network
