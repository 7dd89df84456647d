import RecordRing.Proofs.Cluster.Trials
import RecordRing.Proofs.Network.Resting

/-!
# Clusters at rest

A cluster is tended when its network is at rest at a stage of a regime.  It stays tended when the
maintenance of a node is started and when time passes, and a wait for a ring in order that ends well
ends with one (`Tended.awaitRing`).
-/

namespace RecordRing

open Network

variable {σ : Type} [Preorder σ] {regime : Regime σ} {stage : σ} {net : Network}
  {config : Config} {handle : Handle} {id : Token}

/-! ## Loops -/

/-- The task of a loop that has been started. -/
def Loop.task (loop : Loop) : Task := ⟨.loop loop, .nothing, .answer (.ok ()), .root⟩

/-- Loops are started one after the other. -/
theorem Cluster.startLoops_eq (net : Network) (handle : Handle) (config : Config) :
    (startLoops net handle config).2 =
      (loopsOf net.now handle config).foldl (fun left loop => left.spawn loop.task) net :=
  (List.foldl_hom Prod.snd fun _ _ => rfl).symm

/-- Every loop is one of a member and has a period. -/
theorem Cluster.mem_loopsOf {loop : Loop} {now : Nat}
    (mem : loop ∈ loopsOf now handle config) :
    loop.member = handle ∧ 1 ≤ loop.period ∧ ∃ entry ∈ upkeep config, loop.operation = entry.1 := by
  obtain ⟨⟨operation, period⟩, hentry, hkept⟩ := List.mem_filterMap.1 mem
  dsimp only at hkept
  split at hkept
  · cases hkept
  · rename_i hperiod
    cases hkept
    exact ⟨rfl, Nat.pos_of_ne_zero hperiod, _, hentry, rfl⟩

theorem directory_stopLoop (net : Network) (number : Nat) :
    (Cluster.stopLoop net number).directory = net.directory := by
  rw [Cluster.stopLoop]
  split <;> rfl

namespace Network.Regime.Rests

/-- A loop is told to end. -/
theorem stopLoop (rests : regime.Rests stage net) (number : Nat) :
    regime.Rests stage (Cluster.stopLoop net number) := by
  have hold {task : Task} (found : net.tasks[number]? = some task) : number < net.nextTask :=
    (regime.numbered rests.holds).tasks number task found
  rw [Cluster.stopLoop]
  split
  · rename_i loop moment next hfound
    cases rests.calm.tasks number _ hfound with
    | ticking listed permitted paced idle =>
        rcases idle with hno | ⟨other, hidle⟩
        · cases hno
        · cases hidle
          exact rests.revive (hold hfound) (.ticking listed permitted paced (Or.inl rfl))
  · rename_i loop shape control stack hfound
    cases rests.calm.tasks number _ hfound with
    | ticking listed permitted paced idle =>
        exact rests.putTask (hold hfound) (.ticking listed permitted paced idle)
  · exact rests

/-- Loops are told to end, one after the other. -/
theorem stopLoops (rests : regime.Rests stage net) (numbers : List Nat) :
    regime.Rests stage (numbers.foldl Cluster.stopLoop net) ∧
      (numbers.foldl Cluster.stopLoop net).directory = net.directory := by
  induction numbers generalizing net with
  | nil => exact ⟨rests, rfl⟩
  | cons number rest ih =>
      obtain ⟨hrests, hdirectory⟩ := ih (rests.stopLoop number)
      exact ⟨hrests, hdirectory.trans (directory_stopLoop net number)⟩

/-- Loops of permitted operations are started. -/
theorem startLoops (rests : regime.Rests stage net) (listed : net.directory[id]? = some handle)
    (permitted : ∀ entry ∈ Cluster.upkeep config, regime.allowed stage id entry.1) :
    regime.Rests stage (Cluster.startLoops net handle config).2 := by
  rw [Cluster.startLoops_eq]
  have hloops : ∀ loop ∈ Cluster.loopsOf net.now handle config, loop.member = handle ∧
      1 ≤ loop.period ∧ regime.allowed stage id loop.operation := by
    intro loop hloop
    obtain ⟨hmember, hperiod, entry, hentry, hoperation⟩ := Cluster.mem_loopsOf hloop
    exact ⟨hmember, hperiod, hoperation ▸ permitted entry hentry⟩
  generalize Cluster.loopsOf net.now handle config = loops at hloops
  induction loops generalizing net with
  | nil => exact rests
  | cons loop rest ih =>
      obtain ⟨rfl, hpaced, hpermitted⟩ := hloops loop List.mem_cons_self
      have hadded := rests.spawn (.ticking listed hpermitted hpaced (Or.inl rfl))
      exact ih hadded listed fun other hother => hloops other (List.mem_cons_of_mem loop hother)

end Network.Regime.Rests

/-! ## Tended clusters -/

namespace Cluster

variable {cluster : Cluster} {nodes : Std.TreeMap Token Handle} {members : List Token}

/-- The network of a cluster is at rest, and the nodes are some given ones. -/
structure Tended (regime : Regime σ) (nodes : Std.TreeMap Token Handle) (stage : σ)
    (cluster : Cluster) : Prop where
  rests : regime.Rests stage cluster.net
  nodes : cluster.nodes = nodes

namespace Tended

variable (tended : cluster.Tended regime nodes stage)
include tended

/-- The maintenance of a node is ended. -/
theorem stopMaintenance (id : Token) : (cluster.stopMaintenance id).2.Tended regime nodes stage ∧
    (cluster.stopMaintenance id).2.net.directory = cluster.net.directory := by
  rw [Cluster.stopMaintenance]
  split
  · exact ⟨tended, rfl⟩
  · rename_i numbers _
    obtain ⟨hrests, hdirectory⟩ := tended.rests.stopLoops numbers
    exact ⟨⟨hrests, tended.nodes⟩, hdirectory⟩

/-- The maintenance of a node is started. -/
theorem maintain (permitted : ∀ config, ∀ entry ∈ upkeep config, regime.allowed stage id entry.1)
    (known : nodes[id]? = cluster.net.directory[id]?) :
    (cluster.maintain id).Tended regime nodes stage := by
  rw [Cluster.maintain]
  split
  · exact tended
  · rename_i handle member hmember
    obtain ⟨hstopped, hdirectory⟩ := tended.stopMaintenance id
    have hlisted : (cluster.stopMaintenance id).2.net.directory[id]? = some handle := by
      obtain ⟨peer, hpeer, hentry⟩ := Option.bind_eq_some_iff.1 hmember
      obtain ⟨found, -, heq⟩ := Option.map_eq_some_iff.1 hentry
      cases heq
      rw [hdirectory, ← known, ← tended.nodes, hpeer]
    exact ⟨hstopped.rests.startLoops hlisted (permitted _), hstopped.nodes⟩

/-- Time passes. -/
theorem advance (millis : Nat) :
    ∃ later, stage ≤ later ∧ (cluster.advance millis).Tended regime nodes later := by
  obtain ⟨later, hlater, hrests⟩ := tended.rests.elapse stepBudget (cluster.net.now + millis)
  exact ⟨later, hlater, hrests, tended.nodes⟩

/-- Whenever a ring comes into order, the cluster is tended. -/
theorem untilRing {members : List Token} {looks : Nat} {left : Cluster}
    (found : Trial.untilRing members looks cluster = some left) :
    left.isRingOf members = true ∧ ∃ later, stage ≤ later ∧ left.Tended regime nodes later := by
  induction looks generalizing cluster stage with
  | zero =>
      rw [Trial.untilRing] at found
      split at found
      · rename_i hring
        cases found
        exact ⟨hring, stage, le_refl stage, tended⟩
      · cases found
  | succ looks ih =>
      rw [Trial.untilRing] at found
      split at found
      · rename_i hring
        cases found
        exact ⟨hring, stage, le_refl stage, tended⟩
      · obtain ⟨later, hlater, hafter⟩ := tended.advance Trial.pause
        obtain ⟨hring, last, hlast, hleft⟩ := ih hafter found
        exact ⟨hring, last, le_trans hlater hlast, hleft⟩

/-- A wait for a ring in order ends with one, or the time is over. -/
theorem awaitRing (members : List Token) (seconds : Nat) :
    Trial.Ends (Trial.awaitRing members seconds) cluster (fun _ after =>
      after.isRingOf members = true ∧ ∃ later, stage ≤ later ∧ after.Tended regime nodes later)
      (· = .notConverged seconds) := by
  rw [Trial.Ends, StateT.run, Trial.awaitRing]
  cases found : Trial.untilRing members (1000 * seconds / Trial.pause) cluster with
  | none => rfl
  | some left => exact tended.untilRing found

end Tended

end Cluster

end RecordRing
