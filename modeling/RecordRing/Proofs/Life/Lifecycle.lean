import RecordRing.Proofs.Distance
import RecordRing.Proofs.Life.Acts

/-!
# The lifecycle of a node

Between two resets the lifecycle of a node only moves forward, and there are three ways for it to
move: `Act.Progress` lists them.  The node leaves the joining state when it accepts a predecessor
and knows its successor, and it leaves the merging state when its migration source reports; over a
stretch without resets it therefore asks at most one node for records, and only once
(`Life.lifecycle_forward`).
-/

namespace RecordRing

/-- The node that a side effect asks for records, if there is one. -/
def Effect.asks? : Effect → Option Token
  | .spawn (.askForRecords source) => some source
  | _ => none

namespace Act

variable {act : Act} {candidate source : Token}

/-- Whether the turn resets the lifecycle: the node founds a ring, or begins to join one. -/
def resets (act : Act) : Bool :=
  match act.cue with
  | .start .found => true
  | .start (.join known) => (act.node.resolve act.around known).isSome
  | _ => false

/-- The nodes that the turn begins to ask for records. -/
def asked (act : Act) : List Token := act.turn.effects.filterMap Effect.asks?

/-- A joining node that knows its successor accepts a candidate as its predecessor. -/
structure Begins (act : Act) (candidate source : Token) : Prop where
  told : act.cue = .start (.serve (.notify candidate))
  other : candidate ≠ act.node.id
  closer : act.node.isCloser candidate = true
  joining : act.node.lifecycle = .joining
  known : act.node.successor = some source

/-- A merging node learns that its migration source is done. -/
structure Ends (act : Act) (source : Token) : Prop where
  told : act.cue = .start (.serve (.migrationEnded source))
  recorded : act.node.migrationSource = some source
  merging : act.node.lifecycle = .merging

/-- What a turn without a reset does to the lifecycle. -/
inductive Progress (act : Act) : Prop where
  /-- The lifecycle stays where it is. -/
  | kept (same : act.turn.node.lifecycle = act.node.lifecycle)
      (source : act.turn.node.migrationSource = act.node.migrationSource)
      (nobody : act.asked = [])
      (rest : ∀ candidate source, ¬ act.Begins candidate source)
      (unended : ∀ source, ¬ act.Ends source)
  /-- The node accepts its first predecessor, and asks its successor for records. -/
  | began {candidate source : Token} (begins : act.Begins candidate source)
      (company : source ≠ act.node.id)
      (accepted : act.turn.node.predecessor = some candidate)
      (recorded : act.turn.node.migrationSource = some source)
      (merging : act.turn.node.lifecycle = .merging)
      (once : act.asked = [source])
  /-- The node accepts its first predecessor, and nobody else has records for it. -/
  | settled {candidate : Token} (begins : act.Begins candidate act.node.id)
      (accepted : act.turn.node.predecessor = some candidate)
      (recorded : act.turn.node.migrationSource = some act.node.id)
      (stable : act.turn.node.lifecycle = .stable)
      (nobody : act.asked = [])
  /-- The migration source is done. -/
  | ended {source : Token} (ends : act.Ends source)
      (recorded : act.turn.node.migrationSource = some source)
      (stable : act.turn.node.lifecycle = .stable)
      (nobody : act.asked = [])

/-- A notice that calls for nothing. -/
inductive Stray (act : Act) : Prop where
  /-- The node reports itself. -/
  | own (told : act.cue = .start (.serve (.notify act.node.id)))
  /-- The predecessor reports itself once more. -/
  | repeated {before : Token} (held : act.node.predecessor = some before)
      (told : act.cue = .start (.serve (.notify before)))
  /-- Another node than the migration source is done. -/
  | foreign {source : Token} (told : act.cue = .start (.serve (.migrationEnded source)))
      (unrecorded : act.node.migrationSource ≠ some source)
  /-- A node is done for which this one does not wait, or no longer. -/
  | late {source : Token} (told : act.cue = .start (.serve (.migrationEnded source)))
      (unawaited : act.node.lifecycle ≠ .merging)

/-! ### Single turns -/

theorem filterMap_asks?_quiet {effects : List Effect}
    (quiet : ∀ effect ∈ effects, effect.isQuiet = true) :
    effects.filterMap Effect.asks? = [] := by
  apply List.filterMap_eq_nil_iff.2
  intro effect hmem
  have hquiet := quiet effect hmem
  cases effect with
  | spawn operation => cases hquiet
  | release id => rfl
  | announce requester => rfl
  | tally counter => rfl

theorem filterMap_asks?_announce (requesters : List Token) :
    (requesters.map Effect.announce).filterMap Effect.asks? = [] := by
  simp [List.filterMap_map, Effect.asks?]

theorem left_beginMerge {node : Node} (joining : node.lifecycle = .joining)
    (known : node.successor = some source) : node.beginMerge.1.lifecycle ≠ .joining := by
  simp only [Node.beginMerge, joining, known]
  split <;> simp [Node.drainPending]

theorem Begins.moves (begins : act.Begins candidate source) :
    act.turn.node.lifecycle ≠ act.node.lifecycle := by
  obtain ⟨node, around, cue⟩ := act
  obtain ⟨told, other, closer, joining, known⟩ := begins
  subst told
  have haccepts : candidate ≠ node.id ∧ node.isCloser candidate = true := ⟨other, closer⟩
  change (node.notified candidate).1.lifecycle ≠ node.lifecycle
  have hleft : ({ node with predecessor := some candidate } : Node).beginMerge.1.lifecycle ≠
      .joining := left_beginMerge joining known
  rw [Node.notified, if_pos haccepts]
  intro hsame
  exact hleft (hsame.trans joining)

theorem Ends.moves (ends : act.Ends source) :
    act.turn.node.lifecycle ≠ act.node.lifecycle := by
  obtain ⟨node, around, cue⟩ := act
  obtain ⟨told, recorded, merging⟩ := ends
  subst told
  change (node.migrationEnded source).1.lifecycle ≠ node.lifecycle
  rw [Node.migrationEnded, if_pos ⟨recorded, merging⟩, merging]
  simp [Node.drainPending]

theorem Progress.of_same (same : act.turn.node.lifecycle = act.node.lifecycle)
    (source : act.turn.node.migrationSource = act.node.migrationSource)
    (nobody : act.asked = []) : act.Progress :=
  .kept same source nobody (fun _ _ begins => begins.moves same) fun _ ends => ends.moves same

/-- A turn without a reset brings the lifecycle forward in one of the three ways, or leaves it. -/
theorem progress (unreset : act.resets = false) : act.Progress := by
  have hshifts := act.shifts
  obtain ⟨node, around, cue⟩ := act
  generalize hnode : (Act.mk node around cue).turn.node = later at hshifts
  generalize heffects : (Act.mk node around cue).turn.effects = effects at hshifts
  have hsame : later.lifecycle = node.lifecycle → later.migrationSource = node.migrationSource →
      effects.filterMap Effect.asks? = [] → Progress ⟨node, around, cue⟩ := by
    intro same source nobody
    apply Progress.of_same
    · rw [hnode, same]
    · rw [hnode, source]
    · rw [asked, heffects, nobody]
  cases hshifts with
  | founded => cases unreset
  | rejoining reached =>
      change (node.resolve around _).isSome = false at unreset
      rw [reached] at unreset
      cases unreset
  | placed successor => exact hsame rfl rfl rfl
  | accepted other closer waits => exact hsame rfl rfl rfl
  | began other closer joining known company =>
      apply Progress.began ⟨rfl, other, closer, joining, known⟩ company
      · rw [hnode]
      · rw [hnode]
      · rw [hnode]
      · simp [asked, heffects, Effect.asks?]
  | settled other closer joining known =>
      apply Progress.settled ⟨rfl, other, closer, joining, known⟩
      · rw [hnode]
      · rw [hnode]
      · rw [hnode]
      · rw [asked, heffects, filterMap_asks?_announce]
  | completed recorded merging =>
      apply Progress.ended ⟨rfl, recorded, merging⟩
      · rw [hnode, recorded]
      · rw [hnode]
      · rw [asked, heffects, filterMap_asks?_announce]
  | requested requester => exact hsame rfl rfl rfl
  | reported stable => exact hsame rfl rfl rfl
  | deferred unstable => exact hsame rfl rfl rfl
  | redirected known replaced repairs quiet =>
      exact hsame rfl rfl (filterMap_asks?_quiet quiet)
  | advanced => exact hsame rfl rfl rfl
  | entered named => exact hsame rfl rfl rfl
  | bereft held left => exact hsame rfl rfl rfl
  | idle other quiet => exact hsame rfl rfl (filterMap_asks?_quiet quiet)

theorem isCloser_predecessor {node : Node} {before : Token}
    (held : node.predecessor = some before) : node.isCloser before = false := by
  simp only [Node.isCloser, held]
  apply Bool.eq_false_iff.2
  intro hcloser
  exact (insideOpen_iff.1 hcloser).1 rfl

/-- A stray notice changes nothing. -/
theorem Stray.unchanged (stray : act.Stray) :
    act.turn.node = act.node ∧ act.turn.effects = [] := by
  obtain ⟨node, around, cue⟩ := act
  have hnotify : ∀ {candidate}, ¬ (candidate ≠ node.id ∧ node.isCloser candidate = true) →
      node.notified candidate = (node, []) := fun unfit => if_neg unfit
  have hended : ∀ {source}, ¬ (node.migrationSource = some source ∧ node.lifecycle = .merging) →
      node.migrationEnded source = (node, []) := fun unfit => if_neg unfit
  cases stray with
  | own told =>
      change cue = .start (.serve (.notify node.id)) at told
      subst told
      have hsame := hnotify fun fit => fit.1 rfl
      exact ⟨congrArg Prod.fst hsame, congrArg Prod.snd hsame⟩
  | @repeated before held told =>
      subst told
      have hsame := @hnotify before fun fit => by
        have hfar := isCloser_predecessor held
        rw [fit.2] at hfar
        cases hfar
      exact ⟨congrArg Prod.fst hsame, congrArg Prod.snd hsame⟩
  | @foreign source told unrecorded =>
      subst told
      have hsame := @hended source fun fit => unrecorded fit.1
      exact ⟨congrArg Prod.fst hsame, congrArg Prod.snd hsame⟩
  | @late source told unawaited =>
      subst told
      have hsame := @hended source fun fit => unawaited fit.2
      exact ⟨congrArg Prod.fst hsame, congrArg Prod.snd hsame⟩

end Act

/-! ### Whole lives -/

/-- A node that merges takes records from another node. -/
def Node.Sourced (node : Node) : Prop :=
  node.lifecycle = .merging → ∃ source, source ≠ node.id ∧ node.migrationSource = some source

theorem Node.Shifts.sourced {node later : Node} {around : Surroundings} {cue : Cue}
    {effects : List Effect} (shifts : node.Shifts around cue later effects)
    (sourced : node.Sourced) : later.Sourced := by
  cases shifts with
  | founded => exact nofun
  | rejoining reached => exact nofun
  | began other closer joining known company => exact fun _ => ⟨_, company, rfl⟩
  | settled other closer joining known => exact nofun
  | completed recorded merging => exact nofun
  | _ => exact sourced

/-- What a stretch of acts without a reset makes of a node. -/
structure Stretch (first : Node) (acts : List Act) (node : Node) : Prop where
  onward : first.lifecycle.toByte ≤ node.lifecycle.toByte
  asked : acts.flatMap Act.asked =
    if first.lifecycle = .joining ∧ node.lifecycle ≠ .joining then
      (node.migrationSource.filter fun source => source ≠ node.id).toList
    else []

theorem Lifecycle.eq_joining {state : Lifecycle} (least : state.toByte ≤ Lifecycle.joining.toByte) :
    state = .joining := by
  cases state with
  | joining => rfl
  | merging => exact absurd least (by decide)
  | stable => exact absurd least (by decide)

/-- A turn without a reset prolongs the stretch before it. -/
theorem Stretch.snoc {first : Node} {acts : List Act} {act : Act}
    (stretch : Stretch first acts act.node) (unreset : act.resets = false) :
    Stretch first (acts ++ [act]) act.turn.node := by
  obtain ⟨honward, hasked⟩ := stretch
  have hid := act.shifts.named
  have hmore : (acts ++ [act]).flatMap Act.asked = acts.flatMap Act.asked ++ act.asked := by
    simp
  cases act.progress unreset with
  | kept same source nobody rest unended =>
      constructor
      · rw [same]
        exact honward
      · rw [hmore, nobody, List.append_nil, hasked, same, source, hid]
  | @began candidate source begins company accepted recorded merging once =>
      have hfirst : first.lifecycle = .joining := Lifecycle.eq_joining (begins.joining ▸ honward)
      constructor
      · rw [hfirst, merging]
        decide
      · rw [hmore, once, hasked, begins.joining]
        simp [hfirst, merging, recorded, hid, Option.filter, company]
  | @settled candidate begins accepted recorded stable nobody =>
      have hfirst : first.lifecycle = .joining := Lifecycle.eq_joining (begins.joining ▸ honward)
      constructor
      · rw [hfirst, stable]
        decide
      · rw [hmore, nobody, hasked, begins.joining]
        simp [hfirst, stable, recorded, hid]
  | @ended source ends recorded stable nobody =>
      constructor
      · rw [stable]
        cases first.lifecycle <;> decide
      · rw [hmore, nobody, hasked, ends.merging, ends.recorded, stable, recorded, hid]
        simp

namespace Life

variable {id : Token} {store : Store} {config : Config} {first scene later : Scene}
  {acts more : List Act}

theorem sourced (life : Life first acts later) (sourced : first.node.Sourced) :
    later.node.Sourced := by
  apply @Life.induct first later acts (fun _ node => node.Sourced) life sourced
  · exact fun _ _ hsourced => hsourced
  · exact fun act hsourced => act.shifts.sourced hsourced

theorem stretch (life : Life first acts later)
    (unreset : ∀ act ∈ acts, act.resets = false) : Stretch first.node acts later.node := by
  refine @Life.induct first later acts
    (fun acts node => (∀ act ∈ acts, act.resets = false) → Stretch first.node acts node)
    life ?_ ?_ ?_ unreset
  · intro _
    exact ⟨UInt8.le_refl _, by simp⟩
  · intro _ _ store locks hstretch hunreset
    obtain ⟨onward, asked⟩ := hstretch hunreset
    exact ⟨onward, asked⟩
  · intro _ act hstretch hunreset
    apply Stretch.snoc
    · exact hstretch fun earlier hmem => hunreset earlier (List.mem_append_left _ hmem)
    · exact hunreset act (List.mem_append_right _ (List.mem_singleton.2 rfl))

/-- After any life of a node, and over every stretch without a reset from there on, the node merges
with the records of another node only; its lifecycle moves forward, one of the ways of
`Act.Progress` at a time, and a stray notice changes nothing; and it asks for records if it leaves
the joining state, and then its migration source alone and once. -/
theorem lifecycle_forward (before : Life (Scene.fresh id store config) acts scene)
    (life : Life scene more later) (unreset : ∀ act ∈ more, act.resets = false) :
    (scene.node.lifecycle = .merging →
      ∃ source, source ≠ id ∧ scene.node.migrationSource = some source) ∧
    scene.node.lifecycle.toByte ≤ later.node.lifecycle.toByte ∧
    (∀ act ∈ more, act.Progress ∧
      (act.Stray → act.turn.node = act.node ∧ act.turn.effects = [])) ∧
    more.flatMap Act.asked =
      if scene.node.lifecycle = .joining ∧ later.node.lifecycle ≠ .joining then
        (later.node.migrationSource.filter fun source => source ≠ id).toList
      else [] := by
  have hnamed : scene.node.id = id := before.named
  have hsourced : scene.node.Sourced := before.sourced nofun
  have hstretch : Stretch scene.node more later.node := life.stretch unreset
  refine ⟨?_, hstretch.onward, ?_, ?_⟩
  · exact hnamed ▸ hsourced
  · intro act hmem
    exact ⟨act.progress (unreset act hmem), Act.Stray.unchanged⟩
  · have hasked := hstretch.asked
    rw [life.named, hnamed] at hasked
    exact hasked

/-- A node that joins asks its successor for records, once. -/
theorem lifecycle_forward_newcomer :
    (∀ act ∈ Newcomer.arrival, act.resets = false) ∧
      Newcomer.arrival.flatMap Act.asked = [Token.wrapping 20] := by
  have hunreset : ∀ act ∈ Newcomer.arrival, act.resets = false := by
    simp [Newcomer.arrival, Act.resets]
  have hforward := lifecycle_forward Newcomer.life_opening Newcomer.life_arrival hunreset
  exact ⟨hunreset, hforward.2.2.2⟩

end Life

end RecordRing
