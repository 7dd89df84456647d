import RecordRing.Proofs.Cluster.Conduct

/-!
# What trials come to

A trial is followed step by step: `Trial.Ends` says of a trial on a cluster what holds of its result
and of the cluster afterwards, and what holds of the trouble if it ends in one.  Without a trouble
in question the trial always yields a result; with every trouble allowed the statement is about the
results only.
-/

namespace RecordRing

/-! ## Following a trial -/

namespace Trial

variable {α β : Type} {trial : Trial α} {cluster : Cluster} {post weaker : α → Cluster → Prop}
  {fails worse : Trouble → Prop}

/-- A trial on a cluster ends with a result and a cluster as stated, or in a trouble as stated. -/
def Ends (trial : Trial α) (cluster : Cluster) (post : α → Cluster → Prop)
    (fails : Trouble → Prop) : Prop :=
  match trial.run cluster with
  | .ok (value, after) => post value after
  | .error trouble => fails trouble

namespace Ends

theorem weaken (h : Ends trial cluster post fails)
    (implies : ∀ value after, post value after → weaker value after)
    (allows : ∀ trouble, fails trouble → worse trouble) : Ends trial cluster weaker worse := by
  rw [Ends] at h ⊢
  split at h
  · exact implies _ _ h
  · exact allows _ h

theorem imp (h : Ends trial cluster post fails)
    (implies : ∀ value after, post value after → weaker value after) :
    Ends trial cluster weaker fails :=
  h.weaken implies fun _ hfails => hfails

theorem pure {value : α} (h : post value cluster) :
    Ends (Pure.pure value : Trial α) cluster post fails := h

theorem throw {trouble : Trouble} (h : fails trouble) :
    Ends (MonadExcept.throw trouble : Trial α) cluster post fails := h

theorem get {post : Cluster → Cluster → Prop} (h : post cluster cluster) :
    Ends (MonadState.get : Trial Cluster) cluster post fails := h

theorem set {after : Cluster} {post : Unit → Cluster → Prop} (h : post () after) :
    Ends (MonadStateOf.set after : Trial Unit) cluster post fails := h

theorem changed {change : Cluster → Cluster} {post : Unit → Cluster → Prop}
    (h : post () (change cluster)) : Ends (modify change) cluster post fails := h

theorem bind {next : α → Trial β} {post : β → Cluster → Prop}
    (h : Ends trial cluster (fun value mid => Ends (next value) mid post fails) fails) :
    Ends (trial >>= next) cluster post fails := by
  rw [Ends] at h ⊢
  rw [StateT.run_bind]
  cases hrun : trial.run cluster with
  | error trouble =>
    rw [hrun] at h
    exact h
  | ok result =>
    rw [hrun] at h
    exact h

/-- Two steps are followed as one. -/
theorem bind_assoc {γ : Type} {second : α → Trial β} {next : β → Trial γ}
    {post : γ → Cluster → Prop}
    (h : Ends (trial >>= second) cluster (fun value mid => Ends (next value) mid post fails)
      fails) : Ends (trial >>= fun value => second value >>= next) cluster post fails := by
  rw [← LawfulMonad.bind_assoc]
  exact bind h

/-- What each step of a loop carries on holds at its end. -/
theorem forM {items : List β} {step : β → Trial Unit} (carried : List β → Cluster → Prop)
    (start : carried [] cluster)
    (carries : ∀ done item rest cluster, items = done ++ item :: rest → carried done cluster →
      Ends (step item) cluster (fun _ after => carried (done ++ [item]) after) fails) :
    Ends (items.forM step) cluster (fun _ after => carried items after) fails := by
  suffices h : ∀ (rest done : List β) (cluster : Cluster), items = done ++ rest →
      carried done cluster →
        Ends (rest.forM step) cluster (fun _ after => carried items after) fails from
    h items [] cluster rfl start
  intro rest
  induction rest with
  | nil =>
      intro done cluster hitems hcarried
      rw [List.append_nil] at hitems
      exact hitems ▸ pure hcarried
  | cons item rest ih =>
      intro done cluster hitems hcarried
      rw [List.forM_eq_forM, List.forM_cons]
      refine bind ((carries done item rest cluster hitems hcarried).imp ?_)
      intro _ after hafter
      exact ih (done ++ [item]) after (by rw [hitems, List.append_assoc]; rfl) hafter

/-- What each step of a loop with results carries on holds at its end. -/
theorem mapM {items : List β} {step : β → Trial α} (carried : List β → List α → Cluster → Prop)
    (start : carried [] [] cluster)
    (carries : ∀ done item rest values cluster, items = done ++ item :: rest →
      carried done values cluster → Ends (step item) cluster
        (fun value after => carried (done ++ [item]) (values ++ [value]) after) fails) :
    Ends (items.mapM step) cluster (fun values after => carried items values after) fails := by
  suffices h : ∀ (rest done : List β) (values : List α) (cluster : Cluster), items = done ++ rest →
      carried done values cluster → Ends (rest.mapM step) cluster
        (fun more after => carried items (values ++ more) after) fails from
    h items [] [] cluster rfl start
  intro rest
  induction rest with
  | nil =>
      intro done values cluster hitems hcarried
      rw [List.append_nil] at hitems
      rw [List.mapM_nil]
      refine pure ?_
      rwa [List.append_nil, hitems]
  | cons item rest ih =>
      intro done values cluster hitems hcarried
      rw [List.mapM_cons]
      refine bind ((carries done item rest values cluster hitems hcarried).imp ?_)
      intro value after hafter
      refine bind ((ih (done ++ [item]) (values ++ [value]) after
        (by rw [hitems, List.append_assoc]; rfl) hafter).imp ?_)
      intro more last hlast
      refine pure ?_
      rwa [List.append_assoc] at hlast

end Ends

end Trial

/-! ## Clusters of residents -/

namespace Cluster

open Network

variable {cluster : Cluster} {config : Config} {members : List Token} {id : Token} {shape : Shape}

/-- The nodes of a cluster are the residents of its network. -/
structure Hosts (cluster : Cluster) (config : Config) (members : List Token) : Prop where
  populated : cluster.net.Populated config members
  same : ∀ id ∈ members, cluster.nodes[id]? = cluster.net.directory[id]?

theorem Hosts.node? (hosts : cluster.Hosts config members) (mem : id ∈ members) :
    cluster.node? id = cluster.net.resident? id := by
  rw [Cluster.node?, member?, hosts.same id mem, resident?, Option.map_bind]
  refine Option.bind_congr fun handle _ => ?_
  rw [Function.comp_apply, Option.map_map]
  rfl

/-- The network of a cluster changes, but not its directory. -/
theorem Hosts.change (hosts : cluster.Hosts config members) {left : Network}
    (populated : left.Populated config members)
        (directory : left.directory = cluster.net.directory) :
    ({ cluster with net := left } : Cluster).Hosts config members :=
  ⟨populated, fun id mem => directory ▸ hosts.same id mem⟩

/-- An operation of a resident that does not wait. -/
theorem Hosts.attempt (hosts : cluster.Hosts config members) (mem : id ∈ members)
    {operation : Operation shape} (result : Outcome shape → Network → Prop)
    {post : Outcome shape → Cluster → Prop} {fails : Trouble → Prop}
    (achieves : ∀ handle node, cluster.net.numbering.Houses id handle node →
      Achieves cluster.net.nextTask cluster.net.numbering handle
        (node.start cluster.net.numbering.surroundings operation) result)
    (goal : ∀ outcome after left, result outcome after → after.Like left →
      post outcome { cluster with net := left }) :
    Trial.Ends (Trial.attempt id operation) cluster post fails := by
  obtain ⟨handle, node, houses⟩ := hosts.populated.houses mem
  have hhouses := (keeps_numbering cluster.net).houses houses
  obtain ⟨outcome, after, hyields, hresult⟩ := achieves handle node hhouses
  obtain ⟨left, hconduct, hlike⟩ := conduct_eq hosts.populated.numbered
    ((hosts.same id mem).trans houses.listed) ⟨node, hhouses.stands, hyields⟩
  have hrun : (Trial.attempt id operation).run cluster =
      .ok (outcome, { cluster with net := left }) := by
    rw [StateT.run, Trial.attempt, hconduct]
  rw [Trial.Ends, hrun]
  exact goal outcome after left hresult hlike

/-- An operation of a resident that ends well. -/
theorem Hosts.ask (hosts : cluster.Hosts config members) (mem : id ∈ members)
    {operation : Operation shape} (result : Outcome shape → Network → Prop)
    {post : shape.Value → Cluster → Prop} {fails : Trouble → Prop}
    (achieves : ∀ handle node, cluster.net.numbering.Houses id handle node →
      Achieves cluster.net.nextTask cluster.net.numbering handle
        (node.start cluster.net.numbering.surroundings operation) result)
    (goal : ∀ value after left, result (.ok value) after → after.Like left →
      post value { cluster with net := left })
    (bad : ∀ failure after, result (.error failure) after → fails (.failed failure)) :
    Trial.Ends (Trial.ask id operation) cluster post fails := by
  refine .bind (hosts.attempt mem result achieves fun outcome after left hresult hlike => ?_)
  cases outcome with
  | ok value => exact .pure (goal value after left hresult hlike)
  | error failure => exact .throw (bad failure after hresult)

end Cluster

end RecordRing
