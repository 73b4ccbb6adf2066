import TiProxy.Model.Vip.Manager

/-! # Who holds the virtual IP

The manager leaves the address to the election: a node adds it when elected and deletes it when
retired. So the address is on the owner only, and on at most one node, as long as the election
calls `OnElected` on a node only while no other node is the owner, and every `OnRetired` gets
through `HasIP` and `DeleteIP`. Failures of `OnElected` cost the owner the address but never put
it on a second node. A node counts once the election has called back on it, since `Start` is what
removes an address a restarted node kept.
-/

namespace TiProxy.Vip

/-! ## One callback -/

/-- `OnElected` makes the node the owner, and puts the address on its link unless `HasIP` or
`AddIP` fails; `SendARP` does not change the link. -/
theorem onElected_fst (r : NetworkResults) (vm : Node) :
    (onElected r vm).1 = ⟨1, vm.hasVIP || (r.hasIP.isNone && r.addIP.isNone)⟩ := by
  obtain ⟨hasIP, addIP, sendARP, -⟩ := r
  obtain ⟨-, hasVIP⟩ := vm
  cases hasIP <;> cases hasVIP <;> cases addIP <;> cases sendARP <;> rfl

/-- `OnRetired` makes the node a non-owner, and leaves the address on its link only when `HasIP`
or `DeleteIP` fails. -/
theorem onRetired_fst (r : NetworkResults) (vm : Node) :
    (onRetired r vm).1 = ⟨0, vm.hasVIP && (r.hasIP.isSome || r.deleteIP.isSome)⟩ := by
  obtain ⟨hasIP, -, -, deleteIP⟩ := r
  obtain ⟨-, hasVIP⟩ := vm
  cases hasIP <;> cases hasVIP <;> cases deleteIP <;> rfl

/-! ## The cluster -/

section Cluster

variable {n : Nat}

@[simp] theorem Event.apply_elected (i : Fin n) (r : NetworkResults) (vm : Node) :
    (Event.elected i r).apply vm = onElected r vm := rfl

@[simp] theorem Event.apply_retired (i : Fin n) (r : NetworkResults) (vm : Node) :
    (Event.retired i r).apply vm = onRetired r vm := rfl

theorem step_of_eq (nodes : Fin n → Node) (e : Event n) {i : Fin n} (same : i = e.node) :
    step nodes e i = (e.apply (nodes i)).1 := by
  subst same
  exact Function.update_same _ _ _

theorem step_ne (nodes : Fin n → Node) (e : Event n) {i : Fin n} (other : i ≠ e.node) :
    step nodes e i = nodes i :=
  Function.update_noteq other _ _

/-! ## The gauge -/

/-- The gauge a callback sets. -/
def Event.gauge : Event n → Nat
  | .elected .. => 1
  | .retired .. => 0

theorem step_vipGauge (nodes : Fin n → Node) (e : Event n) (i : Fin n) :
    (step nodes e i).vipGauge = if e.node = i then e.gauge else (nodes i).vipGauge := by
  split_ifs with same
  · rw [step_of_eq _ _ same.symm]
    cases e with
    | elected => rw [Event.apply_elected, onElected_fst]; rfl
    | retired => rw [Event.apply_retired, onRetired_fst]; rfl
  · rw [step_ne _ _ (Ne.symm same)]

/-! ## At most one node holds the address -/

/-- The election's view has at most one owner: at most one node's gauge is 1. -/
def OwnerUnique (nodes : Fin n → Node) : Prop :=
  ∀ i j, (nodes i).vipGauge = 1 → (nodes j).vipGauge = 1 → i = j

/-- Every node of `started` with the address on its link is the owner. -/
def VIPOnOwner (started : List (Fin n)) (nodes : Fin n → Node) : Prop :=
  ∀ i ∈ started, (nodes i).hasVIP → (nodes i).vipGauge = 1

/-- The election calls `OnElected` on a node only while no other node is the owner. -/
def Event.Admissible (nodes : Fin n → Node) : Event n → Prop
  | .elected i _ => ∀ j, j ≠ i → (nodes j).vipGauge ≠ 1
  | .retired _ _ => True

/-- An `OnRetired` whose `HasIP` and `DeleteIP` succeed. -/
def Event.RetiresCleanly : Event n → Prop
  | .elected _ _ => True
  | .retired _ r => r.hasIP = none ∧ r.deleteIP = none

/-- Every callback of the run is admissible in the state it is delivered in. -/
def ElectionOrder : (Fin n → Node) → List (Event n) → Prop
  | _, [] => True
  | nodes, e :: events => e.Admissible nodes ∧ ElectionOrder (step nodes e) events

instance : DecidablePred (OwnerUnique (n := n)) := fun _ =>
  inferInstanceAs (Decidable (∀ _, _))

instance (started : List (Fin n)) : DecidablePred (VIPOnOwner started) := fun _ =>
  inferInstanceAs (Decidable (∀ _, _))

instance (nodes : Fin n → Node) : DecidablePred (Event.Admissible nodes) := fun e =>
  match e with
  | .elected .. => inferInstanceAs (Decidable (∀ _, _))
  | .retired .. => inferInstanceAs (Decidable True)

instance : DecidablePred (Event.RetiresCleanly (n := n)) := fun e =>
  match e with
  | .elected .. => inferInstanceAs (Decidable True)
  | .retired .. => inferInstanceAs (Decidable (_ ∧ _))

/-- `ElectionOrder` decided callback by callback. -/
def decideElectionOrder : ∀ (nodes : Fin n → Node) (events : List (Event n)),
    Decidable (ElectionOrder nodes events)
  | _, [] => isTrue trivial
  | nodes, e :: events =>
    haveI := decideElectionOrder (step nodes e) events
    inferInstanceAs (Decidable (_ ∧ _))

instance (nodes : Fin n → Node) (events : List (Event n)) :
    Decidable (ElectionOrder nodes events) :=
  decideElectionOrder nodes events

/-- An admissible callback keeps the owner unique, whatever the network returns. -/
theorem ownerUnique_step {nodes : Fin n → Node} (unique : OwnerUnique nodes) {e : Event n}
    (admissible : e.Admissible nodes) : OwnerUnique (step nodes e) := by
  intro a b aOwns bOwns
  cases e with
  | elected i r =>
    -- the elected node is the only owner
    have only : ∀ k, (step nodes (.elected i r) k).vipGauge = 1 → k = i := fun k owns =>
      Classical.byContradiction fun other => admissible k other (by rwa [step_ne _ _ other] at owns)
    exact (only a aOwns).trans (only b bOwns).symm
  | retired i r =>
    -- an owner after the retirement was one before
    have before : ∀ k, (step nodes (.retired i r) k).vipGauge = 1 → (nodes k).vipGauge = 1 := by
      intro k owns
      rw [step_vipGauge] at owns
      split_ifs at owns
      · cases owns
      · exact owns
    exact unique a b (before a aOwns) (before b bOwns)

theorem ownerUnique_run {nodes : Fin n → Node} {events : List (Event n)}
    (unique : OwnerUnique nodes) (order : ElectionOrder nodes events) :
    OwnerUnique (run nodes events) := by
  induction events generalizing nodes with
  | nil => exact unique
  | cons e events ih => exact ih (ownerUnique_step unique order.1) order.2

theorem vipOnOwner_mono {started started' : List (Fin n)} {nodes : Fin n → Node}
    (onOwner : VIPOnOwner started nodes) (sub : ∀ i ∈ started', i ∈ started) :
    VIPOnOwner started' nodes :=
  fun i live => onOwner i (sub i live)

/-- A callback that retires cleanly, if it retires, leaves the address on its node only when the
node is the owner. -/
theorem vipOnOwner_step {started : List (Fin n)} {nodes : Fin n → Node}
    (onOwner : VIPOnOwner started nodes) {e : Event n} (clean : e.RetiresCleanly) :
    VIPOnOwner (e.node :: started) (step nodes e) := by
  intro k live holds
  by_cases same : k = e.node
  · rw [step_of_eq _ _ same] at holds ⊢
    cases e with
    | elected i r => rw [Event.apply_elected, onElected_fst]
    | retired i r =>
      rw [Event.apply_retired, onRetired_fst, clean.1, clean.2] at holds
      simp at holds
  · rw [step_ne _ _ same] at holds ⊢
    exact onOwner k ((List.mem_cons.mp live).resolve_left same) holds

theorem vipOnOwner_run {started : List (Fin n)} {nodes : Fin n → Node}
    {events : List (Event n)} (onOwner : VIPOnOwner started nodes)
    (clean : ∀ e ∈ events, e.RetiresCleanly) :
    VIPOnOwner (events.map Event.node ++ started) (run nodes events) := by
  induction events generalizing started nodes with
  | nil => exact onOwner
  | cons e events ih =>
    refine vipOnOwner_mono (ih (vipOnOwner_step onOwner (clean e (List.mem_cons_self _ _)))
      fun e' member => clean e' (List.mem_cons_of_mem _ member)) fun i live => ?_
    simp only [List.map_cons, List.cons_append, List.mem_cons, List.mem_append] at live ⊢
    rcases live with first | later | before
    · exact .inr (.inl first)
    · exact .inl later
    · exact .inr (.inr before)

/-- When the election delivers `OnElected` only while no other node is the owner and every
`OnRetired` gets through `HasIP` and `DeleteIP`, then after every run, of the nodes it called back
on and those that held the address only as owners, at most one has the address, and it is the
owner. -/
theorem vip_held_by_owner_only {nodes : Fin n → Node} {events : List (Event n)}
    {started : List (Fin n)} (unique : OwnerUnique nodes) (onOwner : VIPOnOwner started nodes)
    (order : ElectionOrder nodes events) (clean : ∀ e ∈ events, e.RetiresCleanly) {i j : Fin n}
    (iLive : i ∈ events.map Event.node ++ started) (jLive : j ∈ events.map Event.node ++ started)
    (iHolds : (run nodes events i).hasVIP) (jHolds : (run nodes events j).hasVIP) :
    i = j ∧ (run nodes events i).vipGauge = 1 := by
  have onOwner' := vipOnOwner_run onOwner clean
  have iOwns := onOwner' i iLive iHolds
  exact ⟨ownerUnique_run unique order i j iOwns (onOwner' j jLive jHolds), iOwns⟩

/-- Two nodes, both restarted with the address still on their links: `Start` retires node 0 and
elects node 1, and only node 1 ends with the address. -/
theorem vip_held_by_owner_only_restart :
    OwnerUnique (fun _ : Fin 2 => (⟨0, true⟩ : Node)) ∧
    VIPOnOwner [] (fun _ : Fin 2 => (⟨0, true⟩ : Node)) ∧
    ElectionOrder (fun _ : Fin 2 => (⟨0, true⟩ : Node))
      [.retired 0 ⟨none, none, none, none⟩, .retired 1 ⟨none, none, none, none⟩,
        .elected 1 ⟨none, none, none, none⟩] ∧
    (∀ e ∈ ([.retired 0 ⟨none, none, none, none⟩, .retired 1 ⟨none, none, none, none⟩,
        .elected 1 ⟨none, none, none, none⟩] : List (Event 2)), e.RetiresCleanly) ∧
    (1 : Fin 2) ∈ ([.retired 0 ⟨none, none, none, none⟩, .retired 1 ⟨none, none, none, none⟩,
        .elected 1 ⟨none, none, none, none⟩] : List (Event 2)).map Event.node ++ [] ∧
    (run (fun _ : Fin 2 => (⟨0, true⟩ : Node)) [.retired 0 ⟨none, none, none, none⟩,
        .retired 1 ⟨none, none, none, none⟩, .elected 1 ⟨none, none, none, none⟩] 1).hasVIP ∧
    ((1 : Fin 2) = 1 ∧ (run (fun _ : Fin 2 => (⟨0, true⟩ : Node))
      [.retired 0 ⟨none, none, none, none⟩, .retired 1 ⟨none, none, none, none⟩,
        .elected 1 ⟨none, none, none, none⟩] 1).vipGauge = 1) :=
  ⟨by decide, by decide, by decide, by decide, by decide, by decide,
    @vip_held_by_owner_only 2 _ _ [] (by decide) (by decide) (by decide) (by decide) 1 1
      (by decide) (by decide) (by decide) (by decide)⟩

end Cluster

end TiProxy.Vip
