import Purser.PlannerFailover

/-!
# Replica sets

A replica set plans the model several times on slices of the ranked fleet, which
are disjoint and not empty.
-/

namespace Purser.Planner

open List

inductive RoutingPolicy where
  | roundRobin
  | leastLoaded

structure ReplicaSet where
  modelID : String
  replicas : List (Option DeploymentPlan)
  routing : RoutingPolicy

inductive ReplicaFailure where
  | countTooSmall (count : ℤ)
  | single (failure : PlanFailure)
  | noNodes
  | doesNotFit (failure : PlanFailure)
  | tooFewNodes (nodes kMin : ℕ) (count : ℤ)
  | replica (index : ℕ) (failure : PlanFailure)

def PlanFailure.text : PlanFailure → String
  | .cancelled => "context canceled"
  | .rejected error => error.message

def ReplicaFailure.text : ReplicaFailure → String
  | .countTooSmall count =>
    "planner: replicaCount must be >= 1, got " ++ toString count
  | .single failure => failure.text
  | .noNodes => "planner: no nodes available"
  | .doesNotFit failure => "model does not fit fleet: " ++ failure.text
  | .tooFewNodes nodes kMin count =>
    "planner: fleet has " ++ toString nodes ++ " nodes but " ++ toString count ++
      " replica(s) × " ++ toString kMin ++ " nodes/replica required (k_min=" ++ toString kMin ++ ")"
  | .replica index failure =>
    "replica " ++ toString index ++ ": " ++ failure.text

def ReplicaFailure.suggestions : ReplicaFailure → List String
  | .noNodes => ["register at least one node"]
  | .tooFewNodes nodes kMin count =>
    ["add at least " ++ toString (kMin * count - nodes) ++ " more nodes",
      "reduce replicaCount", "use a smaller quantization to lower k_min"]
  | _ => []

def rankByMemory (rt : Runtime) (nodes : List Node) : List Node := rt.sortSlice
    (fun first second => usefulMemoryForFit second < usefulMemoryForFit first) nodes

/-- The slice of the ranked fleet for one replica; the last one takes the
remainder. -/
def replicaGroup (ranked : List Node) (count i : ℕ) : List Node :=
  let groupSize := ranked.length / count
  let start := i * groupSize
  let stop := if i = count - 1 then ranked.length else start + groupSize
  (ranked.take stop).drop start

/-- Plan on the larger half of the fleet, and on all of it when that fails. -/
def trialPlan (rt : Runtime) (ctx : Context) (ranked : List Node)
    (links : List Link) (model : ModelSpec) (c : Constraints) :
    Except PlanFailure DeploymentPlan :=
  match plan rt (ctx.child 0) (ranked.take (ranked.length / 2 + 1)) links model c with
  | .ok trial => .ok trial
  | .error _ => plan rt (ctx.child 1) ranked links model c

def fillSlots {α : Type} (arrival : List ℕ) (results : List α) : List (Option α) :=
  arrival.foldl (fun slots i => slots.set i results[i]?) (List.replicate results.length none)

def firstFailure :
    (index : ℕ) → List (Option (Except PlanFailure DeploymentPlan)) → Option ReplicaFailure
  | _, [] => none
  | index, some (.error failure) :: _ => some (.replica index failure)
  | index, _ :: slots => firstFailure (index + 1) slots

def planReplicaSet (rt : Runtime) (ctx : Context) (nodes : List Node)
    (links : List Link) (model : ModelSpec) (c : Constraints)
    (replicaCount : ℤ) : Except ReplicaFailure ReplicaSet :=
  if replicaCount ≤ 0 then .error (.countTooSmall replicaCount)
  else if replicaCount = 1 then
    match plan rt (ctx.child 0) nodes links model c with
    | .error failure => .error (.single failure)
    | .ok only => .ok ⟨model.id, [some only], .roundRobin⟩
  else if nodes = [] then .error .noNodes
  else
    let ranked := rankByMemory rt nodes
    match trialPlan rt ctx ranked links model c with
    | .error failure => .error (.doesNotFit failure)
    | .ok trial =>
      let kMin := trial.assignments.length
      let count := replicaCount.toNat
      if nodes.length < kMin * count then
        .error (.tooFewNodes nodes.length kMin replicaCount)
      else
        let results := (List.range count).map fun i =>
          plan rt (ctx.child (i + 2)) (replicaGroup ranked count i) links model c
        let slots := fillSlots (ctx.arrival [] count) results
        match firstFailure 0 slots with
        | some failure => .error failure
        | none =>
          .ok {
            modelID := model.id
            replicas := slots.map fun slot => slot.bind Except.toOption
            routing := .roundRobin }

variable {ranked : List Node}

theorem replicaGroup_ne_nil {count i : ℕ} (enough : count ≤ ranked.length) (iLt : i < count) :
    replicaGroup ranked count i ≠ [] := by
  have countPos : 0 < count := by omega
  have sizePos : 0 < ranked.length / count := Nat.div_pos enough countPos
  have whole : count * (ranked.length / count) ≤ ranked.length := Nat.mul_div_le ranked.length count
  have inside : (i + 1) * (ranked.length / count) ≤
      count * (ranked.length / count) := Nat.mul_le_mul_right _ iLt
  have next : (i + 1) * (ranked.length / count) =
      i * (ranked.length / count) + ranked.length / count := Nat.succ_mul _ _
  apply ne_nil_of_length_pos
  unfold replicaGroup
  simp only [length_drop, length_take]
  split
  · omega
  · omega

theorem replicaGroup_disjoint (distinct : (ranked.map Node.id).Nodup) {count i j : ℕ}
    (different : i ≠ j) (iLt : i < count) (jLt : j < count) :
    ((replicaGroup ranked count i).map Node.id).Disjoint
      ((replicaGroup ranked count j).map Node.id) := by
  wlog less : i < j generalizing i j
  · exact (this different.symm jLt iLt (by omega)).symm
  have ordered : (i + 1) * (ranked.length / count) ≤ j * (ranked.length / count) :=
    Nat.mul_le_mul_right _ less
  have next : (i + 1) * (ranked.length / count) =
      i * (ranked.length / count) + ranked.length / count := Nat.succ_mul _ _
  have early : (replicaGroup ranked count i).map Node.id ⊆ (ranked.map Node.id).take
      (i * (ranked.length / count) + ranked.length / count) := by
    rw [replicaGroup, if_neg (by omega), ← map_take]
    exact map_subset _ (drop_subset _ _)
  have late : (replicaGroup ranked count j).map Node.id ⊆
      (ranked.map Node.id).drop (j * (ranked.length / count)) := by
    rw [replicaGroup, drop_take, ← map_drop]
    exact map_subset _ (take_subset _ _)
  intro id inFirst inSecond
  exact disjoint_take_drop distinct (by omega) (early inFirst) (late inSecond)

theorem fillSlots_eq {α : Type} {arrival : List ℕ} {results : List α}
    (perm : arrival.Perm (List.range results.length)) :
    fillSlots arrival results = results.map some := by
  have written (arrival : List ℕ) (i : ℕ) : (fillSlots arrival results)[i]? =
      if i < results.length then some (if i ∈ arrival then results[i]? else none) else none := by
    induction arrival using List.reverseRecOn with
    | nil => simp [fillSlots, getElem?_replicate]
    | append_singleton front last induction =>
      rw [fillSlots, foldl_append, ← fillSlots, foldl_cons, foldl_nil, getElem?_set, induction]
      by_cases same : last = i
      · subst same
        have length : (fillSlots front results).length = results.length := by
          refine List.foldlRecOn (motive := (List.length · = results.length)) front _
            length_replicate fun slots holds _ _ => ?_
          rw [length_set, holds]
        simp [length]
      · simp [same, Ne.symm same]
  apply ext_getElem?
  intro i
  rw [written, getElem?_map]
  split
  next inside =>
    rw [if_pos (perm.mem_iff.mpr (mem_range.mpr inside)), getElem?_eq_getElem inside,
      Option.map_some]
  next outside => rw [getElem?_eq_none (not_lt.mp outside), Option.map_none]

theorem exists_plans_of_firstFailure {results : List (Except PlanFailure DeploymentPlan)}
    {index : ℕ} (noFailure : firstFailure index (results.map some) = none) :
    ∃ plans : List DeploymentPlan, results = plans.map .ok := by
  induction results generalizing index with
  | nil => exact ⟨[], rfl⟩
  | cons result _ induction =>
    cases result with
    | error => cases noFailure
    | ok first =>
      obtain ⟨rest, restEq⟩ := induction noFailure
      exact ⟨first :: rest, by rw [restEq, map_cons]⟩

variable {rt : Runtime} {ctx : Context} {links : List Link} {model : ModelSpec} {c : Constraints}

theorem assignments_pos_of_trialPlan {trial : DeploymentPlan}
    (planned : trialPlan rt ctx ranked links model c = .ok trial) :
    0 < trial.assignments.length := by
  have nonempty : ∀ {ctx : Context} {nodes : List Node} {result : DeploymentPlan},
      plan rt ctx nodes links model c = .ok result → 0 < result.assignments.length := by
    intro ctx nodes result planned
    obtain ⟨host, workers, assignmentsEq, _⟩ := (plan_isValid planned).host_first
    simp [assignmentsEq]
  unfold trialPlan at planned
  split at planned
  · rename_i half halfPlanned
    obtain rfl := Except.ok.inj planned
    exact nonempty halfPlanned
  · exact nonempty planned

/-- A replica set of several replicas is planned slice by slice on at least as
many nodes as replicas. -/
theorem exists_plans_of_planReplicaSet {nodes : List Node} {replicaCount : ℤ}
    (several : 2 ≤ replicaCount) {set : ReplicaSet}
    (planned : planReplicaSet rt ctx nodes links model c replicaCount = .ok set) :
    replicaCount.toNat ≤ nodes.length ∧
      ∃ plans : List DeploymentPlan, set.replicas = plans.map some ∧
        plans.length = replicaCount.toNat ∧
          ∀ i result, plans[i]? = some result →
            i < replicaCount.toNat ∧
              plan rt (ctx.child (i + 2))
                  (replicaGroup (rankByMemory rt nodes) replicaCount.toNat i)
                  links model c = .ok result := by
  unfold planReplicaSet at planned
  rw [if_neg (by omega), if_neg (by omega)] at planned
  split at planned
  · cases planned
  simp only at planned
  split at planned
  · cases planned
  rename_i trial trialPlanned
  split at planned
  · cases planned
  have kMinPos := assignments_pos_of_trialPlan trialPlanned
  have countLe : replicaCount.toNat ≤ trial.assignments.length * replicaCount.toNat :=
    Nat.le_mul_of_pos_left _ kMinPos
  rw [fillSlots_eq (by
    rw [length_map, length_range]
    exact ctx.arrival_perm [] _)] at planned
  split at planned
  · cases planned
  rename_i noFailure
  obtain ⟨plans, plansEq⟩ := exists_plans_of_firstFailure noFailure
  rw [plansEq] at planned
  obtain rfl := Except.ok.inj planned
  refine ⟨by omega, plans, ?_, ?_, ?_⟩
  · simp [Except.toOption]
  · have lengths := congrArg List.length plansEq
    simpa using lengths.symm
  · intro i result resultAt
    have outcomeAt := congrArg (fun outcomes => outcomes[i]?) plansEq
    simp only [getElem?_map, resultAt, Option.map_some, Option.map_eq_some_iff] at outcomeAt
    obtain ⟨index, indexAt, outcome⟩ := outcomeAt
    obtain ⟨iLt, rfl⟩ := List.getElem?_eq_some_iff.mp indexAt
    rw [length_range] at iLt
    rw [getElem_range] at outcome
    exact ⟨iLt, outcome⟩

/-- No node serves two replicas, and no slice is empty or shared. -/
theorem planReplicaSet_isolated {nodes : List Node} (distinct : (nodes.map Node.id).Nodup)
    {replicaCount : ℤ} (several : 2 ≤ replicaCount) {set : ReplicaSet}
    (planned : planReplicaSet rt ctx nodes links model c replicaCount = .ok set) :
    ∃ plans : List DeploymentPlan, set.replicas = plans.map some ∧
      plans.length = replicaCount.toNat ∧
      (∀ (i j : ℕ) first second, i ≠ j → plans[i]? = some first →
        plans[j]? = some second → ∀ id, UsesNode first id → ¬ UsesNode second id) ∧
      (∀ i, i < replicaCount.toNat →
        replicaGroup (rankByMemory rt nodes) replicaCount.toNat i ≠ []) ∧
      ∀ i j, i < replicaCount.toNat → j < replicaCount.toNat → i ≠ j →
        ((replicaGroup (rankByMemory rt nodes) replicaCount.toNat i).map Node.id).Disjoint
          ((replicaGroup (rankByMemory rt nodes) replicaCount.toNat j).map Node.id) := by
  obtain ⟨enough, plans, replicasEq, lengthEq, slices⟩ :=
    exists_plans_of_planReplicaSet several planned
  have rankedDistinct : ((rankByMemory rt nodes).map Node.id).Nodup :=
    ((rt.sortSlice_perm _ nodes).map Node.id).nodup_iff.mpr distinct
  refine ⟨plans, replicasEq, lengthEq, ?_, ?_, fun i j iLt jLt different =>
    replicaGroup_disjoint rankedDistinct different iLt jLt⟩
  · intro i j first second different firstAt secondAt id firstUses secondUses
    obtain ⟨iLt, firstPlanned⟩ := slices i first firstAt
    obtain ⟨jLt, secondPlanned⟩ := slices j second secondAt
    exact replicaGroup_disjoint rankedDistinct different iLt jLt
      (mem_of_usesNode firstPlanned firstUses) (mem_of_usesNode secondPlanned secondUses)
  · intro i iLt
    apply replicaGroup_ne_nil _ iLt
    rw [rankByMemory, (rt.sortSlice_perm _ _).length_eq]
    exact enough

/-- Five nodes serve two replicas of two and three nodes. -/
theorem planReplicaSet_isolated_five_nodes : ∃ set : ReplicaSet,
    planReplicaSet Runtime.default Context.background
        (threeNodes ++ [{ id := "d", ramAvailableGB := 30 }, { id := "e", ramAvailableGB := 25 }])
        [] fourLayers {} 2 = .ok set ∧
      ∃ plans : List DeploymentPlan, set.replicas = plans.map some ∧ plans.length = 2 := by
  obtain ⟨set, planned⟩ := isOk_iff.mp (show (planReplicaSet Runtime.default Context.background
    (threeNodes ++ [{ id := "d", ramAvailableGB := 30 }, { id := "e", ramAvailableGB := 25 }])
      [] fourLayers {} 2).isOk = true by decide +kernel)
  obtain ⟨plans, replicasEq, lengthEq, _⟩ := planReplicaSet_isolated (by decide) (by decide) planned
  exact ⟨set, planned, plans, replicasEq, lengthEq⟩

end Purser.Planner
