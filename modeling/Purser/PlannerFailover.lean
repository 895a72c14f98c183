import Purser.PlannerValidity

/-!
# The failover table

A plan carries one entry for each node it uses: the plan of the fleet without
that node, or nothing and a note.  The order in which the alternatives arrive
does not matter.
-/

namespace Purser.Planner

open KeyedTables List
open Assignment (nodeID)

variable {ctx ctx' : Context} {rt : Runtime} {nodes : List Node} {links : List Link}
  {model : ModelSpec} {c : Constraints}
  {collected : String → Option (Except PlanFailure DeploymentPlan)} {dead : String}
  {alternative : DeploymentPlan}

theorem cheapestPlan_context (never : ctx.NeverCancelled) (never' : ctx'.NeverCancelled)
    (evaluate : List Node → Option DeploymentPlan) (i : ℕ) (best : Option DeploymentPlan)
    (subsets : List (List Node)) :
    cheapestPlan ctx evaluate i best subsets = cheapestPlan ctx' evaluate i best subsets := by
  induction subsets generalizing i best with
  | nil => rfl
  | cons _ _ induction =>
    unfold cheapestPlan
    rw [never [1, i], never' [1, i]]
    simp only [induction]

theorem planInternal_false (rt : Runtime) (ctx : Context) (nodes : List Node)
    (links : List Link) (model : ModelSpec) (c : Constraints) :
    planInternal rt ctx nodes links model c false =
      (planPhases rt ctx nodes links model c).map Prod.snd := by
  unfold planInternal
  cases planPhases rt ctx nodes links model c with
  | error => rfl
  | ok => rfl

/-- Every node of the plan claims one slot of an empty table. -/
theorem claimSlots_empty (assignments : List Assignment) :
    let order := firstSeen (assignments.map nodeID)
    claimSlots (fun _ => none) assignments =
      (fun dead => if dead ∈ order then some none else none, order) := by
  induction assignments using List.reverseRecOn with
  | nil => rfl
  | append_singleton front shard induction =>
    rw [map_append, firstSeen, foldl_append, ← firstSeen, claimSlots, foldl_append,
      ← claimSlots, induction]
    generalize firstSeen (front.map nodeID) = order
    by_cases claimed : shard.nodeID ∈ order
    · simp [claimed]
    · simp only [foldl_cons, foldl_nil, map_cons, map_nil, claimed]
      refine Prod.ext (funext fun dead => ?_) rfl
      by_cases same : dead = shard.nodeID <;> simp [same]

theorem computeFailoverPlans_eq {base : DeploymentPlan} (empty : base.failoverAlt = fun _ => none) :
    let order := firstSeen (base.assignments.map nodeID)
    computeFailoverPlans rt ctx base nodes links model c =
      order.foldl (applyFailover (collectResults (ctx.arrival [] order.length)
          (planAlternatives rt ctx nodes links model c order)))
        { base with failoverAlt := fun dead => if dead ∈ order then some none else none } := by
  simp only [computeFailoverPlans, empty, claimSlots_empty]

theorem collectResults_eq_tabulate {α : Type} (arrival : List ℕ) (results : List (String × α)) :
    collectResults arrival results =
      tabulate Prod.fst Prod.snd (arrival.filterMap (results[·]?)) := by
  rw [tabulate, foldl_filterMap, collectResults]
  congr 1
  funext collected i
  cases results[i]? <;> rfl

/-- With distinct keys every result that has arrived is found under its key,
whatever the order of arrival. -/
theorem collectResults_eq_some_iff {α : Type} {results : List (String × α)}
    (distinct : (results.map Prod.fst).Nodup) (arrival : List ℕ) (key : String)
    (value : α) :
    collectResults arrival results key = some value ↔
      ∃ i ∈ arrival, results[i]? = some (key, value) := by
  have mem_results : ∀ {result}, result ∈ arrival.filterMap (results[·]?) → result ∈ results := by
    intro result arrived
    obtain ⟨i, _, resultAt⟩ := mem_filterMap.mp arrived
    exact mem_of_getElem? resultAt
  rw [collectResults_eq_tabulate, tabulate_eq_some_iff]
  · constructor
    · rintro ⟨result, arrived, rfl, rfl⟩
      exact mem_filterMap.mp arrived
    · intro arrived
      exact ⟨(key, value), mem_filterMap.mpr arrived, rfl, rfl⟩
  · intro first firstArrived second secondArrived same
    rw [inj_on_of_nodup_map distinct (mem_results firstArrived) (mem_results secondArrived) same]

/-- No phase before failover reports a lost node. -/
theorem lostNodes_planAdmitted {plan : DeploymentPlan}
    (planned : planAdmitted rt ctx nodes links model c = .ok plan) :
    lostNodes plan.explanation = [] := by
  obtain ⟨_, quant, _, _, assembled, assembledEq, _, rfl⟩ :=
    planAdmitted_eq_ok_iff.mp planned
  have assembledNotes : lostNodes assembled.explanation = [] := by
    rcases assemblePlan_cases assembledEq with ⟨node, _, _, rfl⟩ | ⟨_, _, _, planned⟩
    · exact (notes_singleNodePlan node).2
    · exact (isMultiNodePlan planned).none_lost
  unfold placeDraft
  split
  · simp only [lostNodes_append, assembledNotes]
    split <;> rfl
  · exact assembledNotes

theorem applyFailover_of_collected {outcome : Except PlanFailure DeploymentPlan}
    (arrived : collected dead = some outcome) {plan : DeploymentPlan}
    (claimed : plan.failoverAlt dead = some none) :
    (applyFailover collected plan dead).failoverAlt =
        Function.update plan.failoverAlt dead (some outcome.toOption) ∧
      lostNodes (applyFailover collected plan dead).explanation =
        lostNodes plan.explanation ++ if outcome.isOk then [] else [dead] := by
  unfold applyFailover
  rw [arrived]
  cases outcome with
  | error =>
    constructor
    · exact (Function.update_eq_self_iff.mpr claimed.symm).symm
    · exact lostNodes_append _ _
  | ok => exact ⟨rfl, (append_nil _).symm⟩

/-- Entering the outcomes one after another fills the slots of the nodes that can
be lost and notes the others. -/
theorem foldl_applyFailover {outcome : String → Except PlanFailure DeploymentPlan}
    (order : List String) (nodup : order.Nodup)
    (arrived : ∀ dead ∈ order, collected dead = some (outcome dead)) (plan : DeploymentPlan)
    (claimed : ∀ dead ∈ order, plan.failoverAlt dead = some none) :
    let result := order.foldl (applyFailover collected) plan
    (∀ dead, result.failoverAlt dead =
        if dead ∈ order then some (outcome dead).toOption
        else plan.failoverAlt dead) ∧
      lostNodes result.explanation = lostNodes plan.explanation ++
        order.filter fun dead => !(outcome dead).isOk := by
  induction order generalizing plan with
  | nil => simp
  | cons dead _ induction =>
    rw [nodup_cons] at nodup
    simp only [foldl_cons]
    -- slots are distinct, so the later ones are still claimed after this step
    have step := applyFailover_of_collected (arrived dead mem_cons_self)
      (claimed dead mem_cons_self)
    obtain ⟨slots, notes⟩ := induction nodup.2
      (fun other member => arrived other (mem_cons_of_mem dead member))
      (applyFailover collected plan dead) (by
        intro other member
        have different : other ≠ dead := by
          rintro rfl
          exact nodup.1 member
        rw [step.1, Function.update_of_ne different]
        exact claimed other (mem_cons_of_mem dead member))
    constructor
    · intro other
      rw [slots other, step.1]
      by_cases same : other = dead
      · subst same
        simp [nodup.1]
      · simp [same]
    · rw [notes, step.2]
      cases outcomeOk : (outcome dead).isOk with
      | true | false => simp [outcomeOk]

structure IsFailoverTable (rt : Runtime) (admitted : List Node)
    (links : List Link) (model : ModelSpec) (c : Constraints)
    (plan : DeploymentPlan) : Prop where
  /-- The keys are the nodes of the assignments. -/
  keys : ∀ dead, (plan.failoverAlt dead).isSome = true ↔
    ∃ shard ∈ plan.assignments, shard.nodeID = dead
  /-- An entry is the outcome of planning without the node, nil on failure. -/
  outcome : ∀ dead entry, plan.failoverAlt dead = some entry →
    ∀ ctx : Context, ctx.NeverCancelled →
      entry = (planInternal rt ctx (nodesExcluding admitted dead) links model c false).toOption
  /-- An alternative avoids the node, is valid and has no alternatives. -/
  alternative : ∀ dead alternative,
    plan.failoverAlt dead = some (some alternative) →
      (∀ shard ∈ alternative.assignments, shard.nodeID ≠ dead) ∧
        IsValidPlan (nodesExcluding admitted dead) model c alternative ∧
          alternative.failoverAlt = fun _ => none
  /-- There is one note for each nil entry and no other. -/
  notes : (lostNodes plan.explanation).Nodup ∧
    ∀ dead, dead ∈ lostNodes plan.explanation ↔ plan.failoverAlt dead = some none

def planWithout (rt : Runtime) (ctx : Context) (nodes : List Node)
    (links : List Link) (model : ModelSpec) (c : Constraints) (dead : String) :
    Except PlanFailure DeploymentPlan :=
  planInternal rt ctx (nodesExcluding nodes dead) links model c false

theorem planAlternatives_keys (rt : Runtime) (ctx : Context) (nodes : List Node)
    (links : List Link) (model : ModelSpec) (c : Constraints)
    (order : List String) :
    (planAlternatives rt ctx nodes links model c order).map Prod.fst = order := by
  apply ext_getElem
  · simp [planAlternatives]
  · simp [planAlternatives]

/-- Every alternative has arrived, and is what planning without the node gives. -/
theorem collected_planAlternatives (never : ctx.NeverCancelled) (never' : ctx'.NeverCancelled)
    (nodes : List Node) (links : List Link) (model : ModelSpec) (c : Constraints)
    {order : List String} (nodup : order.Nodup) :
    ∀ dead ∈ order,
      collectResults (ctx.arrival [] order.length)
          (planAlternatives rt ctx nodes links model c order) dead =
        some (planWithout rt ctx' nodes links model c dead) := by
  intro dead member
  obtain ⟨i, iLt, deadEq⟩ := mem_iff_getElem.mp member
  rw [collectResults_eq_some_iff
    ((planAlternatives_keys rt ctx nodes links model c order).symm ▸ nodup)]
  refine ⟨i, ?_, ?_⟩
  · rw [(ctx.arrival_perm [] _).mem_iff, mem_range]
    exact iLt
  · rw [planAlternatives, getElem?_mapIdx, getElem?_eq_getElem iLt,
      deadEq, Option.map_some, planWithout, planInternal_false]
    unfold planPhases planAdmitted assemblePlan
    rw [never.child (i + 2) [0], never' [0]]
    simp only [cheapestPlan_context (never.child (i + 2)) never']

theorem computeFailoverPlans_spec (never : ctx.NeverCancelled) (never' : ctx'.NeverCancelled)
    {plan : DeploymentPlan} (empty : plan.failoverAlt = fun _ => none)
    (quiet : lostNodes plan.explanation = []) (nodes : List Node) (links : List Link)
    (model : ModelSpec) (c : Constraints) :
    let result := computeFailoverPlans rt ctx plan nodes links model c
    (∀ dead, result.failoverAlt dead =
        if dead ∈ plan.assignments.map nodeID then
          some (planWithout rt ctx' nodes links model c dead).toOption
        else none) ∧
      (lostNodes result.explanation).Nodup ∧
        ∀ dead, dead ∈ lostNodes result.explanation ↔
          dead ∈ plan.assignments.map nodeID ∧
            (planWithout rt ctx' nodes links model c dead).isOk = false := by
  have nodup := nodup_firstSeen (plan.assignments.map nodeID)
  obtain ⟨table, notes⟩ := foldl_applyFailover _ nodup
    (collected_planAlternatives never never' nodes links model c nodup)
    { plan with failoverAlt := fun dead =>
        if dead ∈ firstSeen (plan.assignments.map nodeID) then some none else none }
    fun dead member => if_pos member
  simp only [computeFailoverPlans_eq empty]
  refine ⟨fun dead => ?_, ?_, fun dead => ?_⟩
  · rw [table dead]
    simp only [mem_firstSeen]
    split <;> rfl
  · rw [notes]
    simpa [quiet] using nodup.filter _
  · rw [notes]
    simp [quiet]

/-- A plan without a node is valid for the fleet without it, and spares it. -/
theorem isValidPlan_planWithout
    (planned : planWithout rt ctx nodes links model c dead = .ok alternative) :
    (∀ shard ∈ alternative.assignments, shard.nodeID ≠ dead) ∧
      IsValidPlan (nodesExcluding nodes dead) model c alternative ∧
        alternative.failoverAlt = fun _ => none := by
  rw [planWithout, planInternal_false] at planned
  cases outcome : planPhases rt ctx (nodesExcluding nodes dead) links model c with
  | error =>
    rw [outcome] at planned
    cases planned
  | ok =>
    rw [outcome] at planned
    obtain rfl := Except.ok.inj planned
    obtain ⟨valid, noAlternatives⟩ := isValidPlan_planPhases outcome
    refine ⟨?_, valid, noAlternatives⟩
    intro shard member
    obtain ⟨⟨node, filtered, idEq⟩, _⟩ := valid.admitted shard member
    have remaining := of_mem_filter (mem_of_mem_filter filtered)
    rw [← idEq]
    simpa using remaining

/-- The failover table of every plan the public entry point returns. -/
theorem plan_isFailoverTable {rt : Runtime} {ctx : Context}
    (never : ctx.NeverCancelled) {nodes : List Node} {links : List Link}
    {model : ModelSpec} {c : Constraints} {result : DeploymentPlan}
    (planned : plan rt ctx nodes links model c = .ok result) :
    ∃ admitted, admittedNodes nodes c = .ok admitted ∧
      IsFailoverTable rt admitted links model c result := by
  obtain ⟨admitted, base, basePlanned, rfl⟩ := plan_eq_ok_iff.mp planned
  obtain ⟨_, passed, admittedPlanned⟩ := planPhases_eq_ok_iff.mp basePlanned
  obtain ⟨_, empty⟩ := isValidPlan_planPhases basePlanned
  have quiet := lostNodes_planAdmitted admittedPlanned
  obtain ⟨assignmentsEq, _, _⟩ := computeFailoverPlans_frame rt ctx base admitted links model c
  obtain ⟨table, nodup, members⟩ := computeFailoverPlans_spec never never empty
    quiet admitted links model c
  refine ⟨admitted, passed, ?_, ?_, ?_, ?_⟩
  · intro dead
    rw [assignmentsEq, table dead]
    split
    · rename_i member
      simpa using mem_map.mp member
    · rename_i absent
      simpa using absent
  · intro dead entry entryEq ctx' never'
    obtain ⟨table, _⟩ := computeFailoverPlans_spec never never' empty quiet admitted links model c
    rw [table dead] at entryEq
    split at entryEq
    · exact (Option.some.inj entryEq).symm
    · cases entryEq
  · intro dead alternative entryEq
    rw [table dead] at entryEq
    split at entryEq
    swap
    · cases entryEq
    cases outcome : planWithout rt ctx admitted links model c dead with
    | error =>
      rw [outcome] at entryEq
      cases entryEq
    | ok passed =>
      rw [outcome] at entryEq
      obtain rfl : passed = alternative := Option.some.inj (Option.some.inj entryEq)
      exact isValidPlan_planWithout outcome
  · refine ⟨nodup, ?_⟩
    intro dead
    rw [members dead, table dead]
    by_cases used : dead ∈ base.assignments.map nodeID
    · rw [if_pos used]
      cases planWithout rt ctx admitted links model c dead with
      | error => exact iff_of_true ⟨used, rfl⟩ rfl
      | ok =>
        refine iff_of_false (fun failed => ?_) (fun empty => ?_)
        · cases failed.2
        · cases empty
    · simp [used]

theorem plan_isFailoverTable_threeNodes : ∃ result admitted,
    plan Runtime.default Context.background threeNodes [] fourLayers {} = .ok result ∧
      IsFailoverTable Runtime.default admitted [] fourLayers {} result := by
  obtain ⟨result, planned⟩ := isOk_iff.mp (plan_threeNodes_isOk {} (by simp))
  obtain ⟨admitted, _, table⟩ := plan_isFailoverTable Context.background_neverCancelled planned
  exact ⟨result, admitted, planned, table⟩

def UsesNode (plan : DeploymentPlan) (id : String) : Prop :=
  (∃ shard ∈ plan.assignments, shard.nodeID = id) ∨
    ∃ dead alternative, plan.failoverAlt dead = some (some alternative) ∧
      ∃ shard ∈ alternative.assignments, shard.nodeID = id

theorem applyFailover_entry {plan : DeploymentPlan} {lost : String}
    (entry : (applyFailover collected plan lost).failoverAlt dead = some (some alternative)) :
    plan.failoverAlt dead = some (some alternative) ∨
      dead = lost ∧ collected lost = some (.ok alternative) := by
  unfold applyFailover at entry
  split at entry
  · exact Or.inl entry
  · rename_i found collectedEq
    by_cases same : dead = lost
    · subst same
      simp only [Function.update_self, Option.some.injEq] at entry
      exact Or.inr ⟨rfl, entry ▸ collectedEq⟩
    · simp only [Function.update_of_ne same] at entry
      exact Or.inl entry
  · by_cases same : dead = lost
    · subst same
      simp at entry
    · simp only [Function.update_of_ne same] at entry
      exact Or.inl entry

theorem exists_planPhases_of_collected {order : List String} (nodup : order.Nodup)
    {arrival : List ℕ}
    (collected : collectResults arrival (planAlternatives rt ctx nodes links model c order) dead =
        some (.ok alternative)) :
    ∃ ctx' admitted, planPhases rt ctx' (nodesExcluding nodes dead) links model c =
      .ok (admitted, alternative) := by
  rw [collectResults_eq_some_iff
    ((planAlternatives_keys rt ctx nodes links model c order).symm ▸ nodup)]
    at collected
  obtain ⟨i, _, resultAt⟩ := collected
  rw [planAlternatives, getElem?_mapIdx, Option.map_eq_some_iff] at resultAt
  obtain ⟨lost, _, resultEq⟩ := resultAt
  obtain ⟨rfl, outcome⟩ := Prod.mk.inj resultEq
  cases planned : planPhases rt (ctx.child (i + 2)) (nodesExcluding nodes lost) links model c with
  | error =>
    rw [planned] at outcome
    cases outcome
  | ok passed =>
    rw [planned] at outcome
    obtain rfl := Except.ok.inj outcome
    exact ⟨_, passed.1, planned⟩

/-- Whatever the context does, an alternative is a plan of the fleet without the
node. -/
theorem exists_planPhases_of_failoverAlt {base : DeploymentPlan}
    (empty : base.failoverAlt = fun _ => none)
    (entry : (computeFailoverPlans rt ctx base nodes links model c).failoverAlt
      dead = some (some alternative)) :
    ∃ ctx' admitted, planPhases rt ctx' (nodesExcluding nodes dead) links model c =
      .ok (admitted, alternative) := by
  rw [computeFailoverPlans_eq empty] at entry
  -- no assumption on the context: the invariant speaks of some context only
  refine List.foldlRecOn (motive := fun plan : DeploymentPlan => ∀ dead alternative,
    plan.failoverAlt dead = some (some alternative) →
      ∃ ctx' admitted, planPhases rt ctx' (nodesExcluding nodes dead) links model c =
        .ok (admitted, alternative)) _ _ ?_ ?_ dead alternative entry
  · intro dead alternative entry
    dsimp only at entry
    split at entry <;> cases entry
  · intro plan holds lost _ dead alternative entry
    rcases applyFailover_entry entry with earlier | ⟨rfl, collected⟩
    · exact holds dead alternative earlier
    · exact exists_planPhases_of_collected (nodup_firstSeen _) collected

theorem mem_of_usesNode {result : DeploymentPlan}
    (planned : plan rt ctx nodes links model c = .ok result) {id : String}
    (uses : UsesNode result id) : id ∈ nodes.map Node.id := by
  obtain ⟨admitted, base, basePlanned, rfl⟩ := plan_eq_ok_iff.mp planned
  rcases uses with ⟨shard, member, rfl⟩ | ⟨dead, alternative, entry, shard, member, rfl⟩
  · obtain ⟨⟨node, filtered, idEq⟩, _⟩ := (plan_isValid planned).admitted shard member
    rw [← idEq]
    exact mem_map_of_mem (mem_of_mem_filter filtered)
  · obtain ⟨ctx', remaining, alternativePlanned⟩ := exists_planPhases_of_failoverAlt
      (isValidPlan_planPhases basePlanned).2 entry
    obtain ⟨⟨node, filtered, idEq⟩, _⟩ :=
      (isValidPlan_planPhases alternativePlanned).1.admitted shard member
    have inAdmitted : node ∈ admitted := mem_of_mem_filter (mem_of_mem_filter filtered)
    obtain ⟨_, passed, _⟩ := planPhases_eq_ok_iff.mp basePlanned
    have inFleet := ((admittedNodes_ok passed).2 node).mp inAdmitted
    rw [← idEq]
    exact mem_map_of_mem (mem_of_mem_filter inFleet.1)

end Purser.Planner
