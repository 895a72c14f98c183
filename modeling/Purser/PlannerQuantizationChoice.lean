import Purser.PlannerFeasibility

/-!
# The automatic choice of a quantization

Phase A takes the highest-quality quantization that fits the aggregate RAM and
never falls back to another one.
-/

namespace Purser.Planner

open Context (background)

theorem lookupQuant_of_mem {quants : List Quantization}
    (distinct : (quants.map Quantization.name).Nodup) {quant : Quantization}
    (member : quant ∈ quants) : lookupQuant quants quant.name = some quant := by
  cases found : lookupQuant quants quant.name with
  | none =>
    have absent := List.find?_eq_none.mp found quant member
    simp at absent
  | some other =>
    have nameEq : other.name = quant.name := by
      simpa using List.find?_some found
    rw [List.inj_on_of_nodup_map distinct (List.mem_of_find?_eq_some found) member nameEq]

/-- When some declared quantization is deployable by force, the automatic choice
is a quantization of at least its quality, the best that fits the aggregate RAM,
and succeeds exactly when forcing that one does. -/
theorem plan_auto_iff_forced_best {rt : Runtime} {ctx ctx' : Context}
    (never : ctx.NeverCancelled) (never' : ctx'.NeverCancelled)
    {nodes : List Node} {links : List Link} {model : ModelSpec}
    {c : Constraints} (auto : c.forceQuant = none)
    (distinct : (model.quantizations.map Quantization.name).Nodup)
    {quant : Quantization} (declared : quant ∈ model.quantizations)
    (deployable : (plan rt ctx nodes links model
      { c with forceQuant := some quant.name }).isOk = true) :
    ∃ admitted best, admittedNodes nodes c = .ok admitted ∧
      best ∈ model.quantizations ∧
      aggregateNeed admitted best (residentKV admitted model) ≤ ramAggregate admitted ∧
      (∀ other ∈ model.quantizations, aggregateNeed admitted other (residentKV admitted model) ≤
            ramAggregate admitted →
          other.quality ≤ best.quality) ∧
      quant.quality ≤ best.quality ∧
      ((plan rt ctx' nodes links model c).isOk = true ↔ (plan rt ctx' nodes links model
          { c with forceQuant := some best.name }).isOk = true) := by
  obtain ⟨admitted, passed, planned⟩ := (plan_isOk_iff never _ _ _ _).mp deployable
  change admittedNodes nodes c = .ok admitted at passed
  obtain ⟨base, basePlanned⟩ := isOk_iff.mp planned
  obtain ⟨_, selected, selectedEq, _⟩ := planAdmitted_eq_ok_iff.mp basePlanned
  obtain ⟨found, foundEq, fits, _⟩ := (selectQuantization_forced rfl _ _ _ _).mp selectedEq
  rw [lookupQuant_of_mem distinct declared] at foundEq
  obtain rfl := Option.some.inj foundEq
  obtain ⟨best, picked⟩ := phaseAPick_isSome declared fits
  obtain ⟨bestMem, bestFits, highest⟩ := phaseAPick_spec picked
  refine ⟨admitted, best, passed, bestMem, bestFits, highest, highest quant declared fits, ?_⟩
  have automatic := (selectQuantization_auto auto admitted model _ _).mpr ⟨best, picked, rfl⟩
  have forced := (selectQuantization_forced (c := { c with forceQuant := some best.name }) rfl
    admitted model _ _).mpr ⟨best, lookupQuant_of_mem distinct bestMem, bestFits, rfl⟩
  -- beyond phase A the pipeline does not read the forced quantization
  have sameOutcome : planAdmitted rt ctx' admitted links model
      { c with forceQuant := some best.name } = planAdmitted rt ctx' admitted links model c := by
    simp only [planAdmitted, automatic, forced]
    rfl
  have samePassed : admittedNodes nodes { c with forceQuant := some best.name } =
      .ok admitted := passed
  rw [plan_isOk_iff never', plan_isOk_iff never']
  simp only [passed, samePassed, Except.ok.injEq, exists_eq_left', sameOutcome]

def twoQuantizations : ModelSpec where
  id := "m"
  layers := 2
  quantizations := [{ name := "q8", sizeGB := 56, quality := 99 / 100 },
      { name := "q4", sizeGB := 20, quality := 9 / 10 }]

theorem twoQuantizations_evaluated :
    (plan Runtime.default background threeNodes []
      twoQuantizations { forceQuant := some "q4" }).isOk = true ∧
    (plan Runtime.default background (threeNodes.take 2) []
        twoQuantizations { forceQuant := some "q4" }).isOk = true ∧
      (plan Runtime.default background (threeNodes.take 2) []
        twoQuantizations {}).isOk = false := by
  decide +kernel

theorem plan_auto_iff_forced_best_threeNodes :
    ∃ best ∈ twoQuantizations.quantizations, 9 / 10 ≤ best.quality ∧
      ((plan Runtime.default background threeNodes [] twoQuantizations {}).isOk = true ↔
        (plan Runtime.default background threeNodes [] twoQuantizations
          { forceQuant := some best.name }).isOk = true) := by
  have declared : { name := "q4", sizeGB := 20, quality := 9 / 10 } ∈
      twoQuantizations.quantizations := by simp [twoQuantizations]
  obtain ⟨_, best, _, bestMem, _, _, quality, outcome⟩ :=
    plan_auto_iff_forced_best (c := {}) Context.background_neverCancelled
      Context.background_neverCancelled rfl (by decide) declared twoQuantizations_evaluated.1
  exact ⟨best, bestMem, quality, outcome⟩

/-- On two nodes the larger quantization fits the aggregate RAM but no stage of
it fits a node with headroom, while the smaller one fits a single node. -/
theorem plan_auto_rejects_deployable : ∃ quant ∈ twoQuantizations.quantizations,
      (plan Runtime.default background (threeNodes.take 2) []
          twoQuantizations { forceQuant := some quant.name }).isOk = true ∧
        (plan Runtime.default background (threeNodes.take 2) []
          twoQuantizations {}).isOk = false := by
  exact ⟨{ name := "q4", sizeGB := 20, quality := 9 / 10 }, by simp [twoQuantizations],
    twoQuantizations_evaluated.2⟩

end Purser.Planner
