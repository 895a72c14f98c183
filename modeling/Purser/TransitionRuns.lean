import Mathlib.Data.List.Induction
import Mathlib.Data.Nat.Init
import Mathlib.Data.Option.Basic

/-!
# Runs of a transition system

A step either takes an action or refuses it.  A goal is led to if a rank never
rises and falls with every action of the party that has to get there.
-/

namespace Purser.TransitionRuns

open List

variable {State Action : Type*} (step : State → Action → Option State)

def run : State → List Action → Option State
  | state, [] => some state
  | state, action :: rest => (step state action).bind fun next => run next rest

def Conforms (allowed : State → Action → Prop) : State → List Action → Prop
  | _, [] => True
  | state, action :: rest =>
    allowed state action ∧ ∀ next ∈ step state action, Conforms allowed next rest

instance decidableConforms (allowed : State → Action → Prop)
    [∀ state action, Decidable (allowed state action)] :
    (state : State) → (actions : List Action) → Decidable (Conforms step allowed state actions)
  | _, [] => isTrue trivial
  | _, _ :: rest =>
    have := fun next => decidableConforms allowed next rest
    inferInstanceAs (Decidable (_ ∧ _))

variable {step}

variable {state final : State} {rest : List Action} {allowed : State → Action → Prop}

theorem run_cons_eq_some_iff {action : Action} : run step state (action :: rest) = some final ↔
      ∃ next, step state action = some next ∧ run step next rest = some final :=
  Option.bind_eq_some_iff

theorem run_append_eq_some_iff {before : List Action} :
    run step state (before ++ rest) = some final ↔ ∃ middle, run step state before = some middle ∧
        run step middle rest = some final := by
  induction before generalizing state with
  | nil => simp only [nil_append, run, Option.some.injEq, exists_eq_left']
  | cons _ _ induction =>
    simp only [cons_append, run_cons_eq_some_iff, induction]
    constructor
    · rintro ⟨next, stepped, middle, ran, rest⟩
      exact ⟨middle, ⟨next, stepped, ran⟩, rest⟩
    · rintro ⟨middle, ⟨next, stepped, ran⟩, rest⟩
      exact ⟨next, stepped, middle, ran, rest⟩

theorem conforms_append_iff {middle : State} {before : List Action}
    (ran : run step state before = some middle) :
    Conforms step allowed state (before ++ rest) ↔
      Conforms step allowed state before ∧ Conforms step allowed middle rest := by
  induction before generalizing state with
  | nil =>
    cases ran
    exact (true_and _).symm ▸ Iff.rfl
  | cons _ _ induction =>
    obtain ⟨next, stepped, ran⟩ := run_cons_eq_some_iff.mp ran
    simp only [cons_append, Conforms, stepped, Option.mem_some_iff, forall_eq',
      induction ran, and_assoc]

/-- What one allowed action preserves holds along every conforming run. -/
theorem run_induction {initial : State} {motive : List Action → State → Prop}
    (start : motive [] initial) (next : ∀ {before state action after}, motive before state →
      allowed state action → step state action = some after →
        motive (before ++ [action]) after) {actions : List Action}
    (ran : run step initial actions = some final)
    (conforms : Conforms step allowed initial actions) : motive actions final := by
  induction actions using List.reverseRecOn generalizing final with
  | nil =>
    cases ran
    exact start
  | append_singleton _ _ induction =>
    obtain ⟨state, ranBefore, ranLast⟩ := run_append_eq_some_iff.mp ran
    obtain ⟨after, stepped, same⟩ := run_cons_eq_some_iff.mp ranLast
    cases same
    obtain ⟨earlier, last⟩ := (conforms_append_iff ranBefore).mp conforms
    exact next (induction ranBefore earlier) last.1 stepped

variable (step) in
/-- Whatever conforming run comes next, it has reached the goal, or it is safe
so far, the party has taken fewer than the given number of actions, and it can
take one more. -/
def LeadsTo (allowed : State → Action → Prop) (own : Action → Bool)
    (safe goal : State → Prop) (bound : ℕ) (state : State) : Prop :=
  ∀ actions final, run step state actions = some final →
    Conforms step allowed state actions →
      (∃ before middle rest, actions = before ++ rest ∧
        run step state before = some middle ∧ goal middle) ∨
      (safe final ∧ actions.countP own < bound ∧ ∃ action, own action ∧ (step final action).isSome)

theorem leadsTo_of_rank {own : Action → Bool} {safe goal invariant : State → Prop}
    (rank : State → ℕ) (proceeds : ∀ {state action next}, invariant state → allowed state action →
      step state action = some next →
        goal next ∨ (invariant next ∧ rank next ≤ rank state ∧
          (own action → rank next < rank state))) (enabled : ∀ {state}, invariant state →
      safe state ∧ ∃ action, own action ∧ (step state action).isSome) {bound : ℕ}
    (holds : invariant state) (below : rank state < bound) :
    LeadsTo step allowed own safe goal bound state := by
  intro actions final ran conforms
  suffices counted : (∃ before middle rest, actions = before ++ rest ∧
      run step state before = some middle ∧ goal middle) ∨
      (safe final ∧ actions.countP own ≤ rank state ∧
        ∃ action, own action ∧ (step final action).isSome) by
    exact counted.imp_right fun known => ⟨known.1, Nat.lt_of_le_of_lt known.2.1 below, known.2.2⟩
  clear below
  induction actions generalizing state with
  | nil =>
    cases ran
    obtain ⟨safely, possible⟩ := enabled holds
    exact .inr ⟨safely, Nat.zero_le _, possible⟩
  | cons action rest induction =>
    obtain ⟨next, stepped, ranRest⟩ := run_cons_eq_some_iff.mp ran
    obtain ⟨permitted, conformsRest⟩ := conforms
    rcases proceeds holds permitted stepped with reached | ⟨kept, bounded, falls⟩
    · refine .inl ⟨[action], next, rest, rfl, ?_, reached⟩
      exact run_cons_eq_some_iff.mpr ⟨next, stepped, rfl⟩
    · rcases induction kept ranRest (conformsRest next stepped) with
        ⟨before, middle, after, rfl, ranBefore, reached⟩ | ⟨safely, fewer, possible⟩
      · refine .inl ⟨action :: before, middle, after, rfl, ?_, reached⟩
        exact run_cons_eq_some_iff.mpr ⟨next, stepped, ranBefore⟩
      · refine .inr ⟨safely, ?_, possible⟩
        rw [countP_cons]
        split
        next mine =>
          have := falls mine
          omega
        next => omega

theorem eq_or_of_getElem?_set {Party : Type*} {parties : List Party} {place other : ℕ}
    {after party : Party} (atOther : (parties.set place after)[other]? = some party) :
    (other = place ∧ party = after) ∨ (other ≠ place ∧ parties[other]? = some party) := by
  rw [getElem?_set] at atOther
  by_cases same : place = other
  · rw [if_pos same] at atOther
    split at atOther
    · exact .inl ⟨same.symm, (Option.some.inj atOther).symm⟩
    · cases atOther
  · rw [if_neg same] at atOther
    exact .inr ⟨Ne.symm same, atOther⟩

theorem countP_set_add {Party : Type*} {parties : List Party} {place : ℕ} {before : Party}
    (after : Party) (phase : Party → Bool) (atPlace : parties[place]? = some before) :
    (parties.set place after).countP phase + (phase before).toNat =
      parties.countP phase + (phase after).toNat := by
  induction parties generalizing place with
  | nil => simp at atPlace
  | cons _ parties induction =>
    cases place with
    | zero =>
      cases atPlace
      simp only [set_cons_zero, countP_cons]
      cases phase before <;> cases phase after <;> simp
    | succ place =>
      have atTail : parties[place]? = some before := by
        simpa using atPlace
      have counted := induction atTail
      simp only [set_cons_succ, countP_cons]
      omega

end Purser.TransitionRuns
