import Mathlib.Data.List.Basic

/-!
# Routines that work under one lock

Calls wait for the lock, work under it step by step and give it back.  An
outline says what holds while the lock is free and what the holder knows at each
of its steps.
-/

namespace Purser.LockedSections

open List

variable {Call Local Shared : Type*}

structure Routine (Call Local Shared : Type*) where
  /-- What a call may bring when it asks for the lock. -/
  Arrives : Shared → Call → Local → Prop
  /-- One step of the call that has the lock. -/
  Works : Local → Shared → Local → Shared → Prop
  /-- The call gives the lock back. -/
  Finished : Local → Prop
  /-- What changes without the lock. -/
  Drifts : Shared → Shared → Prop

structure State (Local Shared : Type*) where
  waiting : List Local
  holder : Option Local
  shared : Shared

variable (routine : Routine Call Local Shared) (start : Shared)

inductive Step :
    State Local Shared → State Local Shared → Prop
  | acquire {before after : List Local} {call : Local} {shared : Shared} :
      Step ⟨before ++ call :: after, none, shared⟩ ⟨before ++ after, some call, shared⟩
  | work {waiting : List Local} {call next : Local} {shared later : Shared}
      (works : routine.Works call shared next later) :
      Step ⟨waiting, some call, shared⟩ ⟨waiting, some next, later⟩
  | release {waiting : List Local} {call : Local} {shared : Shared}
      (finished : routine.Finished call) :
      Step ⟨waiting, some call, shared⟩ ⟨waiting, none, shared⟩
  | drift {waiting : List Local} {holder : Option Local} {shared later : Shared}
      (drifts : routine.Drifts shared later) :
      Step ⟨waiting, holder, shared⟩ ⟨waiting, holder, later⟩

inductive Runs :
    List Call → State Local Shared → Prop
  | start : Runs [] ⟨[], none, start⟩
  | arrive {calls : List Call} {state : State Local Shared} {call : Call} {brought : Local}
      (runs : Runs calls state)
      (arrives : routine.Arrives state.shared call brought) :
      Runs (calls ++ [call]) { state with waiting := state.waiting ++ [brought] }
  | step {calls : List Call} {state later : State Local Shared}
      (runs : Runs calls state) (step : Step routine state later) :
      Runs calls later

structure Outline (Meets : Call → Prop) where
  Invariant : Shared → Prop
  Brought : Shared → Local → Prop
  Inside : Shared → Local → Prop
  brings : ∀ {shared call brought}, Meets call → Invariant shared →
    routine.Arrives shared call brought → Brought shared brought
  enters : ∀ {shared brought}, Invariant shared → Brought shared brought → Inside shared brought
  works : ∀ {call shared next later}, Invariant shared → Inside shared call →
    routine.Works call shared next later → Invariant later ∧ Inside later next
  keeps : ∀ {call shared next later brought}, Invariant shared → Inside shared call →
    routine.Works call shared next later → Brought shared brought → Brought later brought
  drifts : ∀ {shared later}, Invariant shared → routine.Drifts shared later → Invariant later
  drifts_brought : ∀ {shared later brought}, Invariant shared → routine.Drifts shared later →
    Brought shared brought → Brought later brought
  drifts_inside : ∀ {shared later call}, Invariant shared → routine.Drifts shared later →
    Inside shared call → Inside later call

namespace Outline

variable {routine : Routine Call Local Shared} {Meets : Call → Prop}
  (outline : Outline routine Meets)

structure Holds (state : State Local Shared) : Prop where
  shared : outline.Invariant state.shared
  waiting : ∀ brought ∈ state.waiting, outline.Brought state.shared brought
  holder : ∀ call, state.holder = some call → outline.Inside state.shared call

theorem holds_of_step {state later : State Local Shared} (holds : outline.Holds state)
    (step : Step routine state later) : outline.Holds later := by
  obtain ⟨shared, waiting, holder⟩ := holds
  cases step with
  | acquire =>
    refine ⟨shared, fun brought member => waiting brought ?_, ?_⟩
    · rw [mem_append] at member
      simp only [mem_append, mem_cons]
      exact member.imp_right Or.inr
    · rintro call ⟨⟩
      exact outline.enters shared (waiting _ (by simp))
  | work works =>
    have inside := holder _ rfl
    obtain ⟨later, next⟩ := outline.works shared inside works
    refine ⟨later, fun brought member => ?_, ?_⟩
    · exact outline.keeps shared inside works (waiting brought member)
    · rintro call ⟨⟩
      exact next
  | release =>
    refine ⟨shared, waiting, ?_⟩
    rintro call ⟨⟩
  | drift drifts =>
    refine ⟨outline.drifts shared drifts, fun brought member => ?_, fun call held => ?_⟩
    · exact outline.drifts_brought shared drifts (waiting brought member)
    · exact outline.drifts_inside shared drifts (holder call held)

/-- Every state of a run whose calls meet the condition. -/
theorem holds_of_runs {start : Shared} (starts : outline.Invariant start) {calls : List Call}
    {state : State Local Shared} (runs : Runs routine start calls state)
    (meets : ∀ call ∈ calls, Meets call) : outline.Holds state := by
  induction runs with
  | start =>
    refine ⟨starts, ?_, ?_⟩
    · rintro brought ⟨⟩
    · rintro call ⟨⟩
  | arrive runs arrives induction =>
    have holds := induction fun call member => meets call (mem_append_left _ member)
    refine ⟨holds.shared, fun brought member => ?_, holds.holder⟩
    rcases mem_append.mp member with earlier | last
    · exact holds.waiting brought earlier
    · rw [mem_singleton.mp last]
      exact outline.brings (meets _ (by simp)) holds.shared arrives
  | step runs step induction => exact outline.holds_of_step (induction meets) step

end Outline

end Purser.LockedSections
