import Purser.SupervisorStretches

/-!
# One engine for each node

Engines are left behind if a start comes before the previous engine is gone, if
a stop comes during a launch, or if a crash is reported of an engine that is
still there.  In every other run at most one engine is live.
-/

namespace Purser.Agent

open TransitionRuns List

variable {node : Node} {next : AgentState}

/-- What every orderly run keeps. -/
structure Exclusive (agent : AgentState) : Prop where
  counted : agent.node.shared.generation = agent.tasks.length
  numbered : ∀ index task, agent.tasks[index]? = some task → task.generation = index + 1
  latest : ∀ task ∈ agent.tasks, task.generation = agent.node.shared.generation →
    task.awaits.Fits agent.node.live
  launching : ∀ task ∈ agent.tasks, task.awaits.inLaunch = true →
    task.generation = agent.node.shared.generation ∧ agent.node.shared.stopping = false
  owned : ∀ engine ∈ agent.node.live, engine.generation = agent.node.shared.generation
  single : agent.node.live.length ≤ 1
  tracked : ∀ engine ∈ agent.node.live, agent.node.shared.handle = some engine.id ∨
    ∃ task ∈ agent.tasks, task.awaits.inLaunch = true
  calls : ∀ call ∈ agent.calls, call.Fits agent.node.live
  pending : ∀ call ∈ agent.calls, call.pending = true → agent.node.shared.stopping = true
  halting : agent.node.shared.stopping = true →
    ∀ engine ∈ agent.node.live, .stopping engine.id ∈ agent.calls

namespace Exclusive

variable {settings : Settings} {agent : AgentState}

theorem initial : Exclusive {} := by
  constructor <;> simp [Node.live]

/-- Engines that go away and changes of other parts do no harm. -/
theorem updateNode (exclusive : Exclusive agent) (fewer : node.live.Sublist agent.node.live)
    (handle : node.shared.handle = agent.node.shared.handle)
    (stopping : node.shared.stopping = agent.node.shared.stopping)
    (generation : node.shared.generation = agent.node.shared.generation) :
    Exclusive (agent.updateNode node) where
  counted := generation.trans exclusive.counted
  numbered := exclusive.numbered
  latest task member current :=
    (exclusive.latest task member (current.trans generation)).mono fewer.subset
  launching task member inLaunch := by
    obtain ⟨current, going⟩ := exclusive.launching task member inLaunch
    exact ⟨current.trans generation.symm, stopping.trans going⟩
  owned engine member := (exclusive.owned engine (fewer.subset member)).trans generation.symm
  single := fewer.length_le.trans exclusive.single
  tracked engine member := (exclusive.tracked engine (fewer.subset member)).imp_left handle.trans
  calls call member := (exclusive.calls call member).mono fewer.subset
  pending call member waits := stopping.trans (exclusive.pending call member waits)
  halting halted engine member :=
    exclusive.halting (stopping.symm.trans halted) engine (fewer.subset member)

theorem updateAlike (exclusive : Exclusive agent) (alike : agent.node.Alike node) :
    Exclusive (agent.updateNode node) :=
  exclusive.updateNode (alike.live ▸ .refl _) alike.handle alike.stopping alike.generation

end Exclusive

/-- Nothing is live, being launched or being stopped. -/
structure AgentState.Idle (agent : AgentState) : Prop where
  live : agent.node.live = []
  tasks : ∀ task ∈ agent.tasks, task.awaits.inLaunch = false
  calls : ∀ call ∈ agent.calls, call.pending = false

/-- A start waits until the agent is idle, a stop waits until a launch is over,
and the backend reports a crash only of an engine that is not live. -/
def Orderly (agent : AgentState) : Action → Prop
  | .start _ => agent.Idle
  | .startEngine request => request.port.isOk = true → agent.Idle
  | .stop _ | .drain => ∀ task ∈ agent.tasks, task.awaits.inLaunch = false
  | .resumeTask index _ input => ∀ task ∈ agent.tasks[index]?,
      ∀ crashed ∈ crashReport task.awaits input, ∀ engine ∈ agent.node.live, engine.id ≠ crashed
  | _ => True

namespace Exclusive

variable {settings : Settings} {agent : AgentState}

theorem start (exclusive : Exclusive agent) (idle : agent.Idle) (spec : EngineSpec) :
    Exclusive (agent.start spec) := by
  have none : (agent.start spec).node.live = [] := idle.live
  have launches : ∀ task ∈ (agent.start spec).tasks, task.awaits.inLaunch = false := by
    intro task member
    rcases mem_append.mp member with earlier | added
    · exact idle.tasks task earlier
    · rw [mem_singleton.mp added]
      rfl
  have numbered : ∀ index task, (agent.start spec).tasks[index]? = some task →
      task.generation = index + 1 := by
    intro index task found
    rcases Nat.lt_or_ge index agent.tasks.length with earlier | added
    · exact exclusive.numbered index task ((getElem?_append_left earlier).symm.trans found)
    · obtain ⟨place, rfl⟩ := Nat.exists_eq_add_of_le added
      have last := (getElem?_append_right added).symm.trans found
      rw [Nat.add_sub_cancel_left] at last
      cases place with
      | zero =>
        cases last
        exact congrArg (· + 1) exclusive.counted
      | succ => cases last
  exact {
    counted := by
      change agent.node.shared.generation + 1 = (agent.tasks ++ [_]).length
      rw [length_append, exclusive.counted]
      rfl
    numbered := numbered
    latest := fun task member _ => none ▸ task.awaits.fits_nil
    launching := fun task member inLaunch => by
      rw [launches task member] at inLaunch
      cases inLaunch
    owned := by
      rw [none]
      exact fun _ member => absurd member not_mem_nil
    single := by
      rw [none]
      exact Nat.zero_le 1
    tracked := by
      rw [none]
      exact fun _ member => absurd member not_mem_nil
    calls := fun call member => none ▸ call.fits_nil
    pending := fun call member waits => by
      rw [idle.calls call member] at waits
      cases waits
    halting := fun stopping => by cases stopping }

variable {task : Task} {place : ℕ}

theorem mem_wake {tasks : List Task} (member : task ∈ tasks.map Task.wake) :
    ∃ sleeper ∈ tasks, task.generation = sleeper.generation ∧
      task.awaits.inLaunch = sleeper.awaits.inLaunch ∧
      ∀ live, sleeper.awaits.Fits live → task.awaits.Fits live := by
  obtain ⟨sleeper, present, rfl⟩ := mem_map.mp member
  refine ⟨sleeper, present, ?_⟩
  unfold Task.wake
  split
  next waits => exact ⟨rfl, by rw [waits]; rfl, fun live fits => by rw [waits] at fits; exact fits⟩
  next waits => exact ⟨rfl, by rw [waits]; rfl, fun live fits => by rw [waits] at fits; exact fits⟩
  next waits => exact ⟨rfl, by rw [waits]; rfl, fun live fits => by rw [waits] at fits; exact fits⟩
  next => exact ⟨rfl, rfl, fun _ fits => fits⟩

theorem generation_wake (task : Task) : task.wake.generation = task.generation := by
  unfold Task.wake
  split <;> rfl

theorem stop_fields (agent : AgentState) : agent.stop.tasks = agent.tasks.map Task.wake ∧
      agent.stop.calls = agent.calls ++ [agent.node.shared.handle.elim .closingIdle .stopping] ∧
      agent.stop.node.live = agent.node.live ∧
      agent.stop.node.shared.handle = agent.node.shared.handle ∧
      agent.stop.node.shared.stopping = true ∧
      agent.stop.node.shared.generation = agent.node.shared.generation := by
  unfold AgentState.stop
  split
  next absent => exact ⟨rfl, by rw [absent]; rfl, rfl, rfl, rfl, rfl⟩
  next handle present => exact ⟨rfl, by rw [present]; rfl, rfl, rfl, rfl, rfl⟩

/-- A stop that comes between two launches finds the handle of the live engine. -/
theorem stop (exclusive : Exclusive agent)
    (unlaunched : ∀ task ∈ agent.tasks, task.awaits.inLaunch = false) : Exclusive agent.stop := by
  obtain ⟨tasks, calls, live, handle, stopping, generation⟩ := stop_fields agent
  have held : ∀ engine ∈ agent.node.live, agent.node.shared.handle = some engine.id := by
    intro engine member
    rcases exclusive.tracked engine member with held | ⟨task, present, inLaunch⟩
    · exact held
    · rw [unlaunched task present] at inLaunch
      cases inLaunch
  have fits : StopAwait.Fits agent.node.live
      (agent.node.shared.handle.elim .closingIdle .stopping) := by
    cases stored : agent.node.shared.handle with
    | none =>
      refine eq_nil_iff_forall_not_mem.mpr fun engine member => ?_
      cases stored.symm.trans (held engine member)
    | some =>
      intro engine member
      exact (Option.some.inj (stored.symm.trans (held engine member))).symm
  constructor
  · rw [generation, tasks, length_map, exclusive.counted]
  · intro index task found
    rw [tasks, getElem?_map] at found
    obtain ⟨sleeper, present, rfl⟩ := Option.map_eq_some_iff.mp found
    rw [generation_wake, exclusive.numbered index sleeper present]
  · intro task member current
    rw [tasks] at member
    obtain ⟨sleeper, present, same, _, fits⟩ := mem_wake member
    rw [live]
    exact fits _ (exclusive.latest sleeper present (same.symm.trans (current.trans generation)))
  · intro task member inLaunch
    rw [tasks] at member
    obtain ⟨sleeper, present, _, same, _⟩ := mem_wake member
    rw [same, unlaunched sleeper present] at inLaunch
    cases inLaunch
  · rw [live, generation]
    exact exclusive.owned
  · rw [live]
    exact exclusive.single
  · rw [live, handle]
    exact fun engine member => .inl (held engine member)
  · rw [live, calls]
    intro call member
    rcases mem_append.mp member with earlier | added
    · exact exclusive.calls call earlier
    · rw [mem_singleton.mp added]
      exact fits
  · exact fun _ _ _ => stopping
  · rw [live, calls]
    intro _ engine member
    rw [held engine member]
    exact mem_append_right _ (mem_singleton.mpr rfl)

theorem resumeStop (exclusive : Exclusive agent) {call : StopAwait}
    (found : agent.calls[place]? = some call) {input : StopInput} {next : StopAwait}
    (resumed : call.resume agent.node input = some (node, next)) :
    Exclusive { agent with node := node, calls := agent.calls.set place next } := by
  have halts := halts_of_resume resumed
  have present : call ∈ agent.calls := mem_of_getElem? found
  have stopping := exclusive.pending call present halts.pending
  have kept (other : StopAwait) (member : other ∈ agent.calls.set place next) :
      other ∈ agent.calls ∨ other = next :=
    mem_or_eq_of_mem_set member
  constructor
  · exact halts.generation.trans exclusive.counted
  · exact exclusive.numbered
  · intro task member current
    exact (exclusive.latest task member (current.trans halts.generation)).mono halts.fewer.subset
  · intro task member inLaunch
    have := (exclusive.launching task member inLaunch).2
    rw [stopping] at this
    cases this
  · intro engine member
    exact (exclusive.owned engine (halts.fewer.subset member)).trans halts.generation.symm
  · exact halts.fewer.length_le.trans exclusive.single
  · intro engine member
    have wasLive := halts.fewer.subset member
    rcases halts.handle with same | none
    · exact (exclusive.tracked engine wasLive).imp_left same.trans
    · rw [none (exclusive.calls call present)] at wasLive
      exact absurd wasLive not_mem_nil
  · intro other member
    rcases kept other member with earlier | rfl
    · exact (exclusive.calls other earlier).mono halts.fewer.subset
    · exact halts.fits (exclusive.calls call present)
  · exact fun _ _ _ => halts.stopping.trans stopping
  · intro _ engine member
    have waits := exclusive.halting stopping engine (halts.fewer.subset member)
    obtain ⟨other, atOther⟩ := mem_iff_getElem?.mp waits
    have different : place ≠ other := by
      rintro rfl
      exact halts.stopped engine.id (Option.some.inj (found.symm.trans atOther)) engine member rfl
    exact mem_of_getElem? ((getElem?_set_ne different).trans atOther)

structure Continues (agent : AgentState) (place : ℕ) (task : Task) (result : Node × Task) :
    Prop where
  stopping : result.1.shared.stopping = agent.node.shared.stopping
  generation : result.1.shared.generation = agent.node.shared.generation
  own : result.2.generation = task.generation
  live : result.1.live = agent.node.live ∨ ∃ engine, result.1.live = [engine] ∧
    engine.generation = agent.node.shared.generation ∧
    task.generation = agent.node.shared.generation ∧ agent.node.shared.stopping = false
  latest : task.generation = agent.node.shared.generation → result.2.awaits.Fits result.1.live
  launching : result.2.awaits.inLaunch = true →
    task.generation = agent.node.shared.generation ∧ agent.node.shared.stopping = false
  tracked : ∀ engine ∈ result.1.live, result.1.shared.handle = some engine.id ∨
    result.2.awaits.inLaunch = true ∨
    ∃ other task, other ≠ place ∧ agent.tasks[other]? = some task ∧ task.awaits.inLaunch = true

section

variable (exclusive : Exclusive agent) (found : agent.tasks[place]? = some task)

include exclusive found

/-- The handle of a live engine is stored, or another task is launching it,
unless the task at hand is. -/
theorem tracked_elsewhere (served : task.awaits.inLaunch = true → agent.node.live = [])
    {engine : Engine} (member : engine ∈ agent.node.live) :
    agent.node.shared.handle = some engine.id ∨
      ∃ other task, other ≠ place ∧ agent.tasks[other]? = some task ∧
        task.awaits.inLaunch = true := by
  refine (exclusive.tracked engine member).imp_right ?_
  rintro ⟨launcher, present, inLaunch⟩
  obtain ⟨other, atOther⟩ := mem_iff_getElem?.mp present
  refine ⟨other, launcher, ?_, atOther, inLaunch⟩
  rintro rfl
  rw [← Option.some.inj (found.symm.trans atOther)] at inLaunch
  rw [served inLaunch] at member
  exact absurd member not_mem_nil

theorem continues_of_resume {clock : Clock} {input : Input}
    (honest : ∀ crashed ∈ crashReport task.awaits input,
      ∀ engine ∈ agent.node.live, engine.id ≠ crashed) {result : Node × Task}
    (resumed : task.resume settings agent.node clock input = some result) :
    Continues agent place task result := by
  have present : task ∈ agent.tasks := mem_of_getElem? found
  have launcher (inLaunch : task.awaits.inLaunch = true) : task.awaits.Fits agent.node.live :=
    exclusive.latest task present (exclusive.launching task present inLaunch).1
  rcases stretch_of_resume resumed with ⟨launching, settled⟩ |
    ⟨uninterrupted, unlaunched, waited, alike, own, launching⟩ |
    ⟨engine, live, launching, generation, serves⟩ | ⟨handle, inLaunch, waited, serves⟩
  · have served (inLaunch : task.awaits.inLaunch = true) : agent.node.live = [] := by
      have fits := launcher inLaunch
      rw [launching inLaunch] at fits
      exact fits
    refine ⟨settled.alike.stopping, settled.alike.generation, settled.own,
      .inl settled.alike.live, fun current => ?_, fun inLaunch => ?_, ?_⟩
    · rw [settled.alike.live]
      exact settled.fits _ ⟨exclusive.latest task present current, honest⟩
    · rw [settled.unlaunched] at inLaunch
      cases inLaunch
    · rw [settled.alike.live, settled.alike.handle]
      exact fun engine member =>
        (exclusive.tracked_elsewhere found served member).imp_right .inr
  · rw [Node.interrupted, Bool.or_eq_false_iff] at uninterrupted
    have current : task.generation = agent.node.shared.generation :=
      (of_decide_eq_false uninterrupted.1 |> not_not.mp).symm
    have none := waited _ (exclusive.latest task present current)
    refine ⟨alike.stopping, alike.generation, own, .inl alike.live, fun _ => ?_,
      fun _ => ⟨current, uninterrupted.2⟩, ?_⟩
    · rw [alike.live, none]
      exact Await.fits_nil _
    · rw [alike.live, none]
      exact fun _ member => absurd member not_mem_nil
  · have inLaunch : task.awaits.inLaunch = true := by rw [launching]; rfl
    obtain ⟨current, going⟩ := exclusive.launching task present inLaunch
    have none : agent.node.live = [] := by
      have fits := launcher inLaunch
      rw [launching] at fits
      exact fits
    have alone : result.1.live = [engine] := by
      rw [Node.live, serves.engines, filter_append, ← Node.live, none, filter_cons_of_pos live]
      rfl
    refine ⟨serves.stopping, serves.generation, serves.own,
      .inr ⟨engine, alone, generation.trans current, current, going⟩, fun _ => ?_,
      fun _ => ⟨current, going⟩, ?_⟩
    · rw [alone]
      refine serves.fits _ fun other member => ?_
      rw [mem_singleton.mp member]
    · rw [alone]
      intro other member
      rw [mem_singleton.mp member]
      exact serves.held.imp_right .inl
  · have launching := exclusive.launching task present inLaunch
    have fits := launcher inLaunch
    have same : result.1.live = agent.node.live := by
      rw [Node.live, serves.engines, append_nil, ← Node.live]
    refine ⟨serves.stopping, serves.generation, serves.own, .inl same, fun _ => ?_,
      fun _ => launching, ?_⟩
    · rw [same]
      exact serves.fits _ (waited _ fits)
    · rw [same]
      intro engine member
      rw [waited _ fits engine member]
      exact serves.held.imp_right .inl

theorem replaceTask {next : Task} (continues : Continues agent place task (node, next)) :
    Exclusive { agent with node := node, tasks := agent.tasks.set place next } := by
  have within : place < agent.tasks.length := (List.getElem?_eq_some_iff.mp found).1
  have placed : (agent.tasks.set place next)[place]? = some next :=
    getElem?_set_self within
  have number := exclusive.numbered place task found
  have numbered : ∀ other task, (agent.tasks.set place next)[other]? = some task →
      task.generation = other + 1 := by
    intro other task atOther
    rcases eq_or_of_getElem?_set atOther with ⟨rfl, rfl⟩ | ⟨_, unchanged⟩
    · exact continues.own.trans number
    · exact exclusive.numbered other task unchanged
  constructor
  · exact continues.generation.trans (exclusive.counted.trans length_set.symm)
  · exact numbered
  · intro running member current
    obtain ⟨other, atOther⟩ := mem_iff_getElem?.mp member
    rcases eq_or_of_getElem?_set atOther with ⟨rfl, rfl⟩ | ⟨different, unchanged⟩
    · exact continues.latest (continues.own.symm.trans (current.trans continues.generation))
    · rcases continues.live with same | ⟨engine, alone, _, latest, going⟩
      · rw [same]
        exact exclusive.latest running (mem_of_getElem? unchanged)
          (current.trans continues.generation)
      · have := exclusive.numbered other running unchanged
        have := current.trans continues.generation
        omega
  · intro running member inLaunch
    rw [continues.generation, continues.stopping]
    obtain ⟨other, atOther⟩ := mem_iff_getElem?.mp member
    rcases eq_or_of_getElem?_set atOther with ⟨rfl, rfl⟩ | ⟨different, unchanged⟩
    · exact ⟨continues.own.trans (continues.launching inLaunch).1, (continues.launching inLaunch).2⟩
    · exact exclusive.launching running (mem_of_getElem? unchanged) inLaunch
  · intro engine member
    rw [continues.generation]
    rcases continues.live with same | ⟨launched, alone, generation, _⟩
    · exact exclusive.owned engine (same ▸ member)
    · rw [alone] at member
      rw [mem_singleton.mp member, generation]
  · rcases continues.live with same | ⟨launched, alone, _⟩
    · rw [same]
      exact exclusive.single
    · rw [alone]
      rfl
  · intro engine member
    rcases continues.tracked engine member with held | inLaunch |
      ⟨other, launcher, different, atOther, inLaunch⟩
    · exact .inl held
    · exact .inr ⟨next, mem_of_getElem? placed, inLaunch⟩
    · have unchanged : (agent.tasks.set place next)[other]? = some launcher :=
        (getElem?_set_ne (Ne.symm different)).trans atOther
      exact .inr ⟨launcher, mem_of_getElem? unchanged, inLaunch⟩
  · intro call member
    rcases continues.live with same | ⟨launched, alone, _, _, going⟩
    · rw [same]
      exact exclusive.calls call member
    · refine StopAwait.fits_of_returned (Bool.eq_false_iff.mpr fun waits => ?_) _
      have stopping := exclusive.pending call member waits
      rw [going] at stopping
      cases stopping
  · exact fun call member waits =>
      continues.stopping.trans (exclusive.pending call member waits)
  · intro stopping engine member
    have stopping := continues.stopping.symm.trans stopping
    rcases continues.live with same | ⟨launched, alone, _, _, going⟩
    · exact exclusive.halting stopping engine (same ▸ member)
    · rw [going] at stopping
      cases stopping

end

theorem updateStream (exclusive : Exclusive agent) {change : EventChannel → EventChannel}
    (updated : agent.updateStream place change = some next) : Exclusive next := by
  obtain ⟨task, found, rfl⟩ := Option.map_eq_some_iff.mp updated
  have present : task ∈ agent.tasks := mem_of_getElem? found
  refine exclusive.replaceTask found ⟨rfl, rfl, rfl, .inl rfl, exclusive.latest task present,
    exclusive.launching task present, fun engine member => ?_⟩
  by_cases inLaunch : task.awaits.inLaunch = true
  · exact .inr (.inl inLaunch)
  · exact (exclusive.tracked_elsewhere found (absurd · inLaunch) member).imp_right .inr

theorem step (exclusive : Exclusive agent) {action : Action} (orderly : Orderly agent action)
    (stepped : agent.step settings action = some next) : Exclusive next := by
  cases action with
  | start spec =>
    cases stepped
    exact exclusive.start orderly spec
  | stop =>
    cases stepped
    exact exclusive.stop orderly
  | startEngine =>
    cases stepped
    have forwarded : Exclusive (agent.updateNode
        { agent.node with machine := agent.node.machine.fastForward }) :=
      exclusive.updateAlike ⟨rfl, rfl, rfl, rfl⟩
    unfold AgentState.startEngine
    split
    next port allocated =>
      have idle : agent.Idle := orderly (by rw [allocated]; rfl)
      exact forwarded.start ⟨idle.live, idle.tasks, idle.calls⟩ _
    next => exact forwarded
  | drain =>
    cases stepped
    have drained : Exclusive (agent.updateNode (agent.node.driveState .draining)) :=
      exclusive.updateAlike ⟨rfl, rfl, rfl, rfl⟩
    exact drained.stop orderly
  | join | heartbeatMiss | heartbeatAck =>
    cases stepped
    exact exclusive.updateAlike ⟨rfl, rfl, rfl, rfl⟩
  | resumeStop =>
    obtain ⟨waiting, node, after, found, resumed, rfl⟩ := AgentState.exists_of_resumeStop stepped
    exact exclusive.resumeStop found resumed
  | resumeTask =>
    obtain ⟨task, node, after, found, resumed, rfl⟩ := AgentState.exists_of_resumeTask stepped
    exact exclusive.replaceTask found
      (exclusive.continues_of_resume found (orderly task found) resumed)
  | exit id =>
    cases stepped
    refine exclusive.updateNode ?_ rfl rfl rfl
    rw [live_haltEngine]
    exact filter_sublist
  | read | drop =>
    rw [AgentState.step] at stepped
    exact exclusive.updateStream stepped

end Exclusive

inductive SupervisorCall where
  | start
  | stop
  deriving DecidableEq

def Action.call? : Action → Option SupervisorCall
  | .start _ => some .start
  | .startEngine request => if request.port.isOk then some .start else none
  | .stop _ | .drain => some .stop
  | _ => none

def latestCall (actions : List Action) : Option SupervisorCall :=
  (actions.filterMap Action.call?).getLast?

theorem latestCall_concat (before : List Action) (action : Action) :
    latestCall (before ++ [action]) = action.call?.or (latestCall before) := by
  cases called : action.call? <;> simp [called, latestCall]

theorem refused_of_uncalled {request : StartRequest}
    (uncalled : (Action.startEngine request).call? = none) : request.port.isOk = false := by
  rw [Action.call?] at uncalled
  split at uncalled
  · cases uncalled
  next refused => exact Bool.eq_false_iff.mpr refused

theorem stopping_of_step {settings : Settings} {agent : AgentState} {action : Action}
    (uncalled : action.call? = none) (stepped : agent.step settings action = some next) :
    next.node.shared.stopping = agent.node.shared.stopping := by
  cases action with
  | start | stop | drain => cases uncalled
  | startEngine =>
    cases stepped
    rw [AgentState.startEngine_of_refused (refused_of_uncalled uncalled)]
    rfl
  | join | heartbeatMiss | heartbeatAck | exit =>
    cases stepped
    rfl
  | resumeStop =>
    obtain ⟨waiting, node, after, found, resumed, rfl⟩ := AgentState.exists_of_resumeStop stepped
    exact (halts_of_resume resumed).stopping
  | resumeTask =>
    obtain ⟨task, node, after, found, resumed, rfl⟩ := AgentState.exists_of_resumeTask stepped
    exact (stretch_of_resume resumed).kept.1
  | read index | drop index =>
    obtain ⟨task, found, rfl⟩ := Option.map_eq_some_iff.mp stepped
    rfl

/-- The task has nothing to do until its engine, the clock or a stop wakes it. -/
def Await.settled : Await → Bool
  | .receiving _ _ woken | .resting _ woken => !woken
  | .finished => true
  | _ => false

/-- No call is in progress and the spawned tasks have settled. -/
structure AgentState.Quiet (agent : AgentState) : Prop where
  calls : ∀ call ∈ agent.calls, call.pending = false
  tasks : ∀ task ∈ agent.tasks, task.awaits.settled = true

/-- At most one engine is live, it is the one of the latest start, and there is
none after a stop. -/
structure OneEngine (latest : Option SupervisorCall) (agent : AgentState) : Prop where
  single : agent.node.live.length ≤ 1
  owned : ∀ engine ∈ agent.node.live, engine.generation = agent.node.shared.generation
  stopped : latest = some .stop → agent.node.live = []

section Decisions

variable (agent : AgentState)

instance : Decidable agent.Quiet :=
  decidable_of_iff (_ ∧ _) ⟨fun quiet => ⟨quiet.1, quiet.2⟩, fun quiet => ⟨quiet.1, quiet.2⟩⟩

instance : Decidable agent.Idle :=
  decidable_of_iff (_ ∧ _ ∧ _)
    ⟨fun idle => ⟨idle.1, idle.2.1, idle.2.2⟩, fun idle => ⟨idle.1, idle.2, idle.3⟩⟩

instance (latest : Option SupervisorCall) : Decidable (OneEngine latest agent) :=
  decidable_of_iff (_ ∧ _ ∧ _)
    ⟨fun one => ⟨one.1, one.2.1, one.2.2⟩, fun one => ⟨one.1, one.2, one.3⟩⟩

instance decidableOrderly : (action : Action) → Decidable (Orderly agent action)
  | .start _ => inferInstanceAs (Decidable agent.Idle)
  | .startEngine request => inferInstanceAs (Decidable (request.port.isOk = true → agent.Idle))
  | .stop _ | .drain =>
    inferInstanceAs (Decidable (∀ task ∈ agent.tasks, task.awaits.inLaunch = false))
  | .resumeTask index _ input =>
    inferInstanceAs (Decidable (∀ task ∈ agent.tasks[index]?,
      ∀ crashed ∈ crashReport task.awaits input, ∀ engine ∈ agent.node.live, engine.id ≠ crashed))
  | .join | .heartbeatMiss | .heartbeatAck | .resumeStop _ _ | .exit _ | .read _ | .drop _ =>
    isTrue trivial

end Decisions

/-- In every orderly run at most one engine is live whenever the agent is quiet,
it belongs to the latest start, and a stop leaves none. -/
theorem one_engine_of_orderly {settings : Settings} {actions : List Action}
    {agent : AgentState} (ran : run (AgentState.step settings) {} actions = some agent)
    (orderly : Conforms (AgentState.step settings) Orderly {} actions)
    (quiet : agent.Quiet) : OneEngine (latestCall actions) agent := by
  obtain ⟨exclusive, stopping⟩ : Exclusive agent ∧
      (latestCall actions = some .stop → agent.node.shared.stopping = true) := by
    refine run_induction (motive := fun actions agent => Exclusive agent ∧
        (latestCall actions = some .stop → agent.node.shared.stopping = true))
      ⟨Exclusive.initial, by rintro ⟨⟩⟩ ?_ ran orderly
    intro before state action after known permitted stepped
    refine ⟨known.1.step permitted stepped, fun latest => ?_⟩
    rw [latestCall_concat] at latest
    cases called : action.call? with
    | none =>
      rw [called] at latest
      exact (stopping_of_step called stepped).trans (known.2 latest)
    | some =>
      rw [called] at latest
      cases latest
      cases action with
      | stop | drain =>
        cases stepped
        exact (Exclusive.stop_fields _).2.2.2.2.1
      | startEngine =>
        rw [Action.call?] at called
        split at called <;> cases called
      | _ => cases called
  refine ⟨exclusive.single, exclusive.owned, fun latest => ?_⟩
  refine eq_nil_iff_forall_not_mem.mpr fun engine member => ?_
  have waits := exclusive.halting (stopping latest) engine member
  cases quiet.calls _ waits

def comesUp (index : ℕ) (handle : String) : List Action :=
  [.resumeTask index {} .polled, .resumeTask index {} (.launched (.ok ⟨handle, ""⟩)),
    .resumeTask index {} (.event ⟨.ready, "engine ready to serve", none⟩),
    .resumeTask index {} .sent,
    .resumeTask index {} .closed]

def llamaWorker : EngineSpec := { modelRef := "llama", role := .worker, layerEnd := 15 }

def qwenWorker : EngineSpec := { modelRef := "qwen", role := .worker, layerEnd := 23 }

/-- A second start comes while the engine of the first one serves.  The first
task ends at its next poll. -/
def overlappingStarts : List Action := .start llamaWorker :: comesUp 0 "mock-worker-0001" ++
    .start qwenWorker :: .resumeTask 0 {} .elapsed :: comesUp 1 "mock-worker-0002"

def stopDuringLaunch : List Action :=
  [.start llamaWorker, .resumeTask 0 {} .polled, .stop "", .resumeStop 0 .shutDown] ++
    (comesUp 0 "mock-worker-0001").tail

/-- An engine that stays up reports an error. -/
def falseAlarm : List Action := .start llamaWorker :: (comesUp 0 "mock-worker-0001").dropLast ++
    [.resumeTask 0 {} (.event (errEvent "out of memory")),
      .resumeTask 0 {} .sent, .resumeTask 0 {} .sent, .resumeTask 0 {} .elapsed] ++
    (comesUp 0 "mock-worker-0002").tail

/-- The agent has become quiet after the run, with an engine too many. -/
def LeavesEngine (actions : List Action) : Prop := ∃ agent ∈ run (AgentState.step {}) {} actions,
    agent.Quiet ∧ ¬ OneEngine (latestCall actions) agent

instance (actions : List Action) : Decidable (LeavesEngine actions) :=
  inferInstanceAs (Decidable (∃ agent ∈ run (AgentState.step {}) {} actions, _))

theorem engine_left_behind :
    LeavesEngine overlappingStarts ∧ LeavesEngine stopDuringLaunch ∧ LeavesEngine falseAlarm := by
  decide +kernel

def successiveStarts : List Action := .start llamaWorker :: comesUp 0 "mock-worker-0001" ++
    [.stop "", .resumeStop 0 (.stopped (.ok "stopped")), .resumeStop 0 .settled,
      .resumeStop 0 .shutDown, .resumeTask 0 {} .notified] ++
    .start qwenWorker :: comesUp 1 "mock-worker-0002"

theorem one_engine_of_successive_starts : ∃ agent ∈ run (AgentState.step {}) {} successiveStarts,
      agent.node.live.map Engine.id = ["mock-worker-0002"] ∧
        OneEngine (latestCall successiveStarts) agent := by
  have ends : ∃ agent ∈ run (AgentState.step {}) {} successiveStarts,
      agent.node.live.map Engine.id = ["mock-worker-0002"] ∧ agent.Quiet := by
    decide +kernel
  obtain ⟨agent, ran, live, quiet⟩ := ends
  exact ⟨agent, ran, live, one_engine_of_orderly ran (by decide +kernel) quiet⟩

end Purser.Agent
