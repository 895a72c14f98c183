import Purser.AgentTasks

/-!
# What a stretch of a supervise task or of a stop call can do

For each await there is a set of engines that may be live while the latest task
waits there.  A stretch keeps within these sets, provided that a crash is only
reported of an engine that is gone.
-/

namespace Purser.Agent

open List

variable {clock : Clock} {input : Input}

structure Node.Alike (node next : Node) : Prop where
  engines : next.engines = node.engines
  handle : next.shared.handle = node.shared.handle
  stopping : next.shared.stopping = node.shared.stopping
  generation : next.shared.generation = node.shared.generation

namespace Node.Alike

variable {node middle next : Node}

theorem refl (node : Node) : node.Alike node := ⟨rfl, rfl, rfl, rfl⟩

theorem trans (first : node.Alike middle) (second : middle.Alike next) : node.Alike next where
  engines := second.engines.trans first.engines
  handle := second.handle.trans first.handle
  stopping := second.stopping.trans first.stopping
  generation := second.generation.trans first.generation

theorem live (alike : node.Alike next) : next.live = node.live := by
  rw [Node.live, Node.live, alike.engines]

end Node.Alike

/-- From the call of the backend until the handle is stored. -/
def Await.inLaunch : Await → Bool
  | .launching | .freeingPort _ _ | .binding _ _ => true
  | _ => false

def Await.Fits (live : List Engine) : Await → Prop
  | .freeingPort handle _ | .binding handle _ | .receiving handle _ _ | .resting handle _
  | .polling handle => ∀ engine ∈ live, engine.id = handle
  | .forwarding handle _ event =>
    (∀ engine ∈ live, engine.id = handle) ∧ (event.kind = .error → live = [])
  | .finished => True
  | _ => live = []

theorem Await.fits_nil (awaits : Await) : awaits.Fits [] := by
  cases awaits <;> simp [Await.Fits]

theorem Await.Fits.mono {awaits : Await} {live fewer : List Engine} (fits : awaits.Fits live)
    (subset : fewer ⊆ live) : awaits.Fits fewer := by
  by_cases none : live = []
  · subst none
    rw [subset_nil.mp subset]
    exact awaits.fits_nil
  · cases awaits with
    | freeingPort | binding | receiving | resting | polling =>
      exact fun engine member => fits engine (subset member)
    | forwarding =>
      exact ⟨fun engine member => fits.1 engine (subset member),
        fun failed => absurd (fits.2 failed) none⟩
    | finished => trivial
    | _ => exact absurd fits none

def crashReport : Await → Input → Option String
  | .receiving handle _ _, .event event => if event.kind = .error then some handle else none
  | .receiving handle false _, .closed => some handle
  | .polling _, .metrics (.error (.notReady _)) => none
  | .polling _, .metrics (.error (.unavailable _)) => none
  | .polling handle, .metrics (.error _) => some handle
  | _, _ => none

section Stretches

variable (settings : Settings) (node : Node) (task : Task)

structure Settles (allowed : List Engine → Prop) (result : Node × Task) : Prop where
  alike : node.Alike result.1
  own : result.2.generation = task.generation
  unlaunched : result.2.awaits.inLaunch = false
  fits : ∀ live, allowed live → result.2.awaits.Fits live

variable {settings node task}

variable {allowed : List Engine → Prop} {result : Node × Task} {report : Option String}
  {await : Await}

theorem Settles.imp {stronger : List Engine → Prop} (settles : Settles node task allowed result)
    (implies : ∀ live, stronger live → allowed live) : Settles node task stronger result :=
  { settles with fits := fun live known => settles.fits live (implies live known) }

theorem Settles.ofSent {out : EventChannel}
    (settles : Settles node { task with out := out } allowed result) :
    Settles node task allowed result :=
  ⟨settles.alike, settles.own, settles.unlaunched, settles.fits⟩

theorem settles_leave : Settles node task (fun _ => True) (task.leave node) where
  alike := by
    rw [Task.leave]
    split
    · exact ⟨rfl, rfl, rfl, rfl⟩
    · exact Node.Alike.refl node
  own := rfl
  unlaunched := rfl
  fits _ _ := trivial

theorem settles_restart (wasReady : Bool) (clock : Clock) :
    Settles node task (· = []) (task.restart settings node wasReady clock) := by
  unfold Task.restart
  dsimp only
  split <;> exact ⟨⟨rfl, rfl, rfl, rfl⟩, rfl, rfl, fun _ none => none⟩

theorem settles_crash (wasReady : Bool) (clock : Clock) :
    Settles node task (· = []) (task.crash settings node wasReady clock) := by
  unfold Task.crash
  split
  · exact settles_leave.imp fun _ _ => trivial
  · exact settles_restart wasReady clock

variable (handle : String) (sawReady : Bool) (event : EngineEvent)

theorem settles_monitor :
    Settles node task (∀ engine ∈ ·, engine.id = handle) (task.monitor node handle) := by
  unfold Task.monitor
  split
  · exact settles_leave.imp fun _ _ => trivial
  · exact ⟨Node.Alike.refl node, rfl, rfl, fun _ same => same⟩

theorem settles_received :
    Settles node task
      (fun live => (∀ engine ∈ live, engine.id = handle) ∧ (event.kind = .error → live = []))
      (task.received node handle sawReady event) := by
  have sampled : node.Alike (event.metrics.elim node node.setMetrics) := by
    cases event.metrics with
    | none => exact Node.Alike.refl node
    | some => exact ⟨rfl, rfl, rfl, rfl⟩
  unfold Task.received
  split
  · exact ⟨sampled.trans ⟨rfl, rfl, rfl, rfl⟩, rfl, rfl, fun _ fits => fits⟩
  · exact ⟨sampled.trans ⟨rfl, rfl, rfl, rfl⟩, rfl, rfl, fun _ fits => fits⟩
  · exact ⟨sampled.trans ⟨rfl, rfl, rfl, rfl⟩, rfl, rfl, fun _ fits => fits⟩
  · exact ⟨sampled, rfl, rfl, fun _ fits => fits⟩

theorem settles_forwarded (clock : Clock) (delivered : Bool) :
    Settles node task (Await.Fits · (.forwarding handle sawReady event))
      (task.forwarded settings node handle sawReady event clock delivered) := by
  unfold Task.forwarded
  split
  · exact settles_leave.imp fun _ _ => trivial
  · split
    next failed => exact (settles_crash false clock).imp fun _ fits => fits.2 failed
    next => exact ⟨Node.Alike.refl node, rfl, rfl, fun _ fits => fits.1⟩

theorem eq_nil_of_gone {live : List Engine} {handle : String}
    (same : ∀ engine ∈ live, engine.id = handle) (away : ∀ engine ∈ live, engine.id ≠ handle) :
    live = [] :=
  eq_nil_iff_forall_not_mem.mpr fun engine member =>
    away engine member (same engine member)

theorem settles_sampled (answer : Except EngineError EngineMetrics) :
    Settles node task (fun live => (∀ engine ∈ live, engine.id = handle) ∧
        ∀ crashed ∈ crashReport (.polling handle) (.metrics answer),
          ∀ engine ∈ live, engine.id ≠ crashed)
      (task.sampled node handle answer) := by
  unfold Task.sampled
  split
  next metrics =>
    have settled : Settles (node.setMetrics metrics)
        { task with out := task.out.offer (metricsEvent metrics) } _ _ :=
      settles_monitor handle
    have alike : node.Alike (node.setMetrics metrics) := ⟨rfl, rfl, rfl, rfl⟩
    exact ⟨alike.trans settled.alike, settled.own,
      settled.unlaunched, fun live known => settled.fits live known.1⟩
  next => exact (settles_monitor handle).imp fun _ known => known.1
  next => exact settles_leave.imp fun _ _ => trivial
  next detail =>
    exact ⟨⟨rfl, rfl, rfl, rfl⟩, rfl, rfl,
      fun live known => eq_nil_of_gone known.1 (known.2 handle rfl)⟩
  next problem notReady unavailable crashed =>
    refine ⟨Node.Alike.refl node, rfl, rfl, fun live known => eq_nil_of_gone known.1 (known.2 handle ?_)⟩
    cases problem <;> first | rfl | simp_all
variable (node task) in
structure Serves (handle : String) (launched : List Engine) (result : Node × Task) :
    Prop where
  engines : result.1.engines = node.engines ++ launched
  stopping : result.1.shared.stopping = node.shared.stopping
  generation : result.1.shared.generation = node.shared.generation
  own : result.2.generation = task.generation
  held : result.1.shared.handle = some handle ∨ result.2.awaits.inLaunch = true
  fits : ∀ live : List Engine, (∀ engine ∈ live, engine.id = handle) → result.2.awaits.Fits live

theorem serves_launched (started : Started) : Serves node task started.handle
      [⟨started.handle, task.generation, task.spec.launch, true⟩]
      (task.launched settings node started) := by
  unfold Task.launched
  split
  · exact ⟨rfl, rfl, rfl, rfl, .inl rfl, fun _ same => same⟩
  · exact ⟨rfl, rfl, rfl, rfl, .inl rfl, fun _ same => same⟩
  · exact ⟨rfl, rfl, rfl, rfl, .inr rfl, fun _ same => same⟩

theorem serves_pump {handle endpoint : String} (answer : Except String ℕ) :
    Serves node task handle [] (task.pump (Task.serving node endpoint answer) handle) := by
  have alike : node.Alike (Task.serving node endpoint answer) := by
    cases answer with
    | ok | error => exact ⟨rfl, rfl, rfl, rfl⟩
  exact ⟨alike.engines.trans (append_nil _).symm, alike.stopping, alike.generation, rfl,
    .inl rfl, fun _ same => same⟩

variable (node task) in
inductive Stretch (report : Option String) (result : Node × Task) : Prop where
  | settles (launching : task.awaits.inLaunch = true → task.awaits = .launching)
      (settled : Settles node task (fun live => task.awaits.Fits live ∧
        ∀ crashed ∈ report, ∀ engine ∈ live, engine.id ≠ crashed) result)
  | relaunches (uninterrupted : node.interrupted task.generation = false)
      (unlaunched : task.awaits.inLaunch = false)
      (waited : ∀ live, task.awaits.Fits live → live = [])
      (alike : node.Alike result.1) (own : result.2.generation = task.generation)
      (launching : result.2.awaits = .launching)
  | launches (engine : Engine) (live : engine.live = true)
      (launching : task.awaits = .launching) (generation : engine.generation = task.generation)
      (serves : Serves node task engine.id [engine] result)
  | serves (handle : String) (inLaunch : task.awaits.inLaunch = true)
      (waited : ∀ live, task.awaits.Fits live → ∀ engine ∈ live, engine.id = handle)
      (serves : Serves node task handle [] result)

section

variable (stretch : Stretch node task report result)

include stretch

theorem Stretch.kept : result.1.shared.stopping = node.shared.stopping ∧
      result.1.shared.generation = node.shared.generation ∧
      result.2.generation = task.generation := by
  cases stretch with
  | settles _ settled => exact ⟨settled.alike.stopping, settled.alike.generation, settled.own⟩
  | relaunches _ _ _ alike own => exact ⟨alike.stopping, alike.generation, own⟩
  | launches _ _ _ _ serves | serves _ _ _ serves =>
    exact ⟨serves.stopping, serves.generation, serves.own⟩

end

section

variable (waits : task.awaits = await)

include waits

theorem stretch_iterate (attempt : ℕ) (unlaunched : await.inLaunch = false)
    (waited : ∀ live, await.Fits live → live = []) :
    Stretch node task report ({ task with attempt := attempt }.iterate node) := by
  subst waits
  unfold Task.iterate
  split
  · refine .settles (fun launching => ?_) ?_
    · rw [unlaunched] at launching
      cases launching
    · exact ⟨settles_leave.alike, rfl, rfl, fun _ _ => trivial⟩
  next uninterrupted =>
    exact .relaunches (Bool.eq_false_iff.mpr uninterrupted) unlaunched waited
      ⟨rfl, rfl, rfl, rfl⟩ rfl rfl

theorem stretch_settles (settled : Settles node task allowed result)
    (unlaunched : await.inLaunch = false) (implies : ∀ live, await.Fits live →
      (∀ crashed ∈ report, ∀ engine ∈ live, engine.id ≠ crashed) → allowed live) :
    Stretch node task report result := by
  subst waits
  refine .settles (fun launching => ?_) (settled.imp fun live known =>
    implies live known.1 known.2)
  rw [unlaunched] at launching
  cases launching

end

theorem stretch_of_resume (resumed : task.resume settings node clock input = some result) :
    Stretch node task (crashReport task.awaits input) result := by
  revert resumed
  fun_cases Task.resume settings node task clock input with
  | case1 waits =>
    rintro ⟨⟩
    exact stretch_iterate waits task.attempt rfl fun _ none => none
  | case2 => rintro ⟨⟩
  | case3 started waits =>
    rintro ⟨⟩
    exact .launches ⟨started.handle, task.generation, task.spec.launch, true⟩ rfl waits rfl
      (serves_launched started)
  | case4 _ waits =>
    rintro ⟨⟩
    refine .settles (fun _ => waits) ⟨Node.Alike.refl node, rfl, rfl, fun live known => ?_⟩
    rw [waits] at known
    exact known.1
  | case5 handle _ waits =>
    rintro ⟨⟩
    refine .serves handle (by rw [waits]; rfl) (fun live fits => ?_)
      ⟨(append_nil _).symm, rfl, rfl, rfl, .inr rfl, fun _ same => same⟩
    rw [waits] at fits
    exact fits
  | case6 handle _ answer waits =>
    rintro ⟨⟩
    refine .serves handle (by rw [waits]; rfl) (fun live fits => ?_) (serves_pump answer)
    rw [waits] at fits
    exact fits
  | case7 handle sawReady _ event waits =>
    rintro ⟨⟩
    rw [waits]
    refine stretch_settles waits (settles_received handle sawReady event) rfl ?_
    intro live same honest
    refine ⟨same, fun failed => eq_nil_of_gone same (honest handle ?_)⟩
    rw [crashReport, if_pos failed]
    rfl
  | case8 handle _ waits =>
    rintro ⟨⟩
    exact stretch_settles waits (settles_monitor handle) rfl fun _ same _ => same
  | case9 handle _ waits =>
    rintro ⟨⟩
    rw [waits]
    exact stretch_settles waits (settles_crash false clock) rfl
      fun _ same honest => eq_nil_of_gone same (honest handle rfl)
  | case10 _ _ waits | case13 handle woken waits | case15 handle waits
  | case22 woken waits | case24 waits =>
    rintro ⟨⟩
    exact stretch_settles waits settles_leave rfl fun _ _ _ => trivial
  | case11 _ _ waits | case14 handle woken waits | case16 handle waits =>
    rintro ⟨⟩
    exact stretch_settles waits ⟨Node.Alike.refl node, rfl, rfl, fun _ fits => fits⟩ rfl
      fun _ same _ => same
  | case12 handle sawReady event waits =>
    intro resumed
    obtain ⟨⟨out, delivered⟩, sent, rfl⟩ := Option.map_eq_some_iff.mp resumed
    exact stretch_settles waits
      (settles_forwarded handle sawReady event clock delivered).ofSent rfl
      fun _ fits _ => fits
  | case17 handle answer waits =>
    rintro ⟨⟩
    rw [waits]
    exact stretch_settles waits (settles_sampled handle answer) rfl
      fun _ same honest => ⟨same, honest⟩
  | case18 _ wasReady waits =>
    intro resumed
    obtain ⟨⟨out, delivered⟩, sent, rfl⟩ := Option.map_eq_some_iff.mp resumed
    exact stretch_settles waits (settles_crash wasReady clock).ofSent rfl fun _ none _ => none
  | case19 waits =>
    rintro ⟨⟩
    exact stretch_settles waits
      ⟨⟨rfl, rfl, rfl, rfl⟩, rfl, rfl, fun _ fits => fits⟩ rfl
      fun _ none _ => none
  | case20 _ waits =>
    intro resumed
    obtain ⟨⟨out, delivered⟩, sent, rfl⟩ := Option.map_eq_some_iff.mp resumed
    exact stretch_settles waits settles_leave.ofSent rfl fun _ _ _ => trivial
  | case21 _ waits =>
    intro resumed
    obtain ⟨⟨out, delivered⟩, sent, rfl⟩ := Option.map_eq_some_iff.mp resumed
    exact stretch_settles waits ⟨Node.Alike.refl node, rfl, rfl, fun _ fits => fits⟩ rfl
      fun _ none _ => none
  | case23 woken waits | case25 waits =>
    rintro ⟨⟩
    exact stretch_iterate waits (task.attempt + 1) rfl fun _ none => none
  | case26 => rintro ⟨⟩

end Stretches

theorem live_haltEngine (node : Node) (id : String) :
    (node.haltEngine id).live = node.live.filter (·.id ≠ id) := by
  rw [Node.live, Node.live, Node.haltEngine]
  induction node.engines with
  | nil => rfl
  | cons engine rest induction =>
    rw [map_cons, filter_cons, induction]
    by_cases halted : engine.id = id
    · cases live : engine.live <;> simp [halted]
    · cases live : engine.live <;> simp [halted, live]

def StopAwait.Fits (live : List Engine) : StopAwait → Prop
  | .stopping handle => ∀ engine ∈ live, engine.id = handle
  | .returned _ => True
  | _ => live = []

theorem StopAwait.fits_nil (call : StopAwait) : call.Fits [] := by
  cases call <;> simp [StopAwait.Fits]

variable {call : StopAwait}

theorem StopAwait.fits_of_returned (returned : call.pending = false) (live : List Engine) :
    call.Fits live := by
  cases call with
  | returned => trivial
  | _ => cases returned

theorem StopAwait.Fits.mono {live fewer : List Engine} (fits : call.Fits live)
    (subset : fewer ⊆ live) : call.Fits fewer := by
  cases call with
  | stopping => exact fun engine member => fits engine (subset member)
  | returned => trivial
  | _ =>
    have none : live = [] := fits
    exact subset_nil.mp (none ▸ subset)

structure Halts (node : Node) (call : StopAwait) (result : Node × StopAwait) : Prop where
  stopping : result.1.shared.stopping = node.shared.stopping
  generation : result.1.shared.generation = node.shared.generation
  fewer : result.1.live.Sublist node.live
  pending : call.pending = true
  fits : call.Fits node.live → result.2.Fits result.1.live
  handle : result.1.shared.handle = node.shared.handle ∨ (call.Fits node.live → node.live = [])
  stopped : ∀ handle, call = .stopping handle → ∀ engine ∈ result.1.live, engine.id ≠ handle

theorem halts_of_resume {node : Node} {input : StopInput} {result : Node × StopAwait}
    (resumed : call.resume node input = some result) : Halts node call result := by
  have fewer (handle : String) : (node.haltEngine handle).live.Sublist node.live := by
    rw [live_haltEngine]
    exact filter_sublist
  have stopped (handle : String) :
      ∀ engine ∈ (node.haltEngine handle).live, engine.id ≠ handle := by
    rw [live_haltEngine]
    intro engine member
    exact of_decide_eq_true (mem_filter.mp member).2
  revert resumed
  fun_cases StopAwait.resume node call input with
  | case1 =>
    rintro ⟨⟩
    exact ⟨rfl, rfl, .refl _, rfl, fun _ => trivial, .inl rfl, by rintro _ ⟨⟩⟩
  | case2 handle =>
    rintro ⟨⟩
    refine ⟨rfl, rfl, fewer handle, rfl, fun fits => ?_, .inl rfl, ?_⟩
    · refine eq_nil_iff_forall_not_mem.mpr fun engine member => ?_
      exact stopped handle engine member (fits engine ((fewer handle).subset member))
    · rintro _ ⟨⟩
      exact stopped handle
  | case3 | case4 =>
    rintro ⟨⟩
    exact ⟨rfl, rfl, .refl _, rfl, id, .inl rfl, by rintro _ ⟨⟩⟩
  | case5 handle =>
    rintro ⟨⟩
    refine ⟨rfl, rfl, fewer handle, rfl, fun fits => ?_, .inl rfl, by rintro _ ⟨⟩⟩
    have none : node.live = [] := fits
    exact sublist_nil.mp (none ▸ fewer handle)
  | case6 =>
    rintro ⟨⟩
    exact ⟨rfl, rfl, .refl _, rfl, fun _ => trivial, .inr id, by rintro _ ⟨⟩⟩
  | case7 => rintro ⟨⟩

namespace AgentState

variable {settings : Settings} {agent next : AgentState}

variable {place : ℕ}

theorem exists_of_resumeStop {input : StopInput}
    (stepped : agent.step settings (.resumeStop place input) = some next) :
    ∃ call node after, agent.calls[place]? = some call ∧
      call.resume agent.node input = some (node, after) ∧
      next = { agent with node := node, calls := agent.calls.set place after } := by
  obtain ⟨call, found, stepped⟩ := Option.bind_eq_some_iff.mp stepped
  obtain ⟨⟨node, after⟩, resumed, same⟩ := Option.bind_eq_some_iff.mp stepped
  exact ⟨call, node, after, found, resumed, (Option.some.inj same).symm⟩

theorem exists_of_resumeTask
    (stepped : agent.step settings (.resumeTask place clock input) = some next) :
    ∃ task node after, agent.tasks[place]? = some task ∧
      task.resume settings agent.node clock input = some (node, after) ∧
      next = { agent with node := node, tasks := agent.tasks.set place after } := by
  obtain ⟨task, found, stepped⟩ := Option.bind_eq_some_iff.mp stepped
  obtain ⟨⟨node, after⟩, resumed, same⟩ := Option.bind_eq_some_iff.mp stepped
  exact ⟨task, node, after, found, resumed, (Option.some.inj same).symm⟩

theorem not_resumeTask_of_finished
    (ended : ∀ task, agent.tasks[place]? = some task → task.awaits = .finished) :
    agent.step settings (.resumeTask place clock input) ≠ some next := by
  intro stepped
  obtain ⟨task, node, after, found, resumed, _⟩ := exists_of_resumeTask stepped
  simp only [Task.resume, ended task found] at resumed
  cases resumed

/-- A start that gets no port only moves the node on. -/
theorem startEngine_of_refused {request : StartRequest} (refused : request.port.isOk = false) :
    agent.startEngine request =
      agent.updateNode { agent.node with machine := agent.node.machine.fastForward } := by
  unfold startEngine
  split
  next port allocated =>
    rw [allocated] at refused
    cases refused
  next => rfl

end AgentState

end Purser.Agent
