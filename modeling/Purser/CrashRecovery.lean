import Purser.EngineExclusivity

/-!
# Recovery from a crash

Once the caller has dropped its stream, the next event ends the supervise task,
and a later crash is noticed by nobody.  As long as the caller listens, a
reported crash leads to a new launch or to the phase FAILED.
-/

namespace Purser.Agent

open TransitionRuns List
open ControlPlane (NodeState)
open EventChannel (capacity send)
open Option (map_some isSome_some map_eq_some_iff bind_some)
open Agent.Task (resume monitor sampled)

variable {event : EngineEvent}

variable (settings : Settings) (index : ℕ) (agent : AgentState) (action : Action)

def resumes : Action → Bool
  | .resumeTask place _ _ => place = index
  | _ => false

/-- The task is the one of the latest start, it was not stopped, and the tasks of
all earlier starts have ended. -/
structure Supervises (task : Task) (agent : AgentState) : Prop where
  found : agent.tasks[index]? = some task
  uninterrupted : agent.node.interrupted task.generation = false
  others : ∀ other earlier, other ≠ index → agent.tasks[other]? = some earlier →
    earlier.awaits = .finished

/-- As far as the task knows, its engine is ready. -/
def Await.onWatch : Await → Bool
  | .receiving _ sawReady _ => sawReady
  | .forwarding _ sawReady event => sawReady && event.kind ≠ .error
  | .resting _ _ | .polling _ => true
  | _ => false

def Await.stretchesLeft : Await → Option ℕ
  | .forwarding _ _ event => if event.kind = .error then some 3 else none
  | .reporting _ _ => some 3
  | .announcing _ => some 2
  | .backingOff _ => some 1
  | _ => none

/-- The caller takes what the task wants to send: it has kept its stream while
the events of the engine are sent on, and it has read enough of it. -/
def Task.heard (task : Task) : Bool :=
  match task.awaits with
  | .forwarding _ _ _ => task.out.held && task.out.queue.length < capacity
  | .reporting _ _ | .announcing _ =>
    !task.out.held || task.out.queue.length < capacity
  | _ => true

def Input.reportsCrash : Input → Bool
  | .event received => received.kind = .error
  | .metrics (.error (.crashed _)) => true
  | _ => false

def Action.candid : Action → Bool
  | .resumeTask _ _ (.metrics (.error problem)) =>
    match problem with
    | .notReady _ | .crashed _ => true
    | _ => false
  | _ => true

/-- Nobody starts or stops an engine, and the caller goes on to listen. -/
def Attentive : Prop :=
  action.call? = none ∧ action.candid = true ∧
    ∀ next ∈ agent.step settings action, ∀ task ∈ next.tasks[index]?, task.heard = true

instance  :
    Decidable (Attentive settings index agent action) :=
  inferInstanceAs (Decidable (_ ∧ _ ∧ _))

/-- The task still waits for a report about its engine. -/
def Watches : Prop :=
  ∃ task, Supervises index task agent ∧ task.heard = true ∧ task.awaits.onWatch = true

/-- The crash is reported, and the restart is under way. -/
def Recovers : Prop :=
  ∃ task left, Supervises index task agent ∧ task.heard = true ∧
    task.awaits.stretchesLeft = some left ∧ agent.node.shared.phase ≠ .running

/-- The engine is launched again, or the supervisor has given up. -/
def Resolved : Prop :=
  (∃ task ∈ agent.tasks[index]?, task.awaits = .launching) ∨ agent.node.shared.phase = .failed

def stretchesLeft : ℕ :=
  (agent.tasks[index]?.bind fun task => task.awaits.stretchesLeft).getD 0

variable {node : Node}

theorem composedNodeState_ne_running (phase : node.shared.phase ≠ .running) :
    node.composedNodeState ≠ .running := by
  unfold Node.composedNodeState
  split
  all_goals try (next state => rw [state]; decide)
  unfold Node.engineNodeState
  cases reached : node.shared.phase with
  | running => exact absurd reached phase
  | _ => decide

variable {settings : Settings} {index : ℕ} {task : Task} {agent : AgentState}

namespace Supervises

variable {next : AgentState}

theorem updateStream_awaits {place : ℕ} {change : EventChannel → EventChannel}
    (updated : agent.updateStream place change = some next) (other : ℕ) :
    next.node = agent.node ∧
      next.tasks[other]?.map (fun task => (task.generation, task.awaits)) =
        agent.tasks[other]?.map fun task => (task.generation, task.awaits) := by
  obtain ⟨streaming, found, rfl⟩ := map_eq_some_iff.mp updated
  refine ⟨rfl, ?_⟩
  by_cases same : other = place
  · subst same
    rw [getElem?_set_self (List.getElem?_eq_some_iff.mp found).1, found]
    rfl
  · rw [getElem?_set_ne (Ne.symm same)]

theorem step_of_other (supervises : Supervises index task agent) {action : Action}
    (uncalled : action.call? = none) (other : resumes index action = false)
    (stepped : agent.step settings action = some next) :
    ∃ kept, Supervises index kept next ∧ kept.awaits = task.awaits ∧
      (next.node.shared.phase = agent.node.shared.phase ∨
        next.node.shared.phase = .stopped) := by
  have alike {node : Node} (stopping : node.shared.stopping = agent.node.shared.stopping)
      (generation : node.shared.generation = agent.node.shared.generation) :
      node.interrupted task.generation = false := by
    rw [Node.interrupted, Node.superseded, stopping, generation]
    exact supervises.uninterrupted
  cases action with
  | start | stop | drain => cases uncalled
  | startEngine =>
    cases stepped
    rw [AgentState.startEngine_of_refused (refused_of_uncalled uncalled)]
    exact ⟨task, ⟨supervises.found, alike rfl rfl, supervises.others⟩, rfl, .inl rfl⟩
  | join | heartbeatMiss | heartbeatAck | exit =>
    cases stepped
    exact ⟨task, ⟨supervises.found, alike rfl rfl, supervises.others⟩, rfl, .inl rfl⟩
  | resumeStop _ input =>
    obtain ⟨waiting, node, after, found, resumed, rfl⟩ := AgentState.exists_of_resumeStop stepped
    have halts := halts_of_resume resumed
    refine ⟨task, ⟨supervises.found, alike halts.stopping halts.generation, supervises.others⟩,
      rfl, ?_⟩
    revert resumed
    fun_cases StopAwait.resume agent.node waiting input
    all_goals rintro ⟨⟩
    all_goals first | exact .inl rfl | exact .inr rfl
  | resumeTask place =>
    refine absurd stepped (AgentState.not_resumeTask_of_finished fun earlier found => ?_)
    exact supervises.others place earlier (of_decide_eq_false other) found
  | read place | drop place =>
    rw [AgentState.step] at stepped
    have node := (updateStream_awaits stepped index).1
    have moved := fun other => (updateStream_awaits stepped other).2
    have here := moved index
    rw [supervises.found] at here
    obtain ⟨kept, found, same⟩ := map_eq_some_iff.mp here
    obtain ⟨generation, awaits⟩ := Prod.mk.inj same
    refine ⟨kept, ⟨found, ?_, fun other earlier different atOther => ?_⟩, awaits, ?_⟩
    · rw [node, generation]
      exact supervises.uninterrupted
    · have there := moved other
      rw [atOther] at there
      obtain ⟨unmoved, before, same⟩ := map_eq_some_iff.mp there.symm
      rw [← (Prod.mk.inj same).2]
      exact supervises.others other unmoved different before
    · rw [node]
      exact .inl rfl

theorem of_own (supervises : Supervises index task agent) {clock : Clock} {input : Input}
    {node : Node} {after : Task}
    (resumed : task.resume settings agent.node clock input = some (node, after)) :
    Supervises index after { agent with node := node, tasks := agent.tasks.set index after } := by
  have within := (List.getElem?_eq_some_iff.mp supervises.found).1
  obtain ⟨stopping, generation, own⟩ := (stretch_of_resume resumed).kept
  refine ⟨getElem?_set_self within, ?_, fun other earlier different atOther => ?_⟩
  · rw [Node.interrupted, Node.superseded, stopping, generation, own]
    exact supervises.uninterrupted
  · exact supervises.others other earlier different
      ((getElem?_set_ne (Ne.symm different)).symm.trans atOther)

end Supervises

section OwnStretches

variable {next : Node} {after : Task} {clock : Clock} {input : Input}

theorem send_of_room {channel : EventChannel} (held : channel.held = true)
    (room : channel.queue.length < capacity) :
    channel.send event = some ({ channel with queue := channel.queue ++ [event] }, true) := by
  simp only [send, held, room, if_true, Bool.true_eq_false, if_false]

theorem monitor_of_uninterrupted (uninterrupted : node.interrupted task.generation = false)
    (handle : String) :
    task.monitor node handle = (node, { task with awaits := .resting handle false }) := by
  rw [monitor, if_neg (by rw [uninterrupted]; decide)]

/-- An event is sent on; an ERROR is taken for a crash at once. -/
theorem awaits_received {handle : String}
    (received : task.received node handle true event = (next, after)) :
    (event.kind = .error → (∃ left, after.awaits.stretchesLeft = some left) ∧
      next.shared.phase = .crashed) ∧
      (event.kind ≠ .error → after.awaits.onWatch = true) := by
  unfold Task.received at received
  cases kind : event.kind with
  | error =>
    rw [kind] at received
    cases received
    refine ⟨fun _ => ⟨⟨3, ?_⟩, rfl⟩, fun other => absurd rfl other⟩
    rw [Await.stretchesLeft, if_pos kind]
  | unspecified | loading | ready | metrics =>
    rw [kind] at received
    cases received
    refine ⟨fun failed => (by cases failed), fun _ => ?_⟩
    simp only [Await.onWatch, kind]
    decide

/-- While it is on watch, the task goes on to watch until a crash is reported. -/
theorem onWatch_of_resume (uninterrupted : node.interrupted task.generation = false)
    (heard : task.heard = true) (onWatch : task.awaits.onWatch = true) {place : ℕ}
    (candid : Action.candid (.resumeTask place clock input) = true)
    (resumed : task.resume settings node clock input = some (next, after)) :
    (input.reportsCrash = true → (∃ left, after.awaits.stretchesLeft = some left) ∧
      next.shared.phase = .crashed) ∧
      (input.reportsCrash = false → after.awaits.onWatch = true) := by
  have going : node.shared.stopping = false := by
    rw [Node.interrupted, Bool.or_eq_false_iff] at uninterrupted
    exact uninterrupted.2
  revert resumed
  fun_cases resume settings node task clock input with
  | case7 _ sawReady _ _ waits =>
    intro resumed
    rw [waits] at onWatch
    cases show sawReady = true from onWatch
    obtain ⟨failed, other⟩ := awaits_received (Option.some.inj resumed)
    exact ⟨fun report => failed (of_decide_eq_true report),
      fun report => other (of_decide_eq_false report)⟩
  | case8 =>
    rw [monitor_of_uninterrupted uninterrupted]
    rintro ⟨⟩
    exact ⟨fun report => (by cases report), fun _ => rfl⟩
  | case10 _ _ _ stopping =>
    rw [going] at stopping
    cases stopping
  | case11 _ _ waits =>
    rintro ⟨⟩
    rw [waits] at onWatch
    exact ⟨fun report => (by cases report), fun _ => onWatch⟩
  | case12 _ _ _ waits =>
    simp only [Task.heard, waits, Bool.and_eq_true, decide_eq_true_eq] at heard
    rw [waits, Await.onWatch, Bool.and_eq_true, decide_eq_true_eq] at onWatch
    rw [send_of_room heard.1 heard.2, map_some]
    simp only [Task.forwarded, onWatch.2, Bool.true_eq_false, if_false]
    rintro ⟨⟩
    exact ⟨fun report => (by cases report), fun _ => onWatch.1⟩
  | case13 handle woken waits stopped | case15 handle waits stopped =>
    rw [uninterrupted] at stopped
    cases stopped
  | case14 handle woken waits | case16 handle waits =>
    rintro ⟨⟩
    exact ⟨fun report => (by cases report), fun _ => rfl⟩
  | case17 _ answer =>
    cases answer with
    | ok metrics =>
      have unchanged : (node.setMetrics metrics).interrupted task.generation = false :=
        uninterrupted
      rw [sampled, monitor, if_neg (by rw [unchanged]; decide)]
      rintro ⟨⟩
      exact ⟨fun report => (by cases report), fun _ => rfl⟩
    | error problem =>
      cases problem with
      | notReady =>
        rw [sampled, monitor_of_uninterrupted uninterrupted]
        rintro ⟨⟩
        exact ⟨fun report => (by cases report), fun _ => rfl⟩
      | crashed =>
        rintro ⟨⟩
        exact ⟨fun _ => ⟨⟨3, rfl⟩, rfl⟩, fun report => (by cases report)⟩
      | _ => cases candid
  | _ => simp_all [Await.onWatch]

theorem send_of_heard (event : EngineEvent)
    (heard : (!task.out.held || task.out.queue.length < capacity) = true) :
    ∃ out delivered, task.out.send event = some (out, delivered) := by
  cases held : task.out.held with
  | false => exact ⟨task.out, false, by rw [send, if_pos held]⟩
  | true =>
    rw [held, Bool.not_true, Bool.false_or, decide_eq_true_eq] at heard
    exact ⟨_, _, send_of_room held heard⟩

section

variable (uninterrupted : node.interrupted task.generation = false)

include uninterrupted

theorem crash_of_uninterrupted {wasReady : Bool}
    (crashed : task.crash settings node wasReady clock = (next, after)) :
    next.shared.phase = .failed ∨
      (after.awaits.stretchesLeft = some 2 ∧ next.shared.phase = .crashed) := by
  rw [Task.crash, if_neg (by rw [uninterrupted]; decide)] at crashed
  unfold Task.restart at crashed
  dsimp only at crashed
  split at crashed
  · cases crashed
    exact .inl rfl
  · cases crashed
    exact .inr ⟨rfl, rfl⟩

/-- Each stretch after the report of a crash brings the task closer to the next
launch, unless the supervisor gives up. -/
theorem stretchesLeft_of_resume (heard : task.heard = true) {left : ℕ}
    (recovering : task.awaits.stretchesLeft = some left) (down : node.shared.phase ≠ .running)
    (resumed : task.resume settings node clock input = some (next, after)) :
    next.shared.phase = .failed ∨ after.awaits = .launching ∨
      ∃ fewer < left, after.awaits.stretchesLeft = some fewer ∧
        next.shared.phase ≠ .running := by
  -- what a crash leads to, from the two awaits that a report comes from
  have restarts {out : EventChannel} {wasReady : Bool} (three : left = 3)
      (crashed : { task with out := out }.crash settings node wasReady clock = (next, after)) :
      next.shared.phase = .failed ∨ after.awaits = .launching ∨
        ∃ fewer < left, after.awaits.stretchesLeft = some fewer ∧
          next.shared.phase ≠ .running := by
    have unchanged : node.interrupted { task with out := out }.generation = false := uninterrupted
    rcases crash_of_uninterrupted unchanged crashed with failed | ⟨two, phase⟩
    · exact .inl failed
    · refine .inr (.inr ⟨2, by omega, two, ?_⟩)
      rw [phase]
      decide
  revert resumed
  fun_cases resume settings node task clock input with
  | case12 _ _ _ waits =>
    simp only [Task.heard, waits, Bool.and_eq_true, decide_eq_true_eq] at heard
    rw [waits, Await.stretchesLeft] at recovering
    split at recovering
    next failed =>
      rw [send_of_room heard.1 heard.2, map_some]
      simp only [Task.forwarded, failed, Bool.true_eq_false, if_false, if_true, Option.some.injEq]
      exact restarts (Option.some.inj recovering).symm
    next => cases recovering
  | case18 event _ waits =>
    simp only [Task.heard, waits] at heard
    obtain ⟨out, delivered, sent⟩ := send_of_heard event heard
    rw [waits] at recovering
    rw [sent, map_some]
    intro resumed
    exact restarts (Option.some.inj recovering).symm (Option.some.inj resumed)
  | case21 event waits =>
    simp only [Task.heard, waits] at heard
    obtain ⟨out, delivered, sent⟩ := send_of_heard event heard
    rw [waits] at recovering
    cases recovering
    rw [sent, map_some]
    rintro ⟨⟩
    exact .inr (.inr ⟨1, by decide, rfl, down⟩)
  | case22 woken waits stopped | case24 waits stopped =>
    rw [uninterrupted] at stopped
    cases stopped
  | case23 woken waits | case25 waits =>
    have unchanged : node.interrupted { task with attempt := task.attempt + 1 }.generation =
      false := uninterrupted
    rw [Task.iterate, if_neg (by rw [unchanged]; decide)]
    rintro ⟨⟩
    exact .inr (.inl rfl)
  | _ => simp_all [Await.stretchesLeft]

/-- A task that is listened to can always go on. -/
theorem exists_resume_of_heard (heard : task.heard = true)
    (active : task.awaits.onWatch = true ∨ task.awaits.stretchesLeft.isSome = true) :
    ∃ input, (task.resume settings node clock input).isSome = true := by
  have going (condition : node.interrupted task.generation = true → False)
      {left right : Option (Node × Task)} (possible : right.isSome = true) :
      (if node.interrupted task.generation then left else right).isSome = true := by
    rw [if_neg condition]
    exact possible
  have free : node.interrupted task.generation = true → False := by
    rw [uninterrupted]
    decide
  cases waits : task.awaits with
  | receiving _ sawReady =>
    refine ⟨.closed, ?_⟩
    cases sawReady <;> simp only [resume, waits, isSome_some]
  | forwarding =>
    simp only [Task.heard, waits, Bool.and_eq_true, decide_eq_true_eq] at heard
    refine ⟨.sent, ?_⟩
    simp only [resume, waits, send_of_room heard.1 heard.2, map_some, isSome_some]
  | resting handle woken | backingOff woken =>
    refine ⟨.elapsed, ?_⟩
    simp only [resume, waits]
    exact going free rfl
  | polling =>
    refine ⟨.metrics (.error (.notReady "")), ?_⟩
    simp only [resume, waits, isSome_some]
  | reporting event | announcing event =>
    simp only [Task.heard, waits] at heard
    obtain ⟨out, delivered, sent⟩ := send_of_heard event heard
    refine ⟨.sent, ?_⟩
    simp only [resume, waits, sent, map_some, isSome_some]
  | _ => simp [waits, Await.onWatch, Await.stretchesLeft] at active

end

end OwnStretches

variable {action : Action}

section Recovery

variable {next : AgentState}

def Action.reportsCrash (index : ℕ) : Action → Bool
  | .resumeTask place _ input => place = index && input.reportsCrash
  | _ => false

theorem resumes_of_reportsCrash (reports : action.reportsCrash index = true) :
    resumes index action = true := by
  cases action with
  | resumeTask =>
    rw [Action.reportsCrash, Bool.and_eq_true] at reports
    exact reports.1
  | _ => cases reports

theorem exists_resume_of_step (found : agent.tasks[index]? = some task)
    (own : resumes index action = true) (stepped : agent.step settings action = some next) :
    ∃ clock input node after, action = .resumeTask index clock input ∧
      task.resume settings agent.node clock input = some (node, after) ∧
      next = { agent with node := node, tasks := agent.tasks.set index after } := by
  cases action with
  | resumeTask place clock input =>
    cases show place = index from of_decide_eq_true own
    obtain ⟨same, node, after, foundSame, resumed, result⟩ :=
      AgentState.exists_of_resumeTask stepped
    cases found.symm.trans foundSame
    exact ⟨clock, input, node, after, rfl, resumed, result⟩
  | _ => cases own

theorem heard_of_attentive (attentive : Attentive settings index agent action)
    (stepped : agent.step settings action = some next) (found : next.tasks[index]? = some task) :
    task.heard = true :=
  attentive.2.2 next stepped task found

/-- The task watches on until a crash is reported. -/
theorem watches_of_step (watches : Watches index agent)
    (attentive : Attentive settings index agent action)
    (stepped : agent.step settings action = some next) :
    if action.reportsCrash index then Recovers index next else Watches index next := by
  obtain ⟨task, supervises, heard, onWatch⟩ := watches
  cases own : resumes index action with
  | false =>
    obtain ⟨kept, supervised, same, _⟩ := supervises.step_of_other attentive.1 own stepped
    rw [if_neg fun reports => by rw [resumes_of_reportsCrash reports] at own; cases own]
    exact ⟨kept, supervised, heard_of_attentive attentive stepped supervised.found, same ▸ onWatch⟩
  | true =>
    obtain ⟨clock, input, node, after, rfl, resumed, rfl⟩ :=
      exists_resume_of_step supervises.found own stepped
    have supervised := supervises.of_own resumed
    have listened := heard_of_attentive attentive stepped supervised.found
    obtain ⟨crashes, watching⟩ := onWatch_of_resume supervises.uninterrupted heard onWatch
      attentive.2.1 resumed
    rw [Action.reportsCrash, decide_eq_true rfl]
    split
    next reports =>
      obtain ⟨⟨left, recovering⟩, phase⟩ := crashes reports
      refine ⟨after, left, supervised, listened, recovering, ?_⟩
      rw [phase]
      decide
    next quiet =>
      exact ⟨after, supervised, listened, watching (Bool.eq_false_iff.mpr quiet)⟩

theorem stretchesLeft_of_found {left : ℕ} (found : agent.tasks[index]? = some task)
    (recovering : task.awaits.stretchesLeft = some left) :
    Purser.Agent.stretchesLeft index agent = left := by
  rw [Purser.Agent.stretchesLeft, found, bind_some, recovering, Option.getD_some]

/-- The others do not hold the restart up, and the task gets closer to it. -/
theorem recovers_of_step (recovers : Recovers index agent)
    (attentive : Attentive settings index agent action)
    (stepped : agent.step settings action = some next) :
    Resolved index next ∨ (Recovers index next ∧
      stretchesLeft index next ≤ stretchesLeft index agent ∧
        (resumes index action = true → stretchesLeft index next < stretchesLeft index agent)) := by
  obtain ⟨task, left, supervises, heard, recovering, down⟩ := recovers
  rw [stretchesLeft_of_found supervises.found recovering]
  cases own : resumes index action with
  | false =>
    obtain ⟨kept, supervised, same, phase⟩ := supervises.step_of_other attentive.1 own stepped
    have still : kept.awaits.stretchesLeft = some left := by rw [same, recovering]
    refine .inr ⟨⟨kept, left, supervised, ?_, still, ?_⟩, ?_, by rintro ⟨⟩⟩
    · exact heard_of_attentive attentive stepped supervised.found
    · rcases phase with unchanged | stopped
      · rwa [unchanged]
      · rw [stopped]
        decide
    · exact (stretchesLeft_of_found supervised.found still).le
  | true =>
    obtain ⟨clock, input, node, after, rfl, resumed, rfl⟩ :=
      exists_resume_of_step supervises.found own stepped
    have supervised := supervises.of_own resumed
    rcases stretchesLeft_of_resume supervises.uninterrupted heard recovering down resumed with
      failed | launching | ⟨fewer, less, still, stillDown⟩
    · exact .inl (.inr failed)
    · exact .inl (.inl ⟨after, supervised.found, launching⟩)
    · refine .inr ⟨⟨after, fewer, supervised, ?_, still, stillDown⟩, ?_⟩
      · exact heard_of_attentive attentive stepped supervised.found
      · rw [stretchesLeft_of_found supervised.found still]
        exact ⟨less.le, fun _ => less⟩

theorem exists_step_of_heard (supervises : Supervises index task agent) (heard : task.heard = true)
    (active : task.awaits.onWatch = true ∨ task.awaits.stretchesLeft.isSome = true) :
    ∃ action, resumes index action = true ∧ (agent.step settings action).isSome = true := by
  obtain ⟨input, possible⟩ : ∃ input, (task.resume settings agent.node {} input).isSome = true :=
    exists_resume_of_heard supervises.uninterrupted heard active
  obtain ⟨⟨node, after⟩, resumed⟩ := Option.isSome_iff_exists.mp possible
  refine ⟨.resumeTask index {} input, decide_eq_true rfl, ?_⟩
  simp only [AgentState.step, supervises.found, Option.bind_eq_bind, bind_some, resumed]
  rfl

theorem stretchesLeft_lt (awaits : Await) {left : ℕ}
    (recovering : awaits.stretchesLeft = some left) : left < 4 := by
  revert recovering
  fun_cases Await.stretchesLeft awaits
  all_goals rintro ⟨⟩
  all_goals decide

theorem leadsTo_of_recovers (recovers : Recovers index agent) :
    LeadsTo (AgentState.step settings) (Attentive settings index) (resumes index)
      (fun state => state.node.composedNodeState ≠ .running) (Resolved index) 4 agent := by
  refine leadsTo_of_rank (stretchesLeft index) ?_ ?_ recovers ?_
  · exact recovers_of_step
  · rintro state ⟨task, left, supervises, heard, recovering, down⟩
    refine ⟨composedNodeState_ne_running down, exists_step_of_heard supervises heard (.inr ?_)⟩
    rw [recovering]
    rfl
  · obtain ⟨task, left, supervises, heard, recovering, down⟩ := recovers
    rw [stretchesLeft_of_found supervises.found recovering]
    exact stretchesLeft_lt task.awaits recovering

/-- Until a crash is reported the task watches, and a report of one leads to a
new launch or to the phase FAILED. -/
theorem watches_or_recovers_of_run {later : List Action} {final : AgentState}
    (watches : Watches index agent) (ran : run (AgentState.step settings) agent later = some final)
    (attentive : Conforms (AgentState.step settings) (Attentive settings index) agent later) :
    (Watches index final ∧ ∀ action ∈ later, action.reportsCrash index = false) ∨
      ∃ before report after middle crashed, later = before ++ report :: after ∧
        run (AgentState.step settings) agent before = some middle ∧
        report.reportsCrash index = true ∧ middle.step settings report = some crashed ∧
        Recovers index crashed := by
  induction later generalizing agent with
  | nil =>
    cases ran
    exact .inl ⟨watches, by rintro _ ⟨⟩⟩
  | cons action rest induction =>
    obtain ⟨next, stepped, ranRest⟩ := run_cons_eq_some_iff.mp ran
    obtain ⟨permitted, attentiveRest⟩ := attentive
    have moved := watches_of_step watches permitted stepped
    split at moved
    next reports =>
      exact .inr ⟨[], action, rest, agent, next, rfl, rfl, reports, stepped, moved⟩
    next quiet =>
      rcases induction moved ranRest (attentiveRest next stepped) with
        ⟨watching, silent⟩ | ⟨before, report, after, middle, crashed, rfl, ranBefore, known⟩
      · refine .inl ⟨watching, forall_mem_cons.mpr ⟨?_, silent⟩⟩
        exact Bool.eq_false_iff.mpr quiet
      · refine .inr ⟨action :: before, report, after, middle, crashed, rfl, ?_, known⟩
        exact run_cons_eq_some_iff.mpr ⟨next, stepped, ranBefore⟩

theorem watches_of_ready {clock : Clock} {handle : String} {sawReady woken : Bool}
    (supervises : Supervises index task agent)
    (receives : task.awaits = .receiving handle sawReady woken) (ready : event.kind = .ready)
    (attentive : Attentive settings index agent (.resumeTask index clock (.event event)))
    (stepped : agent.step settings (.resumeTask index clock (.event event)) = some next) :
    Watches index next := by
  have own : resumes index (.resumeTask index clock (.event event)) = true :=
    decide_eq_true rfl
  obtain ⟨_, _, node, after, same, resumed, rfl⟩ :=
    exists_resume_of_step supervises.found own stepped
  cases same
  have supervised := supervises.of_own resumed
  refine ⟨after, supervised, heard_of_attentive attentive stepped supervised.found, ?_⟩
  simp only [resume, receives, Task.received, ready] at resumed
  cases resumed
  simp only [Await.onWatch, ready]
  decide

/-- From the moment the engine is ready on, the task can always go on, and a
report of a crash leads to a new launch or to the phase FAILED within four of its
stretches.  The node does not report RUNNING until then. -/
theorem restarted_or_failed_of_attentive {task : Task} {clock : Clock} {event : EngineEvent}
    {handle : String} {sawReady woken : Bool} {later : List Action} {final : AgentState}
    (supervises : Supervises index task agent)
    (receives : task.awaits = .receiving handle sawReady woken) (ready : event.kind = .ready)
    (ran : run (AgentState.step settings) agent
      (.resumeTask index clock (.event event) :: later) = some final)
    (attentive : Conforms (AgentState.step settings) (Attentive settings index) agent
      (.resumeTask index clock (.event event) :: later)) :
    ((∀ action ∈ later, action.reportsCrash index = false) ∧
      ∃ action, resumes index action = true ∧ (final.step settings action).isSome = true) ∨
      ∃ before report after middle crashed, later = before ++ report :: after ∧
        run (AgentState.step settings) agent
          (.resumeTask index clock (.event event) :: before) = some middle ∧
        report.reportsCrash index = true ∧ middle.step settings report = some crashed ∧
        LeadsTo (AgentState.step settings) (Attentive settings index) (resumes index)
          (fun state => state.node.composedNodeState ≠ .running) (Resolved index) 4 crashed := by
  obtain ⟨up, stepped, ranLater⟩ := run_cons_eq_some_iff.mp ran
  obtain ⟨listens, attentiveLater⟩ := attentive
  have watches := watches_of_ready supervises receives ready listens stepped
  rcases watches_or_recovers_of_run watches ranLater (attentiveLater up stepped) with
    ⟨watching, silent⟩ | ⟨before, report, after, middle, crashed, split, ranBefore, reports,
      reported, recovers⟩
  · obtain ⟨watcher, supervised, heard, onWatch⟩ := watching
    exact .inl ⟨silent, exists_step_of_heard supervised heard (.inl onWatch)⟩
  · refine .inr ⟨before, report, after, middle, crashed, split, ?_, reports, reported,
      leadsTo_of_recovers recovers⟩
    exact run_cons_eq_some_iff.mpr ⟨up, stepped, ranBefore⟩

def launchedOnce : List Action :=
  .startEngine { modelRef := "llama", role := .worker, port := .ok 50052 } ::
    (comesUp 0 "mock-worker-0001").take 2

/-- The caller drops its stream when the engine's events have ended, and the
engine crashes after that. -/
def crashAfterSilence : List Action := [.resumeTask 0 {} .sent, .resumeTask 0 {} .closed, .drop 0,
    .exit "mock-worker-0001", .resumeTask 0 {} .elapsed,
    .resumeTask 0 {} (.metrics (.error (.crashed "exit status 1")))]

theorem restart_follows_crashAfterSilence :
    ∃ agent ∈ run (AgentState.step {}) {} launchedOnce,
      ∃ before report after, crashAfterSilence = before ++ report :: after ∧
      ∃ middle ∈ run (AgentState.step {}) agent
          (.resumeTask 0 {} (.event ⟨.ready, "", none⟩) :: before),
        ∃ crashed ∈ middle.step {} report, report.reportsCrash 0 = true ∧
          LeadsTo (AgentState.step {}) (Attentive {} 0) (resumes 0)
            (fun state => state.node.composedNodeState ≠ .running) (Resolved 0) 4 crashed := by
  have ends : ∃ agent ∈ run (AgentState.step {}) {} launchedOnce,
      ∃ final ∈ run (AgentState.step {}) agent
          (.resumeTask 0 {} (.event ⟨.ready, "", none⟩) :: crashAfterSilence),
        Conforms (AgentState.step {}) (Attentive {} 0) agent
          (.resumeTask 0 {} (.event ⟨.ready, "", none⟩) :: crashAfterSilence) ∧
        agent.node.shared.generation = 1 ∧ agent.node.shared.stopping = false ∧
        ∃ task ∈ agent.tasks.head?, agent.tasks = [task] ∧ task.generation = 1 ∧
          task.awaits = .receiving "mock-worker-0001" false false := by
    decide +kernel
  obtain ⟨agent, ran, final, ranLater, attentive, generation, stopping, task, _, tasks, own,
    receives⟩ := ends
  refine ⟨agent, ran, ?_⟩
  have supervises : Supervises 0 task agent := by
    refine ⟨?_, ?_, fun other earlier different found => ?_⟩
    · rw [tasks]
      rfl
    · rw [Node.interrupted, Node.superseded, generation, stopping, own]
      decide
    · rw [tasks, getElem?_singleton, if_neg different] at found
      cases found
  rcases restarted_or_failed_of_attentive supervises receives rfl ranLater attentive with
    ⟨silent, _⟩ | ⟨before, report, after, middle, crashed, split, ranBefore, reports, stepped,
      leads⟩
  · exact absurd silent (by decide)
  · exact ⟨before, report, after, split, middle, ranBefore, crashed, stepped, reports, leads⟩

end Recovery

def AgentState.Unattended (agent : AgentState) : Prop :=
  ∀ task ∈ agent.tasks, task.awaits = .finished

instance (agent : AgentState) : Decidable agent.Unattended :=
  inferInstanceAs (Decidable (∀ task ∈ agent.tasks, _))

namespace AgentState.Unattended

variable {next : AgentState}

/-- Without a task, only a call brings an engine up. -/
theorem step (unattended : agent.Unattended) (uncalled : action.call? = none)
    (stepped : agent.step settings action = some next) :
    next.Unattended ∧ next.node.live.Sublist agent.node.live ∧
      next.node.engines.length = agent.node.engines.length ∧
      (agent.calls = [] → next.calls = [] ∧ next.node.shared = agent.node.shared) := by
  cases action with
  | start | stop | drain => cases uncalled
  | startEngine =>
    cases stepped
    rw [AgentState.startEngine_of_refused (refused_of_uncalled uncalled)]
    exact ⟨unattended, .refl _, rfl, fun idle => ⟨idle, rfl⟩⟩
  | join | heartbeatMiss | heartbeatAck =>
    cases stepped
    exact ⟨unattended, .refl _, rfl, fun idle => ⟨idle, rfl⟩⟩
  | exit id =>
    cases stepped
    refine ⟨unattended, ?_, ?_, fun idle => ⟨idle, rfl⟩⟩
    · rw [AgentState.updateNode, live_haltEngine]
      exact filter_sublist
    · rw [AgentState.updateNode, Node.haltEngine, length_map]
  | resumeStop _ input =>
    obtain ⟨waiting, node, after, found, resumed, rfl⟩ := AgentState.exists_of_resumeStop stepped
    refine ⟨unattended, (halts_of_resume resumed).fewer, ?_, fun idle => ?_⟩
    · revert resumed
      fun_cases StopAwait.resume agent.node waiting input
      all_goals rintro ⟨⟩
      all_goals first | rfl | exact length_map _
    · rw [idle] at found
      cases found
  | resumeTask =>
    exact absurd stepped (AgentState.not_resumeTask_of_finished fun task found =>
      unattended task (mem_of_getElem? found))
  | read place | drop place =>
    obtain ⟨task, found, rfl⟩ := map_eq_some_iff.mp stepped
    refine ⟨fun other member => ?_, .refl _, rfl, fun idle => ⟨idle, rfl⟩⟩
    rcases mem_or_eq_of_mem_set member with earlier | rfl
    · exact unattended other earlier
    · exact unattended task (mem_of_getElem? found)

end AgentState.Unattended

/-- The caller drops its stream when it has seen READY.  The next event ends the
supervise task, and the engine exits later. -/
def droppedAtReady : List Action :=
  .startEngine { modelRef := "llama", role := .worker, port := .ok 50052 } ::
    (comesUp 0 "mock-worker-0001").dropLast ++
    [.drop 0, .resumeTask 0 {} (.event ⟨.metrics, "", some {}⟩), .resumeTask 0 {} .sent,
      .exit "mock-worker-0001"]

/-- Nobody notices that the engine is gone: the node reports RUNNING, and as long
as nobody starts or stops an engine the phase stays RUNNING and no engine comes
up. -/
theorem crash_unnoticed_after_drop : ∃ agent ∈ run (AgentState.step {}) {} droppedAtReady,
      agent.node.live = [] ∧ agent.node.composedNodeState = .running ∧
      ∀ later final, run (AgentState.step {}) agent later = some final →
        (∀ action ∈ later, action.call? = none) →
          final.node.shared.phase = .running ∧ final.node.live = [] := by
  have ends : ∃ agent ∈ run (AgentState.step {}) {} droppedAtReady,
      agent.Unattended ∧ agent.calls = [] ∧ agent.node.shared.phase = .running ∧
        agent.node.live = [] ∧ agent.node.composedNodeState = .running := by
    decide +kernel
  obtain ⟨agent, ran, unattended, idle, phase, dead, reported⟩ := ends
  refine ⟨agent, ran, dead, reported, fun later final ranLater uncalled => ?_⟩
  clear ran reported
  induction later generalizing agent with
  | nil =>
    cases ranLater
    exact ⟨phase, dead⟩
  | cons _ _ induction =>
    obtain ⟨next, stepped, ranRest⟩ := run_cons_eq_some_iff.mp ranLater
    obtain ⟨first, others⟩ := forall_mem_cons.mp uncalled
    obtain ⟨still, fewer, _, same⟩ := unattended.step first stepped
    obtain ⟨stillIdle, shared⟩ := same idle
    refine induction next still stillIdle ?_ ?_ ranRest others
    · rw [shared, phase]
    · rw [dead] at fewer
      exact sublist_nil.mp fewer

end Purser.Agent
