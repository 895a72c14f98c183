import Purser.EngineRestarts
import Purser.ReconcilerFailover

/-!
# Whether stopped and failed deployments stay so

Every operation on a deployment reads its record, talks to agents and writes the
record back without looking whether it has changed.
-/

namespace Purser.Reconciler

open InteractionPrograms Program SharedWorlds List
open ControlPlane Orchestrator
open Gateway (RouteCalls)

variable {nodeID : String} {planner : ReadingPlanner}

/-- A planner that changes nothing in the registry. -/
structure ReadingPlanner where
  plan : FailoverPlanner
  reads : ∀ modelID trace value, (plan modelID).Produces trace value →
    ∀ exchange ∈ trace, rowOf exchange = none

/-- What can be done to a deployment. -/
inductive Operation where
  | apply (plan : Option DeploymentPlan)
  | teardown
  | restartEngine (nodeID : String)
  | failover (planner : Option ReadingPlanner) (nodeID : String)

def Operation.program (agentsConfigured : Bool) (depID : String) : Operation → Program Reply Unit
  | .apply plan => do
      let _ ← lift (Orchestrator.apply agentsConfigured depID plan)
      return ()
  | .teardown => do
      let _ ← Orchestrator.teardown depID
      return ()
  | .restartEngine nodeID => do
      let _ ← Orchestrator.restartEngine depID nodeID
      return ()
  | .failover planner nodeID => do
      let _ ← handleNodeDown (orchestratorActuator agentsConfigured)
        (planner.map ReadingPlanner.plan) (nodeDownEvent depID nodeID)
      return ()

def recordedState (depID : String) (exchange : Exchange Reply) : Option DeploymentState :=
  (rowOf exchange).bind fun row => if row.id = depID then some row.state else none

def RecordsTerminal (depID : String) (exchange : Exchange Reply) : Prop :=
  ∃ state, recordedState depID exchange = some state ∧ failoverIsTerminal state = true

def IsAudit (exchange : Exchange Reply) : Prop :=
  ∃ entry answer, exchange = ⟨.command (.appendAudit entry), answer⟩

/-- After a terminal record the operation has nothing but audit entries left. -/
def Settles (depID : String) (trace : CallTrace) : Prop :=
  trace.Pairwise fun earlier later => RecordsTerminal depID earlier → IsAudit later

def RecordsLive (trace : CallTrace) : Prop :=
  ∀ row ∈ (effectsOf trace).rows, failoverIsTerminal row.state = false

variable {depID : String} {agentsConfigured : Bool}

section Settling

variable {trace before : CallTrace} {deploymentID : String} {result : Option String} {event : Event}

theorem RecordsLive.not_recordsTerminal (live : RecordsLive trace) {exchange : Exchange Reply}
    (member : exchange ∈ trace) : ¬RecordsTerminal depID exchange := by
  rintro ⟨state, recorded, terminal⟩
  obtain ⟨row, written, recorded⟩ := Option.bind_eq_some_iff.mp recorded
  have rowLive := live row (mem_filterMap.mpr ⟨exchange, member, written⟩)
  split at recorded
  · rw [← Option.some.inj recorded, rowLive] at terminal
    cases terminal
  · cases recorded

theorem recordsLive_append {after : CallTrace} :
    RecordsLive (before ++ after) ↔ RecordsLive before ∧ RecordsLive after := by
  simp only [RecordsLive, effectsOf_append]
  exact forall_mem_append

theorem RecordsLive.settles (live : RecordsLive trace) : Settles depID trace := by
  apply List.Pairwise.imp_of_mem _ (pairwise_of_forall (fun _ _ => trivial))
  intro earlier later member _ _ terminal
  exact absurd terminal (live.not_recordsTerminal member)

theorem Settles.append_live {after : CallTrace} (live : RecordsLive before)
    (settles : Settles depID after) : Settles depID (before ++ after) := by
  refine pairwise_append.mpr ⟨live.settles, settles, ?_⟩
  intro earlier member _ _ terminal
  exact absurd terminal (live.not_recordsTerminal member)

theorem Settles.append_audit (settles : Settles depID before) {last : Exchange Reply}
    (audit : IsAudit last) : Settles depID (before ++ [last]) := by
  refine pairwise_append.mpr ⟨settles, pairwise_singleton _ _, ?_⟩
  intro _ _ later member _
  rw [mem_singleton.mp member]
  exact audit

theorem isAudit_auditExchange (action : String) (event : Event) (answer : Option String) :
    IsAudit (auditExchange action event answer) :=
  ⟨_, _, rfl⟩

theorem recordsLive_of_rows {changes : List AgentChange} {routes : List RouteChange}
    (effects : effectsOf trace = ⟨[], changes, routes⟩) : RecordsLive trace := by
  intro row member
  rw [effects] at member
  cases member

theorem recordsLive_activeTrace (newID : String) (plan : DeploymentPlan) (host : Assignment)
    (ready : List ReadyEngine) (hostEngine : ReadyEngine)
    (opened updated audited published : Option String) :
    RecordsLive ((activeTrace newID plan host ready hostEngine opened updated
      audited published).map liftExchange) := by
  intro row member
  rw [effectsOf_activeTrace] at member
  rcases eq_or_of_mem_rows member with rfl | rfl <;> rfl

theorem settles_of_apply {newID : String} {plan : Option DeploymentPlan} {trace : Trace}
    {result : ApplyResult}
    (produced : (Orchestrator.apply agentsConfigured newID plan).Produces trace
      result) : Settles depID (trace.map liftExchange) := by
  have openingLive : ∀ accepted opened, RecordsLive
      ((openingExchanges newID accepted opened).map liftExchange) := by
    intro accepted opened row member
    obtain rfl := mem_singleton.mp member
    rfl
  rcases apply_run produced with
    ⟨_, _, rfl, _⟩ | ⟨accepted, workers, host, _, run⟩
  · exact List.Pairwise.nil
  cases run with
  | notCreated => exact pairwise_singleton _ _
  | failed ready step attempt stops failure opened updated audited next
      attempted stopped =>
      obtain ⟨attemptChanges, attemptEffects⟩ := effectsOf_attempt attempted
      obtain ⟨stopChanges, stopEffects, -, -⟩ := effectsOf_rollback (isRollback_of_stops stopped)
      rw [failedTrace, map_append, map_append, map_append, map_append]
      refine Settles.append_live (recordsLive_append.mpr
        ⟨openingLive _ _, recordsLive_of_rows (effectsOf_ready ready)⟩) ?_
      refine Settles.append_live (recordsLive_of_rows attemptEffects) ?_
      refine Settles.append_live (recordsLive_of_rows stopEffects) ?_
      exact @Settles.append_audit depID [_] (pairwise_singleton _ _) _ ⟨_, _, rfl⟩
  | active =>
    exact (recordsLive_activeTrace _ _ _ _ _ _ _ _ _).settles

theorem settles_of_teardown (run : TeardownRun deploymentID trace result) :
    Settles depID trace := by
  cases run with
  | missing => exact pairwise_singleton _ _
  | stopped deployment stops removal marked noted finished closed rolledBack
      removed =>
      obtain ⟨changes, stopEffects, -, -⟩ := effectsOf_rollback rolledBack
      have removalLive : RecordsLive removal := by
        intro row member
        cases removed with
        | unnamed | named => cases member
      have markedLive : RecordsLive [⟨.getDeployment deploymentID, .ok deployment⟩,
            updateExchange (persisted deployment .stopping deployment.detail) marked,
            Orchestrator.auditExchange "deployment.stopping" deploymentID [] noted] := by
        intro row member
        cases marked with
        | some => cases member
        | none =>
          obtain rfl := mem_singleton.mp member
          rfl
      refine Settles.append_live markedLive (Settles.append_live
        (recordsLive_of_rows stopEffects) (Settles.append_live removalLive ?_))
      exact @Settles.append_audit depID [_] (pairwise_singleton _ _) _ ⟨_, _, rfl⟩

theorem settles_of_restart (run : RestartRun deploymentID nodeID trace result) :
    Settles depID trace := by
  apply RecordsLive.settles
  intro row member
  cases run with
  | restarted _ _ _ _ updated =>
    cases updated with
    | some => cases member
    | none =>
      obtain rfl := mem_singleton.mp member
      rfl
  | _ => cases member

theorem settles_of_failover (run : FailoverRun agentsConfigured deploymentID trace result) :
    Settles depID trace := by
  have planLive : ∀ deployment row, RecordsLive (planExchanges deploymentID deployment row) := by
    intro deployment row
    exact recordsLive_of_rows rfl
  have appliedSettles : ∀ {plan : DeploymentPlan} {digits : String}
      {inner : Trace} {outcome : ApplyResult},
      PlanApplied agentsConfigured plan digits inner outcome →
      Settles depID (appliedExchanges digits inner) := by
    intro plan digits inner outcome applied
    exact @Settles.append_live depID [_] _ (recordsLive_of_rows rfl) (settles_of_apply applied)
  cases run with
  | unloaded | noPlan => exact pairwise_singleton _ _
  | planMissing => exact (recordsLive_of_rows rfl).settles
  | undecoded => exact (planLive _ _).settles
  | notApplied deployment row plan digits inner outcome problem decoded applied
      failed =>
      exact Settles.append_live (planLive _ _) (appliedSettles applied)
  | replaced deployment row plan digits inner outcome torn tornResult planned
      decoded applied succeeded tornDown =>
      refine Settles.append_live (planLive _ _)
        (Settles.append_live ?_ (settles_of_teardown tornDown))
      obtain ⟨workers, host, ready, hostEngine, opened, updated, audited,
        published, -, -, -⟩ := isActiveTrace_of_apply applied succeeded
      exact @recordsLive_append [_] _ |>.mpr ⟨recordsLive_of_rows rfl,
        recordsLive_activeTrace _ _ _ _ _ _ _ _ _⟩

/-- The preparation of a failover records the deployment at most once, as it
found it but for the alternate plan. -/
theorem rows_of_prepare {prepared : Bool} (run : PrepareRun planner.plan event trace prepared) :
    (effectsOf trace).rows = [] ∨
      ∃ deployment planID rest,
        trace = ⟨.getDeployment event.deploymentID, .ok deployment⟩ :: rest ∧
          failoverIsTerminal deployment.state = false ∧
          (effectsOf trace).rows = [stamped deployment planID] := by
  have rowsEq : ∀ {modelID : String} {planning : CallTrace}
      {value : Except String DeploymentPlan} (first : Exchange Reply)
      (later : CallTrace), (planner.plan modelID).Produces planning value →
      rowOf first = none →
      (effectsOf (first :: (planning ++ later))).rows = (effectsOf later).rows := by
    intro modelID planning value first later planned unwritten
    have noRows : planning.filterMap rowOf = [] :=
      filterMap_eq_nil_iff.mpr (planner.reads _ _ _ planned)
    change (first :: (planning ++ later)).filterMap rowOf = _
    rw [filterMap_cons_none unwritten, filterMap_append, noRows]
    rfl
  cases run with
  | unloaded | terminal | unnamed => exact Or.inl rfl
  | noCapacity _ _ _ _ _ planned | notStored _ _ _ _ _ _ _ planned
  | notStamped _ _ _ _ _ _ _ planned =>
    exact Or.inl (rowsEq _ _ planned rfl)
  | stamped deployment _ _ _ live _ planned =>
    exact Or.inr ⟨deployment, _, _, rfl, live, rowsEq _ _ planned rfl⟩

theorem recordsLive_of_prepare {prepared : Bool}
    (run : PrepareRun planner.plan event trace prepared) : RecordsLive trace := by
  intro row member
  rcases rows_of_prepare run with noRows | ⟨deployment, planID, _, -, live, rows⟩
  · rw [noRows] at member
    cases member
  · rw [rows] at member
    rw [mem_singleton.mp member]
    exact live

theorem settles_of_finish {acted : Bool}
    (run : FinishRun (orchestratorActuator agentsConfigured) event trace acted) :
    Settles depID trace := by
  cases run with
  | failed _ _ _ ran | initiated _ _ ran =>
    exact (settles_of_failover (failover_run ran)).append_audit (isAudit_auditExchange _ _ _)

theorem settles_of_nodeDown {planner : Option ReadingPlanner} {acted : Bool}
    (run : NodeDownRun (orchestratorActuator agentsConfigured) event
      (planner.map ReadingPlanner.plan) trace acted) : Settles depID trace := by
  cases planner with
  | none =>
    cases run with
    | unplanned _ _ finished => exact settles_of_finish finished
  | some =>
    cases run with
    | unprepared _ _ attempted => exact (recordsLive_of_prepare attempted).settles
    | prepared _ _ _ _ attempted finished =>
      exact Settles.append_live (recordsLive_of_prepare attempted) (settles_of_finish finished)

/-- Once an operation has recorded a terminal state it only writes audit
entries. -/
theorem Operation.settles {operation : Operation} {target : String}
    (performed : (operation.program agentsConfigured target).Performs trace) :
    Settles depID trace := by
  obtain ⟨rest, value, produced⟩ := performed
  suffices whole : Settles depID (trace ++ rest) from (pairwise_append.mp whole).1
  cases operation with
  | apply =>
    obtain ⟨_, applied⟩ := produced.of_discard
    obtain ⟨inner, split, innerProduced⟩ := produces_of_lift applied
    rw [split]
    exact settles_of_apply innerProduced
  | teardown =>
    obtain ⟨_, ran⟩ := produced.of_discard
    exact settles_of_teardown (teardown_run ran)
  | restartEngine =>
    obtain ⟨_, ran⟩ := produced.of_discard
    exact settles_of_restart (restartEngine_run ran)
  | failover =>
    obtain ⟨_, ran⟩ := produced.of_discard
    exact settles_of_nodeDown (handleNodeDown_run ran)

end Settling

/-- A failover with a planner first asks for the deployment.  Unless it finds it
alive, it has nothing but audit entries left. -/
theorem failover_asks_first {agentsConfigured : Bool} {depID : String} {trace : CallTrace}
    (performed : ((Operation.failover (some planner) nodeID).program
      agentsConfigured depID).Performs trace) :
    trace = [] ∨ ∃ answer rest, trace = ⟨.getDeployment depID, answer⟩ :: rest ∧
      ((∀ row, answer = .ok row → failoverIsTerminal row.state = true) →
        ∀ exchange ∈ rest, IsAudit exchange) := by
  obtain ⟨remaining, value, produced⟩ := performed
  obtain ⟨_, ran⟩ := produced.of_discard
  generalize split : trace ++ remaining = inner at ran
  have whole : ∃ answer rest, inner = ⟨.getDeployment depID, answer⟩ :: rest ∧
      ((∀ row, answer = .ok row → failoverIsTerminal row.state = true) →
        ∀ exchange ∈ rest, IsAudit exchange) := by
    have alive : ∀ {deployment : Deployment} {rest : CallTrace},
        failoverIsTerminal deployment.state = false →
        (∀ row, (Except.ok deployment : Except LookupError Deployment) = .ok row →
          failoverIsTerminal row.state = true) →
        ∀ exchange ∈ rest, IsAudit exchange := by
      intro deployment rest live found
      rw [found deployment rfl] at live
      cases live
    cases handleNodeDown_run ran with
    | unprepared _ _ attempted =>
      cases attempted with
      | unloaded =>
        refine ⟨_, _, rfl, fun _ exchange member => ?_⟩
        rw [mem_singleton.mp member]
        exact isAudit_auditExchange _ _ _
      | terminal => exact ⟨_, _, rfl, by simp⟩
      | noCapacity _ _ _ _ live
      | notStored deployment planning newPlan digits problem audited live planned
      | notStamped deployment planning newPlan digits problem audited live planned =>
        exact ⟨_, _, rfl, alive live⟩
    | prepared _ _ _ _ attempted =>
      cases attempted with
      | unnamed _ live | stamped _ _ _ _ live => exact ⟨_, _, rfl, alive live⟩
  obtain ⟨answer, rest, innerEq, audits⟩ := whole
  cases trace with
  | nil => exact Or.inl rfl
  | cons _ later =>
    rw [innerEq] at split
    obtain ⟨rfl, rfl⟩ := List.cons.inj split
    refine Or.inr ⟨answer, later, rfl, ?_⟩
    intro dead exchange member
    exact audits dead exchange (mem_append_left _ member)

section Histories

variable {Thread : Type}

/-- The entry sends a start for the deployment itself.  The engines of a failover
belong to the deployment that replaces it. -/
def StartsFor (operations : Thread → Operation) (entry : Thread × Exchange Reply) : Prop :=
  (∀ planner nodeID, operations entry.1 ≠ .failover planner nodeID) ∧
    ∃ addr request answer, entry.2 = startExchange addr request answer

/-- After a terminal record the deployment is not recorded as active or stopping
again, and no engine is started for it. -/
def TerminalIsFinal (operations : Thread → Operation) (depID : String)
    (history : History Thread Reply) : Prop :=
  ∀ before thread exchange after,
    history = before ++ (thread, exchange) :: after →
    RecordsTerminal depID exchange →
    ∀ entry ∈ after,
      recordedState depID entry.2 ≠ some .active ∧
        recordedState depID entry.2 ≠ some .stopping ∧
        ¬StartsFor operations entry

/-- No other operation is under way when a terminal state is recorded, and all
that begins later is failovers with a planner. -/
def SettledAlone [DecidableEq Thread] (operations : Thread → Operation) (depID : String)
    (history : History Thread Reply) : Prop :=
  ∀ before thread exchange after,
    history = before ++ (thread, exchange) :: after →
    RecordsTerminal depID exchange →
    ∀ entry ∈ after, entry.1 ≠ thread →
      ownPart entry.1 before = [] ∧
        ∃ planner nodeID, operations entry.1 = .failover (some planner) nodeID

def IsQuiet (exchange : Exchange Reply) : Prop :=
  rowOf exchange = none ∧ agentChangeOf exchange = none

theorem IsAudit.isQuiet {exchange : Exchange Reply} (audit : IsAudit exchange) :
    IsQuiet exchange := by
  obtain ⟨entry, answer, rfl⟩ := audit
  exact ⟨rfl, rfl⟩

section Steps

variable {calls : RouteCalls} {cluster : Cluster} {operations : Thread → Operation}
  {history before middle later : History Thread Reply} {thread : Thread} {exchange : Exchange Reply}

/-- What a lookup finds between a terminal record and the next record. -/
theorem looks_up_terminal (accepted : (controlWorld calls).Accepts cluster (history.map Prod.snd))
    (terminal : RecordsTerminal depID exchange) {other : Thread}
    {answer : Except LookupError Deployment} (split : history = before ++ (thread, exchange) ::
      (middle ++ (other, ⟨.getDeployment depID, answer⟩) :: later))
    (quiet : ∀ entry ∈ middle, rowOf entry.2 = none) :
    ∀ row, answer = .ok row → failoverIsTerminal row.state = true := by
  rintro row rfl
  obtain ⟨state, recorded, isTerminal⟩ := terminal
  obtain ⟨written, writtenEq, recorded⟩ := Option.bind_eq_some_iff.mp recorded
  split at recorded
  case isFalse => cases recorded
  rename_i idEq
  have shape : history.map Prod.snd = (before.map Prod.snd ++ exchange :: middle.map Prod.snd) ++
        ⟨.getDeployment depID, .ok row⟩ :: later.map Prod.snd := by
    rw [split]
    simp
  rw [shape] at accepted
  obtain ⟨earlierAccepted, lookedUp, -⟩ := accepted.of_append
  have unwritten : (middle.map Prod.snd).filterMap rowOf = [] := by
    refine filterMap_eq_nil_iff.mpr fun entry member => ?_
    obtain ⟨pair, pairMember, rfl⟩ := mem_map.mp member
    exact quiet pair pairMember
  have found := find_after earlierAccepted depID
  simp [effectsOf, filterMap_cons_some writtenEq, unwritten, idEq, -Interface.after_append] at found
  have same : written = row := Option.some.inj (found.symm.trans lookedUp)
  rw [← same, Option.some.inj recorded]
  exact isTerminal

variable [DecidableEq Thread]

/-- The next entry after a terminal record is quiet if all since then were. -/
theorem quiet_next (interleaves : Interleaves (controlWorld calls)
      (fun thread => (operations thread).program agentsConfigured depID) cluster
      history) (alone : SettledAlone operations depID history)
    (terminal : RecordsTerminal depID exchange) {next : Thread × Exchange Reply}
    (split : history = before ++ (thread, exchange) :: (middle ++ next :: later))
    (quiet : ∀ entry ∈ middle, rowOf entry.2 = none) : IsQuiet next.2 := by
  obtain ⟨other, following⟩ := next
  by_cases same : other = thread
  · -- the operation that made the record has only audit entries left
    subst same
    have settled : Settles depID _ := Operation.settles (interleaves.performed other)
    rw [split, ownPart_append, ownPart_cons_self, ownPart_append, ownPart_cons_self] at settled
    have ordered := (pairwise_append.mp settled).2.1
    have isAudit := (pairwise_cons.mp ordered).1 following (by simp) terminal
    exact isAudit.isQuiet
  · obtain ⟨fresh, planner, nodeID, isFailover⟩ := alone before thread exchange _
      split terminal (other, following) (by simp) same
    have performed := interleaves.performed other
    rw [isFailover, split, ownPart_append, fresh, ownPart_cons_of_ne (Ne.symm same), ownPart_append,
      ownPart_cons_self] at performed
    rcases failover_asks_first performed with nothing | ⟨answer, rest, asked, audits⟩
    · simp at nothing
    cases earlier : ownPart other middle with
    | nil =>
      rw [earlier] at asked
      obtain ⟨rfl, -⟩ := List.cons.inj asked
      exact ⟨rfl, rfl⟩
    | cons =>
      rw [earlier] at asked
      obtain ⟨rfl, rfl⟩ := List.cons.inj asked
      have askedEarlier : (other, ⟨.getDeployment depID, answer⟩) ∈ middle := by
        rw [← mem_ownPart, earlier]
        exact mem_cons_self
      obtain ⟨front, back, rfl⟩ := append_of_mem askedEarlier
      have splitAtLookup : history = before ++ (thread, exchange) ::
          (front ++ (other, ⟨.getDeployment depID, answer⟩) ::
            (back ++ (other, following) :: later)) := by
        rw [split, append_assoc, cons_append]
      have dead := looks_up_terminal interleaves.accepted terminal splitAtLookup
        (fun entry member => quiet entry (mem_append_left _ member))
      exact (audits dead following (by simp)).isQuiet

end Steps

/-- A terminal state is final whenever it was recorded while no other operation
was under way and only failovers with a planner begin afterwards. -/
theorem terminal_states_final [DecidableEq Thread] {calls : RouteCalls}
    {cluster : Cluster} {agentsConfigured : Bool} {depID : String}
    {operations : Thread → Operation} {history : History Thread Reply}
    (interleaves : Interleaves (controlWorld calls)
      (fun thread => (operations thread).program agentsConfigured depID) cluster
      history)
    (alone : SettledAlone operations depID history) :
    TerminalIsFinal operations depID history := by
  intro before thread exchange after split terminal
  have quietAll : ∀ middle later : History Thread Reply, after = middle ++ later →
      (∀ entry ∈ middle, rowOf entry.2 = none) →
      ∀ entry ∈ later, IsQuiet entry.2 := by
    intro middle later
    induction later generalizing middle with
    | nil => exact fun _ _ entry member => absurd member (not_mem_nil)
    | cons next _ induction =>
      intro afterEq quiet
      have nextQuiet := quiet_next interleaves alone terminal (split.trans (by rw [afterEq])) quiet
      have laterQuiet := induction (middle ++ [next])
        (afterEq.trans (by simp)) (by
          intro entry member
          rcases mem_append.mp member with member | member
          · exact quiet entry member
          · rw [mem_singleton.mp member]
            exact nextQuiet.1)
      exact forall_mem_cons.mpr ⟨nextQuiet, laterQuiet⟩
  intro entry member
  obtain ⟨unwritten, unchanged⟩ := quietAll [] after rfl (by simp) entry member
  refine ⟨?_, ?_, ?_⟩
  · rw [recordedState, unwritten]
    simp
  · rw [recordedState, unwritten]
    simp
  · rintro ⟨-, addr, request, answer, starts⟩
    rw [starts] at unchanged
    cases unchanged

/-- The condition holds when one operation runs alone and then a failover with a
planner that records no terminal state. -/
theorem settledAlone_of_sequence {operations : Bool → Operation} {depID : String}
    {first second : CallTrace} (live : RecordsLive second)
    (guarded : operations true = .failover (some planner) nodeID) :
    SettledAlone operations depID (tagged false first ++ tagged true second) := by
  intro before thread exchange after split terminal entry member different
  have notLater : (thread, exchange) ∉ tagged true second := by
    intro later
    obtain ⟨recorded, recordedMember, same⟩ := mem_map.mp later
    obtain ⟨-, rfl⟩ := Prod.mk.inj same
    exact live.not_recordsTerminal recordedMember terminal
  obtain ⟨between, firstEq, _⟩ := exists_of_split_left split notLater
  have ofFirst : ∀ entry ∈ tagged false first, entry.1 = false := by
    intro entry member
    obtain ⟨recorded, -, rfl⟩ := mem_map.mp member
    rfl
  rw [firstEq] at ofFirst
  have threadEq : thread = false := ofFirst (thread, exchange) (by simp)
  have entryEq : entry.1 = true := by
    rw [threadEq] at different
    exact Bool.eq_true_of_not_eq_false different
  refine ⟨?_, planner, nodeID, by rw [entryEq, guarded]⟩
  rw [entryEq, ownPart, filter_eq_nil_iff.mpr, map_nil]
  intro earlier earlierMember
  rw [ofFirst earlier (mem_append_left _ earlierMember)]
  decide

end Histories

def idlePlanner : ReadingPlanner where
  plan _ := return .error "no capacity"
  reads := by
    rintro modelID trace value ⟨rfl, -⟩ exchange member
    cases member

def operationTrace (cluster : Cluster) (operation : Operation) : CallTrace :=
  (untroubledRun cluster (operation.program true "dep-1")).1

def stoppedCluster : Cluster := (controlWorld Gateway.directCalls).after (wholeCluster 3)
    (operationTrace (wholeCluster 3) .teardown)

/-- A teardown and then another operation. -/
def afterTeardown (later : Operation) : Bool → Operation
  | false => .teardown
  | true => later

def afterTeardownHistory (later : Operation) : History Bool Reply :=
  tagged false (operationTrace (wholeCluster 3) .teardown) ++
    tagged true (operationTrace stoppedCluster later)

theorem interleaves_afterTeardown (later : Operation) :
    Interleaves (controlWorld Gateway.directCalls)
      (fun thread => (afterTeardown later thread).program true "dep-1")
      (wholeCluster 3) (afterTeardownHistory later) := by
  constructor
  · rw [afterTeardownHistory, map_append, map_snd_tagged, map_snd_tagged, Interface.accepts_append]
    exact ⟨accepts_untroubledRun _ _, accepts_untroubledRun _ _⟩
  · intro thread
    rw [afterTeardownHistory, ownPart_append]
    cases thread with
    | false =>
      rw [ownPart_tagged_self, ownPart_tagged_of_ne (by decide), append_nil]
      exact (produces_untroubledRun _ _).performs
    | true =>
      rw [ownPart_tagged_self]
      exact (produces_untroubledRun _ _).performs

/-- A restart brings a stopped deployment back: it starts an engine and records
the deployment as active. -/
theorem restart_revives_stopped : Interleaves (controlWorld Gateway.directCalls)
        (fun thread => (afterTeardown (.restartEngine "b") thread).program true "dep-1")
        (wholeCluster 3) (afterTeardownHistory (.restartEngine "b")) ∧
      ¬TerminalIsFinal (afterTeardown (.restartEngine "b")) "dep-1"
        (afterTeardownHistory (.restartEngine "b")) := by
  refine ⟨interleaves_afterTeardown _, ?_⟩
  intro isFinal
  have final := isFinal ((afterTeardownHistory (.restartEngine "b")).take 5) false _
    ((afterTeardownHistory (.restartEngine "b")).drop 6) rfl ⟨.stopped, rfl, rfl⟩
  have revived := (final ((afterTeardownHistory (.restartEngine "b")).get
    ⟨9, by decide +kernel⟩) (mem_of_getElem? (i := 3) rfl)).1
  exact revived rfl

theorem terminal_states_final_guarded :
    TerminalIsFinal (afterTeardown (.failover (some idlePlanner) "b")) "dep-1"
      (afterTeardownHistory (.failover (some idlePlanner) "b")) := by
  refine terminal_states_final (interleaves_afterTeardown _) (settledAlone_of_sequence ?_ rfl)
  intro row member
  cases member

end Purser.Reconciler
