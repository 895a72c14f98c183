import Purser.EngineRestarts
import Purser.ReconcilerPass
import Mathlib.Data.List.DropRight
import Mathlib.Data.List.Nodup

/-!
# Hysteresis and cooldown over many passes

The count of a discrepancy and the time of the last action are lost in the first
pass that does not see it, so the cooldown only binds one uninterrupted stretch.
-/

namespace Purser.Reconciler

open InteractionPrograms Program List
open ControlPlane Orchestrator

variable {passes : List Pass} {config : Config} {actuator : Option Actuator}
  {planner : Option FailoverPlanner} {tracker later : Tracker} {trace : CallTrace}

namespace Handled

variable {now : Time} {events : List Event}

section

variable (handled : Handled config actuator planner now tracker events trace later)

include handled

theorem untouched
    {key : String} (absent : key ∉ events.map (·.discrepancy.key)) :
    later key = tracker key := by
  induction handled with
  | nil => rfl
  | cons _ _ _ _ _ _ _ _ induction =>
    simp only [map_cons, mem_cons, not_or] at absent
    rw [induction absent.2, Function.update_of_ne absent.1]

/-- A discrepancy that comes once is judged by what the tracker held for it when
the pass began. -/
theorem once (distinct : (events.map (·.discrepancy.key)).Nodup) {event : Event}
    (member : event ∈ events) :
    later event.discrepancy.key = some (tracker.handled now event) ∧
      (event.acted = true →
        eligible config now (tracker.seen now event.discrepancy) = true ∧
          cooling config now (tracker.seen now event.discrepancy) = false) := by
  induction handled with
  | nil => cases member
  | cons tracker _ first _ _ _ single others induction =>
    obtain ⟨fresh, distinct⟩ := nodup_cons.mp distinct
    rcases mem_cons.mp member with rfl | member
    · refine ⟨?_, single.allowed⟩
      rw [others.untouched fresh, Function.update_self]
    · have other : event.discrepancy.key ≠ first.discrepancy.key := by
        intro same
        exact fresh (mem_map.mpr ⟨event, member, same⟩)
      have unchanged : Tracker.seen (Function.update tracker
          first.discrepancy.key (some (tracker.handled now first))) now
          event.discrepancy = tracker.seen now event.discrepancy := by
        rw [Tracker.seen, Tracker.seen, Function.update_of_ne other]
      have result := induction distinct member
      rw [Tracker.handled, unchanged] at result
      exact result

end

end Handled

theorem eq_of_append_bar {first second rest others : List Char}
    (free : '|' ∉ first) (otherFree : '|' ∉ second)
    (same : first ++ '|' :: rest = second ++ '|' :: others) :
    first = second ∧ rest = others := by
  have upToBar : ∀ {front back : List Char}, '|' ∉ front →
      (front ++ '|' :: back).takeWhile (· ≠ '|') = front := by
    intro front back absent
    rw [takeWhile_append_of_pos, takeWhile_cons_of_neg (by simp), append_nil]
    intro c member
    simp only [ne_eq, decide_eq_true_eq]
    rintro rfl
    exact absent member
  have frontEq : first = second := by
    rw [← upToBar free, same, upToBar otherFree]
  subst frontEq
  exact ⟨rfl, (List.cons.inj (append_cancel_left same)).2⟩

/-- Keys tell discrepancies apart as long as no deployment identifier contains a
bar. -/
theorem key_injective {first second : Discrepancy}
    (free : '|' ∉ first.depID.toList) (otherFree : '|' ∉ second.depID.toList)
    (same : first.key = second.key) : first = second := by
  have typeFree : ∀ type : EventType, '|' ∉ type.text.toList := by
    intro type
    cases type <;> decide
  have typesApart : ∀ type other : EventType,
      type.text.toList = other.text.toList → type = other := by
    intro type other
    cases type <;> cases other <;> decide
  have chars := congrArg String.toList same
  simp only [Discrepancy.key, String.toList_append, append_assoc] at chars
  obtain ⟨typeEq, rest⟩ := eq_of_append_bar (typeFree _) (typeFree _) chars
  obtain ⟨depEq, nodeEq⟩ := eq_of_append_bar free otherFree rest
  obtain ⟨type, depID, nodeID⟩ := first
  obtain ⟨otherType, otherDepID, otherNodeID⟩ := second
  obtain rfl : depID = otherDepID := String.toList_inj.mp depEq
  obtain rfl : nodeID = otherNodeID := String.toList_inj.mp nodeEq
  obtain rfl : type = otherType := typesApart _ _ typeEq
  rfl

structure Pass where
  now : Time
  report : Except String Report

namespace Pass

def events (pass : Pass) : List Event :=
  match pass.report with
  | .ok report => report.detected
  | .error _ => []

def observes (discrepancy : Discrepancy) (pass : Pass) : Bool :=
  pass.events.any fun event => event.discrepancy = discrepancy

def acts (discrepancy : Discrepancy) (pass : Pass) : Bool :=
  pass.events.any fun event => event.acted ∧ event.discrepancy = discrepancy

/-- The pass could list the registry, and it saw no discrepancy twice and no
deployment identifier with a bar. -/
structure Clean (pass : Pass) : Prop where
  completed : ∃ report, pass.report = .ok report
  distinct : (pass.events.map Event.discrepancy).Nodup
  barFree : ∀ event ∈ pass.events, '|' ∉ event.deploymentID.toList

theorem completed_of_events {pass : Pass} (saw : pass.events ≠ []) :
    ∃ report, pass.report = .ok report := by
  unfold events at saw
  split at saw
  · rename_i report completed
    exact ⟨report, completed⟩
  · exact absurd rfl saw

theorem Clean.nodup_keys {pass : Pass} (clean : pass.Clean) :
    (pass.events.map (·.discrepancy.key)).Nodup := by
  have keysOf : pass.events.map (·.discrepancy.key) =
      (pass.events.map Event.discrepancy).map Discrepancy.key := by
    rw [map_map]
    rfl
  rw [keysOf]
  refine clean.distinct.map_on ?_
  intro first firstMember second secondMember same
  obtain ⟨event, member, rfl⟩ := mem_map.mp firstMember
  obtain ⟨other, otherMember, rfl⟩ := mem_map.mp secondMember
  exact key_injective (clean.barFree event member) (clean.barFree other otherMember) same

theorem acts_eq {pass : Pass} (clean : pass.Clean) {event : Event} (member : event ∈ pass.events) :
    pass.acts event.discrepancy = event.acted := by
  cases acted : event.acted with
  | true => exact any_eq_true.mpr ⟨event, member, by simp [acted]⟩
  | false =>
    rw [acts, any_eq_false]
    intro other otherMember
    simp only [decide_eq_true_eq, not_and]
    intro otherActed same
    -- the pass has only one event for the discrepancy
    have sameEvent := inj_on_of_nodup_map clean.distinct otherMember member same
    rw [sameEvent, acted] at otherActed
    cases otherActed

end Pass

/-- The passes of a reconciler that started with an empty tracker.  Nothing is
assumed about what the registry answers. -/
inductive Passes (config : Config) (actuator : Option Actuator)
    (planner : Option FailoverPlanner) : List Pass → Tracker → Prop
  | start : Passes config actuator planner [] fun _ => none
  | next (passes : List Pass) (tracker later : Tracker) (pass : Pass)
      (trace : CallTrace) (earlier : Passes config actuator planner passes tracker)
      (ran : (reconcile config actuator planner pass.now tracker).Produces trace
        (pass.report, later)) :
      Passes config actuator planner (passes ++ [pass]) later

def stretch (discrepancy : Discrepancy) (passes : List Pass) : List Pass :=
  passes.rtakeWhile (Pass.observes discrepancy)

def lastActedIn (discrepancy : Discrepancy) (passes : List Pass) : Time :=
  (((passes.filter (Pass.acts discrepancy)).getLast?).map Pass.now).getD 0

theorem stretch_suffix (discrepancy : Discrepancy) (passes : List Pass) :
    stretch discrepancy passes <:+ passes :=
  rtakeWhile_suffix _ _

def remembered (discrepancy : Discrepancy) (passes : List Pass) : Option DiscState :=
  passes.head?.map fun first =>
    { firstSeen := first.now
      count := passes.length
      seenThis := true
      lastActed := lastActedIn discrepancy passes }

theorem lastActedIn_concat (discrepancy : Discrepancy) (passes : List Pass) (pass : Pass) :
    lastActedIn discrepancy (passes ++ [pass]) =
      if pass.acts discrepancy then pass.now
      else lastActedIn discrepancy passes := by
  unfold lastActedIn
  rw [filter_append]
  by_cases acts : pass.acts discrepancy = true
  · rw [filter_cons_of_pos acts, if_pos acts]
    simp
  · rw [filter_cons_of_neg acts, if_neg acts]
    simp

def judgedState (discrepancy : Discrepancy) (passes : List Pass) (now : Time) : DiscState where
  firstSeen := (passes.head?.map Pass.now).getD now
  count := passes.length + 1
  seenThis := true
  lastActed := lastActedIn discrepancy passes

theorem seen_of_remembered {tracker : Tracker} {discrepancy : Discrepancy}
    (tracked : tracker discrepancy.key = remembered discrepancy passes) (now : Time) :
    tracker.unmarked.seen now discrepancy = judgedState discrepancy passes now := by
  unfold Tracker.seen Tracker.unmarked
  rw [tracked]
  cases passes with
  | nil => rfl
  | cons => rfl

variable {pass : Pass} {discrepancy : Discrepancy}

theorem Pass.Clean.handled (clean : pass.Clean)
    (ran : (reconcile config actuator planner pass.now tracker).Produces trace
      (pass.report, later)) :
    ∃ handled handling, Handled config actuator planner pass.now tracker.unmarked pass.events
      handling handled ∧ later = handled.healed := by
  rcases reconcile_run ran with ⟨problem, failed, -⟩ |
    ⟨events, handled, _, handling, reportEq, -, handledRun, healed⟩
  · obtain ⟨report, completed⟩ := clean.completed
    rw [failed] at completed
    cases completed
  · rw [Pass.events, reportEq]
    exact ⟨handled, handling, handledRun, healed⟩

theorem remembered_step
    (ran : (reconcile config actuator planner pass.now tracker).Produces trace (pass.report, later))
    (clean : pass.Clean) (barFree : '|' ∉ discrepancy.depID.toList)
    (tracked : tracker discrepancy.key = remembered discrepancy (stretch discrepancy passes)) :
    later discrepancy.key = remembered discrepancy (stretch discrepancy (passes ++ [pass])) := by
  obtain ⟨handled, _, handledRun, rfl⟩ := clean.handled ran
  by_cases observed : pass.observes discrepancy = true
  · -- the only event for the discrepancy extends the stretch
    obtain ⟨event, member, same⟩ := any_eq_true.mp observed
    obtain rfl : event.discrepancy = discrepancy := of_decide_eq_true same
    have result := (handledRun.once clean.nodup_keys member).1
    have acts := pass.acts_eq clean member
    rw [stretch, rtakeWhile_concat_pos _ _ _ observed]
    change (handled event.discrepancy.key).filter DiscState.seenThis = _
    rw [result, Tracker.handled, seen_of_remembered tracked, remembered, lastActedIn_concat, acts]
    cases event.acted <;>
      cases earlier : passes.rtakeWhile (Pass.observes event.discrepancy) <;>
      simp [stretch, earlier, judgedState, Option.filter]
  · -- nothing touches the entry, so it is dropped
    have absent : discrepancy.key ∉ pass.events.map (·.discrepancy.key) := by
      intro member
      obtain ⟨event, eventMember, same⟩ := mem_map.mp member
      have isObserved := key_injective (clean.barFree event eventMember) barFree same
      exact observed (any_eq_true.mpr ⟨event, eventMember, decide_eq_true isObserved⟩)
    rw [stretch, rtakeWhile_concat_neg _ _ _ observed]
    change (handled discrepancy.key).filter DiscState.seenThis = none
    rw [handledRun.untouched absent]
    change ((tracker discrepancy.key).map _).filter DiscState.seenThis = none
    cases tracker discrepancy.key <;> rfl

theorem Passes.remembers (run : Passes config actuator planner passes tracker)
    (clean : ∀ pass ∈ passes, pass.Clean) (barFree : '|' ∉ discrepancy.depID.toList) :
    tracker discrepancy.key = remembered discrepancy (stretch discrepancy passes) := by
  induction run with
  | start => rfl
  | next _ _ _ pass _ _ ran induction =>
    have tracked := induction fun other member =>
      clean other (mem_append_left _ member)
    exact remembered_step ran (clean pass (by simp)) barFree tracked

/-- What hysteresis and cooldown promise about a pass that acts on a discrepancy:
the last passes saw it, it was there without interruption for long enough, and
earlier actions are long enough ago. -/
structure Guarded (config : Config) (discrepancy : Discrepancy)
    (earlier : List Pass) (pass : Pass) : Prop where
  counted : config.failureThreshold ≤ (earlier ++ [pass]).length ∧
    ∀ recent ∈ (earlier ++ [pass]).rtake config.failureThreshold.toNat,
      recent.observes discrepancy = true
  persisted : ∃ front first rest, earlier ++ [pass] = front ++ first :: rest ∧
    (∀ recent ∈ first :: rest, recent.observes discrepancy = true) ∧
    config.hysteresis ≤ pass.now - first.now
  cooled : ∀ other ∈ earlier, other.acts discrepancy = true →
    config.actionCooldown ≤ pass.now - other.now

section Guards

variable {earlier : List Pass}

/-- A pass that acts has judged the stretch of passes before it. -/
theorem Passes.judged (run : Passes config actuator planner (earlier ++ [pass]) tracker)
    (clean : ∀ other ∈ earlier ++ [pass], other.Clean)
    (acted : pass.acts discrepancy = true) :
    eligible config pass.now (judgedState discrepancy
        (stretch discrepancy earlier) pass.now) = true ∧
      cooling config pass.now (judgedState discrepancy
        (stretch discrepancy earlier) pass.now) = false := by
  generalize passesEq : earlier ++ [pass] = passes at run
  cases run with
  | start => simp at passesEq
  | next _ before _ _ _ earlierRun ran =>
    obtain ⟨rfl, lastEq⟩ := append_inj' passesEq rfl
    obtain rfl := head_eq_of_cons_eq lastEq
    have passClean := clean pass (by simp)
    obtain ⟨event, member, isActed⟩ := any_eq_true.mp acted
    obtain ⟨eventActed, rfl⟩ := of_decide_eq_true isActed
    have tracked : before event.discrepancy.key = _ := earlierRun.remembers
      (fun other member => clean other (mem_append_left _ member))
      (passClean.barFree event member)
    obtain ⟨handled, _, handledRun, -⟩ := passClean.handled ran
    have judged := (handledRun.once passClean.nodup_keys member).2 eventActed
    rw [seen_of_remembered tracked] at judged
    exact judged

theorem observes_of_acts (acted : pass.acts discrepancy = true) :
    pass.observes discrepancy = true := by
  obtain ⟨event, member, isActed⟩ := any_eq_true.mp acted
  exact any_eq_true.mpr ⟨event, member, decide_eq_true (of_decide_eq_true isActed).2⟩

/-- Passes that all saw the discrepancy belong to the last stretch. -/
theorem mem_stretch {front between : List Pass} {other : Pass}
    (saw : other.observes discrepancy = true)
    (steady : ∀ later ∈ between, later.observes discrepancy = true) :
    other ∈ stretch discrepancy (front ++ other :: between) := by
  rw [stretch, List.rtakeWhile, reverse_append, takeWhile_append_of_pos]
  · simp
  · intro later member
    rw [mem_reverse] at member
    rcases mem_cons.mp member with rfl | member
    · exact saw
    · exact steady later member

theorem le_lastActedIn (clock : passes.Pairwise fun first second => first.now ≤ second.now)
    {other : Pass} (member : other ∈ passes) (acted : other.acts discrepancy = true) :
    ∃ last ∈ passes, lastActedIn discrepancy passes = last.now ∧ other.now ≤ last.now := by
  induction passes using List.reverseRecOn with
  | nil => cases member
  | append_singleton _ pass induction =>
    obtain ⟨earlierClock, -, ordered⟩ := pairwise_append.mp clock
    rw [lastActedIn_concat]
    by_cases passActs : pass.acts discrepancy = true
    · refine ⟨pass, by simp, by rw [if_pos passActs], ?_⟩
      rcases mem_append.mp member with member | member
      · exact ordered other member pass (by simp)
      · rw [mem_singleton.mp member]
    · rw [if_neg passActs]
      rcases mem_append.mp member with member | member
      · obtain ⟨last, lastMember, lastEq, bound⟩ :=
          induction earlierClock member
        exact ⟨last, mem_append_left _ lastMember, lastEq, bound⟩
      · rw [mem_singleton.mp member] at acted
        exact absurd acted passActs

/-- The passes that saw the discrepancy without interruption, up to the present
one. -/
theorem observes_of_stretch (saw : pass.observes discrepancy = true) :
    ∀ recent ∈ stretch discrepancy earlier ++ [pass], recent.observes discrepancy = true := by
  intro recent member
  rcases mem_append.mp member with member | member
  · exact mem_rtakeWhile_imp member
  · rw [mem_singleton.mp member]
    exact saw

theorem guarded_of_eligible (saw : pass.observes discrepancy = true)
    (isEligible : eligible config pass.now (judgedState discrepancy
      (stretch discrepancy earlier) pass.now) = true)
    (cooled : ∀ other ∈ earlier, other.acts discrepancy = true →
      config.actionCooldown ≤ pass.now - other.now) :
    Guarded config discrepancy earlier pass := by
  obtain ⟨enough, longEnough⟩ := of_decide_eq_true isEligible
  simp only [judgedState] at enough longEnough
  obtain ⟨front, passesEq⟩ := stretch_suffix discrepancy earlier
  have splitEq : earlier ++ [pass] = front ++ (stretch discrepancy earlier ++ [pass]) := by
    rw [← append_assoc, passesEq]
  have allSaw := @observes_of_stretch pass discrepancy earlier saw
  refine ⟨⟨?_, fun recent member => ?_⟩, ?_, cooled⟩
  · have lengths := congrArg List.length splitEq
    simp only [length_append, length_singleton] at lengths ⊢
    omega
  · rw [splitEq, List.rtake, drop_append, drop_eq_nil_of_le] at member
    · exact allSaw recent (mem_of_mem_drop member)
    · simp only [length_append, length_singleton]
      omega
  · cases shape : stretch discrepancy earlier with
    | nil =>
      rw [shape] at splitEq allSaw longEnough
      exact ⟨front, pass, [], splitEq, allSaw, longEnough⟩
    | cons first rest =>
      rw [shape] at splitEq allSaw longEnough
      exact ⟨front, first, rest ++ [pass], splitEq, allSaw, longEnough⟩

/-- The promises hold for passes that list the registry, see nothing twice and no
identifier with a bar, as long as the discrepancy has not gone away since an
earlier action on it. -/
theorem reconcile_guarded
    (run : Passes config.normalized actuator planner (earlier ++ [pass]) tracker)
    (clean : ∀ other ∈ earlier ++ [pass], other.Clean)
    (clock : (earlier ++ [pass]).Pairwise fun first second =>
      first.now ≤ second.now)
    (started : ∀ other ∈ earlier, other.now ≠ 0)
    (acted : pass.acts discrepancy = true)
    (steady : ∀ front other between, earlier = front ++ other :: between →
      other.acts discrepancy = true →
      ∀ later ∈ between, later.observes discrepancy = true) :
    Guarded config.normalized discrepancy earlier pass := by
  obtain ⟨isEligible, notCooling⟩ := run.judged clean acted
  refine guarded_of_eligible (observes_of_acts acted) isEligible ?_
  intro other member otherActed
  obtain ⟨before, between, shape⟩ := append_of_mem member
  have inStretch := @mem_stretch discrepancy before between other
    (observes_of_acts otherActed) (steady before other between shape otherActed)
  rw [← shape] at inStretch
  -- the stretch holds the last action, which is not earlier than this one
  have within := stretch_suffix discrepancy earlier
  obtain ⟨last, lastMember, lastEq, bound⟩ := le_lastActedIn
    ((pairwise_append.mp clock).1.sublist within.sublist) inStretch otherActed
  have lastNow := started last (within.subset lastMember)
  rw [cooling, judgedState, lastEq, decide_eq_false_iff_not] at notCooling
  have cooled := not_lt.mp fun tooEarly => notCooling ⟨lastNow, tooEarly⟩
  exact cooled.trans (Int.sub_le_sub_left bound _)

end Guards

def hastyConfig : Config := { hysteresis := 0, failureThreshold := 1 }

def oneNodeCluster (state : NodeState) (now : Time) : Cluster :=
  { wholeCluster 3 with
    models := KeyedStores.Store.empty.insert ⟨"model", .error "no metadata"⟩
    nodes := KeyedStores.Store.empty.insert
      { id := "b", state := state, lastSeen := now } }

def oneNodeReconcile (tracker : Tracker) (observed : Time × NodeState) :
    CallTrace × (Except String Report × Tracker) :=
  untroubledRun (oneNodeCluster observed.2 observed.1)
    (reconcile hastyConfig.normalized (some (orchestratorActuator true)) none observed.1 tracker)

def oneNodePass (tracker : Tracker) (observed : Time × NodeState) : Pass × Tracker :=
  (⟨observed.1, (oneNodeReconcile tracker observed).2.1⟩, (oneNodeReconcile tracker observed).2.2)

theorem Passes.oneNode {tracker : Tracker}
    (run : Passes hastyConfig.normalized (some (orchestratorActuator true)) none
      passes tracker) (observed : Time × NodeState) :
    Passes hastyConfig.normalized (some (orchestratorActuator true)) none
      (passes ++ [(oneNodePass tracker observed).1])
      (oneNodePass tracker observed).2 := by
  refine .next passes tracker _ (oneNodePass tracker observed).1
    (oneNodeReconcile tracker observed).1 run ?_
  simp only [oneNodePass, Prod.mk.eta]
  exact produces_untroubledRun _ _

def oneNodeRun (observations : List (Time × NodeState)) : List Pass × Tracker :=
  observations.foldl (fun run observed =>
    (run.1 ++ [(oneNodePass run.2 observed).1], (oneNodePass run.2 observed).2))
    ([], fun _ => none)

def nextPass (earlier : List (Time × NodeState)) (observed : Time × NodeState) :
    Pass :=
  (oneNodePass (oneNodeRun earlier).2 observed).1

theorem passes_oneNodeRun (earlier : List (Time × NodeState)) (observed : Time × NodeState) :
    Passes hastyConfig.normalized (some (orchestratorActuator true)) none
      ((oneNodeRun earlier).1 ++ [nextPass earlier observed])
      (oneNodePass (oneNodeRun earlier).2 observed).2 := by
  refine Passes.oneNode ?_ observed
  induction earlier using List.reverseRecOn with
  | nil => exact .start
  | append_singleton _ last induction =>
    simpa only [oneNodeRun, foldl_append, foldl_cons, foldl_nil] using induction.oneNode last

def flappingNode : List (Time × NodeState) := [(1 * 10 ^ 9, .degraded), (2 * 10 ^ 9, .ready)]

def degradedNode : List (Time × NodeState) := [(1 * 10 ^ 9, .degraded)]

/-- The engine is restarted, the node recovers for one pass and degrades again:
the engine is restarted two seconds after the first time, with a cooldown of two
minutes. -/
theorem flapping_skips_cooldown :
    Passes hastyConfig.normalized (some (orchestratorActuator true)) none
        ((oneNodeRun flappingNode).1 ++ [nextPass flappingNode (3 * 10 ^ 9, .degraded)])
        (oneNodePass (oneNodeRun flappingNode).2 (3 * 10 ^ 9, .degraded)).2 ∧
      ((oneNodeRun flappingNode).1 ++ [nextPass flappingNode (3 * 10 ^ 9, .degraded)]).Pairwise
        (fun first second => first.now ≤ second.now) ∧
      (nextPass flappingNode (3 * 10 ^ 9, .degraded)).acts ⟨.engineDown, "dep-1", "b"⟩ = true ∧
      hastyConfig.normalized.actionCooldown = 120 * 10 ^ 9 ∧
      ¬Guarded hastyConfig.normalized ⟨.engineDown, "dep-1", "b"⟩
        (oneNodeRun flappingNode).1
        (nextPass flappingNode (3 * 10 ^ 9, .degraded)) := by
  refine ⟨passes_oneNodeRun _ _, by decide +kernel, by decide +kernel, by decide +kernel, ?_⟩
  intro guarded
  have early : ∃ first ∈ (oneNodeRun flappingNode).1,
      first.acts ⟨.engineDown, "dep-1", "b"⟩ = true ∧
        ¬hastyConfig.normalized.actionCooldown ≤
          (nextPass flappingNode (3 * 10 ^ 9, .degraded)).now - first.now := by
    decide +kernel
  obtain ⟨first, member, firstActed, tooEarly⟩ := early
  exact tooEarly (guarded.cooled first member firstActed)

/-- A node that stays degraded has its engine restarted again after two
minutes. -/
theorem reconcile_guarded_degraded :
    (∃ first ∈ (oneNodeRun degradedNode).1, first.acts ⟨.engineDown, "dep-1", "b"⟩ = true) ∧
      Guarded hastyConfig.normalized ⟨.engineDown, "dep-1", "b"⟩
        (oneNodeRun degradedNode).1
        (nextPass degradedNode (121 * 10 ^ 9, .degraded)) := by
  refine ⟨by decide +kernel, reconcile_guarded (passes_oneNodeRun _ _) ?_
    (by decide +kernel) (by decide +kernel) (by decide +kernel) ?_⟩
  · have allClean : ∀ other ∈ (oneNodeRun degradedNode).1 ++
        [nextPass degradedNode (121 * 10 ^ 9, .degraded)],
        other.events ≠ [] ∧ (other.events.map Event.discrepancy).Nodup ∧
          ∀ event ∈ other.events, '|' ∉ event.deploymentID.toList := by
      decide +kernel
    intro other member
    obtain ⟨saw, distinct, barFree⟩ := allClean other member
    exact ⟨Pass.completed_of_events saw, distinct, barFree⟩
  · intro front other between split otherActed
    have alone := congrArg List.length split
    simp only [length_append, length_cons] at alone
    have single : (oneNodeRun degradedNode).1.length = 1 := by decide +kernel
    rw [eq_nil_of_length_eq_zero (by omega : between.length = 0)]
    simp

end Purser.Reconciler
