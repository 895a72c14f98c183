import Mathlib.Tactic.Linarith
import Purser.GatewayQuota
import Purser.TransitionRuns

/-!
# Admission limits under every interleaving

`acquire` counts a request globally and then takes a slot of its key; dropping
the guard takes both back.  The limits hold while the 32-bit counters do not
wrap around.
-/

namespace Purser.GatewayQuota

open KeyedStores TransitionRuns List
open Function (update update_self update_eq_self)

/-- Where a request stands. -/
inductive Stage
  /-- Before the atomic addition of `acquire`. -/
  | calling (promptTokens : ℕ)
  /-- Before its locked section. -/
  | checking (promptTokens : ℕ)
  /-- Before its atomic subtraction. -/
  | refusing (error : RateLimited)
  | refused (error : RateLimited)
  /-- The caller holds the guard. -/
  | guarding
  /-- Before the atomic subtraction of `release`. -/
  | dropping
  /-- Before its locked section. -/
  | forgetting
  | dropped
deriving DecidableEq

structure Request where
  keyId : String
  stage : Stage

structure System where
  limiter : Limiter
  requests : List Request

inductive Action
  | call (keyId : String) (promptTokens : ℕ)
  /-- The next piece of the call that the request is in. -/
  | proceed (place : ℕ) (now : ℚ)
  | drop (place : ℕ)
  | chargeTokens (now : ℚ) (keyId : String) (tokens : ℕ)

/-- One piece of `acquire` or of `release`. -/
def Stage.proceed (quota : QuotaConfig) (now : ℚ) (keyId : String)
    (limiter : Limiter) : Stage → Option (Limiter × Stage)
  | calling promptTokens =>
    let counted := { limiter with globalInflight := Limiter.fetchAdd limiter.globalInflight }
    if Limiter.Saturated quota limiter.globalInflight then
      some (counted, refusing (Limiter.saturation quota))
    else some (counted, checking promptTokens)
  | checking promptTokens =>
    match limiter.acquireSlot quota now keyId promptTokens with
    | (.ok (), after) => some (after, guarding)
    | (.error error, after) => some (after, refusing error)
  | refusing error =>
    some ({ limiter with globalInflight := Limiter.fetchSub limiter.globalInflight }, refused error)
  | dropping =>
    some ({ limiter with globalInflight := Limiter.fetchSub limiter.globalInflight }, forgetting)
  | forgetting => some (limiter.releaseSlot keyId, dropped)
  | refused _ => none
  | guarding => none
  | dropped => none

namespace System

def initial : System := ⟨.new, []⟩

def step (quota : QuotaConfig) (system : System) : Action → Option System
  | .call keyId promptTokens =>
    some { system with requests := system.requests ++ [⟨keyId, .calling promptTokens⟩] }
  | .proceed place now =>
    system.requests[place]?.bind fun request =>
      (request.stage.proceed quota now request.keyId system.limiter).map fun next =>
        ⟨next.1, system.requests.set place ⟨request.keyId, next.2⟩⟩
  | .drop place =>
    system.requests[place]?.bind fun request =>
      if request.stage = .guarding then
        some { system with requests := system.requests.set place ⟨request.keyId, .dropping⟩ }
      else none
  | .chargeTokens now keyId tokens =>
    some { system with limiter := system.limiter.chargeTokens now keyId tokens }

end System

namespace Stage

def live : Stage → Bool
  | guarding => true
  | _ => false

/-- The request is in a call that has not returned. -/
def inProgress : Stage → Bool
  | calling _ | checking _ | refusing _ | dropping | forgetting => true
  | refused _ | guarding | dropped => false

def counted : Stage → Bool
  | checking _ | refusing _ | guarding | dropping => true
  | calling _ | refused _ | forgetting | dropped => false

/-- The request passed the global ceiling, and is in the global count. -/
def entered : Stage → Bool
  | checking _ | guarding | dropping => true
  | calling _ | refusing _ | refused _ | forgetting | dropped => false

/-- The request has a slot of its key. -/
def slotted : Stage → Bool
  | guarding | dropping | forgetting => true
  | calling _ | checking _ | refusing _ | refused _ | dropped => false

/-- The request is in the global count or has a slot. -/
def underWay : Stage → Bool
  | checking _ | refusing _ | guarding | dropping | forgetting => true
  | calling _ | refused _ | dropped => false

end Stage

namespace System

def liveGuards (system : System) : ℕ := system.requests.countP fun request => request.stage.live

def liveGuardsOf (system : System) (keyId : String) : ℕ :=
  system.requests.countP fun request => request.keyId = keyId && request.stage.live

def underWay (system : System) : ℕ := system.requests.countP fun request => request.stage.underWay

def Idle (system : System) : Prop := ∀ request ∈ system.requests, request.stage.inProgress = false

/-- The action leaves fewer requests under way than a counter can count. -/
def Countable (quota : QuotaConfig) (system : System) (action : Action) : Prop :=
  ∀ after ∈ system.step quota action, after.underWay < 2 ^ 32

end System

/-- The counter of a key; a key without a state counts nothing. -/
def Limiter.concurrent (limiter : Limiter) (keyId : String) : ℕ :=
  ((limiter.keys.find keyId).map KeyState.concurrent).getD 0

/-! ### What each piece does to the counters -/

namespace Limiter

theorem concurrent_put (limiter : Limiter) (state : KeyState) :
    concurrent { limiter with keys := limiter.keys.put state } =
      update limiter.concurrent state.keyId state.concurrent := by
  ext keyId
  simp only [concurrent, Store.find_put, Function.update_apply, eq_comm]
  split <;> simp

variable {limiter : Limiter}

theorem concurrent_of_find {keyId : String} {state : KeyState}
    (found : limiter.keys.find keyId = some state) :
    limiter.concurrent keyId = state.concurrent := by
  simp [concurrent, found]

theorem concurrent_congr {other : Limiter} (sameKeys : limiter.keys = other.keys) :
    limiter.concurrent = other.concurrent := by
  ext keyId
  rw [concurrent, concurrent, sameKeys]

theorem concurrent_replace {old : KeyState} (state : KeyState)
    (found : limiter.keys.find state.keyId = some old) :
    concurrent { limiter with keys := limiter.keys.replace state } =
      update limiter.concurrent state.keyId state.concurrent := by
  rw [Store.replace_eq_put (by simp [found])]
  exact concurrent_put limiter state

section

variable (limiter : Limiter) (quota : QuotaConfig) (now : ℚ) (keyId : String) (promptTokens : ℕ)

theorem concurrent_chargeTokens (tokens : ℕ) :
    (limiter.chargeTokens now keyId tokens).concurrent = limiter.concurrent := by
  rw [chargeTokens]
  split
  · rfl
  · split
    next state found =>
      obtain rfl := Store.key_of_find found
      rw [concurrent_replace { state with bucket := state.bucket.charge now tokens } found]
      rw [← concurrent_of_find found]
      exact update_eq_self state.keyId _
    next => rfl

theorem concurrent_releaseSlot :
    (limiter.releaseSlot keyId).concurrent =
      update limiter.concurrent keyId (limiter.concurrent keyId - 1) := by
  rw [releaseSlot]
  split
  next state found =>
    obtain rfl := Store.key_of_find found
    rw [concurrent_of_find found]
    exact concurrent_replace { state with concurrent := state.concurrent - 1 } found
  next absent =>
    have nothing : limiter.concurrent keyId = 0 := by
      simp [concurrent, absent]
    ext other
    by_cases same : other = keyId
    · simp [same, nothing]
    · simp [same]

theorem globalInflight_acquireSlot :
    (limiter.acquireSlot quota now keyId promptTokens).2.globalInflight =
      limiter.globalInflight := by
  simp only [acquireSlot]
  split
  · rfl
  · split
    · split <;> rfl
    · rfl

/-- A request gets a slot only below the ceiling of its key. -/
theorem concurrent_acquireSlot :
    match limiter.acquireSlot quota now keyId promptTokens with
    | (.ok (), after) =>
      after.concurrent = update limiter.concurrent keyId (fetchAdd (limiter.concurrent keyId)) ∧
        (0 < quota.maxConcurrent.toNat →
          fetchAdd (limiter.concurrent keyId) ≤ quota.maxConcurrent.toNat)
    | (.error _, after) => after.concurrent = limiter.concurrent := by
  generalize stateEq : (limiter.keys.find keyId).getD (.fresh quota now keyId) = state
  have sameKey : state.keyId = keyId := by
    cases found : limiter.keys.find keyId with
    | none => simp [← stateEq, found, KeyState.fresh]
    | some => simp [← stateEq, found, Store.key_of_find found]
  have count : limiter.concurrent keyId = state.concurrent := by
    cases found : limiter.keys.find keyId with
    | none => simp [← stateEq, found, KeyState.fresh, concurrent]
    | some => simp [← stateEq, found, concurrent]
  have unchanged : update limiter.concurrent keyId state.concurrent = limiter.concurrent := by
    rw [← count]
    exact update_eq_self keyId _
  simp only [acquireSlot, stateEq]
  by_cases full : 0 < quota.maxConcurrent.toNat ∧
      quota.maxConcurrent.toNat < fetchAdd state.concurrent
  · simp only [if_pos full, concurrent_put, sameKey, unchanged]
  · simp only [if_neg full, count]
    have below : 0 < quota.maxConcurrent.toNat →
        fetchAdd state.concurrent ≤ quota.maxConcurrent.toNat := by
      intro limited
      by_contra above
      exact full ⟨limited, Nat.lt_of_not_le above⟩
    by_cases metered : 0 < quota.tokensPerMin.toNat
    · simp only [if_pos metered]
      rcases state.bucket.tryTake now (max promptTokens 1 : ℕ) with ⟨taken, bucket⟩
      cases taken with
      | false => simp only [concurrent_put, sameKey, unchanged]
      | true => exact ⟨by simp only [concurrent_put, sameKey], below⟩
    · simp only [if_neg metered]
      exact ⟨by simp only [concurrent_put, sameKey], below⟩

end

end Limiter

variable (quota : QuotaConfig) (keyId : String) (before after : Limiter)

/-- What a piece of a call does to the counters. -/
inductive Stage.Moves :
    Stage → Stage → Prop
  | enter {promptTokens : ℕ}
      (below : ¬ Limiter.Saturated quota before.globalInflight)
      (inflight : after.globalInflight = Limiter.fetchAdd before.globalInflight)
      (slots : after.concurrent = before.concurrent) :
      Moves (.calling promptTokens) (.checking promptTokens)
  | turnAway {promptTokens : ℕ} {error : RateLimited}
      (inflight : after.globalInflight = Limiter.fetchAdd before.globalInflight)
      (slots : after.concurrent = before.concurrent) :
      Moves (.calling promptTokens) (.refusing error)
  | take {promptTokens : ℕ}
      (inflight : after.globalInflight = before.globalInflight)
      (slots : after.concurrent =
        update before.concurrent keyId (Limiter.fetchAdd (before.concurrent keyId)))
      (below : 0 < quota.maxConcurrent.toNat →
        Limiter.fetchAdd (before.concurrent keyId) ≤ quota.maxConcurrent.toNat) :
      Moves (.checking promptTokens) .guarding
  | fail {promptTokens : ℕ} {error : RateLimited}
      (inflight : after.globalInflight = before.globalInflight)
      (slots : after.concurrent = before.concurrent) :
      Moves (.checking promptTokens) (.refusing error)
  | rollBack {error : RateLimited}
      (inflight : after.globalInflight = Limiter.fetchSub before.globalInflight)
      (slots : after.concurrent = before.concurrent) :
      Moves (.refusing error) (.refused error)
  | leave
      (inflight : after.globalInflight = Limiter.fetchSub before.globalInflight)
      (slots : after.concurrent = before.concurrent) :
      Moves .dropping .forgetting
  | forget
      (inflight : after.globalInflight = before.globalInflight)
      (slots : after.concurrent = update before.concurrent keyId (before.concurrent keyId - 1)) :
      Moves .forgetting .dropped

theorem Stage.moves_of_proceed {quota : QuotaConfig} {now : ℚ} {keyId : String}
    {before after : Limiter} {stage next : Stage}
    (proceeded : stage.proceed quota now keyId before = some (after, next)) :
    Moves quota keyId before after stage next := by
  cases stage with
  | calling =>
    simp only [Stage.proceed] at proceeded
    split at proceeded
    next => cases proceeded; exact .turnAway rfl rfl
    next below => cases proceeded; exact .enter below rfl rfl
  | checking promptTokens =>
    have slots := before.concurrent_acquireSlot quota now keyId promptTokens
    have inflight := before.globalInflight_acquireSlot quota now keyId promptTokens
    simp only [Stage.proceed] at proceeded
    split at proceeded
    next acquired =>
      cases proceeded
      rw [acquired] at slots inflight
      exact .take inflight slots.1 slots.2
    next acquired =>
      cases proceeded
      rw [acquired] at slots inflight
      exact .fail inflight slots
  | refusing =>
    obtain ⟨rfl, rfl⟩ := Prod.mk.inj (Option.some.inj proceeded)
    exact .rollBack rfl (Limiter.concurrent_congr rfl)
  | dropping =>
    obtain ⟨rfl, rfl⟩ := Prod.mk.inj (Option.some.inj proceeded)
    exact .leave rfl (Limiter.concurrent_congr rfl)
  | forgetting =>
    cases proceeded
    exact .forget rfl (before.concurrent_releaseSlot keyId)
  | refused | guarding | dropped => cases proceeded

namespace System

def slots (system : System) (keyId : String) : ℕ :=
  system.requests.countP fun request => request.keyId = keyId && request.stage.slotted

/-- The counters count what they are for, and the ceilings hold for it. -/
structure Counted (quota : QuotaConfig) (system : System) : Prop where
  inflight : system.limiter.globalInflight =
    system.requests.countP fun request => request.stage.counted
  slots : ∀ keyId, system.limiter.concurrent keyId = system.slots keyId
  ceiling : 0 < quota.maxInflight.toNat →
    (system.requests.countP fun request => request.stage.entered) ≤ quota.maxInflight.toNat
  perKey : 0 < quota.maxConcurrent.toNat → ∀ keyId, system.slots keyId ≤ quota.maxConcurrent.toNat

/-- Which stages are among which others. -/
structure Phases (stage : Stage) : Prop where
  counted : stage.counted → stage.underWay
  slotted : stage.slotted → stage.underWay
  entered : stage.entered → stage.counted
  live : stage.live → stage.entered ∧ stage.slotted
  idle : stage.inProgress = false → stage.slotted = stage.live ∧ stage.counted = stage.live

theorem phases (stage : Stage) : Phases stage := by
  cases stage <;> constructor <;> simp [Stage.counted, Stage.underWay, Stage.slotted,
    Stage.entered, Stage.live, Stage.inProgress]

theorem slots_le_underWay (system : System) (keyId : String) :
    system.slots keyId ≤ system.underWay := by
  apply countP_mono_left
  intro request _ slotted
  exact (phases _).slotted (Bool.and_eq_true_iff.mp slotted).2

variable {place admissions : ℕ} {request : Request} {system : System} {quota : QuotaConfig}

theorem counts_set {requests : List Request} (atPlace : requests[place]? = some request)
    (next : Stage) (phase : Stage → Bool) :
    ((requests.set place ⟨request.keyId, next⟩).countP fun other => phase other.stage) +
        (phase request.stage).toNat =
      (requests.countP fun other => phase other.stage) + (phase next).toNat :=
  countP_set_add _ (fun other : Request => phase other.stage) atPlace

theorem slots_set (atPlace : system.requests[place]? = some request) (limiter : Limiter)
    (next : Stage) (keyId : String) :
    slots ⟨limiter, system.requests.set place ⟨request.keyId, next⟩⟩ keyId +
        (decide (request.keyId = keyId) && request.stage.slotted).toNat =
      system.slots keyId + (decide (request.keyId = keyId) && next.slotted).toNat :=
  countP_set_add _
    (fun other : Request => decide (other.keyId = keyId) && other.stage.slotted) atPlace

section Moves

variable {requests : List Request} {after : Limiter} {next : Stage}
  (counted : system.Counted quota) (atPlace : system.requests[place]? = some request)
  (moves : request.stage.Moves quota request.keyId system.limiter after next)
  (moved : requests = system.requests.set place ⟨request.keyId, next⟩)
  (small : underWay ⟨after, requests⟩ < 2 ^ 32)

include counted atPlace moves moved small

theorem inflight_of_moves :
    after.globalInflight = requests.countP fun other => other.stage.counted := by
  have count := counts_set atPlace next Stage.counted
  have bounded := Nat.lt_of_le_of_lt
    (countP_mono_left fun request _ => (phases request.stage).counted) small
  rw [← moved, ← counted.inflight] at count
  generalize List.countP _ requests = total at count bounded ⊢
  generalize request.stage = stage at moves count
  cases moves <;>
    simp only [Stage.counted, Bool.toNat_true, Bool.toNat_false] at count <;>
    simp only [*, Limiter.fetchAdd, Limiter.fetchSub] <;>
    omega

theorem ceiling_of_moves (limited : 0 < quota.maxInflight.toNat) :
    (requests.countP fun other => other.stage.entered) ≤ quota.maxInflight.toNat := by
  have inflightAfter := inflight_of_moves counted atPlace moves moved small
  have passed := countP_mono_left fun request (_ : request ∈ requests) =>
    (phases request.stage).entered
  have count := counts_set atPlace next Stage.entered
  have ceiling := counted.ceiling limited
  simp only [← inflightAfter] at passed
  rw [← moved] at count
  generalize List.countP _ requests = total at count passed ⊢
  generalize List.countP _ system.requests = before at count ceiling
  generalize request.stage = stage at moves count
  cases moves with
  | enter below =>
    have admitted : Limiter.fetchAdd system.limiter.globalInflight ≤ quota.maxInflight.toNat := by
      by_contra above
      exact below ⟨limited, Nat.lt_of_not_le above⟩
    omega
  | _ =>
    simp only [Stage.entered, Bool.toNat_true, Bool.toNat_false] at count
    omega

theorem slots_of_moves (keyId : String) :
    after.concurrent keyId = slots ⟨after, requests⟩ keyId ∧
      (0 < quota.maxConcurrent.toNat → after.concurrent keyId ≤ quota.maxConcurrent.toNat) := by
  have count := slots_set atPlace after next keyId
  have bounded := Nat.lt_of_le_of_lt (slots_le_underWay _ keyId) small
  have perKey := fun limited => counted.perKey limited keyId
  rw [← moved, ← counted.slots keyId] at count
  rw [← counted.slots keyId] at perKey
  clear moved
  generalize request.stage = stage at moves count
  by_cases own : request.keyId = keyId
  · subst own
    simp only [decide_true, Bool.true_and] at count
    cases moves with
    | take _ slots below =>
      simp only [Stage.slotted, Bool.toNat_true, Bool.toNat_false] at count
      simp only [slots, update_self]
      refine ⟨?_, below⟩
      simp only [Limiter.fetchAdd]
      omega
    | forget _ slots =>
      simp only [Stage.slotted, Bool.toNat_true, Bool.toNat_false] at count
      simp only [slots, update_self]
      omega
    | _ =>
      simp only [Stage.slotted, Bool.toNat_true, Bool.toNat_false] at count
      simp only [*]
      omega
  · have unchanged : after.concurrent keyId = system.limiter.concurrent keyId := by
      cases moves <;> simp only [*, Function.update_of_ne (Ne.symm own)]
    simp only [own, decide_false, Bool.false_and, Bool.toNat_false] at count
    rw [unchanged]
    exact ⟨count.symm, perKey⟩

theorem counted_of_moves : Counted quota ⟨after, requests⟩ where
  inflight := inflight_of_moves counted atPlace moves moved small
  slots keyId := (slots_of_moves counted atPlace moves moved small keyId).1
  ceiling := ceiling_of_moves counted atPlace moves moved small
  perKey limited keyId := by
    obtain ⟨exact, bounded⟩ := slots_of_moves counted atPlace moves moved small keyId
    rw [← exact]
    exact bounded limited

end Moves

section

variable (counted : system.Counted quota)

include counted

theorem counted_call (keyId : String) (promptTokens : ℕ) : Counted quota
      { system with requests := system.requests ++ [⟨keyId, .calling promptTokens⟩] } where
  inflight := by
    simpa [Stage.counted] using counted.inflight
  slots other := by
    simpa [System.slots, Stage.slotted] using counted.slots other
  ceiling limited := by
    simpa [Stage.entered] using counted.ceiling limited
  perKey limited other := by
    simpa [System.slots, Stage.slotted] using counted.perKey limited other

theorem counted_drop (atPlace : system.requests[place]? = some request)
    (guarding : request.stage = .guarding) :
    Counted quota
      { system with requests := system.requests.set place ⟨request.keyId, .dropping⟩ } := by
  have unmoved (phase : Stage → Bool) (same : phase .guarding = phase .dropping) :
      ((system.requests.set place ⟨request.keyId, .dropping⟩).countP fun other =>
        phase other.stage) = system.requests.countP fun other => phase other.stage := by
    have count := counts_set atPlace .dropping phase
    rw [guarding, same] at count
    exact Nat.add_right_cancel count
  have slotsUnmoved (keyId : String) := slots_set atPlace system.limiter .dropping keyId
  rw [guarding] at slotsUnmoved
  have slotsSame (keyId : String) := Nat.add_right_cancel (slotsUnmoved keyId)
  constructor
  · exact (counted.inflight).trans (unmoved Stage.counted rfl).symm
  · intro keyId
    exact (counted.slots keyId).trans (slotsSame keyId).symm
  · intro limited
    exact (unmoved Stage.entered rfl).le.trans (counted.ceiling limited)
  · intro limited keyId
    exact (slotsSame keyId).le.trans (counted.perKey limited keyId)

theorem counted_chargeTokens (now : ℚ) (keyId : String) (tokens : ℕ) :
    Counted quota { system with limiter := system.limiter.chargeTokens now keyId tokens } where
  inflight := by
    rw [Limiter.chargeTokens]
    split_ifs
    · exact counted.inflight
    · split <;> exact counted.inflight
  slots other := by
    rw [Limiter.concurrent_chargeTokens]
    exact counted.slots other
  ceiling := counted.ceiling
  perKey := counted.perKey

theorem counted_step {after : System} {action : Action} (countable : system.Countable quota action)
    (stepped : system.step quota action = some after) : after.Counted quota := by
  have small := countable after stepped
  cases action with
  | call keyId promptTokens =>
    cases stepped
    exact counted_call counted keyId promptTokens
  | proceed =>
    obtain ⟨request, atPlace, proceeded⟩ := Option.bind_eq_some_iff.mp stepped
    obtain ⟨⟨limiter, next⟩, moved, rfl⟩ := Option.map_eq_some_iff.mp proceeded
    exact counted_of_moves counted atPlace (Stage.moves_of_proceed moved) rfl small
  | drop =>
    obtain ⟨request, atPlace, dropped⟩ := Option.bind_eq_some_iff.mp stepped
    split at dropped
    next guarding =>
      cases dropped
      exact counted_drop counted atPlace guarding
    next => cases dropped
  | chargeTokens now keyId tokens =>
    cases stepped
    exact counted_chargeTokens counted now keyId tokens

end

theorem counted_initial (quota : QuotaConfig) : initial.Counted quota where
  inflight := rfl
  slots _ := rfl
  ceiling _ := Nat.zero_le _
  perKey _ _ := Nat.zero_le _

/-! ### The limits -/

theorem liveGuardsOf_le_slots (system : System) (keyId : String) :
    system.liveGuardsOf keyId ≤ system.slots keyId := by
  apply countP_mono_left
  intro request _ guarded
  rw [Bool.and_eq_true_iff] at guarded ⊢
  exact ⟨guarded.1, ((phases _).live guarded.2).2⟩

theorem counts_of_idle (idle : system.Idle) : system.slots = system.liveGuardsOf ∧
    (system.requests.countP fun request => request.stage.counted) = system.liveGuards := by
  have same (request : Request) (member : request ∈ system.requests) :=
    (phases request.stage).idle (idle request member)
  refine ⟨funext fun keyId => countP_congr fun request member => ?_,
    countP_congr fun request member => ?_⟩
  · rw [(same request member).1]
  · rw [(same request member).2]

/-- Live guards stay within the global ceiling and that of their key; between
calls the counters are exact, and zero once all guards are dropped. -/
theorem admissionLimits_hold (quota : QuotaConfig) {actions : List Action} {final : System}
    (inflightLimited : 0 < quota.maxInflight.toNat)
    (concurrentLimited : 0 < quota.maxConcurrent.toNat)
    (ran : run (step quota) initial actions = some final)
    (conforms : Conforms (step quota) (Countable quota) initial actions) :
    final.liveGuards ≤ quota.maxInflight.toNat ∧
      (∀ keyId, final.liveGuardsOf keyId ≤ quota.maxConcurrent.toNat) ∧
      (final.Idle → ∀ keyId, final.limiter.concurrent keyId = final.liveGuardsOf keyId) ∧
      (final.Idle → final.liveGuards = 0 →
        final.limiter.globalInflight = 0 ∧ ∀ keyId, final.limiter.concurrent keyId = 0) := by
  have counted : final.Counted quota :=
    run_induction (motive := fun _ system => system.Counted quota) (counted_initial quota)
      (fun counted countable stepped => counted_step counted countable stepped) ran conforms
  have exactSlots (idle : final.Idle) (keyId : String) :
      final.limiter.concurrent keyId = final.liveGuardsOf keyId := by
    rw [counted.slots, (counts_of_idle idle).1]
  refine ⟨?_, ?_, exactSlots, ?_⟩
  · exact (countP_mono_left fun request _ live => ((phases request.stage).live live).1).trans
      (counted.ceiling inflightLimited)
  · intro keyId
    exact (liveGuardsOf_le_slots final keyId).trans (counted.perKey concurrentLimited keyId)
  · intro idle none
    constructor
    · rw [counted.inflight, (counts_of_idle idle).2, none]
    · intro keyId
      have bounded : final.liveGuardsOf keyId ≤ final.liveGuards := countP_mono_left (by simp)
      rw [exactSlots idle]
      omega

/-- One request of a key at a time. -/
def singleQuota : QuotaConfig := ⟨60, 1, 4, 2⟩

/-- A second request of the key comes while the guard of the first one is live. -/
def secondRefused : List Action :=
  [.call "k" 5, .call "k" 5, .proceed 0 0, .proceed 1 0, .proceed 0 0, .proceed 1 0,
    .chargeTokens 1 "k" 3, .proceed 1 1]

instance (quota : QuotaConfig) (system : System) (action : Action) :
    Decidable (system.Countable quota action) :=
  inferInstanceAs (Decidable (∀ after ∈ system.step quota action, after.underWay < 2 ^ 32))

theorem admissionLimits_hold_secondRefused :
    ∃ final, run (step singleQuota) initial secondRefused = some final ∧
      final.liveGuards ≤ 4 ∧ ∀ keyId, final.liveGuardsOf keyId ≤ 1 := by
  have runs : (run (step singleQuota) initial secondRefused).isSome := by decide +kernel
  obtain ⟨final, ran⟩ := Option.isSome_iff_exists.mp runs
  have limits := admissionLimits_hold singleQuota (by decide) (by decide) ran (by decide +kernel)
  exact ⟨final, ran, limits.1, limits.2.1⟩

/-! ### Counters that wrap around -/

/-- The largest limits: no 32-bit count is above them. -/
def largestQuota : QuotaConfig := ⟨4294967296, 4294967295, 4294967295, 2⟩

theorem fetchAdd_le_largest (previous : ℕ) : Limiter.fetchAdd previous ≤ 4294967295 :=
  Nat.le_of_lt_succ (Nat.mod_lt _ (by decide))

def usedKey (admissions : ℕ) : KeyState where
  keyId := "k"
  concurrent := admissions % 2 ^ 32
  bucket := ⟨4294967296 - admissions, 4294967296, 4294967296 / 60, 0⟩

structure Filled (admissions : ℕ) (system : System) : Prop where
  inflight : system.limiter.globalInflight = admissions % 2 ^ 32
  key : (system.limiter.keys.find "k").getD (.fresh largestQuota 0 "k") = usedKey admissions
  requests : system.requests = List.replicate admissions ⟨"k", .guarding⟩

theorem filled_initial : Filled 0 initial where
  inflight := rfl
  key := by
    simp [initial, Limiter.new, Store.find, Store.empty, KeyState.fresh, usedKey,
      TokenBucket.new, largestQuota]
  requests := rfl

theorem tryTake_usedKey (room : admissions < 2 ^ 32) :
    (usedKey admissions).bucket.tryTake 0 ((max 0 1 : ℕ) : ℚ) =
      (true, (usedKey (admissions + 1)).bucket) := by
  have enough : (1 : ℚ) ≤ 4294967296 - admissions := by
    have fewer : ((admissions + 1 : ℕ) : ℚ) ≤ (4294967296 : ℕ) := Nat.cast_le.mpr room
    push_cast at fewer
    linarith
  simp only [TokenBucket.tryTake, TokenBucket.refill, usedKey, sub_self, lt_irrefl, if_false,
    Nat.zero_max, Nat.cast_one, if_pos enough, Nat.cast_add, sub_add_eq_sub_sub]

theorem acquireSlot_filled {limiter : Limiter} (room : admissions < 2 ^ 32)
    (key : (limiter.keys.find "k").getD (.fresh largestQuota 0 "k") = usedKey admissions) :
    limiter.acquireSlot largestQuota 0 "k" 0 =
      (.ok (), { limiter with keys := limiter.keys.put (usedKey (admissions + 1)) }) := by
  have count : Limiter.fetchAdd (usedKey admissions).concurrent =
      (usedKey (admissions + 1)).concurrent := by
    simp only [Limiter.fetchAdd, usedKey]
    omega
  have below : ¬ (0 < largestQuota.maxConcurrent.toNat ∧ largestQuota.maxConcurrent.toNat <
      (usedKey (admissions + 1)).concurrent) := by
    rintro ⟨_, above⟩
    exact Nat.not_lt_of_le (fetchAdd_le_largest _) above
  have metered : 0 < largestQuota.tokensPerMin.toNat := by decide
  simp only [Limiter.acquireSlot, key, count, if_neg below, if_pos metered, tryTake_usedKey room]
  rfl

theorem filled_succ (filled : Filled admissions system) (room : admissions < 2 ^ 32) :
    ∃ after, run (step largestQuota) system
        [.call "k" 0, .proceed admissions 0, .proceed admissions 0] = some after ∧
      Filled (admissions + 1) after := by
  obtain ⟨⟨inflight, keys⟩, requests⟩ := system
  obtain ⟨inflightEq, key, rfl⟩ := filled
  have atEnd (stage : Stage) :
      (List.replicate admissions (⟨"k", .guarding⟩ : Request) ++ [⟨"k", stage⟩])[admissions]? =
        some ⟨"k", stage⟩ := by
    simp
  have setEnd (stage next : Stage) :
      (List.replicate admissions (⟨"k", .guarding⟩ : Request) ++ [(⟨"k", stage⟩ : Request)]).set
          admissions ⟨"k", next⟩ = List.replicate admissions ⟨"k", .guarding⟩ ++ [⟨"k", next⟩] := by
    simp
  have unsaturated : ¬ Limiter.Saturated largestQuota inflight := fun saturated =>
    Nat.not_lt_of_le (fetchAdd_le_largest inflight) saturated.2
  have acquired : Limiter.acquireSlot ⟨Limiter.fetchAdd inflight, keys⟩ largestQuota 0 "k" 0 =
      (.ok (), ⟨Limiter.fetchAdd inflight, keys.put (usedKey (admissions + 1))⟩) :=
    acquireSlot_filled room key
  refine ⟨⟨⟨Limiter.fetchAdd inflight, keys.put (usedKey (admissions + 1))⟩,
    List.replicate admissions ⟨"k", .guarding⟩ ++ [⟨"k", .guarding⟩]⟩, ?_, ?_, ?_, ?_⟩
  · simp only [run, step, Option.bind_some, atEnd, setEnd, Stage.proceed, if_neg unsaturated,
      Option.map_some, acquired]
  · simp only at inflightEq
    simp only [Limiter.fetchAdd, inflightEq]
    omega
  · simp only [Store.find_put]
    rfl
  · exact replicate_succ'.symm

theorem exists_filled (room : admissions ≤ 2 ^ 32) :
    ∃ actions final, run (step largestQuota) initial actions = some final ∧
      Filled admissions final := by
  induction admissions with
  | zero => exact ⟨[], initial, rfl, filled_initial⟩
  | succ _ induction =>
    obtain ⟨actions, system, ran, filled⟩ := induction (Nat.le_of_succ_le room)
    obtain ⟨after, ranLast, filledAfter⟩ := filled_succ filled room
    exact ⟨_, after, run_append_eq_some_iff.mpr ⟨system, ran, ranLast⟩, filledAfter⟩

section

variable (filled : Filled admissions system)

include filled

theorem idle_of_filled : system.Idle := by
  intro request member
  rw [filled.requests] at member
  rw [eq_of_mem_replicate member]
  rfl

theorem liveGuards_of_filled : system.liveGuards = admissions := by
  simp [liveGuards, filled.requests, countP_replicate, Stage.live]

theorem liveGuardsOf_of_filled : system.liveGuardsOf "k" = admissions := by
  simp [liveGuardsOf, filled.requests, countP_replicate, Stage.live]

theorem concurrent_of_filled : system.limiter.concurrent "k" = admissions % 2 ^ 32 := by
  have key := congrArg KeyState.concurrent filled.key
  rw [Limiter.concurrent]
  cases found : system.limiter.keys.find "k" with
  | none | some =>
    rw [found] at key
    exact key

end

/-- With the largest limits `2 ^ 32` guards are handed out, and the counters say
that there are none. -/
theorem admissionLimits_exceeded :
    ∃ actions final, run (step largestQuota) initial actions = some final ∧
      final.Idle ∧
      largestQuota.maxInflight.toNat < final.liveGuards ∧
      largestQuota.maxConcurrent.toNat < final.liveGuardsOf "k" ∧
      final.limiter.globalInflight = 0 ∧ final.limiter.concurrent "k" = 0 := by
  obtain ⟨actions, final, ran, filled⟩ := exists_filled (Nat.le_refl (2 ^ 32))
  refine ⟨actions, final, ran, idle_of_filled filled, ?_, ?_, ?_, ?_⟩
  · rw [liveGuards_of_filled filled]
    decide
  · rw [liveGuardsOf_of_filled filled]
    decide
  · rw [filled.inflight]
    exact Nat.mod_self _
  · rw [concurrent_of_filled filled]
    exact Nat.mod_self _

end System

end Purser.GatewayQuota
