import Purser.TextLines
import Purser.Utf8Decoding

/-!
# Streaming response bodies of the gateway

A streaming response is modelled by the list of actions it performs when it is
polled to its end.  Waiting and yielding are the points at which it can be
dropped.
-/

namespace Purser.GatewayStreams

open TextLines Utf8Decoding List

abbrev Bytes := List UInt8

def utf8 (text : String) : Bytes := text.toUTF8.data.toList

/-- How the chunks of an upstream response end. -/
inductive Ending
  | closed
  | timedOut
  | interrupted

structure UsageReport where
  url : String
  internalToken : Option String
  apiKeyId : String
  modelId : String
  inputTokens : ℕ
  outputTokens : ℕ
deriving DecidableEq

structure InferenceEvent where
  url : String
  internalToken : Option String
  requestId : String
  apiKeyHash : String
  modelId : String
  tenantId : String
  promptTokens : ℕ
  completionTokens : ℕ
  endpoint : String
  finishReason : String

/-- What a body does.  `awaiting` is the wait for `upstream.next()`, and
`received` its outcome where it is a chunk. -/
inductive Action (Item : Type)
  | awaiting
  | received (chunk : Bytes)
  | yielded (item : Item)
  | charged (keyId : String) (tokens : ℕ)
  | reported (report : UsageReport)
  | audited (event : InferenceEvent)
  | released (keyId : String)

variable {Item : Type}

namespace Action

/-- The body can be dropped after these actions. -/
def suspends : Action Item → Bool
  | awaiting => true
  | yielded _ => true
  | _ => false

def item? : Action Item → Option Item
  | yielded item => some item
  | _ => none

def chunk? : Action Item → Option Bytes
  | received chunk => some chunk
  | _ => none

def charge? : Action Item → Option (String × ℕ)
  | charged keyId tokens => some (keyId, tokens)
  | _ => none

def report? : Action Item → Option UsageReport
  | reported report => some report
  | _ => none

end Action

def yields {Item : Type} (actions : List (Action Item)) : List Item :=
  actions.filterMap Action.item?

def charges {Item : Type} (actions : List (Action Item)) : List (String × ℕ) :=
  actions.filterMap Action.charge?

def reports {Item : Type} (actions : List (Action Item)) : List UsageReport :=
  actions.filterMap Action.report?

structure StreamRequest where
  keyId : String
  tenant : String
  model : String
  sessionId : String
  endpoint : String
  inputTokensForUsage : ℕ
  controlPlaneUrl : Option String
  controlPlaneToken : Option String
  upstreamStatus : ℕ

/-- Free permits of the two semaphores at the end of the stream. -/
structure Permits where
  usage : ℕ
  audit : ℕ

def dataMarker : List Char := ['d', 'a', 't', 'a', ':']

def doneText : List Char := ['[', 'D', 'O', 'N', 'E', ']']

def lineTokens (line : List Char) : ℕ :=
  match strip dataMarker (trimStart line) with
  | some rest =>
    if trim rest = [] ∨ trim rest = doneText then 0 else 1
  | none => 0

def countSseTokens (chunk : Bytes) : ℕ :=
  match fromUtf8 chunk with
  | some text => ((lines text).map lineTokens).sum
  | none => 0

def totalTokens (chunks : List Bytes) : ℕ := (chunks.map countSseTokens).sum

def controlPlanePath (url path : String) : String :=
  String.ofList (trimEndMatches '/' url.toList) ++ path

/-- A report is dropped when no permit is free. -/
def spawnUsageReport {Item : Type} (permits : ℕ) (report : UsageReport) : List (Action Item) :=
  if 0 < permits then [.reported report] else []

def emitInferenceEvent {Item : Type} (permits : ℕ) (event : InferenceEvent) : List (Action Item) :=
  if 0 < permits then [.audited event] else []

def timeoutFrame : String :=
  "data: \x7b\"error\":\x7b\"message\":\"upstream timed out mid-stream\"," ++
    "\"type\":\"api_error\",\"code\":\"timeout\"\x7d\x7d\n\n"

def interruptedFrame : String :=
  "data: \x7b\"error\":\x7b\"message\":\"upstream stream interrupted\"," ++
    "\"type\":\"api_error\",\"code\":\"upstream_error\"\x7d\x7d\n\n"

/-- What the last wait for the upstream leads to. -/
def endingFrames : Ending → List (Action Bytes)
  | .closed => []
  | .timedOut => [.yielded (utf8 timeoutFrame)]
  | .interrupted => [.yielded (utf8 interruptedFrame)]

def streamLoop : ℕ → List Bytes → Ending → List (Action Bytes) × ℕ
  | outTokens, [], ending => (.awaiting :: endingFrames ending, outTokens)
  | outTokens, chunk :: rest, ending =>
    let loop := streamLoop (outTokens + countSseTokens chunk) rest ending
    (.awaiting :: .received chunk :: .yielded chunk :: loop.1, loop.2)

namespace StreamRequest

variable (request : StreamRequest)

def usageReport (url : String) (outTokens : ℕ) : UsageReport where
  url := controlPlanePath url "/api/v1/usage"
  internalToken := request.controlPlaneToken
  apiKeyId := request.keyId
  modelId := request.model
  inputTokens := request.inputTokensForUsage
  outputTokens := outTokens

def inferenceEvent (url : String) (outTokens : ℕ) : InferenceEvent where
  url := controlPlanePath url "/api/v1/inference-events"
  internalToken := request.controlPlaneToken
  requestId := request.sessionId
  apiKeyHash := request.keyId
  modelId := request.model
  tenantId := request.tenant
  promptTokens := request.inputTokensForUsage
  completionTokens := outTokens
  endpoint := request.endpoint
  finishReason :=
    if 200 ≤ request.upstreamStatus ∧ request.upstreamStatus < 300 then "stop"
    else "error"

/-- The code after the loop of a body, without the audit event. -/
def account {Item : Type} (permits : Permits) (outTokens : ℕ) : List (Action Item) :=
  .charged request.keyId outTokens ::
    match request.controlPlaneUrl with
    | some url =>
      spawnUsageReport permits.usage (request.usageReport url outTokens)
    | none => []

def audit {Item : Type} (permits : Permits) (outTokens : ℕ) : List (Action Item) :=
  match request.controlPlaneUrl with
  | some url =>
    emitInferenceEvent permits.audit (request.inferenceEvent url outTokens)
  | none => []

def streamResponse (permits : Permits) (chunks : List Bytes)
    (ending : Ending) : List (Action Bytes) :=
  let loop := streamLoop 0 chunks ending
  loop.1 ++ (request.account permits loop.2 ++ request.audit permits loop.2)

end StreamRequest

theorem streamLoop_tokens (outTokens : ℕ) (chunks : List Bytes) (ending : Ending) :
    (streamLoop outTokens chunks ending).2 = outTokens + totalTokens chunks := by
  induction chunks generalizing outTokens with
  | nil => simp [streamLoop, totalTokens]
  | cons _ _ induction =>
    simp [streamLoop, induction, totalTokens, Nat.add_assoc]

section Traces

@[simp]
theorem yields_append (first second : List (Action Item)) :
    yields (first ++ second) = yields first ++ yields second :=
  filterMap_append

@[simp]
theorem charges_append (first second : List (Action Item)) :
    charges (first ++ second) = charges first ++ charges second :=
  filterMap_append

@[simp]
theorem reports_append (first second : List (Action Item)) :
    reports (first ++ second) = reports first ++ reports second :=
  filterMap_append

@[simp]
theorem yields_cons_awaiting (actions : List (Action Item)) :
    yields (.awaiting :: actions) = yields actions :=
  rfl

@[simp]
theorem yields_cons_received (chunk : Bytes) (actions : List (Action Item)) :
    yields (.received chunk :: actions) = yields actions :=
  rfl

@[simp]
theorem yields_map_yielded (items : List Item) : yields (items.map Action.yielded) = items := by
  induction items with
  | nil => rfl
  | cons _ _ induction =>
    simpa [yields, Action.item?] using induction

def relays : Action Item → Bool
  | .awaiting => true
  | .received _ => true
  | .yielded _ => true
  | _ => false

theorem unsettled_of_relays {actions : List (Action Item)}
    (relaying : ∀ action ∈ actions, relays action = true) :
    charges actions = [] ∧ reports actions = [] := by
  constructor
  all_goals
    refine filterMap_eq_nil_iff.mpr fun action member => ?_
    have relay := relaying action member
    cases action <;> simp_all [relays, Action.charge?, Action.report?]

variable (request : StreamRequest) (permits : Permits) (outTokens : ℕ)

def StreamRequest.accountedReports : List UsageReport :=
  match request.controlPlaneUrl with
  | some url =>
    if 0 < permits.usage then [request.usageReport url outTokens] else []
  | none => []

theorem account_eq : (request.account permits outTokens : List (Action Item)) =
      .charged request.keyId outTokens ::
        (request.accountedReports permits outTokens).map .reported := by
  unfold StreamRequest.account StreamRequest.accountedReports spawnUsageReport
  cases request.controlPlaneUrl with
  | none => rfl
  | some =>
    dsimp only
    split_ifs <;> rfl

theorem yields_account : yields (request.account permits outTokens : List (Action Item)) = [] := by
  simp [account_eq, yields, Action.item?]

theorem charges_account : charges (request.account permits outTokens : List (Action Item)) =
      [(request.keyId, outTokens)] := by
  simp [account_eq, charges, Action.charge?]

theorem reports_account : reports (request.account permits outTokens : List (Action Item)) =
      request.accountedReports permits outTokens := by
  rw [account_eq, reports, filterMap_cons, filterMap_map]
  exact filterMap_some

theorem eq_audited_of_mem_audit {action : Action Item}
    (member : action ∈ (request.audit permits outTokens : List (Action Item))) :
    ∃ event, action = .audited event := by
  unfold StreamRequest.audit emitInferenceEvent at member
  split at member
  · split at member
    · exact ⟨_, mem_singleton.mp member⟩
    · cases member
  · cases member

theorem unsettled_audit : charges (request.audit permits outTokens : List (Action Item)) = [] ∧
      reports (request.audit permits outTokens : List (Action Item)) = [] := by
  constructor
  all_goals
    refine filterMap_eq_nil_iff.mpr fun action member => ?_
    obtain ⟨event, rfl⟩ := eq_audited_of_mem_audit request permits outTokens member
    rfl

end Traces

theorem relays_streamLoop (outTokens : ℕ) (chunks : List Bytes) (ending : Ending) :
    ∀ action ∈ (streamLoop outTokens chunks ending).1, relays action = true := by
  induction chunks generalizing outTokens with
  | nil => cases ending <;> simp [streamLoop, endingFrames, relays]
  | cons chunk rest induction =>
    simpa [streamLoop, relays] using
      induction (outTokens + countSseTokens chunk)

section

variable (request : StreamRequest) (permits : Permits) (chunks : List Bytes) (ending : Ending)

include request permits chunks ending

theorem settled_streamResponse : charges (request.streamResponse permits chunks ending) =
      [(request.keyId, totalTokens chunks)] ∧
      reports (request.streamResponse permits chunks ending) =
        request.accountedReports permits (totalTokens chunks) := by
  simp [StreamRequest.streamResponse, charges_account, reports_account, unsettled_audit,
    unsettled_of_relays (relays_streamLoop 0 chunks ending), streamLoop_tokens]

end

end Purser.GatewayStreams
