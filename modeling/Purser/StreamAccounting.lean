import Purser.AnthropicTranslation
import Purser.GatewayQuota

/-!
# Accounting for streamed tokens

Tokens are charged and reported by the code after the loop, while the admission
guard is released whenever the body is dropped.
-/

namespace Purser.GatewayStreams

open GatewayQuota List

variable {Item : Type}

/-- How a body ends: polled until it is done, or dropped after some of its
actions. -/
inductive Finish
  | completed
  | dropped (position : ℕ)

namespace Finish

def Possible (body : List (Action Item)) : Finish → Prop
  | completed => True
  | dropped 0 => True
  | dropped (position + 1) =>
    body[position]?.map Action.suspends = some true

instance (body : List (Action Item)) (finish : Finish) : Decidable (finish.Possible body) :=
  match finish with
  | completed => isTrue trivial
  | dropped 0 => isTrue trivial
  | dropped (_ + 1) => inferInstanceAs (Decidable (_ = _))

def actions (body : List (Action Item)) : Finish → List (Action Item)
  | completed => body
  | dropped position => body.take position

def trace (request : StreamRequest) (body : List (Action Item))
    (finish : Finish) : List (Action Item) :=
  finish.actions body ++ [.released request.keyId]

end Finish

namespace Action

def releases : Action Item → Bool
  | .released _ => true
  | _ => false

def perform (now : ℚ) (limiter : Limiter) : Action Item → Limiter
  | .charged keyId tokens => limiter.chargeTokens now keyId tokens
  | .released keyId => limiter.release keyId
  | _ => limiter

end Action

/-- The actions by the time the guard has been dropped. -/
def beforeRelease (trace : List (Action Item)) : List (Action Item) :=
  trace.takeWhile fun action => !action.releases

def relayedTokens (actions : List (Action Item)) : ℕ :=
  totalTokens (actions.filterMap Action.chunk?)

@[simp]
theorem relayedTokens_append (first second : List (Action Item)) :
    relayedTokens (first ++ second) = relayedTokens first + relayedTokens second := by
  simp [relayedTokens, totalTokens]

@[simp]
theorem relayedTokens_awaiting (actions : List (Action Item)) :
    relayedTokens (.awaiting :: actions) = relayedTokens actions :=
  rfl

@[simp]
theorem relayedTokens_yielded (item : Item) (actions : List (Action Item)) :
    relayedTokens (.yielded item :: actions) = relayedTokens actions :=
  rfl

@[simp]
theorem relayedTokens_received (chunk : Bytes) (actions : List (Action Item)) :
    relayedTokens (.received chunk :: actions) = countSseTokens chunk + relayedTokens actions := by
  rfl

@[simp]
theorem relayedTokens_map_yielded (items : List Item) :
    relayedTokens (items.map Action.yielded) = 0 := by
  induction items with
  | nil => rfl
  | cons _ _ induction => exact induction

def effectiveCharges (charged : List (String × ℕ)) : List (String × ℕ) :=
  charged.filter fun charge => charge.2 ≠ 0

/-- The relayed tokens are charged and reported once before the guard is
dropped, and nothing else is charged. -/
structure Accounted (request : StreamRequest) (trace : List (Action Item)) :
    Prop where
  charged : effectiveCharges (charges (beforeRelease trace)) = effectiveCharges
      [(request.keyId, relayedTokens (beforeRelease trace))]
  bucket : ∀ (now : ℚ) (limiter : Limiter),
    (beforeRelease trace).foldl (Action.perform now) limiter =
      limiter.chargeTokens now request.keyId (relayedTokens (beforeRelease trace))
  reported : ∀ url, request.controlPlaneUrl = some url →
    reports (beforeRelease trace) = [request.usageReport url (relayedTokens (beforeRelease trace))]

/-- A body that is polled to its end needs a permit to report; one that is
dropped must have nothing to account for. -/
def Accountable (request : StreamRequest) (permits : Permits)
    (body : List (Action Item)) : Finish → Prop
  | .completed => request.controlPlaneUrl.isSome = true → 0 < permits.usage
  | .dropped position =>
    request.controlPlaneUrl = none ∧ relayedTokens (body.take position) = 0

instance (request : StreamRequest) (permits : Permits)
    (body : List (Action Item)) (finish : Finish) :
    Decidable (Accountable request permits body finish) :=
  match finish with
  | .completed => inferInstanceAs (Decidable (_ → _))
  | .dropped _ => inferInstanceAs (Decidable (_ ∧ _))

theorem perform_eq_of_charges {actions : List (Action Item)}
    (kept : ∀ action ∈ actions, action.releases = false) (now : ℚ) (limiter : Limiter) :
    actions.foldl (Action.perform now) limiter = (effectiveCharges (charges actions)).foldl
        (fun limiter charge => limiter.chargeTokens now charge.1 charge.2)
        limiter := by
  induction actions generalizing limiter with
  | nil => rfl
  | cons action _ induction =>
    have rest := induction (fun other member =>
      kept other (mem_cons_of_mem _ member))
    cases action with
    | charged keyId tokens =>
      by_cases none : tokens = 0
      · simpa [charges, Action.charge?, effectiveCharges, Action.perform,
          none, Limiter.chargeTokens] using rest limiter
      · simpa [charges, Action.charge?, effectiveCharges, Action.perform,
          none] using rest (limiter.chargeTokens now keyId tokens)
    | released => cases kept _ mem_cons_self
    | _ => exact rest limiter

theorem bucket_of_charged {actions : List (Action Item)}
    (kept : ∀ action ∈ actions, action.releases = false) {keyId : String} {tokens : ℕ}
    (charged : effectiveCharges (charges actions) =
      effectiveCharges [(keyId, tokens)]) (now : ℚ) (limiter : Limiter) :
    actions.foldl (Action.perform now) limiter = limiter.chargeTokens now keyId tokens := by
  rw [perform_eq_of_charges kept, charged]
  by_cases none : tokens = 0 <;>
    simp [effectiveCharges, none, Limiter.chargeTokens]

def settles : Action Item → Bool
  | .charged _ _ => true
  | .reported _ => true
  | .audited _ => true
  | _ => false

variable {action : Action Item}

theorem releases_of_relays (relaying : relays action = true) : action.releases = false := by
  cases action <;> simp_all [relays, Action.releases]

theorem releases_of_settles (settling : settles action = true) : action.releases = false := by
  cases action <;> simp_all [settles, Action.releases]

theorem suspends_of_settles (settling : settles action = true) : action.suspends = false := by
  cases action <;> simp_all [settles, Action.suspends]

structure Accounting (request : StreamRequest) (permits : Permits)
    (relaying settling : List (Action Item)) : Prop where
  relaying_relays : ∀ action ∈ relaying, relays action = true
  settling_settles : ∀ action ∈ settling, settles action = true
  settling_charges : charges settling = [(request.keyId, relayedTokens relaying)]
  settling_reports : reports settling = request.accountedReports permits (relayedTokens relaying)

namespace Accounting

variable {request : StreamRequest} {permits : Permits} {relaying settling : List (Action Item)}

section

variable (accounting : Accounting request permits relaying settling)

include accounting

theorem releases : ∀ action ∈ relaying ++ settling, action.releases = false := by
  intro action member
  rcases mem_append.mp member with early | late
  · exact releases_of_relays (accounting.relaying_relays action early)
  · exact releases_of_settles (accounting.settling_settles action late)

theorem beforeRelease_trace (finish : Finish) :
    beforeRelease (finish.trace request (relaying ++ settling)) =
      finish.actions (relaying ++ settling) := by
  have kept : ∀ action ∈ finish.actions (relaying ++ settling), (!action.releases) = true := by
    intro action member
    have inside : action ∈ relaying ++ settling := by
      cases finish with
      | completed => exact member
      | dropped => exact mem_of_mem_take member
    simp [accounting.releases action inside]
  rw [beforeRelease, Finish.trace, takeWhile_append_of_pos kept]
  simp [Action.releases]

theorem take_of_possible {position : ℕ}
    (possible : (Finish.dropped position).Possible (relaying ++ settling)) :
    (relaying ++ settling).take position = relaying.take position := by
  cases position with
  | zero => rfl
  | succ position =>
    have early : position < relaying.length := by
      by_contra late
      obtain ⟨action, found, suspended⟩ := Option.map_eq_some_iff.mp possible
      rw [getElem?_append_right (Nat.le_of_not_lt late)] at found
      have settled := accounting.settling_settles action (mem_of_getElem? found)
      rw [suspends_of_settles settled] at suspended
      cases suspended
    exact take_append_of_le_length early

theorem relayedTokens_body : relayedTokens (relaying ++ settling) = relayedTokens relaying := by
  have none : settling.filterMap Action.chunk? = [] := by
    refine filterMap_eq_nil_iff.mpr fun action member => ?_
    have settled := accounting.settling_settles action member
    cases action <;> simp_all [settles, Action.chunk?]
  rw [relayedTokens_append, relayedTokens, relayedTokens, none]
  rfl

theorem accounted_completed :
    Accounted request (Finish.completed.trace request (relaying ++ settling)) ↔
      (request.controlPlaneUrl.isSome = true → 0 < permits.usage) := by
  have charged : effectiveCharges (charges (relaying ++ settling)) = effectiveCharges
        [(request.keyId, relayedTokens (relaying ++ settling))] := by
    rw [accounting.relayedTokens_body, charges_append,
      (unsettled_of_relays accounting.relaying_relays).1, accounting.settling_charges]
    rfl
  have reported : reports (relaying ++ settling) = request.accountedReports permits
        (relayedTokens (relaying ++ settling)) := by
    rw [accounting.relayedTokens_body, reports_append,
      (unsettled_of_relays accounting.relaying_relays).2, accounting.settling_reports]
    rfl
  have before := accounting.beforeRelease_trace .completed
  constructor
  · intro accounted configured
    obtain ⟨url, found⟩ := Option.isSome_iff_exists.mp configured
    have once := accounted.reported url found
    rw [before, Finish.actions, reported, StreamRequest.accountedReports, found] at once
    by_contra full
    simp [full] at once
  · intro free
    constructor
    case charged =>
      rw [before]
      exact charged
    case bucket =>
      rw [before]
      exact bucket_of_charged accounting.releases charged
    case reported =>
      intro url found
      have permitted := free (by simp [found])
      rw [before, Finish.actions, reported, StreamRequest.accountedReports, found]
      simp [permitted]

theorem accounted_dropped {position : ℕ}
    (possible : (Finish.dropped position).Possible (relaying ++ settling)) :
    Accounted request ((Finish.dropped position).trace request (relaying ++ settling)) ↔
      request.controlPlaneUrl = none ∧
        relayedTokens ((relaying ++ settling).take position) = 0 := by
  have before := accounting.beforeRelease_trace (.dropped position)
  rw [Finish.actions, accounting.take_of_possible possible] at before
  rw [accounting.take_of_possible possible]
  have relayed : ∀ action ∈ relaying.take position, relays action = true :=
    fun action member =>
      accounting.relaying_relays action (mem_of_mem_take member)
  obtain ⟨uncharged, unreported⟩ := unsettled_of_relays relayed
  constructor
  · intro accounted
    refine ⟨?_, ?_⟩
    · by_contra configured
      obtain ⟨url, found⟩ := Option.ne_none_iff_exists'.mp configured
      have once := accounted.reported url found
      rw [before, unreported] at once
      cases once
    · by_contra some
      have once := accounted.charged
      rw [before, uncharged] at once
      simp [effectiveCharges, some] at once
  · rintro ⟨unconfigured, nothing⟩
    have charged : effectiveCharges (charges (relaying.take position)) = effectiveCharges
          [(request.keyId, relayedTokens (relaying.take position))] := by
      rw [uncharged, nothing]
      rfl
    constructor
    case charged =>
      rw [before]
      exact charged
    case bucket =>
      rw [before]
      exact bucket_of_charged
        (fun action member => releases_of_relays (relayed action member))
        charged
    case reported =>
      intro url found
      rw [unconfigured] at found
      cases found

/-- A body accounts for what it relayed exactly when it is polled to its end
with a permit to report, or had nothing to account for. -/
theorem accounted_iff {finish : Finish} (possible : finish.Possible (relaying ++ settling)) :
    Accounted request (finish.trace request (relaying ++ settling)) ↔
      Accountable request permits (relaying ++ settling) finish := by
  cases finish with
  | completed => exact accounting.accounted_completed
  | dropped => exact accounting.accounted_dropped possible

end

end Accounting

theorem settles_account (request : StreamRequest) (permits : Permits) (outTokens : ℕ) :
    ∀ action ∈ (request.account permits outTokens : List (Action Item)), settles action = true := by
  unfold StreamRequest.account
  cases request.controlPlaneUrl with
  | none => simp [settles]
  | some =>
    by_cases free : 0 < permits.usage <;>
      simp [spawnUsageReport, free, settles]

theorem settles_audit (request : StreamRequest) (permits : Permits) (outTokens : ℕ) :
    ∀ action ∈ (request.audit permits outTokens : List (Action Item)), settles action = true := by
  intro action member
  obtain ⟨event, rfl⟩ := eq_audited_of_mem_audit request permits outTokens member
  rfl

theorem relayedTokens_streamLoop (outTokens : ℕ) (chunks : List Bytes) (ending : Ending) :
    relayedTokens (streamLoop outTokens chunks ending).1 = totalTokens chunks := by
  induction chunks generalizing outTokens with
  | nil => cases ending <;> rfl
  | cons _ _ induction =>
    simp [streamLoop, induction, totalTokens]

theorem relayedTokens_relayLoop (heading : Heading) (reader : Reader) (outTokens : ℕ)
    (buffer : List Char) (translator : Translator) (chunks : List Bytes) (ending : Ending) :
    let relayed := relayLoop heading reader outTokens buffer translator chunks ending
    relayed.outTokens = outTokens + relayedTokens relayed.actions := by
  induction chunks generalizing outTokens buffer translator with
  | nil => simp [relayLoop]
  | cons _ _ induction =>
    simp only [relayLoop]
    split
    · simp
    · simp [induction, Nat.add_assoc]

theorem accounting_streamResponse (request : StreamRequest) (permits : Permits)
    (chunks : List Bytes) (ending : Ending) :
    let loop := streamLoop 0 chunks ending
    Accounting request permits loop.1
      (request.account permits loop.2 ++ request.audit permits loop.2) := by
  have counted : relayedTokens (streamLoop 0 chunks ending).1 = (streamLoop 0 chunks ending).2 := by
    rw [relayedTokens_streamLoop, streamLoop_tokens, Nat.zero_add]
  constructor
  case relaying_relays => exact relays_streamLoop 0 chunks ending
  case settling_settles =>
    intro action member
    rcases mem_append.mp member with accounting | auditing
    · exact settles_account _ _ _ action accounting
    · exact settles_audit _ _ _ action auditing
  case settling_charges => simp [charges_account, unsettled_audit, counted]
  case settling_reports => simp [reports_account, unsettled_audit, counted]

theorem accounting_anthropicStreamResponse (request : StreamRequest) (msgId : String)
    (reader : Reader) (permits : Permits) (chunks : List Bytes) (ending : Ending) :
    let relayed := relayLoop (request.heading msgId) reader 0 [] .fresh chunks ending
    Accounting request permits
      (relayed.actions ++ relayed.closing.map .yielded)
      (request.account permits relayed.outTokens) := by
  have counted := relayedTokens_relayLoop (request.heading msgId) reader 0 [] .fresh chunks ending
  constructor
  case relaying_relays =>
    intro action member
    rcases mem_append.mp member with relaying | closing
    · exact relays_relayLoop _ _ _ _ _ action relaying
    · exact relays_yielded _ action closing
  case settling_settles => exact settles_account _ _ _
  case settling_charges => simp [charges_account, counted]
  case settling_reports => simp [reports_account, counted]

/-- For every way a streaming request ends, its tokens are accounted for once
exactly when its body was polled to the end with a permit to report, or there
was nothing to account for. -/
theorem accounted_iff_accountable (request : StreamRequest) (msgId : String)
    (reader : Reader) (permits : Permits) (chunks : List Bytes)
    (ending : Ending) (finish : Finish) :
    let openai := request.streamResponse permits chunks ending
    let anthropic :=
      request.anthropicStreamResponse msgId reader permits chunks ending
    (finish.Possible openai →
      (Accounted request (finish.trace request openai) ↔
        Accountable request permits openai finish)) ∧
      (finish.Possible anthropic →
        (Accounted request (finish.trace request anthropic) ↔
          Accountable request permits anthropic finish)) := by
  constructor
  · intro possible
    exact (accounting_streamResponse request permits chunks ending).accounted_iff possible
  · intro possible
    exact (accounting_anthropicStreamResponse request msgId reader permits
      chunks ending).accounted_iff possible

def samplePassed (permits : Permits) : List (Action Bytes) :=
  sampleRequest.streamResponse permits [textChunk] .closed

def sampleTranslated (permits : Permits) : List (Action Event) :=
  sampleRequest.anthropicStreamResponse "id" JsonTexts.fromStr permits [textChunk] .closed

theorem accounted_when_completed : Accountable sampleRequest ⟨256, 256⟩ (samplePassed ⟨256, 256⟩)
        .completed ∧
      Accounted sampleRequest (Finish.completed.trace sampleRequest (samplePassed ⟨256, 256⟩)) ∧
      Accounted sampleRequest
        (Finish.completed.trace sampleRequest (sampleTranslated ⟨256, 256⟩)) := by
  have accounted := accounted_iff_accountable sampleRequest "id"
    JsonTexts.fromStr ⟨256, 256⟩ [textChunk] .closed .completed
  exact ⟨by decide +kernel, (accounted.1 trivial).mpr (by decide +kernel),
    (accounted.2 trivial).mpr (by decide +kernel)⟩

/-- A client that leaves at the first chunk is charged for nothing, and a
report is lost when all permits are taken. -/
theorem unaccounted_streams : (Finish.dropped 3).Possible (samplePassed ⟨256, 256⟩) ∧ relayedTokens
        ((Finish.dropped 3).trace sampleRequest (samplePassed ⟨256, 256⟩)) = 1 ∧
      ¬ Accounted sampleRequest ((Finish.dropped 3).trace sampleRequest (samplePassed ⟨256, 256⟩)) ∧
      (Finish.dropped 6).Possible (sampleTranslated ⟨256, 256⟩) ∧
      ¬ Accounted sampleRequest
        ((Finish.dropped 6).trace sampleRequest (sampleTranslated ⟨256, 256⟩)) ∧
      ¬ Accounted sampleRequest (Finish.completed.trace sampleRequest (samplePassed ⟨0, 256⟩)) := by
  refine ⟨by decide +kernel, by decide +kernel, fun accounted => ?_,
    by decide +kernel, fun accounted => ?_, fun accounted => ?_⟩
  · exact absurd accounted.charged (by decide +kernel)
  · exact absurd accounted.charged (by decide +kernel)
  · exact absurd (accounted.reported "http://control" rfl) (by decide +kernel)

end Purser.GatewayStreams
