import Mathlib.Data.List.Sort
import Purser.JsonTexts
import Purser.StreamingBodies

/-!
# Translation of an upstream stream into message events

The body collects upstream text in a buffer, takes complete lines from it, and
translates each line of data.  What it yields is settled by the lines that the
chunks make up, each with the tokens that were counted when it was handled.
The reader of JSON texts is a parameter.
-/

namespace Purser.GatewayStreams

open JsonTexts List

section

inductive Block
  | text
  | toolUse (id name : List Char)
deriving DecidableEq

inductive BlockDelta
  | text (text : List Char)
  | inputJson (fragment : List Char)
deriving DecidableEq

inductive StopReason
  | endTurn
  | maxTokens
  | toolUse
deriving DecidableEq

def finishToStopReason (reason : List Char) : StopReason :=
  if reason = "tool_calls".toList then .toolUse
  else if reason = "max_tokens".toList ∨ reason = "length".toList then
    .maxTokens
  else .endTurn

/-- Why a stream fails. -/
inductive Fault
  | timedOut
  | interrupted
  | upstream
deriving DecidableEq

/-- What `message_start` says about the message. -/
structure Heading where
  msgId : List Char
  model : List Char
  inputTokens : ℕ
deriving DecidableEq

inductive Event
  | messageStart (heading : Heading)
  | contentBlockStart (index : ℕ) (block : Block)
  | ping
  | contentBlockDelta (index : ℕ) (delta : BlockDelta)
  | contentBlockStop (index : ℕ)
  | messageDelta (stopReason : StopReason) (outputTokens : ℕ)
  | messageStop
  | error (fault : Fault)
deriving DecidableEq

def preambleEvents (heading : Heading) : List Event :=
  [.messageStart heading, .contentBlockStart 0 .text, .ping]

def contentDeltaEvent (index : ℕ) (text : List Char) : Event :=
  .contentBlockDelta index (.text text)

def closingEventsWithStop (outTokens : ℕ) (stopReason : StopReason) : List Event :=
  [.contentBlockStop 0, .messageDelta stopReason outTokens, .messageStop]

def closingEvents (outTokens : ℕ) : List Event := closingEventsWithStop outTokens .endTurn

open TextLines Utf8Decoding

abbrev Reader := List Char → Option Json

structure ToolCallDelta where
  index : UInt64
  id : List Char
  name : List Char
  arguments : Option (List Char)

/-- The parts of an upstream value that the translation reads. -/
structure Frame where
  content : Option (List Char)
  toolCalls : List ToolCallDelta
  finishReason : Option (List Char)

def ToolCallDelta.ofJson (value : Json) : ToolCallDelta where
  index := (value.field "index".toList).asUnsigned.getD 0
  id := (value.field "id".toList).asString.getD []
  name := ((value.field "function".toList).field "name".toList).asString.getD []
  arguments := ((value.field "function".toList).field "arguments".toList).asString

def Frame.ofJson (value : Json) : Frame :=
  let choice := (value.field "choices".toList).item 0
  let delta := choice.field "delta".toList
  { content := (delta.field "content".toList).asString
    toolCalls := ((delta.field "tool_calls".toList).asArray.getD []).map ToolCallDelta.ofJson
    finishReason := (choice.field "finish_reason".toList).asString }

def Frame.finish? (frame : Frame) : Option (List Char) :=
  frame.finishReason.filter fun reason => reason ≠ []

/-- What a line of the upstream text is to the translation. -/
inductive Incoming
  | skipped
  | done
  | failed
  | frame (frame : Frame)

def Incoming.ofData (reader : Reader) (data : List Char) : Incoming :=
  if data = doneText then .done
  else
    match reader data with
    | some value =>
      if (value.getField "error".toList).isSome then .failed
      else .frame (.ofJson value)
    | none => .skipped

def Incoming.ofLine (reader : Reader) (line : List Char) : Incoming :=
  match strip dataMarker (trimEndMatches '\r' line) with
  | some rest => .ofData reader (trim rest)
  | none => .skipped

structure Translator where
  sentPreamble : Bool
  streamEnded : Bool
  toolCallState : List (UInt64 × List Char × List Char)

def Translator.fresh : Translator := ⟨false, false, []⟩

/-- The outcome of some lines: `broken` when they end the loop. -/
structure Progress where
  translator : Translator
  events : List Event
  broken : Bool

/-- Text is block 0, and tool calls follow it.  The sum wraps around. -/
def blockIndex (index : UInt64) : ℕ := (index + 1).toNat

def argumentsEvents (call : ToolCallDelta) : List Event :=
  match call.arguments with
  | some fragment =>
    if fragment = [] then []
    else [.contentBlockDelta (blockIndex call.index) (.inputJson fragment)]
  | none => []

def textEvents (frame : Frame) : List Event :=
  match frame.content with
  | some text => if text = [] then [] else [contentDeltaEvent 0 text]
  | none => []

namespace Translator

def toolIndices (translator : Translator) : List UInt64 :=
  translator.toolCallState.map Prod.fst

def toolCall (translator : Translator) (call : ToolCallDelta) : Translator × List Event :=
  if call.index ∈ translator.toolIndices then
    (translator, argumentsEvents call)
  else
    ({ translator with
        toolCallState :=
          translator.toolCallState ++ [(call.index, call.id, call.name)] },
      .contentBlockStart (blockIndex call.index)
        (.toolUse call.id call.name) :: argumentsEvents call)

def toolCalls : Translator → List ToolCallDelta → Translator × List Event
  | translator, [] => (translator, [])
  | translator, call :: calls =>
    let opened := translator.toolCall call
    let rest := opened.1.toolCalls calls
    (rest.1, opened.2 ++ rest.2)

/-- The events that close the message, with the tool blocks in the order of
their indices. -/
def finishEvents (translator : Translator) (outTokens : ℕ) (reason : List Char) : List Event :=
  let stopReason := finishToStopReason reason
  if stopReason = .toolUse ∧ translator.toolCallState ≠ [] then
    let sorted := translator.toolIndices.insertionSort (· ≤ ·)
    .contentBlockStop 0 :: sorted.map (fun index => .contentBlockStop (blockIndex index)) ++
      [.messageDelta .toolUse outTokens, .messageStop]
  else closingEventsWithStop outTokens stopReason

variable (heading : Heading)

def missingPreamble (translator : Translator) : List Event :=
  if translator.sentPreamble then [] else preambleEvents heading

def frame (outTokens : ℕ) (translator : Translator) (frame : Frame) : Translator × List Event :=
  let opened :=
    { translator with sentPreamble := true }.toolCalls frame.toolCalls
  let events :=
    translator.missingPreamble heading ++ textEvents frame ++ opened.2
  match frame.finish? with
  | some reason =>
    if translator.streamEnded then (opened.1, events)
    else ({ opened.1 with streamEnded := true }, events ++ opened.1.finishEvents outTokens reason)
  | none => (opened.1, events)

def incoming (outTokens : ℕ) (translator : Translator) : Incoming → Progress
  | .skipped => ⟨translator, [], false⟩
  | .done =>
    ⟨{ translator with streamEnded := true }, translator.missingPreamble heading ++
        (if translator.streamEnded then [] else closingEvents outTokens),
      true⟩
  | .failed =>
    ⟨{ translator with streamEnded := true }, [.error .upstream], true⟩
  | .frame frame =>
    let framed := translator.frame heading outTokens frame
    ⟨framed.1, framed.2, false⟩

/-- The inner loop, over the complete lines of the buffer. -/
def lines (reader : Reader) (outTokens : ℕ) : Translator → List (List Char) → Progress
  | translator, [] => ⟨translator, [], false⟩
  | translator, line :: rest =>
    let step := translator.incoming heading outTokens (.ofLine reader line)
    if step.broken then step
    else
      let remaining := step.translator.lines reader outTokens rest
      { remaining with events := step.events ++ remaining.events }

end Translator

/-- What the last wait for the upstream leads to. -/
def endingEvents : Ending → List Event
  | .closed => []
  | .timedOut => [.error .timedOut]
  | .interrupted => [.error .interrupted]

/-- What the loop of the body did and where it left its variables. -/
structure Relayed where
  actions : List (Action Event)
  outTokens : ℕ
  translator : Translator

def relayLoop (heading : Heading) (reader : Reader) :
    ℕ → List Char → Translator → List Bytes → Ending → Relayed
  | outTokens, _, translator, [], ending =>
    ⟨.awaiting :: (endingEvents ending).map .yielded, outTokens, translator⟩
  | outTokens, buffer, translator, chunk :: rest, ending =>
    let outTokens := outTokens + countSseTokens chunk
    let cut := splitLines (buffer ++ fromUtf8Lossy chunk)
    let progress := translator.lines heading reader outTokens cut.1
    let actions :=
      .awaiting :: .received chunk :: progress.events.map .yielded
    if progress.broken then ⟨actions, outTokens, progress.translator⟩
    else
      let relayed := relayLoop heading reader outTokens cut.2 progress.translator rest ending
      { relayed with actions := actions ++ relayed.actions }

def Relayed.closing (relayed : Relayed) : List Event :=
  if relayed.translator.sentPreamble && !relayed.translator.streamEnded then
    closingEvents relayed.outTokens
  else []

namespace StreamRequest

variable (request : StreamRequest)

def heading (msgId : String) : Heading :=
  ⟨msgId.toList, request.model.toList, request.inputTokensForUsage⟩

def anthropicStreamResponse (msgId : String) (reader : Reader)
    (permits : Permits) (chunks : List Bytes) (ending : Ending) :
    List (Action Event) :=
  let relayed := relayLoop (request.heading msgId) reader 0 [] .fresh chunks ending
  relayed.actions ++ relayed.closing.map .yielded ++ request.account permits relayed.outTokens

end StreamRequest

end

open TextLines Utf8Decoding

variable {heading : Heading} {reader : Reader}

def timedLines (reader : Reader) : ℕ → List Char → List Bytes → List (Incoming × ℕ)
  | _, _, [] => []
  | outTokens, buffer, chunk :: rest =>
    let outTokens := outTokens + countSseTokens chunk
    let cut := splitLines (buffer ++ fromUtf8Lossy chunk)
    cut.1.map (fun line => (.ofLine reader line, outTokens)) ++
      timedLines reader outTokens cut.2 rest

/-- The inner loop over the whole upstream response. -/
def Translator.translate (heading : Heading) : Translator → List (Incoming × ℕ) → Progress
  | translator, [] => ⟨translator, [], false⟩
  | translator, (item, outTokens) :: rest =>
    let step := translator.incoming heading outTokens item
    if step.broken then step
    else
      let remaining := step.translator.translate heading rest
      { remaining with events := step.events ++ remaining.events }

namespace Incoming

/-- The line ends the loop. -/
def breaks : Incoming → Bool
  | done => true
  | failed => true
  | _ => false

@[simp]
theorem breaks_skipped : skipped.breaks = false := rfl

@[simp]
theorem breaks_done : done.breaks = true := rfl

@[simp]
theorem breaks_failed : failed.breaks = true := rfl

@[simp]
theorem breaks_frame (delta : Frame) : (frame delta).breaks = false := rfl

/-- The line may close the message or end the loop. -/
def finishes : Incoming → Bool
  | .frame delta => delta.finish?.isSome
  | item => item.breaks

theorem finishes_of_breaks {item : Incoming} (breaking : item.breaks = true) :
    item.finishes = true := by
  cases item with
  | frame => cases breaking
  | _ => exact breaking

end Incoming

/-- The tokens counted when the loop is left by a line. -/
def brokenTokens (items : List (Incoming × ℕ)) : Option ℕ :=
  (items.find? fun entry => entry.1.breaks).map Prod.snd

theorem brokenTokens_append (first second : List (Incoming × ℕ)) :
    brokenTokens (first ++ second) = (brokenTokens first).or (brokenTokens second) := by
  simp [brokenTokens, Option.map_or]

theorem exists_of_brokenTokens {items : List (Incoming × ℕ)} {outTokens : ℕ}
    (broken : brokenTokens items = some outTokens) :
    ∃ item, (item, outTokens) ∈ items ∧ item.breaks = true := by
  obtain ⟨⟨item, tokens⟩, found, rfl⟩ := Option.map_eq_some_iff.mp broken
  have breaking := find?_some found
  exact ⟨item, mem_of_find?_eq_some found, breaking⟩

namespace Translator

variable (outTokens : ℕ) (translator : Translator) (item : Incoming)

@[simp]
theorem incoming_broken : (translator.incoming heading outTokens item).broken = item.breaks := by
  cases item <;> rfl

theorem translate_broken (items : List (Incoming × ℕ)) :
    (translator.translate heading items).broken = (brokenTokens items).isSome := by
  induction items generalizing translator with
  | nil => rfl
  | cons entry rest induction =>
    cases breaking : entry.1.breaks with
    | true => simp [translate, brokenTokens, breaking]
    | false =>
      simpa [translate, brokenTokens, breaking] using induction _

theorem translate_append (first second : List (Incoming × ℕ)) :
    translator.translate heading (first ++ second) =
      let progress := translator.translate heading first
      if progress.broken then progress
      else
        let remaining := progress.translator.translate heading second
        { remaining with events := progress.events ++ remaining.events } := by
  induction first generalizing translator with
  | nil => simp [translate]
  | cons entry rest induction =>
    cases breaking : entry.1.breaks with
    | true => simp [translate, breaking]
    | false =>
      simp only [cons_append, translate, incoming_broken, breaking,
        Bool.false_eq_true, if_false, induction]
      split <;> simp

theorem lines_eq_translate (handled : List (List Char)) :
    translator.lines heading reader outTokens handled = translator.translate heading
        (handled.map fun line => (.ofLine reader line, outTokens)) := by
  induction handled generalizing translator with
  | nil => rfl
  | cons _ _ induction =>
    simp only [lines, translate, map_cons, induction]

theorem incoming_of_not_finishes {item : Incoming} (unfinished : item.finishes = false)
    (first second : ℕ) (translator : Translator) :
    translator.incoming heading first item = translator.incoming heading second item := by
  cases item with
  | skipped => rfl
  | done | failed => cases unfinished
  | frame frame =>
    obtain reason : frame.finish? = none := by
      simpa [Incoming.finishes] using unfinished
    simp [incoming, Translator.frame, reason]

/-- Only the tokens at the lines that close the message matter. -/
theorem translate_eq_of_finishes {outTokens : ℕ}
    {items : List (Incoming × ℕ)} (counted : ∀ entry ∈ items,
      entry.1.finishes = true → entry.2 = outTokens) :
    translator.translate heading items = translator.translate heading
        (items.map fun entry => (entry.1, outTokens)) := by
  induction items generalizing translator with
  | nil => rfl
  | cons entry rest induction =>
    have same : translator.incoming heading entry.2 entry.1 =
        translator.incoming heading outTokens entry.1 := by
      cases finishing : entry.1.finishes with
      | true => rw [counted entry mem_cons_self finishing]
      | false => exact incoming_of_not_finishes finishing _ _ _
    have remaining := fun next : Translator =>
      induction next fun other member =>
        counted other (mem_cons_of_mem _ member)
    simp only [translate, map_cons, same, remaining]

end Translator

theorem timedLines_cons (outTokens : ℕ) (buffer : List Char) (chunk : Bytes) (rest : List Bytes) :
    timedLines reader outTokens buffer (chunk :: rest) =
      (splitLines (buffer ++ fromUtf8Lossy chunk)).1.map
          (fun line =>
            (.ofLine reader line, outTokens + countSseTokens chunk)) ++
        timedLines reader (outTokens + countSseTokens chunk)
          (splitLines (buffer ++ fromUtf8Lossy chunk)).2 rest :=
  rfl

def lossyText (chunks : List Bytes) : List Char := chunks.flatMap fromUtf8Lossy

theorem lossyText_cons (chunk : Bytes) (rest : List Bytes) :
    lossyText (chunk :: rest) = fromUtf8Lossy chunk ++ lossyText rest :=
  rfl

theorem map_fst_timedLines (outTokens : ℕ) {buffer : List Char}
    (unbroken : splitLines buffer = ([], buffer)) (chunks : List Bytes) :
    (timedLines reader outTokens buffer chunks).map Prod.fst =
      (splitLines (buffer ++ lossyText chunks)).1.map (Incoming.ofLine reader) := by
  induction chunks generalizing outTokens buffer with
  | nil => simp [timedLines, lossyText, unbroken]
  | cons chunk rest induction =>
    have remaining := induction (outTokens + countSseTokens chunk)
      (splitLines_remainder (buffer ++ fromUtf8Lossy chunk))
    rw [timedLines_cons, map_append, remaining, lossyText_cons, ← append_assoc,
      splitLines_append (buffer ++ fromUtf8Lossy chunk)]
    simp

section

variable (outTokens : ℕ) (buffer : List Char) (translator : Translator) (chunks : List Bytes)
  (ending : Ending)

include outTokens buffer translator chunks ending

/-- The outer loop in terms of the lines: what it yields, what it has counted
and where it leaves the translator. -/
theorem relayLoop_spec :
    let items := timedLines reader outTokens buffer chunks
    let progress := translator.translate heading items
    let relayed := relayLoop heading reader outTokens buffer translator chunks ending
    yields relayed.actions = progress.events ++
        (if progress.broken then [] else endingEvents ending) ∧
      relayed.translator = progress.translator ∧
      relayed.outTokens = (brokenTokens items).getD (outTokens + totalTokens chunks) := by
  induction chunks generalizing outTokens buffer translator with
  | nil =>
    simp [relayLoop, timedLines, Translator.translate, brokenTokens, totalTokens]
  | cons chunk rest induction =>
    have counted : outTokens + totalTokens (chunk :: rest) =
          outTokens + countSseTokens chunk + totalTokens rest := by
      simp [totalTokens, Nat.add_assoc]
    set now := outTokens + countSseTokens chunk with now_def
    set cut := splitLines (buffer ++ fromUtf8Lossy chunk) with cut_def
    set items := cut.1.map fun line => (Incoming.ofLine reader line, now) with items_def
    have handled := @Translator.lines_eq_translate heading reader now translator cut.1
    simp only [relayLoop, timedLines_cons, ← now_def, ← cut_def,
      ← items_def, handled, Translator.translate_append,
      Translator.translate_broken, brokenTokens_append, counted]
    cases broken : brokenTokens items with
    | some outTokens =>
      obtain ⟨item, member, _⟩ := exists_of_brokenTokens broken
      obtain ⟨line, _, same⟩ := mem_map.mp member
      have tokens : now = outTokens := (Prod.mk.inj same).2
      simp [Translator.translate_broken, broken, tokens]
    | none =>
      obtain ⟨yielded, moved, total⟩ := induction now cut.2
        (translator.translate heading items).translator
      simp [yielded, moved, total, Translator.translate_broken]

theorem relays_relayLoop : ∀ action ∈ (relayLoop heading reader outTokens buffer translator chunks
      ending).actions, relays action = true := by
  induction chunks generalizing outTokens buffer translator with
  | nil => simp [relayLoop, relays]
  | cons _ _ induction =>
    intro action member
    simp only [relayLoop] at member
    split at member
    · simp only [mem_cons, mem_map] at member
      rcases member with rfl | rfl | ⟨event, _, rfl⟩ <;> rfl
    · simp only [cons_append, mem_cons, mem_append, mem_map] at member
      rcases member with rfl | rfl | ⟨event, _, rfl⟩ | later
      · rfl
      · rfl
      · rfl
      · exact induction _ _ _ action later

end

def Progress.epilogue (progress : Progress) (ending : Ending) (outTokens : ℕ) : List Event :=
  (if progress.broken then [] else endingEvents ending) ++
    if progress.translator.sentPreamble && !progress.translator.streamEnded
    then closingEvents outTokens else []

theorem yields_anthropicStreamResponse (request : StreamRequest) (msgId : String)
    (permits : Permits) (chunks : List Bytes) (ending : Ending) :
    let items := timedLines reader 0 [] chunks
    let progress :=
      Translator.fresh.translate (request.heading msgId) items
    yields (request.anthropicStreamResponse msgId reader permits chunks ending) =
      progress.events ++ progress.epilogue ending
        ((brokenTokens items).getD (totalTokens chunks)) := by
  obtain ⟨yielded, moved, total⟩ := @relayLoop_spec (request.heading msgId)
    reader 0 [] .fresh chunks ending
  simp only [StreamRequest.anthropicStreamResponse, yields_append,
    yields_map_yielded, yields_account, append_nil, yielded,
    Relayed.closing, moved, total, Progress.epilogue, append_assoc,
    Nat.zero_add]

theorem relays_yielded (events : List Event) :
    ∀ action ∈ events.map (Action.yielded : Event → Action Event), relays action = true := by
  simp [relays]

section

variable (request : StreamRequest) (msgId : String) (permits : Permits) (chunks : List Bytes)
  (ending : Ending)

include request msgId permits chunks ending

theorem settled_anthropicStreamResponse :
    let outTokens := (brokenTokens (timedLines reader 0 [] chunks)).getD (totalTokens chunks)
    charges (request.anthropicStreamResponse msgId reader permits chunks ending) =
        [(request.keyId, outTokens)] ∧
      reports (request.anthropicStreamResponse msgId reader permits chunks ending) =
        request.accountedReports permits outTokens := by
  obtain ⟨_, _, total⟩ := @relayLoop_spec (request.heading msgId) reader 0 [] .fresh chunks ending
  simp [StreamRequest.anthropicStreamResponse, charges_account, reports_account,
    unsettled_of_relays (relays_relayLoop _ _ _ _ _), unsettled_of_relays (relays_yielded _), total]

end

def sampleRequest : StreamRequest where
  keyId := "key"
  tenant := "tenant"
  model := "model"
  sessionId := "session"
  endpoint := "/v1/chat/completions"
  inputTokensForUsage := 3
  controlPlaneUrl := some "http://control"
  controlPlaneToken := none
  upstreamStatus := 200

def textChunk : Bytes :=
  utf8 "data: \x7b\"choices\":[\x7b\"delta\":\x7b\"content\":\"hi\"\x7d\x7d]\x7d\n\n"

def toolChunk : Bytes :=
  utf8 ("data: \x7b\"choices\":[\x7b\"delta\":\x7b\"tool_calls\":[\x7b\"index\":0," ++
    "\"id\":\"c\",\"function\":\x7b\"name\":\"f\",\"arguments\":\"1\"\x7d\x7d]\x7d\x7d]\x7d\n")

def finishChunk (reason : String) : Bytes :=
  utf8 "data: \x7b\"choices\":[\x7b\"delta\":\x7b\x7d,\"finish_reason\":\"" ++
    utf8 reason ++ utf8 "\"\x7d]\x7d\n"

def doneChunk : Bytes := utf8 "data: [DONE]\n"

end Purser.GatewayStreams
