import Purser.AnthropicGrammar
import Purser.ChunkingIndependence

/-!
# The content of a translated stream

Texts and tool calls reach the client in the order in which they came.
-/

namespace Purser.GatewayStreams

open TextLines Utf8Decoding List

@[simp]
def Event.text : Event → List Char
  | .contentBlockDelta _ (.text text) => text
  | _ => []

@[simp]
def Event.partialJson (block : ℕ) : Event → List Char
  | .contentBlockDelta index (.inputJson fragment) => if index = block then fragment else []
  | _ => []

@[simp]
def Event.toolUse (block : ℕ) : Event → List (List Char × List Char)
  | .contentBlockStart index (.toolUse id name) => if index = block then [(id, name)] else []
  | _ => []

def Event.Silent (event : Event) : Prop :=
  event.text = [] ∧ ∀ block, event.partialJson block = [] ∧ event.toolUse block = []

/-- What the events of a block carry of the deltas of a tool call, of which the first
starts the block unless it has begun before. -/
structure InBlock (begun : Bool) (events : List Event) (block : ℕ) (calls : List ToolCallDelta) :
    Prop where
  partialJson : events.flatMap (Event.partialJson block) =
    calls.flatMap fun call => call.arguments.getD []
  toolUse : events.flatMap (Event.toolUse block) =
    if begun then [] else (calls.head?.map fun call => (call.id, call.name)).toList

structure Carries (begun : List ℕ) (events : List Event) (text : List Char)
    (calls : List ToolCallDelta) : Prop where
  text : events.flatMap Event.text = text
  calls (block : ℕ) : InBlock (block ∈ begun) events block
    (calls.filter fun call => blockIndex call.index = block)

namespace Carries

variable {begun already : List ℕ} {events others : List Event} {text rest : List Char}
  {calls later : List ToolCallDelta}

theorem append (carries : Carries begun events text calls)
    (continues : Carries already others rest later)
    (same : ∀ block, block ∈ already ↔
      block ∈ begun ∨ ∃ call ∈ calls, blockIndex call.index = block) :
    Carries begun (events ++ others) (text ++ rest) (calls ++ later) := by
  refine ⟨by rw [flatMap_append, carries.text, continues.text], fun block => ⟨?_, ?_⟩⟩
  · rw [flatMap_append, (carries.calls block).partialJson, (continues.calls block).partialJson,
      filter_append, flatMap_append]
  · rw [flatMap_append, (carries.calls block).toolUse, (continues.calls block).toolUse,
      filter_append, head?_append]
    by_cases old : block ∈ begun
    · simp [same, old]
    cases found : calls.filter fun call => blockIndex call.index = block with
    | nil =>
      have unseen : ¬ ∃ call ∈ calls, blockIndex call.index = block := by simpa using found
      simp [same, old, unseen]
    | cons call =>
      have member : call ∈ calls.filter fun call => blockIndex call.index = block := by simp [found]
      have seen : ∃ call ∈ calls, blockIndex call.index = block := ⟨call, by simpa using member⟩
      simp [same, old, seen]

theorem of_silent (silent : ∀ event ∈ events, event.Silent) : Carries begun events [] [] := by
  refine ⟨?_, fun block => ⟨?_, ?_⟩⟩
  · exact flatMap_eq_nil_iff.mpr fun event member => (silent event member).1
  · exact flatMap_eq_nil_iff.mpr fun event member => ((silent event member).2 block).1
  · rw [flatMap_eq_nil_iff.mpr fun event member => ((silent event member).2 block).2]
    simp

theorem append_silent (carries : Carries begun events text calls)
    (silent : ∀ event ∈ others, event.Silent) : Carries begun (events ++ others) text calls := by
  simpa using carries.append (@of_silent (begun ++ calls.map fun call => blockIndex call.index)
    others silent) (by simp)

end Carries

variable {heading : Heading}

theorem carries_textEvents (begun : List ℕ) (frame : Frame) :
    Carries begun (textEvents frame) (frame.content.getD []) [] := by
  rw [textEvents]
  cases frame.content with
  | none => exact .of_silent (by simp)
  | some text =>
    by_cases empty : text = []
    · subst empty
      exact .of_silent (by simp)
    · refine ⟨?_, fun block => ⟨?_, ?_⟩⟩ <;> simp [contentDeltaEvent, empty]

theorem flatMap_argumentsEvents (call : ToolCallDelta) (block : ℕ) :
    (argumentsEvents call).flatMap Event.text = [] ∧
      (argumentsEvents call).flatMap (Event.toolUse block) = [] ∧
      (argumentsEvents call).flatMap (Event.partialJson block) =
        if blockIndex call.index = block then call.arguments.getD [] else [] := by
  rw [argumentsEvents]
  cases call.arguments with
  | none => simp
  | some fragment =>
    dsimp only
    split_ifs <;> simp_all

namespace Translator

variable (outTokens : ℕ) (translator : Translator) (frame : Frame)

def toolBlocks : List ℕ := translator.toolIndices.map blockIndex

theorem carries_toolCall (call : ToolCallDelta) :
    Carries translator.toolBlocks (translator.toolCall call).2 [] [call] := by
  have known : call.index ∈ translator.toolIndices ↔
      blockIndex call.index ∈ translator.toolBlocks :=
    (mem_map_of_injective blockIndex_injective).symm
  rw [toolCall]
  split_ifs with seen <;> rw [known] at seen <;>
    refine ⟨(flatMap_argumentsEvents call 0).1, fun block => ?_⟩ <;>
    obtain ⟨-, started, given⟩ := flatMap_argumentsEvents call block <;>
    by_cases same : blockIndex call.index = block
  · subst same
    exact ⟨by simp [given], by simp [started, seen]⟩
  · exact ⟨by simp [given, same], by simp [started, same]⟩
  · subst same
    exact ⟨by simp [given], by simp [started, seen]⟩
  · exact ⟨by simp [given, same], by simp [started, same]⟩

theorem carries_toolCalls (calls : List ToolCallDelta) :
    Carries translator.toolBlocks (translator.toolCalls calls).2 [] calls := by
  induction calls generalizing translator with
  | nil => exact .of_silent (by simp [toolCalls])
  | cons call calls induction =>
    refine (translator.carries_toolCall call).append (induction _) fun block => ?_
    simp only [toolBlocks, mem_map, mem_toolIndices_toolCall]
    aesop

theorem carries_speak :
    Carries translator.toolBlocks (translator.speak heading frame).2 (frame.content.getD [])
      frame.toolCalls := by
  have preamble : ∀ event ∈ translator.missingPreamble heading, event.Silent := by
    rw [missingPreamble]
    split <;> simp [preambleEvents, Event.Silent]
  have opened : Carries translator.toolBlocks _ [] [] := .of_silent preamble
  have text := opened.append (carries_textEvents translator.toolBlocks frame) (by simp)
  have tools := carries_toolCalls { translator with sentPreamble := true } frame.toolCalls
  simpa [speak] using text.append tools (by simp [toolBlocks, toolIndices])

theorem carries_frame :
    Carries translator.toolBlocks (translator.frame heading outTokens frame).2
        (frame.content.getD []) frame.toolCalls ∧
      ∀ block, block ∈ (translator.frame heading outTokens frame).1.toolBlocks ↔
        block ∈ translator.toolBlocks ∨
          ∃ call ∈ frame.toolCalls, blockIndex call.index = block := by
  have spoken := @carries_speak heading translator frame
  have known (block : ℕ) : block ∈ (translator.speak heading frame).1.toolBlocks ↔
      block ∈ translator.toolBlocks ∨ ∃ call ∈ frame.toolCalls, blockIndex call.index = block := by
    simp only [toolBlocks, mem_map, mem_toolIndices_speak]
    aesop
  cases finish : frame.finish? with
  | none => exact frame_eq_speak (.inl finish) outTokens ▸ ⟨spoken, known⟩
  | some reason =>
    cases live : translator.streamEnded with
    | true => exact frame_eq_speak (.inr live) outTokens ▸ ⟨spoken, known⟩
    | false =>
      rw [frame_of_finish finish live]
      refine ⟨spoken.append_silent ?_, known⟩
      rw [finishEvents]
      split_ifs <;> simp [closingEventsWithStop, Event.Silent, or_imp, forall_and]

theorem carries_translate (items : List (Incoming × ℕ)) :
    let frames := framesOf (items.map Prod.fst)
    Carries translator.toolBlocks (translator.translate heading items).events
      (frames.flatMap fun frame => frame.content.getD []) (frames.flatMap Frame.toolCalls) := by
  induction items generalizing translator with
  | nil => exact .of_silent (by simp [translate])
  | cons entry rest induction =>
    obtain ⟨item, outTokens⟩ := entry
    cases item with
    | skipped => exact induction translator
    | done =>
      apply Carries.of_silent
      simp only [translate, incoming, missingPreamble, if_true]
      split_ifs <;> simp [preambleEvents, closingEvents, closingEventsWithStop, Event.Silent]
    | failed => exact .of_silent (by simp [translate, incoming, Event.Silent])
    | frame frame =>
      obtain ⟨first, blocks⟩ := @carries_frame heading outTokens translator frame
      have rest := first.append (induction (translator.frame heading outTokens frame).1) blocks
      simpa [translate, incoming, framesOf, Incoming.frame?] using rest

end Translator

variable (reader : Reader) (request : StreamRequest) (msgId : String) (permits : Permits)
  (ending : Ending)

theorem carries_incomings (chunks : List Bytes) :
    let frames := framesOf (incomings reader chunks)
    Carries [] (yields (request.anthropicStreamResponse msgId reader permits chunks ending))
      (frames.flatMap fun frame => frame.content.getD []) (frames.flatMap Frame.toolCalls) := by
  have carries : Carries [] _ _ _ := @Translator.carries_translate (request.heading msgId) .fresh
    (timedLines reader 0 [] chunks)
  rw [map_fst_timedLines 0 rfl] at carries
  rw [yields_anthropicStreamResponse]
  refine carries.append_silent ?_
  cases ending <;> rw [Progress.epilogue] <;> split_ifs <;>
    simp [endingEvents, closingEvents, closingEventsWithStop, Event.Silent]

/-- What a client is to find: the texts, and each tool call in a block behind the one of
the text. -/
structure Carried (events : List Event) (frames : List Frame) : Prop where
  text : events.flatMap Event.text = frames.flatMap fun frame => frame.content.getD []
  calls (index : UInt64) : InBlock false events (index.toNat + 1)
    ((frames.flatMap Frame.toolCalls).filter fun call => call.index = index)

/-- The content of a stream reaches the client, unless it has a tool call whose block
would be the one of the text. -/
theorem content_carried_iff {chunks : List Bytes} {texts : List (List Char)}
    (decoded : Decoded chunks texts) :
    let frames := framesOf ((splitLines texts.flatten).1.map (.ofLine reader))
    Carried (yields (request.anthropicStreamResponse msgId reader permits chunks ending)) frames ↔
      lastIndex ∉ indicesOf frames := by
  intro frames
  have carries := carries_incomings reader request msgId permits ending chunks
  rw [incomings, lossyText_of_decoded decoded] at carries
  have indices : indicesOf frames = (frames.flatMap Frame.toolCalls).map ToolCallDelta.index :=
    map_flatMap.symm
  rw [indices, mem_map]
  constructor
  · rintro carried ⟨call, called, last⟩
    -- No block has the number that follows the last index.
    have none : (frames.flatMap Frame.toolCalls).filter
        (fun other => blockIndex other.index = lastIndex.toNat + 1) = [] :=
      filter_eq_nil_iff.mpr fun other _ =>
        decide_eq_false (other.index + 1).toNat_lt.ne ▸ Bool.false_ne_true
    have started := (carries.calls _).toolUse.symm.trans (carried.calls lastIndex).toolUse
    have member : call ∈ (frames.flatMap Frame.toolCalls).filter fun other =>
        other.index = lastIndex := mem_filter.mpr ⟨called, decide_eq_true last⟩
    rw [none] at started
    cases first : (frames.flatMap Frame.toolCalls).filter fun other => other.index = lastIndex with
    | nil => simp [first] at member
    | cons => simp [first] at started
  · intro absent
    refine ⟨carries.text, fun index => ?_⟩
    have same (call : ToolCallDelta) (called : call ∈ frames.flatMap Frame.toolCalls) :
        decide (call.index = index) = decide (blockIndex call.index = index.toNat + 1) := by
      have bounded : call.index.toNat ≠ 2 ^ 64 - 1 := fun last =>
        absent ⟨call, called, UInt64.toNat_inj.mp last⟩
      have block : blockIndex call.index = (call.index.toNat + 1) % 2 ^ 64 := rfl
      have := call.index.toNat_lt
      rw [decide_eq_decide, ← UInt64.toNat_inj, block]
      omega
    rw [filter_congr same]
    exact carries.calls _

theorem content_carried_text :
    Carried (sampleEvents [textChunk]) (framesOf (incomings JsonTexts.fromStr [textChunk])) := by
  have decoded : Decoded [textChunk] ([textChunk].map fromUtf8Lossy) :=
    .cons (by decide +kernel) .nil
  exact (content_carried_iff JsonTexts.fromStr sampleRequest "id" ⟨256, 256⟩ .closed decoded).mpr
    (by decide +kernel)

def lastToolChunk : Bytes :=
  utf8 ("data: \x7b\"choices\":[\x7b\"delta\":\x7b\"tool_calls\":[\x7b\"id\":\"c\"," ++
    "\"index\":18446744073709551615\x7d]\x7d\x7d]\x7d\n")

theorem tool_in_text_block :
    (sampleEvents [lastToolChunk]).flatMap (Event.toolUse 0) = [(['c'], [])] ∧
      ¬ Carried (sampleEvents [lastToolChunk])
        (framesOf (incomings JsonTexts.fromStr [lastToolChunk])) := by
  refine ⟨by decide +kernel, fun carried => ?_⟩
  exact absurd (carried.calls lastIndex).toolUse (by decide +kernel)

end Purser.GatewayStreams
