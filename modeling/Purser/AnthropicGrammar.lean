import Purser.AnthropicTranslation
import Purser.MessageGrammar

/-!
# The grammar of translated streams

A translated stream keeps to the grammar of message streams when its upstream is
orderly.
-/

namespace Purser.GatewayStreams

open MessageGrammar TextLines Utf8Decoding List
open Progress (epilogue)

variable {items before : List (Incoming × ℕ)}

def Event.kind : Event → Kind
  | messageStart _ => .messageStart
  | contentBlockStart index _ => .blockStart index
  | ping => .ping
  | contentBlockDelta index _ => .blockDelta index
  | contentBlockStop index => .blockStop index
  | messageDelta _ _ => .messageDelta
  | messageStop => .messageStop
  | error _ => .error

def kindsOf (events : List Event) : List Kind := events.map Event.kind

@[simp]
theorem kindsOf_append (first second : List Event) :
    kindsOf (first ++ second) = kindsOf first ++ kindsOf second :=
  map_append

/-! ## Orderly upstreams -/

namespace Incoming

def frame? : Incoming → Option Frame
  | .frame delta => some delta
  | _ => none

end Incoming

def framesOf (items : List Incoming) : List Frame :=
  (items.takeWhile fun item => !item.breaks).filterMap Incoming.frame?

/-- The line that ends the loop. -/
def breakerOf (items : List Incoming) : Option Incoming := items.find? Incoming.breaks

def indicesOf (frames : List Frame) : List UInt64 :=
  frames.flatMap fun frame => frame.toolCalls.map ToolCallDelta.index

namespace Frame

def stopReason? (frame : Frame) : Option StopReason := frame.finish?.map finishToStopReason

def Silent (seen : List UInt64) (frame : Frame) : Prop := textEvents frame = [] ∧
    ∀ call ∈ frame.toolCalls, call.index ∈ seen ∧ argumentsEvents call = []

instance (seen : List UInt64) (frame : Frame) : Decidable (frame.Silent seen) :=
  inferInstanceAs (Decidable (_ ∧ _))

theorem Silent.mono {seen known : List UInt64} {frame : Frame}
    (silent : frame.Silent seen) (subset : seen ⊆ known) :
    frame.Silent known :=
  ⟨silent.1, fun call member =>
    ⟨subset (silent.2 call member).1, (silent.2 call member).2⟩⟩

end Frame

/-- The index whose block would be the one of the text. -/
def lastIndex : UInt64 := 0xFFFFFFFFFFFFFFFF

def Complete (frames : List Frame) : Prop :=
  let opened := frames.takeWhile fun frame => frame.finish?.isNone
  match frames.dropWhile fun frame => frame.finish?.isNone with
  | [] => indicesOf opened = []
  | last :: after =>
    (indicesOf (opened ++ [last]) = [] ∨
      last.stopReason? = some .toolUse ∧ lastIndex ∉ indicesOf (opened ++ [last])) ∧
    ∀ frame ∈ after, frame.Silent (indicesOf (opened ++ [last]))

instance (frames : List Frame) : Decidable (Complete frames) := by
  unfold Complete
  dsimp only
  split <;> infer_instance

theorem complete_of_unfinished {frames : List Frame}
    (unfinished : ∀ frame ∈ frames, frame.finish? = none) :
    Complete frames ↔ indicesOf frames = [] := by
  have all : ∀ frame ∈ frames, frame.finish?.isNone = true := fun frame member =>
    Option.isNone_iff_eq_none.mpr (unfinished frame member)
  simp only [Complete, dropWhile_eq_nil_iff.mpr all, takeWhile_eq_self_iff.mpr all]

/-- What the upstream may do for the events to keep to the grammar. -/
def Orderly (items : List Incoming) (ending : Ending) : Prop :=
  let frames := framesOf items
  match breakerOf items, ending with
  | some .failed, _ => True
  | some _, _ => Complete frames
  | none, .closed => frames ≠ [] ∧ Complete frames
  | none, _ => frames = [] ∨ ∃ frame ∈ frames, frame.finish?.isSome

instance (items : List Incoming) (ending : Ending) : Decidable (Orderly items ending) := by
  unfold Orderly
  dsimp only
  split <;> infer_instance

def incomings (reader : Reader) (chunks : List Bytes) : List Incoming :=
  (splitLines (lossyText chunks)).1.map (.ofLine reader)

/-! ## The frames of a translated stream -/

variable {heading : Heading} {reader : Reader}

/-- The frames before the line that ends the loop, with the tokens counted
when they are handled. -/
def timedFrames (items : List (Incoming × ℕ)) : List (Frame × ℕ) :=
  (items.takeWhile fun entry => !entry.1.breaks).filterMap fun entry =>
    entry.1.frame?.map fun frame => (frame, entry.2)

@[simp]
theorem timedFrames_skipped (outTokens : ℕ) (rest : List (Incoming × ℕ)) :
    timedFrames ((.skipped, outTokens) :: rest) = timedFrames rest :=
  rfl

@[simp]
theorem timedFrames_frame (delta : Frame) (outTokens : ℕ) (rest : List (Incoming × ℕ)) :
    timedFrames ((.frame delta, outTokens) :: rest) = (delta, outTokens) :: timedFrames rest :=
  rfl

theorem map_fst_timedFrames (items : List (Incoming × ℕ)) :
    (timedFrames items).map Prod.fst = framesOf (items.map Prod.fst) := by
  induction items with
  | nil => rfl
  | cons entry rest induction =>
    obtain ⟨item, outTokens⟩ := entry
    cases item with
    | skipped => exact induction
    | done => rfl
    | failed => rfl
    | frame delta => exact congrArg (delta :: ·) induction

namespace Translator

def frames (heading : Heading) : Translator → List (Frame × ℕ) → Translator × List Event
  | translator, [] => (translator, [])
  | translator, (delta, outTokens) :: rest =>
    let framed := translator.frame heading outTokens delta
    let remaining := framed.1.frames heading rest
    (remaining.1, framed.2 ++ remaining.2)

theorem frames_append (translator : Translator) (first second : List (Frame × ℕ)) :
    translator.frames heading (first ++ second) =
      (((translator.frames heading first).1.frames heading second).1,
        (translator.frames heading first).2 ++
          ((translator.frames heading first).1.frames heading second).2) := by
  induction first generalizing translator with
  | nil => rfl
  | cons _ _ induction => simp [frames, induction]

theorem translate_of_not_breaks (translator : Translator)
    (unbroken : ∀ entry ∈ items, entry.1.breaks = false) :
    translator.translate heading items = ⟨(translator.frames heading (timedFrames items)).1,
        (translator.frames heading (timedFrames items)).2, false⟩ := by
  induction items generalizing translator with
  | nil => rfl
  | cons entry rest induction =>
    obtain ⟨item, outTokens⟩ := entry
    have remaining := fun next : Translator => induction next
      fun other member => unbroken other (mem_cons_of_mem _ member)
    cases item with
    | skipped => simp [translate, incoming, remaining]
    | frame => simp [translate, incoming, remaining, frames]
    | done | failed => simpa using unbroken _ mem_cons_self

def speak (heading : Heading) (translator : Translator) (delta : Frame) : Translator × List Event :=
  let opened :=
    { translator with sentPreamble := true }.toolCalls delta.toolCalls
  (opened.1, translator.missingPreamble heading ++ textEvents delta ++ opened.2)

variable {translator : Translator} {delta : Frame}

theorem frame_eq_speak (unfinished : delta.finish? = none ∨ translator.streamEnded = true)
    (outTokens : ℕ) :
    translator.frame heading outTokens delta = translator.speak heading delta := by
  rcases unfinished with absent | ended
  · simp [frame, absent, speak]
  · cases reason : delta.finish? <;> simp [frame, reason, ended, speak]

variable {reason : List Char}

theorem frame_of_finish (finish : delta.finish? = some reason)
    (live : translator.streamEnded = false) (outTokens : ℕ) :
    let spoken := translator.speak heading delta
    translator.frame heading outTokens delta = ({ spoken.1 with streamEnded := true },
        spoken.2 ++ spoken.1.finishEvents outTokens reason) := by
  simp [frame, finish, live, speak]

/-! ## What tool calls do to the state -/

section

variable (translator)

include translator

theorem toolCall_flags (call : ToolCallDelta) :
    (translator.toolCall call).1.sentPreamble = translator.sentPreamble ∧
      (translator.toolCall call).1.streamEnded = translator.streamEnded := by
  unfold toolCall
  split <;> exact ⟨rfl, rfl⟩

theorem toolCalls_flags (calls : List ToolCallDelta) :
    (translator.toolCalls calls).1.sentPreamble = translator.sentPreamble ∧
      (translator.toolCalls calls).1.streamEnded = translator.streamEnded := by
  induction calls generalizing translator with
  | nil => exact ⟨rfl, rfl⟩
  | cons call _ induction =>
    obtain ⟨sent, ended⟩ := translator.toolCall_flags call
    obtain ⟨sentRest, endedRest⟩ := induction (translator.toolCall call).1
    exact ⟨sentRest.trans sent, endedRest.trans ended⟩

theorem mem_toolIndices_toolCall (call : ToolCallDelta) (index : UInt64) :
    index ∈ (translator.toolCall call).1.toolIndices ↔
      index ∈ translator.toolIndices ∨ index = call.index := by
  unfold toolCall
  split
  case isTrue known =>
    exact ⟨.inl, fun member => member.elim id fun same => same ▸ known⟩
  case isFalse => simp [toolIndices]

theorem mem_toolIndices_toolCalls (calls : List ToolCallDelta) (index : UInt64) :
    index ∈ (translator.toolCalls calls).1.toolIndices ↔ index ∈ translator.toolIndices ∨
        index ∈ calls.map ToolCallDelta.index := by
  induction calls generalizing translator with
  | nil => simp [toolCalls]
  | cons _ _ induction =>
    simp only [toolCalls, induction, mem_toolIndices_toolCall, map_cons, mem_cons, or_assoc]

theorem speak_flags (delta : Frame) : (translator.speak heading delta).1.sentPreamble = true ∧
      (translator.speak heading delta).1.streamEnded = translator.streamEnded :=
  toolCalls_flags _ _

theorem mem_toolIndices_speak (delta : Frame) (index : UInt64) :
    index ∈ (translator.speak heading delta).1.toolIndices ↔ index ∈ translator.toolIndices ∨
        index ∈ delta.toolCalls.map ToolCallDelta.index :=
  mem_toolIndices_toolCalls _ _ _

end

/-! ## Open messages -/

def blocks (translator : Translator) : List ℕ := 0 :: translator.toolIndices.map blockIndex

/-- Everything said so far leaves an open message, or nothing was said. -/
def Begun (translator : Translator) (kinds : List Kind) : Prop :=
  if translator.sentPreamble then Opened translator.blocks kinds
  else kinds = [] ∧ translator.toolCallState = []

theorem blockIndex_injective : Function.Injective blockIndex := by
  intro first second same
  exact (UInt64.add_left_inj 1).mp (UInt64.toNat_inj.mp same)

theorem blockIndex_ne_zero {index : UInt64} (bounded : index ≠ lastIndex) :
    blockIndex index ≠ 0 := by
  intro zero
  have wrapped : blockIndex index = blockIndex lastIndex := by
    rw [zero]
    rfl
  exact bounded (blockIndex_injective wrapped)

variable {kinds : List Kind}

theorem opened_argumentsEvents {blocks : List ℕ}
    {call : ToolCallDelta} (opened : Opened blocks kinds) (known : blockIndex call.index ∈ blocks) :
    Opened blocks (kinds ++ kindsOf (argumentsEvents call)) := by
  unfold argumentsEvents
  split
  case h_1 fragment _ =>
    split
    · simpa [kindsOf] using opened
    · exact .delta opened known
  case h_2 => simpa [kindsOf] using opened

theorem opened_toolCall {call : ToolCallDelta} (opened : Opened translator.blocks kinds)
    (bounded : call.index ≠ lastIndex) :
    Opened (translator.toolCall call).1.blocks (kinds ++ kindsOf (translator.toolCall call).2) := by
  unfold toolCall
  split
  case isTrue known =>
    exact opened_argumentsEvents opened (mem_cons_of_mem _ (mem_map_of_mem known))
  case isFalse fresh =>
    have unused : blockIndex call.index ∉ translator.blocks := by
      intro member
      rcases mem_cons.mp member with zero | member
      · exact blockIndex_ne_zero bounded zero
      · exact fresh ((mem_map_of_injective blockIndex_injective).mp member)
    have started := Opened.start opened unused
    have extended : { translator with
        toolCallState := translator.toolCallState ++ [(call.index, call.id, call.name)] }.blocks =
        translator.blocks ++ [blockIndex call.index] := by
      simp [blocks, toolIndices]
    rw [← extended] at started
    have answered := opened_argumentsEvents started (by simp [extended] : blockIndex call.index ∈ _)
    simpa [kindsOf, Event.kind] using answered

theorem opened_toolCalls {calls : List ToolCallDelta} (opened : Opened translator.blocks kinds)
    (bounded : ∀ call ∈ calls, call.index ≠ lastIndex) :
    Opened (translator.toolCalls calls).1.blocks
      (kinds ++ kindsOf (translator.toolCalls calls).2) := by
  induction calls generalizing translator kinds with
  | nil => simpa [toolCalls, kindsOf] using opened
  | cons call _ induction =>
    have first := opened_toolCall opened (bounded call mem_cons_self)
    have rest := induction first fun other member =>
      bounded other (mem_cons_of_mem _ member)
    simpa [toolCalls] using rest

/-- The preamble, the text and the tool calls of a frame leave the message
open. -/
theorem opened_speak (begun : translator.Begun kinds)
    (bounded : ∀ call ∈ delta.toolCalls, call.index ≠ lastIndex) :
    Opened (translator.speak heading delta).1.blocks
      (kinds ++ kindsOf (translator.speak heading delta).2) := by
  have headed : Opened translator.blocks
      (kinds ++ kindsOf (translator.missingPreamble heading)) := by
    unfold Begun at begun
    split at begun
    case isTrue sent => simpa [missingPreamble, sent, kindsOf] using begun
    case isFalse unsent =>
      obtain ⟨rfl, idle⟩ := begun
      simpa [missingPreamble, unsent, kindsOf, preambleEvents, Event.kind,
        blocks, toolIndices, idle] using Opened.preamble
  have text : Opened translator.blocks
      (kinds ++ kindsOf (translator.missingPreamble heading) ++ kindsOf (textEvents delta)) := by
    unfold textEvents
    split
    · split
      · simpa [kindsOf] using headed
      · exact .delta headed mem_cons_self
    · simpa [kindsOf] using headed
  have calls := @opened_toolCalls { translator with sentPreamble := true } _
    delta.toolCalls text bounded
  simpa [speak] using calls

/-- The events that close a message stop its blocks. -/
theorem exists_stops_finishEvents (outTokens : ℕ) (orderly : translator.toolIndices = [] ∨
      finishToStopReason reason = .toolUse) :
    ∃ stops, stops.Perm translator.blocks ∧
      kindsOf (translator.finishEvents outTokens reason) = closing stops := by
  by_cases tools : finishToStopReason reason = .toolUse ∧ translator.toolCallState ≠ []
  · refine ⟨0 :: (translator.toolIndices.insertionSort (· ≤ ·)).map blockIndex, ?_, ?_⟩
    · exact ((perm_insertionSort _ _).map blockIndex).cons 0
    · simp [finishEvents, tools, kindsOf, closing, Event.kind, Function.comp_def]
  · have idle : translator.toolCallState = [] := by
      rcases orderly with idle | stop
      · exact map_eq_nil_iff.mp idle
      · exact Classical.not_not.mp fun busy => tools ⟨stop, busy⟩
    refine ⟨[0], ?_, ?_⟩
    · simp [blocks, toolIndices, idle]
    · simp [finishEvents, idle, closingEventsWithStop, kindsOf, closing, Event.kind]

/-! ## Runs of frames -/

theorem frame_flags (translator : Translator) (delta : Frame) (outTokens : ℕ) :
    (translator.frame heading outTokens delta).1.sentPreamble = true ∧
      (translator.frame heading outTokens delta).1.streamEnded =
        (translator.streamEnded || delta.finish?.isSome) := by
  obtain ⟨sent, ended⟩ := @speak_flags heading translator delta
  cases finish : delta.finish? with
  | none => simp [frame_eq_speak (.inl finish), sent, ended]
  | some =>
    cases live : translator.streamEnded with
    | true => simp [frame_eq_speak (.inr live), sent, ended, live]
    | false => simp [frame_of_finish finish live, sent]

theorem frames_flags (translator : Translator) (entries : List (Frame × ℕ)) :
    (translator.frames heading entries).1.sentPreamble =
        (translator.sentPreamble || !entries.isEmpty) ∧
      (translator.frames heading entries).1.streamEnded = (translator.streamEnded ||
          entries.any fun entry => entry.1.finish?.isSome) := by
  induction entries generalizing translator with
  | nil => simp [frames]
  | cons entry _ induction =>
    obtain ⟨delta, outTokens⟩ := entry
    obtain ⟨sent, ended⟩ := @frame_flags heading translator delta outTokens
    obtain ⟨sentRest, endedRest⟩ :=
      induction (translator.frame heading outTokens delta).1
    simp [frames, sentRest, endedRest, sent, ended, Bool.or_assoc]

theorem speak_of_silent (sent : translator.sentPreamble = true)
    (silent : delta.Silent translator.toolIndices) :
    translator.speak heading delta = (translator, []) := by
  obtain ⟨noText, noNews⟩ := silent
  have quiet : ∀ calls : List ToolCallDelta,
      (∀ call ∈ calls, call.index ∈ translator.toolIndices ∧ argumentsEvents call = []) →
      translator.toolCalls calls = (translator, []) := by
    intro calls known
    induction calls with
    | nil => rfl
    | cons call _ induction =>
      obtain ⟨member, none⟩ := known call mem_cons_self
      have rest := induction fun other later =>
        known other (mem_cons_of_mem _ later)
      simp [toolCalls, toolCall, member, none, rest]
  have same : { translator with sentPreamble := true } = translator := by
    rw [← sent]
  simp [speak, missingPreamble, sent, noText, same, quiet _ noNews]

variable {entries : List (Frame × ℕ)}

theorem frames_of_silent (sent : translator.sentPreamble = true)
    (ended : translator.streamEnded = true)
    (silent : ∀ entry ∈ entries, entry.1.Silent translator.toolIndices) :
    translator.frames heading entries = (translator, []) := by
  induction entries with
  | nil => rfl
  | cons entry _ induction =>
    have first := @speak_of_silent heading _ _ sent (silent entry mem_cons_self)
    have rest := induction fun other member =>
      silent other (mem_cons_of_mem _ member)
    simp [frames, frame_eq_speak (.inr ended), first, rest]

/-- Frames without a finish reason keep a message open. -/
theorem begun_frames (begun : translator.Begun kinds)
    (unfinished : ∀ entry ∈ entries, entry.1.finish? = none)
    (bounded : ∀ index ∈ indicesOf (entries.map Prod.fst), index ≠ lastIndex) :
    let framed := translator.frames heading entries
    framed.1.Begun (kinds ++ kindsOf framed.2) ∧
      ∀ index, index ∈ framed.1.toolIndices ↔ index ∈ translator.toolIndices ∨
          index ∈ indicesOf (entries.map Prod.fst) := by
  induction entries generalizing translator kinds with
  | nil => simpa [frames, kindsOf, indicesOf] using begun
  | cons entry _ induction =>
    obtain ⟨delta, outTokens⟩ := entry
    have absent : delta.finish? = none := unfinished _ mem_cons_self
    have spoken := @opened_speak heading translator delta kinds begun
      fun call member => bounded call.index (by
        simp only [indicesOf, map_cons, flatMap_cons, mem_append]
        exact .inl (mem_map_of_mem member))
    obtain ⟨sent, _⟩ := @speak_flags heading translator delta
    obtain ⟨begunRest, indices⟩ := @induction
      (translator.speak heading delta).1
      (kinds ++ kindsOf (translator.speak heading delta).2)
      (by simpa [Begun, sent] using spoken)
      (fun other member => unfinished other (mem_cons_of_mem _ member))
      (fun index member => bounded index (by
        simp only [indicesOf, map_cons, flatMap_cons, mem_append]
        exact .inr member))
    simp only [frames, frame_eq_speak (.inl absent)]
    refine ⟨by simpa using begunRest, fun index => ?_⟩
    simp only [indices, mem_toolIndices_speak, indicesOf, map_cons,
      flatMap_cons, mem_append, or_assoc]

theorem begun_fresh : fresh.Begun [] := ⟨rfl, rfl⟩

/-- Frames, the frame that finishes their message, and frames without news
after it are a complete message. -/
theorem message_of_finished {opened after : List (Frame × ℕ)} {last : Frame} (outTokens : ℕ)
    (unfinished : ∀ entry ∈ opened, entry.1.finish? = none) (finish : last.finish? = some reason)
    (complete : Complete (opened.map Prod.fst ++ last :: after.map Prod.fst)) :
    let framed := fresh.frames heading (opened ++ (last, outTokens) :: after)
    framed.1.streamEnded = true ∧ framed.1.sentPreamble = true ∧ Message (kindsOf framed.2) := by
  have all : ∀ frame ∈ opened.map Prod.fst, frame.finish?.isNone = true := by
    simpa using unfinished
  simp only [Complete, dropWhile_append_of_pos all, takeWhile_append_of_pos all] at complete
  simp [finish, Frame.stopReason?] at complete
  obtain ⟨tools, silent⟩ := complete
  set indices := indicesOf (opened.map Prod.fst ++ [last]) with indices_def
  have bounded : ∀ index ∈ indices, index ≠ lastIndex := by
    rcases tools with none | ⟨_, bounded⟩
    · simp [none]
    · exact fun index member same => bounded (same ▸ member)
  have indices_append : ∀ index, index ∈ indices ↔ index ∈ indicesOf (opened.map Prod.fst) ∨
        index ∈ last.toolCalls.map ToolCallDelta.index := by
    simp [indices_def, indicesOf]
  obtain ⟨begun, earlier⟩ := @begun_frames heading _ _ opened begun_fresh
    unfinished fun index member =>
      bounded index ((indices_append index).mpr (.inl member))
  set state := (fresh.frames heading opened).1 with state_def
  have live : state.streamEnded = false := by
    rw [(frames_flags fresh opened).2]
    simpa [fresh] using unfinished
  have known : ∀ index, index ∈ (state.speak heading last).1.toolIndices ↔ index ∈ indices := by
    intro index
    rw [mem_toolIndices_speak, earlier, indices_append]
    simp [fresh, toolIndices]
  have untooled : indices = [] → (state.speak heading last).1.toolIndices = [] := by
    intro none
    refine eq_nil_iff_forall_not_mem.mpr fun index member => ?_
    simpa [none] using (known index).mp member
  have spoken := @opened_speak heading _ last _ begun fun call member => bounded call.index
    ((indices_append _).mpr (.inr (mem_map_of_mem member)))
  obtain ⟨stops, stopping, closed⟩ :=
    exists_stops_finishEvents outTokens (tools.imp untooled And.left)
  have message := message_of_opened spoken stopping
  obtain ⟨sent, ended⟩ := @frame_flags heading state last outTokens
  -- The frames after the finish find every tool call they mention.
  have quiet : (state.frame heading outTokens last).1.frames heading after =
      ((state.frame heading outTokens last).1, []) := by
    refine frames_of_silent sent (by simp [ended, finish]) ?_
    intro entry member
    refine (silent entry.1 entry.2 member).mono ?_
    intro index seen
    simpa [frame_of_finish finish live, toolIndices] using (known index).mpr seen
  simp only [frames_append, frames, ← state_def, quiet]
  exact ⟨by simp [ended, finish], sent,
    by simpa [frame_of_finish finish live, closed] using message⟩

/-- The frames of a message that is closed as it should be leave it open
without tool blocks, or complete. -/
theorem begun_or_message_of_complete (complete : Complete (entries.map Prod.fst)) :
    let framed := fresh.frames heading entries
    (framed.1.streamEnded = false ∧ framed.1.toolIndices = [] ∧ framed.1.Begun (kindsOf framed.2)) ∨
      (framed.1.streamEnded = true ∧ framed.1.sentPreamble = true ∧
        Message (kindsOf framed.2)) := by
  cases found : entries.find? fun entry => entry.1.finish?.isSome with
  | none =>
    have unfinished : ∀ entry ∈ entries, entry.1.finish? = none := by
      simpa using found
    have untooled : indicesOf (entries.map Prod.fst) = [] :=
      (complete_of_unfinished (by simpa using unfinished)).mp complete
    obtain ⟨begun, indices⟩ := @begun_frames heading _ _ entries begun_fresh
      unfinished (by simp [untooled])
    refine .inl ⟨?_, ?_, begun⟩
    · rw [(frames_flags fresh entries).2]
      simpa [fresh] using unfinished
    · refine eq_nil_iff_forall_not_mem.mpr fun index member => ?_
      simpa [untooled, fresh, toolIndices] using (indices index).mp member
  | some entry =>
    obtain ⟨finishing, opened, after, rfl, before⟩ := find?_eq_some_iff_append.mp found
    obtain ⟨reason, finish⟩ := Option.isSome_iff_exists.mp finishing
    exact .inr (message_of_finished entry.2 (by simpa using before) finish
      (by simpa using complete))

/-! ## No errors but at the end -/

theorem error_not_mem_argumentsEvents (call : ToolCallDelta) :
    .error ∉ kindsOf (argumentsEvents call) := by
  unfold argumentsEvents
  repeat' split
  all_goals simp [kindsOf, Event.kind]

section

variable (translator)

include translator

theorem error_not_mem_toolCalls (calls : List ToolCallDelta) :
    .error ∉ kindsOf (translator.toolCalls calls).2 := by
  induction calls generalizing translator with
  | nil => simp [toolCalls, kindsOf]
  | cons call _ induction =>
    have first : .error ∉ kindsOf (translator.toolCall call).2 := by
      unfold toolCall
      split
      · exact error_not_mem_argumentsEvents call
      · simpa [kindsOf, Event.kind] using error_not_mem_argumentsEvents call
    simp [toolCalls, first, induction]

theorem error_not_mem_speak (delta : Frame) :
    .error ∉ kindsOf (translator.speak heading delta).2 := by
  have text : .error ∉ kindsOf (textEvents delta) := by
    unfold textEvents
    repeat' split
    all_goals simp [kindsOf, contentDeltaEvent, Event.kind]
  have preamble : .error ∉ kindsOf (translator.missingPreamble heading) := by
    unfold missingPreamble
    split <;> simp [kindsOf, preambleEvents, Event.kind]
  simp [speak, preamble, text, error_not_mem_toolCalls]

theorem error_not_mem_finishEvents (outTokens : ℕ) (reason : List Char) :
    .error ∉ kindsOf (translator.finishEvents outTokens reason) := by
  unfold finishEvents
  dsimp only
  split <;> simp [kindsOf, closingEventsWithStop, Event.kind]

theorem error_not_mem_frames (entries : List (Frame × ℕ)) :
    .error ∉ kindsOf (translator.frames heading entries).2 := by
  induction entries generalizing translator with
  | nil => simp [frames, kindsOf]
  | cons entry _ induction =>
    obtain ⟨delta, outTokens⟩ := entry
    have first : .error ∉ kindsOf (translator.frame heading outTokens delta).2 := by
      cases finish : delta.finish? with
      | none =>
        rw [frame_eq_speak (.inl finish)]
        exact error_not_mem_speak _ _
      | some =>
        cases live : translator.streamEnded with
        | true =>
          rw [frame_eq_speak (.inr live)]
          exact error_not_mem_speak _ _
        | false =>
          simp [frame_of_finish finish live, error_not_mem_speak, error_not_mem_finishEvents]
    simp [frames, first, induction]

end

/-! ## Whole streams -/

/-- An open message without tool blocks is completed by the closing events. -/
theorem message_of_begun (begun : translator.Begun kinds) (untooled : translator.toolIndices = [])
    (outTokens : ℕ) :
    Message (kinds ++ kindsOf (translator.missingPreamble heading ++ closingEvents outTokens)) := by
  have opened : Opened [0] (kinds ++ kindsOf (translator.missingPreamble heading)) := by
    unfold Begun at begun
    split at begun
    case isTrue sent =>
      simpa [missingPreamble, sent, kindsOf, blocks, untooled] using begun
    case isFalse unsent =>
      obtain ⟨rfl, _⟩ := begun
      simpa [missingPreamble, unsent, kindsOf, preambleEvents, Event.kind] using Opened.preamble
  have complete := message_of_opened opened (List.Perm.refl [0])
  simpa [closing, closingEvents, closingEventsWithStop, kindsOf, Event.kind] using complete

variable {ending : Ending}

/-- The upstream broke off before the message began or after it was closed. -/
theorem wellFormed_of_failure {fault : Fault} (failure : endingEvents ending = [.error fault])
    (settled : entries = [] ∨ ∃ entry ∈ entries, entry.1.finish?.isSome = true) (outTokens : ℕ) :
    let framed := fresh.frames heading entries
    WellFormed (kindsOf (framed.2 ++
      epilogue ⟨framed.1, framed.2, false⟩ ending outTokens)) := by
  obtain ⟨sent, ended⟩ := @frames_flags heading fresh entries
  have noClosing : ((fresh.frames heading entries).1.sentPreamble &&
      !(fresh.frames heading entries).1.streamEnded) = false := by
    rcases settled with rfl | finished
    · rfl
    · rw [ended, any_eq_true.mpr finished]
      simp
  refine .inr ?_
  simpa [epilogue, noClosing, failure, kindsOf, Event.kind] using
    failed_of_not_mem (error_not_mem_frames fresh entries)

theorem wellFormed_of_close (some : entries ≠ []) (complete : Complete (entries.map Prod.fst))
    (outTokens : ℕ) :
    let framed := fresh.frames heading entries
    WellFormed (kindsOf (framed.2 ++
      epilogue ⟨framed.1, framed.2, false⟩ .closed outTokens)) := by
  obtain ⟨sent, _⟩ := @frames_flags heading fresh entries
  have begunMessage : (fresh.frames heading entries).1.sentPreamble = true := by
    rw [sent]
    simp [some]
  refine .inl ?_
  rcases @begun_or_message_of_complete heading entries complete with
    ⟨live, untooled, begun⟩ | ⟨ended, _, message⟩
  · have closed := @message_of_begun heading _ _ begun untooled outTokens
    simpa [epilogue, endingEvents, begunMessage, live, missingPreamble] using closed
  · simpa [epilogue, endingEvents, ended] using message

theorem wellFormed_of_unbroken (unbroken : ∀ entry ∈ items, entry.1.breaks = false)
    (orderly : Orderly (items.map Prod.fst) ending) (outTokens : ℕ) :
    let progress := fresh.translate heading items
    WellFormed (kindsOf (progress.events ++ progress.epilogue ending outTokens)) := by
  have unmet : breakerOf (items.map Prod.fst) = none := by
    simpa [breakerOf] using unbroken
  unfold Orderly at orderly
  rw [unmet, ← map_fst_timedFrames] at orderly
  simp only [translate_of_not_breaks fresh unbroken]
  cases ending with
  | closed =>
    exact wellFormed_of_close (by simpa using orderly.1) orderly.2 _
  | timedOut | interrupted =>
    exact wellFormed_of_failure rfl (by simpa using orderly) _

theorem wellFormed_of_broken {after : List (Incoming × ℕ)} {item : Incoming} {counted : ℕ}
    (unbroken : ∀ entry ∈ before, entry.1.breaks = false) (breaking : item.breaks = true)
    (orderly : Orderly ((before ++ (item, counted) :: after).map Prod.fst) ending) (outTokens : ℕ) :
    let progress :=
      fresh.translate heading (before ++ (item, counted) :: after)
    WellFormed (kindsOf (progress.events ++ progress.epilogue ending outTokens)) := by
  have met : breakerOf ((before ++ (item, counted) :: after).map Prod.fst) = some item := by
    rw [map_append, breakerOf, find?_append, find?_eq_none.mpr (by simpa using unbroken)]
    simp [breaking]
  have entries_eq : timedFrames (before ++ (item, counted) :: after) = timedFrames before := by
    have all : ∀ entry ∈ before, (!entry.1.breaks) = true := by
      simpa using unbroken
    simp [timedFrames, takeWhile_append_of_pos all, breaking, takeWhile_eq_self_iff.mpr all]
  unfold Orderly at orderly
  rw [met, ← map_fst_timedFrames, entries_eq] at orderly
  simp only [Translator.translate_append, Translator.translate_of_not_breaks _ unbroken,
    Translator.translate]
  set entries := timedFrames before
  cases item with
  | skipped | frame => cases breaking
  | failed =>
    refine .inr ?_
    simpa [epilogue, incoming, kindsOf, Event.kind] using
      failed_of_not_mem (error_not_mem_frames fresh entries)
  | done =>
    refine .inl ?_
    rcases @begun_or_message_of_complete heading entries orderly with
      ⟨live, untooled, begun⟩ | ⟨ended, sent, message⟩
    · have closed := @message_of_begun heading _ _ begun untooled counted
      simpa [epilogue, incoming, live] using closed
    · simpa [epilogue, incoming, ended, sent, missingPreamble] using message

end Translator

/-- The events of a translated stream keep to the grammar when the upstream is
orderly. -/
theorem wellFormed_of_orderly (request : StreamRequest) (msgId : String)
    (reader : Reader) (permits : Permits) (chunks : List Bytes)
    (ending : Ending) (orderly : Orderly (incomings reader chunks) ending) :
    WellFormed (kindsOf (yields (request.anthropicStreamResponse msgId reader permits chunks
        ending))) := by
  have items_eq : (timedLines reader 0 [] chunks).map Prod.fst = incomings reader chunks :=
    map_fst_timedLines 0 rfl chunks
  rw [← items_eq] at orderly
  rw [yields_anthropicStreamResponse]
  set items := timedLines reader 0 [] chunks
  cases found : items.find? fun entry => entry.1.breaks with
  | none =>
    exact Translator.wellFormed_of_unbroken (by simpa using found) orderly _
  | some =>
    obtain ⟨breaking, before, after, same, unbroken⟩ := find?_eq_some_iff_append.mp found
    rw [same] at orderly ⊢
    exact Translator.wellFormed_of_broken (by simpa using unbroken) breaking orderly _

def sampleKinds (chunks : List Bytes) (ending : Ending) : List Kind :=
  kindsOf (yields (sampleRequest.anthropicStreamResponse "id"
    JsonTexts.fromStr ⟨256, 256⟩ chunks ending))

theorem wellFormed_toolStream :
    Orderly (incomings JsonTexts.fromStr [textChunk.take 30, textChunk.drop 30 ++ toolChunk,
          finishChunk "tool_calls", doneChunk]) .closed ∧
      WellFormed (sampleKinds [textChunk.take 30, textChunk.drop 30 ++ toolChunk,
          finishChunk "tool_calls", doneChunk] .closed) :=
  ⟨by decide +kernel, wellFormed_of_orderly _ _ _ _ _ _ (by decide +kernel)⟩

/-- A tool block stays open when the upstream finishes with `stop`, an error
is followed by closing events when the upstream times out in a message, text
after the finish goes to a stopped block, and an empty response has no
events. -/
theorem ill_formed_streams :
    ¬ WellFormed (sampleKinds [toolChunk, finishChunk "stop", doneChunk] .closed) ∧
      ¬ WellFormed (sampleKinds [textChunk] .timedOut) ∧
      ¬ WellFormed (sampleKinds [textChunk, finishChunk "stop", textChunk] .closed) ∧
      ¬ WellFormed (sampleKinds [] .closed) := by
  refine ⟨?_, ?_, ?_, ?_⟩ <;> rintro (message | failed)
  · exact absurd (message.stopped_once 1 (by decide +kernel)) (by decide +kernel)
  · exact absurd failed.error_last (by decide +kernel)
  · exact message.no_error (by decide +kernel)
  · exact absurd failed.error_last (by decide +kernel)
  · exact absurd message.stop_last (by decide +kernel)
  · exact absurd failed.error_last (by decide +kernel)
  · exact absurd message.start_first (by decide +kernel)
  · exact absurd failed.error_last (by decide +kernel)

end Purser.GatewayStreams
