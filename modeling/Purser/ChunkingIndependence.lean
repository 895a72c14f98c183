import Purser.AnthropicTranslation

/-!
# Chunks and what is made of them

A cut is harmless when it falls between two characters and the line it goes
through counts as much in two parts as in one.
-/

namespace Purser.GatewayStreams

open TextLines Utf8Decoding List

variable {reader : Reader}

def Harmless (chunks : List Bytes) : Prop :=
  match chunks.mapM fromUtf8 with
  | some texts => Seams lineTokens texts
  | none => False

instance (chunks : List Bytes) : Decidable (Harmless chunks) := by
  unfold Harmless
  split <;> infer_instance

/-- No line counts after one that closes the message or ends the loop. -/
def Settled (reader : Reader) : List (List Char) → Prop
  | [] => True
  | line :: rest =>
    ((Incoming.ofLine reader line).finishes = true →
      ∀ later ∈ rest, lineTokens later = 0) ∧ Settled reader rest

instance Settled.decidable (reader : Reader) :
    (handled : List (List Char)) → Decidable (Settled reader handled)
  | [] => isTrue trivial
  | line :: rest =>
    have := Settled.decidable reader rest
    inferInstanceAs (Decidable (((Incoming.ofLine reader line).finishes = true →
        ∀ later ∈ rest, lineTokens later = 0) ∧ _))

theorem lineTokens_nil : lineTokens [] = 0 := rfl

theorem lineTokens_return (line : List Char) : lineTokens (line ++ ['\r']) = lineTokens line := by
  have blank : isWhitespace '\r' = true := by decide
  have unmarked : '\r' ∉ dataMarker := by decide
  unfold lineTokens
  rw [trimStart_concat blank]
  split_ifs with empty
  · simp [empty]
  · rw [strip_concat unmarked]
    cases strip dataMarker (trimStart line) with
    | none => rfl
    | some => simp [trim_concat blank]

theorem lineTokens_stripReturn (line : List Char) :
    lineTokens (stripReturn line) = lineTokens line := by
  unfold stripReturn
  split_ifs with ended
  · have whole := dropLast_append_getLast? '\r' ended
    rw [← lineTokens_return line.dropLast, whole]
  · rfl

abbrev Decoded (chunks : List Bytes) (texts : List (List Char)) : Prop :=
  List.Forall₂ (fun chunk text => fromUtf8 chunk = some text) chunks texts

variable {chunks : List Bytes} {texts : List (List Char)}

theorem exists_texts_of_harmless (harmless : Harmless chunks) :
    ∃ texts, Decoded chunks texts ∧ Seams lineTokens texts := by
  unfold Harmless at harmless
  split at harmless
  case h_1 texts valid => exact ⟨texts, forall₂_of_mapM valid, harmless⟩
  case h_2 => exact harmless.elim

theorem totalTokens_eq_sum (decoded : Decoded chunks texts) :
    totalTokens chunks = (texts.map (weigh lineTokens)).sum := by
  induction decoded with
  | nil => rfl
  | cons first _ induction =>
    have weighed := sum_lines lineTokens_nil lineTokens_stripReturn
    simpa [totalTokens, countSseTokens, first, weighed] using induction

theorem totalTokens_of_seams (decoded : Decoded chunks texts) (seams : Seams lineTokens texts) :
    totalTokens chunks = weigh lineTokens texts.flatten := by
  rw [totalTokens_eq_sum decoded, weigh_flatten lineTokens_nil seams]

theorem lossyText_of_decoded (decoded : Decoded chunks texts) :
    lossyText chunks = texts.flatten := by
  induction decoded with
  | nil => rfl
  | cons first _ induction =>
    rw [lossyText_cons, induction, fromUtf8Lossy_of_fromUtf8 first, flatten_cons]

theorem settled_append {first second : List (List Char)}
    (settled : Settled reader (first ++ second)) :
    Settled reader second ∧
      ∀ line ∈ first, (Incoming.ofLine reader line).finishes = true →
        ∀ later ∈ second, lineTokens later = 0 := by
  induction first with
  | nil => exact ⟨settled, by simp⟩
  | cons _ _ induction =>
    obtain ⟨settledRest, others⟩ := induction settled.2
    refine ⟨settledRest, fun other member finishes later last => ?_⟩
    rcases mem_cons.mp member with rfl | member
    · exact settled.1 finishes later (mem_append_right _ last)
    · exact others other member finishes later last

theorem weigh_eq_zero_of_seam {opened text rest : List Char}
    (unbroken : splitLines opened = ([], opened)) (ended : (splitLines (opened ++ text)).1 ≠ [])
    (seam : Seam lineTokens text rest)
    (quiet : ∀ later ∈ allLines ((splitLines (opened ++ text)).2 ++ rest),
      lineTokens later = 0) : weigh lineTokens rest = 0 := by
  rw [remainder_continued unbroken ended, allLines_continued (splitLines_remainder text)] at quiet
  have through := quiet _ mem_cons_self
  have later : ((laterLines rest).map lineTokens).sum = 0 := by
    refine sum_eq_zero fun tokens member => ?_
    obtain ⟨line, inside, rfl⟩ := mem_map.mp member
    exact quiet line (mem_cons_of_mem _ inside)
  unfold Seam at seam
  rw [weigh_eq_first]
  omega

/-- A line that closes the message finds all tokens counted. -/
theorem timedLines_of_finishes (decoded : Decoded chunks texts) (seams : Seams lineTokens texts)
    {outTokens : ℕ} {buffer : List Char} (unbroken : splitLines buffer = ([], buffer))
    (settled : Settled reader (allLines (buffer ++ texts.flatten))) :
    ∀ entry ∈ timedLines reader outTokens buffer chunks,
      entry.1.finishes = true → entry.2 = outTokens + totalTokens chunks := by
  induction decoded generalizing outTokens buffer with
  | nil => simp [timedLines]
  | @cons chunk _ chunks _ first rest induction =>
    have counted : outTokens + totalTokens (chunk :: chunks) =
        outTokens + countSseTokens chunk + totalTokens chunks := by
      simp [totalTokens, Nat.add_assoc]
    rw [flatten_cons, ← append_assoc, allLines_append] at settled
    obtain ⟨settledRest, closing⟩ := settled_append settled
    intro entry member finishes
    rw [timedLines_cons, fromUtf8Lossy_of_fromUtf8 first] at member
    rw [counted]
    rcases mem_append.mp member with here | later
    · obtain ⟨line, inside, rfl⟩ := mem_map.mp here
      have nothing := weigh_eq_zero_of_seam unbroken
        (ne_nil_of_mem inside) seams.1 (closing line inside finishes)
      rw [totalTokens_of_seams rest seams.2, nothing]
      rfl
    · exact induction seams.2 (splitLines_remainder _) settledRest entry later finishes

def wholeEvents (heading : Heading) (reader : Reader) (text : List Char)
    (ending : Ending) : List Event :=
  let outTokens := weigh lineTokens text
  let progress := Translator.fresh.translate heading
    ((splitLines text).1.map fun line => (.ofLine reader line, outTokens))
  progress.events ++ progress.epilogue ending outTokens

section

variable (harmless : Harmless chunks)

include harmless

theorem totalTokens_of_harmless :
    totalTokens chunks = weigh lineTokens (fromUtf8Lossy chunks.flatten) := by
  obtain ⟨texts, decoded, seams⟩ := exists_texts_of_harmless harmless
  rw [totalTokens_of_seams decoded seams, fromUtf8Lossy_flatten decoded]

theorem finishes_counted (settled : Settled reader (allLines (fromUtf8Lossy chunks.flatten))) :
    ∀ entry ∈ timedLines reader 0 [] chunks, entry.1.finishes = true →
      entry.2 = weigh lineTokens (fromUtf8Lossy chunks.flatten) := by
  rw [← totalTokens_of_harmless harmless]
  obtain ⟨texts, decoded, seams⟩ := exists_texts_of_harmless harmless
  rw [fromUtf8Lossy_flatten decoded] at settled
  intro entry member finishes
  have counted := timedLines_of_finishes decoded seams rfl settled entry member finishes
  simpa using counted

theorem brokenTokens_counted (settled : Settled reader (allLines (fromUtf8Lossy chunks.flatten))) :
    (brokenTokens (timedLines reader 0 [] chunks)).getD
      (totalTokens chunks) = weigh lineTokens (fromUtf8Lossy chunks.flatten) := by
  cases broken : brokenTokens (timedLines reader 0 [] chunks) with
  | none => exact totalTokens_of_harmless harmless
  | some =>
    obtain ⟨item, member, breaking⟩ := exists_of_brokenTokens broken
    exact finishes_counted harmless settled _ member (Incoming.finishes_of_breaks breaking)

/-- A body that gets its text in harmless chunks yields the events for the
whole text. -/
theorem yields_eq_wholeEvents (settled : Settled reader (allLines (fromUtf8Lossy chunks.flatten)))
    (request : StreamRequest) (msgId : String) (permits : Permits) (ending : Ending) :
    yields (request.anthropicStreamResponse msgId reader permits chunks ending) =
      wholeEvents (request.heading msgId) reader (fromUtf8Lossy chunks.flatten) ending := by
  have text_eq : lossyText chunks = fromUtf8Lossy chunks.flatten := by
    obtain ⟨texts, decoded, _⟩ := exists_texts_of_harmless harmless
    rw [lossyText_of_decoded decoded, fromUtf8Lossy_flatten decoded]
  have lines_eq := @map_fst_timedLines reader 0 [] rfl chunks
  rw [text_eq] at lines_eq
  have items_eq := congrArg (List.map fun item =>
    (item, weigh lineTokens (fromUtf8Lossy chunks.flatten))) lines_eq
  rw [map_map, map_map] at items_eq
  rw [yields_anthropicStreamResponse, brokenTokens_counted harmless settled,
    Translator.translate_eq_of_finishes _ (finishes_counted harmless settled)]
  exact congrArg (fun items =>
    (Translator.fresh.translate (request.heading msgId) items).events ++
      (Translator.fresh.translate (request.heading msgId) items).epilogue ending _) items_eq

end

def sampleEvents (chunks : List Bytes) : List Event :=
  yields (sampleRequest.anthropicStreamResponse "id" JsonTexts.fromStr ⟨256, 256⟩ chunks .closed)

def sampleCharges (chunks : List Bytes) : List (String × ℕ) :=
  charges (sampleRequest.streamResponse ⟨256, 256⟩ chunks .closed)

def wholeResponse : List Bytes := [textChunk ++ finishChunk "stop" ++ doneChunk]

def cutResponse : List Bytes :=
  [textChunk.take 40, textChunk.drop 40 ++ finishChunk "stop", doneChunk]

def accentChunk : Bytes :=
  utf8 "data: \x7b\"choices\":[\x7b\"delta\":\x7b\"content\":\"é\"\x7d\x7d]\x7d\n"

def usageChunk : Bytes :=
  utf8 "data: \x7b\"choices\":[],\"usage\":\x7b\"completion_tokens\":2\x7d\x7d\n"

/-- Two ways to cut one response have different outcomes. -/
def CutsMatter {Outcome : Type} (outcome : List Bytes → Outcome)
    (first second : List Bytes) : Prop :=
  first.flatten = second.flatten ∧ outcome first ≠ outcome second

instance {Outcome : Type} [DecidableEq Outcome]
    (outcome : List Bytes → Outcome) (first second : List Bytes) :
    Decidable (CutsMatter outcome first second) :=
  inferInstanceAs (Decidable (_ ∧ _))

end Purser.GatewayStreams
