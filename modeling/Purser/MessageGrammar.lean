import Purser.InteractionPrograms
import Mathlib.Data.List.Count
import Mathlib.Data.List.Nodup
import Mathlib.Data.List.Perm.Basic

/-!
# The grammar of a message stream

`Opened` describes the streams of which every block is still open, and
`message_of_opened` how to close them.
-/

namespace Purser.MessageGrammar

open InteractionPrograms List

/-- What the grammar sees of an event. -/
inductive Kind
  | messageStart
  | blockStart (index : ℕ)
  | ping
  | blockDelta (index : ℕ)
  | blockStop (index : ℕ)
  | messageDelta
  | messageStop
  | error
deriving DecidableEq

structure Message (kinds : List Kind) : Prop where
  start_first : kinds.head? = some .messageStart
  start_once : kinds.count .messageStart = 1
  delta_open : ∀ before after index,
    kinds = before ++ .blockDelta index :: after →
      .blockStart index ∈ before ∧ .blockStop index ∉ before
  stopped_once : ∀ index, .blockStart index ∈ kinds → kinds.count (.blockStop index) = 1
  stopped_before : ∀ before after, kinds = before ++ .messageDelta :: after →
    ∀ index, .blockStart index ∈ kinds → .blockStop index ∈ before
  delta_once : kinds.count .messageDelta = 1
  stop_once : kinds.count .messageStop = 1
  stop_last : kinds.getLast? = some .messageStop
  no_error : .error ∉ kinds

structure Failed (kinds : List Kind) : Prop where
  error_once : kinds.count .error = 1
  error_last : kinds.getLast? = some .error

def WellFormed (kinds : List Kind) : Prop := Message kinds ∨ Failed kinds

/-- Streams whose blocks are all open, in the order in which they were
started. -/
inductive Opened : List ℕ → List Kind → Prop
  | preamble : Opened [0] [.messageStart, .blockStart 0, .ping]
  | delta {blocks : List ℕ} {kinds : List Kind} {index : ℕ}
      (opened : Opened blocks kinds) (member : index ∈ blocks) :
      Opened blocks (kinds ++ [.blockDelta index])
  | start {blocks : List ℕ} {kinds : List Kind} {index : ℕ}
      (opened : Opened blocks kinds) (fresh : index ∉ blocks) :
      Opened (blocks ++ [index]) (kinds ++ [.blockStart index])

namespace Opened

variable {blocks : List ℕ} {kinds : List Kind}

section

variable (opened : Opened blocks kinds)

include opened

theorem nodup : blocks.Nodup := by
  induction opened with
  | preamble => decide
  | delta _ _ induction => exact induction
  | start _ fresh induction =>
    exact nodup_append.mpr ⟨induction, nodup_singleton _,
      fun block member other last same => by
        rw [mem_singleton] at last
        exact fresh (last ▸ same ▸ member)⟩

theorem mem {kind : Kind} (member : kind ∈ kinds) : kind = .messageStart ∨ kind = .ping ∨
      ∃ index ∈ blocks, kind = .blockStart index ∨ kind = .blockDelta index := by
  induction opened with
  | preamble =>
    simp only [mem_cons, not_mem_nil, or_false] at member
    rcases member with rfl | rfl | rfl <;> simp
  | @delta _ _ index _ known induction =>
    rcases mem_append.mp member with earlier | last
    · exact induction earlier
    · exact .inr (.inr ⟨index, known, .inr (mem_singleton.mp last)⟩)
  | @start _ _ index _ _ induction =>
    rcases mem_append.mp member with earlier | last
    · rcases induction earlier with first | ping | ⟨other, known, shape⟩
      · exact .inl first
      · exact .inr (.inl ping)
      · exact .inr (.inr ⟨other, mem_append_left _ known, shape⟩)
    · exact .inr (.inr ⟨index, by simp, .inl (mem_singleton.mp last)⟩)

theorem blockStart_mem_iff (index : ℕ) : .blockStart index ∈ kinds ↔ index ∈ blocks := by
  induction opened with
  | preamble => simp
  | delta _ _ induction | start _ _ induction => simp [induction]

theorem head? : kinds.head? = some .messageStart := by
  induction opened with
  | preamble => rfl
  | delta _ _ induction | start _ _ induction => simp [induction]

theorem count_messageStart : kinds.count .messageStart = 1 := by
  induction opened with
  | preamble => decide
  | delta _ _ induction | start _ _ induction => simp [induction]

theorem delta_started {before after : List Kind} {index : ℕ}
    (split : kinds = before ++ .blockDelta index :: after) : .blockStart index ∈ before := by
  induction opened generalizing after with
  | preamble =>
    have member : Kind.blockDelta index ∈ [Kind.messageStart, .blockStart 0, .ping] := by
      rw [split]
      simp
    simp at member
  | @delta _ _ other opened known induction =>
    rcases eq_nil_or_concat after with rfl | ⟨after, last, rfl⟩
    · obtain ⟨rfl, same⟩ := append_inj' split rfl
      obtain rfl : other = index := by simpa using same
      exact (opened.blockStart_mem_iff other).mpr known
    · rw [concat_eq_append, ← cons_append, ← append_assoc] at split
      exact induction (append_inj' split rfl).1
  | @start _ _ _ _ _ induction =>
    obtain ⟨between, early, _⟩ := exists_of_split_left split (by simp)
    exact induction early

theorem not_mem {kind : Kind}
    (closing : kind = .messageDelta ∨ kind = .messageStop ∨ kind = .error ∨
      ∃ index, kind = .blockStop index) : kind ∉ kinds := by
  intro member
  rcases opened.mem member with rfl | rfl | ⟨index, _, rfl | rfl⟩ <;>
    simp at closing

end

end Opened

def closing (blocks : List ℕ) : List Kind := blocks.map .blockStop ++ [.messageDelta, .messageStop]

theorem count_blockStop_closing {blocks : List ℕ} (distinct : blocks.Nodup) {index : ℕ}
    (member : index ∈ blocks) : (closing blocks).count (.blockStop index) = 1 := by
  have injective : Function.Injective Kind.blockStop := fun _ _ same => by
    simpa using same
  have once := count_eq_one_of_mem distinct member
  rw [closing, count_append, count_map_of_injective _ _ injective, once]
  simp

theorem blockDelta_not_mem_closing (blocks : List ℕ) (index : ℕ) :
    Kind.blockDelta index ∉ closing blocks := by
  simp [closing]

/-- Stopping every open block and then the message completes it. -/
theorem message_of_opened {blocks stops : List ℕ} {kinds : List Kind} (opened : Opened blocks kinds)
    (all : stops.Perm blocks) : Message (kinds ++ closing stops) := by
  have unstopped : ∀ index, Kind.blockStop index ∉ kinds := fun index =>
    opened.not_mem (.inr (.inr (.inr ⟨index, rfl⟩)))
  have noDelta : Kind.messageDelta ∉ kinds := opened.not_mem (.inl rfl)
  have noStop : Kind.messageStop ∉ kinds := opened.not_mem (.inr (.inl rfl))
  have noError : Kind.error ∉ kinds := opened.not_mem (.inr (.inr (.inl rfl)))
  have started : ∀ index, Kind.blockStart index ∈ kinds ++ closing stops → index ∈ stops := by
    intro index member
    have early : Kind.blockStart index ∈ kinds := by
      simpa [closing] using member
    exact all.mem_iff.mpr ((opened.blockStart_mem_iff index).mp early)
  constructor
  case start_first =>
    rw [head?_append, opened.head?]
    rfl
  case start_once =>
    rw [count_append, opened.count_messageStart]
    simp [closing, count_eq_zero]
  case delta_open =>
    intro before after index split
    -- The delta stands before the closing events.
    obtain ⟨between, early, _⟩ :=
      exists_of_split_left split (blockDelta_not_mem_closing stops index)
    refine ⟨opened.delta_started early, fun stopped => ?_⟩
    exact unstopped index (early ▸ mem_append_left _ stopped)
  case stopped_once =>
    intro index member
    rw [count_append, count_eq_zero.mpr (unstopped index),
      count_blockStop_closing (all.nodup_iff.mpr opened.nodup) (started index member)]
  case stopped_before =>
    intro before after split index member
    have stopped : Kind.blockStop index ∈ kinds ++ stops.map .blockStop := by
      simp [started index member]
    have same : kinds ++ stops.map .blockStop ++
        .messageDelta :: [.messageStop] = before ++ .messageDelta :: after := by
      rw [← split, closing, append_assoc]
    -- Both sides have their first `messageDelta` at the same place.
    obtain ⟨between, late⟩ := exists_of_split_right same (by simp [noDelta])
    rw [late]
    exact mem_append_left _ stopped
  case delta_once =>
    rw [count_append, count_eq_zero.mpr noDelta]
    simp [closing, count_eq_zero]
  case stop_once =>
    rw [count_append, count_eq_zero.mpr noStop]
    simp [closing, count_eq_zero]
  case stop_last => simp [closing]
  case no_error => simp [closing, noError]

theorem failed_of_not_mem {kinds : List Kind} (clean : .error ∉ kinds) :
    Failed (kinds ++ [.error]) where
  error_once := by simp [count_eq_zero.mpr clean]
  error_last := by simp

end Purser.MessageGrammar
