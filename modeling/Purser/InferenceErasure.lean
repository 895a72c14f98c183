import Purser.InferenceTampering

/-!
# Erasing a subject from the inference log

The rows of a subject are kept and their identifying columns overwritten, two of
which are hashed.
-/

namespace Purser.InferenceLog

open Audit AuditLog ByteEncodings CalendarTexts HashChains RowQueries Sha256Digests List

def erasedHash (now : Time) : Text :=
  let date := civil now.seconds
  text "ERASED-" ++ yearText date.year ++ padded 2 date.month ++ padded 2 date.day

def erase (now : Time) (subject : Text) (row : Row) : Row :=
  if row.apiKeyHash = subject then
    { row with
      apiKeyHash := erasedHash now
      clientIpPrefix := text "0.0.0.0/0"
      tenantId := if row.tenantId ≠ [] then text "ERASED" else [] }
  else row

inductive EraseInferenceEventsBySubject (now : Time) (subject : Text) (table : Table) :
    Except String ℕ → Table → Prop
  | fails (problem : String) :
      EraseInferenceEventsBySubject now subject table
        (.error ("registry: erase_inference_events: " ++ problem)) table
  | erases (later : Table) (updated : later.rows = table.rows.map (erase now subject)) :
      EraseInferenceEventsBySubject now subject table
        (.ok (table.rows.filter fun row => row.apiKeyHash = subject).length) later

/-- What an erasure should leave: a chain of the same length, no trace of the subject, and
the rows of the others. -/
structure Forgotten (subject : Text) (table later : Table) : Prop where
  verified : (verifyInferenceChain later.rows).verified = true
  sameLength : (verifyInferenceChain later.rows).length = (verifyInferenceChain table.rows).length
  absent : ∀ row ∈ later.rows, row.apiKeyHash ≠ subject
  others : ∀ (place : ℕ) (row : Row), table.rows[place]? = some row → row.apiKeyHash ≠ subject →
    later.rows[place]? = some row

variable {now : Time} {subject : Text}

section Erase

variable {row : Row}

theorem erase_of_eq (same : row.apiKeyHash = subject) :
    (erase now subject row).apiKeyHash = erasedHash now := by
  rw [erase, if_pos same]

theorem erase_of_ne (differs : row.apiKeyHash ≠ subject) : erase now subject row = row :=
  if_neg differs

theorem erase_chain (now : Time) (subject : Text) (row : Row) :
    (erase now subject row).seq = row.seq ∧ (erase now subject row).prevHash = row.prevHash ∧
      (erase now subject row).hash = row.hash := by
  rw [erase]
  split <;> exact ⟨rfl, rfl, rfl⟩

theorem id_erase (now : Time) (subject : Text) (row : Row) :
    (erase now subject row).id = row.id := by
  rw [erase]
  split <;> rfl

theorem seqValue_erase (now : Time) (subject : Text) (row : Row) :
    (erase now subject row).seqValue = row.seqValue := by
  rw [Row.seqValue, Row.seqValue, Row.seqColumn, Row.seqColumn, (erase_chain now subject row).1]

end Erase

variable {rows : List Row}

theorem chainRows_map_erase (intact : Intact rows) (now : Time) (subject : Text) :
    chainRows (rows.map (erase now subject)) = (chainRows rows).map (erase now subject) := by
  refine chainRows_eq_of_perm ?_ ?_
  · refine (perm_chainRows _).trans (List.Perm.trans ?_ ((perm_chainRows rows).map _).symm)
    rw [filter_map]
    simp only [Function.comp_def, Row.seqColumn, (erase_chain now subject _).1]
    exact List.Perm.refl _
  · rw [pairwise_map]
    simpa only [seqValue_erase] using intact.increasing

/-- A chained row that is erased breaks the chain. -/
theorem Intact.not_intact_erase (intact : Intact rows) {row : Row} (member : row ∈ rows)
    (numbered : row.seq.isSome = true) (carries : row.apiKeyHash = subject)
    (unmarked : subject ≠ erasedHash now) (short : row.hashed.Short)
    (erasedShort : (erase now subject row).hashed.Short)
    (free : CollisionFree [(erase now subject row).message, row.message]) :
    ¬ Intact (rows.map (erase now subject)) := by
  intro erased
  obtain ⟨index, found⟩ := getElem?_of_mem (mem_chainRows.mpr ⟨member, numbered⟩)
  have foundErased : (chainRows (rows.map (erase now subject)))[index]? =
      some (erase now subject row) := by
    rw [chainRows_map_erase intact, getElem?_map, found, Option.map_some]
  have fits := intact.fits found
  have erasedFits := erased.fits foundErased
  obtain ⟨-, samePrev, sameHash⟩ := erase_chain now subject row
  have sameMessage : (erase now subject row).message = row.message := by
    refine free _ (by simp) _ (by simp) (hexEncode_injective ?_)
    exact erasedFits.hash.trans ((congrArg (Option.getD · []) sameHash).trans fits.hash.symm)
  rw [Row.message, seqValue_erase, Row.storedPrevHash, samePrev] at sameMessage
  have sameKey : (erase now subject row).apiKeyHash = row.apiKeyHash :=
    congrArg Hashed.apiKeyHash (hashed_eq_of_bytes erasedShort short sameMessage)
  rw [erase_of_eq carries, carries] at sameKey
  exact unmarked sameKey.symm

theorem chainRows_erase_of_unchained (intact : Intact rows)
    (unchained : ∀ row ∈ rows, row.apiKeyHash = subject → row.seq = none) :
    chainRows (rows.map (erase now subject)) = chainRows rows := by
  rw [chainRows_map_erase intact]
  refine (map_congr_left fun row member => ?_).trans (map_id _)
  obtain ⟨stored, numbered⟩ := mem_chainRows.mp member
  refine erase_of_ne fun carries => ?_
  rw [unchained row stored carries] at numbered
  cases numbered

/-- An erasure leaves what it should exactly when no chained row carries the subject, and
no row at all where the subject is the mark of the day. -/
theorem erasure_forgets_iff {now : Time} {subject : Text} {table later : Table} {count : ℕ}
    (verified : (verifyInferenceChain table.rows).verified = true)
    (erases : EraseInferenceEventsBySubject now subject table (.ok count) later)
    (free : ∀ row ∈ table.rows, row.seq.isSome = true → row.apiKeyHash = subject →
      CollisionFree [(erase now subject row).message, row.message]) :
    Forgotten subject table later ↔
      ∀ row ∈ table.rows, row.apiKeyHash = subject → row.seq = none ∧ subject ≠ erasedHash now := by
  have intact := verified_iff_intact.mp verified
  cases erases with
  | erases _ updated =>
    constructor
    · intro forgotten row member carries
      have erasedMember : erase now subject row ∈ later.rows := by
        rw [updated]
        exact mem_map_of_mem member
      have unmarked : subject ≠ erasedHash now := by
        intro marked
        have absent := forgotten.absent _ erasedMember
        rw [erase_of_eq carries] at absent
        exact absent marked.symm
      refine ⟨?_, unmarked⟩
      by_contra unnumbered
      have numbered : row.seq.isSome = true := Option.isSome_iff_ne_none.mpr unnumbered
      refine intact.not_intact_erase member numbered carries unmarked
        (table.storable row member).short (later.storable _ erasedMember).short
        (free row member numbered carries) ?_
      rw [← updated]
      exact verified_iff_intact.mp forgotten.verified
    · intro condition
      have sameChain : chainRows later.rows = chainRows table.rows := by
        rw [updated]
        exact chainRows_erase_of_unchained intact fun row member carries =>
          (condition row member carries).1
      have sameVerdict : verifyInferenceChain later.rows = verifyInferenceChain table.rows := by
        rw [verifyInferenceChain, sameChain]
        rfl
      refine ⟨sameVerdict ▸ verified, by rw [sameVerdict], ?_, ?_⟩
      · intro erased member
        rw [updated, mem_map] at member
        obtain ⟨row, stored, rfl⟩ := member
        by_cases carries : row.apiKeyHash = subject
        · rw [erase_of_eq carries]
          exact (condition row stored carries).2.symm
        · rwa [erase_of_ne carries]
      · intro place row found differs
        rw [updated, getElem?_map, found, Option.map_some, erase_of_ne differs]

theorem Row.Storable.erase {row : Row} (storable : row.Storable)
    (short : (erasedHash now).length < 2 ^ 31) : (erase now subject row).Storable := by
  rw [InferenceLog.erase]
  split
  next =>
    have prefixShort : (text "0.0.0.0/0").length < 2 ^ 31 := by decide
    have tenantShort : (if row.tenantId ≠ [] then text "ERASED" else []).length < 2 ^ 31 := by
      split <;> decide
    rw [Row.storable_iff] at storable ⊢
    dsimp only
    omega
  next => exact storable

def Table.erased (table : Table) (now : Time) (subject : Text)
    (short : (erasedHash now).length < 2 ^ 31) : Table where
  rows := table.rows.map (erase now subject)
  increasing := by
    rw [pairwise_map]
    simpa only [id_erase] using table.increasing
  bounded := by
    intro erased member
    obtain ⟨row, stored, rfl⟩ := mem_map.mp member
    rw [id_erase]
    exact table.bounded row stored
  storable := by
    intro erased member
    obtain ⟨row, stored, rfl⟩ := mem_map.mp member
    exact (table.storable row stored).erase short

/-- Noon of 17 November 2024. -/
def nextDay : Time := ⟨1731844800, 0, Time.zero.subsecond, 0⟩

theorem short_nextDay : (erasedHash nextDay).length < 2 ^ 31 := by decide +kernel

theorem erases_erased (table : Table) (subject : Text) :
    EraseInferenceEventsBySubject nextDay subject table
      (.ok (table.rows.filter fun row => row.apiKeyHash = subject).length)
      (table.erased nextDay subject short_nextDay) :=
  .erases _ rfl

def legacyRow : Row :=
  { completionRow with
    id := 2
    requestId := text "req-0"
    apiKeyHash := text "k2"
    seq := none
    prevHash := none
    hash := none }

theorem legacyRows_increasing :
    [completionRow, legacyRow].Pairwise fun first second => first.id < second.id := by
  rw [pairwise_pair]
  decide

theorem legacyRows_bounded : ∀ row ∈ [completionRow, legacyRow], 1 ≤ row.id ∧ row.id < 2 ^ 63 := by
  simp [completionRow, legacyRow, Call.first, Placed.row]

theorem legacyRows_storable : ∀ row ∈ [completionRow, legacyRow], row.Storable := by
  have storable : completionRow.Storable := storable_completionCall.1
  have legacy : legacyRow.Storable := by
    have requestShort : (text "req-0").length < 2 ^ 31 := by decide
    have keyShort : (text "k2").length < 2 ^ 31 := by decide
    rw [Row.storable_iff] at storable ⊢
    simp only [legacyRow, Option.getD_none, length_nil]
    omega
  simpa using ⟨storable, legacy⟩

def legacyTable : Table where
  rows := [completionRow, legacyRow]
  increasing := legacyRows_increasing
  bounded := legacyRows_bounded
  storable := legacyRows_storable

theorem erasure_forgets_legacy :
    Forgotten (text "k2") legacyTable (legacyTable.erased nextDay (text "k2") short_nextDay) := by
  have verified : (verifyInferenceChain legacyTable.rows).verified = true :=
    verified_iff_intact.mpr intact_completionTable
  refine (erasure_forgets_iff verified (erases_erased legacyTable (text "k2")) ?_).mpr ?_
  · intro row member numbered carries
    have either : row = completionRow ∨ row = legacyRow := by simpa [legacyTable] using member
    rcases either with rfl | rfl
    · exact absurd carries (by decide)
    · cases numbered
  · intro row member carries
    have either : row = completionRow ∨ row = legacyRow := by simpa [legacyTable] using member
    rcases either with rfl | rfl
    · exact absurd carries (by decide)
    · exact ⟨rfl, by decide +kernel⟩

/-- The chain of one completion does not survive that its key is erased. -/
theorem erased_completion_breaks : verifyInferenceChain completionTable.rows = ⟨1, true, -1⟩ ∧
      EraseInferenceEventsBySubject nextDay (text "k1") completionTable (.ok 1)
        (completionTable.erased nextDay (text "k1") short_nextDay) ∧
      verifyInferenceChain (completionTable.erased nextDay (text "k1") short_nextDay).rows =
        ⟨0, false, 1⟩ :=
  ⟨intact_completionTable.verdict, erases_erased completionTable (text "k1"), by decide +kernel⟩

end Purser.InferenceLog
