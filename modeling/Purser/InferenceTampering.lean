import Purser.InferenceLog

/-!
# Changed and deleted rows of the inference log

The verifier does not see every column, and it does not know how long the chain
was.
-/

namespace Purser.InferenceLog

open Audit AuditLog ByteEncodings CalendarTexts HashChains LockedSections RowQueries List
open Sha256Digests

theorem writeStr_inj {first second rest others : Bytes} (firstShort : first.length < 2 ^ 32)
    (secondShort : second.length < 2 ^ 32)
    (same : writeStr first ++ rest = writeStr second ++ others) :
    first = second ∧ rest = others := by
  rw [writeStr, writeStr, append_assoc, append_assoc] at same
  obtain ⟨lengths, tails⟩ := append_inj same (by rw [length_bigEndian, length_bigEndian])
  exact append_inj tails (bigEndian_inj firstShort secondShort lengths)

/-- Every text fits the four bytes of its length. -/
structure Hashed.Short (event : Hashed) : Prop where
  requestId : event.requestId.length < 2 ^ 32
  apiKeyHash : event.apiKeyHash.length < 2 ^ 32
  modelId : event.modelId.length < 2 ^ 32
  tenantId : event.tenantId.length < 2 ^ 32
  timestamp : event.timestamp.length < 2 ^ 32
  endpoint : event.endpoint.length < 2 ^ 32
  finishReason : event.finishReason.length < 2 ^ 32

theorem hashed_eq_of_bytes {first second : Hashed} (firstShort : first.Short)
    (secondShort : second.Short) {seq : ℤ} {prevHash : Text}
    (same : canonicalInferenceEventBytes first seq prevHash =
      canonicalInferenceEventBytes second seq prevHash) : first = second := by
  simp only [canonicalInferenceEventBytes, append_assoc, append_cancel_left_eq] at same
  obtain ⟨requestId, same⟩ := writeStr_inj firstShort.requestId secondShort.requestId same
  obtain ⟨apiKeyHash, same⟩ := writeStr_inj firstShort.apiKeyHash secondShort.apiKeyHash same
  obtain ⟨modelId, same⟩ := writeStr_inj firstShort.modelId secondShort.modelId same
  obtain ⟨tenantId, same⟩ := writeStr_inj firstShort.tenantId secondShort.tenantId same
  obtain ⟨timestamp, same⟩ := writeStr_inj firstShort.timestamp secondShort.timestamp same
  obtain ⟨endpoint, same⟩ := writeStr_inj firstShort.endpoint secondShort.endpoint same
  obtain ⟨finishReason, -⟩ := writeStr_inj firstShort.finishReason secondShort.finishReason
    (congrArg (· ++ []) same)
  cases first
  simp_all

theorem length_formatSeconds_parseTime (column : Option Text) :
    (formatSeconds (parseTime column)).length ≤ 46 := by
  have zero : (formatSeconds Time.zero).length ≤ 46 := by decide +kernel
  cases column with
  | none => exact zero
  | some column =>
    rw [parseTime]
    split
    · exact zero
    · cases read : parse column with
      | none => exact zero
      | some => exact length_formatSeconds_of_parse read

variable {row : Row} {rows : List Row}

theorem Row.Storable.short (storable : row.Storable) : row.hashed.Short := by
  have short (column : Text) (member : column ∈ row.texts) : column.length < 2 ^ 32 := by
    have below := storable column member
    omega
  have time := length_formatSeconds_parseTime (some row.timestamp)
  exact ⟨short _ (by simp [Row.texts, Row.hashed]), short _ (by simp [Row.texts, Row.hashed]),
    short _ (by simp [Row.texts, Row.hashed]), short _ (by simp [Row.texts, Row.hashed]),
    time.trans_lt (by decide), short _ (by simp [Row.texts, Row.hashed]),
    short _ (by simp [Row.texts, Row.hashed])⟩

theorem Intact.map_seqValue (intact : Intact rows) : (chainRows rows).map Row.seqValue =
      (List.range (chainRows rows).length).map fun index : ℕ => (index : ℤ) + 1 := by
  apply ext_getElem (by simp)
  intro place inside _
  rw [length_map] at inside
  simp only [getElem_map, getElem_range]
  exact (intact.fits (getElem?_eq_getElem inside)).seq

theorem Intact.increasing (intact : Intact rows) :
    (chainRows rows).Pairwise fun first second => first.seqValue < second.seqValue := by
  rw [← pairwise_map (f := Row.seqValue) (R := fun first second => first < second),
    intact.map_seqValue, pairwise_map]
  exact pairwise_lt_range.imp fun below => by omega

/-- There is a row for every number up to that of a given row. -/
theorem Intact.exists_seqValue (intact : Intact rows) (member : row ∈ chainRows rows) {number : ℤ}
    (positive : 1 ≤ number) (below : number ≤ row.seqValue) :
    ∃ other ∈ chainRows rows, other.seqValue = number := by
  have rowMember := mem_map_of_mem (f := Row.seqValue) member
  rw [intact.map_seqValue, mem_map] at rowMember
  obtain ⟨place, inside, rowNumber⟩ := rowMember
  have numberMember : number ∈ (chainRows rows).map Row.seqValue := by
    rw [intact.map_seqValue, mem_map]
    rw [mem_range] at inside
    refine ⟨(number - 1).toNat, ?_, by omega⟩
    rw [mem_range]
    omega
  obtain ⟨other, otherMember, otherNumber⟩ := mem_map.mp numberMember
  exact ⟨other, otherMember, otherNumber⟩

def Gap (rows : List Row) (keep : Row → Bool) : Prop :=
  ∃ gone ∈ rows, ∃ kept ∈ rows, gone.seq.isSome = true ∧ kept.seq.isSome = true ∧
    keep gone = false ∧ keep kept = true ∧ gone.seqValue < kept.seqValue

theorem perm_chainRows (rows : List Row) :
    (chainRows rows).Perm (rows.filter fun row => row.seqColumn.isSome) :=
  perm_insertionSort _ _

theorem chainRows_filter (intact : Intact rows) (keep : Row → Bool) :
    chainRows (rows.filter keep) = (chainRows rows).filter keep := by
  refine ascending_eq_of_perm ?_ (intact.increasing.filter keep)
  rw [filter_filter]
  have kept := (perm_chainRows rows).filter keep
  rw [filter_filter] at kept
  simpa only [Bool.and_comm] using kept

/-- Rows of which none is left after one that is gone stand at the beginning. -/
theorem filter_prefix_of_pairwise {keep : Row → Bool}
    (closed : rows.Pairwise fun first second => keep second = true → keep first = true) :
    rows.filter keep <+: rows := by
  induction rows with
  | nil => exact nil_prefix
  | cons row rows induction =>
    obtain ⟨later, rest⟩ := pairwise_cons.mp closed
    by_cases kept : keep row = true
    · rw [filter_cons_of_pos kept]
      exact (prefix_cons_inj row).mpr (induction rest)
    · have none : (row :: rows).filter keep = [] := by
        rw [filter_cons_of_neg kept, filter_eq_nil_iff]
        exact fun other member otherKept => kept (later other member otherKept)
      rw [none]
      exact nil_prefix

theorem Intact.intact_filter_iff (intact : Intact rows) (keep : Row → Bool) :
    Intact (rows.filter keep) ↔ ¬ Gap rows keep := by
  constructor
  · rintro filtered ⟨gone, goneMember, kept, keptMember, goneNumbered, keptNumbered, isGone, isKept,
      before⟩
    have goneIn := mem_chainRows.mpr ⟨goneMember, goneNumbered⟩
    have keptIn : kept ∈ chainRows (rows.filter keep) :=
      mem_chainRows.mpr ⟨mem_filter.mpr ⟨keptMember, isKept⟩, keptNumbered⟩
    obtain ⟨place, found⟩ := getElem?_of_mem goneIn
    have positive := (intact.fits found).seq
    obtain ⟨other, otherIn, sameNumber⟩ :=
      filtered.exists_seqValue keptIn (show 1 ≤ gone.seqValue by omega) before.le
    rw [chainRows_filter intact, mem_filter] at otherIn
    have same : other = gone := injOn_of_increasing intact.increasing otherIn.1 goneIn sameNumber
    rw [same, isGone] at otherIn
    cases otherIn.2
  · intro whole
    have closed : (chainRows rows).Pairwise fun first second =>
        keep second = true → keep first = true := by
      refine intact.increasing.imp_of_mem fun {first second} firstIn secondIn before kept => ?_
      by_contra gone
      obtain ⟨firstMember, firstNumbered⟩ := mem_chainRows.mp firstIn
      obtain ⟨secondMember, secondNumbered⟩ := mem_chainRows.mp secondIn
      exact whole ⟨first, firstMember, second, secondMember, firstNumbered, secondNumbered,
        Bool.eq_false_of_not_eq_true gone, kept, before⟩
    obtain ⟨rest, split⟩ := filter_prefix_of_pairwise closed
    have front := intact
    rw [Intact, ← split, chained_append_iff] at front
    rw [Intact, chainRows_filter intact]
    exact front.1

def Rehashed (row changed : Row) : Prop :=
  changed.hash ≠ row.hash ∧ changed.storedHash = hexEncode (digest changed.message)

/-- What the verifier sees of a changed row: without a number it is gone, and otherwise
the number, the links and the hashed columns count. -/
def Seen (rows : List Row) (row changed : Row) : Prop :=
  if changed.seq = none then Gap rows fun other => other ≠ row
  else changed.seq ≠ row.seq ∨ changed.prevHash ≠ row.prevHash ∨ changed.hash ≠ row.hash ∨
    changed.hashed ≠ row.hashed

section Changed

variable {place : ℕ} {changed : Row}

def remaining (rows : List Row) (place : ℕ) : List Row :=
  (rows.eraseIdx place).filter fun row => row.seqColumn.isSome

theorem filter_cons_of_isSome (numbered : row.seq.isSome = true) (rows : List Row) :
    (row :: rows).filter (fun row => row.seqColumn.isSome) =
      row :: rows.filter fun row => row.seqColumn.isSome := by
  simp [Row.seqColumn, numbered]

theorem perm_chainRows_of_found (found : rows[place]? = some row)
    (numbered : row.seq.isSome = true) : (chainRows rows).Perm (row :: remaining rows place) := by
  have parts := (perm_cons_eraseIdx found row).1.filter fun row => row.seqColumn.isSome
  rw [filter_cons_of_isSome numbered] at parts
  exact (perm_chainRows rows).trans parts

theorem perm_chainRows_set (found : rows[place]? = some row)
    (numbered : changed.seq.isSome = true) :
    (chainRows (rows.set place changed)).Perm (changed :: remaining rows place) := by
  have parts := (perm_cons_eraseIdx found changed).2.filter fun row => row.seqColumn.isSome
  rw [filter_cons_of_isSome numbered] at parts
  exact (perm_chainRows _).trans parts

theorem perm_chainRows_set_of_none (found : rows[place]? = some row)
    (unnumbered : changed.seq = none) :
    (chainRows (rows.set place changed)).Perm (remaining rows place) := by
  have parts := (perm_cons_eraseIdx found changed).2.filter fun row => row.seqColumn.isSome
  have dropped : (changed :: rows.eraseIdx place).filter (fun row => row.seqColumn.isSome) =
      remaining rows place := by simp [remaining, Row.seqColumn, unnumbered]
  rw [dropped] at parts
  exact (perm_chainRows _).trans parts

theorem chainRows_eq_of_perm {sorted : List Row} (perm : (chainRows rows).Perm sorted)
    (increasing : sorted.Pairwise fun first second => first.seqValue < second.seqValue) :
    chainRows rows = sorted :=
  ascending_eq_of_perm (perm.symm.trans (perm_chainRows rows)) increasing

theorem Intact.nodup (intact : Intact rows) : (chainRows rows).Nodup :=
  intact.increasing.imp fun below same => below.ne (congrArg Row.seqValue same)

section

variable (intact : Intact rows) (found : rows[place]? = some row) (numbered : row.seq.isSome = true)

include intact found numbered

theorem chainRows_set_of_none (unnumbered : changed.seq = none) :
    chainRows (rows.set place changed) = chainRows (rows.filter fun other => other ≠ row) := by
  have old := perm_chainRows_of_found found numbered
  rw [chainRows_filter intact]
  refine chainRows_eq_of_perm ?_ (intact.increasing.filter _)
  refine (perm_chainRows_set_of_none found unnumbered).trans ?_
  -- The row itself does not stay: its number is taken once.
  have absent := (nodup_cons.mp (old.nodup_iff.mp intact.nodup)).1
  have stays : (remaining rows place).filter (fun other => other ≠ row) = remaining rows place :=
    filter_eq_self.mpr fun other member => decide_eq_true fun same => absent (same ▸ member)
  have left := old.filter fun other => other ≠ row
  rw [filter_cons_of_neg (by simp), stays] at left
  exact left.symm

/-- The numbers of a chain add up, so that a changed row has to keep its own. -/
theorem seqValue_eq_of_intact_set (renumbered : changed.seq.isSome = true)
    (intactSet : Intact (rows.set place changed)) : changed.seqValue = row.seqValue := by
  have old := perm_chainRows_of_found found numbered
  have new := perm_chainRows_set found renumbered
  have sameLength : (chainRows (rows.set place changed)).length = (chainRows rows).length := by
    rw [new.length_eq, old.length_eq, length_cons, length_cons]
  have sums : ((chainRows (rows.set place changed)).map Row.seqValue).sum =
      ((chainRows rows).map Row.seqValue).sum := by
    rw [intactSet.map_seqValue, intact.map_seqValue, sameLength]
  rw [(new.map Row.seqValue).sum_eq, (old.map Row.seqValue).sum_eq] at sums
  exact add_right_cancel sums

theorem chainRows_set_of_seq {index : ℕ} (foundIndex : (chainRows rows)[index]? = some row)
    (sameSeq : changed.seq = row.seq) :
    chainRows (rows.set place changed) = (chainRows rows).set index changed := by
  have old := perm_chainRows_of_found found numbered
  have new := perm_chainRows_set found (sameSeq ▸ numbered : changed.seq.isSome = true)
  obtain ⟨split, splitSet⟩ := perm_cons_eraseIdx foundIndex changed
  have rest := (split.symm.trans old).cons_inv
  have sameValue : changed.seqValue = row.seqValue := by
    rw [Row.seqValue, Row.seqValue, Row.seqColumn, Row.seqColumn, sameSeq]
  refine chainRows_eq_of_perm ?_ (increasing_set intact.increasing foundIndex sameValue)
  exact new.trans (splitSet.trans (rest.cons changed)).symm

end

end Changed

theorem ne_nil_of_chainHash {event : Hashed} {seq : ℤ} {prevHash : Text} :
    chainHash event seq prevHash ≠ [] := by
  intro empty
  have counted := congrArg List.length empty
  cases counted

theorem Intact.tip_ne_nil (intact : Intact rows) (place : ℕ) :
    tip Row.storedHash inferenceGenesisPrevHash ((chainRows rows).take place) ≠ [] := by
  cases last : ((chainRows rows).take place).getLast? with
  | none =>
    rw [getLast?_eq_none_iff.mp last]
    decide
  | some row =>
    obtain ⟨before, split⟩ := getLast?_eq_some_iff.mp last
    have member : row ∈ chainRows rows := mem_of_mem_take (by rw [split]; simp)
    obtain ⟨index, found⟩ := getElem?_of_mem member
    rw [split, tip_concat, ← (intact.fits found).hash]
    exact ne_nil_of_chainHash

/-- Of the changes of a row exactly those break the chain that the verifier sees. -/
theorem Intact.intact_set_iff (intact : Intact rows) {place : ℕ} {changed : Row}
    (found : rows[place]? = some row) (numbered : row.seq.isSome = true)
    (kept : ¬ Rehashed row changed) (rowShort : row.hashed.Short)
    (changedShort : changed.hashed.Short) (free : CollisionFree [changed.message, row.message]) :
    Intact (rows.set place changed) ↔ ¬ Seen rows row changed := by
  by_cases unnumbered : changed.seq = none
  · rw [Intact, chainRows_set_of_none intact found numbered unnumbered, Seen, if_pos unnumbered]
    exact intact.intact_filter_iff _
  have renumbered : changed.seq.isSome = true := Option.isSome_iff_ne_none.mpr unnumbered
  rw [Seen, if_neg unnumbered]
  obtain ⟨index, foundIndex⟩ :=
    getElem?_of_mem (mem_chainRows.mpr ⟨mem_of_getElem? found, numbered⟩)
  have inside : index < (chainRows rows).length := (List.getElem?_eq_some_iff.mp foundIndex).1
  have fits := intact.fits foundIndex
  constructor
  · intro intactSet
    have sameValue := seqValue_eq_of_intact_set intact found numbered renumbered intactSet
    have sameSeq : changed.seq = row.seq := by
      obtain ⟨new, newSeq⟩ := Option.isSome_iff_exists.mp renumbered
      obtain ⟨old, oldSeq⟩ := Option.isSome_iff_exists.mp numbered
      rw [Row.seqValue, Row.seqValue, Row.seqColumn, Row.seqColumn, newSeq, oldSeq] at sameValue
      rw [newSeq, oldSeq, Int64.toInt_inj.mp sameValue]
    have chain := chainRows_set_of_seq intact found numbered foundIndex sameSeq
    have foundChanged : (chainRows (rows.set place changed))[index]? = some changed := by
      rw [chain]
      exact getElem?_set_self inside
    have changedFits := intactSet.fits foundChanged
    rw [chain, take_set_of_le (le_refl index)] at changedFits
    have samePrev : changed.storedPrevHash = row.storedPrevHash :=
      changedFits.prevHash.trans fits.prevHash.symm
    have filledPrev : row.prevHash.getD [] ≠ [] := by
      rw [show row.prevHash.getD [] = _ from fits.prevHash]
      exact intact.tip_ne_nil index
    have sameHash : changed.hash = row.hash := by
      by_contra differs
      exact kept ⟨differs, changedFits.hash.symm⟩
    have sameMessage : changed.message = row.message := by
      refine free _ (by simp) _ (by simp) (hexEncode_injective ?_)
      exact changedFits.hash.trans ((congrArg (Option.getD · []) sameHash).trans fits.hash.symm)
    rw [Row.message, sameValue, samePrev] at sameMessage
    have sameHashed := hashed_eq_of_bytes changedShort rowShort sameMessage
    rintro (differs | differs | differs | differs)
    · exact differs sameSeq
    · exact differs (eq_of_getD_eq filledPrev samePrev)
    · exact differs sameHash
    · exact differs sameHashed
  · intro unseen
    obtain ⟨sameSeq, samePrev, sameHash, sameHashed⟩ :
        changed.seq = row.seq ∧ changed.prevHash = row.prevHash ∧ changed.hash = row.hash ∧
          changed.hashed = row.hashed := by
      simpa only [not_or, not_not] using unseen
    have storedHash : changed.storedHash = row.storedHash := by
      rw [Row.storedHash, Row.storedHash, sameHash]
    have storedPrevHash : changed.storedPrevHash = row.storedPrevHash := by
      rw [Row.storedPrevHash, Row.storedPrevHash, samePrev]
    have seqValue : changed.seqValue = row.seqValue := by
      rw [Row.seqValue, Row.seqValue, Row.seqColumn, Row.seqColumn, sameSeq]
    rw [Intact, chainRows_set_of_seq intact found numbered foundIndex sameSeq,
      Chained.set_iff intact foundIndex storedHash, Nat.zero_add]
    refine ⟨seqValue.trans fits.seq, storedPrevHash.trans fits.prevHash, ?_⟩
    rw [sameHashed, seqValue, storedPrevHash, storedHash]
    exact fits.hash

theorem not_verified_iff {noticed : Prop} (unnoticed : Intact rows ↔ ¬ noticed) :
    (verifyInferenceChain rows).verified = false ↔ noticed := by
  rw [← Bool.not_eq_true, verified_iff_intact, unnoticed, not_not]

/-- In a log that verifies, a changed row whose hash was not computed again is noticed
exactly when the verifier sees the change, and deleted rows exactly when a later row is
left. -/
theorem tampering_noticed_iff {table : Table}
    (verified : (verifyInferenceChain table.rows).verified = true) :
    (∀ (place : ℕ) (row changed : Row), table.rows[place]? = some row → row.seq.isSome = true →
      changed.Storable → ¬ Rehashed row changed → CollisionFree [changed.message, row.message] →
      ((verifyInferenceChain (table.rows.set place changed)).verified = false ↔
        Seen table.rows row changed)) ∧
      ∀ keep : Row → Bool,
        (verifyInferenceChain (table.rows.filter keep)).verified = false ↔ Gap table.rows keep := by
  have intact := verified_iff_intact.mp verified
  refine ⟨?_, fun keep => not_verified_iff (intact.intact_filter_iff keep)⟩
  intro place row changed found numbered storable kept free
  have rowStorable := table.storable row (mem_of_getElem? found)
  exact not_verified_iff
    (intact.intact_set_iff found numbered kept rowStorable.short storable.short free)

def completionTable : Table := ((completionCall 0).stored storable_completionCall.1).shared

theorem intact_completionTable : Intact completionTable.rows := by
  have intact : recordOutline.Invariant Table.empty := trivial
  exact (recordOutline.holds_of_runs intact (runs_stored _ storable_completionCall.1)
    faithful_completionCall).shared

theorem collisionFree_of_eq {first second : Bytes} (same : first = second) :
    CollisionFree [first, second] := by
  subst same
  intro message member other otherMember _
  simp only [mem_cons, not_mem_nil, or_false, or_self] at member otherMember
  rw [member, otherMember]

def completionRow : Row := (completionCall 0).first

theorem found_completionRow : completionTable.rows[0]? = some completionRow := rfl

def unhashedRow : Row := { completionRow with hash := none }

theorem tampering_noticed_unhashed : completionTable.rows[0]? = some completionRow ∧
      (verifyInferenceChain (completionTable.rows.set 0 unhashedRow)).verified = false := by
  have verified := verified_iff_intact.mpr intact_completionTable
  have storable : unhashedRow.Storable := by
    have whole : completionRow.Storable := storable_completionCall.1
    rw [Row.storable_iff] at whole ⊢
    simp only [unhashedRow, Option.getD_none, length_nil]
    omega
  have kept : ¬ Rehashed completionRow unhashedRow := by
    rintro ⟨-, rehashed⟩
    exact ne_nil_of_chainHash rehashed.symm
  have seen : Seen completionTable.rows completionRow unhashedRow := by
    exact .inr (.inr (.inl (by rintro ⟨⟩)))
  exact ⟨found_completionRow, ((tampering_noticed_iff verified).1 0 completionRow unhashedRow
    found_completionRow rfl storable kept (collisionFree_of_eq rfl)).mpr seen⟩

def cheaperRow : Row := { completionRow with promptTokens := 0 }

/-- Used tokens can be taken from the log, and so can its last row. -/
theorem tokens_unnoticed : (verifyInferenceChain completionTable.rows).verified = true ∧
      completionTable.rows[0]? = some completionRow ∧ completionRow.promptTokens = 5 ∧
      (verifyInferenceChain (completionTable.rows.set 0 cheaperRow)).verified = true ∧
      (verifyInferenceChain (completionTable.rows.filter fun _ => false)).verified = true := by
  have intact := intact_completionTable
  have storable : completionRow.Storable := storable_completionCall.1
  have kept : ¬ Rehashed completionRow cheaperRow := by
    rintro ⟨differs, -⟩
    exact differs rfl
  have unseen : ¬ Seen completionTable.rows completionRow cheaperRow := by
    rintro (differs | differs | differs | differs) <;> exact differs rfl
  have changed : Intact (completionTable.rows.set 0 cheaperRow) :=
    (intact.intact_set_iff found_completionRow rfl kept storable.short storable.short
      (collisionFree_of_eq rfl)).mpr unseen
  exact ⟨verified_iff_intact.mpr intact, found_completionRow, rfl,
    verified_iff_intact.mpr changed, rfl⟩

end Purser.InferenceLog
