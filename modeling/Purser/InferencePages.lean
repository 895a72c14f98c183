import Purser.InferenceTampering

/-!
# The pages of the inference audit log

A page asks for one row more than it returns.  The identifier of its last row is
the token of the next page.
-/

namespace Purser.InferenceLog

open Audit AuditLog ByteEncodings CalendarTexts List

/-- The reader of 64-bit decimal numbers, with the reason of a refusal. -/
def parseInt (value : Text) : Except String ℤ :=
  let negative : Bool := value.head? = some (sign '-')
  let digits := if value.head? = some (sign '+') ∨ negative then value.tail else value
  -- Digits that are too many are found before a byte that is no digit.
  let number := digitsValue (digits.takeWhile isDigit)
  if digits = [] ∨ number < 2 ^ 64 ∧ digits.all isDigit = false then
    .error ("strconv.ParseInt: parsing " ++ RuneReading.quotedBytes value ++ ": invalid syntax")
  else if (if negative then 2 ^ 63 < number else 2 ^ 63 ≤ number) then
    .error ("strconv.ParseInt: parsing " ++ RuneReading.quotedBytes value ++ ": value out of range")
  else .ok (if negative then -number else number)

structure ListInferenceEventsRequest where
  apiKeyHash : Text
  modelId : Text
  tenantId : Text
  after : Time
  before : Time
  limit : Int32
  pageToken : Text

structure ListedEvent where
  id : ℕ
  event : InferenceEvent

structure ListInferenceEventsResponse where
  events : List ListedEvent
  nextPageToken : Text

def scanInferenceEvent (row : Row) : ListedEvent where
  id := row.id
  event :=
    { requestId := row.requestId
      apiKeyHash := row.apiKeyHash
      modelId := row.modelId
      tenantId := row.tenantId
      timestamp := parseTime (some row.timestamp)
      promptTokens := row.promptTokens
      completionTokens := row.completionTokens
      endpoint := row.endpoint
      clientIpPrefix := row.clientIpPrefix
      latencyMs := row.latencyMs
      finishReason := row.finishReason
      modelRevision := row.modelRevision
      modelQuantization := row.modelQuantization
      nodeId := row.nodeId
      inferenceEngine := row.inferenceEngine }

namespace ListInferenceEventsRequest

def pageLimit (request : ListInferenceEventsRequest) : ℕ :=
  if request.limit.toInt ≤ 0 then 100 else min request.limit.toInt.toNat 1000

/-- The clauses of the query other than the cursor's. -/
def Selects (request : ListInferenceEventsRequest) (row : Row) : Prop :=
  (request.apiKeyHash = [] ∨ row.apiKeyHash = request.apiKeyHash) ∧
    (request.modelId = [] ∨ row.modelId = request.modelId) ∧
    (request.tenantId = [] ∨ row.tenantId = request.tenantId) ∧
    (request.after.isZero ∨ fmtTime request.after < row.timestamp) ∧
    (request.before.isZero ∨ row.timestamp < fmtTime request.before)

instance (request : ListInferenceEventsRequest) : DecidablePred request.Selects := fun _ =>
  inferInstanceAs (Decidable (_ ∧ _ ∧ _ ∧ _ ∧ _))

/-- The page that the rows of a query without a limit begin with. -/
def page (request : ListInferenceEventsRequest) (rows : List Row) : ListInferenceEventsResponse :=
  let events := (rows.take (request.pageLimit + 1)).map scanInferenceEvent
  if request.pageLimit < events.length then
    ⟨events.take request.pageLimit, padded 1 (events[request.pageLimit - 1]?.elim 0 ListedEvent.id)⟩
  else ⟨events, []⟩

end ListInferenceEventsRequest

open ListInferenceEventsRequest

def listInferenceEvents (table : Table) (request : ListInferenceEventsRequest) :
    Except String ListInferenceEventsResponse := do
  let cursor ← if request.pageToken = [] then .ok none else
    ((parseInt request.pageToken).map some).mapError fun problem =>
      "registry: list inference events: invalid page_token " ++
        RuneReading.quotedBytes request.pageToken ++ ": " ++ problem
  return request.page (table.rows.filter fun row =>
    (cursor.all fun last : ℤ => last < row.id) ∧ request.Selects row)

/-- A walk from a token, with what the log was at each page. -/
inductive Walk (request : ListInferenceEventsRequest) :
    Text → List Table → List (List ListedEvent) → Prop
  | last {token : Text} {table : Table} {page : List ListedEvent}
      (listed : listInferenceEvents table { request with pageToken := token } = .ok ⟨page, []⟩) :
      Walk request token [table] [page]
  | next {token following : Text} {table : Table} {page : List ListedEvent} {tables : List Table}
      {pages : List (List ListedEvent)}
      (listed : listInferenceEvents table { request with pageToken := token } =
        .ok ⟨page, following⟩)
      (more : following ≠ []) (rest : Walk request following tables pages) :
      Walk request token (table :: tables) (page :: pages)

theorem parseInt_padded {number : ℕ} (small : number < 2 ^ 63) :
    parseInt (padded 1 number) = .ok number ∧ padded 1 number ≠ [] := by
  have digits : ∀ byte ∈ padded 1 number, isDigit byte = true := isDigit_of_mem_decimals
  have filled : padded 1 number ≠ [] := by
    apply ne_nil_of_length_pos
    rw [padded, length_decimals]
    exact lt_max_of_lt_left one_pos
  have value : digitsValue (padded 1 number) = number :=
    digitsValue_decimals ((Nat.lt_base_pow_length_digits (by decide)).trans_le
      (Nat.pow_le_pow_right (by decide) (le_max_right _ _)))
  have unsigned (c : Char) (other : isDigit (sign c) = false) :
      (padded 1 number).head? ≠ some (sign c) := by
    intro first
    rw [digits _ (mem_of_mem_head? first)] at other
    cases other
  have plus := unsigned '+' (by decide)
  have minus := unsigned '-' (by decide)
  refine ⟨?_, filled⟩
  simp only [parseInt, plus, minus, decide_false, Bool.false_eq_true, or_self, if_false, filled,
    takeWhile_eq_self_iff.mpr digits, all_eq_true.mpr digits, Bool.true_eq_false, and_false, value,
    not_le.mpr small]

/-- The rows that the pages after a row show. -/
def rowsAfter (request : ListInferenceEventsRequest) (table : Table) (cursor : ℕ) : List Row :=
  table.rows.filter fun row => cursor < row.id ∧ request.Selects row

def Points (token : Text) (cursor : ℕ) : Prop :=
  token = [] ∧ cursor = 0 ∨ token = padded 1 cursor ∧ cursor < 2 ^ 63

variable (request : ListInferenceEventsRequest) (table : Table)

theorem listInferenceEvents_eq {token : Text} {cursor : ℕ} (points : Points token cursor) :
    listInferenceEvents table { request with pageToken := token } =
      .ok (request.page (rowsAfter request table cursor)) := by
  have same (last : Option ℤ) (follows : ∀ row ∈ table.rows,
      (last.all fun value : ℤ => value < row.id) = true ↔ cursor < row.id) :
      (table.rows.filter fun row => (last.all fun value => value < row.id) ∧ request.Selects row) =
        rowsAfter request table cursor :=
    filter_congr fun row member => by simp only [follows row member]
  rcases points with ⟨rfl, rfl⟩ | ⟨rfl, small⟩
  · have rows := same none fun row member => by
      simpa using Nat.succ_le_iff.mp (table.bounded row member).1
    exact congrArg (Except.ok ∘ request.page) rows
  · obtain ⟨parsed, filled⟩ := parseInt_padded small
    have rows := same (some cursor) fun row member => by simp
    simp only [listInferenceEvents, if_neg filled, parsed]
    exact congrArg (Except.ok ∘ request.page) rows

theorem page_cases (rows : List Row) :
    request.page rows = ⟨rows.map scanInferenceEvent, []⟩ ∨
      ∃ front last rest, rows = front ++ last :: rest ∧ front.length + 1 = request.pageLimit ∧
        request.page rows = ⟨(front ++ [last]).map scanInferenceEvent, padded 1 last.id⟩ := by
  have positive : 0 < request.pageLimit := by
    rw [pageLimit]
    split <;> omega
  by_cases more : request.pageLimit < rows.length
  · obtain ⟨front, last, rest, rfl, size⟩ : ∃ front last rest,
        rows = front ++ last :: rest ∧ front.length + 1 = request.pageLimit := by
      have inside : request.pageLimit - 1 < rows.length := by omega
      refine ⟨rows.take (request.pageLimit - 1), rows[request.pageLimit - 1],
        rows.drop (request.pageLimit - 1 + 1), ?_, by simp; omega⟩
      rw [getElem_cons_drop, take_append_drop]
    refine .inr ⟨front, last, rest, rfl, size, ?_⟩
    rw [page, if_pos (by simp at more ⊢; omega), ← size, ← map_take, take_take,
      min_eq_left (Nat.le_succ _), take_length_add_append, add_assoc,
      take_length_add_append]
    simp [scanInferenceEvent]
  · left
    rw [page, take_of_length_le (by omega), if_neg (by simpa using more)]

theorem increasing_rowsAfter (cursor : ℕ) :
    (rowsAfter request table cursor).Pairwise fun first second => first.id < second.id :=
  table.increasing.sublist filter_sublist

variable {request table} {token : Text} {cursor : ℕ}

theorem mem_rowsAfter {row : Row} : row ∈ rowsAfter request table cursor ↔
    row ∈ table.rows ∧ cursor < row.id ∧ request.Selects row := by
  simp [rowsAfter]

/-- The pages after the last row of a page show the rows that it left. -/
theorem rowsAfter_of_split {front rest : List Row} {last : Row}
    (split : rowsAfter request table cursor = front ++ last :: rest) :
    rowsAfter request table last.id = rest ∧ last.id < 2 ^ 63 ∧
      ∀ row ∈ front ++ [last], row.id ≤ last.id := by
  have increasing := increasing_rowsAfter request table cursor
  have member : last ∈ rowsAfter request table cursor := by simp [split]
  obtain ⟨held, later, -⟩ := mem_rowsAfter.mp member
  rw [split, pairwise_append, pairwise_cons] at increasing
  obtain ⟨-, ⟨above, -⟩, below⟩ := increasing
  have narrowed : rowsAfter request table last.id =
      (rowsAfter request table cursor).filter fun row => last.id < row.id := by
    rw [rowsAfter, rowsAfter, filter_filter]
    refine filter_congr fun row _ => ?_
    by_cases after : last.id < row.id
    · simp [after, later.trans after]
    · simp [after]
  rw [narrowed, split, filter_append, filter_cons_of_neg (by simp),
    filter_eq_nil_iff.mpr fun row before => by
      simpa using (below row before last mem_cons_self).le,
    filter_eq_self.mpr fun row after => by simpa using above row after]
  refine ⟨rfl, (table.bounded last held).2, forall_mem_append.mpr ⟨?_, by simp⟩⟩
  exact fun row before => (below row before last mem_cons_self).le

theorem exists_walk (points : Points token cursor) : ∃ pages,
    Walk request token (List.replicate pages.length table) pages ∧
      pages.flatten = (rowsAfter request table cursor).map scanInferenceEvent ∧
      pages ≠ [] ∧ ∀ page ∈ pages.dropLast, page.length = request.pageLimit := by
  induction size : (rowsAfter request table cursor).length using Nat.strong_induction_on
    generalizing token cursor with
  | h size induction =>
    have listed := listInferenceEvents_eq request table points
    rcases page_cases request (rowsAfter request table cursor) with
      all | ⟨front, last, rest, split, length, some⟩
    · rw [all] at listed
      exact ⟨[_], .last listed, by simp, by simp, by simp⟩
    · rw [some] at listed
      obtain ⟨following, small, -⟩ := rowsAfter_of_split split
      obtain ⟨pages, walk, shown, nonempty, lengths⟩ :=
        induction rest.length (by rw [← size, split]; simp; omega) (.inr ⟨rfl, small⟩)
          (by rw [following])
      refine ⟨_ :: pages, .next listed (parseInt_padded small).2 walk, ?_, by simp, ?_⟩
      · simp [shown, following, split]
      · rw [dropLast_cons_of_ne_nil nonempty]
        exact forall_mem_cons.mpr ⟨by simpa using length, lengths⟩

/-- A walk over a growing log returns no event twice, and misses none of the first log. -/
theorem Walk.spec {tables : List Table} {pages : List (List ListedEvent)}
    (walk : Walk request token tables pages) (points : Points token cursor)
    (growing : tables.IsChain fun table later => table.rows <+: later.rows) :
    ∃ rows : List Row, pages.flatten = rows.map scanInferenceEvent ∧
      rows.Pairwise (fun first second => first.id < second.id) ∧ (∀ row ∈ rows, cursor < row.id) ∧
      ∀ table ∈ tables.head?, rowsAfter request table cursor ⊆ rows := by
  induction walk generalizing cursor with
  | @last token table page listed =>
    rw [listInferenceEvents_eq request table points, Except.ok.injEq] at listed
    rcases page_cases request (rowsAfter request table cursor) with
      all | ⟨front, last, rest, split, -, some⟩
    · obtain ⟨rfl, -⟩ := ListInferenceEventsResponse.mk.inj (all.symm.trans listed)
      exact ⟨_, flatten_singleton, increasing_rowsAfter request table cursor,
        fun row member => (mem_rowsAfter.mp member).2.1, by simp⟩
    · have ended := (ListInferenceEventsResponse.mk.inj (some.symm.trans listed)).2
      exact absurd ended (parseInt_padded (rowsAfter_of_split split).2.1).2
  | @next token following table page tables pages listed more walk induction =>
    rw [listInferenceEvents_eq request table points, Except.ok.injEq] at listed
    rcases page_cases request (rowsAfter request table cursor) with
      all | ⟨front, last, rest, split, -, some⟩
    · exact absurd (ListInferenceEventsResponse.mk.inj (all.symm.trans listed)).2.symm more
    obtain ⟨rfl, rfl⟩ := ListInferenceEventsResponse.mk.inj (some.symm.trans listed)
    obtain ⟨following, small, shownBefore⟩ := rowsAfter_of_split split
    obtain ⟨rows, shown, ordered, later, complete⟩ :=
      induction (.inr ⟨rfl, small⟩) growing.of_cons
    rw [append_cons] at split
    have first : ∀ row ∈ front ++ [last], cursor < row.id := fun row member =>
      (mem_rowsAfter.mp (split ▸ mem_append_left rest member)).2.1
    refine ⟨front ++ [last] ++ rows, by simp [shown], ?_, ?_, ?_⟩
    · have increasing := increasing_rowsAfter request table cursor
      rw [split, pairwise_append] at increasing
      exact pairwise_append.mpr ⟨increasing.1, ordered, fun row before other after =>
        (shownBefore row before).trans_lt (later other after)⟩
    · exact forall_mem_append.mpr ⟨first, fun row after =>
        (first last (by simp)).trans (later row after)⟩
    · rintro _ ⟨⟩ row member
      rw [split, mem_append] at member
      refine mem_append.mpr (member.imp_right fun left => ?_)
      cases tables with
      | nil => cases walk
      | cons next tables =>
        obtain ⟨held, selected⟩ := mem_rowsAfter.mp (following ▸ left)
        exact complete next rfl (mem_rowsAfter.mpr ⟨growing.rel.subset held, selected⟩)

def everything : ListInferenceEventsRequest := ⟨[], [], [], .zero, .zero, 1, []⟩

end Purser.InferenceLog
