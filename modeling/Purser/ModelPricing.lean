import Mathlib.Algebra.Order.Field.Rat
import Mathlib.Data.List.MinMax
import Mathlib.Data.List.Sort
import Mathlib.Data.String.Basic
import Purser.KeyedStores

/-!
# The price of a model

The price list takes the last row of a model, and the reports take the last one
up to the end of their window.  Rows keep the texts of their instants.
-/

namespace Purser.Billing

open KeyedStores List

structure ModelPricing where
  modelID : String
  effectiveFrom : String
  inputPricePer1K : ℚ
  outputPricePer1K : ℚ
  tiers : String

abbrev PricingTable := Store fun row : ModelPricing => (row.modelID, row.effectiveFrom)

structure InferenceEvent where
  tenantID : String
  modelID : String
  timestamp : String
  promptTokens : ℚ
  completionTokens : ℚ

variable (table : PricingTable) (modelID bound : String)

def rowsOf : List ModelPricing := table.rows.filter (·.modelID = modelID)

def getCurrentModelPricing : Option ModelPricing :=
  ((rowsOf table modelID).insertionSort
    fun first second => second.effectiveFrom ≤ first.effectiveFrom).head?

/-- The prices that both reports join with the log. -/
def currentPricing : List ModelPricing :=
  table.rows.filter fun outer => (((rowsOf table outer.modelID).filter
    (·.effectiveFrom ≤ bound)).map ModelPricing.effectiveFrom).maximum = outer.effectiveFrom

def joined : List ModelPricing := (currentPricing table bound).filter (·.modelID = modelID)

/-- What the events of a tenant cost.  A report of a team has a window of its own,
and the forecast has the month up to now. -/
def costUSD (log : List InferenceEvent) (tenantID start stop : String) : ℚ :=
  ((log.filter fun event => event.tenantID = tenantID ∧ start ≤ event.timestamp ∧
    event.timestamp ≤ stop).map fun event => ((joined table event.modelID stop).map fun price =>
      event.promptTokens / 1000 * price.inputPricePer1K +
        event.completionTokens / 1000 * price.outputPricePer1K).sum).sum

/-- The last row of a model, of those whose texts are accepted. -/
structure IsLast {Instant : Type} [LE Instant] (time : String → Instant) (accepts : String → Prop)
    (row : ModelPricing) : Prop where
  member : row ∈ rowsOf table modelID
  accepted : accepts row.effectiveFrom
  last : ∀ other ∈ rowsOf table modelID, accepts other.effectiveFrom →
    time other.effectiveFrom ≤ time row.effectiveFrom

/-- Everybody uses the last row that has taken effect. -/
structure OnePrice (time : String → ℤ) (now : ℤ) : Prop where
  current : ∀ row, getCurrentModelPricing table modelID = some row →
    IsLast table modelID time (time · ≤ now) row
  missing : getCurrentModelPricing table modelID = none →
    ∀ row, ¬ IsLast table modelID time (time · ≤ now) row
  used : ∀ row, row ∈ joined table modelID bound ↔ getCurrentModelPricing table modelID = some row

variable {table modelID bound} {row : ModelPricing}

theorem exists_pricing (member : row ∈ rowsOf table modelID) :
    ∃ first, getCurrentModelPricing table modelID = some first :=
  ⟨_, head?_eq_some_head (ne_nil_of_mem ((perm_insertionSort _ _).mem_iff.mpr member))⟩

theorem isLast_of_getCurrentModelPricing (found : getCurrentModelPricing table modelID = some row) :
    IsLast table modelID id (fun _ => True) row := by
  obtain ⟨rest, sorted⟩ := head?_eq_some_iff.mp found
  have perm := perm_insertionSort
    (fun first second : ModelPricing => second.effectiveFrom ≤ first.effectiveFrom)
    (rowsOf table modelID)
  have ordered := pairwise_insertionSort
    (fun first second : ModelPricing => second.effectiveFrom ≤ first.effectiveFrom)
    (rowsOf table modelID)
  rw [sorted] at perm ordered
  refine ⟨perm.mem_iff.mp mem_cons_self, trivial, fun other member _ => ?_⟩
  rcases mem_cons.mp (perm.mem_iff.mpr member) with rfl | later
  · exact le_rfl
  · exact rel_of_pairwise_cons ordered later

theorem getCurrentModelPricing_eq_some_iff : getCurrentModelPricing table modelID = some row ↔
      IsLast table modelID id (fun _ => True) row := by
  refine ⟨isLast_of_getCurrentModelPricing, fun isLast => ?_⟩
  obtain ⟨first, found⟩ := exists_pricing isLast.member
  have firstLast := isLast_of_getCurrentModelPricing found
  obtain ⟨member, model⟩ := mem_filter.mp isLast.member
  obtain ⟨firstMember, firstModel⟩ := mem_filter.mp firstLast.member
  have text : first.effectiveFrom = row.effectiveFrom :=
    le_antisymm (isLast.last first firstLast.member trivial)
      (firstLast.last row isLast.member trivial)
  rw [found, inj_on_of_nodup_map table.unique firstMember member (Prod.ext
    ((of_decide_eq_true firstModel).trans (of_decide_eq_true model).symm) text)]

theorem mem_joined_iff : row ∈ joined table modelID bound ↔
      IsLast table modelID id (· ≤ bound) row := by
  simp only [joined, currentPricing, mem_filter, decide_eq_true_eq, maximum_eq_coe_iff, mem_map]
  constructor
  · rintro ⟨⟨member, ⟨_, ⟨_, below⟩, text⟩, greatest⟩, rfl⟩
    refine ⟨mem_filter.mpr ⟨member, decide_eq_true rfl⟩, text ▸ below, fun other listed below => ?_⟩
    exact greatest _ ⟨other, ⟨listed, below⟩, rfl⟩
  · rintro ⟨listed, below, greatest⟩
    obtain ⟨member, model⟩ := mem_filter.mp listed
    obtain rfl := of_decide_eq_true model
    refine ⟨⟨member, ⟨row, ⟨listed, below⟩, rfl⟩, ?_⟩, rfl⟩
    rintro _ ⟨other, ⟨otherListed, otherBelow⟩, rfl⟩
    exact greatest other otherListed otherBelow

/-- There is one price exactly if no row is later than now, and the last text of
the model stands for the last instant. -/
theorem onePrice_iff (table : PricingTable) (modelID bound : String) (time : String → ℤ) (now : ℤ) :
    OnePrice table modelID bound time now ↔ ∀ row ∈ rowsOf table modelID,
      row.effectiveFrom ≤ bound ∧ (IsLast table modelID id (fun _ => True) row →
        IsLast table modelID time (time · ≤ now) row) := by
  constructor
  · intro price row member
    obtain ⟨first, found⟩ := exists_pricing member
    have used := mem_joined_iff.mp ((price.used first).mpr found)
    have last := isLast_of_getCurrentModelPricing found
    exact ⟨(last.last row member trivial).trans used.accepted,
      fun isLast => price.current row (getCurrentModelPricing_eq_some_iff.mpr isLast)⟩
  · intro settled
    refine ⟨fun row found => ?_, fun missing row isLast => ?_, fun row => ?_⟩
    · have last := isLast_of_getCurrentModelPricing found
      exact (settled row last.member).2 last
    · obtain ⟨first, found⟩ := exists_pricing isLast.member
      rw [missing] at found
      cases found
    · rw [mem_joined_iff, getCurrentModelPricing_eq_some_iff]
      constructor
      · rintro ⟨member, -, last⟩
        exact ⟨member, trivial, fun other listed _ => last other listed (settled other listed).1⟩
      · rintro ⟨member, -, last⟩
        exact ⟨member, (settled row member).1, fun other listed _ => last other listed trivial⟩

/-- The price of next year is the current one already. -/
theorem future_price_current : ∃ table : PricingTable,
    (getCurrentModelPricing table "m").map ModelPricing.effectiveFrom = some "2027" ∧
      (joined table "m" "2026-06").map ModelPricing.effectiveFrom = ["2026"] :=
  ⟨⟨[⟨"m", "2026", 1, 1, "[]"⟩, ⟨"m", "2027", 2, 2, "[]"⟩], by decide⟩, by decide +kernel⟩

end Purser.Billing
