import Mathlib.Data.List.Sort
import Purser.PlannerStageTime
import Purser.RangeLoops

/-!
# Phase D: pipeline order

The order of a cheap Hamiltonian path from the host: Held-Karp up to the
ordering threshold, above it a nearest-neighbour path refined by 2-opt.
-/

namespace Purser.Planner

open Function (update)

/-- A comparison that a sort may be given: a strict weak order. -/
structure IsStrictWeakOrder (less : Node → Node → Bool) : Prop where
  asymm : ∀ first second, less first second = true → less second first = false
  trans : ∀ first second third, less second first = false →
    less third second = false → less third first = false

structure Runtime where
  orderingThreshold : ℕ
  threshold_pos : 1 ≤ orderingThreshold
  threshold_le : orderingThreshold ≤ orderingThresholdMax
  sortSlice : (Node → Node → Bool) → List Node → List Node
  sortSlice_perm : ∀ less nodes, (sortSlice less nodes).Perm nodes
  sortSlice_sorted : ∀ less nodes, IsStrictWeakOrder less →
    (sortSlice less nodes).Pairwise fun first second => less second first = false

/-- What one call observes: for each poll of its context whether it is cancelled,
and for each batch of goroutines the order in which their results arrive.  Polls
and batches are addressed by their path in the tree of calls. -/
structure Context where
  cancelled : List ℕ → Bool
  arrival : List ℕ → ℕ → List ℕ
  arrival_perm : ∀ path count, (arrival path count).Perm (List.range count)

namespace Context

def child (ctx : Context) (index : ℕ) : Context where
  cancelled path := ctx.cancelled (index :: path)
  arrival path := ctx.arrival (index :: path)
  arrival_perm path := ctx.arrival_perm (index :: path)

/-- The context is not cancelled while the call runs. -/
def NeverCancelled (ctx : Context) : Prop := ∀ path, ctx.cancelled path = false

theorem NeverCancelled.child {ctx : Context} (never : ctx.NeverCancelled) (index : ℕ) :
    (ctx.child index).NeverCancelled :=
  fun path => never (index :: path)

def background : Context where
  cancelled _ := false
  arrival _ count := List.range count
  arrival_perm _ _ := List.Perm.refl _

theorem background_neverCancelled : background.NeverCancelled := fun _ => rfl

end Context

def Runtime.default : Runtime where
  orderingThreshold := heldKarpMaxNodes
  threshold_pos := by decide
  threshold_le := by decide
  sortSlice less nodes := nodes.insertionSort fun first second => less second first = false
  sortSlice_perm less nodes := List.perm_insertionSort _ nodes
  sortSlice_sorted less nodes order := by
    have total : Std.Total fun first second => less second first = false := by
      constructor
      intro first second
      cases before : less second first with
      | false => exact Or.inl rfl
      | true => exact Or.inr (order.asymm second first before)
    have transitive : IsTrans Node fun first second =>
        less second first = false :=
      ⟨order.trans⟩
    exact List.pairwise_insertionSort _ nodes

open RangeLoops

def bytesPerMs (bandwidthGBs : ℚ) : ℚ :=
  if bandwidthGBs ≤ 0 then 0 else bandwidthGBs * 10 ^ 9 / 1000

def edgeCost (first second : String) (model : ModelSpec) (links : List Link) : ℚ :=
  match lookupLink links first second with
  | none => missingLinkPenaltyMs
  | some link =>
    let bpm := bytesPerMs link.bandwidthGBs
    if 0 < bpm then link.rttMs + activationBytes model / bpm else link.rttMs

def orderCost (model : ModelSpec) (links : List Link) : List Node → ℚ
  | first :: second :: rest =>
    edgeCost first.id second.id model links + orderCost model links (second :: rest)
  | _ => 0

/-- Position of the host: the forced one when it is among the nodes, otherwise
the node of largest useful capacity, the earliest among equals. -/
def chooseHostIndex (nodes : List Node) (c : Constraints) : ℕ :=
  let mostCapable :=
    ((List.range' 1 (nodes.length - 1)).foldl (fun (best : ℕ × ℚ) i =>
      let capacity := usefulCapacity (nodes.getD i default)
      if best.2 < capacity then (i, capacity) else best)
      (0, usefulCapacity (nodes.getD 0 default))).1
  match c.forceHost with
  | none => mostCapable
  | some host => (nodes.findIdx? fun node => node.id = host).getD mostCapable

/-- The tables of the Held-Karp program: `dp mask j` is the least cost of a path
from vertex zero through exactly the vertices of `mask` to `j`, and
`parent mask j` the vertex before `j` on it. -/
structure PathTables where
  dp : ℕ → ℕ → WithTop ℚ
  parent : ℕ → ℕ → ℤ

namespace PathTables

def initial : PathTables where
  dp mask j := if mask = 1 ∧ j = 0 then 0 else ⊤
  parent _ _ := -1

variable (cost : ℕ → ℕ → ℚ) (count mask : ℕ) (tables : PathTables) (j : ℕ)

def extend (tables : PathTables) (k : ℕ) :
    PathTables :=
  if mask.testBit k then tables
  else
    let next := mask ||| 1 <<< k
    let total := tables.dp mask j + (cost j k : WithTop ℚ)
    if total < tables.dp next k then
      { dp := update tables.dp next (update (tables.dp next) k total)
        parent := update tables.parent next (update (tables.parent next) k j) }
    else tables

def extendEnd : PathTables :=
  if !mask.testBit j ∨ tables.dp mask j = ⊤ then tables
  else (List.range count).foldl (extend cost mask j) tables

def extendMask (mask : ℕ) : PathTables :=
  if !mask.testBit 0 then tables
  else (List.range count).foldl (extendEnd cost count mask) tables

def fill : PathTables :=
  (List.range (2 ^ count)).foldl (extendMask cost count) initial

def bestEnd (count : ℕ) : ℕ :=
  let full := 2 ^ count - 1
  ((List.range' 1 (count - 1)).foldl (fun (best : ℕ × WithTop ℚ) j =>
    if tables.dp full j < best.2 then (j, tables.dp full j) else best)
    (0, tables.dp full 0)).1

end PathTables

def walkParents (parent : ℕ → ℕ → ℤ) : (steps mask j : ℕ) → List ℕ
  | 0, _, _ => []
  | steps + 1, mask, j =>
    walkParents parent steps (mask ^^^ 1 <<< j) (parent mask j).toNat ++ [j]

/-- The cheapest unvisited vertex, the first among equals. -/
def nearestUnvisited (cost : ℕ → ℕ → ℚ) (count : ℕ) (visited : ℕ → Bool) (current : ℕ) : Option ℕ :=
  ((List.range count).foldl (fun (best : Option ℕ × WithTop ℚ) k =>
    if visited k then best
    else if (cost current k : WithTop ℚ) < best.2 then (some k, cost current k)
    else best) (none, ⊤)).1

def nearestRoute (cost : ℕ → ℕ → ℚ) (count : ℕ) :
    (steps : ℕ) → (visited : ℕ → Bool) → (current : ℕ) → List ℕ
  | 0, _, _ => []
  | steps + 1, visited, current =>
    match nearestUnvisited cost count visited current with
    | none => []
    | some next =>
      next :: nearestRoute cost count steps (update visited next true) next

variable (rt : Runtime) (nodes : List Node) (model : ModelSpec) (links : List Link)

def positionCost (i j : ℕ) : ℚ :=
  edgeCost (nodes.getD i default).id (nodes.getD j default).id model links

def nearestNeighborOrder : List Node :=
  (0 :: nearestRoute (positionCost nodes model links) nodes.length
    (nodes.length - 1) (update (fun _ => false) 0 true) 0).map fun i => nodes.getD i default

def reverseSegment (route : List Node) (i k : ℕ) : List Node :=
  route.take i ++ ((route.take (k + 1)).drop i).reverse ++ route.drop (k + 1)

structure TwoOptState where
  best : List Node
  bestCost : ℚ
  improved : Bool

def tryReversal (i : ℕ) (state : TwoOptState) (k : ℕ) : TwoOptState :=
  let cand := reverseSegment state.best i k
  let candCost := orderCost model links cand
  if candCost < state.bestCost - twoOptImproveEps then ⟨cand, candCost, true⟩
  else state

def twoOptPass (count : ℕ) (state : TwoOptState) : TwoOptState :=
  (List.range' 1 (count - 2)).foldl (fun state i =>
    (List.range' (i + 1) (count - 1 - i)).foldl (tryReversal model links i) state)
    { state with improved := false }

def twoOptPasses (count : ℕ) : (passes : ℕ) → TwoOptState → TwoOptState
  | 0, state => state
  | passes + 1, state =>
    let swept := twoOptPass model links count state
    if swept.improved then twoOptPasses count passes swept
    else swept

/-- Refine a path by reversing segments behind the host. -/
def twoOptImprove (route : List Node) (model : ModelSpec) (links : List Link) : List Node :=
  if route.length < 4 then route
  else
    (twoOptPasses model links route.length twoOptMaxPasses
      ⟨route, orderCost model links route, false⟩).best

def nearestNeighbor2Opt : List Node :=
  twoOptImprove (nearestNeighborOrder nodes model links) model links

def heldKarpPath : List Node :=
  let count := nodes.length
  if orderingThresholdMax < count then nearestNeighbor2Opt nodes model links
  else
    let cost i j := if i ≠ j then positionCost nodes model links i j else 0
    let tables := PathTables.fill cost count
    (walkParents tables.parent count (2 ^ count - 1)
      (tables.bestEnd count)).map fun i => nodes.getD i default

def swapAt (i j : ℕ) : List Node :=
  (nodes.set i (nodes.getD j default)).set j (nodes.getD i default)

def orderNodes (c : Constraints) : List Node :=
  if nodes.length ≤ 1 then nodes
  else
    let ordered := rt.sortSlice (fun first second => first.id < second.id) nodes
    let ordered := swapAt ordered 0 (chooseHostIndex ordered c)
    if nodes.length ≤ rt.orderingThreshold then heldKarpPath ordered model links
    else nearestNeighbor2Opt ordered model links

def sameOrder (first second : List Node) : Bool :=
  first.map Node.id = second.map Node.id

end Purser.Planner
