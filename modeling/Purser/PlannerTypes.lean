import Mathlib.Data.Rat.Defs
import Mathlib.Algebra.Order.Field.Rat

/-!
# Domain types of the deployment planner

Sizes, bandwidths and times are exact rationals, integers of the source are
unbounded integers, and Go maps are partial functions.
-/

namespace Purser.Planner

/-- Selects the KV-cache compression factor of a model. -/
inductive AttentionType where
  | unspecified
  | mha
  | gqa
  | mla
  | linear
  deriving DecidableEq

inductive Role where
  | unspecified
  | host
  | worker
  deriving DecidableEq

structure LayerRange where
  start : ℤ
  stop : ℤ
  deriving DecidableEq

structure Node where
  id : String
  ramAvailableGB : ℚ := 0
  vramGB : ℚ := 0
  unifiedMemory : Bool := false
  memBandwidthGBs : ℚ := 0
  fp4Native : Bool := false
  diskFreeGB : ℚ := 0
  kvSsdOffload : Bool := false
  prefixCachingFactor : ℚ := 0
  deriving DecidableEq

/-- The zero value of `Node`. -/
instance : Inhabited Node := ⟨{ id := "" }⟩

structure Link where
  source : String
  target : String
  rttMs : ℚ := 0
  bandwidthGBs : ℚ := 0
  deriving DecidableEq

structure Quantization where
  name : String
  sizeGB : ℚ
  requiresFP4 : Bool := false
  quality : ℚ
  emulatedFP4 : Bool := false
  deriving DecidableEq

structure DraftInfo where
  available : Bool := false
  type : String := ""
  tailLayers : ℤ := 0
  deriving DecidableEq

structure ModelSpec where
  id : String
  isMoE : Bool := false
  layers : ℤ
  paramsTotalB : ℚ := 0
  paramsActiveB : ℚ := 0
  hiddenSize : ℤ := 0
  nKVHeads : ℤ := 0
  headDim : ℤ := 0
  attentionType : AttentionType := .unspecified
  contextMax : ℤ := 0
  quantizations : List Quantization
  draft : DraftInfo := {}
  kvCompressionRatio : ℚ := 0
  deriving DecidableEq

structure PinMap where
  entries : List (LayerRange × String) := []
  keysNodup : (entries.map Prod.fst).Nodup := by simp

/-- The operator overrides.  The default value is the zero value of the
source: no constraint at all. -/
structure Constraints where
  pinned : PinMap := { entries := [], keysNodup := List.nodup_nil }
  includeNodes : List String := []
  excludeNodes : List String := []
  forceNodeCount : Option ℤ := none
  forceQuant : Option String := none
  forceHost : Option String := none
  qualityWeightBias : ℚ := 0
  allowedNodeIDs : List String := []

structure Assignment where
  nodeID : String
  role : Role
  layerStart : ℤ
  layerEnd : ℤ
  draft : Bool := false

structure PerfEstimate where
  decodeTokSMin : ℚ
  decodeTokSMax : ℚ
  prefillTokSMin : ℚ
  prefillTokSMax : ℚ
  headroomGB : ℚ

/-- Memory reserved on every node for the OS and the inference runtime. -/
def overheadOSRuntimeGB : ℚ := 2

def bytesFP16 : ℚ := 2

/-- The fraction of a node's useful memory that multi-node stages keep free. -/
def defaultHeadroomFraction : ℚ := 1 / 10

/-- The bandwidth that stands in for an unreported one. -/
def referenceMemBandwidthGBs : ℚ := 100

def memBandwidthUtilFraction : ℚ := 7 / 10

def expectedAcceptedTokens : ℚ := 9 / 2

def perfBandFraction : ℚ := 3 / 10

def prefillComputeMultiple : ℚ := 8

def kvSsdOffloadFactor : ℚ := 1 / 2

def kvSsdOffloadMaxMultiplier : ℚ := 2

def kvSsdReadBandwidthGBs : ℚ := 6

/-- How many node counts beyond the smallest one phase B explores. -/
def planDelta : ℕ := 2

def costW1Hops : ℚ := 10

def costW2LinkCost : ℚ := 1

def costW3Imbalance : ℚ := 5

def costW4Quality : ℚ := 8

def costW5FP4 : ℚ := 6

def heldKarpMaxNodes : ℕ := 10

def orderingThresholdMax : ℕ := 20

def missingLinkPenaltyMs : ℚ := 10 ^ 6

def twoOptMaxPasses : ℕ := 64

def twoOptImproveEps : ℚ := 1 / 10 ^ 9

def coOptMaxRounds : ℕ := 3

end Purser.Planner
