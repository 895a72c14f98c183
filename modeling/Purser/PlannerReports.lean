import Purser.PlannerTypes
import Purser.TextFormatting
import Mathlib.Order.WithBot

/-!
# What the planner reports

Explanations and rejections are kept structured, one constructor for each format
string of the source, together with the text the source prints.
-/

namespace Purser.Planner

open TextFormatting

namespace Role

def name : Role → String
  | .host => "HOST"
  | .worker => "WORKER"
  | .unspecified => "UNSPECIFIED"

end Role

/-- One line of a plan's explanation. -/
inductive Note where
  | selectedQuantization (name : String) (quality : ℚ)
  | fitsSingleNode (nodeID : String)
  | singleNodeBudget (weights kv overhead required useful headroom : ℚ)
  | emulatedFP4
  | forceHostIgnored (host nodeID : String)
  | splitAcross (nodeCount : ℕ)
  | bottleneckStage (bottleneck headroom : ℚ)
  | stagePlacement (nodeID : String) (role : Role) (layerStart layerEnd : ℤ) (need useful : ℚ)
  | pinOutsideSubset (range : LayerRange) (target : String)
  | pinMovedShard (range : LayerRange) (target : String) (layerStart layerEnd : ℤ) (origin : String)
  | pinNotApplied (range : LayerRange) (target : String)
  | phaseDOrdering (exact : Bool) (host : String) (rounds : ℕ)
  | forceHostHonoured (host : String)
  | forceHostNotInSubset (host chosen : String)
  | draftOnHost (type : String) (tailLayers : ℤ) (nodeID : String)
  | draftOnTail (type : String) (tailLayers : ℤ) (nodeID : String) (layerStart layerEnd : ℤ)
  | losingNode (dead : String)

/-- The common head of the notes about one pin. -/
def pinText (range : LayerRange) (target : String) : String :=
  "pin layers [" ++ toString range.start ++ "," ++ toString range.stop ++ "]→" ++ quoted target

def Note.text : Note → String
  | .selectedQuantization name quality =>
    "selected quantization " ++ quoted name ++ " (quality " ++ fixedPoint 2 quality ++ ")"
  | .fitsSingleNode nodeID =>
    "model fits on a single node " ++ quoted nodeID ++ ": no pipeline split needed (rule G3)"
  | .singleNodeBudget weights kv overhead required useful headroom =>
    "weights " ++ fixedPoint 1 weights ++ " GB + KV cache " ++
      fixedPoint 1 kv ++ " GB + overhead " ++ fixedPoint 1 overhead ++
      " GB = " ++ fixedPoint 1 required ++ " GB required; " ++
      fixedPoint 1 useful ++ " GB useful memory (" ++ fixedPoint 1 headroom ++ " GB headroom)"
  | .emulatedFP4 =>
    "quantization requires FP4 but no node is FP4-native: " ++ "running emulated (penalised)"
  | .forceHostIgnored host nodeID =>
    "note: force_host=" ++ quoted host ++ " ignored — single-node plan hosts on " ++ quoted nodeID
  | .splitAcross nodeCount =>
    "model does not fit on a single node: split across " ++
      toString nodeCount ++ " nodes (phase C throughput-aware DP)"
  | .bottleneckStage bottleneck headroom =>
    "bottleneck stage time " ++ fixedPoint 4 bottleneck ++
      " s/token (min-max partition); tightest headroom " ++ fixedPoint 1 headroom ++ " GB"
  | .stagePlacement nodeID role layerStart layerEnd need useful =>
    "node " ++ quoted nodeID ++ " (" ++ role.name ++ "): layers [" ++
      toString layerStart ++ "," ++ toString layerEnd ++ "] — need " ++
      fixedPoint 1 need ++ " GB of " ++ fixedPoint 1 useful ++ " GB useful"
  | .pinOutsideSubset range target =>
    pinText range target ++ " ignored: node not in the selected subset"
  | .pinMovedShard range target layerStart layerEnd origin =>
    pinText range target ++ ": moved shard [" ++ toString layerStart ++
      "," ++ toString layerEnd ++ "] from " ++ quoted origin ++ " to " ++
      quoted target ++ " (may exceed the exact pin)"
  | .pinNotApplied range target =>
    pinText range target ++ " not applied: no single shard fully contains the range"
  | .phaseDOrdering exact host rounds =>
    "phase D ordering: min-cost Hamiltonian path over activation transfer, " ++
      (if exact then "exact (Held-Karp)" else "heuristic (nearest-neighbour + 2-opt)") ++
      "; host " ++ quoted host ++ "; co-optimised with partition (converged in " ++
      toString rounds ++ " round(s))"
  | .forceHostHonoured host =>
    "force_host=" ++ quoted host ++ " honoured: it is the pipeline head"
  | .forceHostNotInSubset host chosen =>
    "note: force_host=" ++ quoted host ++
      " not in the selected subset — host chosen by capacity (" ++ quoted chosen ++ ")"
  | .draftOnHost type tailLayers nodeID =>
    "phase E: speculative draft (" ++ type ++ ", " ++ toString tailLayers ++
      " tail layers) co-located on host " ++ quoted nodeID ++ " (no extra hop)"
  | .draftOnTail type tailLayers nodeID layerStart layerEnd =>
    "phase E: speculative draft (" ++ type ++ ", " ++ toString tailLayers ++
      " tail layers) placed on pipeline tail " ++ quoted nodeID ++
      " (holds layers [" ++ toString layerStart ++ "," ++ toString layerEnd ++ "]); no extra hop"
  | .losingNode dead =>
    "phase F: losing node " ++ quoted dead ++ " leaves no feasible plan — degrade/notify operator"

structure DeploymentPlan where
  planID : String
  modelID : String
  quantization : String
  assignments : List Assignment
  pipelineOrder : List String
  estimated : PerfEstimate
  cost : ℚ
  explanation : List Note
  failoverAlt : String → Option (Option DeploymentPlan)

inductive Rejection where
  | noNodesAfterFilter
  | emptyPool (requested : ℕ)
  | forceHostOutsidePool (host : String)
  | noLayers (model : String)
  | noQuantizations (model : String)
  | forcedQuantUnknown (quant model : String)
  | forcedQuantTooLarge (quant : String)
  | modelTooLarge (model : String)
  | usefulMemoryTooSmall (model quant : String) (nodeCount : ℕ)
  | noFeasiblePartition (model quant : String) (subsetCount : ℕ)
  | unknownNode (nodeID : String)
  | overCapacity (culprit : String) (nLayers layers : ℤ) (nodeID : String)
      (required limit : ℚ) (multiNode : Bool)
  deriving DecidableEq

/-- Says whether the usable figure already discounts the headroom margin. -/
def headroomSuffix (multiNode : Bool) : String :=
  if multiNode then
    " (after the " ++ fixedPoint 0 (defaultHeadroomFraction * 100) ++ "% headroom margin)"
  else ""

def Rejection.text : Rejection → String
  | .noNodesAfterFilter =>
    "no nodes available after applying include/exclude constraints"
  | .emptyPool requested =>
    "no nodes available in team pool: " ++ toString requested ++
      " nodes requested but 0 are in the allowed pool"
  | .forceHostOutsidePool host =>
    "ForceHost " ++ quoted host ++ " is not in the team's allowed node pool"
  | .noLayers model => "model " ++ quoted model ++ " declares no layers"
  | .noQuantizations model =>
    "model " ++ quoted model ++ " declares no quantizations"
  | .forcedQuantUnknown quant model =>
    "forced quantization " ++ quoted quant ++ " is not offered by model " ++ quoted model
  | .forcedQuantTooLarge quant =>
    "forced quantization " ++ quoted quant ++ " does not fit the aggregate RAM"
  | .modelTooLarge model =>
    "model " ++ quoted model ++ " is too large: no quantization fits the aggregate RAM"
  | .usefulMemoryTooSmall model quant nodeCount =>
    "model " ++ quoted model ++ " at quant " ++ quoted quant ++
      " does not fit even across all " ++ toString nodeCount ++ " nodes' useful memory"
  | .noFeasiblePartition model quant subsetCount =>
    "model " ++ quoted model ++ " at quant " ++ quoted quant ++
      ": no feasible contiguous partition on any of the " ++
      toString subsetCount ++ " candidate subsets (memory/headroom)"
  | .unknownNode nodeID =>
    "plan assigns layers to unknown node " ++ quoted nodeID
  | .overCapacity culprit nLayers layers nodeID required limit multiNode =>
    culprit ++ " forces " ++ toString nLayers ++ " of " ++ toString layers ++
      " layer(s) onto node " ++ quoted nodeID ++ ", needing " ++
      fixedPoint 1 required ++ " GB but only " ++ fixedPoint 1 limit ++
      " GB is usable" ++ headroomSuffix multiNode ++ " — the plan would violate memory/headroom"

structure PlanError where
  reason : Rejection
  deficitGB : ℚ := 0
  suggestions : List String := []
  deriving DecidableEq

def PlanError.message (error : PlanError) : String :=
  if 0 < error.deficitGB then
    "planner: " ++ error.reason.text ++ " (deficit " ++ fixedPoint 2 error.deficitGB ++ " GB)"
  else "planner: " ++ error.reason.text

inductive PlanFailure where
  | cancelled
  | rejected (error : PlanError)

end Purser.Planner
