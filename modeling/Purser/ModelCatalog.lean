import Purser.FleetPlanning

/-!
# Models in the catalog

A model is kept as a message, which has no field for the model's own compression
of the KV cache.
-/

namespace Purser.Planner

open ControlPlane (ModelRow)

def u64 (value : ℤ) : ℕ := if value < 0 then 0 else value.toNat

structure ProtoDraftInfo where
  available : Bool
  type : String
  tailLayers : ℕ

/-- Quantizations and attention types have the same fields and members on the wire. -/
structure ProtoModelSpec where
  modelId : String
  paramsTotalB : ℚ
  paramsActiveB : ℚ
  layers : ℕ
  hiddenSize : ℕ
  nKvHeads : ℕ
  headDim : ℕ
  attentionType : AttentionType
  contextMax : ℕ
  isMoe : Bool
  draft : ProtoDraftInfo
  quantizations : List Quantization

def ModelSpec.toProto (model : ModelSpec) : ProtoModelSpec where
  modelId := model.id
  paramsTotalB := model.paramsTotalB
  paramsActiveB := model.paramsActiveB
  layers := u32 model.layers
  hiddenSize := u32 model.hiddenSize
  nKvHeads := u32 model.nKVHeads
  headDim := u32 model.headDim
  attentionType := model.attentionType
  contextMax := u64 model.contextMax
  isMoe := model.isMoE
  draft := ⟨model.draft.available, model.draft.type, u32 model.draft.tailLayers⟩
  quantizations := model.quantizations

def modelSpecFromProto (spec : ProtoModelSpec) : ModelSpec where
  id := spec.modelId
  isMoE := spec.isMoe
  layers := spec.layers
  paramsTotalB := spec.paramsTotalB
  paramsActiveB := spec.paramsActiveB
  hiddenSize := spec.hiddenSize
  nKVHeads := spec.nKvHeads
  headDim := spec.headDim
  attentionType := spec.attentionType
  contextMax := spec.contextMax
  quantizations := spec.quantizations
  draft := ⟨spec.draft.available, spec.draft.type, spec.draft.tailLayers⟩

/-- The texts of messages, which are read back as they were written. -/
structure SpecCodec (Json : Type) where
  marshal : ProtoModelSpec → Json
  unmarshal : Json → Except String ProtoModelSpec
  unmarshal_marshal : ∀ spec, unmarshal (marshal spec) = .ok spec

/-- The row of a model that is stored under its own name. -/
def catalogued {Json : Type} (codec : SpecCodec Json) (model : ModelSpec) : ModelRow where
  id := model.id
  spec := (codec.unmarshal (codec.marshal model.toProto)).map modelSpecFromProto

def ModelSpec.InRange (model : ModelSpec) : Prop :=
  ∀ value ∈ [model.layers, model.hiddenSize, model.nKVHeads, model.headDim, model.contextMax,
    model.draft.tailLayers], 0 ≤ value ∧ value < 2 ^ 32

theorem u32_cast {value : ℤ} (inRange : 0 ≤ value ∧ value < 2 ^ 32) : (u32 value : ℤ) = value := by
  rw [u32, if_neg (by omega), Nat.mod_eq_of_lt (by omega), Int.toNat_of_nonneg inRange.1]

/-- A model of the catalog is planned as the model itself without a compression of
its own. -/
theorem plan_catalogued {Json : Type} (codec : SpecCodec Json) (model : ModelSpec)
    (inRange : model.InRange) :
    modelSpecFromProto model.toProto = { model with kvCompressionRatio := 0 } ∧
      ∀ rt ctx nodes links c,
        (Planning.modelSpec (catalogued codec model)).map (plan rt ctx nodes links · c) =
          .ok (plan rt ctx nodes links { model with kvCompressionRatio := 0 } c) := by
  simp only [ModelSpec.InRange, List.forall_mem_cons] at inRange
  obtain ⟨layers, hidden, heads, dim, context, tail, -⟩ := inRange
  have same : modelSpecFromProto model.toProto = { model with kvCompressionRatio := 0 } := by
    have contextEq : (u64 model.contextMax : ℤ) = model.contextMax := by
      rw [u64, if_neg (by omega), Int.toNat_of_nonneg context.1]
    simp only [modelSpecFromProto, ModelSpec.toProto, u32_cast layers, u32_cast hidden,
      u32_cast heads, u32_cast dim, contextEq, u32_cast tail]
  refine ⟨same, fun rt ctx nodes links c => ?_⟩
  simp [Planning.modelSpec, catalogued, codec.unmarshal_marshal, Except.map, same]

/-- A node of 30 GB holds the model only with its own compression. -/
def compressed : ModelSpec where
  id := "m"
  layers := 1
  nKVHeads := 1000
  headDim := 1000
  contextMax := 10000
  attentionType := .mla
  quantizations := [{ name := "q4", sizeGB := 25, quality := 9 / 10 }]
  kvCompressionRatio := 1 / 20

theorem compressed_inRange : compressed.InRange := by
  unfold ModelSpec.InRange
  decide

theorem plan_compressed_differs :
    compressed.InRange ∧ modelSpecFromProto compressed.toProto ≠ compressed ∧
      (plan Runtime.default Context.background (threeNodes.take 1) [] compressed {}).isOk = true ∧
      (plan Runtime.default Context.background (threeNodes.take 1) []
        (modelSpecFromProto compressed.toProto) {}).isOk = false := by
  refine ⟨compressed_inRange, ?_⟩
  decide +kernel

theorem plan_catalogued_compressed :
    compressed.InRange ∧ modelSpecFromProto compressed.toProto =
      { compressed with kvCompressionRatio := 0 } :=
  ⟨compressed_inRange,
    (plan_catalogued (⟨id, .ok, fun _ => rfl⟩ : SpecCodec ProtoModelSpec) compressed
      compressed_inRange).1⟩

end Purser.Planner
