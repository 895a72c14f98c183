import Purser.AdmissionLimits
import Purser.AnthropicContent
import Purser.AuditTampering
import Purser.CalendarConversions
import Purser.DrainStickiness
import Purser.DualControl
import Purser.FailClosedAdmission
import Purser.FailoverService
import Purser.CertAuthority
import Purser.CertRenewals
import Purser.GossipView
import Purser.HeartbeatOutages
import Purser.InferenceErasure
import Purser.ModelCacheRestarts
import Purser.ModelCatalog
import Purser.ModelPricing
import Purser.PlannerFleetChanges
import Purser.PlannerOverrides
import Purser.PlannerReplicas
import Purser.PlannerRouteCosts
import Purser.PlannerRuleG3
import Purser.PoolExclusivity
import Purser.ReconcilerHysteresis
import Purser.ReplacementCount
import Purser.RightsMonotonicity
import Purser.RouteConcurrency
import Purser.StreamAccounting
import Purser.TenantIsolation
import Purser.WorkerBinding
import Purser.InferencePages
import Purser.KeyRotations
