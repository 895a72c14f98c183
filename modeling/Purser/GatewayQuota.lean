import Mathlib.Algebra.Order.Field.Rat
import Purser.KeyedStores

/-!
# Token buckets and admission guards

Balances and times are rational numbers.  The counters are 32 bits wide, and
wrap around.
-/

namespace Purser.GatewayQuota

open KeyedStores

/-- Thresholds, where zero disables the limit. -/
structure QuotaConfig where
  tokensPerMin : UInt64
  maxConcurrent : UInt32
  maxInflight : UInt32
  retryAfterSecs : UInt64

/-- The answer 429 to a request that was not admitted. -/
structure RateLimited where
  message : String
  retryAfterSecs : UInt64
  queuePosition : Option ℕ
deriving DecidableEq

structure TokenBucket where
  tokens : ℚ
  capacity : ℚ
  refillPerSec : ℚ
  last : ℚ

namespace TokenBucket

def new (capacity refillPerSec now : ℚ) : TokenBucket where
  tokens := capacity
  capacity := capacity
  refillPerSec := refillPerSec
  last := now

def refill (bucket : TokenBucket) (now : ℚ) : TokenBucket :=
  if 0 < now - bucket.last then
    { bucket with
      tokens := min (bucket.tokens + (now - bucket.last) * bucket.refillPerSec) bucket.capacity
      last := now }
  else bucket

def tryTake (bucket : TokenBucket) (now tokens : ℚ) : Bool × TokenBucket :=
  let refilled := bucket.refill now
  if tokens ≤ refilled.tokens then
    (true, { refilled with tokens := refilled.tokens - tokens })
  else (false, refilled)

/-- Charge tokens, leaving an empty bucket where there are too few. -/
def charge (bucket : TokenBucket) (now tokens : ℚ) : TokenBucket :=
  let refilled := bucket.refill now
  { refilled with tokens := max (refilled.tokens - tokens) 0 }

end TokenBucket

structure KeyState where
  keyId : String
  concurrent : ℕ
  bucket : TokenBucket

def KeyState.fresh (quota : QuotaConfig) (now : ℚ) (keyId : String) : KeyState where
  keyId := keyId
  concurrent := 0
  bucket := .new quota.tokensPerMin.toNat (quota.tokensPerMin.toNat / 60) now

structure Limiter where
  globalInflight : ℕ
  keys : Store KeyState.keyId

namespace Limiter

def new : Limiter where
  globalInflight := 0
  keys := .empty

def fetchAdd (counter : ℕ) : ℕ := (counter + 1) % 2 ^ 32

def fetchSub (counter : ℕ) : ℕ := (counter + (2 ^ 32 - 1)) % 2 ^ 32

variable (limiter : Limiter) (quota : QuotaConfig) (now : ℚ) (keyId : String)

/-- The test against the global ceiling, with the count before the addition. -/
def Saturated (previous : ℕ) : Prop :=
  0 < quota.maxInflight.toNat ∧ quota.maxInflight.toNat < fetchAdd previous

instance  (previous : ℕ) : Decidable (Saturated quota previous) :=
  inferInstanceAs (Decidable (_ ∧ _))

def saturation : RateLimited where
  message := "Gateway is saturated (backpressure). Retry after a short delay."
  retryAfterSecs := quota.retryAfterSecs
  queuePosition := none

def concurrencyLimit : RateLimited where
  message := "Concurrency limit reached (" ++ toString quota.maxConcurrent.toNat ++
    " in-flight requests for this key)."
  retryAfterSecs := quota.retryAfterSecs
  queuePosition := none

def tokenLimit : RateLimited where
  message := "Token rate limit exceeded (" ++ toString quota.tokensPerMin.toNat ++
    " tokens/min for this key)."
  retryAfterSecs := quota.retryAfterSecs
  queuePosition := none

/-- The locked section of `acquire`: the state of the key is made if there is
none, and keeps its refilled bucket also when the request is refused. -/
def acquireSlot (promptTokens : ℕ) : Except RateLimited Unit × Limiter :=
  let state := (limiter.keys.find keyId).getD (.fresh quota now keyId)
  let keep (state : KeyState) : Limiter := { limiter with keys := limiter.keys.put state }
  if 0 < quota.maxConcurrent.toNat ∧ quota.maxConcurrent.toNat < fetchAdd state.concurrent then
    (.error (concurrencyLimit quota), keep state)
  else if 0 < quota.tokensPerMin.toNat then
    match state.bucket.tryTake now (max promptTokens 1 : ℕ) with
    | (true, bucket) =>
      (.ok (), keep { state with concurrent := fetchAdd state.concurrent, bucket := bucket })
    | (false, bucket) => (.error (tokenLimit quota), keep { state with bucket := bucket })
  else (.ok (), keep { state with concurrent := fetchAdd state.concurrent })

/-- Nothing is charged for no tokens, or to a key without a state. -/
def chargeTokens (tokens : ℕ) : Limiter :=
  if tokens = 0 then limiter
  else
    match limiter.keys.find keyId with
    | some state =>
      { limiter with
        keys := limiter.keys.replace { state with bucket := state.bucket.charge now tokens } }
    | none => limiter

def releaseSlot : Limiter :=
  { limiter with
    keys :=
      match limiter.keys.find keyId with
      | some state =>
        limiter.keys.replace { state with concurrent := state.concurrent - 1 }
      | none => limiter.keys }

/-- What dropping a guard does. -/
def release : Limiter :=
  { globalInflight := fetchSub limiter.globalInflight
    keys :=
      match limiter.keys.find keyId with
      | some state =>
        limiter.keys.replace { state with concurrent := state.concurrent - 1 }
      | none => limiter.keys }

end Limiter

end Purser.GatewayQuota
