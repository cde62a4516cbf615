import Uplink.Json.Record

/-!
# Waiting between attempts
-/

namespace Uplink

/-- How long a component waits before it tries again. -/
structure RetryPolicy where
  /-- The time between two attempts, in milliseconds. -/
  interval : UInt64 := 5000
  deriving DecidableEq, Repr, Inhabited

namespace RetryPolicy

/-- The policy as JSON. -/
def toJson (policy : RetryPolicy) : Json :=
  .object [("retryInterval", .nat policy.interval.toNat)]

/-- The policy that a document denotes. -/
def ofDocument? {σ : Type} [Document σ] (document : σ) : Option RetryPolicy := do
  let record ← Document.record? ["retryInterval"] document
  let interval ← record.getD "retryInterval" ({} : RetryPolicy).interval Document.count?
  return { interval }

end RetryPolicy
end Uplink
