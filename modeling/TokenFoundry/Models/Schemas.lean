import TokenFoundry.Models.Enums
import Mathlib.Data.Int.Notation

/-!
# Request bodies (`app/models/schemas.py`)

The body of a key creation.  A body that the schema rejects never reaches a handler, so the
checks are fields of the structure.
-/

set_option autoImplicit false

namespace TokenFoundry

/-- The `NONE` tier counts as no quota, just as a missing one does. -/
def hasTier (tier : Option TokenQuotaTier) : Bool := tier.any (fun t => t ≠ .none)

/-- `VirtualKeyCreate`: the bounds of `tokens_per_minute` and the validator `_quota_pair`.  A tier
needs a period, and a period needs a tier. -/
structure VirtualKeyCreate where
  projectId : String
  tokensPerMinute : Option ℤ
  tokenQuotaTier : Option TokenQuotaTier
  tokenQuotaPeriod : Option TokenQuotaPeriod
  tpm_bounds : ∀ n ∈ tokensPerMinute, 0 < n ∧ n ≤ 100000000
  quota_pair : hasTier tokenQuotaTier = tokenQuotaPeriod.isSome

end TokenFoundry
