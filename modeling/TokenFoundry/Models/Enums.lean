import Mathlib.Tactic.Common

/-!
# Shared enumerations and exceptions (`app/models/enums.py`)

The enumerations of the data model with the strings they are stored as, and the exceptions
that the modelled code raises or catches.
-/

set_option autoImplicit false

namespace TokenFoundry

/-- `UserRole`: platform operators and tenant users. -/
inductive UserRole
  | admin
  | customer
  deriving DecidableEq, Repr

/-- `TokenQuotaPeriod`: the fixed window of a token quota. -/
inductive TokenQuotaPeriod
  | hourly
  | daily
  | weekly
  | monthly
  | yearly
  deriving DecidableEq, Repr

/-- The exact strings the gateway accepts as `token-quota-period`; the limits map stores them as
they are. -/
def TokenQuotaPeriod.value : TokenQuotaPeriod → String
  | .hourly => "Hourly"
  | .daily => "Daily"
  | .weekly => "Weekly"
  | .monthly => "Monthly"
  | .yearly => "Yearly"

/-- `TokenQuotaTier`: preset token-quota amounts. -/
inductive TokenQuotaTier
  | none
  | small
  | medium
  | large
  deriving DecidableEq, Repr

/-- The tier label stored in the limits map; the policy of the gateway has the amounts. -/
def TokenQuotaTier.value : TokenQuotaTier → String
  | .none => "none"
  | .small => "small"
  | .medium => "medium"
  | .large => "large"

/-- `TOKEN_QUOTA_AMOUNTS`, in the order in which the dictionary lists the tiers. -/
def tokenQuotaAmounts : List (TokenQuotaTier × ℕ) :=
  [(.small, 1000000), (.medium, 10000000), (.large, 100000000)]

/-- `TenantMode`: whose accounts the tenant's requests are made with. -/
inductive TenantMode
  | resell
  | byo
  | internal
  deriving DecidableEq, Repr

/-- `BudgetScope`: whose keys a budget is about. -/
inductive BudgetScope
  | tenant
  | project
  | key
  deriving DecidableEq, Repr

/-- `BudgetAction`: notify only, or suspend. -/
inductive BudgetAction
  | alert
  | block
  deriving DecidableEq, Repr

/-- `KeyStatus`: what the control plane believes of a key.  The gateway looks at the subscription
and not at this. -/
inductive KeyStatus
  | active
  | suspended
  | expired
  deriving DecidableEq, Repr

/-- `DeployStatus`: lifecycle of a GitHub-account-backed hub, from its deployment to its removal. -/
inductive DeployStatus
  | pending
  | deploying
  | ready
  | failed
  | deleting
  deriving DecidableEq, Repr

/-- The strings the statuses are stored as, and shown as. -/
def DeployStatus.value : DeployStatus → String
  | .pending => "pending"
  | .deploying => "deploying"
  | .ready => "ready"
  | .failed => "failed"
  | .deleting => "deleting"

/-- The exceptions of the modelled code, by the class a handler can tell apart. -/
inductive PyErr
  /-- `fastapi.HTTPException`. -/
  | http (status : ℕ) (detail : String)
  /-- `azure.core.exceptions.ResourceNotFoundError`, a subclass of `HttpResponseError`. -/
  | resourceNotFound
  /-- Any other `azure.core.exceptions.HttpResponseError`. -/
  | httpResponse (status : ℕ)
  /-- `httpx.HTTPStatusError`. -/
  | httpStatus (status : ℕ)
  /-- `terraform_runner.TerraformError`. -/
  | terraform (message : String)
  | valueError (message : String)
  | typeError
  | overflowError
  /-- `sqlalchemy.orm.exc.StaleDataError`: an `UPDATE` matched no row. -/
  | staleData
  /-- `sqlalchemy.exc.IntegrityError`. -/
  | integrity
  /-- `sqlalchemy.exc.PendingRollbackError`: the session was used after a failed flush. -/
  | pendingRollback
  /-- `sqlalchemy.exc.InvalidRequestError`: a refreshed row no longer exists. -/
  | invalidRequest
  /-- Any other exception of an external call (a timeout, a refused connection, …). -/
  | external
  deriving DecidableEq, Repr

/-- `str(exc)`, as it is kept in a row; the texts of library exceptions are left out. -/
def PyErr.text : PyErr → String
  | .http _ detail => detail
  | .valueError message => message
  | .terraform message => message
  | _ => ""

end TokenFoundry
