import TokenFoundry.Services.UsageIngest

/-!
# Usage and billing (`app/api/usage.py`)

The endpoints that read the usage store for one tenant.  What they read from the database (the
keys of the tenant, the names of projects and accounts) is `Directory`; the clock is read where
the source reads it.
-/

set_option autoImplicit false

namespace TokenFoundry
namespace Usage

open UsageIngest

variable {K : Type} [PyFloat K]

/-- What the endpoints read from the database: which keys, projects and hubs there are, and how they
are called. -/
structure Directory where
  /-- `_tenant_key_ids`. -/
  tenantKeyIds : String → List String
  /-- `_key_project_map`: the project of a key of the tenant. -/
  keyProjects : String → List (String × String × String)
  /-- `_hub_login_map`. -/
  hubLogins : List (String × String)
  /-- `_project_names_for`. -/
  projectNames : List String → List (String × String)

/-- `_MAX_WINDOW_HOURS`: no window is longer than ninety days. -/
def maxWindowHours : ℤ := 24 * 90

/-- The ticks of an hour, in microseconds. -/
def ticksPerHour : ℕ := 3600000000

/-- `_window_since`: the text of the time at which the window begins.  The length is put between one
hour and the longest window; without a length there is no beginning. -/
def windowSince (hours : Option ℤ) (now : Datetime) : Except Failure (Option String) :=
  match hours with
  | none => return none
  | some hours =>
      match now.shift (-(min (max hours 1) maxWindowHours * ticksPerHour)) with
      | none => throw .overflow
      | some since => return some since.isoformat

/-! ## Rows -/

/-- `(usage.get(key) or {})`, of which something is to be read; what is no dictionary raises. -/
def details (usage : Dict K) (name : String) : Except Failure (Dict K) :=
  match (Json.get usage name).orElse (.dict []) with
  | .dict d => return d
  | _ => throw .attribute

/-- The cached tokens of a provider's `usage`, which stand in different places. -/
def cachedTokens (usage : Dict K) : Except Failure (Json K) := do
  let read := Json.get usage "cache_read_input_tokens"
  if read.truthy then return read
  else
    let prompt := Json.get (← details usage "prompt_tokens_details") "cached_tokens"
    if prompt.truthy then return prompt
    else return (Json.get (← details usage "input_tokens_details") "cached_tokens").orElse (.int 0)

/-- The `usage` of the raw response, if the document carries one. -/
def rawUsage (record : Document K) : Option (Dict K) :=
  match Json.get record "raw_response" with
  | .dict raw =>
      match Json.get raw "usage" with
      | .dict usage => some usage
      | _ => none
  | _ => none

/-- A document with token columns, as the importer writes them; others hold the raw response. -/
def flat (record : Document K) : Bool :=
  Json.has record "prompt_tok" || Json.has record "completion_tok"

/-- `_extract_tokens`: the prompt, completion and cached tokens, from the columns or from the raw
response. -/
def extractTokens (py : Runtime K) (record : Document K) : Except Failure (ℤ × ℤ × ℤ) :=
  if flat record then do
    return (← countField py record "prompt_tok", ← countField py record "completion_tok",
      ← countField py record "cached_tok")
  else match rawUsage record with
    | none => return (0, 0, 0)
    | some usage => do
        let prompt := (Json.getD usage "prompt_tokens"
          (Json.getD usage "input_tokens" (.int 0))).orElse (.int 0)
        let completion := (Json.getD usage "completion_tokens"
          (Json.getD usage "output_tokens" (.int 0))).orElse (.int 0)
        let cached ← cachedTokens usage
        return (← prompt.toInt py, ← completion.toInt py, ← cached.toInt py)

/-- `_extract_cache_write`: from its column, or from the raw response. -/
def extractCacheWrite (py : Runtime K) (record : Document K) : Except Failure ℤ :=
  if Json.has record "cache_write_tok" then countField py record "cache_write_tok"
  else match rawUsage record with
    | none => return 0
    | some usage => countField py usage "cache_creation_input_tokens"

/-! ## The summary -/

/-- `UsageSummary`: the totals of a tenant. -/
structure UsageSummary (K : Type) where
  tenantId : String
  totalPromptTok : ℤ
  totalCompletionTok : ℤ
  totalCostUsd : K
  totalBilledUsd : K

/-- The defaults of a summary, with which the loop begins. -/
def UsageSummary.blank (tenantId : String) : UsageSummary K :=
  ⟨tenantId, 0, 0, PyFloat.lit 0, PyFloat.lit 0⟩

/-- One round of the loop: the tokens and the amounts of a row are added. -/
def UsageSummary.add (py : Runtime K) (summary : UsageSummary K) (row : Document K) :
    Except Failure (UsageSummary K) := do
  let (prompt, completion, _) ← extractTokens py row
  let cost ← amountField py row "cost_usd"
  let billed ← amountField py row "billed_usd"
  return { summary with
    totalPromptTok := summary.totalPromptTok + prompt
    totalCompletionTok := summary.totalCompletionTok + completion
    totalCostUsd := PyFloat.add summary.totalCostUsd cost
    totalBilledUsd := PyFloat.add summary.totalBilledUsd billed }

/-- The places of an amount in a summary, to which the sums are rounded at the end. -/
def summaryPlaces : ℕ := 4

/-- `_summarize`: the sums over the rows, of which the amounts are rounded. -/
def summarize (py : Runtime K) (tenantId : String) (rows : List (Document K)) :
    Except Failure (UsageSummary K) := do
  let summary ← rows.foldlM (UsageSummary.add py) (UsageSummary.blank tenantId)
  return { summary with
    totalCostUsd := PyFloat.round summary.totalCostUsd summaryPlaces
    totalBilledUsd := PyFloat.round summary.totalBilledUsd summaryPlaces }

/-- The default `limit` of `query_by_subscriptions`: a summary reads the newest rows, and no more
than these. -/
def defaultLimit : ℕ := 1000

/-- `my_usage`, for the tenant of the token: the rows of its own keys in the window. -/
def myUsage (py : Runtime K) (dir : Directory) (store : UsageStore K) (tenantId : String)
    (hours : Option ℤ) (now : Datetime) : Except Failure (UsageSummary K) := do
  let rows := store.queryBySubscriptions (dir.tenantKeyIds tenantId) defaultLimit 0
    (← windowSince hours now)
  summarize py tenantId rows

/-- `tenant_usage`, for the tenant of the path, which only an operator can ask for. -/
def tenantUsage (py : Runtime K) (dir : Directory) (store : UsageStore K) (tenantId : String)
    (hours : Option ℤ) (now : Datetime) : Except Failure (UsageSummary K) := do
  let rows := store.queryBySubscriptions (dir.tenantKeyIds tenantId) defaultLimit 0
    (← windowSince hours now)
  summarize py tenantId rows

/-! ## The call log -/

/-- A row of the call log, with the project of its key. -/
structure RecordView (K : Type) where
  ts : Json K
  subscription : Json K
  projectId : Option String
  projectName : Option String
  route : Json K
  api : Json K
  status : Option ℤ
  promptTok : ℤ
  completionTok : ℤ
  cachedTok : ℤ
  cacheWriteTok : ℤ
  costUsd : K
  billedUsd : K
  costSource : Json K
  estimated : Bool
  streamed : Bool

/-- The entry of a dictionary under a value; a list or a dictionary cannot be looked up. -/
def lookupUnder {α : Type} (entries : List (String × α)) : Json K → Except Failure (Option α)
  | .str s => return entries.lookup s
  | .list _ | .dict _ => throw .type
  | _ => return none

/-- An `int` is passed through, a truth value as a number. -/
def intOrNone : Json K → Option ℤ
  | .int n => some n
  | .bool b => some b.toNat
  | _ => none

/-- `_to_record_view`: the row as the call log shows it; the project is looked up among those of the
tenant. -/
def toRecordView (py : Runtime K) (keyProjects : List (String × String × String))
    (r : Document K) : Except Failure (RecordView K) := do
  let (prompt, completion, cached) ← extractTokens py r
  let sub := (Json.get r "subscription").orElse (Json.get r "subscription_id")
  let proj ← lookupUnder keyProjects (sub.orElse (.str ""))
  let cacheWrite ← extractCacheWrite py r
  let cost ← amountField py r "cost_usd"
  let billed ← amountField py r "billed_usd"
  return {
    ts := Json.get r "ts"
    subscription := sub
    projectId := proj.map Prod.fst
    projectName := proj.map Prod.snd
    route := Json.getD r "route" (.str "unknown")
    api := Json.get r "api"
    status := intOrNone (Json.get r "status")
    promptTok := prompt
    completionTok := completion
    cachedTok := cached
    cacheWriteTok := cacheWrite
    costUsd := cost
    billedUsd := billed
    costSource := Json.get r "cost_source"
    estimated := (Json.get r "estimated").truthy
    streamed := (Json.get r "streamed").truthy }

/-- What `tenant_usage_records` answers: a page, and how many rows there are in all. -/
structure RecordsPage (K : Type) where
  items : List (RecordView K)
  total : ℕ
  page : ℤ
  pageSize : ℤ
  hours : Option ℤ

/-- `tenant_usage_records`: the page and its size are put into their ranges, and the rows of the
tenant's keys are shown. -/
def tenantUsageRecords (py : Runtime K) (dir : Directory) (store : UsageStore K)
    (tenantId : String) (page pageSize : ℤ) (hours : Option ℤ) (now : Datetime) :
    Except Failure (RecordsPage K) := do
  let page := max 1 page
  let pageSize := max 1 (min pageSize 200)
  let keyIds := dir.tenantKeyIds tenantId
  let since ← windowSince hours now
  let rows := store.queryBySubscriptions keyIds pageSize.toNat ((page - 1) * pageSize).toNat since
  let items ← rows.mapM (toRecordView py (dir.keyProjects tenantId))
  return ⟨items, store.countBySubscriptions keyIds since, page, pageSize, hours⟩

/-! ## The breakdown -/

/-- What a breakdown answers; the groups carry a label where a name is known. -/
structure Breakdown (K : Type) where
  by' : String
  hours : ℤ
  bucket : String
  groups : List (String × Bucket K × Option String)
  trend : List (Point K)
  totals : Bucket K

/-- The canonical name of a dimension; one that is not known counts as the model. -/
def canonicalDim (by' : String) : String :=
  let renamed := if by' = "endpoint" then "api" else if by' = "hub" then "backend" else by'
  if (aggDims.lookup renamed).isSome then renamed else "model"

/-- The names of a dimension's groups, for the groups that have an id. -/
def labels (dir : Directory) (dim : String) (ids : List String) : List (String × String) :=
  if dim = "backend" then dir.hubLogins
  else if dim = "subscription" then dir.projectNames (ids.filter (fun id => id ≠ ""))
  else []

/-- `_usage_breakdown_payload` with `_label_groups`.  The clock is read for the start of the
window and again for the trend. -/
def breakdown (py : Runtime K) (dir : Directory) (store : UsageStore K)
    (keyIds : Option (List String)) (hours : ℤ) (by' : String) (now now' : Datetime) :
    Except Failure (Breakdown K) := do
  let dim := canonicalDim by'
  let hours := min (max hours 1) maxWindowHours
  let since ← windowSince (some hours) now
  let groups ← store.costBreakdown py keyIds since dim
  let trend ← store.costTrend py keyIds since hours now'
  let totals ← store.costTotals py keyIds since
  let names := labels dir dim (groups.map Prod.fst)
  return {
    by' := dim
    hours := hours
    bucket := if hourly hours then "hour" else "day"
    groups := groups.map (fun g => (g.1, g.2, (names.lookup g.1).filter (fun n => n ≠ "")))
    trend := trend
    totals := totals }

/-- `my_usage_breakdown`, for the tenant of the token: the breakdown over its own keys. -/
def myUsageBreakdown (py : Runtime K) (dir : Directory) (store : UsageStore K) (tenantId : String)
    (hours : ℤ) (by' : String) (now now' : Datetime) : Except Failure (Breakdown K) :=
  breakdown py dir store (some (dir.tenantKeyIds tenantId)) hours by' now now'

end Usage
end TokenFoundry
