import TokenFoundry.Framework.Datetime
import TokenFoundry.Services.Billing
import Mathlib.Data.List.Nodup

/-!
# The usage store (`app/services/usage_ingest.py`)

`UsageStore`: the container of usage documents, the queries over it, and the aggregations that
are computed from the rows of a query.

A document is identified by its partition key and its id.  The service evaluates a query by
filtering, ordering by `ts` with the newest first, and cutting a page out; how it breaks ties is
its own business (`Engine`).
-/

set_option autoImplicit false

namespace TokenFoundry
namespace UsageIngest

open Billing (TokenField Tokens)

variable {K : Type}

/-! ## Documents -/

abbrev Document (K : Type) := Dict K

/-- A field that holds a text, or the empty text for one that does not. -/
def textField (d : Document K) (field : String) : String :=
  match Json.get d field with
  | .str s => s
  | _ => ""

/-- What identifies a document in the container: its partition and its id. -/
def key (d : Document K) : String × String := (textField d "pk", textField d "id")

/-- `upsert_item` on the documents of a container: a document with the same key is replaced where it
stands. -/
def put (d : Document K) : List (Document K) → List (Document K)
  | [] => [d]
  | x :: xs => if key x = key d then d :: xs else x :: put d xs

lemma mem_put {d x : Document K} {ds : List (Document K)} (h : x ∈ put d ds) :
    x = d ∨ x ∈ ds := by
  induction ds with
  | nil => exact .inl (List.mem_singleton.1 h)
  | cons y ys ih =>
      unfold put at h
      split_ifs at h with hy
      · rcases List.mem_cons.1 h with rfl | hx
        · exact .inl rfl
        · exact .inr (List.mem_cons_of_mem y hx)
      · rcases List.mem_cons.1 h with rfl | hx
        · exact .inr List.mem_cons_self
        · exact (ih hx).imp id (List.mem_cons_of_mem y)

lemma map_key_put (d : Document K) (ds : List (Document K)) :
    (put d ds).map key = if key d ∈ ds.map key then ds.map key else ds.map key ++ [key d] := by
  induction ds with
  | nil => rfl
  | cons x xs ih =>
      unfold put
      by_cases hx : key x = key d
      · simp [hx]
      · rw [if_neg hx, List.map_cons, ih]
        by_cases hmem : key d ∈ xs.map key
        · rw [if_pos hmem, if_pos (by simp [hmem]), List.map_cons]
        · rw [if_neg hmem, if_neg (by simp [hmem, Ne.symm hx]), List.map_cons, List.cons_append]

/-- The container: every key once, as an item of the service has its key to itself. -/
structure Container (K : Type) where
  docs : List (Document K)
  nodup : (docs.map key).Nodup

def Container.empty : Container K := ⟨[], List.nodup_nil⟩

/-- `UsageStore.upsert`: after it the document is there, whether or not it was before. -/
def Container.upsert (c : Container K) (d : Document K) : Container K where
  docs := put d c.docs
  nodup := by
    rw [map_key_put]
    split_ifs with h
    · exact c.nodup
    · exact List.nodup_append.2 ⟨c.nodup, List.nodup_singleton _, by
        rintro a ha b hb rfl
        exact h (List.mem_singleton.1 hb ▸ ha)⟩

/-! ## Queries -/

/-- How the service orders the documents that a query has selected. -/
structure Engine (K : Type) where
  order : List (Document K) → List (Document K)
  perm : ∀ ds, (order ds).Perm ds
  newestFirst : ∀ ds, (order ds).Pairwise (fun d d' => textField d' "ts" ≤ textField d "ts")
  /-- Ties are broken among the selected documents only. -/
  agree : ∀ ds ds', ds.Perm ds' → order ds = order ds'

/-- A `UsageStore` with the service behind it.  Without an endpoint, every query answers nothing. -/
structure UsageStore (K : Type) where
  /-- An endpoint is configured. -/
  endpoint : Bool
  engine : Engine K
  container : Container K

/-- The clause that `_agg_where` builds: no keys and no start are no conditions. -/
def aggWhere (subscriptionIds : List String) (sinceIso : Option String) (d : Document K) : Bool :=
  (subscriptionIds.isEmpty || match Json.get d "subscription" with
    | .str s => subscriptionIds.contains s
    | _ => false) &&
  match sinceIso with
  | none => true
  | some since => since == "" || match Json.get d "ts" with
    | .str ts => decide (since ≤ ts)
    | _ => false

/-- `SELECT * FROM c … ORDER BY c.ts DESC OFFSET @skip LIMIT @n`. -/
def UsageStore.select (store : UsageStore K) (subscriptionIds : List String)
    (sinceIso : Option String) (skip limit : ℕ) : List (Document K) :=
  ((store.engine.order (store.container.docs.filter (aggWhere subscriptionIds sinceIso))).drop
    skip).take limit

/-- `query_by_subscriptions`: the documents of some keys, the newest first, in pages. -/
def UsageStore.queryBySubscriptions (store : UsageStore K) (subscriptionIds : List String)
    (limit skip : ℕ) (sinceIso : Option String) : List (Document K) :=
  if ! store.endpoint || subscriptionIds.isEmpty then []
  else store.select subscriptionIds sinceIso skip limit

/-- `count_by_subscriptions`: how many documents the pages are about. -/
def UsageStore.countBySubscriptions (store : UsageStore K) (subscriptionIds : List String)
    (sinceIso : Option String) : ℕ :=
  if ! store.endpoint || subscriptionIds.isEmpty then 0
  else (store.container.docs.filter (aggWhere subscriptionIds sinceIso)).length

/-- `_TOKEN_FIELDS`: the columns that are summed, in the order of the loop. -/
def tokenFields : List TokenField := [.promptTok, .cachedTok, .cacheWriteTok, .completionTok]

/-- `_MAX_ROWS`: no aggregate reads more rows than these. -/
def maxRows : ℕ := 20000

/-- `_MAX_GROUPS`: no breakdown shows more groups than these. -/
def maxGroups : ℕ := 500

/-- The selected columns of a document, as a query returns them. -/
def project (columns : List String) (d : Document K) : Document K :=
  d.filter (fun p => columns.contains p.1)

/-- The columns that every aggregate needs: the tokens, the amounts and the status. -/
def aggColumns : List String :=
  tokenFields.map TokenField.key ++ ["cost_usd", "billed_usd", "status"]

/-- `_fetch_agg_rows`: the newest rows of some keys, with the columns of the aggregates and those
that are asked for. -/
def UsageStore.fetchAggRows (store : UsageStore K) (subscriptionIds : Option (List String))
    (sinceIso : Option String) (extraFields : List String) : List (Document K) :=
  (store.select (subscriptionIds.getD []) sinceIso 0 maxRows).map
    (project (aggColumns ++ extraFields))

lemma get_project {columns : List String} {field : String} (h : field ∈ columns)
    (d : Document K) : Json.get (project columns d) field = Json.get d field := by
  unfold Json.get project
  congr 1
  induction d with
  | nil => rfl
  | cons p d ih =>
      by_cases hp : p.1 ∈ columns
      · rw [List.filter_cons_of_pos (by simpa using hp), List.lookup_cons, List.lookup_cons, ih]
      · have hne : (field == p.1) = false := by
          rw [beq_eq_false_iff_ne]
          rintro rfl
          exact hp h
        rw [List.filter_cons_of_neg (by simpa using hp), List.lookup_cons, hne, ih]

/-! ## Aggregation -/

/-- A running total over some rows: the calls and how they ended, the tokens and the amounts. -/
structure Bucket (K : Type) where
  calls : ℕ
  okCalls : ℕ
  failedCalls : ℕ
  /-- Counts per status, as the keys came. -/
  failedByStatus : List (String × ℕ)
  tokens : Tokens
  costUsd : K
  billedUsd : K

variable [PyFloat K]

/-- `_blank`: the total over no rows. -/
def blank : Bucket K where
  calls := 0
  okCalls := 0
  failedCalls := 0
  failedByStatus := []
  tokens := Tokens.none
  costUsd := PyFloat.lit 0
  billedUsd := PyFloat.lit 0

/-- `by_status[key] = by_status.get(key, 0) + 1`: a new status goes to the end. -/
def bump (name : String) : List (String × ℕ) → List (String × ℕ)
  | [] => [(name, 1)]
  | (other, n) :: rest => if other = name then (other, n + 1) :: rest else (other, n) ::
      bump name rest

/-- A status that says that the call was refused, if it is an integer and one of failure. -/
def failedStatus : Json K → Option ℤ
  | .int n => if 400 ≤ n then some n else none
  | _ => none

/-- `int(row.get(field) or 0)`: a column that is empty counts as zero. -/
def countField (py : Runtime K) (row : Document K) (field : String) : Except Failure ℤ :=
  ((Json.get row field).orElse (.int 0)).toInt py

/-- `float(row.get(field) or 0.0)`: a column that is empty counts as zero. -/
def amountField (py : Runtime K) (row : Document K) (field : String) : Except Failure K :=
  ((Json.get row field).orElse (.float (PyFloat.lit 0))).toFloat py

/-- Count the call by its status: as one that went through, or as a failure under its status. -/
def Bucket.countCall (bucket : Bucket K) (status : Json K) : Bucket K :=
  match failedStatus status with
  | some n =>
      { bucket with
        calls := bucket.calls + 1
        failedCalls := bucket.failedCalls + 1
        failedByStatus := bump (toString n) bucket.failedByStatus }
  | none => { bucket with calls := bucket.calls + 1, okCalls := bucket.okCalls + 1 }

/-- `_accumulate`: the row is added to the running total, column by column; a column that cannot be
converted raises. -/
def accumulate (py : Runtime K) (bucket : Bucket K) (row : Document K) :
    Except Failure (Bucket K) := do
  let counted := bucket.countCall (Json.get row "status")
  let tokens ← tokenFields.foldlM (fun (tokens : Tokens) field => do
    let n ← countField py row field.key
    return Function.update tokens field (tokens field + n)) counted.tokens
  let cost ← amountField py row "cost_usd"
  let billed ← amountField py row "billed_usd"
  return { counted with
    tokens := tokens
    costUsd := PyFloat.add counted.costUsd cost
    billedUsd := PyFloat.add counted.billedUsd billed }

/-- `cost_totals`: the total over the rows of some keys.  An empty list of keys is answered without
a query; none at all stands for all keys. -/
def UsageStore.costTotals (py : Runtime K) (store : UsageStore K)
    (subscriptionIds : Option (List String)) (sinceIso : Option String) :
    Except Failure (Bucket K) :=
  if ! store.endpoint || decide (subscriptionIds = some []) then return blank
  else (store.fetchAggRows subscriptionIds sinceIso []).foldlM (accumulate py) blank

/-- `_AGG_DIMS`: the dimensions of a breakdown, and the columns that they are about. -/
def aggDims : List (String × String) :=
  [("model", "route"), ("api", "api"), ("subscription", "subscription"), ("backend", "hub_id"),
    ("end_user", "end_user")]

/-- Fold a row into the bucket of its group; a new group goes to the end. -/
def addToGroup (py : Runtime K) (name : String) (row : Document K) :
    List (String × Bucket K) → Except Failure (List (String × Bucket K))
  | [] => do return [(name, ← accumulate py blank row)]
  | (other, bucket) :: rest => do
      if other = name then return (other, ← accumulate py bucket row) :: rest
      else return (other, bucket) :: (← addToGroup py name row rest)

/-- The group of a row: the text of its column, or `unknown` for an empty one. -/
def groupOf (py : Runtime K) (field : String) (row : Document K) : String :=
  ((Json.get row field).orElse (.str "unknown")).text py

/-- `cost_breakdown`: one total for each group, the most expensive first, of which only so many are
shown. -/
def UsageStore.costBreakdown (py : Runtime K) (store : UsageStore K)
    (subscriptionIds : Option (List String)) (sinceIso : Option String) (groupBy : String) :
    Except Failure (List (String × Bucket K)) :=
  if ! store.endpoint || decide (subscriptionIds = some []) then return []
  else match aggDims.lookup groupBy with
    | none => return []
    | some field => do
        let buckets ← (store.fetchAggRows subscriptionIds sinceIso [field]).foldlM
          (fun buckets row => addToGroup py (groupOf py field row) row buckets) []
        return (buckets.mergeSort (fun a b => PyFloat.le b.2.costUsd a.2.costUsd)).take maxGroups

/-! ## The trend -/

/-- `_HOURLY_MAX_HOURS`: longer windows are shown by days. -/
def hourlyMaxHours : ℤ := 48

/-- `trend_bucket`: whether a point of the trend is an hour or a day. -/
def hourly (hours : ℤ) : Bool := decide (hours ≤ hourlyMaxHours)

/-- A point of the trend: the totals of an hour or of a day. -/
structure Point (K : Type) where
  ts : String
  tokens : ℤ
  calls : ℕ
  costUsd : K

/-- The points of a day or an hour begin at its start. -/
def stepTicks (hours : ℤ) : ℕ := if hourly hours then 3600000000 else ticksPerDay

/-- `strftime` with the format of the buckets, by which a row finds its point. -/
def slotName (hours : ℤ) (slot : Datetime) : String :=
  String.ofList (if hourly hours then slot.dateText ++ 'T' :: IsoText.pad 2 slot.hour
    else slot.dateText)

/-- The number of points: the days of a window are rounded up. -/
def pointCount (hours : ℤ) : ℕ :=
  if hourly hours then (max hours 1).toNat else (max ((max hours 1 + 23) / 24) 1).toNat

/-- The rows of the buckets; a row without a text for `ts` has none. -/
def trendBuckets (py : Runtime K) (hours : ℤ) (rows : List (Document K)) :
    Except Failure (List (String × Bucket K)) :=
  rows.foldlM (fun buckets row =>
    match Json.get row "ts" with
    | .str ts =>
        addToGroup py (String.ofList (ts.toList.take (if hourly hours then 13 else 10))) row buckets
    | _ => return buckets) []

/-- One point, `back` steps before the current one: the bucket of that name, or an empty point where
there is none. -/
def trendPoint (hours : ℤ) (buckets : List (String × Bucket K)) (now : Datetime) (back : ℕ) :
    Except Failure (Point K) :=
  match now.shift (-(now.ticks % stepTicks hours + back * stepTicks hours : ℕ)) with
  | none => throw .overflow
  | some slot =>
      match buckets.lookup (slotName hours slot) with
      | none => return ⟨slot.isoformat, 0, 0, PyFloat.lit 0⟩
      | some got =>
          return ⟨slot.isoformat, (tokenFields.map got.tokens).sum, got.calls, got.costUsd⟩

/-- `cost_trend`: the rows are sorted into buckets by the beginning of their times, and the points
of the window are read off, the oldest first. -/
def UsageStore.costTrend (py : Runtime K) (store : UsageStore K)
    (subscriptionIds : Option (List String)) (sinceIso : Option String) (hours : ℤ)
    (now : Datetime) : Except Failure (List (Point K)) :=
  if ! store.endpoint || decide (subscriptionIds = some []) then return []
  else do
    let buckets ← trendBuckets py hours (store.fetchAggRows subscriptionIds sinceIso ["ts"])
    (List.range (pointCount hours)).reverse.mapM (trendPoint hours buckets now)

end UsageIngest
end TokenFoundry
