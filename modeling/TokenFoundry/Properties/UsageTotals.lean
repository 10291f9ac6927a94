import TokenFoundry.Services.UsageIngest
import Mathlib.Algebra.BigOperators.Group.List.Basic

/-!
# What the totals add up

In exact arithmetic `cost_totals` is a sum: over the rows that it fetches, of what each of them has
in its columns (`foldlM_accumulate`).  The order of the rows does not matter, and up to the cap they
are all the documents of the query (`costTotals_eq`).
-/

set_option autoImplicit false

namespace TokenFoundry
namespace UsageIngest

open Billing (TokenField Tokens)

/-! ## One row -/

section Rows

variable {K : Type} [PyFloat K]

/-- Every column of a row can be read as a number. -/
structure Readable (py : Runtime K) (row : Document K) : Prop where
  tokens : ∀ field : TokenField, (countField py row field.key).isOk = true
  cost : (amountField py row "cost_usd").isOk = true
  billed : (amountField py row "billed_usd").isOk = true

/-- The number of a token column, and 0 where reading it raises; the lemmas ask for readable
rows. -/
def tokensIn (py : Runtime K) (row : Document K) (field : TokenField) : ℤ :=
  match countField py row field.key with
  | .ok n => n
  | .error _ => 0

/-- The number of a column with an amount, likewise. -/
def amountIn (py : Runtime K) (row : Document K) (field : String) : K :=
  match amountField py row field with
  | .ok x => x
  | .error _ => PyFloat.lit 0

lemma countField_ok {py : Runtime K} {row : Document K} (h : Readable py row) (field : TokenField) :
    countField py row field.key = .ok (tokensIn py row field) := by
  have hok := h.tokens field
  unfold tokensIn
  cases hread : countField py row field.key with
  | ok n => rfl
  | error f =>
      rw [hread] at hok
      cases hok

lemma amountField_ok {py : Runtime K} {row : Document K} {field : String}
    (h : (amountField py row field).isOk = true) :
    amountField py row field = .ok (amountIn py row field) := by
  unfold amountIn
  cases hread : amountField py row field with
  | ok x => rfl
  | error f =>
      rw [hread] at h
      cases h

/-- The bucket with a row in it, which is one step of the accumulation. -/
def Bucket.withRow (py : Runtime K) (bucket : Bucket K) (row : Document K) : Bucket K :=
  { bucket.countCall (Json.get row "status") with
    tokens := fun field => bucket.tokens field + tokensIn py row field
    costUsd := PyFloat.add bucket.costUsd (amountIn py row "cost_usd")
    billedUsd := PyFloat.add bucket.billedUsd (amountIn py row "billed_usd") }

omit [PyFloat K] in
lemma countCall_calls (bucket : Bucket K) (status : Json K) :
    (bucket.countCall status).calls = bucket.calls + 1 := by
  unfold Bucket.countCall
  cases failedStatus status <;> rfl

omit [PyFloat K] in
/-- Only the counts of calls depend on the status, so the sums can be followed without it. -/
lemma countCall_sums (bucket : Bucket K) (status : Json K) :
    (bucket.countCall status).tokens = bucket.tokens ∧
      (bucket.countCall status).costUsd = bucket.costUsd ∧
      (bucket.countCall status).billedUsd = bucket.billedUsd := by
  unfold Bucket.countCall
  cases failedStatus status <;> exact ⟨rfl, rfl, rfl⟩

lemma accumulate_eq {py : Runtime K} {row : Document K} (h : Readable py row) (bucket : Bucket K) :
    accumulate py bucket row = .ok (bucket.withRow py row) := by
  obtain ⟨htokens, hcost, hbilled⟩ := countCall_sums bucket (Json.get row "status")
  unfold accumulate
  simp only [tokenFields, List.foldlM_cons, List.foldlM_nil, countField_ok h, htokens, hcost,
    hbilled, amountField_ok h.cost, amountField_ok h.billed]
  change Except.ok _ = Except.ok _
  simp only [Bucket.withRow, Except.ok.injEq, Bucket.mk.injEq, true_and, and_true]
  funext field
  cases field <;> simp [Function.update]

/-- A row that has been added has been read, in all of its columns. -/
lemma readable_of_accumulate {py : Runtime K} {bucket totals : Bucket K} {row : Document K}
    (h : accumulate py bucket row = .ok totals) : Readable py row := by
  have hread : ∀ {field : TokenField} {n : ℤ}, countField py row field.key = .ok n →
      (countField py row field.key).isOk = true := fun h => by rw [h]; rfl
  obtain ⟨tokens, htokens, h⟩ := Outcomes.bind_eq_ok.1 h
  obtain ⟨cost, hcost, h⟩ := Outcomes.bind_eq_ok.1 h
  obtain ⟨billed, hbilled, -⟩ := Outcomes.bind_eq_ok.1 h
  simp only [tokenFields, List.foldlM_cons, List.foldlM_nil] at htokens
  obtain ⟨t₁, h₁, htokens⟩ := Outcomes.bind_eq_ok.1 htokens
  obtain ⟨prompt, hprompt, -⟩ := Outcomes.bind_eq_ok.1 h₁
  obtain ⟨t₂, h₂, htokens⟩ := Outcomes.bind_eq_ok.1 htokens
  obtain ⟨cached, hcached, -⟩ := Outcomes.bind_eq_ok.1 h₂
  obtain ⟨t₃, h₃, htokens⟩ := Outcomes.bind_eq_ok.1 htokens
  obtain ⟨cacheWrite, hcacheWrite, -⟩ := Outcomes.bind_eq_ok.1 h₃
  obtain ⟨t₄, h₄, -⟩ := Outcomes.bind_eq_ok.1 htokens
  obtain ⟨completion, hcompletion, -⟩ := Outcomes.bind_eq_ok.1 h₄
  constructor
  · intro field
    cases field with
    | promptTok => exact hread hprompt
    | completionTok => exact hread hcompletion
    | cachedTok => exact hread hcached
    | cacheWriteTok => exact hread hcacheWrite
  · rw [hcost]
    rfl
  · rw [hbilled]
    rfl

lemma readable_of_foldlM {py : Runtime K} {rows : List (Document K)} {bucket totals : Bucket K}
    (h : rows.foldlM (accumulate py) bucket = .ok totals) : ∀ row ∈ rows, Readable py row := by
  induction rows generalizing bucket with
  | nil => simp
  | cons row rows ih =>
      rw [List.foldlM_cons] at h
      obtain ⟨next, hrow, hrest⟩ := Outcomes.bind_eq_ok.1 h
      intro r hr
      rcases List.mem_cons.1 hr with rfl | hr
      · exact readable_of_accumulate hrow
      · exact ih hrest r hr

/-! ### The selected columns -/

section Columns

variable {columns : List String} (hcolumns : aggColumns ⊆ columns) (py : Runtime K)
  (d : Document K)

include hcolumns

lemma countField_project (field : TokenField) :
    countField py (project columns d) field.key = countField py d field.key := by
  have hcolumn : field.key ∈ aggColumns := by cases field <;> decide
  simp only [countField, get_project (hcolumns hcolumn)]

lemma amountField_project {field : String} (h : field ∈ aggColumns) :
    amountField py (project columns d) field = amountField py d field := by
  simp only [amountField, get_project (hcolumns h)]

lemma tokensIn_project (field : TokenField) :
    tokensIn py (project columns d) field = tokensIn py d field := by
  simp only [tokensIn, countField_project hcolumns]

lemma amountIn_project {field : String} (h : field ∈ aggColumns) :
    amountIn py (project columns d) field = amountIn py d field := by
  simp only [amountIn, amountField_project hcolumns py d h]

variable {py d}

lemma readable_project : Readable py (project columns d) ↔ Readable py d := by
  have hcost : amountField py (project columns d) "cost_usd" = amountField py d "cost_usd" :=
    amountField_project hcolumns py d (by decide)
  have hbilled : amountField py (project columns d) "billed_usd" = amountField py d "billed_usd" :=
    amountField_project hcolumns py d (by decide)
  constructor
  · rintro ⟨htokens, hc, hb⟩
    exact ⟨fun field => by rw [← countField_project hcolumns]; exact htokens field, hcost ▸ hc,
      hbilled ▸ hb⟩
  · rintro ⟨htokens, hc, hb⟩
    exact ⟨fun field => by rw [countField_project hcolumns]; exact htokens field, hcost.symm ▸ hc,
      hbilled.symm ▸ hb⟩

/-- The selected columns are all that a bucket takes from a row. -/
lemma withRow_project (bucket : Bucket K) :
    bucket.withRow py (project columns d) = bucket.withRow py d := by
  have hstatus : Json.get (project columns d) "status" = Json.get d "status" :=
    get_project (hcolumns (by decide)) d
  simp only [Bucket.withRow, hstatus, tokensIn_project hcolumns,
    amountIn_project hcolumns py d (show "cost_usd" ∈ aggColumns by decide),
    amountIn_project hcolumns py d (show "billed_usd" ∈ aggColumns by decide)]

end Columns

end Rows

/-! ## All rows -/

section Sums

variable {py : Runtime ℚ}

/-- The totals are those of before, and the sums over the rows. -/
lemma foldlM_accumulate {rows : List (Document ℚ)} (h : ∀ row ∈ rows, Readable py row)
    (bucket : Bucket ℚ) :
    ∃ totals, rows.foldlM (accumulate py) bucket = .ok totals ∧
      totals.calls = bucket.calls + rows.length ∧
      (∀ field, totals.tokens field =
        bucket.tokens field + (rows.map (fun row => tokensIn py row field)).sum) ∧
      totals.costUsd = bucket.costUsd + (rows.map (fun row => amountIn py row "cost_usd")).sum ∧
      totals.billedUsd =
        bucket.billedUsd + (rows.map (fun row => amountIn py row "billed_usd")).sum := by
  induction rows generalizing bucket with
  | nil => exact ⟨bucket, rfl, by simp⟩
  | cons row rows ih =>
      obtain ⟨totals, hfold, hcalls, htokens, hcost, hbilled⟩ :=
        ih (fun r hr => h r (List.mem_cons_of_mem row hr)) (bucket.withRow py row)
      refine ⟨totals, ?_, ?_, fun field => ?_, ?_, ?_⟩
      · rw [List.foldlM_cons, accumulate_eq (h row List.mem_cons_self)]
        exact hfold
      · rw [hcalls, List.length_cons]
        change (bucket.countCall _).calls + _ = _
        rw [countCall_calls]
        omega
      · rw [htokens, List.map_cons, List.sum_cons, ← add_assoc]
        rfl
      · rw [hcost, List.map_cons, List.sum_cons, ← add_assoc]
        rfl
      · rw [hbilled, List.map_cons, List.sum_cons, ← add_assoc]
        rfl

/-- The totals of some documents, of which the query has selected the columns. -/
lemma foldlM_columns {docs : List (Document ℚ)} (h : ∀ d ∈ docs, Readable py d) :
    ∃ totals, (docs.map (project aggColumns)).foldlM (accumulate py) blank = .ok totals ∧
      totals.calls = docs.length ∧
      (∀ field, totals.tokens field = (docs.map (fun d => tokensIn py d field)).sum) ∧
      totals.costUsd = (docs.map (fun d => amountIn py d "cost_usd")).sum ∧
      totals.billedUsd = (docs.map (fun d => amountIn py d "billed_usd")).sum := by
  have hrows : ∀ row ∈ docs.map (project aggColumns), Readable py row := by
    intro row hrow
    obtain ⟨d, hd, rfl⟩ := List.mem_map.1 hrow
    exact (readable_project (List.Subset.refl _)).2 (h d hd)
  obtain ⟨totals, hfold, hcalls, htokens, hcost, hbilled⟩ := foldlM_accumulate hrows blank
  refine ⟨totals, hfold, ?_, fun field => ?_, ?_, ?_⟩
  · rw [hcalls, List.length_map]
    exact Nat.zero_add _
  · rw [htokens, List.map_map]
    simp only [Function.comp_def, tokensIn_project (List.Subset.refl _)]
    exact zero_add _
  · rw [hcost, List.map_map]
    simp only [Function.comp_def,
      amountIn_project (List.Subset.refl _) py _ (show "cost_usd" ∈ aggColumns by decide)]
    change ((0 : ℕ) : ℚ) + _ = _
    rw [Nat.cast_zero, zero_add]
  · rw [hbilled, List.map_map]
    simp only [Function.comp_def,
      amountIn_project (List.Subset.refl _) py _ (show "billed_usd" ∈ aggColumns by decide)]
    change ((0 : ℕ) : ℚ) + _ = _
    rw [Nat.cast_zero, zero_add]

/-- **The totals of a query** are the sums over its documents, up to the cap. -/
lemma costTotals_eq {store : UsageStore ℚ} {subscriptionIds : Option (List String)}
    {sinceIso : Option String} (hendpoint : store.endpoint = true)
    (hkeys : subscriptionIds ≠ some []) {docs : List (Document ℚ)}
    (hdocs : docs.Perm
      (store.container.docs.filter (aggWhere (subscriptionIds.getD []) sinceIso)))
    (hfew : docs.length ≤ maxRows) (hread : ∀ d ∈ docs, Readable py d) :
    ∃ totals, store.costTotals py subscriptionIds sinceIso = .ok totals ∧
      totals.calls = docs.length ∧
      (∀ field, totals.tokens field = (docs.map (fun d => tokensIn py d field)).sum) ∧
      totals.costUsd = (docs.map (fun d => amountIn py d "cost_usd")).sum ∧
      totals.billedUsd = (docs.map (fun d => amountIn py d "billed_usd")).sum := by
  set selected := store.container.docs.filter (aggWhere (subscriptionIds.getD []) sinceIso)
  have hperm : (store.engine.order selected).Perm docs :=
    (store.engine.perm selected).trans hdocs.symm
  have hrows : store.fetchAggRows subscriptionIds sinceIso [] =
      (store.engine.order selected).map (project aggColumns) := by
    unfold UsageStore.fetchAggRows UsageStore.select
    rw [List.drop_zero, List.take_of_length_le (by rw [hperm.length_eq]; exact hfew),
      List.append_nil]
  obtain ⟨totals, hfold, hcalls, htokens, hcost, hbilled⟩ :=
    foldlM_columns (fun d hd => hread d (hperm.mem_iff.1 hd))
  refine ⟨totals, ?_, hcalls.trans hperm.length_eq, fun field => ?_, ?_, ?_⟩
  · unfold UsageStore.costTotals
    rw [if_neg (by simp [hendpoint, hkeys]), hrows]
    exact hfold
  · rw [htokens, (hperm.map _).sum_eq]
  · rw [hcost, (hperm.map _).sum_eq]
  · rw [hbilled, (hperm.map _).sum_eq]

end Sums

end UsageIngest
end TokenFoundry
