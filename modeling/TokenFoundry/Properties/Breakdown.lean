import TokenFoundry.Framework.Grouping
import TokenFoundry.Properties.TenantIsolation
import TokenFoundry.Properties.UsageTotals
import Mathlib.Algebra.Order.Monoid.Prod
import Mathlib.Algebra.Order.Pi

/-!
# The breakdown and the totals

The breakdown of a query runs the accumulator of the totals once for each label of its dimension.
All summed fields of a bucket are one additive measure (`Bucket.fields`), and what a row adds to it
does not depend on the bucket; the groups therefore partition the totals, whatever the labels are
(`breakdown_partitions`).  The cut leaves the cheapest groups out.
-/

set_option autoImplicit false

namespace TokenFoundry
namespace UsageIngest

open Billing (TokenField)

/-! ## The loops as folds -/

section Folds

variable {K : Type} [PyFloat K] {py : Runtime K}

/-- The bucket of some rows, computed in one loop. -/
def bucketOf (py : Runtime K) (rows : List (Document K)) : Bucket K :=
  rows.foldl (Bucket.withRow py) blank

lemma foldlM_accumulate_eq {rows : List (Document K)} (h : ∀ row ∈ rows, Readable py row) :
    rows.foldlM (accumulate py) blank = .ok (bucketOf py rows) :=
  foldlM_ok (fun row hrow bucket => accumulate_eq (h row hrow) bucket) blank

lemma addToGroup_eq {row : Document K} (h : Readable py row) (name : String)
    (groups : List (String × Bucket K)) :
    addToGroup py name row groups =
      .ok (Grouping.adjust blank (Bucket.withRow py · row) name groups) := by
  induction groups with
  | nil =>
      rw [addToGroup, accumulate_eq h]
      rfl
  | cons group rest ih =>
      obtain ⟨other, bucket⟩ := group
      rw [addToGroup, Grouping.adjust]
      split_ifs with hother
      · rw [accumulate_eq h]
        rfl
      · rw [ih]
        rfl

lemma foldlM_addToGroup {rows : List (Document K)} (h : ∀ row ∈ rows, Readable py row)
    (label : Document K → String) :
    rows.foldlM (fun buckets row => addToGroup py (label row) row buckets) [] =
      .ok (Grouping.group blank (Bucket.withRow py) label rows) :=
  foldlM_ok (fun row hrow => addToGroup_eq (h row hrow) (label row)) []

omit [PyFloat K] in
/-- The counts per status are a grouping as well, with the number of rows as the value. -/
lemma bump_eq (name : String) (counts : List (String × ℕ)) :
    bump name counts = Grouping.adjust 0 (· + 1) name counts := by
  induction counts with
  | nil => rfl
  | cons count rest ih =>
      obtain ⟨other, n⟩ := count
      rw [bump, Grouping.adjust, ih]

end Folds

/-! ## The summed fields -/

section Counts

variable {K : Type} [PyFloat K] {py : Runtime K}

/-- The counts of a bucket fit together: every call has gone through or failed, and every failure is
counted under its status. -/
structure Bucket.Consistent (bucket : Bucket K) : Prop where
  split : bucket.okCalls + bucket.failedCalls = bucket.calls
  statuses : (bucket.failedByStatus.map Prod.fst).Nodup
  failures : (bucket.failedByStatus.map Prod.snd).sum = bucket.failedCalls

lemma Bucket.Consistent.withRow {bucket : Bucket K} (h : bucket.Consistent) (row : Document K) :
    (bucket.withRow py row).Consistent := by
  obtain ⟨hsplit, hstatuses, hfailures⟩ := h
  unfold Bucket.withRow Bucket.countCall
  cases hstatus : failedStatus (Json.get row "status") with
  | none =>
      constructor
      · show bucket.okCalls + 1 + bucket.failedCalls = bucket.calls + 1
        omega
      · exact hstatuses
      · exact hfailures
  | some n =>
      constructor
      · show bucket.okCalls + (bucket.failedCalls + 1) = bucket.calls + 1
        omega
      · show ((bump (toString n) bucket.failedByStatus).map Prod.fst).Nodup
        rw [bump_eq]
        exact Grouping.nodup_adjust hstatuses
      · show ((bump (toString n) bucket.failedByStatus).map Prod.snd).sum = bucket.failedCalls + 1
        rw [bump_eq, ← hfailures]
        exact Grouping.sum_adjust (f := (· + 1)) (μ := id) rfl (fun _ => rfl) (toString n) _

/-- So they do in the bucket of any rows; the induction is on the rows. -/
lemma consistent_bucketOf (py : Runtime K) (rows : List (Document K)) :
    (bucketOf py rows).Consistent := by
  induction rows using List.reverseRecOn with
  | nil => exact ⟨rfl, List.nodup_nil, rfl⟩
  | append_singleton rows row ih =>
      rw [bucketOf, List.foldl_append]
      exact ih.withRow row

/-- How many calls failed with a status. -/
def Bucket.failuresOf (bucket : Bucket K) (status : String) : ℕ :=
  (bucket.failedByStatus.lookup status).getD 0

end Counts

/-- Calls, ok calls, failed calls and the failures of every status, the tokens of every column, and
the two amounts. -/
abbrev Fields := ℕ × ℕ × ℕ × (String → ℕ) × (TokenField → ℤ) × ℚ × ℚ

def Bucket.fields (bucket : Bucket ℚ) : Fields :=
  (bucket.calls, bucket.okCalls, bucket.failedCalls, bucket.failuresOf, bucket.tokens,
    bucket.costUsd, bucket.billedUsd)

/-- What a row adds to the fields of a bucket. -/
def rowFields (py : Runtime ℚ) (row : Document ℚ) : Fields :=
  let failed := failedStatus (Json.get row "status")
  (1, if failed.isSome then 0 else 1, if failed.isSome then 1 else 0,
    fun status => if failed.map toString = some status then 1 else 0,
    tokensIn py row, amountIn py row "cost_usd", amountIn py row "billed_usd")

section Sums

variable {py : Runtime ℚ}

lemma fields_blank : (blank : Bucket ℚ).fields = 0 := by
  have hzero : (PyFloat.lit 0 : ℚ) = 0 := Nat.cast_zero
  simp only [Bucket.fields, blank, hzero]
  rfl

/-- **A row adds the same** to every bucket, so that the fields of a bucket are a sum over its
rows. -/
lemma fields_withRow (bucket : Bucket ℚ) (row : Document ℚ) :
    (bucket.withRow py row).fields = bucket.fields + rowFields py row := by
  unfold Bucket.withRow Bucket.countCall Bucket.fields rowFields
  cases hstatus : failedStatus (Json.get row "status") with
  | none =>
      refine Prod.ext rfl (Prod.ext rfl (Prod.ext rfl (Prod.ext ?_ rfl)))
      funext status
      exact (Nat.add_zero _).symm
  | some n =>
      refine Prod.ext rfl (Prod.ext rfl (Prod.ext rfl (Prod.ext ?_ rfl)))
      funext status
      show ((bump (toString n) bucket.failedByStatus).lookup status).getD 0 =
        (bucket.failedByStatus.lookup status).getD 0 +
          if some (toString n) = some status then 1 else 0
      rw [bump_eq, Grouping.lookup_adjust]
      by_cases hname : status = toString n
      · subst hname
        simp
      · rw [if_neg hname, if_neg (fun h => hname (Option.some.inj h).symm), Nat.add_zero]

/-- The values of a row are not negative, as upstream reports them. -/
structure NonNegative (py : Runtime ℚ) (row : Document ℚ) : Prop where
  tokens : ∀ field, 0 ≤ tokensIn py row field
  cost : 0 ≤ amountIn py row "cost_usd"
  billed : 0 ≤ amountIn py row "billed_usd"

lemma NonNegative.fields {row : Document ℚ} (h : NonNegative py row) : 0 ≤ rowFields py row :=
  ⟨Nat.zero_le _, Nat.zero_le _, Nat.zero_le _, fun _ => Nat.zero_le _, h.tokens, h.cost, h.billed⟩

lemma fields_bucketOf (rows : List (Document ℚ)) :
    (bucketOf py rows).fields = (rows.map (rowFields py)).sum := by
  rw [bucketOf, Grouping.measure_foldl fields_withRow, fields_blank, zero_add]

end Sums

/-! ## The breakdown -/

/-- The documents that an aggregate reads, before their columns are selected. -/
def UsageStore.aggDocs {K : Type} (store : UsageStore K) (subscriptionIds : Option (List String))
    (sinceIso : Option String) : List (Document K) :=
  if ! store.endpoint || decide (subscriptionIds = some []) then []
  else store.select (subscriptionIds.getD []) sinceIso 0 maxRows

/-- The number of groups that some rows form in a dimension. -/
def groupCount {K : Type} [PyFloat K] (py : Runtime K) (field : String)
    (rows : List (Document K)) : ℕ :=
  (rows.map (groupOf py field)).toFinset.card

/-- The rows of a group, in their order. -/
def groupRows {K : Type} [PyFloat K] (py : Runtime K) (field : String) (rows : List (Document K))
    (name : String) : List (Document K) :=
  rows.filter (fun row => groupOf py field row = name)

/-- The groups of some rows, the costliest ones where they are too many. -/
structure BreaksDown (py : Runtime ℚ) (field : String) (rows : List (Document ℚ))
    (groups : List (String × Bucket ℚ)) : Prop where
  names : (groups.map Prod.fst).Nodup
  occurs : ∀ g ∈ groups, ∃ row ∈ rows, groupOf py field row = g.1
  bucket : ∀ g ∈ groups, g.2 = bucketOf py (groupRows py field rows g.1)
  count : groups.length = min maxGroups (groupCount py field rows)
  costliest : ∀ row ∈ rows, groupOf py field row ∉ groups.map Prod.fst → ∀ g ∈ groups,
    (bucketOf py (groupRows py field rows (groupOf py field row))).costUsd ≤ g.2.costUsd

section Breakdown

variable {py : Runtime ℚ}

lemma costTotals_aggDocs {store : UsageStore ℚ} {subscriptionIds : Option (List String)}
    {sinceIso : Option String}
    (h : ∀ d ∈ store.aggDocs subscriptionIds sinceIso, Readable py d) :
    store.costTotals py subscriptionIds sinceIso =
      .ok (bucketOf py (store.aggDocs subscriptionIds sinceIso)) := by
  unfold UsageStore.costTotals
  unfold UsageStore.aggDocs at h ⊢
  split_ifs at h ⊢ with hnone
  · rfl
  · have hcolumns : aggColumns ⊆ aggColumns ++ [] := List.subset_append_left _ _
    have hrows : ∀ row ∈ store.fetchAggRows subscriptionIds sinceIso [], Readable py row := by
      intro row hrow
      obtain ⟨d, hd, rfl⟩ := List.mem_map.1 hrow
      exact (readable_project hcolumns).2 (h d hd)
    rw [foldlM_accumulate_eq hrows, UsageStore.fetchAggRows, bucketOf, List.foldl_map]
    simp only [withRow_project hcolumns]
    rfl

lemma costBreakdown_aggDocs {store : UsageStore ℚ} {subscriptionIds : Option (List String)}
    {sinceIso : Option String} {groupBy field : String} (hdim : aggDims.lookup groupBy = some field)
    (h : ∀ d ∈ store.aggDocs subscriptionIds sinceIso, Readable py d) :
    store.costBreakdown py subscriptionIds sinceIso groupBy =
      .ok (((Grouping.group blank (Bucket.withRow py) (groupOf py field)
        (store.aggDocs subscriptionIds sinceIso)).mergeSort
          (fun a b => PyFloat.le b.2.costUsd a.2.costUsd)).take maxGroups) := by
  unfold UsageStore.costBreakdown
  unfold UsageStore.aggDocs at h ⊢
  split_ifs at h ⊢ with hnone
  · simp [Grouping.group]
    rfl
  · have hcolumns : aggColumns ⊆ aggColumns ++ [field] := List.subset_append_left _ _
    have hrows : ∀ row ∈ store.fetchAggRows subscriptionIds sinceIso [field], Readable py row := by
      intro row hrow
      obtain ⟨d, hd, rfl⟩ := List.mem_map.1 hrow
      exact (readable_project hcolumns).2 (h d hd)
    have hgroup : ∀ d, groupOf py field (project (aggColumns ++ [field]) d) =
        groupOf py field d := by
      intro d
      rw [groupOf, get_project (by simp), groupOf]
    simp only [hdim]
    rw [foldlM_addToGroup hrows, UsageStore.fetchAggRows, Grouping.group, List.foldl_map]
    simp only [withRow_project hcolumns, hgroup]
    rfl

/-- What the sort and the cut leave of the groups. -/
lemma breaksDown_take (py : Runtime ℚ) (field : String) (rows : List (Document ℚ)) :
    let groups := ((Grouping.group blank (Bucket.withRow py) (groupOf py field) rows).mergeSort
      (fun a b => PyFloat.le b.2.costUsd a.2.costUsd)).take maxGroups
    BreaksDown py field rows groups ∧
      ∃ rest : List (String × Bucket ℚ),
        groups.length + rest.length = groupCount py field rows ∧
        (groups.map (fun g => g.2.fields)).sum + (rest.map (fun g => g.2.fields)).sum =
          (bucketOf py rows).fields ∧
        ∀ g ∈ rest, g.2 = bucketOf py (groupRows py field rows g.1) := by
  intro groups
  set all := Grouping.group blank (Bucket.withRow py) (groupOf py field) rows with hall
  obtain ⟨rest, hperm, hcost, hlength⟩ := Grouping.take_mergeSort
    (fun a b : String × Bucket ℚ => PyFloat.le b.2.costUsd a.2.costUsd)
    (fun a b c hab hbc => by
      have hab : b.2.costUsd ≤ a.2.costUsd := of_decide_eq_true hab
      have hbc : c.2.costUsd ≤ b.2.costUsd := of_decide_eq_true hbc
      exact decide_eq_true (hbc.trans hab))
    (fun a b => by
      rcases le_total a.2.costUsd b.2.costUsd with h | h
      · exact Bool.or_eq_true_iff.2 (.inr (decide_eq_true h))
      · exact Bool.or_eq_true_iff.2 (.inl (decide_eq_true h)))
    maxGroups all
  have hmem : ∀ g, g ∈ groups ∨ g ∈ rest ↔ g ∈ all := fun g => by
    rw [← hperm.mem_iff, List.mem_append]
  have hvalue : ∀ g ∈ all, g.2 = bucketOf py (groupRows py field rows g.1) := fun g hg =>
    Grouping.value_of_mem_group hg
  have hnames : ((groups ++ rest).map Prod.fst).Nodup :=
    (hperm.map Prod.fst).nodup_iff.2 (Grouping.nodup_group rows)
  refine ⟨⟨?_, ?_, ?_, ?_, ?_⟩, rest, ?_, ?_, ?_⟩
  · rw [List.map_append] at hnames
    exact (List.nodup_append.1 hnames).1
  · intro g hg
    exact Grouping.mem_keys_group.1 (List.mem_map_of_mem ((hmem g).1 (.inl hg)))
  · exact fun g hg => hvalue g ((hmem g).1 (.inl hg))
  · rw [hlength, Grouping.length_group]
    rfl
  -- A row of no group that is shown is of one that was cut off, and the sort has put that behind.
  · intro row hrow hnot g hg
    have hkey : groupOf py field row ∈ all.map Prod.fst :=
      Grouping.mem_keys_group.2 ⟨row, hrow, rfl⟩
    obtain ⟨g', hg', hname⟩ := List.mem_map.1 hkey
    have hrest : g' ∈ rest := ((hmem g').2 hg').resolve_left
      (fun h => hnot (hname ▸ List.mem_map_of_mem h))
    rw [← hname, ← hvalue g' hg']
    exact of_decide_eq_true (hcost g hg g' hrest)
  · rw [← List.length_append, hperm.length_eq]
    exact Grouping.length_group rows
  · rw [← List.sum_append, ← List.map_append, (hperm.map _).sum_eq]
    exact Grouping.sum_group fields_blank fields_withRow rows
  · exact fun g hg => hvalue g ((hmem g).1 (.inr hg))

/-- **A breakdown partitions the totals**: of a query whose columns can be read. -/
theorem breakdown_partitions (py : Runtime ℚ) (store : UsageStore ℚ)
    (subscriptionIds : Option (List String)) (sinceIso : Option String) (groupBy field : String)
    (hdim : aggDims.lookup groupBy = some field)
    (hread : ∀ d ∈ store.aggDocs subscriptionIds sinceIso, Readable py d) :
    ∃ groups totals,
      store.costBreakdown py subscriptionIds sinceIso groupBy = .ok groups ∧
      store.costTotals py subscriptionIds sinceIso = .ok totals ∧
      BreaksDown py field (store.aggDocs subscriptionIds sinceIso) groups ∧
      totals.Consistent ∧ (∀ g ∈ groups, g.2.Consistent) ∧
      (groupCount py field (store.aggDocs subscriptionIds sinceIso) ≤ maxGroups →
        (groups.map (fun g => g.2.fields)).sum = totals.fields) ∧
      (maxGroups < groupCount py field (store.aggDocs subscriptionIds sinceIso) →
        groups.length = maxGroups ∧
        ((∀ d ∈ store.aggDocs subscriptionIds sinceIso, NonNegative py d) →
          (groups.map (fun g => g.2.fields)).sum ≤ totals.fields)) := by
  set rows := store.aggDocs subscriptionIds sinceIso
  obtain ⟨hbreaks, rest, hlength, hsum, hrest⟩ := breaksDown_take py field rows
  refine ⟨_, _, costBreakdown_aggDocs hdim hread, costTotals_aggDocs hread, hbreaks,
    consistent_bucketOf py rows, ?_, ?_, ?_⟩
  · intro g hg
    rw [hbreaks.bucket g hg]
    exact consistent_bucketOf py _
  · intro hfew
    have hcount := hbreaks.count
    have hnil : rest = [] := List.length_eq_zero_iff.1 (by omega)
    rw [hnil, List.map_nil, List.sum_nil, add_zero] at hsum
    exact hsum
  · intro hmany
    refine ⟨by rw [hbreaks.count, min_eq_left hmany.le], fun hnonneg => ?_⟩
    rw [← hsum]
    refine le_add_of_nonneg_right (List.sum_nonneg (fun x hx => ?_))
    obtain ⟨g, hg, rfl⟩ := List.mem_map.1 hx
    rw [hrest g hg, fields_bucketOf]
    refine List.sum_nonneg (fun y hy => ?_)
    obtain ⟨d, hd, rfl⟩ := List.mem_map.1 hy
    exact (hnonneg d (List.mem_filter.1 hd).1).fields

end Breakdown

/-! ### Documents from before some of the columns -/

/-- Null, which is also what a missing column reads as, or a number. -/
def numeric : Json ℚ → Bool
  | .null => true
  | .int _ => true
  | .float _ => true
  | _ => false

/-- With a number for null it is one, and so it can be converted. -/
lemma number_of_numeric {v default : Json ℚ} (hv : numeric v = true)
    (hdefault : (∃ n, default = .int n) ∨ ∃ x, default = .float x) :
    (∃ n, v.orElse default = .int n) ∨ ∃ x, v.orElse default = .float x := by
  unfold Json.orElse
  split_ifs with htruthy
  · cases v with
    | int n => exact .inl ⟨n, rfl⟩
    | float x => exact .inr ⟨x, rfl⟩
    | null => simp [Json.truthy] at htruthy
    | bool b => simp [numeric] at hv
    | str s => simp [numeric] at hv
    | list xs => simp [numeric] at hv
    | dict fields => simp [numeric] at hv
  · exact hdefault

/-- Such columns can be read: every one of them is a number or empty. -/
lemma readable_of_numeric {py : Runtime ℚ} {row : Document ℚ}
    (h : aggColumns.all (fun field => numeric (Json.get row field)) = true) : Readable py row := by
  have hnumeric : ∀ field ∈ aggColumns, numeric (Json.get row field) = true := by simpa using h
  have hcount : ∀ field ∈ aggColumns, (countField py row field).isOk = true := by
    intro field hfield
    rcases number_of_numeric (hnumeric field hfield) (.inl ⟨0, rfl⟩) with ⟨n, hn⟩ | ⟨x, hx⟩
    · rw [countField, hn]
      rfl
    · rw [countField, hx]
      rfl
  have hamount : ∀ field ∈ aggColumns, (amountField py row field).isOk = true := by
    intro field hfield
    rcases number_of_numeric (hnumeric field hfield) (.inr ⟨PyFloat.lit 0, rfl⟩) with
      ⟨n, hn⟩ | ⟨x, hx⟩
    · rw [amountField, hn]
      rfl
    · rw [amountField, hx]
      rfl
  constructor
  · intro field
    exact hcount field.key (by cases field <;> decide)
  · exact hamount "cost_usd" (by decide)
  · exact hamount "billed_usd" (by decide)

lemma mem_docs_of_aggDocs {K : Type} {store : UsageStore K} {subscriptionIds : Option (List String)}
    {sinceIso : Option String} {d : Document K} (h : d ∈ store.aggDocs subscriptionIds sinceIso) :
    d ∈ store.container.docs := by
  unfold UsageStore.aggDocs at h
  split_ifs at h
  · simp at h
  · rw [UsageStore.select, List.drop_zero] at h
    have hselected := (store.engine.perm _).mem_iff.1 (List.mem_of_mem_take h)
    exact (List.mem_filter.1 hselected).1

/-- A call that was refused, and one from before the columns. -/
def refusedCall : Document ℚ :=
  [("id", .str "r1"), ("pk", .str "k1_202607"), ("subscription", .str "k1"),
    ("end_user", .str "ada"), ("status", .int 429), ("prompt_tok", .int 7),
    ("cost_usd", .float (1 / 2)), ("cache_write_tok", .null)]

def legacyCall : Document ℚ :=
  [("id", .str "r2"), ("pk", .str "k1_202607"), ("subscription", .str "k1"), ("end_user", .null),
    ("prompt_tok", .int 5), ("cache_write_tok", .null)]

noncomputable def legacyStore : UsageStore ℚ :=
  ⟨true, Engine.byTime, (Container.empty.upsert refusedCall).upsert legacyCall⟩

/-- The two calls are two groups, which add up to the totals. -/
theorem breakdown_partitions_legacy :
    ∃ groups totals,
      legacyStore.costBreakdown .strict (some ["k1"]) none "end_user" = .ok groups ∧
      legacyStore.costTotals .strict (some ["k1"]) none = .ok totals ∧
      (groups.map (fun g => g.2.fields)).sum = totals.fields := by
  have hdocs : ∀ d ∈ legacyStore.aggDocs (some ["k1"]) none, d = legacyCall ∨ d = refusedCall := by
    intro d hd
    have hput : d ∈ put legacyCall [refusedCall] := mem_docs_of_aggDocs hd
    exact (mem_put hput).imp_right List.mem_singleton.1
  have hread : ∀ d ∈ legacyStore.aggDocs (some ["k1"]) none, Readable Runtime.strict d := by
    intro d hd
    rcases hdocs d hd with rfl | rfl
    · exact readable_of_numeric (by decide)
    · exact readable_of_numeric (by decide)
  have hnames : ((legacyStore.aggDocs (some ["k1"]) none).map
      (groupOf .strict "end_user")).toFinset ⊆ {"unknown", "ada"} := by
    intro name hname
    obtain ⟨d, hd, rfl⟩ := List.mem_map.1 (List.mem_toFinset.1 hname)
    have hlegacy : groupOf .strict "end_user" legacyCall = "unknown" := by decide +kernel
    have hrefused : groupOf .strict "end_user" refusedCall = "ada" := by decide +kernel
    rcases hdocs d hd with rfl | rfl
    · simp [hlegacy]
    · simp [hrefused]
  obtain ⟨groups, totals, hgroups, htotals, -, -, -, hfew, -⟩ :=
    breakdown_partitions .strict legacyStore (some ["k1"]) none "end_user" "end_user" rfl hread
  have htwo := (Finset.card_le_card hnames).trans Finset.card_le_two
  exact ⟨groups, totals, hgroups, htotals, hfew (htwo.trans (by decide))⟩

end UsageIngest
end TokenFoundry
