import TokenFoundry.Api.Usage
import Mathlib.Data.Multiset.Basic
import Mathlib.Data.String.Basic

/-!
# Tenant isolation of the usage endpoints

What a tenant is shown depends on its own documents only (`tenant_noninterference`): two
containers that agree on the documents of the tenant's keys give the same answers, whatever else
they hold.  Every query of these endpoints carries the clause that selects the keys
(`select_agree`), because an empty set of keys, which would drop the clause, is answered without
a query.
-/

set_option autoImplicit false

namespace TokenFoundry
namespace UsageIngest

variable {K : Type}

/-! ## Selecting the documents of some keys -/

/-- The document belongs to one of the keys, by the subscription that it was imported under. -/
def ownedBy (keyIds : List String) (d : Document K) : Bool :=
  match Json.get d "subscription" with
  | .str s => keyIds.contains s
  | _ => false

/-- Two containers hold the same documents of the keys, in whatever order; about the other keys they
may differ. -/
def Agree (keyIds : List String) (c c' : Container K) : Prop :=
  (c.docs.filter (ownedBy keyIds)).Perm (c'.docs.filter (ownedBy keyIds))

/-- A clause over keys is a clause over the documents of the keys. -/
lemma filter_aggWhere {keyIds : List String} (h : keyIds ≠ []) (sinceIso : Option String)
    (ds : List (Document K)) :
    ds.filter (aggWhere keyIds sinceIso) =
      (ds.filter (ownedBy keyIds)).filter (aggWhere [] sinceIso) := by
  rw [List.filter_filter]
  congr 1
  funext d
  have hempty : keyIds.isEmpty = false := by simpa using h
  have howned : (keyIds.isEmpty || ownedBy keyIds d) = ownedBy keyIds d := by simp [hempty]
  show ((keyIds.isEmpty || ownedBy keyIds d) && _) = ((true || _) && _ && ownedBy keyIds d)
  rw [howned, Bool.true_or, Bool.true_and, Bool.and_comm]

section Agreement

variable {keyIds : List String} {c c' : Container K}

lemma filter_agree (h : Agree keyIds c c') (hne : keyIds ≠ []) (sinceIso : Option String) :
    (c.docs.filter (aggWhere keyIds sinceIso)).Perm
      (c'.docs.filter (aggWhere keyIds sinceIso)) := by
  rw [filter_aggWhere hne, filter_aggWhere hne]
  exact h.filter _

/-- A query over the keys selects the same rows in the same order. -/
lemma select_agree (h : Agree keyIds c c') (hne : keyIds ≠ []) (endpoint : Bool)
    (engine : Engine K) (sinceIso : Option String) (skip limit : ℕ) :
    UsageStore.select ⟨endpoint, engine, c⟩ keyIds sinceIso skip limit =
      UsageStore.select ⟨endpoint, engine, c'⟩ keyIds sinceIso skip limit := by
  simp only [UsageStore.select]
  rw [engine.agree _ _ (filter_agree h hne sinceIso)]

lemma queryBySubscriptions_agree (h : Agree keyIds c c') (endpoint : Bool) (engine : Engine K)
    (limit skip : ℕ) (sinceIso : Option String) :
    UsageStore.queryBySubscriptions ⟨endpoint, engine, c⟩ keyIds limit skip sinceIso =
      UsageStore.queryBySubscriptions ⟨endpoint, engine, c'⟩ keyIds limit skip sinceIso := by
  by_cases hne : keyIds = []
  · simp [UsageStore.queryBySubscriptions, hne]
  · simp only [UsageStore.queryBySubscriptions]
    rw [select_agree h hne]

lemma countBySubscriptions_agree (h : Agree keyIds c c') (endpoint : Bool) (engine : Engine K)
    (sinceIso : Option String) :
    UsageStore.countBySubscriptions ⟨endpoint, engine, c⟩ keyIds sinceIso =
      UsageStore.countBySubscriptions ⟨endpoint, engine, c'⟩ keyIds sinceIso := by
  by_cases hne : keyIds = []
  · simp [UsageStore.countBySubscriptions, hne]
  · simp only [UsageStore.countBySubscriptions]
    rw [(filter_agree h hne sinceIso).length_eq]

lemma fetchAggRows_agree (h : Agree keyIds c c') (hne : keyIds ≠ []) (endpoint : Bool)
    (engine : Engine K) (sinceIso : Option String) (extraFields : List String) :
    UsageStore.fetchAggRows ⟨endpoint, engine, c⟩ (some keyIds) sinceIso extraFields =
      UsageStore.fetchAggRows ⟨endpoint, engine, c'⟩ (some keyIds) sinceIso extraFields := by
  simp only [UsageStore.fetchAggRows, Option.getD_some]
  rw [select_agree h hne]

variable [PyFloat K]

lemma costTotals_agree (h : Agree keyIds c c') (py : Runtime K) (endpoint : Bool)
    (engine : Engine K) (sinceIso : Option String) :
    UsageStore.costTotals py ⟨endpoint, engine, c⟩ (some keyIds) sinceIso =
      UsageStore.costTotals py ⟨endpoint, engine, c'⟩ (some keyIds) sinceIso := by
  by_cases hne : keyIds = []
  · simp [UsageStore.costTotals, hne]
  · simp only [UsageStore.costTotals]
    rw [fetchAggRows_agree h hne]

lemma costBreakdown_agree (h : Agree keyIds c c') (py : Runtime K) (endpoint : Bool)
    (engine : Engine K) (sinceIso : Option String) (groupBy : String) :
    UsageStore.costBreakdown py ⟨endpoint, engine, c⟩ (some keyIds) sinceIso groupBy =
      UsageStore.costBreakdown py ⟨endpoint, engine, c'⟩ (some keyIds) sinceIso groupBy := by
  by_cases hne : keyIds = []
  · simp [UsageStore.costBreakdown, hne]
  · simp only [UsageStore.costBreakdown]
    cases aggDims.lookup groupBy with
    | none => rfl
    | some field =>
        dsimp only
        rw [fetchAggRows_agree h hne]

lemma costTrend_agree (h : Agree keyIds c c') (py : Runtime K) (endpoint : Bool)
    (engine : Engine K) (sinceIso : Option String) (hours : ℤ) (now : Datetime) :
    UsageStore.costTrend py ⟨endpoint, engine, c⟩ (some keyIds) sinceIso hours now =
      UsageStore.costTrend py ⟨endpoint, engine, c'⟩ (some keyIds) sinceIso hours now := by
  by_cases hne : keyIds = []
  · simp [UsageStore.costTrend, hne]
  · simp only [UsageStore.costTrend]
    rw [fetchAggRows_agree h hne]

end Agreement

/-! ## A service that orders by time -/

/-- The documents with the newest first; equal times in an order of the service's own. -/
noncomputable def Engine.byTime : Engine K where
  order ds := (Multiset.toList (ds : Multiset (Document K))).mergeSort
    (fun d d' => decide (textField d' "ts" ≤ textField d "ts"))
  perm ds := (List.mergeSort_perm _ _).trans (Multiset.coe_eq_coe.1 (Multiset.coe_toList _))
  newestFirst ds := by
    refine (List.pairwise_mergeSort (fun a b d => ?_) (fun a b => ?_) _).imp (by simp)
    · simp only [decide_eq_true_eq]
      exact fun hab hbd => hbd.trans hab
    · simpa using le_total _ _
  agree ds ds' h := by rw [Multiset.coe_eq_coe.2 h]

end UsageIngest

namespace Usage

open UsageIngest

variable {K : Type} [PyFloat K]

/-! ## A tenant without keys -/

section NoKeys

variable {py : Runtime K} {dir : Directory} {store : UsageStore K}

lemma costTotals_nil (sinceIso : Option String) :
    store.costTotals py (some []) sinceIso = .ok blank := by
  simp [UsageStore.costTotals]
  rfl

lemma costBreakdown_nil (sinceIso : Option String) (groupBy : String) :
    store.costBreakdown py (some []) sinceIso groupBy = .ok [] := by
  simp [UsageStore.costBreakdown]
  rfl

lemma costTrend_nil (sinceIso : Option String) (hours : ℤ) (now : Datetime) :
    store.costTrend py (some []) sinceIso hours now = .ok [] := by
  simp [UsageStore.costTrend]
  rfl

lemma breakdown_no_keys {hours : ℤ} {by' : String} {now now' : Datetime} {b : Breakdown K}
    (hb : breakdown py dir store (some []) hours by' now now' = .ok b) :
    b.groups = [] ∧ b.trend = [] ∧ b.totals = blank := by
  simp only [breakdown, costTotals_nil, costBreakdown_nil, costTrend_nil] at hb
  cases hsince : windowSince (some (min (max hours 1) maxWindowHours)) now with
  | error e => simp [hsince, bind, Except.bind] at hb
  | ok since =>
      simp only [hsince, bind, Except.bind, pure, Except.pure, List.map_nil, Except.ok.injEq] at hb
      simp [← hb]

lemma records_no_keys {keyProjects : List (String × String × String)} {page pageSize : ℤ}
    {hours : Option ℤ} {now : Datetime} {r : RecordsPage K}
    (hr : (do
      let since ← windowSince hours now
      let rows := store.queryBySubscriptions [] (max 1 (min pageSize 200)).toNat
        ((max 1 page - 1) * max 1 (min pageSize 200)).toNat since
      let items ← rows.mapM (toRecordView py keyProjects)
      return ⟨items, store.countBySubscriptions [] since, max 1 page, max 1 (min pageSize 200),
        hours⟩ : Except Failure (RecordsPage K)) = .ok r) :
    r.items = [] ∧ r.total = 0 := by
  cases hsince : windowSince hours now with
  | error e => simp [hsince, bind, Except.bind] at hr
  | ok since =>
      simp only [hsince, bind, Except.bind, pure, Except.pure, UsageStore.queryBySubscriptions,
        UsageStore.countBySubscriptions, List.isEmpty_nil, Bool.or_true, if_true, List.mapM_nil,
        Except.ok.injEq] at hr
      simp [← hr]

end NoKeys

/-! ## The endpoints -/

/-- **Tenant noninterference.**  Two containers that agree on the documents of the tenant's keys
give the same usage, the same breakdowns and the same call log, and a tenant without keys is
shown nothing. -/
theorem tenant_noninterference (py : Runtime K) (dir : Directory) (tenantId : String)
    (endpoint : Bool) (engine : Engine K) (c c' : Container K)
    (h : Agree (dir.tenantKeyIds tenantId) c c') :
    let store : UsageStore K := ⟨endpoint, engine, c⟩
    let store' : UsageStore K := ⟨endpoint, engine, c'⟩
    (∀ hours now, myUsage py dir store tenantId hours now =
      myUsage py dir store' tenantId hours now) ∧
    (∀ hours by' now now', myUsageBreakdown py dir store tenantId hours by' now now' =
      myUsageBreakdown py dir store' tenantId hours by' now now') ∧
    (∀ page pageSize hours now,
      tenantUsageRecords py dir store tenantId page pageSize hours now =
        tenantUsageRecords py dir store' tenantId page pageSize hours now) ∧
    (dir.tenantKeyIds tenantId = [] →
      (∀ hours now, myUsage py dir store tenantId hours now =
        (windowSince hours now).bind (fun _ => summarize py tenantId [])) ∧
      (∀ hours by' now now' b,
        myUsageBreakdown py dir store tenantId hours by' now now' = .ok b →
        b.groups = [] ∧ b.trend = [] ∧ b.totals = blank) ∧
      (∀ page pageSize hours now r,
        tenantUsageRecords py dir store tenantId page pageSize hours now = .ok r →
        r.items = [] ∧ r.total = 0)) := by
  intro store store'
  refine ⟨fun hours now => ?_, fun hours by' now now' => ?_, fun page pageSize hours now => ?_,
    fun hnone => ⟨fun hours now => ?_, fun hours by' now now' b hb => ?_,
      fun page pageSize hours now r hr => ?_⟩⟩
  · simp only [myUsage, store, store']
    simp only [queryBySubscriptions_agree h]
  · simp only [myUsageBreakdown, breakdown, store, store']
    simp only [costBreakdown_agree h, costTrend_agree h, costTotals_agree h]
  · simp only [tenantUsageRecords, store, store']
    simp only [queryBySubscriptions_agree h, countBySubscriptions_agree h]
  · simp only [myUsage, hnone, UsageStore.queryBySubscriptions, List.isEmpty_nil, Bool.or_true,
      if_true]
    rfl
  · simp only [myUsageBreakdown, hnone] at hb
    exact breakdown_no_keys hb
  · simp only [tenantUsageRecords, hnone] at hr
    exact records_no_keys hr

/-- Two tenants with a key each, and nothing else in the directory. -/
def twoTenants : Directory where
  tenantKeyIds tenantId := if tenantId = "acme" then ["k1"] else ["k2"]
  keyProjects _ := []
  hubLogins := []
  projectNames _ := []

/-- A call with the key of a tenant, three tokens at two dollars. -/
def callOf (subscription : String) : Document ℚ :=
  [("id", .str subscription), ("pk", .str "2026-07"), ("subscription", .str subscription),
    ("prompt_tok", .int 3), ("cost_usd", .float 2)]

/-- The calls of the one tenant, as if the other had made none. -/
def ownCalls : Container ℚ := Container.empty.upsert (callOf "k1")

/-- The calls of both, from which the answers to the one have to be the same. -/
def allCalls : Container ℚ := ownCalls.upsert (callOf "k2")

/-- The tenant does not see that the other one has called. -/
theorem tenant_noninterference_twoTenants :
    (∀ hours now, myUsage .strict twoTenants ⟨true, Engine.byTime, ownCalls⟩ "acme" hours now =
      myUsage .strict twoTenants ⟨true, Engine.byTime, allCalls⟩ "acme" hours now) ∧
    ∀ hours by' now now',
      myUsageBreakdown .strict twoTenants
        ⟨true, Engine.byTime, ownCalls⟩ "acme" hours by' now now' =
        myUsageBreakdown .strict twoTenants ⟨true, Engine.byTime, allCalls⟩ "acme" hours by' now
          now' := by
  have hagree : Agree (twoTenants.tenantKeyIds "acme") ownCalls allCalls := by
    have hkey : key (callOf "k1") ≠ key (callOf "k2") := by decide
    have hall : allCalls.docs = ownCalls.docs ++ [callOf "k2"] := by
      show put (callOf "k2") [callOf "k1"] = _
      rw [put, if_neg hkey]
      rfl
    have hother : ownedBy ["k1"] (callOf "k2") = false := by decide
    show (ownCalls.docs.filter (ownedBy ["k1"])).Perm (allCalls.docs.filter (ownedBy ["k1"]))
    rw [hall, List.filter_append, List.filter_cons_of_neg (by simp [hother]), List.filter_nil,
      List.append_nil]
  have h := tenant_noninterference .strict twoTenants "acme" true Engine.byTime ownCalls allCalls
    hagree
  exact ⟨h.1, h.2.1⟩

end Usage
end TokenFoundry
