import TokenFoundry.Properties.TenantIsolation
import TokenFoundry.Properties.UsageTotals

/-!
# The summary and the totals

A tenant sees its usage twice: the summary adds up the rows of one query, the breakdown shows the
totals of another.  The summary reads the rows up to the default limit of its query, which is much
smaller than the cap of the totals, and it reads the raw response of a row that has no token
columns, which the totals do not.

`summary_agrees_iff` says that nothing else makes a difference: the two agree exactly when what the
one reads beyond the other is the same.
-/

set_option autoImplicit false

namespace TokenFoundry
namespace Usage

open Billing (TokenField)
open UsageIngest

/-! ## One row of the summary -/

section Rows

variable {K : Type} [PyFloat K]

/-- Everything that the summary reads of a row can be read. -/
structure Summarizable (py : Runtime K) (row : Document K) : Prop where
  tokens : (extractTokens py row).isOk = true
  cost : (amountField py row "cost_usd").isOk = true
  billed : (amountField py row "billed_usd").isOk = true

/-- The prompt tokens that the summary reads, from the column or from the raw response. -/
def promptIn (py : Runtime K) (row : Document K) : ℤ :=
  match extractTokens py row with
  | .ok t => t.1
  | .error _ => 0

/-- The completion tokens that the summary reads, likewise. -/
def completionIn (py : Runtime K) (row : Document K) : ℤ :=
  match extractTokens py row with
  | .ok t => t.2.1
  | .error _ => 0

/-- The summary with a row in it, which is one step of the loop over the rows. -/
def UsageSummary.withRow (py : Runtime K) (summary : UsageSummary K) (row : Document K) :
    UsageSummary K :=
  { summary with
    totalPromptTok := summary.totalPromptTok + promptIn py row
    totalCompletionTok := summary.totalCompletionTok + completionIn py row
    totalCostUsd := PyFloat.add summary.totalCostUsd (amountIn py row "cost_usd")
    totalBilledUsd := PyFloat.add summary.totalBilledUsd (amountIn py row "billed_usd") }

variable {py : Runtime K}

lemma add_eq {row : Document K} (h : Summarizable py row) (summary : UsageSummary K) :
    summary.add py row = .ok (summary.withRow py row) := by
  have hok := h.tokens
  unfold UsageSummary.add UsageSummary.withRow promptIn completionIn
  cases hread : extractTokens py row with
  | error f =>
      rw [hread] at hok
      cases hok
  | ok t =>
      rw [amountField_ok h.cost, amountField_ok h.billed]
      rfl

lemma summarizable_of_add {summary next : UsageSummary K} {row : Document K}
    (h : summary.add py row = .ok next) : Summarizable py row := by
  obtain ⟨tokens, htokens, h⟩ := Outcomes.bind_eq_ok.1 h
  obtain ⟨cost, hcost, h⟩ := Outcomes.bind_eq_ok.1 h
  obtain ⟨billed, hbilled, -⟩ := Outcomes.bind_eq_ok.1 h
  constructor
  · rw [htokens]
    rfl
  · rw [hcost]
    rfl
  · rw [hbilled]
    rfl

lemma summarizable_of_foldlM {rows : List (Document K)} {summary next : UsageSummary K}
    (h : rows.foldlM (UsageSummary.add py) summary = .ok next) :
    ∀ row ∈ rows, Summarizable py row := by
  induction rows generalizing summary with
  | nil => simp
  | cons row rows ih =>
      rw [List.foldlM_cons] at h
      obtain ⟨middle, hrow, hrest⟩ := Outcomes.bind_eq_ok.1 h
      intro r hr
      rcases List.mem_cons.1 hr with rfl | hr
      · exact summarizable_of_add hrow
      · exact ih hrest r hr

/-! ### Rows without token columns -/

/-- The prompt tokens of a row that the totals do not see. -/
def hiddenPrompt (py : Runtime K) (row : Document K) : ℤ :=
  if flat row then 0 else promptIn py row

/-- The completion tokens of a row that the totals do not see. -/
def hiddenCompletion (py : Runtime K) (row : Document K) : ℤ :=
  if flat row then 0 else completionIn py row

omit [PyFloat K] in
lemma get_of_not_has {d : Document K} {field : String} (h : Json.has d field = false) :
    Json.get d field = .null := by
  unfold Json.has at h
  unfold Json.get
  cases hlookup : d.lookup field with
  | none => rfl
  | some v => simp [hlookup] at h

/-- A column that is not there counts nothing, and reading it does not raise. -/
lemma countField_of_not_has {row : Document K} {field : String}
    (h : Json.has row field = false) : countField py row field = .ok 0 := by
  unfold countField
  rw [get_of_not_has h]
  rfl

lemma extractTokens_of_flat {row : Document K} (h : Readable py row) (hflat : flat row = true) :
    extractTokens py row = .ok (tokensIn py row .promptTok, tokensIn py row .completionTok,
      tokensIn py row .cachedTok) := by
  have hprompt := countField_ok h .promptTok
  have hcompletion := countField_ok h .completionTok
  have hcached := countField_ok h .cachedTok
  simp only [TokenField.key] at hprompt hcompletion hcached
  unfold extractTokens
  rw [if_pos hflat, hprompt, hcompletion, hcached]
  rfl

/-- What the summary reads of a row is what the totals read, and what is hidden from them. -/
lemma tokens_split {row : Document K} (h : Readable py row) :
    promptIn py row = tokensIn py row .promptTok + hiddenPrompt py row ∧
      completionIn py row = tokensIn py row .completionTok + hiddenCompletion py row := by
  cases hflat : flat row with
  | true =>
      have hextract := extractTokens_of_flat h hflat
      simp [promptIn, completionIn, hiddenPrompt, hiddenCompletion, hflat, hextract]
  | false =>
      obtain ⟨hprompt, hcompletion⟩ : Json.has row "prompt_tok" = false ∧
          Json.has row "completion_tok" = false := by
        simpa [flat] using hflat
      have hp : tokensIn py row .promptTok = 0 := by
        simp only [tokensIn, TokenField.key, countField_of_not_has hprompt]
      have hc : tokensIn py row .completionTok = 0 := by
        simp only [tokensIn, TokenField.key, countField_of_not_has hcompletion]
      simp [hiddenPrompt, hiddenCompletion, hflat, hp, hc]

/-- What the totals can read, the summary can read, but for a raw response. -/
lemma summarizable_of_readable {row : Document K} (h : Readable py row)
    (hraw : flat row = false → (extractTokens py row).isOk = true) : Summarizable py row := by
  refine ⟨?_, h.cost, h.billed⟩
  cases hflat : flat row with
  | true =>
      rw [extractTokens_of_flat h hflat]
      rfl
  | false => exact hraw hflat

end Rows

/-! ## All rows -/

section Sums

variable {py : Runtime ℚ}

/-- The summary is that of before, and the sums over the rows. -/
lemma foldlM_add {rows : List (Document ℚ)} (h : ∀ row ∈ rows, Summarizable py row)
    (summary : UsageSummary ℚ) :
    ∃ next, rows.foldlM (UsageSummary.add py) summary = .ok next ∧
      next.totalPromptTok = summary.totalPromptTok + (rows.map (promptIn py)).sum ∧
      next.totalCompletionTok = summary.totalCompletionTok + (rows.map (completionIn py)).sum ∧
      next.totalCostUsd =
        summary.totalCostUsd + (rows.map (fun row => amountIn py row "cost_usd")).sum ∧
      next.totalBilledUsd =
        summary.totalBilledUsd + (rows.map (fun row => amountIn py row "billed_usd")).sum := by
  induction rows generalizing summary with
  | nil => exact ⟨summary, rfl, by simp⟩
  | cons row rows ih =>
      obtain ⟨next, hfold, hprompt, hcompletion, hcost, hbilled⟩ :=
        ih (fun r hr => h r (List.mem_cons_of_mem row hr)) (summary.withRow py row)
      refine ⟨next, ?_, ?_, ?_, ?_, ?_⟩
      · rw [List.foldlM_cons, add_eq (h row List.mem_cons_self)]
        exact hfold
      · rw [hprompt, List.map_cons, List.sum_cons, ← add_assoc]
        rfl
      · rw [hcompletion, List.map_cons, List.sum_cons, ← add_assoc]
        rfl
      · rw [hcost, List.map_cons, List.sum_cons, ← add_assoc]
        rfl
      · rw [hbilled, List.map_cons, List.sum_cons, ← add_assoc]
        rfl

lemma summarize_eq {rows : List (Document ℚ)} (h : ∀ row ∈ rows, Summarizable py row)
    (tenantId : String) :
    ∃ summary, summarize py tenantId rows = .ok summary ∧
      summary.totalPromptTok = (rows.map (promptIn py)).sum ∧
      summary.totalCompletionTok = (rows.map (completionIn py)).sum ∧
      summary.totalCostUsd =
        PyFloat.round (rows.map (fun row => amountIn py row "cost_usd")).sum summaryPlaces ∧
      summary.totalBilledUsd =
        PyFloat.round (rows.map (fun row => amountIn py row "billed_usd")).sum summaryPlaces := by
  obtain ⟨next, hfold, hprompt, hcompletion, hcost, hbilled⟩ :=
    foldlM_add h (UsageSummary.blank tenantId)
  have hzero : (PyFloat.lit 0 : ℚ) = 0 := Nat.cast_zero
  simp only [UsageSummary.blank, hzero, zero_add] at hprompt hcompletion hcost hbilled
  have hsummarize : summarize py tenantId rows = .ok { next with
      totalCostUsd := PyFloat.round next.totalCostUsd summaryPlaces
      totalBilledUsd := PyFloat.round next.totalBilledUsd summaryPlaces } := by
    unfold summarize
    rw [hfold]
    rfl
  exact ⟨_, hsummarize, hprompt, hcompletion, congrArg (PyFloat.round · summaryPlaces) hcost,
    congrArg (PyFloat.round · summaryPlaces) hbilled⟩

lemma summarizable_of_summarize {rows : List (Document ℚ)} {tenantId : String}
    {summary : UsageSummary ℚ} (h : summarize py tenantId rows = .ok summary) :
    ∀ row ∈ rows, Summarizable py row := by
  obtain ⟨next, hfold, -⟩ := Outcomes.bind_eq_ok.1 h
  exact summarizable_of_foldlM hfold

/-- The tokens of some rows, as the summary and as the totals read them. -/
lemma sum_split {rows : List (Document ℚ)} (h : ∀ row ∈ rows, Readable py row) :
    (rows.map (promptIn py)).sum =
        (rows.map (fun row => tokensIn py row .promptTok)).sum + (rows.map (hiddenPrompt py)).sum ∧
      (rows.map (completionIn py)).sum =
        (rows.map (fun row => tokensIn py row .completionTok)).sum +
          (rows.map (hiddenCompletion py)).sum := by
  rw [← List.sum_map_add, ← List.sum_map_add]
  constructor
  · exact congrArg List.sum (List.map_congr_left (fun row hrow => (tokens_split (h row hrow)).1))
  · exact congrArg List.sum (List.map_congr_left (fun row hrow => (tokens_split (h row hrow)).2))

end Sums

/-! ## Both queries -/

/-- The rows of a window, in the order of the service. -/
def windowRows {K : Type} (store : UsageStore K) (keyIds : List String)
    (sinceIso : Option String) : List (Document K) :=
  if ! store.endpoint || keyIds.isEmpty then []
  else store.engine.order (store.container.docs.filter (aggWhere keyIds sinceIso))

lemma queryBySubscriptions_window {K : Type} (store : UsageStore K) (keyIds : List String)
    (sinceIso : Option String) :
    store.queryBySubscriptions keyIds defaultLimit 0 sinceIso =
      (windowRows store keyIds sinceIso).take defaultLimit := by
  unfold UsageStore.queryBySubscriptions windowRows
  split_ifs with h
  · rfl
  · rw [UsageStore.select, List.drop_zero]

lemma costTotals_window {K : Type} [PyFloat K] (py : Runtime K) (store : UsageStore K)
    (keyIds : List String) (sinceIso : Option String)
    (hfew : (windowRows store keyIds sinceIso).length < maxRows) :
    store.costTotals py (some keyIds) sinceIso =
      ((windowRows store keyIds sinceIso).map (project aggColumns)).foldlM
        (accumulate py) blank := by
  unfold UsageStore.costTotals
  unfold windowRows at hfew ⊢
  by_cases hempty : store.endpoint = false ∨ keyIds = []
  · rw [if_pos (by simpa using hempty), if_pos (by simpa using hempty)]
    rfl
  · rw [if_neg (by simpa using hempty)] at hfew ⊢
    rw [if_neg (by simpa using hempty), UsageStore.fetchAggRows, UsageStore.select, List.drop_zero,
      List.append_nil]
    dsimp only [Option.getD_some]
    rw [List.take_of_length_le hfew.le]

/-- The summary of a tenant and the totals of its keys from the same start say the same; the amounts
of the summary are rounded. -/
def SummaryAgrees (py : Runtime ℚ) (dir : Directory) (store : UsageStore ℚ) (tenantId : String)
    (hours : ℤ) (now : Datetime) (since : Option String) : Prop :=
  ∃ summary totals,
    (myUsage py dir store tenantId (some hours) now = .ok summary ∧
      tenantUsage py dir store tenantId (some hours) now = .ok summary) ∧
    store.costTotals py (some (dir.tenantKeyIds tenantId)) since = .ok totals ∧
    summary.totalPromptTok = totals.tokens .promptTok ∧
    summary.totalCompletionTok = totals.tokens .completionTok ∧
    summary.totalCostUsd = PyFloat.round totals.costUsd summaryPlaces ∧
    summary.totalBilledUsd = PyFloat.round totals.billedUsd summaryPlaces

/-- What the two queries read beyond each other makes no difference: the rows behind the default
limit have as many tokens in their columns as the rows before it hide in raw responses, and no
amounts that survive the rounding. -/
structure Balanced (py : Runtime ℚ) (rows : List (Document ℚ)) : Prop where
  columns : ∀ row ∈ rows, Readable py row
  raw : ∀ row ∈ rows.take defaultLimit, flat row = false → (extractTokens py row).isOk = true
  prompt : ((rows.take defaultLimit).map (hiddenPrompt py)).sum =
    ((rows.drop defaultLimit).map (fun row => tokensIn py row .promptTok)).sum
  completion : ((rows.take defaultLimit).map (hiddenCompletion py)).sum =
    ((rows.drop defaultLimit).map (fun row => tokensIn py row .completionTok)).sum
  cost : PyFloat.round ((rows.take defaultLimit).map (amountIn py · "cost_usd")).sum summaryPlaces =
    PyFloat.round (rows.map (amountIn py · "cost_usd")).sum summaryPlaces
  billed :
    PyFloat.round ((rows.take defaultLimit).map (amountIn py · "billed_usd")).sum summaryPlaces =
      PyFloat.round (rows.map (amountIn py · "billed_usd")).sum summaryPlaces

/-- Few rows, all of them with token columns, are balanced. -/
lemma Balanced.of_flat {py : Runtime ℚ} {rows : List (Document ℚ)}
    (hfew : rows.length ≤ defaultLimit) (hread : ∀ row ∈ rows, Readable py row)
    (hflat : ∀ row ∈ rows, flat row = true) : Balanced py rows := by
  have htake : rows.take defaultLimit = rows := List.take_of_length_le hfew
  have hdrop : rows.drop defaultLimit = [] := List.drop_of_length_le hfew
  have hzero : ∀ f : Document ℚ → ℤ, (∀ row ∈ rows, f row = 0) → (rows.map f).sum = 0 := by
    intro f hf
    rw [List.map_congr_left hf]
    simp
  constructor
  · exact hread
  · intro row hrow hnot
    rw [htake] at hrow
    rw [hflat row hrow] at hnot
    cases hnot
  · rw [htake, hdrop, hzero _ (fun row hrow => by simp [hiddenPrompt, hflat row hrow])]
    rfl
  · rw [htake, hdrop, hzero _ (fun row hrow => by simp [hiddenCompletion, hflat row hrow])]
    rfl
  · rw [htake]
  · rw [htake]

/-- **The summary and the totals** of a tenant agree, with fewer rows in the window than the cap, if
and only if what one of the queries reads beyond the other makes no difference. -/
theorem summary_agrees_iff (py : Runtime ℚ) (dir : Directory) (store : UsageStore ℚ)
    (tenantId : String) (hours : ℤ) (now : Datetime) (since : Option String)
    (hsince : windowSince (some hours) now = .ok since)
    (hfew : (windowRows store (dir.tenantKeyIds tenantId) since).length < maxRows) :
    SummaryAgrees py dir store tenantId hours now since ↔
      Balanced py (windowRows store (dir.tenantKeyIds tenantId) since) := by
  set rows := windowRows store (dir.tenantKeyIds tenantId) since with hrows
  have hmy : myUsage py dir store tenantId (some hours) now =
      summarize py tenantId (rows.take defaultLimit) := by
    unfold myUsage
    rw [hsince, hrows, ← queryBySubscriptions_window]
    rfl
  have htenant : tenantUsage py dir store tenantId (some hours) now =
      summarize py tenantId (rows.take defaultLimit) := hmy
  have htotals := costTotals_window py store (dir.tenantKeyIds tenantId) since hfew
  have htake : ∀ row ∈ rows.take defaultLimit, row ∈ rows := fun row => List.mem_of_mem_take
  -- The summary reads the newest `defaultLimit` rows, the totals read those and the ones behind
  -- them.
  have hsplit : ∀ f : Document ℚ → ℤ, (rows.map f).sum =
      ((rows.take defaultLimit).map f).sum + ((rows.drop defaultLimit).map f).sum := by
    intro f
    rw [← List.sum_append, ← List.map_append, List.take_append_drop]
  unfold SummaryAgrees
  rw [hmy, htenant, htotals]
  constructor
  · rintro ⟨summary, totals, ⟨hsummary, -⟩, htot, hprompt, hcompletion, hcost, hbilled⟩
    have hread : ∀ row ∈ rows, Readable py row := fun row hrow =>
      (readable_project (List.Subset.refl _)).1
        (readable_of_foldlM htot _ (List.mem_map_of_mem hrow))
    have hsum := summarizable_of_summarize hsummary
    obtain ⟨hp, hc⟩ := sum_split (fun row hrow => hread row (htake row hrow))
    obtain ⟨summary', hsummary', hp', hc', hcost', hbilled'⟩ := summarize_eq hsum tenantId
    obtain ⟨totals', htot', -, htokens', htotalCost, htotalBilled⟩ := foldlM_columns hread
    cases hsummary.symm.trans hsummary'
    cases htot.symm.trans htot'
    -- What is left over when the common rows are taken off both sides is what the rows behind them
    -- say, against what the raw responses add.
    have hsplitPrompt := hsplit (fun row => tokensIn py row .promptTok)
    have hsplitCompletion := hsplit (fun row => tokensIn py row .completionTok)
    constructor
    · exact hread
    · intro row hrow _
      exact (hsum row hrow).tokens
    · rw [hp', hp, htokens', hsplitPrompt] at hprompt
      omega
    · rw [hc', hc, htokens', hsplitCompletion] at hcompletion
      omega
    · rw [← hcost', hcost, htotalCost]
    · rw [← hbilled', hbilled, htotalBilled]
  -- Balanced rows can be read by both queries, so both have an answer.
  · intro hbalanced
    have hsum : ∀ row ∈ rows.take defaultLimit, Summarizable py row := fun row hrow =>
      summarizable_of_readable (hbalanced.columns row (htake row hrow)) (hbalanced.raw row hrow)
    obtain ⟨hp, hc⟩ := sum_split (fun row hrow => hbalanced.columns row (htake row hrow))
    obtain ⟨summary, hsummary, hp', hc', hcost', hbilled'⟩ := summarize_eq hsum tenantId
    obtain ⟨totals, htot, -, htokens, htotalCost, htotalBilled⟩ := foldlM_columns hbalanced.columns
    have hprompt := hbalanced.prompt
    have hcompletion := hbalanced.completion
    refine ⟨summary, totals, ⟨hsummary, hsummary⟩, htot, ?_, ?_, ?_, ?_⟩
    · rw [hp', hp, htokens, hsplit]
      omega
    · rw [hc', hc, htokens, hsplit]
      omega
    · rw [hcost', htotalCost]
      exact hbalanced.cost
    · rw [hbilled', htotalBilled]
      exact hbalanced.billed

/-- A tenant with one key, under which all the calls below are made. -/
def oneKey : Directory where
  tenantKeyIds _ := ["k1"]
  keyProjects _ := []
  hubLogins := []
  projectNames _ := []

/-- Three calls of the first of July with token columns, and one of the day before. -/
def columnCalls : List (Document ℚ) :=
  [[("id", .str "r1"), ("pk", .str "k1_202607"), ("subscription", .str "k1"),
      ("ts", .str "2026-07-01T00:00:00+00:00"), ("prompt_tok", .int 7), ("cost_usd", .float 2)],
    [("id", .str "r2"), ("pk", .str "k1_202607"), ("subscription", .str "k1"),
      ("ts", .str "2026-07-01T09:30:00+00:00"), ("prompt_tok", .int 5), ("completion_tok", .int 11),
      ("cost_usd", .float (1 / 2)), ("billed_usd", .float (3 / 4))],
    [("id", .str "r3"), ("pk", .str "k1_202606"), ("subscription", .str "k1"),
      ("ts", .str "2026-06-30T23:00:00+00:00"), ("prompt_tok", .int 40), ("cost_usd", .float 1)],
    [("id", .str "r4"), ("pk", .str "k1_202607"), ("subscription", .str "k1"),
      ("ts", .str "2026-07-01T18:00:00+00:00"), ("completion_tok", .int 4), ("cost_usd", .float 3),
      ("billed_usd", .float 3)]]

/-- A call whose tokens are in the response of the provider. -/
def rawCall : Document ℚ :=
  [("id", .str "r1"), ("pk", .str "k1_202607"), ("subscription", .str "k1"),
    ("ts", .str "2026-07-01T00:00:00+00:00"), ("raw_response", .dict [("usage",
      .dict [("prompt_tokens", .int 7)])])]

/-- The store with some calls in it, in the order in which they were imported. -/
noncomputable def storeOf (calls : List (Document ℚ)) : UsageStore ℚ :=
  ⟨true, Engine.byTime, calls.foldl Container.upsert Container.empty⟩

/-- The second of July, when the window is asked for. -/
def secondOfJuly : Datetime := ⟨63918547200000000, by decide⟩

lemma windowRows_storeOf {calls : List (Document ℚ)}
    (hdocs : (storeOf calls).container.docs = calls) (since : Option String) :
    (windowRows (storeOf calls) ["k1"] since).Perm (calls.filter (aggWhere ["k1"] since)) := by
  change ((storeOf calls).engine.order ((storeOf calls).container.docs.filter _)).Perm _
  rw [hdocs]
  exact (storeOf calls).engine.perm _

lemma since_secondOfJuly :
    windowSince (some 24) secondOfJuly = .ok (some "2026-07-01T00:00:00+00:00") := by
  have htext : (windowSince (some 24) secondOfJuly).toOption =
      some (some "2026-07-01T00:00:00+00:00") := by decide +kernel
  cases hsince : windowSince (some 24) secondOfJuly with
  | error f => simp [hsince, Except.toOption] at htext
  | ok since => simpa [hsince, Except.toOption] using htext

/-- The summary of calls with token columns agrees with the totals. -/
theorem summary_agrees_columns :
    (windowRows (storeOf columnCalls) (oneKey.tenantKeyIds "acme")
      (some "2026-07-01T00:00:00+00:00")).length = 3 ∧
    SummaryAgrees .strict oneKey (storeOf columnCalls) "acme" 24 secondOfJuly
      (some "2026-07-01T00:00:00+00:00") := by
  have hrows : (windowRows (storeOf columnCalls) (oneKey.tenantKeyIds "acme")
      (some "2026-07-01T00:00:00+00:00")).Perm
        (columnCalls.filter (aggWhere ["k1"] (some "2026-07-01T00:00:00+00:00"))) :=
    windowRows_storeOf rfl _
  have hthree : (columnCalls.filter (aggWhere ["k1"] (some "2026-07-01T00:00:00+00:00"))).length =
      3 := by decide +kernel
  have hlength := hrows.length_eq.trans hthree
  have hcall : ∀ row ∈ columnCalls, Readable .strict row ∧ flat row = true := by
    intro row hrow
    simp only [columnCalls, List.mem_cons, List.not_mem_nil, or_false] at hrow
    rcases hrow with rfl | rfl | rfl | rfl
    all_goals
      refine ⟨⟨fun field => ?_, by decide +kernel, by decide +kernel⟩, by decide⟩
      cases field <;> decide +kernel
  have hmem := fun row hrow => List.mem_of_mem_filter ((hrows.mem_iff (a := row)).1 hrow)
  refine ⟨hlength, (summary_agrees_iff .strict oneKey (storeOf columnCalls) "acme" 24 secondOfJuly _
    since_secondOfJuly (by rw [hlength]; decide)).2 (.of_flat (by rw [hlength]; decide) ?_ ?_)⟩
  · exact fun row hrow => (hcall row (hmem row hrow)).1
  · exact fun row hrow => (hcall row (hmem row hrow)).2

/-- The tokens of a raw response are in the summary, and not in the totals. -/
theorem summary_disagrees_raw :
    ¬ ∀ (py : Runtime ℚ) (dir : Directory) (store : UsageStore ℚ) (tenantId : String) (hours : ℤ)
      (now : Datetime) (since : Option String), 1 ≤ hours → hours ≤ maxWindowHours →
        windowSince (some hours) now = .ok since →
        (windowRows store (dir.tenantKeyIds tenantId) since).length < maxRows →
          SummaryAgrees py dir store tenantId hours now since := by
  intro h
  have hrows : windowRows (storeOf [rawCall]) (oneKey.tenantKeyIds "acme")
      (some "2026-07-01T00:00:00+00:00") = [rawCall] := by
    have hstored : (storeOf [rawCall]).container.docs = [rawCall] := rfl
    have hperm := windowRows_storeOf hstored (some "2026-07-01T00:00:00+00:00")
    have hin : aggWhere ["k1"] (some "2026-07-01T00:00:00+00:00") rawCall = true :=
      by decide +kernel
    rw [List.filter_singleton, hin] at hperm
    exact List.perm_singleton.1 hperm
  have hagrees := h .strict oneKey (storeOf [rawCall]) "acme" 24 secondOfJuly _ (by decide)
      (by decide)
    since_secondOfJuly (by rw [hrows]; decide)
  have hprompt := ((summary_agrees_iff .strict oneKey (storeOf [rawCall]) "acme" 24 secondOfJuly _
    since_secondOfJuly (by rw [hrows]; decide)).1 hagrees).prompt
  rw [hrows] at hprompt
  exact absurd hprompt (by decide +kernel)

end Usage
end TokenFoundry
