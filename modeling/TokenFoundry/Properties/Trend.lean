import TokenFoundry.Properties.Breakdown

/-!
# The trend and its window

The points of the trend begin at clock hours or days, the window begins at any instant.  The newest
point is the one of the current instant, and every point before it is a full step earlier; the
window therefore reaches back beyond the oldest point, by the part of a step that has gone by since
the newest one began (hours), or by what the days of the window are short of it.

A row is as many steps old as there are steps between its point and the newest one.  The points
together are the rows that are younger than their number (`trend_covers_iff`).
-/

set_option autoImplicit false

namespace TokenFoundry
namespace UsageIngest

/-! ## Slots -/

lemma stepTicks_pos (hours : ℤ) : 0 < stepTicks hours := by
  unfold stepTicks
  split_ifs <;> decide

/-- A slot is known by its name: two instants have the same one if and only if they lie in the same
slot. -/
lemma slotName_inj (hours : ℤ) {d e : Datetime} :
    slotName hours d = slotName hours e ↔
      d.ticks / stepTicks hours = e.ticks / stepTicks hours := by
  unfold slotName stepTicks
  rw [String.ofList_inj]
  cases hourly hours with
  | true => exact Datetime.hourText_inj
  | false => exact Datetime.dateText_inj

/-- The name of the slot of a time stands at the head of its writing. -/
lemma slotName_isoformat (hours : ℤ) (d : Datetime) :
    String.ofList (d.isoformat.toList.take (if hourly hours then 13 else 10)) =
      slotName hours d := by
  unfold slotName
  cases hourly hours with
  | true => exact congrArg String.ofList d.take_isoformat.2
  | false => exact congrArg String.ofList d.take_isoformat.1

/-- The start of a slot, counted back from the current one. -/
def slotAt (hours : ℤ) (now : Datetime) (back : ℕ) : Datetime where
  ticks := (now.ticks / stepTicks hours - back) * stepTicks hours
  inRange := by
    have hle : (now.ticks / stepTicks hours - back) * stepTicks hours ≤ now.ticks :=
      (Nat.mul_le_mul_right _ (Nat.sub_le _ _)).trans (Nat.div_mul_le_self _ _)
    exact hle.trans_lt now.inRange

lemma shift_slotAt {hours : ℤ} {now : Datetime} {back : ℕ}
    (h : back ≤ now.ticks / stepTicks hours) :
    now.shift (-(now.ticks % stepTicks hours + back * stepTicks hours : ℕ)) =
      some (slotAt hours now back) := by
  have hmod := Nat.div_add_mod' now.ticks (stepTicks hours)
  have hback : back * stepTicks hours ≤ now.ticks / stepTicks hours * stepTicks hours :=
    Nat.mul_le_mul_right _ h
  rw [Datetime.shift_eq_some]
  simp only [slotAt, Nat.sub_mul]
  omega

lemma slotAt_index (hours : ℤ) (now : Datetime) (back : ℕ) :
    (slotAt hours now back).ticks / stepTicks hours = now.ticks / stepTicks hours - back :=
  Nat.mul_div_cancel _ (stepTicks_pos hours)

/-- The slots of a window are all representable, back to the oldest, and there is at least one. -/
lemma pointCount_le {hours : ℤ} {now start : Datetime} (hhours : 1 ≤ hours)
    (hstart : now.shift (-(hours * Usage.ticksPerHour)) = some start) :
    1 ≤ pointCount hours ∧ pointCount hours ≤ now.ticks / stepTicks hours + 1 := by
  have hticks := Datetime.shift_eq_some.1 hstart
  unfold Usage.ticksPerHour at hticks
  unfold pointCount stepTicks ticksPerDay
  cases hourly hours with
  | true =>
      simp only [if_true]
      omega
  | false =>
      simp only [Bool.false_eq_true, if_false]
      omega

/-! ## Rows and points -/

section Rows

variable {K : Type}

/-- The instant of a row, read off its time; the importer has written it in UTC. -/
def rowTicks (row : Document K) : ℕ :=
  match Json.get row "ts" with
  | .str ts => ((fromIsoformat ts).map (fun stamp => stamp.clock.ticks)).getD 0
  | _ => 0

/-- The row has the time `t`, written in UTC as the importer writes it. -/
def At (row : Document K) (t : Datetime) : Prop := Json.get row "ts" = .str t.isoformat

lemma At.ticks {row : Document K} {t : Datetime} (h : At row t) : rowTicks row = t.ticks := by
  simp only [rowTicks, show Json.get row "ts" = .str t.isoformat from h,
    Datetime.fromIsoformat_isoformat, Option.map_some, Option.getD_some]

/-- How many steps a row is older than the current slot. -/
def age (hours : ℤ) (now : Datetime) (row : Document K) : ℕ :=
  now.ticks / stepTicks hours - rowTicks row / stepTicks hours

/-- The slot of a row, which is the beginning of its time down to the day or to the hour. -/
def rowSlot (hours : ℤ) (row : Document K) : String :=
  match Json.get row "ts" with
  | .str ts => String.ofList (ts.toList.take (if hourly hours then 13 else 10))
  | _ => ""

/-- The slot of a point, cut off its time in the same way. -/
def Point.slot (hours : ℤ) (point : Point K) : String :=
  String.ofList (point.ts.toList.take (if hourly hours then 13 else 10))

/-- A row is of the slot that is as many steps back as it is old. -/
lemma rowSlot_eq_iff {hours : ℤ} {now t : Datetime} {row : Document K} (hat : At row t)
    (hold : t.ticks ≤ now.ticks) {back : ℕ} (hback : back ≤ now.ticks / stepTicks hours) :
    rowSlot hours row = slotName hours (slotAt hours now back) ↔ age hours now row = back := by
  have hslot : rowSlot hours row = slotName hours t := by
    rw [rowSlot, hat]
    exact slotName_isoformat hours t
  have hle : t.ticks / stepTicks hours ≤ now.ticks / stepTicks hours := Nat.div_le_div_right hold
  rw [hslot, slotName_inj, slotAt_index, age, hat.ticks]
  omega

variable [PyFloat K] {py : Runtime K}

/-- The point of some rows: the sums over those whose age in slots is `back`. -/
def pointOf (py : Runtime K) (hours : ℤ) (now : Datetime) (rows : List (Document K)) (back : ℕ) :
    Point K :=
  let bucket := bucketOf py (rows.filter (fun row => age hours now row = back))
  ⟨(slotAt hours now back).isoformat, (tokenFields.map bucket.tokens).sum, bucket.calls,
    bucket.costUsd⟩

/-- What the loop over the rows leaves: a bucket for each slot that has a row, with all of its
rows. -/
lemma trendBuckets_eq {hours : ℤ} {rows : List (Document K)} (hread : ∀ row ∈ rows, Readable py row)
    (hat : ∀ row ∈ rows, ∃ t, At row t) :
    trendBuckets py hours rows =
      .ok (Grouping.group blank (Bucket.withRow py) (rowSlot hours) rows) := by
  refine foldlM_ok (fun row hrow buckets => ?_) []
  obtain ⟨t, ht⟩ := hat row hrow
  simp only [rowSlot, show Json.get row "ts" = .str t.isoformat from ht]
  exact addToGroup_eq (hread row hrow) _ buckets

/-- One point reads the rows that are as old as it is. -/
lemma trendPoint_eq {hours : ℤ} {now : Datetime} {rows : List (Document K)}
    (hat : ∀ row ∈ rows, ∃ t, At row t ∧ t.ticks ≤ now.ticks) {back : ℕ}
    (hback : back ≤ now.ticks / stepTicks hours) :
    trendPoint hours (Grouping.group blank (Bucket.withRow py) (rowSlot hours) rows) now back =
      .ok (pointOf py hours now rows back) := by
  have hslot : ∀ row ∈ rows,
      (rowSlot hours row = slotName hours (slotAt hours now back) ↔ age hours now row = back) := by
    intro row hrow
    obtain ⟨t, ht, hold⟩ := hat row hrow
    exact rowSlot_eq_iff ht hold hback
  have hrows : rows.filter (fun row => rowSlot hours row = slotName hours (slotAt hours now back)) =
      rows.filter (fun row => age hours now row = back) :=
    List.filter_congr (fun row hrow => by simp only [hslot row hrow])
  unfold trendPoint
  simp only [shift_slotAt hback, Grouping.lookup_group, hrows]
  split_ifs with hsome
  · rfl
  · have hnone : rows.filter (fun row => age hours now row = back) = [] := by
      refine List.filter_eq_nil_iff.2 (fun row hrow hage => hsome ⟨row, hrow, ?_⟩)
      exact (hslot row hrow).2 (by simpa using hage)
    simp only [pointOf, hnone]
    rfl

/-- **The trend** is a point for every age below the number of points. -/
lemma costTrend_eq {store : UsageStore K} {subscriptionIds : Option (List String)}
    {sinceIso : Option String} {hours : ℤ} {now : Datetime}
    (hopen : store.endpoint = true ∧ subscriptionIds ≠ some [])
    (hread : ∀ d ∈ store.aggDocs subscriptionIds sinceIso, Readable py d)
    (hat : ∀ d ∈ store.aggDocs subscriptionIds sinceIso, ∃ t, At d t ∧ t.ticks ≤ now.ticks)
    (hcount : pointCount hours ≤ now.ticks / stepTicks hours + 1) :
    store.costTrend py subscriptionIds sinceIso hours now =
      .ok ((List.range (pointCount hours)).reverse.map
        (pointOf py hours now (store.aggDocs subscriptionIds sinceIso))) := by
  have hdocs : store.aggDocs subscriptionIds sinceIso =
      store.select (subscriptionIds.getD []) sinceIso 0 maxRows := by
    rw [UsageStore.aggDocs, if_neg (by simp [hopen])]
  rw [hdocs] at hread hat ⊢
  have hcolumns : aggColumns ⊆ aggColumns ++ ["ts"] := List.subset_append_left _ _
  have hts : ∀ d : Document K, Json.get (project (aggColumns ++ ["ts"]) d) "ts" = Json.get d "ts" :=
    get_project (by simp)
  have hbuckets : trendBuckets py hours (store.fetchAggRows subscriptionIds sinceIso ["ts"]) =
      .ok (Grouping.group blank (Bucket.withRow py) (rowSlot hours)
        (store.select (subscriptionIds.getD []) sinceIso 0 maxRows)) := by
    rw [trendBuckets_eq, UsageStore.fetchAggRows, Grouping.group, List.foldl_map]
    · simp only [withRow_project hcolumns, rowSlot, hts]
      rfl
    · intro row hrow
      obtain ⟨d, hd, rfl⟩ := List.mem_map.1 hrow
      exact (readable_project hcolumns).2 (hread d hd)
    · intro row hrow
      obtain ⟨d, hd, rfl⟩ := List.mem_map.1 hrow
      obtain ⟨t, ht, -⟩ := hat d hd
      exact ⟨t, (hts d).trans ht⟩
  rw [UsageStore.costTrend, if_neg (by simp [hopen]), hbuckets]
  refine mapM_ok (fun back hback => trendPoint_eq hat ?_)
  have hlt := List.mem_range.1 (List.mem_reverse.1 hback)
  omega

end Rows

/-! ## The window -/

/-- Calls, tokens and cost, which is what a point shows of its bucket. -/
def Bucket.amounts (bucket : Bucket ℚ) : ℕ × ℤ × ℚ :=
  (bucket.calls, (tokenFields.map bucket.tokens).sum, bucket.costUsd)

def Point.amounts (point : Point ℚ) : ℕ × ℤ × ℚ := (point.calls, point.tokens, point.costUsd)

/-- What a row adds to them: one call, its tokens and its cost. -/
def rowAmounts (py : Runtime ℚ) (row : Document ℚ) : ℕ × ℤ × ℚ :=
  (1, (tokenFields.map (tokensIn py row)).sum, amountIn py row "cost_usd")

lemma amounts_bucketOf (py : Runtime ℚ) (rows : List (Document ℚ)) :
    (bucketOf py rows).amounts = (rows.map (rowAmounts py)).sum := by
  have hstep : ∀ (bucket : Bucket ℚ) (row : Document ℚ),
      (bucket.withRow py row).amounts = bucket.amounts + rowAmounts py row := by
    intro bucket row
    refine Prod.ext (countCall_calls bucket _) (Prod.ext ?_ rfl)
    simp only [Bucket.withRow, Bucket.amounts, rowAmounts, tokenFields, List.map_cons, List.map_nil,
      List.sum_cons, List.sum_nil, Prod.snd_add, Prod.fst_add]
    omega
  have hblank : (blank : Bucket ℚ).amounts = 0 := Prod.ext rfl (Prod.ext rfl Nat.cast_zero)
  rw [bucketOf, Grouping.measure_foldl hstep, hblank, zero_add]

/-- Every row of a query is counted in exactly one point of the trend, and so the points add up to
the totals. -/
def TrendCovers (py : Runtime ℚ) (store : UsageStore ℚ) (subscriptionIds : Option (List String))
    (sinceIso : Option String) (hours : ℤ) (now : Datetime) : Prop :=
  ∃ points totals,
    store.costTrend py subscriptionIds sinceIso hours now = .ok points ∧
    store.costTotals py subscriptionIds sinceIso = .ok totals ∧
    (∀ point ∈ points, point.amounts = (bucketOf py ((store.aggDocs subscriptionIds sinceIso).filter
      (fun row => rowSlot hours row = point.slot hours))).amounts) ∧
    (∀ row ∈ store.aggDocs subscriptionIds sinceIso,
      points.countP (fun point => rowSlot hours row = point.slot hours) = 1) ∧
    (points.map Point.amounts).sum = totals.amounts

/-- The start of the oldest point; a row before it is in no point, wherever the window begins. -/
def oldestStart (hours : ℤ) (now : Datetime) : ℕ :=
  (now.ticks / stepTicks hours - (pointCount hours - 1)) * stepTicks hours

section Window

variable {py : Runtime ℚ} {hours : ℤ} {now : Datetime} {rows : List (Document ℚ)}

lemma age_lt_iff (hcount : 1 ≤ pointCount hours) (row : Document ℚ) :
    age hours now row < pointCount hours ↔ oldestStart hours now ≤ rowTicks row := by
  rw [oldestStart, ← Nat.le_div_iff_mul_le (stepTicks_pos hours), age]
  generalize now.ticks / stepTicks hours = current
  generalize rowTicks row / stepTicks hours = slot
  omega

lemma slot_pointOf (back : ℕ) :
    (pointOf py hours now rows back).slot hours = slotName hours (slotAt hours now back) :=
  slotName_isoformat hours (slotAt hours now back)

/-- A point counts the rows of its slot: the slot's name and the age of a row say the same. -/
lemma amounts_pointOf (hat : ∀ row ∈ rows, ∃ t, At row t ∧ t.ticks ≤ now.ticks) {back : ℕ}
    (hback : back ≤ now.ticks / stepTicks hours) :
    (pointOf py hours now rows back).amounts = (bucketOf py (rows.filter
      (fun row => rowSlot hours row = (pointOf py hours now rows back).slot hours))).amounts := by
  have hrows : rows.filter
      (fun row => rowSlot hours row = (pointOf py hours now rows back).slot hours) =
        rows.filter (fun row => age hours now row = back) := by
    refine List.filter_congr (fun row hrow => ?_)
    obtain ⟨t, ht, hold⟩ := hat row hrow
    simp only [slot_pointOf, rowSlot_eq_iff ht hold hback]
  rw [hrows]
  rfl

/-- The points of the slot of a row: one, or none where the row is too old. -/
lemma countP_pointOf (hcount : pointCount hours ≤ now.ticks / stepTicks hours + 1)
    {row : Document ℚ} {t : Datetime} (hat : At row t) (hold : t.ticks ≤ now.ticks) :
    ((List.range (pointCount hours)).reverse.map (pointOf py hours now rows)).countP
        (fun point => rowSlot hours row = point.slot hours) =
      if age hours now row < pointCount hours then 1 else 0 := by
  rw [List.map_reverse, List.countP_reverse, List.countP_map]
  have hcongr : (List.range (pointCount hours)).countP
      ((fun point => decide (rowSlot hours row = point.slot hours)) ∘ pointOf py hours now rows) =
        (List.range (pointCount hours)).count (age hours now row) := by
    refine List.countP_congr (fun back hback => ?_)
    have hle : back ≤ now.ticks / stepTicks hours :=
      Nat.lt_succ_iff.1 ((List.mem_range.1 hback).trans_le hcount)
    simp only [Function.comp_apply, slot_pointOf, rowSlot_eq_iff hat hold hle, decide_eq_true_eq,
      beq_iff_eq]
    exact eq_comm
  rw [hcongr]
  split_ifs with hage
  · exact List.count_eq_one_of_mem List.nodup_range (List.mem_range.2 hage)
  · exact List.count_eq_zero.2 (by simpa using hage)

/-- All points together: the rows that are young enough, each in exactly one of them. -/
lemma sum_pointOf :
    (((List.range (pointCount hours)).reverse.map (pointOf py hours now rows)).map
      Point.amounts).sum =
      ((rows.filter (fun row => age hours now row < pointCount hours)).map
        (rowAmounts py)).sum := by
  rw [List.map_map, (((List.range _).reverse_perm).map _).sum_eq, ← Grouping.sum_range_fibers]
  refine congrArg List.sum (List.map_congr_left (fun back _ => ?_))
  exact amounts_bucketOf py _

end Window

/-- **The trend covers its window** if and only if no row is older than the oldest point. -/
theorem trend_covers_iff (py : Runtime ℚ) (store : UsageStore ℚ)
    (subscriptionIds : Option (List String)) (sinceIso : Option String) (hours : ℤ)
    (now start : Datetime) (hhours : 1 ≤ hours)
    (hstart : now.shift (-(hours * Usage.ticksPerHour)) = some start)
    (hread : ∀ d ∈ store.aggDocs subscriptionIds sinceIso, Readable py d)
    (hat : ∀ d ∈ store.aggDocs subscriptionIds sinceIso,
      ∃ t, At d t ∧ start.ticks ≤ t.ticks ∧ t.ticks ≤ now.ticks) :
    TrendCovers py store subscriptionIds sinceIso hours now ↔
      ∀ d ∈ store.aggDocs subscriptionIds sinceIso, oldestStart hours now ≤ rowTicks d := by
  obtain ⟨hone, hcount⟩ := pointCount_le hhours hstart
  have hold : ∀ d ∈ store.aggDocs subscriptionIds sinceIso, ∃ t, At d t ∧ t.ticks ≤ now.ticks := by
    intro d hd
    obtain ⟨t, ht, -, hnow⟩ := hat d hd
    exact ⟨t, ht, hnow⟩
  have htotals := costTotals_aggDocs hread
  by_cases hopen : store.endpoint = true ∧ subscriptionIds ≠ some []
  · have htrend := costTrend_eq hopen hread hold hcount
    constructor
    · rintro ⟨points, totals, hpoints, -, -, honce, -⟩ d hd
      cases htrend.symm.trans hpoints
      obtain ⟨t, ht, hnow⟩ := hold d hd
      have hd := honce d hd
      rw [countP_pointOf hcount ht hnow] at hd
      refine (age_lt_iff hone d).1 ?_
      by_contra hage
      rw [if_neg hage] at hd
      cases hd
    · intro hyoung
      refine ⟨_, _, htrend, htotals, ?_, ?_, ?_⟩
      · intro point hpoint
        obtain ⟨back, hback, rfl⟩ := List.mem_map.1 hpoint
        have hlt := List.mem_range.1 (List.mem_reverse.1 hback)
        exact amounts_pointOf hold (by omega)
      · intro d hd
        obtain ⟨t, ht, hnow⟩ := hold d hd
        rw [countP_pointOf hcount ht hnow, if_pos ((age_lt_iff hone d).2 (hyoung d hd))]
      · rw [sum_pointOf, amounts_bucketOf, List.filter_eq_self.2]
        exact fun d hd => decide_eq_true ((age_lt_iff hone d).2 (hyoung d hd))
  · have hclosed : (! store.endpoint || decide (subscriptionIds = some [])) = true := by
      by_contra h
      exact hopen (by simpa using h)
    have hdocs : store.aggDocs subscriptionIds sinceIso = [] := if_pos hclosed
    rw [hdocs] at htotals
    have htrend : store.costTrend py subscriptionIds sinceIso hours now = .ok [] := if_pos hclosed
    refine ⟨fun _ => by simp [hdocs], fun _ => ⟨_, _, htrend, htotals, ?_⟩⟩
    simp [hdocs, amounts_bucketOf]

/-! ### Some calls -/

/-- A call at a time, with some tokens, at two dollars. -/
def timedCall (id : String) (t : Datetime) (tokens : ℤ) : Document ℚ :=
  [("id", .str id), ("pk", .str "k1_202607"), ("subscription", .str "k1"),
    ("ts", .str t.isoformat), ("prompt_tok", .int tokens), ("cost_usd", .float 2)]

/-- The store with some calls, which answers in the order of their times. -/
noncomputable def timedStore (calls : List (Document ℚ)) : UsageStore ℚ :=
  ⟨true, Engine.byTime, calls.foldl Container.upsert Container.empty⟩

lemma mem_aggDocs_timedStore {calls : List (Document ℚ)} {d : Document ℚ}
    (hdocs : (timedStore calls).container.docs = calls) (hfew : calls.length ≤ maxRows)
    (hmine : ∀ call ∈ calls, aggWhere ["k1"] none call = true) :
    d ∈ (timedStore calls).aggDocs (some ["k1"]) none ↔ d ∈ calls := by
  have hopen : ¬ (! (timedStore calls).endpoint || decide (some ["k1"] = some [])) = true := by
    simp [timedStore]
  have hselected : (timedStore calls).container.docs.filter (aggWhere ["k1"] none) = calls := by
    rw [hdocs]
    exact List.filter_eq_self.2 hmine
  have hperm := (timedStore calls).engine.perm calls
  show d ∈ (if _ then [] else (timedStore calls).select ["k1"] none 0 maxRows) ↔ _
  rw [if_neg hopen]
  show d ∈ (((timedStore calls).engine.order ((timedStore calls).container.docs.filter
    (aggWhere ["k1"] none))).drop 0).take maxRows ↔ _
  rw [hselected, List.drop_zero, List.take_of_length_le (hperm.length_eq.trans_le hfew)]
  exact hperm.mem_iff

/-- The second of July at half past noon, an hour and three hours before, and the times of some
calls. -/
def halfPastNoon : Datetime := ⟨63918592200000000, by decide⟩

def hourBefore : Datetime := ⟨63918588600000000, by decide⟩

def threeHoursBefore : Datetime := ⟨63918581400000000, by decide⟩

def quarterPastNoon : Datetime := ⟨63918591300000000, by decide⟩

def quarterToNoon : Datetime := ⟨63918589500000000, by decide⟩

def quarterPastTen : Datetime := ⟨63918584100000000, by decide⟩

/-- Calls of the last three hours, two of them within the same hour. -/
def morningCalls : List (Document ℚ) :=
  [timedCall "r1" quarterPastTen 7, timedCall "r2" quarterToNoon 5,
    timedCall "r3" quarterPastNoon 11, timedCall "r4" quarterPastTen 1]

/-- The calls are in the points of the three hours. -/
theorem trend_covers_morning :
    (∀ d, d ∈ (timedStore morningCalls).aggDocs (some ["k1"]) none ↔ d ∈ morningCalls) ∧
    TrendCovers .strict (timedStore morningCalls) (some ["k1"]) none 3 halfPastNoon := by
  have hmem : ∀ d, d ∈ (timedStore morningCalls).aggDocs (some ["k1"]) none ↔ d ∈ morningCalls :=
    fun d => mem_aggDocs_timedStore rfl (by decide) (fun call hcall => by
      simp only [morningCalls, List.mem_cons, List.not_mem_nil, or_false] at hcall
      rcases hcall with rfl | rfl | rfl | rfl <;> rfl)
  have hcall : ∀ d ∈ morningCalls, Readable .strict d ∧ ∃ t, At d t ∧
      threeHoursBefore.ticks ≤ t.ticks ∧ t.ticks ≤ halfPastNoon.ticks ∧
        oldestStart 3 halfPastNoon ≤ t.ticks := by
    intro d hd
    simp only [morningCalls, List.mem_cons, List.not_mem_nil, or_false] at hd
    rcases hd with rfl | rfl | rfl | rfl
    all_goals exact ⟨readable_of_numeric rfl, _, rfl, by decide, by decide, by decide⟩
  refine ⟨hmem, (trend_covers_iff .strict (timedStore morningCalls) (some ["k1"]) none 3
    halfPastNoon threeHoursBefore (by decide) (by decide) ?_ ?_).2 ?_⟩
  · exact fun d hd => (hcall d ((hmem d).1 hd)).1
  · intro d hd
    obtain ⟨-, t, hat, hstart, hnow, -⟩ := hcall d ((hmem d).1 hd)
    exact ⟨t, hat, hstart, hnow⟩
  · intro d hd
    obtain ⟨-, t, hat, -, -, hyoung⟩ := hcall d ((hmem d).1 hd)
    rw [hat.ticks]
    exact hyoung

/-- A call before noon is in the window of an hour, and in no point. -/
theorem trend_clips_before_noon :
    ¬ ∀ (py : Runtime ℚ) (store : UsageStore ℚ) (subscriptionIds : Option (List String))
      (sinceIso : Option String) (hours : ℤ) (now start : Datetime), 1 ≤ hours →
        now.shift (-(hours * Usage.ticksPerHour)) = some start →
        (∀ d ∈ store.aggDocs subscriptionIds sinceIso, Readable py d) →
        (∀ d ∈ store.aggDocs subscriptionIds sinceIso,
          ∃ t, At d t ∧ start.ticks ≤ t.ticks ∧ t.ticks ≤ now.ticks) →
          TrendCovers py store subscriptionIds sinceIso hours now := by
  intro h
  have hmem : ∀ d, d ∈ (timedStore [timedCall "r1" quarterToNoon 7]).aggDocs (some ["k1"]) none ↔
      d ∈ [timedCall "r1" quarterToNoon 7] :=
    fun d => mem_aggDocs_timedStore rfl (by decide) (fun call hcall => by
      rw [List.mem_singleton.1 hcall]
      rfl)
  have hread : ∀ d ∈ (timedStore [timedCall "r1" quarterToNoon 7]).aggDocs (some ["k1"]) none,
      Readable .strict d := by
    intro d hd
    rw [List.mem_singleton.1 ((hmem d).1 hd)]
    exact readable_of_numeric rfl
  have hat : ∀ d ∈ (timedStore [timedCall "r1" quarterToNoon 7]).aggDocs (some ["k1"]) none,
      ∃ t, At d t ∧ hourBefore.ticks ≤ t.ticks ∧ t.ticks ≤ halfPastNoon.ticks := by
    intro d hd
    rw [List.mem_singleton.1 ((hmem d).1 hd)]
    exact ⟨quarterToNoon, rfl, by decide, by decide⟩
  have hcovers := h .strict (timedStore [timedCall "r1" quarterToNoon 7]) (some ["k1"]) none 1
    halfPastNoon hourBefore (by decide) (by decide) hread hat
  have hyoung := (trend_covers_iff .strict (timedStore [timedCall "r1" quarterToNoon 7])
    (some ["k1"]) none 1 halfPastNoon hourBefore (by decide) (by decide) hread hat).1 hcovers
    (timedCall "r1" quarterToNoon 7) ((hmem _).2 (List.mem_singleton_self _))
  have hticks : At (timedCall "r1" quarterToNoon 7) quarterToNoon := rfl
  rw [hticks.ticks] at hyoung
  exact absurd hyoung (by decide)

end UsageIngest
end TokenFoundry
