import TokenFoundry.Properties.Reimport
import TokenFoundry.Properties.TenantIsolation
import TokenFoundry.Properties.UsageTotals
import Mathlib.Tactic.Ring
import Mathlib.Tactic.FieldSimp

/-!
# Billing is conserved

Events are imported blob by blob, in any order and as often as the overlap of the watermark makes
it.  In exact arithmetic the totals of the store are nevertheless those of the events, each counted
once: its calls, what upstream has priced it at, what it is billed and its tokens (`conservation`).

The values of an event are defined here from what it says, and not through its document.
-/

set_option autoImplicit false

namespace TokenFoundry
namespace UsageCaptureImport

open Prog.Raising (exec)
open Billing (TokenField Tokens)
open UsageIngest

/-! ## The values of an event -/

/-- What upstream has priced a call at; nothing where it has not priced it. -/
def nanoAiu (event : Dict ℚ) : ℤ :=
  match Json.get event "copilot_usage" with
  | .dict usage =>
      match Json.get usage "total_nano_aiu" with
      | .int n => n
      | _ => 0
  | _ => 0

/-- The price in dollars, of the total that upstream reports; a specification of its own, without
the code's functions. -/
def ownCost (event : Dict ℚ) : ℚ := nanoAiu event / 10 ^ 11

/-- The markup of the model, or none for a model that has no route. -/
def ownMarkup (markups : Markups ℚ) (event : Dict ℚ) : ℚ :=
  match modelOf event with
  | .str name => (markups.lookup name).getD 0
  | _ => 0

/-- The amount that is billed for a call: its price and the markup, rounded as amounts are. -/
def ownBilled (markups : Markups ℚ) (event : Dict ℚ) : ℚ :=
  PyFloat.round (ownCost event * (1 + ownMarkup markups event)) 11

/-- The name that upstream gives the tokens of a column. -/
def tokenType : TokenField → String
  | .promptTok => "input"
  | .completionTok => "output"
  | .cachedTok => "cache_read"
  | .cacheWriteTok => "cache_write"

/-- A reported number of tokens.  A fraction of a token is cut off, and what is no number reports
none. -/
def reported : Json ℚ → ℤ
  | .int n => n
  | .float x => x.num.tdiv x.den
  | _ => 0

/-- What an entry of upstream's details reports for a column. -/
def entryTokens (field : TokenField) : Json ℚ → ℤ
  | .dict entry =>
      match Json.get entry "token_type" with
      | .str name => if name = tokenType field then reported (Json.get entry "token_count") else 0
      | _ => 0
  | _ => 0

/-- Upstream's details, if it sends a list of them. -/
def upstreamDetails (event : Dict ℚ) : List (Json ℚ) :=
  match Json.get event "copilot_usage" with
  | .dict usage =>
      match Json.get usage "token_details" with
      | .list details => details
      | _ => []
  | _ => []

/-- Upstream's split of the tokens: the sum of its reports for a column. -/
def splitTokens (event : Dict ℚ) (field : TokenField) : ℤ :=
  ((upstreamDetails event).map (entryTokens field)).sum

/-- Upstream has split nothing: the details count nothing in any column. -/
def unsplit (event : Dict ℚ) : Bool :=
  [TokenField.promptTok, .completionTok, .cachedTok, .cacheWriteTok].all
    (fun field => splitTokens event field = 0)

/-- The tokens of a call: upstream's split, or where it has none the counts of the hub, which knows
nothing of cache writes. -/
def ownTokens (event : Dict ℚ) (field : TokenField) : ℤ :=
  if unsplit event then
    match field with
    | .promptTok => reported (Json.get event "input_tokens")
    | .completionTok => reported (Json.get event "output_tokens")
    | .cachedTok => reported (Json.get event "cached_tokens")
    | .cacheWriteTok => 0
  else splitTokens event field

/-- The event has a time of its own, so that the clock of the run plays no part. -/
def Timed (event : Dict ℚ) : Prop := ∃ ts, ownTime (Json.get event "ts") = some (.ok ts)

/-- The total of upstream, if there is one, is an integer. -/
def IntegerPrice (event : Dict ℚ) : Prop :=
  ∀ usage x, Json.get event "copilot_usage" = .dict usage →
    Json.get usage "total_nano_aiu" ≠ .float x

/-! ## The document has these values -/

/-- Eleven places are enough for a nano-AIU: such an amount is not changed by rounding. -/
lemma round_nano (n : ℤ) : PyFloat.round ((n : ℚ) / 10 ^ 11) 11 = (n : ℚ) / 10 ^ 11 := by
  set x : ℚ := (n : ℚ) / 10 ^ 11 with hx
  have hden : (0 : ℤ) < x.den := by exact_mod_cast x.den_pos
  have hcross : x.num * 10 ^ 11 = n * x.den := by
    have hdiv : (x.num : ℚ) / x.den = n / 10 ^ 11 := x.num_div_den
    rw [div_eq_div_iff (by exact_mod_cast x.den_nz) (by norm_num)] at hdiv
    exact_mod_cast hdiv
  have habs : x.num.natAbs * 10 ^ 11 = n.natAbs * x.den := by
    have h := congrArg Int.natAbs hcross
    simpa [Int.natAbs_mul, Int.natAbs_pow] using h
  have hsign : x.num.sign = n.sign := by
    have h := congrArg Int.sign hcross
    rw [Int.sign_mul, Int.sign_mul, Int.sign_eq_one_of_pos hden,
      Int.sign_eq_one_of_pos (show (0 : ℤ) < 10 ^ 11 by norm_num), mul_one, mul_one] at h
    exact h
  change (x.num.sign * (nearest (x.num.natAbs * 10 ^ 11) x.den : ℕ) : ℚ) / 10 ^ 11 = x
  rw [habs, nearest_mul _ x.den_pos, hsign, hx]
  rw [← Int.cast_natCast n.natAbs, ← Int.cast_mul, Int.sign_mul_natAbs]

lemma tokenTypeField_eq_some {name : String} {field : TokenField} :
    Billing.tokenTypeField name = some field ↔ name = tokenType field := by
  constructor
  · intro h
    unfold Billing.tokenTypeField at h
    split at h
    all_goals cases h
    all_goals rfl
  · rintro rfl
    cases field <;> rfl

/-- A quotient that is cut off, by its sign and its amount. -/
lemma tdiv_eq (m : ℤ) (n : ℕ) : m.tdiv n = m.sign * (m.natAbs / n : ℕ) := by
  obtain ⟨k, rfl | rfl⟩ := m.eq_nat_or_neg
  · rcases k.eq_zero_or_pos with rfl | hk
    · simp
    · rw [Int.sign_natCast_of_ne_zero hk.ne', one_mul, Int.natAbs_natCast]
      rfl
  · rcases k.eq_zero_or_pos with rfl | hk
    · simp
    · rw [Int.sign_neg, Int.sign_natCast_of_ne_zero hk.ne', Int.neg_tdiv, Int.natAbs_neg,
        Int.natAbs_natCast, neg_one_mul]
      rfl

/-- A count that is read is the one reported. -/
lemma reported_of_count {v : Json ℚ} {n : ℤ} (h : Billing.count v = some (.ok n)) :
    reported v = n := by
  cases v with
  | int m =>
      cases h
      rfl
  | float x =>
      have hn : x.num.sign * (x.num.natAbs / x.den : ℕ) = n := by
        cases h
        rfl
      rw [← hn, reported, tdiv_eq]
  | _ => cases h

lemma reported_of_count_none {v : Json ℚ} (h : Billing.count v = none) : reported v = 0 := by
  cases v with
  | int m => cases h
  | float x => cases h
  | _ => rfl

/-- What the loop reads of an entry is what the entry reports for its column. -/
lemma entryTokens_of_some {entry : Json ℚ} {field' : TokenField} {n : ℤ}
    (h : Billing.entryCount entry = some (field', .ok n)) (field : TokenField) :
    entryTokens field entry = if field' = field then n else 0 := by
  cases entry with
  | dict entry =>
      cases htype : Json.get entry "token_type" with
      | str name =>
          simp only [Billing.entryCount, htype] at h
          cases hname : Billing.tokenTypeField name with
          | none =>
              rw [hname] at h
              cases h
          | some field₀ =>
              cases hcount : Billing.count (Json.get entry "token_count") with
              | none =>
                  rw [hname, hcount] at h
                  cases h
              | some read =>
                  rw [hname, hcount] at h
                  cases h
                  rw [tokenTypeField_eq_some] at hname
                  simp only [entryTokens, htype, hname, reported_of_count hcount]
                  by_cases hfield : field' = field
                  · simp [hfield]
                  · have hne : tokenType field' ≠ tokenType field := by
                      intro heq
                      have h' := tokenTypeField_eq_some.2 heq
                      rw [tokenTypeField_eq_some.2 rfl] at h'
                      exact hfield (Option.some.inj h')
                    simp [hfield, hne]
      | _ =>
          simp only [Billing.entryCount, htype] at h
          cases h
  | _ => cases h

/-- An entry that the loop passes over reports nothing for any column. -/
lemma entryTokens_of_none {entry : Json ℚ} (h : Billing.entryCount entry = none)
    (field : TokenField) : entryTokens field entry = 0 := by
  cases entry with
  | dict entry =>
      cases htype : Json.get entry "token_type" with
      | str name =>
          simp only [entryTokens, htype]
          split_ifs with hname
          · rw [← tokenTypeField_eq_some] at hname
            simp only [Billing.entryCount, htype, hname] at h
            cases hcount : Billing.count (Json.get entry "token_count") with
            | none => exact reported_of_count_none hcount
            | some read =>
                rw [hcount] at h
                cases h
          · rfl
      | _ => simp only [entryTokens, htype]
  | _ => rfl

lemma addEntry_eq {out out' : Tokens} {entry : Json ℚ} (h : Billing.addEntry out entry = .ok out')
    (field : TokenField) : out' field = out field + entryTokens field entry := by
  unfold Billing.addEntry at h
  cases hcount : Billing.entryCount entry with
  | none =>
      rw [hcount] at h
      cases h
      rw [entryTokens_of_none hcount, add_zero]
  | some p =>
      obtain ⟨field', n⟩ := p
      rw [hcount] at h
      cases n with
      | error f => cases h
      | ok n =>
          cases h
          rw [entryTokens_of_some hcount]
          by_cases hfield : field' = field
          · simp [hfield]
          · simp [hfield, Function.update_of_ne (Ne.symm hfield)]

lemma tokenDetails_eq (event : Dict ℚ) :
    Billing.tokenDetails (Json.get event "copilot_usage") = upstreamDetails event := by
  unfold Billing.tokenDetails upstreamDetails
  cases Json.get event "copilot_usage" with
  | dict usage =>
      dsimp only
      cases Json.get usage "token_details" <;> rfl
  | _ => rfl

/-- The loop over the details adds up their entries, by column. -/
lemma tokensFromCopilotUsage_eq {event : Dict ℚ} {tokens : Tokens}
    (h : Billing.tokensFromCopilotUsage (Json.get event "copilot_usage") = .ok tokens) :
    tokens = splitTokens event := by
  have hfold : ∀ (details : List (Json ℚ)) (out tokens : Tokens),
      details.foldlM Billing.addEntry out = .ok tokens →
        ∀ field, tokens field = out field + (details.map (entryTokens field)).sum := by
    intro details
    induction details with
    | nil =>
        intro out tokens h field
        cases h
        simp
    | cons entry details ih =>
        intro out tokens h field
        rw [List.foldlM_cons] at h
        obtain ⟨out', hentry, h⟩ := Outcomes.bind_eq_ok.1 h
        rw [ih out' tokens h field, List.map_cons, List.sum_cons, ← add_assoc,
          addEntry_eq hentry field]
  rw [Billing.tokensFromCopilotUsage, tokenDetails_eq] at h
  funext field
  rw [hfold _ _ _ h field]
  exact zero_add _

lemma int_eq {event : Dict ℚ} {field : String} {n : ℤ} (h : int (Json.get event field) = .ok n) :
    n = reported (Json.get event field) := by
  unfold int at h
  cases hcount : Billing.count (Json.get event field) with
  | none =>
      rw [hcount] at h
      cases h
      rw [reported_of_count_none hcount]
  | some read =>
      rw [hcount] at h
      cases h
      rw [reported_of_count hcount]

/-- The code asks whether any column counts something, which is whether the details have split the
tokens. -/
lemma any_splitTokens (event : Dict ℚ) :
    Billing.Tokens.any (splitTokens event) = ! unsplit event := by
  simp [Billing.Tokens.any, unsplit]

lemma tokensOf_eq {event : Dict ℚ} {tokens : Tokens} (h : tokensOf event = .ok tokens) :
    tokens = ownTokens event := by
  obtain ⟨split, hsplit, h⟩ := Outcomes.bind_eq_ok.1 h
  rw [tokensFromCopilotUsage_eq hsplit, any_splitTokens] at h
  funext field
  unfold ownTokens
  cases hunsplit : unsplit event with
  | false =>
      rw [hunsplit] at h
      cases h
      rfl
  | true =>
      rw [hunsplit] at h
      obtain ⟨prompt, hprompt, h⟩ := Outcomes.bind_eq_ok.1 h
      obtain ⟨completion, hcompletion, h⟩ := Outcomes.bind_eq_ok.1 h
      obtain ⟨cached, hcached, h⟩ := Outcomes.bind_eq_ok.1 h
      cases h
      cases field with
      | promptTok => exact int_eq hprompt
      | completionTok => exact int_eq hcompletion
      | cachedTok => exact int_eq hcached
      | cacheWriteTok => rfl

lemma cost_eq {event : Dict ℚ} {markups : Markups ℚ} {markup : ℚ}
    {cost : Option (Billing.CostBreakdown ℚ)} (hprice : IntegerPrice event)
    (hmarkup : markupOf markups (modelOf event) = .ok markup)
    (h : Billing.costFromCopilotUsage (Json.get event "copilot_usage") markup = .ok cost) :
    (cost.map Billing.CostBreakdown.costUsd).getD 0 = ownCost event ∧
      (cost.map Billing.CostBreakdown.billedUsd).getD 0 = ownBilled markups event := by
  -- Without a price there is no breakdown, and both sides are zero.
  have hfree : nanoAiu event = 0 → cost = none →
      (cost.map Billing.CostBreakdown.costUsd).getD 0 = ownCost event ∧
        (cost.map Billing.CostBreakdown.billedUsd).getD 0 = ownBilled markups event := by
    rintro hnano rfl
    have hcost : ownCost event = 0 := by simp [ownCost, hnano]
    refine ⟨by simp [hcost], ?_⟩
    have hround := round_nano 0
    simp only [Int.cast_zero, zero_div] at hround
    simp [ownBilled, hcost, hround]
  -- The markup is that of the model; a model that cannot be looked up has raised.
  have hown : markup = ownMarkup markups event := by
    unfold ownMarkup
    cases hmodel : modelOf event with
    | str name =>
        rw [hmodel] at hmarkup
        cases hmarkup
        rfl
    | list xs =>
        rw [hmodel] at hmarkup
        cases hmarkup
    | dict fields =>
        rw [hmodel] at hmarkup
        cases hmarkup
    | _ =>
        rw [hmodel] at hmarkup
        cases hmarkup
        rfl
  cases husage : Json.get event "copilot_usage" with
  | dict usage =>
    rw [husage] at h
    cases htotal : Json.get usage "total_nano_aiu" with
    | int n =>
        simp only [Billing.costFromCopilotUsage, htotal, Billing.numeral] at h
        -- An integer number of nano units is a decimal fraction of eleven places, which rounding to
        -- eleven places leaves as it is.
        have hunit : PyFloat.div (n : ℚ) Billing.nanoAiuPerUsd = n / 10 ^ 11 := by
          change (n : ℚ) / ((100000000000 : ℕ) : ℚ) = _
          norm_num
        have hcost : ownCost event = n / 10 ^ 11 := by simp [ownCost, nanoAiu, husage, htotal]
        cases h
        constructor
        · change PyFloat.round (PyFloat.div (n : ℚ) Billing.nanoAiuPerUsd) 11 = _
          rw [hunit, round_nano, hcost]
        · change PyFloat.round (PyFloat.div (n : ℚ) Billing.nanoAiuPerUsd *
            (((1 : ℕ) : ℚ) + markup)) 11 = _
          rw [hunit, hown, Nat.cast_one, ownBilled, hcost]
    | float x => exact absurd htotal (hprice usage x husage)
    | _ =>
        simp only [Billing.costFromCopilotUsage, htotal, Billing.numeral] at h
        cases h
        exact hfree (by simp [nanoAiu, husage, htotal]) rfl
  | _ =>
    rw [husage] at h
    cases h
    exact hfree (by simp [nanoAiu, husage]) rfl

/-! ## The documents of the events -/

section Documents

variable {py : Runtime ℚ} {markups : Markups ℚ}

/-- The document of an event with a time of its own. -/
def documentOf (py : Runtime ℚ) (markups : Markups ℚ) (event : Dict ℚ) : Option (Document ℚ) :=
  match eventToDocument py event markups ⟨0, ticksLimit_pos⟩ with
  | .ok doc => doc
  | .error _ => none

/-- The clock does not matter to the document of an event with a time of its own. -/
lemma eventToDocument_timed {event : Dict ℚ} (h : Timed event) (now now' : Datetime) :
    eventToDocument py event markups now = eventToDocument py event markups now' := by
  obtain ⟨ts, hts⟩ := h
  have hagree : Agree (⟨event, markups, now⟩ : Import ℚ) ⟨event, markups, now'⟩ :=
    ⟨rfl, fun hnone => by simp [hts] at hnone, rfl⟩
  exact hagree.document

/-- What the document of an event says to the totals. -/
structure HasValues (py : Runtime ℚ) (markups : Markups ℚ) (event : Dict ℚ) (doc : Document ℚ) :
    Prop where
  readable : Readable py doc
  tokens : ∀ field, tokensIn py doc field = ownTokens event field
  cost : amountIn py doc "cost_usd" = ownCost event
  billed : amountIn py doc "billed_usd" = ownBilled markups event

lemma countField_int {doc : Document ℚ} {field : String} {n : ℤ}
    (h : Json.get doc field = .int n) : countField py doc field = .ok n := by
  unfold countField
  rw [h]
  by_cases hn : n = 0
  · simp [hn, Json.orElse, Json.truthy, Json.toInt]
  · simp [hn, Json.orElse, Json.truthy, Json.toInt]

lemma amountField_float {doc : Document ℚ} {field : String} {x : ℚ}
    (h : Json.get doc field = .float x) : amountField py doc field = .ok x := by
  unfold amountField
  rw [h]
  by_cases hx : x = 0
  · simp [hx, Json.orElse, Json.truthy, Json.toFloat, PyFloat.isZero, PyFloat.lit]
  · simp [hx, Json.orElse, Json.truthy, Json.toFloat, PyFloat.isZero]

lemma documentOf_eq {event : Dict ℚ} {doc : Document ℚ}
    (h : documentOf py markups event = some doc) :
    ∃ c, compute event markups ⟨0, by decide⟩ = .ok c ∧ doc = document py event c := by
  unfold documentOf at h
  cases hkeyed : keyed event with
  | false =>
      rw [eventToDocument_of_not_keyed py hkeyed] at h
      cases h
  | true =>
      rw [eventToDocument_of_keyed py hkeyed] at h
      cases hc : compute event markups ⟨0, by decide⟩ with
      | error f =>
          rw [hc] at h
          cases h
      | ok c =>
          rw [hc] at h
          cases h
          exact ⟨c, rfl, rfl⟩

/-- The document of an event says what the event says. -/
lemma documentOf_values {event : Dict ℚ} {doc : Document ℚ} (hprice : IntegerPrice event)
    (h : documentOf py markups event = some doc) : HasValues py markups event doc := by
  obtain ⟨c, hc, rfl⟩ := documentOf_eq h
  obtain ⟨-, htokens, hcost⟩ := compute_ok hc
  obtain ⟨markup, hmarkup, hcost⟩ := Outcomes.bind_eq_ok.1 hcost
  obtain ⟨hcostUsd, hbilledUsd⟩ := cost_eq hprice hmarkup hcost
  have hcount : ∀ field : TokenField,
      countField py (document py event c) field.key = .ok (c.tokens field) := by
    intro field
    cases field <;> exact countField_int rfl
  have hcostField : amountField py (document py event c) "cost_usd" =
      .ok ((c.cost.map Billing.CostBreakdown.costUsd).getD (PyFloat.lit 0)) := amountField_float rfl
  have hbilledField : amountField py (document py event c) "billed_usd" =
      .ok ((c.cost.map Billing.CostBreakdown.billedUsd).getD (PyFloat.lit 0)) :=
    amountField_float rfl
  constructor
  · constructor
    · intro field
      rw [hcount]
      rfl
    · rw [hcostField]
      rfl
    · rw [hbilledField]
      rfl
  · intro field
    simp only [tokensIn, hcount, tokensOf_eq htokens]
  · simp only [amountIn, hcostField, ← hcostUsd]
    rfl
  · simp only [amountIn, hbilledField, ← hbilledUsd]
    rfl

lemma documentOf_isSome {event : Dict ℚ}
    (hok : (eventToDocument py event markups ⟨0, by decide⟩).isOk = true) :
    (documentOf py markups event).isSome = keyed event := by
  unfold documentOf
  cases hkeyed : keyed event with
  | false =>
      rw [eventToDocument_of_not_keyed py hkeyed]
      rfl
  | true =>
      rw [eventToDocument_of_keyed py hkeyed] at hok ⊢
      cases hc : compute event markups ⟨0, by decide⟩ with
      | error f =>
          rw [hc] at hok
          cases hok
      | ok c => rfl

end Documents

/-! ## The imports -/

section Imports

variable (py : Runtime ℚ) (markups : Markups ℚ)

/-- The import of the events of a blob, if it comes to its end. -/
def importBlob (s : Session ℚ) (events : List (Dict ℚ)) : Option (Session ℚ) :=
  match exec store (importEvents py markups events ⟨0, 0, 0, 0⟩) s with
  | (.ok (_, true), s') => some s'
  | _ => none

/-- The import of some blobs, one after the other; the first that fails ends it. -/
def importAll (blobs : List (List (Dict ℚ))) (s : Session ℚ) : Option (Session ℚ) :=
  blobs.foldlM (importBlob py markups) s

variable {py markups}

/-- A blob that comes to its end: every event is converted, and its document upserted. -/
lemma exec_store_importEvents {events : List (Dict ℚ)} (htimed : ∀ e ∈ events, Timed e)
    {stats stats' : Stats} {s s' : Session ℚ}
    (h : exec store (importEvents py markups events stats) s = (.ok (stats', true), s')) :
    s'.container = (events.filterMap (documentOf py markups)).foldl Container.upsert s.container ∧
      ∀ e ∈ events, (eventToDocument py e markups ⟨0, by decide⟩).isOk = true := by
  induction events generalizing stats s with
  | nil =>
      cases h
      simp
  | cons event events ih =>
      have hrest : ∀ e ∈ events, Timed e := fun e he => htimed e (List.mem_cons_of_mem event he)
      have hattempt := exec_attempt store (importEvent py markups event) s
      rw [exec_store_importEvent, eventToDocument_timed (htimed event List.mem_cons_self)
        (s.clock 0) ⟨0, by decide⟩] at hattempt
      unfold importEvents at h
      rw [Prog.Raising.exec_bind_ok _ hattempt] at h
      cases hdoc : eventToDocument py event markups ⟨0, by decide⟩ with
      | error f =>
          rw [hdoc] at h
          cases h
      | ok doc =>
        have hthis : documentOf py markups event = doc := by simp only [documentOf, hdoc]
        rw [hdoc] at h
        cases doc with
        | none =>
            obtain ⟨hcontainer, hok⟩ := ih hrest h
            refine ⟨?_, fun e he => ?_⟩
            · rw [List.filterMap_cons_none hthis]
              exact hcontainer
            · rcases List.mem_cons.1 he with rfl | he
              · rw [hdoc]
                rfl
              · exact hok e he
        | some doc =>
            obtain ⟨hcontainer, hok⟩ := ih hrest h
            refine ⟨?_, fun e he => ?_⟩
            · rw [List.filterMap_cons_some hthis]
              exact hcontainer
            · rcases List.mem_cons.1 he with rfl | he
              · rw [hdoc]
                rfl
              · exact hok e he

/-- All blobs: the container has the documents of all events, upserted in their order. -/
lemma importAll_eq {blobs : List (List (Dict ℚ))} (htimed : ∀ e ∈ blobs.flatten, Timed e)
    {s s' : Session ℚ} (h : importAll py markups blobs s = some s') :
    s'.container =
        (blobs.flatten.filterMap (documentOf py markups)).foldl Container.upsert s.container ∧
      ∀ e ∈ blobs.flatten, (eventToDocument py e markups ⟨0, by decide⟩).isOk = true := by
  induction blobs generalizing s with
  | nil =>
      cases h
      simp
  | cons events blobs ih =>
      obtain ⟨s₁, hblob, h⟩ := Option.bind_eq_some_iff.1 h
      obtain ⟨stats, hexec⟩ : ∃ stats,
          exec store (importEvents py markups events ⟨0, 0, 0, 0⟩) s = (.ok (stats, true), s₁) := by
        unfold importBlob at hblob
        split at hblob
        · next stats s' hexec =>
          cases hblob
          exact ⟨stats, hexec⟩
        · cases hblob
      obtain ⟨hfirst, hok⟩ := exec_store_importEvents
        (fun e he => htimed e (List.mem_append_left _ he)) hexec
      obtain ⟨hrest, hoks⟩ := ih (fun e he => htimed e (List.mem_append_right _ he)) h
      refine ⟨?_, fun e he => (List.mem_append.1 he).elim (hok e) (hoks e)⟩
      rw [List.flatten_cons, List.filterMap_append, List.foldl_append, ← hfirst]
      exact hrest

end Imports

/-! ## The totals -/

/-- What holds of an event and its document holds of the sums. -/
lemma map_filterMap_documentOf {β : Type} {py : Runtime ℚ} {markups : Markups ℚ}
    {events : List (Dict ℚ)} {g : Document ℚ → β} {f : Dict ℚ → β}
    (hsome : ∀ e ∈ events, (documentOf py markups e).isSome = keyed e)
    (hvalue : ∀ e ∈ events, ∀ d, documentOf py markups e = some d → g d = f e) :
    (events.filterMap (documentOf py markups)).map g = (events.filter keyed).map f := by
  induction events with
  | nil => rfl
  | cons event events ih =>
      have hrest := ih (fun e he => hsome e (List.mem_cons_of_mem event he))
        (fun e he => hvalue e (List.mem_cons_of_mem event he))
      have hkeyed := hsome event List.mem_cons_self
      cases hdoc : documentOf py markups event with
      | none =>
          rw [hdoc] at hkeyed
          rw [List.filterMap_cons_none hdoc, List.filter_cons_of_neg (by simp [← hkeyed]), hrest]
      | some d =>
          rw [hdoc] at hkeyed
          rw [List.filterMap_cons_some hdoc, List.filter_cons_of_pos (by simp [← hkeyed]),
            List.map_cons, List.map_cons, hrest, hvalue event List.mem_cons_self d hdoc]

/-- **Billing is conserved.**  Some events with times of their own and integer prices, of which no
two have documents with one partition key and one id, are imported in any order, with any
repetitions, grouped into blobs in any way.  Then the totals over all keys and all time count every
event with a request id once, and add up what these events say. -/
theorem conservation (py : Runtime ℚ) (markups : Markups ℚ) (engine : Engine ℚ)
    (events : List (Dict ℚ)) (hdistinct : events.Nodup)
    (htimed : ∀ e ∈ events, Timed e) (hprice : ∀ e ∈ events, IntegerPrice e)
    (hkeys : ∀ e ∈ events, ∀ e' ∈ events, ∀ d d', documentOf py markups e = some d →
      documentOf py markups e' = some d' → key d = key d' → e = e')
    (blobs : List (List (Dict ℚ))) (hcover : ∀ e, e ∈ blobs.flatten ↔ e ∈ events)
    (clock : ℕ → Datetime) (s : Session ℚ)
    (himport : importAll py markups blobs ⟨clock, Container.empty⟩ = some s)
    (hfew : s.container.docs.length ≤ maxRows) :
    ∃ totals, UsageStore.costTotals py ⟨true, engine, s.container⟩ none none = .ok totals ∧
      totals.calls = (events.filter keyed).length ∧
      totals.costUsd = ((events.filter keyed).map ownCost).sum ∧
      totals.billedUsd = ((events.filter keyed).map (ownBilled markups)).sum ∧
      ∀ field, totals.tokens field = ((events.filter keyed).map (ownTokens · field)).sum := by
  have hblobs : ∀ e ∈ blobs.flatten, Timed e := fun e he => htimed e ((hcover e).1 he)
  obtain ⟨hcontainer, hok⟩ := importAll_eq hblobs himport
  have hsome : ∀ e ∈ events, (documentOf py markups e).isSome = keyed e := fun e he =>
    documentOf_isSome (hok e ((hcover e).2 he))
  have hvalues : ∀ e ∈ events, ∀ d, documentOf py markups e = some d → HasValues py markups e d :=
    fun e he d hd => documentOf_values (hprice e he) hd
  have hmeet : ∀ e ∈ events, ∀ e' ∈ events, ∀ d d', documentOf py markups e = some d →
      documentOf py markups e' = some d' → key d = key d' → d = d' := by
    intro e he e' he' d d' hd hd' hkey
    rw [hkeys e he e' he' d d' hd hd' hkey, hd'] at hd
    exact (Option.some.inj hd).symm
  -- The container has one document of each event with a request id, in some order.
  have hperm : (events.filterMap (documentOf py markups)).Perm s.container.docs := by
    refine (List.perm_ext_iff_of_nodup ?_ (s.container.nodup.of_map key)).2 (fun d => ?_)
    · refine List.pairwise_filterMap.2 (hdistinct.imp_of_mem (fun {e e'} he he' hne => ?_))
      rintro d hd d' hd' rfl
      exact hne (hkeys e he e' he' d d hd hd' rfl)
    · rw [hcontainer, mem_foldl_upsert]
      · simp only [Container.empty, List.not_mem_nil, false_or, List.mem_filterMap, hcover]
      · intro d hd d' hd' hkey
        obtain ⟨e, he, hd⟩ := List.mem_filterMap.1 hd
        obtain ⟨e', he', hd'⟩ := List.mem_filterMap.1 (hd'.resolve_left (by simp [Container.empty]))
        exact hmeet e ((hcover e).1 he) e' ((hcover e').1 he') d d' hd hd' hkey
  have hall : s.container.docs.filter (aggWhere [] none) = s.container.docs :=
    List.filter_eq_self.2 (fun d _ => rfl)
  have hread : ∀ d ∈ events.filterMap (documentOf py markups), Readable py d := by
    intro d hd
    obtain ⟨e, he, hd⟩ := List.mem_filterMap.1 hd
    exact (hvalues e he d hd).readable
  -- So the query reads all of them, and its sums are sums over the events.
  obtain ⟨totals, htotals, hcalls, htokens, hcost, hbilled⟩ :=
    @costTotals_eq py ⟨true, engine, s.container⟩ none none rfl (by simp) _ (hall.symm ▸ hperm)
      (by rw [hperm.length_eq]; exact hfew) hread
  refine ⟨totals, htotals, ?_, ?_, ?_, fun field => ?_⟩
  · have hlength := congrArg List.length
      (map_filterMap_documentOf (g := fun _ => ()) (f := fun _ => ()) hsome (fun _ _ _ _ => rfl))
    simpa [hcalls] using hlength
  · rw [hcost, map_filterMap_documentOf hsome (fun e he d hd => (hvalues e he d hd).cost)]
  · rw [hbilled, map_filterMap_documentOf hsome (fun e he d hd => (hvalues e he d hd).billed)]
  · rw [htokens, map_filterMap_documentOf hsome (fun e he d hd => (hvalues e he d hd).tokens field)]

/-- A call with a split of its tokens. -/
def splitCall : Dict ℚ :=
  [("request_id", .str "r1"), ("subscription", .str "k1"), ("model", .str "gpt-4o"),
    ("ts", .str "2026-07-01T00:00:00Z"),
    ("copilot_usage", .dict [("total_nano_aiu", .int 100000000000), ("token_details",
      .list [.dict [("token_type", .str "input"), ("token_count", .int 7)],
        .dict [("token_type", .str "cache_write"), ("token_count", .int 3)]])])]

/-- A call without a split, of which only a count is known. -/
def countedCall : Dict ℚ :=
  [("request_id", .str "r2"), ("subscription", .str "k1"), ("model", .str "gpt-4o"),
    ("ts", .str "2026-07-02T00:00:00+08:00"), ("input_tokens", .int 5),
    ("copilot_usage", .dict [("total_nano_aiu", .int 300000000000)])]

def twoCalls : List (Dict ℚ) := [splitCall, countedCall]

/-- The first one is in a blob of its own, and both are in the next one. -/
def overlapping : List (List (Dict ℚ)) := [twoCalls.take 1, twoCalls]

/-- The calls cost four dollars, and with a markup of a quarter they are billed five. -/
theorem conservation_twoCalls :
    ∃ s totals,
      importAll .strict [("gpt-4o", 1 / 4)] overlapping ⟨fun _ => ⟨0, by decide⟩, .empty⟩ = some s ∧
      UsageStore.costTotals .strict ⟨true, Engine.byTime, s.container⟩ none none = .ok totals ∧
      totals.calls = 2 ∧ totals.costUsd = 4 ∧ totals.billedUsd = 5 ∧
        totals.tokens .promptTok = 12 ∧ totals.tokens .cacheWriteTok = 3 := by
  have hsome : (importAll .strict [("gpt-4o", 1 / 4)] overlapping
      ⟨fun _ => ⟨0, by decide⟩, .empty⟩).isSome = true := by decide +kernel
  have hlength : (importAll .strict [("gpt-4o", 1 / 4)] overlapping
      ⟨fun _ => ⟨0, by decide⟩, .empty⟩).map (fun s => s.container.docs.length) = some 2 := by
    decide +kernel
  obtain ⟨s, hs⟩ := Option.isSome_iff_exists.1 hsome
  rw [hs] at hlength
  have hdistinct : twoCalls.Nodup := by
    refine List.nodup_cons.2 ⟨fun h => ?_, List.nodup_singleton _⟩
    have hlength := congrArg List.length (List.mem_singleton.1 h)
    exact absurd hlength (by decide)
  have htimed : ∀ e ∈ twoCalls, Timed e := by
    have hclock : ∀ e ∈ twoCalls, (ownTime (Json.get e "ts")).map Except.isOk = some true := by
      decide +kernel
    intro e he
    obtain ⟨r, hr, hok⟩ := Option.map_eq_some_iff.1 (hclock e he)
    cases r with
    | error f => cases hok
    | ok ts => exact ⟨ts, hr⟩
  have hprice : ∀ e ∈ twoCalls, IntegerPrice e := by
    intro e he usage x husage
    rcases List.mem_pair.1 he with rfl | rfl
    · cases husage
      intro h
      cases h
    · cases husage
      intro h
      cases h
  have hkeys : ∀ e ∈ twoCalls, ∀ e' ∈ twoCalls, ∀ d d',
      documentOf .strict [("gpt-4o", 1 / 4)] e = some d →
      documentOf .strict [("gpt-4o", 1 / 4)] e' = some d' → key d = key d' → e = e' := by
    have hsplit : (documentOf .strict [("gpt-4o", 1 / 4)] splitCall).map key =
        some ("k1_202607", "r1") := by decide +kernel
    have hcounted : (documentOf .strict [("gpt-4o", 1 / 4)] countedCall).map key =
        some ("k1_202607", "r2") := by decide +kernel
    intro e he e' he' d d' hd hd' hkey
    rcases List.mem_pair.1 he with rfl | rfl <;> rcases List.mem_pair.1 he' with rfl | rfl
    · rfl
    · rw [hd] at hsplit
      rw [hd', Option.map_some, ← hkey, ← Option.map_some, hsplit] at hcounted
      exact absurd hcounted (by decide)
    · rw [hd] at hcounted
      rw [hd', Option.map_some, ← hkey, ← Option.map_some, hcounted] at hsplit
      exact absurd hsplit (by decide)
    · rfl
  obtain ⟨totals, htotals, hcalls, hcost, hbilled, htokens⟩ :=
    conservation .strict [("gpt-4o", 1 / 4)] Engine.byTime twoCalls hdistinct htimed hprice hkeys
      overlapping (by simp [overlapping, twoCalls]) _ s hs
        (by simp at hlength; simp [hlength, maxRows])
  refine ⟨s, totals, hs, htotals, hcalls.trans ?_, hcost.trans ?_, hbilled.trans ?_,
    (htokens .promptTok).trans ?_, (htokens .cacheWriteTok).trans ?_⟩
  · decide +kernel
  · decide +kernel
  · decide +kernel
  · decide +kernel
  · decide +kernel

end UsageCaptureImport
end TokenFoundry
