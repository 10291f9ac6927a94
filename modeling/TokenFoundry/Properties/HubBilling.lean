import TokenFoundry.Framework.Grouping
import TokenFoundry.Framework.IsoOrder
import TokenFoundry.Hub.UsageEvents
import TokenFoundry.Properties.BillingConservation
import TokenFoundry.Properties.HubRequests
import TokenFoundry.Properties.PoisonEvents
import TokenFoundry.Properties.StreamRewriting

/-!
# What the hubs record is what is billed

A hub sends a usage record as an event; Event Hub delivers it at least once, Capture collects the
events of all hubs into blobs, and the control plane imports the blobs.  `_usage_record` calls its
result the billing contract with `event_to_document`.

`record_read` is that contract: what is imported is the record itself.  `hubs_billed` says what it
is good for: in exact arithmetic the totals of any accounts, from any moment on, are those of the
calls that the hubs have recorded for these accounts since then, each counted once.
`request_sound` says that the records of requests are such records.
-/

set_option autoImplicit false

namespace TokenFoundry
namespace UsageEvents

open Billing (TokenField)
open JsonText (FloatText Unique)
open Server (UsageCall Counts usageRecord)
open UsageCaptureImport
open UsageIngest

/-! ## The record is read back -/

section Contract

variable {K : Type}

/-- The values of a call that come from outside are documents that `json` has read. -/
structure Loaded (c : UsageCall K) : Prop where
  model : Unique c.model
  served : Unique c.served
  input : Unique c.counts.input
  output : Unique c.counts.output
  total : Unique c.counts.total
  cached : Unique c.counts.cached
  usage : Unique c.usage
  copilotUsage : Unique c.copilotUsage

lemma unique_optional (s : Option String) : Unique (Server.optional s : Json K) := by
  cases s <;> simp [Server.optional, JsonText.Unique]

lemma unique_usageRecord {c : UsageCall K} (h : Loaded c) (ts : String) (blob : Option String) :
    Unique (.dict (usageRecord c ts blob)) := by
  obtain ⟨hmodel, hserved, hinput, houtput, htotal, hcached, husage, hcopilot⟩ := h
  rw [JsonText.unique_dict_iff]
  refine ⟨?_, ?_⟩
  · simp [usageRecord]
  · simp [usageRecord, unique_optional, JsonText.Unique, hmodel, hserved, hinput, houtput, htotal,
      hcached, husage, hcopilot]

variable [PyFloat K]

/-- A record has no entry of the name that is added. -/
lemma envelope_usageRecord (hubId : String) (c : UsageCall K) (ts : String)
    (blob : Option String) : envelope hubId (usageRecord c ts blob) =
      ("hub_id", (Json.str hubId).orElse .null) :: usageRecord c ts blob := by
  simp [envelope, usageRecord, Json.setItem, Json.has, List.lookup_cons]

lemma unique_envelope (hubId : String) {c : UsageCall K} (h : Loaded c) (ts : String)
    (blob : Option String) : Unique (.dict (envelope hubId (usageRecord c ts blob))) := by
  have hrecord := unique_usageRecord h ts blob
  rw [envelope_usageRecord, JsonText.unique_dict_iff]
  rw [JsonText.unique_dict_iff] at hrecord
  refine ⟨List.nodup_cons.2 ⟨by simp [usageRecord], hrecord.1⟩, ?_⟩
  intro e he
  rcases List.mem_cons.1 he with rfl | he
  · unfold Json.orElse
    split_ifs <;> simp [JsonText.Unique]
  · exact hrecord.2 e he

lemma decodeUtf8_encode (t : List Char) : decodeUtf8 (Utf8.encode t) = some t := by
  rw [decodeUtf8, Utf8.decode_encode, if_pos rfl]

/-- **What the control plane reads is what the hub has recorded.** -/
theorem record_read (ft : FloatText K) (hubId : String) {c : UsageCall K} (h : Loaded c)
    (ts : String) (blob : Option String) :
    readRecord ft (.bytes (eventBody ft hubId (usageRecord c ts blob))) =
      .body (.dict (envelope hubId (usageRecord c ts blob))) := by
  have htext : (Body.bytes (eventBody ft hubId (usageRecord c ts blob))).asText =
      some (JsonText.dumps ft ⟨false, true⟩ (.dict (envelope hubId (usageRecord c ts blob)))) :=
    decodeUtf8_encode _
  have hloads := JsonText.loads_dumps ft ⟨false, true⟩ (unique_envelope hubId h ts blob)
  simp only [readRecord, htext, hloads]

end Contract

/-! ## What is recorded of a call -/

/-- A record of a hub: the call, the moment it was made, and where its bodies are archived. -/
structure Record where
  hubId : String
  call : UsageCall ℚ
  moment : Datetime
  auditBlob : Option String

namespace Record

def event (r : Record) : Dict ℚ :=
  envelope r.hubId (usageRecord r.call r.moment.isoformat r.auditBlob)

def body (ft : FloatText ℚ) (r : Record) : Body :=
  .bytes (eventBody ft r.hubId (usageRecord r.call r.moment.isoformat r.auditBlob))

/-- The account that a call is billed to: the subscription of its tenant, or the name under which
the summary collects the calls without one. -/
def account (r : Record) : String :=
  if r.call.tenant.subscription.getD "" = "" then "unknown"
  else r.call.tenant.subscription.getD ""

/-- What makes a record known: its account, its month and its request. -/
def identity (r : Record) : (String × String) × String :=
  ((r.account, r.moment.yearMonth), r.call.tenant.requestId)

/-- The call has a request id, names a model that can be looked up, and is priced, if at all, with
an integer. -/
structure Sound (r : Record) : Prop where
  loaded : Loaded r.call
  requestId : r.call.tenant.requestId ≠ ""
  model : (r.call.model.orElse (.str "unknown")).hashable = true
  price : ∀ usage x, r.call.copilotUsage = .dict usage →
    Json.get usage "total_nano_aiu" ≠ .float x

/-- The call is one of these accounts, and not before this moment. -/
def selected (accounts : Option (List String)) (since : Option Datetime) (r : Record) : Bool :=
  accounts.all (fun ids => ids.contains r.account) &&
    since.all (fun t => decide (t.ticks ≤ r.moment.ticks))

end Record

/-! ## Every such record can be imported -/

section Importable

lemma zuluAsOffset_eq {value : String} (h : 'Z' ∉ value.toList) : zuluAsOffset value = value := by
  have hsame : ∀ cs : List Char, 'Z' ∉ cs →
      cs.flatMap (fun c => if c = 'Z' then "+00:00".toList else [c]) = cs := by
    intro cs hcs
    induction cs with
    | nil => rfl
    | cons c cs ih =>
        rw [List.mem_cons, not_or] at hcs
        rw [List.flatMap_cons, if_neg (Ne.symm hcs.1), ih hcs.2]
        rfl
  rw [zuluAsOffset, hsame _ h, String.ofList_toList]

/-- The time of a record is the moment it was made. -/
lemma ownTime_isoformat {K : Type} (d : Datetime) :
    ownTime (.str d.isoformat : Json K) = some (.ok d) := by
  have hpad : ∀ width n, 'Z' ∉ IsoText.pad width n := IsoText.notMem_pad rfl
  have htext : 'Z' ∉ d.isoformat.toList := by
    have hfraction : 'Z' ∉ d.fractionText := by
      unfold Datetime.fractionText
      split_ifs
      · exact List.not_mem_nil
      · simp [hpad]
    simp [Datetime.isoformat, Datetime.dateText, Datetime.timeText, hpad, hfraction]
  simp only [ownTime, zuluAsOffset_eq htext, Datetime.fromIsoformat_isoformat, neg_zero,
    Datetime.shift_zero]

/-! In exact arithmetic every number can be converted. -/

lemma converts_count (v : Json ℚ) : Billing.converts (Billing.count v) = true := by
  cases v <;> rfl

lemma converts_numeral (v : Json ℚ) :
    Billing.converts (Billing.numeral v : Option (Except Failure ℚ)) = true := by
  cases v <;> rfl

lemma converts_entryCount (entry : Json ℚ) :
    Billing.converts ((Billing.entryCount entry).map Prod.snd) = true := by
  unfold Billing.entryCount
  split
  · next fields =>
    split
    · next token _ =>
      have hcount := converts_count (Json.get fields "token_count")
      cases hfield : Billing.tokenTypeField token with
      | none => rfl
      | some field =>
          cases hn : Billing.count (Json.get fields "token_count") with
          | none => rfl
          | some n =>
              rw [hn] at hcount
              exact hcount
    · rfl
  · rfl

lemma priceable_rat (usage : Json ℚ) : Billing.priceable usage = true := by
  cases usage with
  | dict fields => exact converts_numeral _
  | _ => rfl

lemma convertible_rat {event : Dict ℚ} {t : Datetime} (hts : Json.get event "ts" = .str t.isoformat)
    (hmodel : (modelOf event).hashable = true) : convertible event = true := by
  have hcounts : ∀ field, countable event field = true := fun field => converts_count _
  have hdetails : Billing.countable (Json.get event "copilot_usage") = true :=
    List.all_eq_true.2 (fun entry _ => converts_entryCount entry)
  simp [convertible, hts, ownTime_isoformat, hmodel, hdetails, priceable_rat, hcounts,
    Billing.converts, Except.isOk, Except.toBool]

end Importable

/-! ## The document of a record -/

section Documents

variable {py : Runtime ℚ} {markups : Markups ℚ}

/-- What a document says of the record that it has been made of. -/
structure Says (py : Runtime ℚ) (markups : Markups ℚ) (r : Record) (d : Document ℚ) : Prop where
  values : HasValues py markups r.event d
  account : Json.get d "subscription" = .str r.account
  time : Json.get d "ts" = .str r.moment.isoformat
  key : key d = (r.account ++ "_" ++ r.moment.yearMonth, r.call.tenant.requestId)

lemma subscriptionOf_event (r : Record) : subscriptionOf r.event = .str r.account := by
  have hget : Json.get r.event "subscription" = Server.optional r.call.tenant.subscription := by
    rw [Record.event, envelope_usageRecord]
    rfl
  rw [subscriptionOf, hget, Record.account]
  cases r.call.tenant.subscription with
  | none => rfl
  | some s => by_cases hs : s = "" <;> simp [Server.optional, Json.orElse, Json.truthy, hs]

lemma timed_event (r : Record) : ownTime (Json.get r.event "ts") = some (.ok r.moment) := by
  have hget : Json.get r.event "ts" = .str r.moment.isoformat := by
    rw [Record.event, envelope_usageRecord]
    rfl
  rw [hget, ownTime_isoformat]

lemma integerPrice_event {r : Record} (h : r.Sound) : IntegerPrice r.event := by
  have hget : Json.get r.event "copilot_usage" = r.call.copilotUsage := by
    rw [Record.event, envelope_usageRecord]
    rfl
  intro usage x husage
  exact h.price usage x (hget ▸ husage)

lemma get_document_subscription (event : Dict ℚ) (c : Computed ℚ) :
    Json.get (document py event c) "subscription" = subscriptionOf event := rfl

lemma get_document_ts (event : Dict ℚ) (c : Computed ℚ) :
    Json.get (document py event c) "ts" = .str c.ts.isoformat := rfl

lemma convertible_event {r : Record} (h : r.Sound) : convertible r.event = true := by
  have hts : Json.get r.event "ts" = .str r.moment.isoformat := by
    rw [Record.event, envelope_usageRecord]
    rfl
  have hmodel : modelOf r.event = r.call.model.orElse (.str "unknown") := by
    rw [Record.event, envelope_usageRecord]
    rfl
  exact convertible_rat hts (by rw [hmodel]; exact h.model)

/-- The document of a record, as the importer writes it; a record without a document contributes
nothing, and sound records always have one. -/
def Record.document (py : Runtime ℚ) (markups : Markups ℚ) (r : Record) : Document ℚ :=
  (documentOf py markups r.event).getD []

/-- A sound record has a document, and the document says what the record counted. -/
lemma documentOf_event {r : Record} (h : r.Sound) :
    documentOf py markups r.event = some (r.document py markups) ∧
      Says py markups r (r.document py markups) := by
  have hid : Json.get r.event "request_id" = .str r.call.tenant.requestId := by
    rw [Record.event, envelope_usageRecord]
    rfl
  have hkeyed : keyed r.event = true := by
    rw [keyed, hid]
    exact decide_eq_true h.requestId
  have hok := eventToDocument_isOk py hkeyed markups ⟨0, ticksLimit_pos⟩
  have hsome := documentOf_isSome (hok.trans (convertible_event h))
  rw [hkeyed] at hsome
  obtain ⟨d, hd⟩ := Option.isSome_iff_exists.1 hsome
  obtain ⟨c, hc, rfl⟩ := documentOf_eq hd
  have hmoment : c.ts = r.moment := by
    have hts := (compute_ok hc).1
    rw [parseTs, timed_event] at hts
    exact (Except.ok.inj hts).symm
  have hdoc : r.document py markups = UsageCaptureImport.document py r.event c := by
    rw [Record.document, hd, Option.getD_some]
  rw [hdoc]
  refine ⟨hd, documentOf_values (integerPrice_event h) hd, ?_, ?_, ?_⟩
  · rw [get_document_subscription, subscriptionOf_event]
  · rw [get_document_ts, hmoment]
  · rw [key_document, subscriptionOf_event, hmoment, hid]
    rfl

/-- Records of one key are of one account and one month. -/
lemma identity_eq {r r' : Record} {d d' : Document ℚ} (h : Says py markups r d)
    (h' : Says py markups r' d') (hkey : key d = key d') : r.identity = r'.identity := by
  rw [h.key, h'.key, Prod.mk.injEq] at hkey
  have hpartition := congrArg String.toList hkey.1
  simp only [String.toList_append] at hpartition
  have hlength : r.moment.yearMonth.toList.length = r'.moment.yearMonth.toList.length := by
    simp [Datetime.yearMonth, IsoText.pad_length]
  obtain ⟨haccount, hmonth⟩ := List.append_inj' hpartition hlength
  have haccount := List.append_cancel_right haccount
  rw [Record.identity, Record.identity, String.toList_inj.1 haccount, String.toList_inj.1 hmonth,
    hkey.2]

/-- The clause of a query selects the documents of the records that are selected. -/
lemma aggWhere_selected {accounts : Option (List String)} (haccounts : accounts ≠ some [])
    (since : Option Datetime) {r : Record} {d : Document ℚ} (h : Says py markups r d) :
    aggWhere (accounts.getD []) (since.map Datetime.isoformat) d = r.selected accounts since := by
  have hwho : ((accounts.getD []).isEmpty || (accounts.getD []).contains r.account) =
      accounts.all (fun ids => ids.contains r.account) := by
    cases accounts with
    | none => rfl
    | some ids =>
        cases ids with
        | nil => exact absurd rfl haccounts
        | cons id ids => rfl
  have hwhen : ∀ t : Datetime, (t.isoformat == "" || decide (t.isoformat ≤ r.moment.isoformat)) =
      decide (t.ticks ≤ r.moment.ticks) := by
    intro t
    have hne : t.isoformat ≠ "" := by
      intro hempty
      have hlength := congrArg (fun s => s.toList.length) hempty
      simp [Datetime.isoformat] at hlength
    simp [hne, Datetime.isoformat_le_iff]
  unfold aggWhere Record.selected
  rw [h.account, h.time, ← hwho]
  cases since with
  | none => rfl
  | some t => rw [Option.map_some, Option.all_some, ← hwhen t]

end Documents

/-! ## The import of what has been captured -/

section Imports

variable (py : Runtime ℚ) (markups : Markups ℚ)

/-- Events that can be converted are imported to their end. -/
lemma importEvents_finishes {events : List (Dict ℚ)} (h : ∀ e ∈ events, convertible e = true)
    (stats : Stats) (s : Session ℚ) :
    ∃ stats' s', Prog.Raising.exec store (importEvents py markups events stats) s =
      (.ok (stats', true), s') := by
  induction events generalizing stats s with
  | nil => exact ⟨stats, s, rfl⟩
  | cons event events ih =>
      have hrest := ih (fun e he => h e (List.mem_cons_of_mem event he))
      obtain ⟨doc, hdoc, -⟩ := eventToDocument_ok py (fun _ => h event List.mem_cons_self) markups
        (s.clock 0)
      have hattempt := exec_attempt store (importEvent py markups event) s
      rw [exec_store_importEvent, hdoc] at hattempt
      unfold importEvents
      rw [Prog.Raising.exec_bind_ok _ hattempt]
      cases doc with
      | none => exact hrest _ _
      | some doc => exact hrest _ _

lemma importAll_finishes {blobs : List (List (Dict ℚ))}
    (h : ∀ e ∈ blobs.flatten, convertible e = true) (s : Session ℚ) :
    ∃ s', importAll py markups blobs s = some s' := by
  induction blobs generalizing s with
  | nil => exact ⟨s, rfl⟩
  | cons events blobs ih =>
      obtain ⟨stats, s₁, hexec⟩ := importEvents_finishes py markups
        (fun e he => h e (List.mem_append_left _ he)) ⟨0, 0, 0, 0⟩ s
      obtain ⟨s', hs'⟩ := ih (fun e he => h e (List.mem_append_right _ he)) s₁
      refine ⟨s', ?_⟩
      have hblob : importBlob py markups s events = some s₁ := by
        unfold importBlob
        rw [hexec]
      rw [importAll, List.foldlM_cons, hblob]
      exact hs'

end Imports

/-! ## What is captured -/

lemma mem_eventsOf {ft : FloatText ℚ} {bodies : List Body} {e : Dict ℚ} :
    e ∈ eventsOf ft bodies ↔ ∃ b ∈ bodies, readRecord ft b = .body (.dict e) := by
  unfold eventsOf decodeAvro
  rw [List.filterMap_map, List.mem_filterMap]
  refine exists_congr (fun b => and_congr_right (fun _ => ?_))
  rw [Function.comp_apply]
  cases readRecord ft b with
  | noBody => simp
  | undecodable => simp
  | body v => cases v <;> simp

/-- Blobs in which every record has been captured, at least once, and no event but theirs. -/
structure Captures (ft : FloatText ℚ) (records : List Record) (blobs : List (List Body)) :
    Prop where
  all : ∀ r ∈ records, r.body ft ∈ blobs.flatten
  only : ∀ b ∈ blobs.flatten, (∃ r ∈ records, b = r.body ft) ∨
    ∀ e, readRecord ft b ≠ .body (.dict e)

lemma Captures.mem_iff {ft : FloatText ℚ} {records : List Record} {blobs : List (List Body)}
    (h : Captures ft records blobs) (hsound : ∀ r ∈ records, r.Sound) (e : Dict ℚ) :
    e ∈ (blobs.map (eventsOf ft)).flatten ↔ e ∈ records.map Record.event := by
  have hread : ∀ r ∈ records, readRecord ft (r.body ft) = .body (.dict r.event) := fun r hr =>
    record_read ft r.hubId (hsound r hr).loaded _ _
  simp only [List.mem_flatten, List.mem_map, exists_exists_and_eq_and, mem_eventsOf]
  constructor
  · rintro ⟨blob, hblob, b, hb, hdict⟩
    rcases h.only b (List.mem_flatten.2 ⟨blob, hblob, hb⟩) with ⟨r, hr, rfl⟩ | hforeign
    · rw [hread r hr] at hdict
      exact ⟨r, hr, Json.dict.inj (AvroRecord.body.inj hdict)⟩
    · exact absurd hdict (hforeign e)
  · rintro ⟨r, hr, rfl⟩
    obtain ⟨blob, hblob, hb⟩ := List.mem_flatten.1 (h.all r hr)
    exact ⟨blob, hblob, r.body ft, hb, hread r hr⟩

/-- Once the events have been upserted, there is one document of each record, and no other. -/
lemma container_perm {py : Runtime ℚ} {markups : Markups ℚ} {records : List Record}
    (hsound : ∀ r ∈ records, r.Sound) (hdistinct : (records.map Record.identity).Nodup)
    {events : List (Dict ℚ)} (hmem : ∀ e, e ∈ events ↔ e ∈ records.map Record.event)
    {c : Container ℚ}
    (hc : c = (events.filterMap (documentOf py markups)).foldl Container.upsert Container.empty) :
    (records.map (Record.document py markups)).Perm c.docs := by
  have hsaid : ∀ r ∈ records, Says py markups r (r.document py markups) :=
    fun r hr => (documentOf_event (hsound r hr)).2
  have hevent : ∀ d, d ∈ events.filterMap (documentOf py markups) ↔
      d ∈ records.map (Record.document py markups) := by
    intro d
    simp only [List.mem_filterMap, hmem, List.mem_map, exists_exists_and_eq_and]
    refine exists_congr (fun r => and_congr_right (fun hr => ?_))
    rw [(documentOf_event (hsound r hr)).1, Option.some_inj]
  refine (List.perm_ext_iff_of_nodup ?_ (c.nodup.of_map key)).2 (fun d => ?_)
  · refine List.pairwise_map.2 ((List.pairwise_map.1 hdistinct).imp_of_mem ?_)
    intro r r' hr hr' hne hsame
    exact hne (identity_eq (hsaid r hr) (hsaid r' hr') (by rw [hsame]))
  · rw [hc, mem_foldl_upsert, hevent]
    · simp [Container.empty]
    · intro d hd d' hd' hkey
      obtain ⟨r, hr, rfl⟩ := List.mem_map.1 ((hevent d).1 hd)
      obtain ⟨r', hr', rfl⟩ :=
        List.mem_map.1 ((hevent d').1 (hd'.resolve_left (by simp [Container.empty])))
      rw [List.inj_on_of_nodup_map hdistinct hr hr' (identity_eq (hsaid r hr) (hsaid r' hr') hkey)]

/-! ## The totals -/

/-- What is billed of some records is what they say. -/
structure Billed (markups : Markups ℚ) (records : List Record) (totals : Bucket ℚ) : Prop where
  calls : totals.calls = records.length
  cost : totals.costUsd = (records.map (fun r => ownCost r.event)).sum
  billed : totals.billedUsd = (records.map (fun r => ownBilled markups r.event)).sum
  tokens : ∀ field, totals.tokens field = (records.map (fun r => ownTokens r.event field)).sum

/-- Of no records nothing is billed: the summary starts from empty totals. -/
lemma billed_nil (markups : Markups ℚ) : Billed markups [] (blank : Bucket ℚ) where
  calls := rfl
  cost := by simp [blank, PyFloat.lit]
  billed := by simp [blank, PyFloat.lit]
  tokens _ := rfl

/-- **What the hubs record is what is billed.**  Let some hubs make some records, no two of one
account, month and request; let each of them be captured at least once, in blobs of any size and in
any order, with whatever else that is no event; and let the blobs be imported.  The import comes to
its end, and then, for any accounts and from any moment on, the totals are those of the records. -/
theorem hubs_billed (py : Runtime ℚ) (markups : Markups ℚ) (engine : Engine ℚ) (ft : FloatText ℚ)
    (records : List Record) (hsound : ∀ r ∈ records, r.Sound)
    (hdistinct : (records.map Record.identity).Nodup) (hfew : records.length ≤ maxRows)
    (blobs : List (List Body)) (hcaptures : Captures ft records blobs) (clock : ℕ → Datetime) :
    ∃ s, importAll py markups (blobs.map (eventsOf ft)) ⟨clock, Container.empty⟩ = some s ∧
      ∀ accounts since, ∃ totals,
        UsageStore.costTotals py ⟨true, engine, s.container⟩ accounts
          (since.map Datetime.isoformat) = .ok totals ∧
        Billed markups (records.filter (Record.selected accounts since)) totals := by
  have hmem := hcaptures.mem_iff hsound
  have hsaid : ∀ r ∈ records, Says py markups r (r.document py markups) :=
    fun r hr => (documentOf_event (hsound r hr)).2
  have hconvertible : ∀ e ∈ (blobs.map (eventsOf ft)).flatten, convertible e = true := by
    intro e he
    obtain ⟨r, hr, rfl⟩ := List.mem_map.1 ((hmem e).1 he)
    exact convertible_event (hsound r hr)
  have htimed : ∀ e ∈ (blobs.map (eventsOf ft)).flatten, Timed e := by
    intro e he
    obtain ⟨r, hr, rfl⟩ := List.mem_map.1 ((hmem e).1 he)
    exact ⟨r.moment, timed_event r⟩
  obtain ⟨s, hs⟩ := importAll_finishes py markups hconvertible
    ⟨clock, Container.empty⟩
  -- Each identity has one document, so the container is the records in some order, however often
  -- each was captured.
  have hperm := container_perm hsound hdistinct hmem (importAll_eq htimed hs).1
  refine ⟨s, hs, fun accounts since => ?_⟩
  -- A query for an empty list of accounts reads nothing.
  by_cases haccounts : accounts = some []
  · refine ⟨blank, ?_, ?_⟩
    · unfold UsageStore.costTotals
      rw [if_pos (by simp [haccounts])]
      rfl
    · have hnone : records.filter (Record.selected accounts since) = [] := by
        simp [haccounts, Record.selected]
      rw [hnone]
      exact billed_nil markups
  have hselected : ((records.filter (Record.selected accounts since)).map
      (Record.document py markups)).Perm (s.container.docs.filter
        (aggWhere (accounts.getD []) (since.map Datetime.isoformat))) := by
    refine List.Perm.trans (List.Perm.of_eq ?_) (hperm.filter _)
    rw [List.filter_map]
    congr 1
    exact List.filter_congr (fun r hr => (aggWhere_selected haccounts since (hsaid r hr)).symm)
  have hmine : ∀ r ∈ records.filter (Record.selected accounts since),
      Says py markups r (r.document py markups) := fun r hr => hsaid r (List.mem_of_mem_filter hr)
  -- The query reads `maxRows` rows at most; here that is all of them.
  have hcount : (records.filter (Record.selected accounts since)).length ≤ maxRows :=
    (List.length_filter_le _ _).trans hfew
  obtain ⟨totals, htotals, hcalls, htokens, hcost, hbilled⟩ :=
    @costTotals_eq py ⟨true, engine, s.container⟩ accounts (since.map Datetime.isoformat) rfl
      haccounts _ hselected (by rw [List.length_map]; exact hcount) (by
        intro d hd
        obtain ⟨r, hr, rfl⟩ := List.mem_map.1 hd
        exact (hmine r hr).values.readable)
  -- Each total is a sum over the rows, and each row says what its record says.
  refine ⟨totals, htotals, ?_, ?_, ?_, fun field => ?_⟩
  · rw [hcalls, List.length_map]
  · rw [hcost, List.map_map]
    refine congrArg List.sum (List.map_congr_left (fun r hr => ?_))
    rw [Function.comp_apply, (hmine r hr).values.cost]
  · rw [hbilled, List.map_map]
    refine congrArg List.sum (List.map_congr_left (fun r hr => ?_))
    rw [Function.comp_apply, (hmine r hr).values.billed]
  · rw [htokens, List.map_map]
    refine congrArg List.sum (List.map_congr_left (fun r hr => ?_))
    rw [Function.comp_apply, (hmine r hr).values.tokens field]

/-- A call that one hub has made for the account `k1`, at a dollar. -/
def servedRecord : Record where
  hubId := "hub-1"
  call := { tenant := ⟨"r1", some "k1", none, none, true, false⟩, endUser := none,
            model := .str "gpt-4o", served := .str "gpt-4o", endpoint := "chat.completions",
            counts := ⟨.int 7, .int 5, .int 12, .int 0⟩, streamed := false, estimated := false,
            status := 200, usage := .null,
            copilotUsage := .dict [("total_nano_aiu", .int 100000000000)] }
  moment := ⟨63934358410000000, by decide⟩
  auditBlob := none

/-- A call of that account, which upstream has refused to another hub. -/
def refusedRecord : Record where
  hubId := "hub-2"
  call := { servedRecord.call with
            tenant := ⟨"r2", some "k1", none, none, true, false⟩, served := .null, status := 429
            counts := ⟨.int 0, .int 0, .int 0, .int 0⟩, copilotUsage := .null }
  moment := ⟨63934358500000000, by decide⟩
  auditBlob := none

/-- A call of no account: the record of a served call whose tenant sent no subscription. -/
def ownerlessRecord : Record :=
  { servedRecord with call := { servedRecord.call with
                                tenant := ⟨"r1", none, none, none, false, false⟩ } }

def threeRecords : List Record := [servedRecord, refusedRecord, ownerlessRecord]

/-- One event comes twice, and one record of a blob has no body. -/
def capturedTwice : List (List Body) :=
  [[servedRecord.body FloatText.fractions],
    [refusedRecord.body FloatText.fractions, .missing, servedRecord.body FloatText.fractions],
    [ownerlessRecord.body FloatText.fractions]]

lemma sound_threeRecords : ∀ r ∈ threeRecords, r.Sound := by
  intro r hr
  simp only [threeRecords, List.mem_cons, List.not_mem_nil, or_false] at hr
  rcases hr with rfl | rfl | rfl
  all_goals
    refine ⟨⟨?_, ?_, ?_, ?_, ?_, ?_, ?_, ?_⟩, by decide, by decide, ?_⟩
    all_goals try simp [servedRecord, refusedRecord, ownerlessRecord, JsonText.Unique,
      JsonText.UniqueFields]
  all_goals
    rintro _ _ rfl
    simp [Json.get]

lemma captures_capturedTwice : Captures FloatText.fractions threeRecords capturedTwice where
  all := by simp [threeRecords, capturedTwice]
  only := by
    intro b hb
    simp only [capturedTwice, List.flatten_cons, List.flatten_nil, List.cons_append,
      List.nil_append, List.append_nil, List.mem_cons, List.not_mem_nil, or_false] at hb
    rcases hb with rfl | rfl | rfl | rfl | rfl
    · exact .inl ⟨_, by simp [threeRecords], rfl⟩
    · exact .inl ⟨_, by simp [threeRecords], rfl⟩
    · exact .inr (fun e h => by cases h)
    · exact .inl ⟨_, by simp [threeRecords], rfl⟩
    · exact .inl ⟨_, by simp [threeRecords], rfl⟩

/-- The account has two calls, which cost a dollar; a quarter is added to it. -/
theorem hubs_billed_threeRecords :
    ∃ s totals,
      importAll .strict [("gpt-4o", 1 / 4)] (capturedTwice.map (eventsOf FloatText.fractions))
        ⟨fun _ => ⟨0, by decide⟩, Container.empty⟩ = some s ∧
      UsageStore.costTotals .strict ⟨true, Engine.byTime, s.container⟩ (some ["k1"]) none =
        .ok totals ∧
      totals.calls = 2 ∧ totals.costUsd = 1 ∧ totals.billedUsd = 5 / 4 ∧
        totals.tokens .promptTok = 7 := by
  obtain ⟨s, hs, htotals⟩ := hubs_billed .strict [("gpt-4o", 1 / 4)] Engine.byTime
    FloatText.fractions threeRecords sound_threeRecords (by decide) (by decide) capturedTwice
    captures_capturedTwice (fun _ => ⟨0, by decide⟩)
  obtain ⟨totals, hok, hbilled⟩ := htotals (some ["k1"]) none
  refine ⟨s, totals, hs, hok, hbilled.calls.trans ?_, hbilled.cost.trans ?_,
    hbilled.billed.trans ?_, (hbilled.tokens .promptTok).trans ?_⟩
  · decide +kernel
  · decide +kernel
  · decide +kernel
  · decide +kernel

/-! ## The records of requests -/

section Answers

open Requests (Effects Answer Recorded refusedCall servedCall)

/-- The backend answers with documents that `json` can read, and with integer prices; ids are not
empty. -/
structure Honest (env : Requests.Env ℚ) : Prop where
  documents : ∀ call status v text, env.post call = .answered status (some v) text → Unique v
  prices : ∀ call status data text usage x,
    env.post call = .answered status (some (.dict data)) text →
      Json.get data "copilot_usage" = .dict usage → Json.get usage "total_nano_aiu" ≠ .float x
  uuid : env.uuid ≠ ""

/-- The records that a request has made, also where it ends with a refusal after they were
emitted. -/
def recordsOf : EStateM.Result AdminApi.Refusal (Effects ℚ) (Answer ℚ) → List (Dict ℚ)
  | .ok _ s => s.records
  | .error _ s => s.records

lemma unique_add {v w u : Json ℚ} (hv : Unique v) (hw : Unique w) (h : v.add w = .ok u) :
    Unique u := by
  unfold Json.add at h
  split at h
  · cases h
    trivial
  · cases h
    trivial
  · cases h
    trivial
  · cases h
    trivial
  · split at h
    · cases h
      trivial
    · cases h
      rw [JsonText.Unique, JsonText.uniqueItems_iff] at hv hw ⊢
      intro x hx
      exact (List.mem_append.1 hx).elim (hv x) (hw x)
    · cases h

lemma unique_asDict {v : Json ℚ} {d : Dict ℚ} (hv : Unique v)
    (h : Server.raised v.asDict = .ok d) : Unique (.dict d) := by
  cases v with
  | dict fields =>
      cases h
      exact hv
  | _ => cases h

/-- What is counted of a document is part of it. -/
lemma unique_normUsage {usage : Json ℚ} (h : Unique usage) {responsesShape : Bool}
    {counts : Counts ℚ} (hcounts : Server.normUsage usage responsesShape = .ok counts) :
    Unique counts.input ∧ Unique counts.output ∧ Unique counts.total ∧ Unique counts.cached := by
  have hzero : Unique (.int 0 : Json ℚ) := trivial
  unfold Server.normUsage at hcounts
  split_ifs at hcounts with htruthy
  · obtain ⟨u, hu, hcounts⟩ := Outcomes.bind_eq_ok.1 hcounts
    obtain ⟨t, ht, hcounts⟩ := Outcomes.bind_eq_ok.1 hcounts
    obtain ⟨details, hdetails, hcounts⟩ := Outcomes.bind_eq_ok.1 hcounts
    cases hcounts
    have hdict := unique_asDict h hu
    have hinput := JsonText.unique_getD hdict (Server.usageKeys responsesShape).input hzero
    have houtput := JsonText.unique_getD hdict (Server.usageKeys responsesShape).output hzero
    have hsum : Unique t := by
      cases hadd : (Json.getD u (Server.usageKeys responsesShape).input (.int 0)).add
          (Json.getD u (Server.usageKeys responsesShape).output (.int 0)) with
      | error f =>
          rw [hadd] at ht
          cases ht
      | ok v =>
          rw [hadd] at ht
          cases ht
          exact unique_add hinput houtput hadd
    have hempty : Unique (.dict [] : Json ℚ) := ⟨List.nodup_nil, trivial⟩
    have hinner := unique_asDict (JsonText.unique_orElse
      (Server.unique_get hdict (Server.usageKeys responsesShape).details) hempty) hdetails
    exact ⟨hinput, houtput, JsonText.unique_getD hdict _ hsum, JsonText.unique_getD hinner _ hzero⟩
  · cases hcounts
    exact ⟨hzero, hzero, hzero, hzero⟩

lemma get_sublist {d d' : Dict ℚ} (h : d'.Sublist d) (hd : Unique (.dict d)) (k : String) :
    Json.get d' k = .null ∨ Json.get d' k = Json.get d k := by
  have hnodup := ((JsonText.unique_dict_iff d).1 hd).1
  rw [Json.get, Json.get]
  cases hlookup : d'.lookup k with
  | none => exact .inl rfl
  | some v =>
      have hmem := h.subset (Server.mem_of_lookup d' hlookup)
      rw [Grouping.lookup_of_mem hnodup hmem]
      exact .inr rfl

/-- What an endpoint sends on is part of what it has been asked. -/
lemma body_sublist {env : Requests.Env ℚ} {h : AdminApi.Headers} {d : Dict ℚ}
    {route : Server.Route} {call : Requests.Call ℚ}
    (hcall : Requests.callFor env h d route = .ok (call, false)) : call.body.Sublist d := by
  cases route with
  | chatCompletions => rw [Requests.passthroughCall_plain hcall]
  | responses => rw [Requests.passthroughCall_plain hcall]
  | messages => exact (Requests.messagesCall_forwarded hcall).kept

/-- The counts of an answer are part of it, so that a key occurs once in them as it does in the
answer. -/
lemma unique_countsOf {env : Requests.Env ℚ} {route : Server.Route} {d : Dict ℚ}
    {counts : Counts ℚ} (hd : Unique (.dict d))
    (hcounts : Requests.countsOf env route d = .ok counts) :
    Unique counts.input ∧ Unique counts.output ∧ Unique counts.total ∧ Unique counts.cached := by
  have hnorm : ∀ responsesShape, Requests.passthroughCounts responsesShape d = .ok counts →
      Unique counts.input ∧ Unique counts.output ∧ Unique counts.total ∧ Unique counts.cached := by
    intro responsesShape hok
    unfold Requests.passthroughCounts at hok
    cases hread : Server.normUsage (Json.get d "usage") responsesShape with
    | error f =>
        rw [hread] at hok
        cases hok
    | ok counts' =>
        rw [hread] at hok
        cases hok
        exact unique_normUsage (Server.unique_get hd "usage") hread
  cases route with
  | chatCompletions => exact hnorm false hcounts
  | responses => exact hnorm true hcounts
  | messages =>
      obtain ⟨u, -, hcounts⟩ := Outcomes.bind_eq_ok.1 hcounts
      obtain ⟨i, -, hcounts⟩ := Outcomes.bind_eq_ok.1 hcounts
      obtain ⟨o, -, hcounts⟩ := Outcomes.bind_eq_ok.1 hcounts
      obtain ⟨cached, -, hcounts⟩ := Outcomes.bind_eq_ok.1 hcounts
      cases hcounts
      exact ⟨trivial, trivial, trivial, trivial⟩

lemma requestId_ne_empty {env : Requests.Env ℚ} (henv : Honest env) (h : AdminApi.Headers) :
    (Requests.extractTenant env.fingerprint env.uuid h).requestId ≠ "" := by
  simp only [Requests.extractTenant, Requests.nonEmpty]
  split_ifs with hempty
  · exact henv.uuid
  · exact hempty

/-- An answer that is a document, or the document that stands for one. -/
lemma honest_document {env : Requests.Env ℚ} (henv : Honest env) {call : Requests.Call ℚ}
    {status : ℤ} {document : Option (Json ℚ)} {text : String} {data : Dict ℚ}
    (hanswer : env.post call = .answered status document text)
    (hdata : document.getD (Requests.errorDocument text) = .dict data) :
    Unique (.dict data) ∧ ∀ usage x, Json.get data "copilot_usage" = .dict usage →
      Json.get usage "total_nano_aiu" ≠ .float x := by
  cases document with
  | some v =>
      rw [Option.getD_some] at hdata
      subst hdata
      exact ⟨henv.documents _ _ _ _ hanswer, fun usage x => henv.prices _ _ _ _ usage x hanswer⟩
  | none =>
      cases hdata
      refine ⟨?_, fun usage x hnone => ?_⟩
      · simp [JsonText.Unique, JsonText.UniqueFields]
      · cases hnone

lemma extracted_cases (data : Dict ℚ) :
    (Server.extractCopilotUsage (.dict data)).getD .null = .null ∨
      (Server.extractCopilotUsage (.dict data)).getD .null = Json.get data "copilot_usage" := by
  cases hget : Json.get data "copilot_usage" with
  | dict usage => exact .inr (by simp [Server.extractCopilotUsage, hget])
  | _ => exact .inl (by simp [Server.extractCopilotUsage, hget])

/-- The record of an answer is sound: its counts come from the document of the backend, and the call
and the tenant from the request. -/
lemma sound_recorded {env : Requests.Env ℚ} (henv : Honest env) {route : Server.Route}
    {h : AdminApi.Headers} {d : Dict ℚ} {call : Requests.Call ℚ} {status : ℤ}
    {document : Option (Json ℚ)} {text : String} {c : UsageCall ℚ} {hubId : String}
    {moment : Datetime} {blob : Option String}
    (hanswer : env.post call = .answered status document text) (hd : Unique (.dict d))
    (hmodel : ((Json.get d "model").orElse (.str "unknown")).hashable = true)
    (hcall : Requests.callFor env h d route = .ok (call, false))
    (hrecorded : Recorded (Requests.billedFor env h route call) (Requests.countsOf env route)
      status (document.getD (Requests.errorDocument text)) c) :
    Record.Sound ⟨hubId, c, moment, blob⟩ := by
  have hsame := get_sublist (body_sublist hcall) hd "model"
  have hunique : Unique (Json.get call.body "model") := by
    rcases hsame with hnull | hsame
    · rw [hnull]
      trivial
    · rw [hsame]
      exact Server.unique_get hd "model"
  have hhashable : ((Json.get call.body "model").orElse (.str "unknown")).hashable = true := by
    rcases hsame with hnull | hsame
    · rw [hnull]
      rfl
    · rw [hsame]
      exact hmodel
  cases hrecorded with
  | refused hstatus =>
      refine ⟨⟨hunique, trivial, trivial, trivial, trivial, trivial, trivial, trivial⟩,
        requestId_ne_empty henv h, hhashable, fun usage x hnull => ?_⟩
      cases hnull
  | @served data counts hstatus hdata hcounts =>
      obtain ⟨hdocument, hprice⟩ := honest_document henv hanswer hdata
      obtain ⟨hinput, houtput, htotal, hcached⟩ := unique_countsOf hdocument hcounts
      have hextracted := extracted_cases data
      refine ⟨⟨hunique, Server.unique_get hdocument "model", hinput, houtput, htotal, hcached,
        Server.unique_get hdocument "usage", ?_⟩, requestId_ne_empty henv h, hhashable, ?_⟩
      · change Unique ((Server.extractCopilotUsage (.dict data)).getD .null)
        rcases hextracted with hnull | hsame
        · rw [hnull]
          trivial
        · rw [hsame]
          exact Server.unique_get hdocument "copilot_usage"
      · intro usage x husage
        rcases hextracted with hnull | hsame
        · cases hnull.symm.trans husage
        · exact hprice usage x (hsame.symm.trans husage)

/-- **The records of requests are sound.**  Whatever a request and the state of the hub: if the
request is JSON and names a model that can be looked up, then every record that it makes is that of
a sound one, which the control plane reads as it is and can import. -/
theorem request_sound (ft : FloatText ℚ) (env : Requests.Env ℚ) (henv : Honest env)
    {moment : Datetime} (hnow : env.sched.now = moment.isoformat) (route : Server.Route)
    (h : AdminApi.Headers) (body : Option (Json ℚ)) (hbody : ∀ v ∈ body, Unique v)
    (hmodel : ∀ d, body = some (.dict d) →
      ((Json.get d "model").orElse (.str "unknown")).hashable = true)
    (hubId : String) :
    ∀ record ∈ recordsOf (Requests.serve env route h body ⟨[], []⟩),
      (∃ r : Record, r.Sound ∧ r.hubId = hubId ∧ r.moment = moment ∧
        r.event = envelope hubId record) ∧
      readRecord ft (.bytes (eventBody ft hubId record)) =
        .body (.dict (envelope hubId record)) ∧
      convertible (envelope hubId record) = true := by
  have hending := Requests.serve_ending env route h body
  generalize Requests.serve env route h body ⟨[], []⟩ = result at hending ⊢
  -- All records are made by a call that has been answered.
  have hmade : ∀ record ∈ recordsOf result, ∃ d call status document text c blob,
      body = some (.dict d) ∧ Requests.callFor env h d route = .ok (call, false) ∧
      env.post call = .answered status document text ∧
      Recorded (Requests.billedFor env h route call) (Requests.countsOf env route) status
        (document.getD (Requests.errorDocument text)) c ∧
      record = usageRecord c env.sched.now blob := by
    intro record hrecord
    cases hending with
    | refused e => exact absurd hrecord List.not_mem_nil
    | streamed hauth hcall htenant => exact absurd hrecord List.not_mem_nil
    | sent hauth hcall hending =>
        cases hending with
        | unsent e => exact absurd hrecord List.not_mem_nil
        | lost hlost => exact absurd hrecord List.not_mem_nil
        | answered hanswer hrecorded hblob hout =>
            exact ⟨_, _, _, _, _, _, _, rfl, hcall, hanswer, hrecorded,
              List.mem_singleton.1 hrecord⟩
        | unwritten hanswer hrecorded hblob hfault =>
            exact ⟨_, _, _, _, _, _, _, rfl, hcall, hanswer, hrecorded,
              List.mem_singleton.1 hrecord⟩
  intro record hrecord
  obtain ⟨d, call, status, document, text, c, blob, rfl, hcall, hanswer, hrecorded, rfl⟩ :=
    hmade record hrecord
  have hsound : Record.Sound ⟨hubId, c, moment, blob⟩ :=
    sound_recorded henv hanswer (hbody _ rfl) (hmodel d rfl) hcall hrecorded
  have hevent : envelope hubId (usageRecord c env.sched.now blob) =
      Record.event ⟨hubId, c, moment, blob⟩ := by
    rw [hnow]
    rfl
  have hread := record_read ft hubId hsound.loaded env.sched.now blob
  refine ⟨⟨⟨hubId, c, moment, blob⟩, hsound, rfl, rfl, hevent.symm⟩, hread, ?_⟩
  rw [hevent]
  exact convertible_event hsound

/-- What the backend says to every call: an answer of `gpt-4o`, at a dollar. -/
def pricedAnswer : Dict ℚ :=
  [("model", .str "gpt-4o"), ("usage", .dict [("prompt_tokens", .int 7)]),
    ("copilot_usage", .dict [("total_nano_aiu", .int 100000000000)])]

/-- A hub with a token for the backend, which asks nobody for a key. -/
def answeringHub : Requests.Env ℚ where
  settings := ⟨false, "", ""⟩
  anthropicVersion := "2023-06-01"
  db := Store.Db.empty
  json := ⟨fun _ => .invalid, fun _ _ => .ok []⟩
  py := Runtime.strict
  tokens := ⟨some ⟨.str "t", .str "https://a", 0⟩, none, some "ghu", .failed .transport⟩
  fingerprint := fun key => key
  uuid := "u"
  sched := ⟨servedRecord.moment.isoformat, .ok none, .ok ()⟩
  post := fun _ => .answered 200 (some (.dict pricedAnswer)) ""
  render := fun v => .ok (Utf8.encode (JsonText.dumps .fractions ⟨true, false⟩ v))

/-- The client has named the model, and asks for no stream. -/
def plainBody : Dict ℚ := [("model", .str "gpt-4o"), ("messages", .list [])]

lemma honest_answeringHub : Honest answeringHub where
  documents := by
    rintro _ _ _ _ h
    cases h
    simp [pricedAnswer, JsonText.Unique, JsonText.UniqueFields]
  prices := by
    rintro _ _ _ _ usage _ h hget
    cases h
    cases hget
    simp [Json.get]
  uuid := by decide

/-- One record has been made, and it is the record of a sound one. -/
theorem request_sound_answeringHub :
    ∃ record, recordsOf (Requests.serve answeringHub .chatCompletions (fun _ => none)
        (some (.dict plainBody)) ⟨[], []⟩) = [record] ∧
      (∃ r : Record, r.Sound ∧ r.hubId = "hub-1" ∧ r.moment = servedRecord.moment ∧
        r.event = envelope "hub-1" record) ∧
      readRecord .fractions (.bytes (eventBody .fractions "hub-1" record)) =
        .body (.dict (envelope "hub-1" record)) ∧
      convertible (envelope "hub-1" record) = true := by
  refine ⟨_, rfl, ?_⟩
  refine request_sound .fractions answeringHub honest_answeringHub rfl .chatCompletions
    (fun _ => none) (some (.dict plainBody)) ?_ ?_ "hub-1" _ (List.mem_singleton.2 rfl)
  · intro v hv
    cases hv
    simp [plainBody, JsonText.Unique, JsonText.UniqueFields, JsonText.UniqueItems]
  · intro d hd
    cases hd
    decide

end Answers

end UsageEvents
end TokenFoundry
