import TokenFoundry.Framework.Interleaving
import TokenFoundry.Services.UsageIngest
import Mathlib.Data.List.Sort

/-!
# The import of usage (`app/services/usage_capture_import.py`)

Event Hub Capture writes the events of the hubs to blobs.  `run_once` turns every event of the blobs
that are newer than a watermark into a document of the usage store, and moves the watermark to the
last blob it has finished.

The loops of `run_once` stand inside one `try`.  The first exception ends them, and what they have
reached until then is kept; so each loop returns it together with whether it came to its end.
-/

set_option autoImplicit false

namespace TokenFoundry
namespace UsageCaptureImport

open Billing (TokenField Tokens CostBreakdown)
open UsageIngest (Document)

variable {K : Type} [PyFloat K]

/-! ## Conversions -/

/-- `value.replace("Z", "+00:00")`: every `Z` of the text is replaced, wherever it stands. -/
def zuluAsOffset (value : String) : String :=
  String.ofList (value.toList.flatMap (fun c => if c = 'Z' then "+00:00".toList else [c]))

/-- The time that a text names, in UTC; `none` where it names none. -/
def ownTime : Json K → Option (Except Failure Datetime)
  | .str value =>
      match fromIsoformat (zuluAsOffset value) with
      | none => none
      | some ⟨clock, none⟩ => some (.ok clock)
      | some ⟨clock, some offset⟩ =>
          some (match clock.shift (-offset) with
            | some utc => .ok utc
            | none => .error .overflow)
  | _ => none

/-- `_parse_ts`: the time of the event, or the clock of this run where the event has none that can
be read. -/
def parseTs (value : Json K) (now : Datetime) : Except Failure Datetime :=
  (ownTime value).getD (.ok now)

/-- `_int`: the number that a value holds, or zero; what cannot be converted raises. -/
def int (value : Json K) : Except Failure ℤ := (Billing.count value).getD (.ok 0)

/-- `_route_markups`: the last row of a name counts. -/
abbrev Markups (K : Type) := List (String × K)

/-- The markups by the names of the models; a later row replaces an earlier one. -/
def markupsOfRows (rows : List (String × Option K)) : Markups K :=
  (rows.map (fun r => (r.1, r.2.getD (PyFloat.lit 0)))).reverse

/-- `markups.get(model, 0.0)`; a list or a dictionary cannot be looked up. -/
def markupOf (markups : Markups K) (model : Json K) : Except Failure K :=
  match model with
  | .str name => return (markups.lookup name).getD (PyFloat.lit 0)
  | model => if model.hashable then return PyFloat.lit 0 else throw .type

/-! ## `event_to_document` -/

/-- The token columns: upstream's own split, or else the counts of the hub. -/
def tokensOf (event : Dict K) : Except Failure Tokens := do
  let tokens ← Billing.tokensFromCopilotUsage (Json.get event "copilot_usage")
  if tokens.any then return tokens
  else
    let prompt ← int (Json.get event "input_tokens")
    let completion ← int (Json.get event "output_tokens")
    let cached ← int (Json.get event "cached_tokens")
    return fun
      | .promptTok => prompt
      | .completionTok => completion
      | .cachedTok => cached
      | .cacheWriteTok => 0

/-- `event.get("subscription") or "unknown"`: the key that the request was made with. -/
def subscriptionOf (event : Dict K) : Json K :=
  (Json.get event "subscription").orElse (.str "unknown")

/-- `event.get("model") or "unknown"`: the name under which the markup is looked up. -/
def modelOf (event : Dict K) : Json K := (Json.get event "model").orElse (.str "unknown")

/-- What is computed for a document; the other columns are copied from the event. -/
structure Computed (K : Type) where
  ts : Datetime
  tokens : Tokens
  cost : Option (CostBreakdown K)
  status : ℤ
  totalTok : ℤ

/-- The computations, in their order, each of which may raise. -/
def compute (event : Dict K) (markups : Markups K) (now : Datetime) :
    Except Failure (Computed K) := do
  let ts ← parseTs (Json.get event "ts") now
  let tokens ← tokensOf event
  let cost ← Billing.costFromCopilotUsage (Json.get event "copilot_usage")
    (← markupOf markups (modelOf event))
  let status ← int (Json.get event "status")
  let totalTok ← int (Json.get event "total_tokens")
  return ⟨ts, tokens, cost, status, totalTok⟩

/-- `v or None`: an empty value is stored as none. -/
def orNull (v : Json K) : Json K := v.orElse .null

/-- The document of an event: what identifies it, what was computed, and what is copied. -/
def document (py : Runtime K) (event : Dict K) (c : Computed K) : Document K :=
  [("id", .str ((Json.get event "request_id").text py)),
    ("pk", .str ((subscriptionOf event).text py ++ "_" ++ c.ts.yearMonth)),
    ("ts", .str c.ts.isoformat),
    ("subscription", subscriptionOf event),
    ("api", Json.get event "api_id"),
    ("route", modelOf event),
    ("served_model", Json.get event "served_model"),
    ("endpoint", Json.get event "endpoint"),
    ("streamed", .bool (Json.get event "streamed").truthy),
    ("status", .int c.status),
    ("end_user", Json.get event "end_user"),
    ("client_key_fp", Json.get event "client_key_fp"),
    ("via_apim", .bool (Json.get event "via_apim").truthy),
    ("hub_id", orNull (Json.get event "hub_id")),
    ("prompt_tok", .int (c.tokens .promptTok)),
    ("completion_tok", .int (c.tokens .completionTok)),
    ("cached_tok", .int (c.tokens .cachedTok)),
    ("cache_write_tok", .int (c.tokens .cacheWriteTok)),
    ("total_tok", .int c.totalTok),
    ("estimated", .bool (Json.get event "estimated").truthy),
    ("cost_usd", .float ((c.cost.map CostBreakdown.costUsd).getD (PyFloat.lit 0))),
    ("billed_usd", .float ((c.cost.map CostBreakdown.billedUsd).getD (PyFloat.lit 0))),
    ("cost_source", .str (if c.cost.isSome then "copilot_usage" else "unpriced")),
    ("copilot_usage", Json.get event "copilot_usage"),
    ("usage", Json.get event "usage"),
    ("audit_blob", orNull (Json.get event "audit_blob"))]

/-- An event with a key: only such an event is made into a document. -/
def keyed (event : Dict K) : Bool := (Json.get event "request_id").truthy

/-- `event_to_document`; `none` for an event without a request id, which is skipped and counted. -/
def eventToDocument (py : Runtime K) (event : Dict K) (markups : Markups K) (now : Datetime) :
    Except Failure (Option (Document K)) :=
  if ! keyed event then return none
  else do return some (document py event (← compute event markups now))

lemma eventToDocument_of_keyed (py : Runtime K) {event : Dict K} (h : keyed event = true)
    (markups : Markups K) (now : Datetime) :
    eventToDocument py event markups now =
      (compute event markups now).map (fun c => some (document py event c)) := by
  unfold eventToDocument
  rw [if_neg (by simp [h])]
  cases compute event markups now <;> rfl

lemma eventToDocument_of_not_keyed (py : Runtime K) {event : Dict K} (h : keyed event = false)
    (markups : Markups K) (now : Datetime) :
    eventToDocument py event markups now = .ok none := by
  unfold eventToDocument
  rw [if_pos (by simp [h])]
  rfl

/-! ## Blobs -/

/-- A blob of the capture: its name, and when it was last written. -/
structure Blob where
  name : String
  lastModified : Datetime
  deriving DecidableEq

/-- A record of a Capture blob: without a body, with one that is no JSON, or with a value. -/
inductive AvroRecord (K : Type)
  | noBody
  | undecodable
  | body (value : Json K)

/-- `_decode_avro`: the bodies that are objects; any other record is left out. -/
def decodeAvro (records : List (AvroRecord K)) : List (Dict K) :=
  records.filterMap (fun record => match record with
    | .body (.dict event) => some event
    | _ => none)

/-- The time that a stored position names; a position that names none is as good as no row. -/
def parsePosition (row : Option String) : Option Stamp :=
  match row with
  | none => none
  | some position => if position = "" then none else fromIsoformat position

/-- `_OVERLAP`, in microseconds: how far before its position a run begins. -/
def overlap : ℤ := 600000000

/-- `_MAX_BLOBS_PER_RUN`: how many blobs one run takes on. -/
def maxBlobsPerRun : ℕ := 500

/-- `d > s`; a time without an offset cannot be compared with one that has one. -/
def newer (d : Datetime) (s : Stamp) : Except Failure Bool :=
  match s.offset with
  | none => throw .type
  | some offset => return decide ((s.clock.ticks : ℤ) - offset < d.ticks)

/-- `watermark - _OVERLAP`, which raises for a time that is too early. -/
def sinceOf (watermark : Option Stamp) : Except Failure (Option Stamp) :=
  match watermark with
  | none => return none
  | some s =>
      match s.clock.shift (-overlap) with
      | none => throw .overflow
      | some clock => return some { s with clock := clock }

/-- `since is None or b.last_modified > since`; a time without an offset cannot be compared, and
raises. -/
def wanted (since : Option Stamp) (b : Blob) : Except Failure Bool :=
  match since with
  | none => return true
  | some s => newer b.lastModified s

/-- The blobs that are newer than where the run begins. -/
def wantedBlobs (since : Option Stamp) : List Blob → Except Failure (List Blob)
  | [] => return []
  | b :: blobs => do
      let keep ← wanted since b
      let rest ← wantedBlobs since blobs
      return if keep then b :: rest else rest

/-- The order of `sorted(…, key=lambda b: b.last_modified)`. -/
abbrev Blob.NotLater (a b : Blob) : Prop := a.lastModified.ticks ≤ b.lastModified.ticks

/-- `pending`: the wanted blobs in the order of their times, up to the cap. -/
def pendingBlobs (since : Option Stamp) (blobs : List Blob) : Except Failure (List Blob) := do
  let kept ← wantedBlobs since blobs
  return (kept.insertionSort Blob.NotLater).take maxBlobsPerRun

/-! ## `run_once` -/

/-- An exception of the code itself, or of an external call. -/
inductive Fault
  | code (f : Failure)
  | external
  deriving DecidableEq

/-- The calls of a run: on the database, on the blobs of the capture, and on the container of the
documents. -/
inductive Call (K : Type)
  /-- `SessionLocal()`. -/
  | openSession
  /-- `db.close()`. -/
  | closeSession
  /-- `db.get(ImportWatermark, …)`: the position, if there is a row. -/
  | getPosition
  | readMarkups
  | listBlobs
  /-- The download of a blob, and the reading of its Avro records. -/
  | download (name : String)
  /-- `datetime.now(UTC)`; read here for every event, used where the event has no time. -/
  | now
  | upsert (doc : Document K)
  /-- The row is added or changed, and committed. -/
  | putPosition (isNew : Bool) (position : String)
  | rollback

@[reducible] def Call.Answer : Call K → Type
  | .getPosition => Option String
  | .readMarkups => List (String × Option K)
  | .listBlobs => List Blob
  | .download _ => List (AvroRecord K)
  | .now => Datetime
  | _ => Unit

abbrev importApi (K : Type) : Interface Fault := ⟨Call K, Call.Answer⟩

abbrev Task (K α : Type) := Prog.Raising (importApi K) α

omit [PyFloat K] in
def ask (o : Call K) : Task K o.Answer := @Prog.ask _ (importApi K) o

omit [PyFloat K] in
/-- Raise what the code raises by itself, where no call is concerned. -/
def lift {α : Type} : Except Failure α → Task K α
  | .ok a => return a
  | .error f => throw (.code f)

omit [PyFloat K] in
/-- `except Exception`: the loops end here, and the run goes on with what it has. -/
def attempt {α : Type} (p : Task K α) : Task K (Option α) :=
  tryCatch (do
      let a ← p
      return some a)
    (fun _ => return none)

omit [PyFloat K] in
lemma exec_attempt {W α : Type} (h : (o : Call K) → W → (importApi K).Reply o × W) (p : Task K α)
    (w : W) : Prog.Raising.exec h (attempt p) w =
      (.ok (Prog.Raising.exec h p w).1.toOption, (Prog.Raising.exec h p w).2) := by
  unfold attempt
  rw [Prog.Raising.exec_tryCatch, Prog.Raising.exec_bind]
  cases Prog.Raising.exec h p w with
  | mk r w' => cases r <;> rfl

omit [PyFloat K] in
/-- A database session, which is opened before the `try` and closed in its `finally`. -/
def withSession {α : Type} (p : Task K α) : Task K α := do
  ask .openSession
  Prog.Raising.tryFinally p (ask .closeSession)

/-- `except (ValueError, TypeError)`: what a position that cannot be read raises. -/
def unparseable : Fault → Bool
  | .code .value => true
  | .code .type => true
  | _ => false

omit [PyFloat K] in
/-- `_read_watermark`: the stored position; one that cannot be read counts as none. -/
def readWatermark : Task K (Option Stamp) :=
  withSession (tryCatch (do
      let row ← ask .getPosition
      return parsePosition row)
    (fun e => if unparseable e then return none else throw e))

/-- `_route_markups`: the markups of the routes; a failure of the query counts as no markups. -/
def routeMarkups : Task K (Markups K) :=
  withSession (tryCatch (do
      let rows ← ask .readMarkups
      return markupsOfRows rows)
    (fun _ => return []))

omit [PyFloat K] in
/-- `_write_watermark`: the position is written into the row, which is made where there is none; a
failure is rolled back and not raised. -/
def writeWatermark (position : Datetime) : Task K Unit :=
  withSession (tryCatch (do
      let row ← ask .getPosition
      ask (.putPosition row.isNone position.isoformat))
    (fun _ => ask .rollback))

/-- The counters of a run: what was read, and what of it was written or skipped. -/
structure Stats where
  blobs : ℕ
  events : ℕ
  written : ℕ
  skipped : ℕ

/-- How far a run has come: its counters, and `high_water` once it is past the watermark. -/
structure Run where
  stats : Stats
  reached : Option Datetime

/-- One event: whether it has been written.  It is not where it has no request id, and it raises
where it cannot be converted or stored. -/
def importEvent (py : Runtime K) (markups : Markups K) (event : Dict K) : Task K Bool := do
  let now ← ask .now
  match ← lift (eventToDocument py event markups now) with
  | none => return false
  | some doc => do
      ask (.upsert doc)
      return true

/-- The loop over the events of a blob; the first exception ends it, and the second component says
whether it has come to its end. -/
def importEvents (py : Runtime K) (markups : Markups K) :
    List (Dict K) → Stats → Task K (Stats × Bool)
  | [], stats => return (stats, true)
  | event :: events, stats => do
      match ← attempt (importEvent py markups event) with
      | none => return (stats, false)
      | some true => importEvents py markups events { stats with written := stats.written + 1 }
      | some false => importEvents py markups events { stats with skipped := stats.skipped + 1 }

/-- `high_water is None or blob.last_modified > high_water`: the position is that of the watermark
until a blob is finished. -/
def advances (watermark : Option Stamp) (reached : Option Datetime) (d : Datetime) :
    Except Failure Bool :=
  match reached, watermark with
  | some r, _ => return decide (r.ticks < d.ticks)
  | none, none => return true
  | none, some s => newer d s

/-- The loop over the blobs.  A blob that is finished moves the position forward; one that is not
ends the loop. -/
def importBlobs (py : Runtime K) (watermark : Option Stamp) (markups : Markups K) :
    List Blob → Run → Task K Run
  | [], run => return run
  | blob :: blobs, run => do
      match ← attempt (ask (.download blob.name)) with
      | none => return run
      | some records =>
          let events := decodeAvro records
          let (stats, finished) ← importEvents py markups events { run.stats with
            blobs := run.stats.blobs + 1, events := run.stats.events + events.length }
          if finished then
            match advances watermark run.reached blob.lastModified with
            | .error _ => return { run with stats := stats }
            | .ok true => importBlobs py watermark markups blobs ⟨stats, some blob.lastModified⟩
            | .ok false => importBlobs py watermark markups blobs { run with stats := stats }
          else return { run with stats := stats }

omit [PyFloat K] in
/-- The blobs of a run; listing them is the first thing that the `try` of `run_once` guards. -/
def listPending (since : Option Stamp) : Task K (List Blob) := do
  let blobs ← ask .listBlobs
  lift (pendingBlobs since blobs)

/-- `run_once`: the position and the markups are read, the blobs since then are imported, and the
position that was reached is stored. -/
def runOnce (py : Runtime K) (configured : Bool) : Task K Stats := do
  if ! configured then return ⟨0, 0, 0, 0⟩
  else
    let watermark ← readWatermark
    let since ← lift (sinceOf watermark)
    let markups ← routeMarkups
    let pending ← attempt (listPending since)
    let run ← importBlobs py watermark markups (pending.getD []) ⟨⟨0, 0, 0, 0⟩, none⟩
    match run.reached with
    | none => return run.stats
    | some position =>
        writeWatermark position
        return run.stats

end UsageCaptureImport
end TokenFoundry
