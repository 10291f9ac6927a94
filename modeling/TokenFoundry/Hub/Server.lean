import TokenFoundry.Framework.Splitting
import TokenFoundry.Hub.CopilotClient

/-!
# Streamed answers of a hub (`hub/server.py`)

The generators behind `/v1/chat/completions`, `/v1/responses` and `/v1/messages`.  They pass the
events of the backend on, the first two after rewriting them, and when they end, in whatever way,
they read the usage out of the text that has come and schedule one usage record.

A generator is a program on the state `State`, which holds its variables and what it has brought
about.  A client that goes away raises `GeneratorExit` at a `yield`.  The `json` module is a
parameter; what it may raise besides `JSONDecodeError` (a document that is nested too deeply, a
number with too many digits) is a `Fault`.  The log is left out.
-/

set_option autoImplicit false

namespace TokenFoundry
namespace Server

open CopilotClient (Text Bytes Fault Exn Upstream)

/-- What `json.loads` makes of a text: a value, the exception that the code catches, or another
one. -/
inductive Loaded (K : Type)
  | value (v : Json K)
  /-- `JSONDecodeError`. -/
  | invalid
  | raises (f : Fault)

/-- The `json` module; `compact` stands for `separators=(",", ":")`.  Both functions may raise. -/
structure JsonModule (K : Type) where
  loads : Text → Loaded K
  dumps : (compact : Bool) → Json K → Except Fault Text

/-! ## Lines of an event stream -/

/-- `c.isspace()`: the white space of Unicode, and the separators of ASCII. -/
def isSpace (c : Char) : Bool :=
  let n := c.toNat
  decide (0x09 ≤ n ∧ n ≤ 0x0D ∨ 0x1C ≤ n ∧ n ≤ 0x20 ∨ n = 0x85 ∨ n = 0xA0 ∨ n = 0x1680 ∨
    0x2000 ≤ n ∧ n ≤ 0x200A ∨ n = 0x2028 ∨ n = 0x2029 ∨ n = 0x202F ∨ n = 0x205F ∨ n = 0x3000)

/-- `t.strip()`: the white space at both ends is cut off. -/
def strip (t : Text) : Text := ((t.dropWhile isSpace).reverse.dropWhile isSpace).reverse

def dataPrefix : Text := ['d', 'a', 't', 'a', ':']

def doneMark : Text := ['[', 'D', 'O', 'N', 'E', ']']

/-- `t.split("\n")`: only this character ends a line. -/
def lines (t : Text) : List Text := Splitting.splitOn ['\n'] t

/-- The payload of a `data:` line, unless it is empty or `[DONE]`. -/
def payload (line : Text) : Option Text :=
  if dataPrefix <+: line then
    let p := strip (line.drop dataPrefix.length)
    if p = [] ∨ p = doneMark then none else some p
  else none

section Functions

variable {K : Type} [PyFloat K]

/-! ## `_standardize_openai_usage_line` -/

def chunkObject : Json K := .str "chat.completion.chunk"

/-- `isinstance(v, list) and len(v) > 0`, for the choices of a chunk. -/
def isFilledList : Json K → Bool
  | .list xs => ! xs.isEmpty
  | _ => false

/-- `v == s`, for a text: no value of another type is equal to one. -/
def isText (v : Json K) (s : String) : Bool :=
  match v with
  | .str t => decide (t = s)
  | _ => false

/-- `{k: v for k, v in obj.items() if k != "usage"}`, with `object`. -/
def finishChunk (obj : Dict K) : Dict K :=
  Json.setItem (obj.filter (fun e => e.1 ≠ "usage")) "object" chunkObject

/-- The chunk without choices that carries the usage, with the fields that identify the answer. -/
def usageChunk (obj : Dict K) (usage : Json K) : Dict K :=
  let kept := ["id", "created", "model", "system_fingerprint"].filterMap
    (fun k => (obj.lookup k).map (fun v => (k, v)))
  kept ++ [("object", chunkObject), ("choices", .list []), ("usage", usage)]

def dataLine (t : Text) : Text := dataPrefix ++ ' ' :: t

/-- `_standardize_openai_usage_line`. -/
def standardizeOpenaiUsageLine (json : JsonModule K) (line : Text) : Except Fault Text :=
  match payload line with
  | none => .ok line
  | some p =>
      match json.loads p with
      | .invalid => .ok line
      | .raises f => .error f
      | .value (.dict obj) =>
          let usage := Json.get obj "usage"
          if usage.truthy && isFilledList (Json.get obj "choices") then do
            let finish ← json.dumps true (.dict (finishChunk obj))
            let last ← json.dumps true (.dict (usageChunk obj usage))
            return dataLine finish ++ ['\n', '\n'] ++ dataLine last
          else if isText (Json.get obj "object") "chat.completion.chunk" then return line
          else do
            let stamped ← json.dumps true (.dict (Json.setItem obj "object" chunkObject))
            return dataLine stamped
      | .value _ => .ok line

/-- `_emit`: the bytes of one event. -/
def emitEvent (json : JsonModule K) (event : Text) : Except Fault Bytes := do
  let out ← (lines event).mapM (fun line =>
    if dataPrefix <+: line then standardizeOpenaiUsageLine json line else .ok line)
  return Utf8.encode (['\n'].intercalate out)

/-! ## The usage in a stream -/

/-- A loop over the JSON values of a text's `data:` lines. -/
def forData {σ : Type} (json : JsonModule K) (text : Text) (init : σ)
    (body : σ → Json K → Except Fault σ) : Except Fault σ :=
  (lines text).foldlM (fun s line =>
    match payload (strip line) with
    | none => .ok s
    | some p =>
        match json.loads p with
        | .invalid => .ok s
        | .raises f => .error f
        | .value obj => body s obj) init

/-- What an operation of the language raises. -/
def raised {α : Type} (x : Except Failure α) : Except Fault α := x.mapError Fault.failure

/-- `_parse_sse_usage`. -/
def parseSseUsage (json : JsonModule K) (text : Text) (responsesShape : Bool) :
    Except Fault (Json K) :=
  forData json text .null (fun usage obj => do
    let cand ←
      (if responsesShape then
        let nested := match obj with
          | .dict d =>
              match Json.get d "response" with
              | .dict resp => Json.get resp "usage"
              | _ => .null
          | _ => .null
        if nested.truthy then pure nested
        else (fun d => Json.get d "usage") <$> raised obj.asDict
      else (fun d => Json.get d "usage") <$> raised obj.asDict : Except Fault (Json K))
    return if cand.truthy then cand else usage)

/-- `for k, v in u.items()` of `_parse_anthropic_sse_usage`. -/
def mergeUsage (merged u : Dict K) : Dict K :=
  u.foldl (fun merged e =>
    if Json.has merged e.1 && ! e.2.truthy then merged else Json.setItem merged e.1 e.2) merged

/-- The counters that the caller subscripts. -/
def counters : Dict K :=
  [("input_tokens", .int 0), ("output_tokens", .int 0), ("cache_read_input_tokens", .int 0)]

/-- The loop body of `_parse_anthropic_sse_usage`. -/
def mergeEvent (merged : Dict K) (obj : Json K) : Except Fault (Dict K) := do
  let d ← raised obj.asDict
  let message ← raised ((Json.get d "message").orElse (.dict [])).asDict
  match (Json.get message "usage").orElse (Json.get d "usage") with
  | .dict u => return mergeUsage merged u
  | _ => return merged

/-- `_parse_anthropic_sse_usage`. -/
def parseAnthropicSseUsage (json : JsonModule K) (text : Text) : Except Fault (Dict K) := do
  let merged ← forData json text [] mergeEvent
  return merged.foldl (fun all e => Json.setItem all e.1 e.2) counters

/-- `_extract_copilot_usage`: the bill of upstream in a document, if it is a dictionary. -/
def extractCopilotUsage : Json K → Option (Json K)
  | .dict d =>
      match Json.get d "copilot_usage" with
      | .dict cu => some (.dict cu)
      | _ => none
  | _ => none

/-- `_scan_sse_copilot_usage`: the last bill in a stream, in a document or in the response that it
carries. -/
def scanSseCopilotUsage (json : JsonModule K) (text : Text) : Except Fault (Json K) :=
  forData json text .null (fun found obj =>
    let cand := match extractCopilotUsage obj, obj with
      | some cu, _ => some cu
      | none, .dict d => extractCopilotUsage (Json.get d "response")
      | none, _ => none
    return cand.getD found)

/-- `v is None`. -/
def isNone : Json K → Bool
  | .null => true
  | _ => false

/-- The keys under which a vendor reports the counts, which differ between the two protocols. -/
structure UsageKeys where
  input : String
  output : String
  details : String

/-- The keys of `/v1/responses`, or those of `/v1/chat/completions`. -/
def usageKeys (responsesShape : Bool) : UsageKeys :=
  if responsesShape then ⟨"input_tokens", "output_tokens", "input_tokens_details"⟩
  else ⟨"prompt_tokens", "completion_tokens", "prompt_tokens_details"⟩

/-- Input, output, total and cached tokens; each is what the vendor has sent. -/
structure Counts (K : Type) where
  input : Json K
  output : Json K
  total : Json K
  cached : Json K

/-- `_norm_usage`: the counts of either protocol under one name each; a usage that is missing counts
as zeros. -/
def normUsage (usage : Json K) (responsesShape : Bool) : Except Fault (Counts K) :=
  if usage.truthy then do
    let u ← raised usage.asDict
    let keys := usageKeys responsesShape
    let i := Json.getD u keys.input (.int 0)
    let o := Json.getD u keys.output (.int 0)
    -- The default of `usage.get("total_tokens", i + o)` is computed in any case.
    let t := Json.getD u "total_tokens" (← raised (i.add o))
    let details ← raised ((Json.get u keys.details).orElse (.dict [])).asDict
    return ⟨i, o, t, Json.getD details "cached_tokens" (.int 0)⟩
  else return ⟨.int 0, .int 0, .int 0, .int 0⟩

/-! ## Usage records -/

/-- `_extract_tenant`: who a request is from, by the headers that the gateway sets. -/
structure Tenant where
  requestId : String
  subscription : Option String
  apiId : Option String
  clientKeyFp : Option String
  viaApim : Bool
  audit : Bool

def optional : Option String → Json K
  | some s => .str s
  | none => .null

/-- What the caller of `_spawn_emit` passes: everything of the record but the time and the archived
blob. -/
structure UsageCall (K : Type) where
  tenant : Tenant
  endUser : Option String
  model : Json K
  served : Json K
  endpoint : String
  counts : Counts K
  streamed : Bool
  estimated : Bool
  status : ℤ
  usage : Json K
  copilotUsage : Json K

/-- `_usage_record`: the record as it is put into an event, with its fields in their order. -/
def usageRecord (c : UsageCall K) (ts : String) (auditBlob : Option String) : Dict K :=
  [("request_id", .str c.tenant.requestId), ("ts", .str ts),
    ("subscription", optional c.tenant.subscription), ("api_id", optional c.tenant.apiId),
    ("client_key_fp", optional c.tenant.clientKeyFp), ("via_apim", .bool c.tenant.viaApim),
    ("end_user", optional c.endUser), ("model", c.model), ("served_model", c.served),
    ("endpoint", .str c.endpoint), ("streamed", .bool c.streamed), ("status", .int c.status),
    ("input_tokens", c.counts.input), ("output_tokens", c.counts.output),
    ("total_tokens", c.counts.total), ("cached_tokens", c.counts.cached),
    ("estimated", .bool c.estimated), ("usage", c.usage), ("copilot_usage", c.copilotUsage),
    ("audit_blob", optional auditBlob)]

/-- What `_spawn_emit` finds: the time, what `audit.submit` gives, and whether a task can be
created. -/
structure Scheduling where
  now : String
  submit : Except Fault (Option String)
  createTask : Except Fault Unit

/-- `_PENDING_EMITS` with the tasks created so far, and the counter of `eventhub.record_drop`. -/
structure Emits (K : Type) where
  scheduled : List (Dict K)
  inFlight : ℕ
  lost : ℕ

/-- `_MAX_PENDING_EMITS`: with so many records on their way, another one is dropped. -/
def maxPendingEmits : ℕ := 256

/-- `_archive`: the payload of an audited key is handed to the archive, which gives the name of the
blob. -/
def archive (sched : Scheduling) (tenant : Tenant) : Except Fault (Option String) :=
  if tenant.audit then sched.submit else .ok none

/-- `eventhub.record_drop`: the record is counted as lost. -/
def recordDrop (e : Emits K) : Emits K := { e with lost := e.lost + 1 }

/-- `_spawn_emit`: the record is scheduled, or counted as lost where the archive or the loop raises
or too many are on their way. -/
def spawnEmit (sched : Scheduling) (c : UsageCall K) (e : Emits K) : Emits K :=
  match archive sched c.tenant with
  | .error _ => recordDrop e
  | .ok auditBlob =>
      if maxPendingEmits ≤ e.inFlight then recordDrop e
      else match sched.createTask with
        | .error _ => recordDrop e
        | .ok _ =>
            { e with
              scheduled := e.scheduled ++ [usageRecord c sched.now auditBlob]
              inFlight := e.inFlight + 1 }

/-! ## The generators -/

/-- What a generator keeps and has done: the text it has received, what is still to be sent, and
what it has yielded. -/
structure State (K : Type) where
  collected : List Text
  buf : Text
  upstreamStatus : ℤ
  /-- What has been yielded. -/
  sent : List Bytes
  /-- The yields that the client still waits for; `none` if it stays to the end. -/
  client : Option ℕ
  emits : Emits K

/-- A generator that has not begun. -/
def State.initial (client : Option ℕ) (emits : Emits K) : State K :=
  ⟨[], [], 200, [], client, emits⟩

/-- A part of a generator. -/
abbrev Gen (K : Type) := EStateM Exn (State K)

/-- `yield`: the client gets the bytes, and may go away at this point, which is raised here. -/
def yieldBytes (b : Bytes) : Gen K Unit := do
  modify (fun s => { s with sent := s.sent ++ [b] })
  match (← get).client with
  | none => pure ()
  | some 0 => throw .generatorExit
  | some (n + 1) => modify (fun s => { s with client := some n })

/-- `async for chunk in chunks`, where the chunks may end with an exception. -/
def forChunks (body : Bytes → Gen K Unit) : List Bytes → Option Exn → Gen K Unit
  | [], none => pure ()
  | [], some e => throw e
  | c :: cs, e => do
      body c
      forChunks body cs e

/-- What a computation of the generator raises, as one of its exceptions. -/
def orRaise {α : Type} (x : Except Fault α) : Gen K α :=
  match x with
  | .ok a => pure a
  | .error f => throw (.fault f)

/-- `_sse_error`: the status of upstream as an event, and the mark of the end of a stream. -/
def sseError (json : JsonModule K) (status : ℤ) (body : Text) : Except Fault Bytes := do
  let payload ← json.dumps false (.dict [("error", .dict
    [("message", .str (s!"upstream returned {status}")), ("type", .str "upstream_error"),
      ("code", .int status), ("upstream", .str (String.ofList (body.take 500)))])])
  return Utf8.encode (dataLine payload ++ ['\n', '\n'] ++ dataLine doneMark ++ ['\n', '\n'])

/-- `except cc.UpstreamStatusError`: the client is told of the refusal; other exceptions go on. -/
def onException (json : JsonModule K) : Exn → Gen K Unit
  | .upstreamStatus status body => do
      modify (fun s => { s with upstreamStatus := status })
      yieldBytes (← orRaise (sseError json status body))
  | e => throw e

/-- The separator of events, in the buffer of the generator. -/
def blankLine : Text := ['\n', '\n']

/-- The separator of events, as it is sent. -/
def blankLineBytes : Bytes := [0x0A, 0x0A]

/-- `while "\n\n" in buf`; each round makes the buffer shorter, so that as many rounds as characters
are enough. -/
def flushEvents (json : JsonModule K) : ℕ → Gen K Unit
  | 0 => pure ()
  | n + 1 => do
      match Splitting.findSep blankLine (← get).buf with
      | none => pure ()
      | some (event, rest) =>
          modify (fun s => { s with buf := rest })
          yieldBytes ((← orRaise (emitEvent json event)) ++ blankLineBytes)
          flushEvents json n

/-- A streaming request to `/v1/chat/completions` or to `/v1/responses`, with who is billed for
it. -/
structure Request (K : Type) where
  tenant : Tenant
  endUser : Option String
  model : Json K
  endpoint : String
  responsesShape : Bool
  estInput : ℤ

/-- The body of the loop of `_passthrough.gen`: a chunk is decoded and collected, and the events
that are complete are sent. -/
def passChunk (json : JsonModule K) (chunk : Bytes) : Gen K Unit := do
  let text := Utf8.decode chunk
  modify (fun s => { s with collected := s.collected ++ [text], buf := s.buf ++ text })
  flushEvents json (← get).buf.length

/-- `if buf` after the loop: what is left is sent as an event without its separator. -/
def flushTail (json : JsonModule K) : Gen K Unit := do
  let buf := (← get).buf
  if buf ≠ [] then
    yieldBytes (← orRaise (emitEvent json buf))

/-- What `_passthrough.gen` passes to `_spawn_emit`: the usage of the stream, with an estimate where
the stream gives no count. -/
def passCall (json : JsonModule K) (req : Request K) (collected : List Text)
    (upstreamStatus : ℤ) : Except Fault (UsageCall K) := do
  let raw := collected.flatten
  let usage ← parseSseUsage json raw req.responsesShape
  let counts ← normUsage usage req.responsesShape
  let gotContent := ! collected.isEmpty
  let inputEstimated := gotContent && ! counts.input.truthy
  let counts ←
    (if inputEstimated then do
      let t ← raised ((Json.int req.estInput).add counts.output)
      pure { counts with input := .int req.estInput, total := t }
    else pure counts : Except Fault (Counts K))
  let copilotUsage ← scanSseCopilotUsage json raw
  return {
    tenant := req.tenant
    endUser := req.endUser
    model := req.model
    served := .null
    endpoint := req.endpoint
    counts := counts
    streamed := true
    estimated := gotContent && (isNone usage || inputEstimated)
    status := upstreamStatus
    usage := usage
    copilotUsage := copilotUsage }

/-- `finally`: the record is made out of the text and the status. -/
def account (sched : Scheduling) (call : List Text → ℤ → Except Fault (UsageCall K)) :
    Gen K Unit := do
  let s ← get
  let c ← orRaise (call s.collected s.upstreamStatus)
  set { s with emits := spawnEmit sched c s.emits }

/-- `try: … finally: …`: the last part runs in both cases, and what it raises goes before what was
raised. -/
def withFinally (body last : Gen K Unit) : Gen K Unit := fun s =>
  match body s with
  | .ok _ s => last s
  | .error e s =>
      match last s with
      | .ok _ s => .error e s
      | .error e' s => .error e' s

/-- `_passthrough.gen`: the events of the stream are rewritten and sent, and whatever happens the
request is accounted for. -/
def passthrough (json : JsonModule K) (py : Runtime K) (sched : Scheduling) (req : Request K)
    (u : Upstream K) : Gen K Unit :=
  withFinally
    (tryCatch
      (do
        let streamed := CopilotClient.stream py u
        forChunks (passChunk json) streamed.1 streamed.2
        flushTail json)
      (onException json))
    (account sched (passCall json req))

/-- The body of the loop of `v1_messages.gen`: a chunk is collected and sent on as it is. -/
def messagesChunk (chunk : Bytes) : Gen K Unit := do
  modify (fun s => { s with collected := s.collected ++ [Utf8.decode chunk] })
  yieldBytes chunk

/-- What `v1_messages.gen` passes to `_spawn_emit`: the usage that the events of the stream have
settled on. -/
def messagesCall (json : JsonModule K) (req : Request K) (collected : List Text)
    (upstreamStatus : ℤ) : Except Fault (UsageCall K) := do
  let raw := collected.flatten
  let u ← parseAnthropicSseUsage json raw
  let i := Json.get u "input_tokens"
  let o := Json.get u "output_tokens"
  let t ← raised (i.add o)
  let copilotUsage ← scanSseCopilotUsage json raw
  return {
    tenant := req.tenant
    endUser := req.endUser
    model := req.model
    served := .null
    endpoint := "messages"
    counts := ⟨i, o, t, Json.get u "cache_read_input_tokens"⟩
    streamed := true
    estimated := ! collected.isEmpty && ! i.truthy
    status := upstreamStatus
    usage := .dict u
    copilotUsage := copilotUsage }

/-- `v1_messages.gen`: the stream is sent on unchanged, and whatever happens the request is
accounted for. -/
def messages (json : JsonModule K) (py : Runtime K) (sched : Scheduling) (req : Request K)
    (u : Upstream K) : Gen K Unit :=
  withFinally
    (tryCatch
      (do
        let streamed := CopilotClient.stream py u
        forChunks messagesChunk streamed.1 streamed.2)
      (onException json))
    (account sched (messagesCall json req))

/-- The endpoints that stream. -/
inductive Route
  | chatCompletions
  | responses
  | messages

/-- The generator of a response, for each of the endpoints. -/
def generator (json : JsonModule K) (py : Runtime K) (sched : Scheduling) (req : Request K)
    (u : Upstream K) : Route → Gen K Unit
  | .chatCompletions =>
      passthrough json py sched
        { req with endpoint := "chat.completions", responsesShape := false } u
  | .responses =>
      passthrough json py sched { req with endpoint := "responses", responsesShape := true } u
  | .messages => messages json py sched req u

end Functions

end Server
end TokenFoundry
