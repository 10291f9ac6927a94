import Mathlib.Data.Finset.Sort
import Mathlib.Data.String.Basic
import TokenFoundry.Hub.AdminApi
import TokenFoundry.Hub.AnthropicAdapter

/-!
# Requests to a hub (`hub/server.py`, `hub/anthropic_adapter.py`)

What the endpoints under `/v1` do with a request up to the answer of the backend: who asks, what is
sent on and under which headers, and, where the answer is not a stream, which usage record is made
of it.  The generators that send a stream on are in `Hub/Server.lean`; here a streamed answer is the
request to the backend and what its generator is made with.

A request that is refused, or that raises, is answered by the framework.  What the backend answers
is a parameter, as are the fingerprint of a key, `uuid4`, the clock and the writer of
`JSONResponse`, which raises for numbers that are not finite and for texts that have no UTF-8.
-/

set_option autoImplicit false

namespace TokenFoundry
namespace Requests

open CopilotClient (Text Bytes Fault Exn)
open Server (Tenant UsageCall Counts Scheduling isText)
open AdminApi (Headers Refusal)

variable {K : Type} [PyFloat K]

/-! ## The names of models, and the betas of the backend (`hub/anthropic_adapter.py`) -/

/-- `MODEL_ALIASES`: the names of models that the backend knows by another name. -/
def modelAliases : List (String × String) :=
  [("claude-3-5-sonnet-20240620", "claude-3.5-sonnet"),
    ("claude-3-5-sonnet-20241022", "claude-3.5-sonnet"),
    ("claude-3-5-sonnet-latest", "claude-3.5-sonnet"),
    ("claude-3-7-sonnet-20250219", "claude-3.7-sonnet"),
    ("claude-3-7-sonnet-latest", "claude-3.7-sonnet"),
    ("claude-sonnet-4-20250514", "claude-sonnet-4"),
    ("claude-sonnet-4-5", "claude-sonnet-4.5"),
    ("claude-sonnet-4-5-20250929", "claude-sonnet-4.5"),
    ("claude-sonnet-4-6", "claude-sonnet-4.6"),
    ("claude-opus-4-20250514", "claude-opus-4"),
    ("claude-opus-4-1-20250805", "claude-opus-4.1"),
    ("claude-opus-4-7", "claude-opus-4.7"),
    ("claude-3-5-haiku-20241022", "claude-3.5-haiku"),
    ("claude-3-5-haiku-latest", "claude-3.5-haiku")]

/-- `name.rsplit("-20", 1)[0]`, if `"-20" in name`: a name without the date at its end. -/
def withoutDate (name : String) : Option String :=
  (Splitting.findSep ['0', '2', '-'] name.toList.reverse).map
    (fun r => String.ofList r.2.reverse)

/-- `map_model`, of a text: its alias, or that of the name without the date, or the name itself. -/
def mapModel (name : String) : String :=
  match modelAliases.lookup name with
  | some slug => slug
  | none => ((withoutDate name).bind (fun base => modelAliases.lookup base)).getD name

/-- `body`, or `{**body, "model": mapped}` where the name is another one. -/
def withMappedModel (body : Dict K) : Except Exn (Dict K) :=
  match Json.get body "model" with
  | .str name =>
      .ok (if mapModel name = name then body
        else Json.setItem body "model" (.str (mapModel name)))
  | v => if v.truthy then AnthropicAdapter.raises .type else .ok body

/-- `UNSUPPORTED_UPSTREAM_FIELDS`: the fields that the backend rejects in any case. -/
def unsupportedUpstreamFields : List String := ["fallbacks", "container", "mcp_servers"]

/-- `BETA_GATED_FIELDS`: the fields that the backend rejects without the beta that goes with
each. -/
def betaGatedFields : List (String × String) :=
  [("context_management", "context-management-2025-06-27")]

/-- `FORWARDABLE_BETAS`: the betas that the backend knows. -/
def knownBetas : Finset String :=
  {"claude-code-20250219", "context-1m-2025-08-07", "context-management-2025-06-27",
    "effort-2025-11-24", "fallback-credit-2026-06-01", "interleaved-thinking-2025-05-14",
    "mid-conversation-system-2026-04-07", "prompt-caching-scope-2026-01-05",
    "thinking-token-count-2026-05-13"}

/-- `_betas`: the names in the header, between commas and without the blanks around them. -/
def betas : Option String → Finset String
  | none => ∅
  | some header =>
      ((((Splitting.splitOn [','] header.toList).map Server.strip).filter
        (fun part => ! part.isEmpty)).map String.ofList).toFinset

/-- `forwardable_betas`: those of the client's betas that the backend knows. -/
def forwardableBetas (header : Option String) : Finset String := betas header ∩ knownBetas

/-- The fields of a payload that the backend would reject, in the order in which they are logged. -/
def droppedFields (payload : Dict K) (betaHeader : Option String) : List String :=
  unsupportedUpstreamFields.filter (fun f => Json.has payload f) ++
    (betaGatedFields.filter
      (fun e => Json.has payload e.1 && decide (e.2 ∉ betas betaHeader))).map Prod.fst

/-- `strip_unsupported`: the payload that is left, and the fields that are dropped. -/
def stripUnsupported (payload : Dict K) (betaHeader : Option String) : Dict K × List String :=
  let dropped := droppedFields payload betaHeader
  if dropped.isEmpty then (payload, [])
  else (payload.filter (fun e => decide (e.1 ∉ dropped)), dropped)

/-! ## Images -/

mutual

/-- `_scan`: whether there is an image in a list of blocks, or in the result of a tool among
them. -/
def scan : Json K → Bool
  | .list blocks => scanBlocks blocks
  | _ => false

/-- The loop of `_scan`; what is no dictionary is passed over. -/
def scanBlocks : List (Json K) → Bool
  | [] => false
  | .dict part :: blocks =>
      isText (Json.get part "type") "image" ||
        (isText (Json.get part "type") "tool_result" && scanContent part) || scanBlocks blocks
  | _ :: blocks => scanBlocks blocks

/-- `_scan(part.get("content"))`, for the entries of the dictionary. -/
def scanContent : List (String × Json K) → Bool
  | [] => false
  | (key, v) :: part => if key = "content" then scan v else scanContent part

end

/-- `isinstance(msg, dict) and _scan(msg.get("content"))`, for one message. -/
def scanMessage : Json K → Bool
  | .dict msg => scan (Json.get msg "content")
  | _ => false

/-- `_anthropic_has_image`: in a message, or in the system prompt. -/
def anthropicHasImage (req : Dict K) : Except Exn Bool := do
  let messages ← AnthropicAdapter.iterate ((Json.get req "messages").orElse (.list []))
  return messages.any scanMessage || scan (Json.get req "system")

/-- A part of a message with an image, as OpenAI writes it. -/
def isImagePart : Json K → Bool
  | .dict part => isText (Json.get part "type") "image_url"
  | _ => false

/-- `has_image_content`, for the messages that are left; a message after the image is not looked
at. -/
def hasImageIn : List (Json K) → Except Exn Bool
  | [] => .ok false
  | .dict msg :: messages =>
      match Json.get msg "content" with
      | .list parts => if parts.any isImagePart then .ok true else hasImageIn messages
      | _ => hasImageIn messages
  | _ :: _ => .error (.fault (.failure .attribute))

/-- `has_image_content`: whether a message of an OpenAI request has an image. -/
def hasImageContent (body : Dict K) : Except Exn Bool := do
  hasImageIn (← AnthropicAdapter.iterate ((Json.get body "messages").orElse (.list [])))

/-! ## Who asks -/

/-- `(h.get(name) or "").strip()`: a missing header is an empty text. -/
def headerText (h : Headers) (name : String) : String :=
  String.ofList (Server.strip ((h name).getD "").toList)

/-- `s or None`: an empty text is none. -/
def nonEmpty (s : String) : Option String := if s = "" then none else some s

/-- `wants_audit`: the gateway has put the flag of the key into a header. -/
def wantsAudit (h : Headers) : Bool := decide (headerText h "x-tf-audit" = "1")

/-- `_extract_tenant`; `fingerprint` is the beginning of a digest, `uuid` a fresh id. -/
def extractTenant (fingerprint : String → String) (uuid : String) (h : Headers) : Tenant :=
  let sub := nonEmpty (headerText h "x-tf-subscription")
  let fp := (AdminApi.extractClientKey h).map fingerprint
  { requestId := (nonEmpty (headerText h "x-tf-request-id")).getD uuid
    subscription := sub <|> fp
    apiId := nonEmpty (headerText h "x-tf-api")
    clientKeyFp := fp
    viaApim := sub.isSome
    audit := wantsAudit h }

/-- `v.strip()` of a text that is not blank; anything else is none. -/
def strippedText : Json K → Option String
  | .str s => nonEmpty (String.ofList (Server.strip s.toList))
  | _ => none

/-- `_extract_end_user`: the user in the metadata, or the field of the other protocol. -/
def extractEndUser : Json K → Option String
  | .dict body =>
      let inMetadata := match Json.get body "metadata" with
        | .dict m => strippedText (Json.get m "user_id")
        | _ => none
      inMetadata <|> strippedText (Json.get body "user")
  | _ => none

/-! ## What is sent on -/

/-- A request to the backend: its path, the headers that depend on the client's, and its body. -/
structure Call (K : Type) where
  path : String
  headers : List (String × String)
  body : Dict K

/-- `",".join(sorted(s))`: the names in their order. -/
def joined (s : Finset String) : String := ",".intercalate (s.sort (fun a b => a ≤ b))

/-- `_upstream_contract_headers`: the version that the client names or the hub's own, and the betas
that the backend knows. -/
def upstreamContractHeaders (anthropicVersion : String) (h : Headers) : List (String × String) :=
  let version :=
    ("anthropic-version", (nonEmpty ((h "anthropic-version").getD "")).getD anthropicVersion)
  let forwardable := forwardableBetas (h "anthropic-beta")
  if forwardable = ∅ then [version] else [version, ("anthropic-beta", joined forwardable)]

/-- `vision_headers or {}`: the header that a request with an image needs. -/
def visionHeaders (hasImage : Bool) : List (String × String) :=
  if hasImage then [("Copilot-Vision-Request", "true")] else []

/-- What is left of a request to `/v1/messages`, and whether the answer is streamed. -/
def messagesCall (anthropicVersion : String) (h : Headers) (body : Dict K) :
    Except Exn (Call K × Bool) := do
  let req := (stripUnsupported body (h "anthropic-beta")).1
  let stream := (Json.get req "stream").truthy
  let hasImage ← anthropicHasImage req
  let headers := upstreamContractHeaders anthropicVersion h ++ visionHeaders hasImage
  let sent := if stream then req else req.filter (fun e => decide (e.1 ≠ "stream"))
  return (⟨"/v1/messages", headers, sent⟩, stream)

/-- `body.setdefault("stream_options", {})`, with `include_usage` where it is a dictionary; what the
client says of it stays. -/
def askForUsage (body : Dict K) : Dict K :=
  let body := if Json.has body "stream_options" then body
    else Json.setItem body "stream_options" (.dict [])
  match Json.get body "stream_options" with
  | .dict options =>
      if Json.has options "include_usage" then body
      else Json.setItem body "stream_options"
        (.dict (Json.setItem options "include_usage" (.bool true)))
  | _ => body

/-- What `_passthrough` sends on, and whether the answer is streamed.  The body is the client's, but
for the question for the usage of a stream. -/
def passthroughCall (path : String) (responsesShape : Bool) (body : Dict K) :
    Except Exn (Call K × Bool) := do
  let hasImage ← hasImageContent body
  let stream := (Json.get body "stream").truthy
  let sent := if stream && ! responsesShape then askForUsage body else body
  return (⟨path, visionHeaders hasImage, sent⟩, stream)

/-- The request of `v1_messages_count_tokens`, with the same fields left out as for a message. -/
def countTokensCall (anthropicVersion : String) (h : Headers) (body : Dict K) :
    Except Exn (Call K) := do
  let body ← withMappedModel body
  return ⟨"/v1/messages/count_tokens", upstreamContractHeaders anthropicVersion h,
    (stripUnsupported body (h "anthropic-beta")).1⟩

/-! ## The estimate of a prompt (`hub/anthropic_adapter.py`) -/

/-- `len(v)`, which raises for what has no length. -/
def lengthOf : Json K → Except Exn ℕ
  | .str s => .ok s.length
  | .list xs => .ok xs.length
  | .dict fields => .ok fields.length
  | _ => AnthropicAdapter.raises .type

/-- `estimate_tokens`: a token for every four characters, and at least one for a text that is not
empty. -/
def estimateTokens (text : Json K) : Except Exn ℕ :=
  if text.truthy then (fun n => max 1 (n / 4)) <$> lengthOf text else .ok 0

/-- The estimate of a part of a message: its text, or a fixed number for an image. -/
def estimatePart : Json K → Except Exn ℕ
  | .dict part =>
      if isText (Json.get part "type") "text" then
        estimateTokens (Json.getD part "text" (.str ""))
      else .ok (if isText (Json.get part "type") "image_url" then 600 else 0)
  | _ => .ok 0

/-- The sum of what a loop adds; an item that raises ends it. -/
def total (estimate : Json K → Except Exn ℕ) (items : List (Json K)) : Except Exn ℕ := do
  return (← items.mapM estimate).sum

/-- `x.get("function", {}) or {}`, of a tool or of a call of one. -/
def functionOf (x : Json K) : Except Exn (Dict K) := do
  let x ← CopilotClient.converted x.asDict
  AnthropicAdapter.dictOrEmpty (Json.getD x "function" (.dict []))

/-- The estimate of a tool call: its name and its arguments. -/
def estimateCall (call : Json K) : Except Exn ℕ := do
  let fn ← functionOf call
  let name ← estimateTokens (Json.getD fn "name" (.str ""))
  return name + (← estimateTokens ((Json.getD fn "arguments" (.str "")).orElse (.str "")))

/-- The estimate of a message: its content, whatever its form, and its tool calls. -/
def estimateMessage (message : Json K) : Except Exn ℕ := do
  let msg ← CopilotClient.converted message.asDict
  let content ←
    (match Json.get msg "content" with
    | .str s => estimateTokens (.str s : Json K)
    | .list parts => total estimatePart parts
    | _ => .ok 0)
  let calls ← AnthropicAdapter.iterate ((Json.get msg "tool_calls").orElse (.list []))
  return content + (← total estimateCall calls)

/-- `json.dumps(v)`, of which what cannot be written counts as nothing; other exceptions are not
caught. -/
def estimateParameters (json : Server.JsonModule K) (v : Json K) : Except Exn ℕ :=
  match json.dumps false v with
  | .ok text => estimateTokens (.str (String.ofList text) : Json K)
  | .error (.failure .type) => .ok 0
  | .error (.failure .value) => .ok 0
  | .error f => .error (.fault f)

/-- The estimate of a tool: its name, its description and the text of its parameters. -/
def estimateTool (json : Server.JsonModule K) (tool : Json K) : Except Exn ℕ := do
  let fn ← functionOf tool
  let name ← estimateTokens (Json.getD fn "name" (.str ""))
  let description ← estimateTokens (Json.getD fn "description" (.str ""))
  return name + description + (← estimateParameters json (Json.getD fn "parameters" (.dict [])))

/-- `estimate_prompt_tokens`: the messages and the tools of a request. -/
def estimatePromptTokens (json : Server.JsonModule K) (body : Dict K) : Except Exn ℕ := do
  let messages ← AnthropicAdapter.iterate ((Json.get body "messages").orElse (.list []))
  let prompt ← total estimateMessage messages
  let tools ← AnthropicAdapter.iterate ((Json.get body "tools").orElse (.list []))
  return prompt + (← total (estimateTool json) tools)

/-! ## The handlers -/

/-- What the backend answers: a status, and the text of the body, with the document that it is. -/
inductive HttpReply (K : Type)
  | failed (f : Fault)
  | answered (status : ℤ) (document : Option (Json K)) (text : String)

/-- What a handler finds: the settings, the store, the libraries, and how the backend answers a
request. -/
structure Env (K : Type) where
  settings : AdminApi.Settings
  anthropicVersion : String
  db : Store.Db K
  json : Server.JsonModule K
  py : Runtime K
  tokens : CopilotClient.Tokens K
  fingerprint : String → String
  uuid : String
  sched : Scheduling
  post : Call K → HttpReply K
  /-- `JSONResponse.render`. -/
  render : Json K → Except Fault Bytes

/-- The requests that have been sent to the backend, and the records that have been given to
`eventhub.emit`. -/
structure Effects (K : Type) where
  sent : List (Call K)
  records : List (Dict K)

abbrev Handler (K : Type) := EStateM Refusal (Effects K)

/-- What a handler answers: a document, or the stream of the backend's answer. -/
inductive Answer (K : Type)
  | json (status : ℤ) (body : Json K)
  /-- The stream of the backend's answer to a request, and what its generator is made with. -/
  | stream (route : Server.Route) (call : Call K) (req : Server.Request K)

/-- Only `NotAuthenticatedError` is turned into an answer; the framework answers 500 for any other
exception. -/
def refusalOf : Exn → Refusal
  | .notAuthenticated => .http 503
      "No Copilot OAuth token configured. Log in via the web portal first."
  | _ => .raised

def orRaise {α : Type} (x : Except Exn α) : Handler K α :=
  match x with
  | .ok a => pure a
  | .error e => throw (refusalOf e)

/-- `is_authenticated`: there is a token that is not empty. -/
def isAuthenticated (t : CopilotClient.Tokens K) : Bool :=
  decide ((CopilotClient.resolveOauthToken t).getD "" ≠ "")

/-- The document of an answer that is none: its text, as the message of an error. -/
def errorDocument (text : String) : Json K :=
  .dict [("error", .dict [("message", .str text)])]

/-- `post_json`: a token is got first, and then the request is sent; an answer that is no JSON is
made into an error's document. -/
def postJson (env : Env K) (call : Call K) : Handler K (ℤ × Json K) := do
  let _ ← orRaise (CopilotClient.getApiToken env.py env.tokens)
  modify (fun s => { s with sent := s.sent ++ [call] })
  match env.post call with
  | .failed _ => throw .raised
  | .answered status document text => return (status, document.getD (errorDocument text))

/-- `_emit_usage`: the payload is archived, if the key is audited, and the record is made with the
name of the blob. -/
def emitUsage (env : Env K) (c : UsageCall K) : Handler K Unit := do
  let auditBlob ← orRaise ((Server.archive env.sched c.tenant).mapError Exn.fault)
  modify (fun s =>
    { s with records := s.records ++ [Server.usageRecord c env.sched.now auditBlob] })

/-- Who is billed for a request, and for what. -/
structure Billed (K : Type) where
  tenant : Tenant
  endUser : Option String
  model : Json K
  endpoint : String

/-- What `_emit_usage` is called with for an answer other than 200. -/
def refusedCall (b : Billed K) (status : ℤ) : UsageCall K where
  tenant := b.tenant
  endUser := b.endUser
  model := b.model
  served := .null
  endpoint := b.endpoint
  counts := ⟨.int 0, .int 0, .int 0, .int 0⟩
  streamed := false
  estimated := false
  status := status
  usage := .null
  copilotUsage := .null

/-- What `_emit_usage` is called with for an answer with 200: the counts are those of the answer,
and nothing is estimated. -/
def servedCall (b : Billed K) (data : Dict K) (counts : Counts K) : UsageCall K where
  tenant := b.tenant
  endUser := b.endUser
  model := b.model
  served := Json.get data "model"
  endpoint := b.endpoint
  counts := counts
  streamed := false
  estimated := false
  status := 200
  usage := Json.get data "usage"
  copilotUsage := (Server.extractCopilotUsage (.dict data)).getD .null

/-- `JSONResponse(data, status_code=status)`: the document is written as the response is made. -/
def jsonResponse (env : Env K) (status : ℤ) (data : Json K) : Handler K (Answer K) := do
  let _ ← orRaise ((env.render data).mapError Exn.fault)
  return .json status data

/-- The end of a request that is not streamed; `count` makes the counts out of the answer. -/
def finish (env : Env K) (b : Billed K) (count : Dict K → Except Exn (Counts K)) (status : ℤ)
    (data : Json K) : Handler K (Answer K) := do
  if status ≠ 200 then
    emitUsage env (refusedCall b status)
    jsonResponse env status data
  else
    let d ← orRaise (CopilotClient.converted data.asDict)
    let counts ← orRaise (count d)
    emitUsage env (servedCall b d counts)
    jsonResponse env 200 data

/-- `int(u.get(key, 0) or 0)`: a count that is missing is zero, and one that cannot be converted
raises. -/
def intField (py : Runtime K) (u : Dict K) (key : String) : Except Exn ℤ :=
  CopilotClient.converted (((Json.getD u key (.int 0)).orElse (.int 0)).toInt py)

/-- The counts of an answer of `/v1/messages`; the total is the sum of the two. -/
def messagesCounts (py : Runtime K) (data : Dict K) : Except Exn (Counts K) := do
  let u ← AnthropicAdapter.dictOrEmpty (Json.get data "usage")
  let i ← intField py u "input_tokens"
  let o ← intField py u "output_tokens"
  let cached ← intField py u "cache_read_input_tokens"
  return ⟨.int i, .int o, .int (i + o), .int cached⟩

/-- The counts of an answer of the other endpoints, as `_norm_usage` reads them. -/
def passthroughCounts (responsesShape : Bool) (data : Dict K) : Except Exn (Counts K) :=
  (Server.normUsage (Json.get data "usage") responsesShape).mapError Exn.fault

/-- What every endpoint does first: who asks, and with which document. -/
def callerAndBody (env : Env K) (h : Headers) (body : Option (Json K)) : Handler K (Dict K) := do
  match AdminApi.checkClientAuth env.settings env.db h with
  | .error e => throw e
  | .ok _ =>
      match body with
      | some (.dict d) => return d
      | _ => throw .raised

/-- `if not cc.is_authenticated()`: the hub refuses before anything is sent. -/
def requireLogin (env : Env K) : Handler K Unit :=
  if isAuthenticated env.tokens then pure ()
  else throw (.http 503 "Hub not logged in to Copilot")

/-- `v1_messages`.  A body that is no dictionary raises before anything is sent. -/
def v1Messages (env : Env K) (h : Headers) (body : Option (Json K)) : Handler K (Answer K) := do
  let d ← callerAndBody env h body
  requireLogin env
  let (call, stream) ← orRaise (messagesCall env.anthropicVersion h d)
  -- Neither of the two looks at the field that `messagesCall` may have removed.
  let billed : Billed K := ⟨extractTenant env.fingerprint env.uuid h,
    extractEndUser (.dict call.body), Json.get call.body "model", "messages"⟩
  if stream then
    return .stream .messages call
      ⟨billed.tenant, billed.endUser, billed.model, billed.endpoint, false, 0⟩
  else
    let (status, data) ← postJson env call
    finish env billed (messagesCounts env.py) status data

/-- `_passthrough`: the caller is checked, the request is sent on, and the answer is recorded before
it is given; a stream is recorded at its end. -/
def passthrough (env : Env K) (path endpoint : String) (responsesShape : Bool) (h : Headers)
    (body : Option (Json K)) : Handler K (Answer K) := do
  let d ← callerAndBody env h body
  let billed : Billed K := ⟨extractTenant env.fingerprint env.uuid h, extractEndUser (.dict d),
    Json.get d "model", endpoint⟩
  requireLogin env
  let (call, stream) ← orRaise (passthroughCall path responsesShape d)
  if stream then
    let estInput ← orRaise (estimatePromptTokens env.json call.body)
    return .stream (if responsesShape then .responses else .chatCompletions) call
      ⟨billed.tenant, billed.endUser, billed.model, endpoint, responsesShape, estInput⟩
  else
    let (status, data) ← postJson env call
    finish env billed (passthroughCounts responsesShape) status data

/-- The endpoints under `/v1` that ask the backend for an answer. -/
def serve (env : Env K) : Server.Route → Headers → Option (Json K) → Handler K (Answer K)
  | .chatCompletions => passthrough env "/chat/completions" "chat.completions" false
  | .responses => passthrough env "/responses" "responses" true
  | .messages => v1Messages env

end Requests
end TokenFoundry
