import TokenFoundry.Hub.Server

/-!
# Anthropic messages and OpenAI chat completions (`hub/anthropic_adapter.py`)

The translation of a streamed answer.  `stream_openai_to_anthropic` takes the events of a chat
completion as they come, and yields the events of an Anthropic stream: it opens a content block for
the text and one for each tool call, and closes them at the end.  The translation of a complete
answer, `openai_to_anthropic_response`, is called by nothing and is left out.

What `uuid4` gives is a parameter.  A client that goes away leaves a beginning of what is yielded.
-/

set_option autoImplicit false

namespace TokenFoundry
namespace AnthropicAdapter

open CopilotClient (Text Bytes Fault Exn converted)
open Server (JsonModule)

variable {K : Type} [PyFloat K]

/-- What `uuid.uuid4().hex[:24]` gives for the message, and for the block with an index. -/
structure Ids where
  message : String
  tool : ℕ → String

/-- What an operation of the language raises, as an exception of the generator. -/
def raises {α : Type} (f : Failure) : Except Exn α := .error (.fault (.failure f))

/-- `v[0]`, whose `get` is used; a character has none.  An empty list is not asked. -/
def firstDict : Json K → Except Exn (Dict K)
  | .list (x :: _) => converted x.asDict
  | .str _ => raises .attribute
  | .dict _ => .error .key
  | _ => raises .type

/-- `for x in v`: the items of a list, the keys of a dictionary, or the characters of a text;
anything else raises. -/
def iterate : Json K → Except Exn (List (Json K))
  | .list xs => .ok xs
  | .dict fields => .ok (fields.map (fun e => .str e.1))
  | .str s => .ok (s.toList.map (fun c => .str (String.singleton c)))
  | _ => raises .type

/-- `v or {}`, whose `get` is used; what is neither false nor a dictionary raises. -/
def dictOrEmpty (v : Json K) : Except Exn (Dict K) := converted (v.orElse (.dict [])).asDict

/-! ## What is made of the parts of an answer -/

/-- `_STOP_MAP`: the reasons of the one protocol in the words of the other. -/
def stopMap : List (String × String) :=
  [("stop", "end_turn"), ("length", "max_tokens"), ("tool_calls", "tool_use"),
    ("content_filter", "end_turn"), ("function_call", "tool_use")]

/-- `_STOP_MAP.get(finish_reason, "end_turn")`; what cannot be a key raises. -/
def stopReason (finishReason : Json K) : Except Exn String :=
  match finishReason with
  | .str s => .ok ((stopMap.lookup s).getD "end_turn")
  | v => if v.hashable then .ok "end_turn" else raises .type

/-- The usage of an answer, with Anthropic's names; a count that is missing is zero. -/
def usageOf (u : Dict K) : Except Exn (Dict K) := do
  let details ← dictOrEmpty (Json.get u "prompt_tokens_details")
  return [("input_tokens", Json.getD u "prompt_tokens" (.int 0)),
    ("output_tokens", Json.getD u "completion_tokens" (.int 0)),
    ("cache_read_input_tokens", Json.getD details "cached_tokens" (.int 0))]

/-- The content with which a block of text begins. -/
def textBlock (text : Json K) : Json K := .dict [("type", .str "text"), ("text", text)]

/-- The content with which the block of a tool call begins. -/
def toolBlock (id name input : Json K) : Json K :=
  .dict [("type", .str "tool_use"), ("id", id), ("name", name), ("input", input)]

/-- `tc.get("id") or f"toolu_{uuid}"`: a call without an id is given one. -/
def toolId (ids : Ids) (block : ℕ) (tc : Dict K) : Json K :=
  (Json.get tc "id").orElse (.str ("toolu_" ++ ids.tool block))

/-! ## `stream_openai_to_anthropic` -/

/-- What `_sse` is called with: the name of an event, and its document. -/
structure Sse (K : Type) where
  event : String
  data : Dict K

def eventPrefix : Text := ['e', 'v', 'e', 'n', 't', ':', ' ']

/-- `_sse`: the event as it is sent, with the document on one line. -/
def sse (json : JsonModule K) (e : Sse K) : Except Fault Bytes := do
  let data ← json.dumps false (.dict e.data)
  return Utf8.encode (eventPrefix ++ e.event.toList ++ '\n' :: Server.dataLine data ++
    Server.blankLine)

/-- `_iter_openai_sse`: the documents of a record; what is no JSON is passed over. -/
def iterOpenaiSse (json : JsonModule K) (buffer : Text) : Except Fault (List (Json K)) :=
  Server.forData json buffer [] (fun out data => .ok (out ++ [data]))

/-- The variables of the generator but the buffer, and what it has yielded. -/
structure State (K : Type) where
  textOpen : Bool
  /-- In the order of insertion. -/
  toolBlocks : List (Json K × ℕ)
  nextBlockIndex : ℕ
  finishReason : Json K
  usage : Option (Dict K)
  sent : List (Sse K)
  /-- The usage that comes with the last event. -/
  outUsage : Option (Dict K)

def State.initial : State K := ⟨false, [], 0, .null, none, [], none⟩

/-- A part of the generator. -/
abbrev Gen (K : Type) := EStateM Exn (State K)

/-- What a computation of the generator raises ends it where it stands. -/
def orRaise {α : Type} (x : Except Exn α) : Gen K α :=
  match x with
  | .ok a => pure a
  | .error e => throw e

/-- `yield _sse(event, data), None`: the document is written first, and that may raise. -/
def yieldSse (json : JsonModule K) (event : String) (data : Dict K) : Gen K Unit := do
  let _ ← orRaise ((sse json ⟨event, data⟩).mapError Exn.fault)
  modify (fun s => { s with sent := s.sent ++ [⟨event, data⟩] })

/-- The keys `v` and `w` of a dictionary are equal; numbers are compared by their values, so that
`1` and `1.0` are one key. -/
def sameKey (v w : Json K) : Bool :=
  match v, w with
  | .null, .null => true
  | .str s, .str t => decide (s = t)
  | v, w =>
      match v.number, w.number with
      | some (.inl m), some (.inl n) => decide (m = n)
      | some (.inr x), some (.inr y) => PyFloat.le x y && PyFloat.le y x
      | some (.inl n), some (.inr x) => isInt x n
      | some (.inr x), some (.inl n) => isInt x n
      | _, _ => false
where
  /-- A float has the value of an integer. -/
  isInt (x : K) (n : ℤ) : Bool :=
    match PyFloat.truncate x, (PyFloat.ofInt n : Except Failure K) with
    | .ok m, .ok y => decide (m = n) && PyFloat.le x y && PyFloat.le y x
    | _, _ => false

/-- `tool_blocks.get(key)`: the number of the block that a key has. -/
def findBlock (blocks : List (Json K × ℕ)) (key : Json K) : Option ℕ :=
  (blocks.find? (fun e => sameKey e.1 key)).map Prod.snd

/-- `tool_blocks[key] = block`: a key that is there keeps its place. -/
def setBlock (blocks : List (Json K × ℕ)) (key : Json K) (block : ℕ) : List (Json K × ℕ) :=
  if (findBlock blocks key).isSome then
    blocks.map (fun e => if sameKey e.1 key then (e.1, block) else e)
  else blocks ++ [(key, block)]

/-- The key of the text in `tool_blocks`, which is no index of a tool call. -/
def textKey : Json K := .int (-1)

/-- The event with which a block begins. -/
def blockStart (block : ℕ) (content : Json K) : Dict K :=
  [("type", .str "content_block_start"), ("index", .int block), ("content_block", content)]

/-- The event with a part of a block. -/
def blockDelta (block : ℕ) (delta : Dict K) : Dict K :=
  [("type", .str "content_block_delta"), ("index", .int block), ("delta", .dict delta)]

/-- The event with which a block ends. -/
def blockStop (block : ℕ) : Dict K :=
  [("type", .str "content_block_stop"), ("index", .int block)]

/-- A part of a text. -/
def textDelta (text : String) : Dict K := [("type", .str "text_delta"), ("text", .str text)]

/-- A part of the arguments of a tool call, which is a piece of a JSON text. -/
def inputJsonDelta (args : Json K) : Dict K :=
  [("type", .str "input_json_delta"), ("partial_json", args)]

/-- The event with which the message begins; it is sent before anything has been received. -/
def messageStart (ids : Ids) (model : String) : Dict K :=
  [("type", .str "message_start"), ("message", .dict
    [("id", .str ("msg_" ++ ids.message)), ("type", .str "message"), ("role", .str "assistant"),
      ("model", .str model), ("content", .list []), ("stop_reason", .null),
      ("stop_sequence", .null),
      ("usage", .dict [("input_tokens", .int 0), ("output_tokens", .int 0)])])]

/-- The event with the reason for the end and the tokens of the answer. -/
def messageDelta (stop : String) (output : Json K) : Dict K :=
  [("type", .str "message_delta"),
    ("delta", .dict [("stop_reason", .str stop), ("stop_sequence", .null)]),
    ("usage", .dict [("output_tokens", output)])]

/-- The event with which the message ends. -/
def messageStop : Dict K := [("type", .str "message_stop")]

/-- A text delta that is not empty: the block of the text is begun, if it is not open, and the piece
is sent. -/
def onText (json : JsonModule K) (piece : String) : Gen K Unit := do
  let s ← get
  if ! s.textOpen then
    let block := s.nextBlockIndex
    set { s with
      textOpen := true
      nextBlockIndex := if s.nextBlockIndex = 0 then 1 else s.nextBlockIndex + 1
      toolBlocks := setBlock s.toolBlocks textKey block }
    yieldSse json "content_block_start" (blockStart block (textBlock (.str "")))
  match findBlock (← get).toolBlocks textKey with
  | none => throw .key
  | some block => yieldSse json "content_block_delta" (blockDelta block (textDelta piece))

/-- The block of a tool call, which is opened if there is none. -/
def openTool (ids : Ids) (json : JsonModule K) (tc : Dict K) (fn : Json K) : Gen K ℕ := do
  let s ← get
  let index := Json.getD tc "index" (.int 0)
  if ! index.hashable then throw (.fault (.failure .type))
  match findBlock s.toolBlocks index with
  | some block => pure block
  | none =>
      let block := s.nextBlockIndex
      set { s with
        nextBlockIndex := block + 1
        toolBlocks := setBlock s.toolBlocks index block }
      let fn ← orRaise (converted fn.asDict)
      let name := Json.getD fn "name" (.str "")
      yieldSse json "content_block_start"
        (blockStart block (toolBlock (toolId ids block tc) name (.dict [])))
      pure block

/-- `tc.get("function", {}) or {}`, of which the name and the arguments are read. -/
def functionOf (tc : Dict K) : Json K := (Json.getD tc "function" (.dict [])).orElse (.dict [])

/-- The arguments of a tool call, if there are any, as a part of its block. -/
def sendArguments (json : JsonModule K) (fn : Json K) (block : ℕ) : Gen K Unit := do
  let args := Json.get (← orRaise (converted fn.asDict)) "arguments"
  if args.truthy then
    yieldSse json "content_block_delta" (blockDelta block (inputJsonDelta args))

/-- The body of the loop over `delta.tool_calls`: the block of the call is found or begun, and the
arguments are sent. -/
def onToolCall (ids : Ids) (json : JsonModule K) (call : Json K) : Gen K Unit := do
  let tc ← orRaise (converted call.asDict)
  let block ← openTool ids json tc (functionOf tc)
  sendArguments json (functionOf tc) block

/-- `delta.get("content")`, if it is a text; anything else is no text delta. -/
def onContent (json : JsonModule K) : Json K → Gen K Unit
  | .str piece => if piece ≠ "" then onText json piece else pure ()
  | _ => pure ()

/-- The delta of a choice: its text, and then its tool calls one by one. -/
def onDelta (ids : Ids) (json : JsonModule K) (delta : Dict K) : Gen K Unit := do
  onContent json (Json.get delta "content")
  let calls ← orRaise (iterate ((Json.get delta "tool_calls").orElse (.list [])))
  calls.forM (onToolCall ids json)

/-- `if data.get("usage")`: the last usage that is not empty is the one that counts. -/
def onUsage (u : Json K) : Gen K Unit :=
  if u.truthy then do
    let usage ← orRaise (do usageOf (← converted u.asDict))
    modify (fun s => { s with usage := some usage })
  else pure ()

/-- `if choice.get("finish_reason")`: the last reason that is given is the one that counts. -/
def onFinish (finish : Json K) : Gen K Unit :=
  if finish.truthy then modify (fun s => { s with finishReason := finish }) else pure ()

/-- The first choice, if there is one; the others are not looked at. -/
def onChoices (ids : Ids) (json : JsonModule K) (choices : Json K) : Gen K Unit :=
  if choices.truthy then do
    let choice ← orRaise (firstDict choices)
    let delta ← orRaise (dictOrEmpty (Json.getD choice "delta" (.dict [])))
    onFinish (Json.get choice "finish_reason")
    onDelta ids json delta
  else pure ()

/-- The body of the loop over the documents of a record. -/
def onData (ids : Ids) (json : JsonModule K) (data : Json K) : Gen K Unit := do
  let data ← orRaise (converted data.asDict)
  onUsage (Json.get data "usage")
  onChoices ids json ((Json.get data "choices").orElse (.list []))

/-- The body of the loop over the records: the documents of a record are taken one by one. -/
def onRecord (ids : Ids) (json : JsonModule K) (record : Text) : Gen K Unit := do
  let docs ← orRaise ((iterOpenaiSse json record).mapError Exn.fault)
  docs.forM (onData ids json)

/-- `while "\n\n" in buffer`, which each round makes shorter; the buffer that is left. -/
def takeRecords (ids : Ids) (json : JsonModule K) : ℕ → Text → Gen K Text
  | 0, buffer => pure buffer
  | n + 1, buffer =>
      match Splitting.findSep Server.blankLine buffer with
      | none => pure buffer
      | some (record, rest) => do
          onRecord ids json record
          takeRecords ids json n rest

/-- The body of the loop over the chunks: a chunk is decoded by itself, and the records that are
complete are taken off the buffer. -/
def onChunk (ids : Ids) (json : JsonModule K) (buffer : Text) (chunk : Bytes) : Gen K Text :=
  let buffer := buffer ++ Utf8.decode chunk
  takeRecords ids json buffer.length buffer

/-- `k >= 0`, which raises for a key that is no number. -/
def nonNegative (key : Json K) : Except Exn Bool :=
  match key.number with
  | some (.inl n) => .ok (decide (0 ≤ n))
  | some (.inr x) => .ok (PyFloat.le (PyFloat.lit 0) x)
  | none => raises .type

/-- The blocks of the tool calls, sorted by their indexes; a key that cannot be compared raises. -/
def toolIndexes (blocks : List (Json K × ℕ)) : Except Exn (List ℕ) := do
  let kept ← blocks.mapM (fun e => do return (e.2, ← nonNegative e.1))
  return ((kept.filter Prod.snd).map Prod.fst).mergeSort (fun a b => decide (a ≤ b))

/-- `Close any open blocks.`: the text first, and then the tool calls by their indexes. -/
def closeBlocks (json : JsonModule K) : Gen K Unit := do
  let s ← get
  if s.textOpen then
    match findBlock s.toolBlocks textKey with
    | none => throw .key
    | some block => yieldSse json "content_block_stop" (blockStop block)
  let blocks ← orRaise (toolIndexes s.toolBlocks)
  blocks.forM (fun block => yieldSse json "content_block_stop" (blockStop block))

/-- `usage or {...}`: the usage that is reported, with zeros where upstream has sent none. -/
def outUsage (usage : Option (Dict K)) : Dict K :=
  usage.getD [("input_tokens", .int 0), ("output_tokens", .int 0)]

/-- The end of the message: the reason, the tokens, and the last event. -/
def endMessage (json : JsonModule K) : Gen K Unit := do
  let s ← get
  let out := outUsage s.usage
  let stop ← orRaise (stopReason s.finishReason)
  yieldSse json "message_delta" (messageDelta stop (Json.getD out "output_tokens" (.int 0)))
  yieldSse json "message_stop" messageStop
  modify (fun s => { s with outUsage := some out })

/-- `async for chunk in source`; the source may end with an exception. -/
def forSource (ids : Ids) (json : JsonModule K) (chunks : List Bytes) (broken : Option Exn) :
    Gen K Unit := do
  let _ ← chunks.foldlM (onChunk ids json) []
  match broken with
  | none => pure ()
  | some e => throw e

/-- `stream_openai_to_anthropic`: the beginning of the message, the records of the source, the ends
of the blocks, and the end of the message. -/
def streamOpenaiToAnthropic (ids : Ids) (json : JsonModule K) (model : String)
    (chunks : List Bytes) (broken : Option Exn) : Gen K Unit := do
  yieldSse json "message_start" (messageStart ids model)
  forSource ids json chunks broken
  closeBlocks json
  endMessage json

end AnthropicAdapter
end TokenFoundry
