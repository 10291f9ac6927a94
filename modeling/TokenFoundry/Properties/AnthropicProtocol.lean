import TokenFoundry.Framework.Blocks
import TokenFoundry.Hub.AnthropicAdapter

/-!
# The two ends of a translated stream

A client of `/v1/messages` follows a protocol (`Message.receive`): a message is started, its blocks
are numbered in the order in which they are started, a part names a block that is open and of its
kind, and the message ends when all blocks have been stopped.

The backend sends documents with deltas.  A text delta is an item under the key -1, and a tool call
one under its index; the message of the documents has one block for each key (`message`).
-/

set_option autoImplicit false

namespace TokenFoundry
namespace AnthropicAdapter

open CopilotClient (Text Bytes Fault Exn converted)
open Server (JsonModule)

variable {K : Type} [PyFloat K]

/-! ## The client -/

/-- What a content block begins with: a text, or the name of a tool with the id of the call. -/
inductive Head (K : Type)
  | text
  | tool (id name : Json K)

/-- What a delta adds to a block: a piece of the text, or of the arguments. -/
inductive Part (K : Type)
  | text (t : String)
  | json (v : Json K)

omit [PyFloat K] in
def fits : Head K → Part K → Bool
  | .text, .text _ => true
  | .tool _ _, .json _ => true
  | _, _ => false

abbrev Event (K : Type) := Blocks.Event (Head K) (Part K)

/-- The dictionary of a key, if that is what the key has. -/
def dictAt (d : Dict K) (key : String) : Option (Dict K) :=
  match Json.get d key with
  | .dict v => some v
  | _ => none

def readHead (content : Dict K) : Option (Head K) :=
  if Server.isText (Json.get content "type") "text" then some .text
  else if Server.isText (Json.get content "type") "tool_use" then
    some (.tool (Json.get content "id") (Json.get content "name"))
  else none

def readPart (delta : Dict K) : Option (Part K) :=
  if Server.isText (Json.get delta "type") "text_delta" then
    match Json.get delta "text" with
    | .str t => some (.text t)
    | _ => none
  else if Server.isText (Json.get delta "type") "input_json_delta" then
    some (.json (Json.get delta "partial_json"))
  else none

def readIndex (d : Dict K) : Option ℕ :=
  match Json.get d "index" with
  | .int (.ofNat i) => some i
  | _ => none

/-- What an event says about a block: that it begins, that it goes on, or that it ends. -/
def readEvent (e : Sse K) : Option (Event K) := do
  let i ← readIndex e.data
  if e.event = "content_block_start" then
    return .start i (← readHead (← dictAt e.data "content_block"))
  else if e.event = "content_block_delta" then
    return .part i (← readPart (← dictAt e.data "delta"))
  else if e.event = "content_block_stop" then return .stop i
  else none

inductive Phase
  | before
  | during
  | closing
  | over
  deriving DecidableEq

/-- A message as the client has it, with the blocks that it has been sent so far. -/
structure Message (K : Type) where
  phase : Phase
  /-- What `message_start` says. -/
  start : Dict K
  blocks : List (Blocks.Block (Head K) (Part K))
  stopReason : Json K
  outputTokens : Json K

def Message.initial : Message K := ⟨.before, [], [], .null, .null⟩

/-- The client's step, by the protocol: the message is started once, its blocks come and are
stopped, and its end is announced; anything else is refused. -/
def Message.receive (m : Message K) (e : Sse K) : Option (Message K) :=
  match m.phase with
  | .before =>
      if e.event = "message_start" then
        (dictAt e.data "message").map (fun start => { m with phase := .during, start := start })
      else none
  | .during =>
      if e.event = "message_delta" then
        if m.blocks.all (fun b => ! b.isOpen) then do
          let delta ← dictAt e.data "delta"
          let usage ← dictAt e.data "usage"
          return { m with
            phase := .closing
            stopReason := Json.get delta "stop_reason"
            outputTokens := Json.get usage "output_tokens" }
        else none
      else do
        let blocks ← Blocks.receive fits m.blocks (← readEvent e)
        return { m with blocks := blocks }
  | .closing => if e.event = "message_stop" then some { m with phase := .over } else none
  | .over => none

def readMessage (es : List (Sse K)) : Option (Message K) := es.foldlM Message.receive .initial

/-! ## What the deltas add up to -/

/-- The entries of a dictionary; anything else has none. -/
def dictOf : Json K → Dict K
  | .dict d => d
  | _ => []

abbrev Item (K : Type) := Blocks.Item ℤ (Head K) (Part K)

def textItem (t : String) : Item K := ⟨-1, fun _ => .text, [.text t]⟩

/-- The index of a tool call, if it is an integer. -/
def callIndex (call : Dict K) : ℤ :=
  match Json.getD call "index" (.int 0) with
  | .int n => n
  | _ => 0

def callItem (ids : Ids) (call : Dict K) : Item K where
  key := callIndex call
  head i := .tool (toolId ids i call) (Json.getD (dictOf (functionOf call)) "name" (.str ""))
  parts :=
    let args := Json.get (dictOf (functionOf call)) "arguments"
    if args.truthy then [.json args] else []

def textItems (delta : Dict K) : List (Item K) :=
  match Json.get delta "content" with
  | .str t => if t ≠ "" then [textItem t] else []
  | _ => []

def callsOf (delta : Dict K) : List (Json K) :=
  match iterate ((Json.get delta "tool_calls").orElse (.list [])) with
  | .ok calls => calls
  | .error _ => []

def deltaItems (ids : Ids) (delta : Dict K) : List (Item K) :=
  textItems delta ++ (callsOf delta).map (fun call => callItem ids (dictOf call))

/-- The first choice of a document, if it has one that is a dictionary. -/
def choiceOf (data : Dict K) : Option (Dict K) :=
  match Json.get data "choices" with
  | .list (.dict choice :: _) => some choice
  | _ => none

def deltaOf (choice : Dict K) : Json K := (Json.getD choice "delta" (.dict [])).orElse (.dict [])

def itemsOf (ids : Ids) (data : Dict K) : List (Item K) :=
  match choiceOf data with
  | some choice => deltaItems ids (dictOf (deltaOf choice))
  | none => []

def items (ids : Ids) (docs : List (Dict K)) : List (Item K) := docs.flatMap (itemsOf ids)

def nextFinish (finish : Json K) (data : Dict K) : Json K :=
  match choiceOf data with
  | some choice => (Json.get choice "finish_reason").orElse finish
  | none => finish

/-- The last finish reason of the documents, or none. -/
def finishOf (docs : List (Dict K)) : Json K := docs.foldl nextFinish .null

/-- The last usage of the documents that is not empty, in Anthropic's names. -/
def lastUsage (docs : List (Dict K)) : Option (Dict K) :=
  docs.foldl (fun usage data =>
    if (Json.get data "usage").truthy then (usageOf (dictOf (Json.get data "usage"))).toOption
    else usage) none

/-! ## The upstream -/

def IsDict (v : Json K) : Prop := ∃ d, v = .dict d

/-- The index of a tool call is its position, if there is one. -/
def Positioned (call : Dict K) : Prop := ∃ n : ℕ, Json.getD call "index" (.int 0) = .int n

/-- A document without negative indexes: the key of the text is one, so that a tool call with it
would take the place of the text. -/
def Indexed (data : Dict K) : Prop :=
  ∀ choice, choiceOf data = some choice →
    ∀ call, .dict call ∈ callsOf (dictOf (deltaOf choice)) → Positioned call

/-- A tool call of the form that OpenAI documents: a dictionary, with a function that is one. -/
def ShapedCall (call : Json K) : Prop := ∃ tc, call = .dict tc ∧ IsDict (functionOf tc)

/-- A choice of the form that OpenAI documents: its delta, the calls in it, and the reason for its
end. -/
structure ShapedChoice (choice : Dict K) : Prop where
  delta : IsDict (deltaOf choice)
  calls : ∃ calls, (Json.get (dictOf (deltaOf choice)) "tool_calls").orElse (.list []) = .list calls
  call : ∀ call ∈ callsOf (dictOf (deltaOf choice)), ShapedCall call
  finish : (Json.get choice "finish_reason").hashable = true

def ShapedUsage (u : Json K) : Prop :=
  u.truthy = true → ∃ d, u = .dict d ∧
    IsDict ((Json.get d "prompt_tokens_details").orElse (.dict []))

/-- A document of the form that OpenAI documents.  What is not of this form ends the generator. -/
structure Shaped (data : Dict K) : Prop where
  usage : ShapedUsage (Json.get data "usage")
  choices : (Json.get data "choices").truthy = true →
    ∃ choice, choiceOf data = some choice ∧ ShapedChoice choice

/-! ## The client reads what the blocks are sent as -/

def headContent : Head K → Json K
  | .text => textBlock (.str "")
  | .tool id name => toolBlock id name (.dict [])

def partDelta : Part K → Dict K
  | .text t => textDelta t
  | .json v => inputJsonDelta v

/-- The event for a block, as the generator sends it. -/
def sseOf : Event K → Sse K
  | .start i head => ⟨"content_block_start", blockStart i (headContent head)⟩
  | .part i d => ⟨"content_block_delta", blockDelta i (partDelta d)⟩
  | .stop i => ⟨"content_block_stop", blockStop i⟩

omit [PyFloat K] in
lemma readEvent_sseOf (e : Event K) : readEvent (sseOf e) = some e := by
  cases e with
  | start i head => cases head <;> rfl
  | part i d => cases d <;> rfl
  | stop i => rfl

/-- A message that has been started and has these blocks. -/
def started (ids : Ids) (model : String) (blocks : List (Blocks.Block (Head K) (Part K))) :
    Message K where
  phase := .during
  start := match messageStart ids model with
    | [_, (_, .dict start)] => start
    | _ => []
  blocks := blocks
  stopReason := .null
  outputTokens := .null

def startEvent (ids : Ids) (model : String) : Sse K := ⟨"message_start", messageStart ids model⟩

omit [PyFloat K] in
lemma receive_start (ids : Ids) (model : String) :
    Message.receive .initial (startEvent (K := K) ids model) = some (started ids model []) := rfl

omit [PyFloat K] in
lemma receive_block (ids : Ids) (model : String) (blocks : List (Blocks.Block (Head K) (Part K)))
    (e : Event K) : Message.receive (started ids model blocks) (sseOf e) =
      (Blocks.receive fits blocks e).map (started ids model) := by
  have hname : (sseOf e).event ≠ "message_delta" := by
    cases e <;> simp [sseOf]
  simp only [Message.receive, started, if_neg hname, readEvent_sseOf]
  cases hreceive : Blocks.receive fits blocks e <;> simp [hreceive, started]

omit [PyFloat K] in
/-- The client has the blocks that it is sent: it reads the events as what they were made of. -/
lemma receive_blocks (ids : Ids) (model : String) (blocks : List (Blocks.Block (Head K) (Part K)))
    (es : List (Event K)) : (es.map sseOf).foldlM Message.receive (started ids model blocks) =
      (Blocks.receiveAll fits blocks es).map (started ids model) := by
  induction es generalizing blocks with
  | nil => rfl
  | cons e es ih =>
      rw [List.map_cons, List.foldlM_cons, receive_block, Blocks.receiveAll, List.foldlM_cons]
      cases hreceive : Blocks.receive fits blocks e with
      | none => rfl
      | some blocks' => exact ih blocks'

omit [PyFloat K] in
lemma readMessage_blocks (ids : Ids) (model : String) (es : List (Event K)) :
    readMessage (startEvent ids model :: es.map sseOf) =
      (Blocks.replay fits es).map (started ids model) := by
  rw [readMessage, List.foldlM_cons, receive_start]
  exact receive_blocks ids model [] es

/-- The name of the stop reason, for a reason that can be a key. -/
def stopText : Json K → String
  | .str s => (stopMap.lookup s).getD "end_turn"
  | _ => "end_turn"

/-- The message that the documents add up to: the text deltas make up one block, and each tool call
another, in the order in which they begin. -/
def message (ids : Ids) (model : String) (docs : List (Dict K)) : Message K :=
  { started ids model (Blocks.grouped (items ids docs)) with
    phase := .over
    stopReason := .str (stopText (finishOf docs))
    outputTokens := Json.getD (outUsage (lastUsage docs)) "output_tokens" (.int 0) }

end AnthropicAdapter
end TokenFoundry
