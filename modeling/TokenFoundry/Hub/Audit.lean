import TokenFoundry.Framework.JsonText
import TokenFoundry.Framework.Utf8

/-!
# The audit archive of a hub (`hub/audit.py`)

`build_payload` writes one exchange as a JSON record, cuts the two bodies if the record is longer
than its cap, and compresses it.  How it is compressed is a parameter.  A text here has no lone
surrogates, for which no record is written.
-/

set_option autoImplicit false

namespace TokenFoundry
namespace Audit

open JsonText (FloatText)

abbrev Text := List Char

abbrev Bytes := List UInt8

/-- What is archived beside the bodies: whose request it was, when, and what became of it. -/
structure Envelope (K : Type) where
  requestId : String
  /-- `ts.isoformat()`. -/
  ts : String
  subscription : Option String
  apiId : Option String
  endUser : Option String
  model : Json K
  endpoint : String
  streamed : Bool
  status : ℤ

/-- A body.  An object that `json` cannot write is given by its `str`, which `default=str` writes in
its place; inside of a value it stands as a text. -/
inductive Body (K : Type)
  | value (v : Json K)
  | object (text : String)

section Functions

variable {K : Type} (ft : FloatText K)

/-- What is written for a body; an object of Python is written as a text. -/
def Body.json : Body K → Json K
  | .value v => v
  | .object text => .str text

/-- A text that may be missing, as it is written. -/
def optional : Option String → Json K
  | some s => .str s
  | none => .null

/-- `doc`: the envelope and the two bodies, with the mark of whether they were cut. -/
def document (env : Envelope K) (request response : Json K) (truncated : Bool) : Dict K :=
  [("request_id", .str env.requestId), ("ts", .str env.ts),
    ("subscription", optional env.subscription), ("api_id", optional env.apiId),
    ("end_user", optional env.endUser), ("model", env.model), ("endpoint", .str env.endpoint),
    ("streamed", .bool env.streamed), ("status", .int env.status), ("request", request),
    ("response", response), ("truncated", .bool truncated)]

/-- `json.dumps(doc, default=str, ensure_ascii=False).encode("utf-8")`, the bytes whose number is
compared with the cap. -/
def serialize (doc : Dict K) : Bytes :=
  Utf8.encode (JsonText.dumps ft ⟨false, false⟩ (.dict doc))

/-- A body as a text: a text is itself, and anything else is written as JSON. -/
def render : Body K → Text
  | .value (.str s) => s.toList
  | body => JsonText.dumps ft ⟨false, true⟩ body.json

/-- `…[truncated n chars]`, the mark of a cut, which says how much is missing. -/
def marker (n : ℕ) : Text :=
  ['…', '[', 't', 'r', 'u', 'n', 'c', 'a', 't', 'e', 'd', ' '] ++ Nat.toDigits 10 n ++
    [' ', 'c', 'h', 'a', 'r', 's', ']']

/-- `_clip`: a text that is too long is cut after so many characters, and the mark is put behind
it. -/
def clip (body : Body K) (limit : ℕ) : Text :=
  let text := render ft body
  if text.length ≤ limit then text else text.take limit ++ marker (text.length - limit)

/-- Half of the budget, in characters; it is never less than 1024, whatever the cap. -/
def half (maxBytes : ℤ) : ℕ := (max 1024 (maxBytes / 2)).toNat

/-- The record that `build_payload` compresses: the whole one if it is small enough, and one with
two clipped bodies otherwise. -/
def record (env : Envelope K) (request response : Body K) (maxBytes : ℤ) : Bytes :=
  let raw := serialize ft (document env request.json response.json false)
  if maxBytes < raw.length then
    serialize ft (document env (.str (String.ofList (clip ft request (half maxBytes))))
      (.str (String.ofList (clip ft response (half maxBytes)))) true)
  else raw

/-- `build_payload`: the record, compressed; the cap is on the record before that. -/
def buildPayload (compress : Bytes → Bytes) (env : Envelope K) (request response : Body K)
    (maxBytes : ℤ) : Bytes := compress (record ft env request response maxBytes)

end Functions

end Audit
end TokenFoundry
