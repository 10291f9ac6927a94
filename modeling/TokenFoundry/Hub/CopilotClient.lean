import TokenFoundry.Framework.PyValues
import TokenFoundry.Framework.Utf8

/-!
# The client of the Copilot backend (`hub/copilot_client.py`)

`stream` asks for a short-lived token where none is cached, sends the request, and passes the bytes
of the answer on.  An answer with another status than 200 is read to its end and raised.

What the token service and the backend answer is a parameter, `Upstream`; so is every exception of
the libraries.  The headers and the address of the request are left out.
-/

set_option autoImplicit false

namespace TokenFoundry
namespace CopilotClient

/-- A text, as its characters. -/
abbrev Text := List Char

abbrev Bytes := List UInt8

/-- What the libraries raise, as far as the code distinguishes it. -/
inductive Fault
  /-- `httpx.HTTPError`. -/
  | transport
  /-- `asyncio.CancelledError`. -/
  | cancelled
  /-- `RecursionError`. -/
  | recursion
  | failure (f : Failure)
  deriving DecidableEq

/-- The exceptions of a streaming request. -/
inductive Exn
  /-- `NotAuthenticatedError`. -/
  | notAuthenticated
  /-- `UpstreamStatusError`. -/
  | upstreamStatus (status : ℤ) (body : Text)
  /-- `RuntimeError`: the exchange is refused. -/
  | exchangeRefused (status : ℤ)
  /-- `KeyError`. -/
  | key
  /-- `GeneratorExit`: the client has gone. -/
  | generatorExit
  | fault (f : Fault)
  deriving DecidableEq

section Tokens

variable {K : Type} [PyFloat K]

/-- An entry of `_api_token_mem`: a token with the address it is for and its end. -/
structure ApiToken (K : Type) where
  token : Json K
  endpoint : Json K
  expiresAt : K

/-- The answer of the token service; the body is what `r.json()` gives. -/
inductive Reply (K : Type)
  | failed (f : Fault)
  | answered (status : ℤ) (body : Except Fault (Json K))

/-- The tokens of the hub, in memory, in the store and in the environment, and what the exchange
would answer. -/
structure Tokens (K : Type) where
  /-- What `_api_token_mem` holds, if it does not expire in the next five minutes. -/
  cached : Option (ApiToken K)
  /-- `store.get_oauth_token()`. -/
  stored : Option String
  /-- `get_settings().copilot_oauth_token`. -/
  configured : Option String
  reply : Reply K

/-- `_resolve_oauth_token`: the token of the store, or the one of the environment. -/
def resolveOauthToken (t : Tokens K) : Option String :=
  match t.stored with
  | some token => if token ≠ "" then some token else t.configured
  | none => t.configured

/-- `get_oauth_token`, which raises where there is no token or an empty one. -/
def getOauthToken (t : Tokens K) : Except Exn String :=
  match resolveOauthToken t with
  | some token => if token ≠ "" then .ok token else .error .notAuthenticated
  | none => .error .notAuthenticated

/-- The address that is used where the exchange names none. -/
def copilotApiBase : String := "https://api.githubcopilot.com"

/-- `d[key]`, which raises for a key that is missing. -/
def item (d : Dict K) (key : String) : Except Exn (Json K) :=
  match d.lookup key with
  | some v => .ok v
  | none => .error .key

/-- What a conversion raises, as an exception of the request. -/
def converted {α : Type} (x : Except Failure α) : Except Exn α :=
  x.mapError (fun f => .fault (.failure f))

/-- `_exchange_for_api_token`: the token of the user is exchanged for one of the API, whose fields
are read. -/
def exchangeForApiToken (py : Runtime K) (t : Tokens K) : Except Exn (ApiToken K) := do
  let _ ← getOauthToken t
  match t.reply with
  | .failed f => throw (.fault f)
  | .answered status body =>
      if status ≠ 200 then throw (.exchangeRefused status)
      let data ← converted (← body.mapError Exn.fault).asDict
      let endpoints ← converted (Json.getD data "endpoints" (.dict [])).asDict
      let endpoint := Json.getD endpoints "api" (.str copilotApiBase)
      let token ← item data "token"
      let expiresAt ← converted ((← item data "expires_at").toFloat py)
      return ⟨token, endpoint, expiresAt⟩

/-- `get_api_token`: the token in memory, or else an exchange. -/
def getApiToken (py : Runtime K) (t : Tokens K) : Except Exn (ApiToken K) :=
  match t.cached with
  | some token => .ok token
  | none => exchangeForApiToken py t

/-! ## `stream` -/

/-- The answer to the request: none, or a status, the chunks of the body, and what breaks it off. -/
inductive Answer
  | failed (f : Fault)
  | answered (status : ℤ) (chunks : List Bytes) (broken : Option Fault)

/-- What a streaming request finds: the tokens, and how the backend answers it. -/
structure Upstream (K : Type) where
  tokens : Tokens K
  answer : Answer

/-- `stream`: the chunks it yields, and what it raises after them. -/
def stream (py : Runtime K) (u : Upstream K) : List Bytes × Option Exn :=
  match getApiToken py u.tokens with
  | .error e => ([], some e)
  | .ok _ =>
      match u.answer with
      | .failed f => ([], some (.fault f))
      | .answered status chunks broken =>
          if status ≠ 200 then
            match broken with
            | some f => ([], some (.fault f))
            | none => ([], some (.upstreamStatus status (Utf8.decode chunks.flatten)))
          else (chunks, broken.map Exn.fault)

/-- The status with which the backend answers, if the request reaches it. -/
def Upstream.status (py : Runtime K) (u : Upstream K) : Option ℤ :=
  match getApiToken py u.tokens, u.answer with
  | .ok _, .answered status _ _ => some status
  | _, _ => none

end Tokens

end CopilotClient
end TokenFoundry
