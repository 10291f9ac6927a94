import TokenFoundry.Framework.Interleaving
import TokenFoundry.Hub.Server

/-!
# The tokens of a hub (`hub/copilot_client.py`, `hub/store.py`)

A hub keeps two things: the GitHub token in its store, and in memory the API token that it has been
exchanged for.  `device_flow_poll`, `logout`, `get_api_token` and `install_oauth_token` change them.
The last two take the lock of the module; the others do not.

The module is cooperative code, as `hub/eventhub.py` is.  Here one call of a program is an await, if
there is one, and the stretch of code after it up to the next await.  An await that waits for the
lock ends when the lock is free.  What GitHub answers and what the clock says are parameters.
-/

set_option autoImplicit false

namespace TokenFoundry
namespace TokenStore

open CopilotClient (ApiToken Exn Reply converted exchangeForApiToken)

variable {K : Type} [PyFloat K]

/-! ## What is kept -/

/-- The row `oauth_token` of the store, and `_api_token_mem`: the two places that an installation
writes. -/
structure Cells (K : Type) where
  stored : Option String
  cached : Option (ApiToken K)

/-- `logout`: both places are emptied. -/
def logout : Cells K := ⟨none, none⟩

/-- The cached token, if `expires_at - 300 > time.time()`, for which `live` stands. -/
def Cells.live (live : K → Bool) (cells : Cells K) : Option (ApiToken K) :=
  cells.cached.filter (fun t => live t.expiresAt)

/-- What the column of the store makes of a value; `number` is how it writes a number. -/
def columnText (number : Json K → Option String) : Json K → Option String
  | .str s => some s
  | .null => none
  | .list _ => none
  | .dict _ => none
  | v => number v

/-! ## The device flow -/

/-- What `device_flow_poll` returns. -/
inductive PollResult (K : Type)
  | success
  | pending (error : Json K)
  | error (error detail : Json K)

/-- `device_flow_poll` from the answer on: the result, and the token that is stored. -/
def polled (number : Json K → Option String) :
    Reply K → Except Exn (PollResult K × Option String)
  | .failed f => .error (.fault f)
  | .answered _ body => do
      let data ← converted (← body.mapError Exn.fault).asDict
      match data.lookup "access_token" with
      | some token =>
          match columnText number token with
          | some stored => return (.success, some stored)
          | none => throw (.fault (.failure .type))
      | none =>
          match Json.get data "error" with
          | .str "authorization_pending" => return (.pending (.str "authorization_pending"), none)
          | .str "slow_down" => return (.pending (.str "slow_down"), none)
          | err => return (.error (err.orElse (.str "unknown")) (.dict data), none)

/-! ## The calls -/

/-- The points at which another request may run; between them, nobody else does. -/
inductive Call (K : Type)
  | logout
  /-- The request of `device_flow_poll`, and what follows. -/
  | grant (deviceCode : String)
  /-- The first look of `get_api_token` at the cache. -/
  | peek
  /-- `get_api_token` has got the lock: the second look, and the token to exchange. -/
  | enter
  /-- The exchange of `get_api_token`, and what follows up to the release of the lock. -/
  | exchange (oauth : String)
  /-- `install_oauth_token` has got the lock: what was kept is saved and replaced. -/
  | begin (token : String)
  /-- The exchange of `install_oauth_token`, and what follows up to the release of the lock. -/
  | finish (token : String) (previous : Cells K)

@[reducible] def Call.Answer : Call K → Type
  | .logout => Unit
  | .grant _ => PollResult K
  | .peek => Option (ApiToken K)
  | .enter => ApiToken K ⊕ String
  | .exchange _ => ApiToken K
  | .begin _ => Cells K
  | .finish _ _ => ApiToken K

abbrev tokensApi (K : Type) : Interface Exn := ⟨Call K, Call.Answer⟩

abbrev Task (K α : Type) := Prog.Raising (tokensApi K) α

omit [PyFloat K] in
def ask (o : Call K) : Task K o.Answer := @Prog.ask _ (tokensApi K) o

omit [PyFloat K] in
/-- `device_flow_poll`: one request, after which the token is stored without another await. -/
def deviceFlowPoll (deviceCode : String) : Task K (PollResult K) := ask (.grant deviceCode)

omit [PyFloat K] in
/-- `get_api_token`: a look at the cache, the lock, another look, and the exchange. -/
def getApiToken : Task K (ApiToken K) := do
  match ← ask .peek with
  | some t => return t
  | none =>
      match ← ask .enter with
      | .inl t => return t
      | .inr oauth => ask (.exchange oauth)

omit [PyFloat K] in
/-- `install_oauth_token`: the token is stored and exchanged under the lock; what was there before
is kept for the case that the exchange fails. -/
def installOauthToken (token : String) : Task K (ApiToken K) := do
  let token := String.ofList (Server.strip token.toList)
  if token = "" then throw (.fault (.failure .value))
  else
    let previous ← ask (.begin token)
    ask (.finish token previous)

/-! ## The exchanges -/

/-- `_exchange_for_api_token` with a token that has been resolved, as a function of what it is
answered. -/
def exchanged (py : Runtime K) (oauth : String) (reply : Reply K) : Except Exn (ApiToken K) :=
  exchangeForApiToken py ⟨none, some oauth, none, reply⟩

/-- The end of `install_oauth_token`: a new token is cached, and an `Exception` restores what was
saved.  A cancellation is no `Exception`. -/
def installed (previous cells : Cells K) : Except Exn (ApiToken K) → Cells K
  | .ok t => { cells with cached := some t }
  | .error (.fault .cancelled) => cells
  | .error _ => previous

end TokenStore
end TokenFoundry
