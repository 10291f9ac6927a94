import TokenFoundry.Api.GithubAccounts
import TokenFoundry.Framework.PyValues

/-!
# Re-login (`app/api/github_accounts.py`, `app/services/copilot_device.py`)

A second device flow replaces the Copilot token of an account that has been deployed.  The answers
of GitHub are JSON of any shape, and so is the token; a login or a device code that is no text is
kept as its text.
-/

set_option autoImplicit false

namespace TokenFoundry
namespace Relogin

open Pools (AccountId)
open GithubAccounts (GitHubAccount AccountChanges changed truthy secretName)

variable {K : Type} [PyFloat K]

/-! ## External calls -/

/-- An exception, as far as the code distinguishes them. -/
inductive Raised
  /-- `httpx.HTTPError`. -/
  | http (message : String)
  /-- `RuntimeError`. -/
  | runtime (message : String)
  /-- Any other one. -/
  | other (exc : PyErr)

/-- A response of GitHub; `none` for a body that is no JSON. -/
structure Response (K : Type) where
  status : ℕ
  body : Option (Json K)

/-- The calls of the two requests: on the database, GitHub, the vault and the hub. -/
inductive Call (K : Type)
  /-- `db.get`. -/
  | getAccount
  /-- `POST` of the device code request. -/
  | requestCode
  /-- `POST` of the device code grant: the body. -/
  | grant (deviceCode : String)
  /-- `GET` of the user a token belongs to. -/
  | getUser (token : Json K)
  | getSecret (name : String)
  /-- `POST` of the token to the hub: the status and the text. -/
  | postToken (fqdn adminToken : String) (token : Json K)
  | setSecret (name : String) (token : Json K)
  | commit (changes : AccountChanges)

@[reducible] def Call.Answer : Call K → Type
  | .getAccount => Option GitHubAccount
  | .requestCode => Response K
  | .grant _ => Option (Json K)
  | .getUser _ => Response K
  | .getSecret _ => Option String
  | .postToken .. => ℕ × String
  | .setSecret .. => Unit
  | .commit _ => Unit

abbrev reloginApi (K : Type) : Interface Raised := ⟨Call K, Call.Answer⟩

abbrev Task (K α : Type) := Prog.Raising (reloginApi K) α

omit [PyFloat K] in
def ask (o : Call K) : Task K o.Answer := @Prog.ask _ (reloginApi K) o

/-! ## The device flow (`copilot_device.py`) -/

omit [PyFloat K] in
/-- An expression of the module that raises where it has no value. -/
def orRaise {α : Type} (x : Option α) : Task K α := Prog.Raising.ofOption (.other .external) x

/-- `raise_for_status()` lets these pass. -/
def successful (status : ℕ) : Bool := 200 ≤ status && status < 300

/-- What `start_device_flow` returns: the code for the user, and the one that is polled with. -/
structure Flow (K : Type) where
  deviceCode : Json K
  userCode : Json K
  verificationUri : Json K
  interval : ℤ
  expiresIn : ℤ

/-- The fields of the response, of which the first three have to be there. -/
def Flow.ofInfo (py : Runtime K) (info : Dict K) : Option (Flow K) := do
  let deviceCode ← info.lookup "device_code"
  let userCode ← info.lookup "user_code"
  let verificationUri ← info.lookup "verification_uri"
  let interval ← ((Json.getD info "interval" (.int 5)).toInt py).toOption
  let expiresIn ← ((Json.getD info "expires_in" (.int 900)).toInt py).toOption
  return ⟨deviceCode, userCode, verificationUri, interval, expiresIn⟩

/-- `start_device_flow`: a response without the fields raises, like one with a status of failure. -/
def startDeviceFlow (py : Runtime K) : Task K (Flow K) := do
  let r ← ask .requestCode
  if successful r.status then
    orRaise (match r.body with
      | some (.dict info) => Flow.ofInfo py info
      | _ => none)
  else throw (.http "")

/-- What `poll_device_flow` returns: the user is still to act, the flow has failed, or there is a
token. -/
inductive FlowResult (K : Type)
  | pending
  | error (error : Json K)
  | success (accessToken : Json K)

/-- The reading of the body; the token is taken if there is one. -/
def FlowResult.ofData (data : Dict K) : FlowResult K :=
  match data.lookup "access_token" with
  | some token => .success token
  | none =>
      match Json.get data "error" with
      | .str "authorization_pending" => .pending
      | .str "slow_down" => .pending
      | err => .error (err.orElse (.str "unknown"))

/-- Any other body raises, since nothing can be looked up in it. -/
def FlowResult.ofBody : Option (Json K) → Option (FlowResult K)
  | some (.dict data) => some (.ofData data)
  | _ => none

/-- `poll_device_flow`: one request, of which only the body is read and not the status. -/
def pollDeviceFlow (deviceCode : String) : Task K (FlowResult K) := do
  let body ← ask (.grant deviceCode)
  orRaise (FlowResult.ofBody body)

/-- What `whoami` returns; `{}` has neither field. -/
structure Whoami (K : Type) where
  login : Json K
  id : Option String

/-- The fields of the user, of which the id is turned into a text. -/
def Whoami.ofUser (py : Runtime K) (u : Dict K) : Whoami K :=
  ⟨Json.get u "login", if (Json.get u "id").truthy then some ((Json.get u "id").text py) else none⟩

/-- Any other body raises, since nothing can be looked up in it. -/
def Whoami.ofBody (py : Runtime K) : Option (Json K) → Option (Whoami K)
  | some (.dict u) => some (.ofUser py u)
  | _ => none

/-- `whoami`: every exception ends in `{}`, so that a failed lookup is a user without an id. -/
def whoami (py : Runtime K) (token : Json K) : Task K (Whoami K) :=
  tryCatch (do
      let r ← ask (.getUser token)
      if successful r.status then orRaise (Whoami.ofBody py r.body)
      else throw (.http ""))
    (fun _ => return ⟨.null, none⟩)

/-! ## The requests (`github_accounts.py`) -/

omit [PyFloat K] in
/-- `_account_for_relogin`: the account has to be there, to be ready, and to have a hub that can be
reached. -/
def accountForRelogin : Task K GitHubAccount := do
  match ← ask .getAccount with
  | none => throw (.other (.http 404 "account not found"))
  | some acct =>
      if acct.status ≠ .ready then
        throw (.other (.http 409
          ("account is " ++ acct.status.value ++ "; re-login needs a ready account")))
      else if (truthy acct.containerAppFqdn).isNone || (truthy acct.adminTokenKvRef).isNone then
        throw (.other (.http 409 "account has no hub endpoint / admin token (redeploy required)"))
      else return acct

/-- `relogin_start`: the code of the flow is kept in the row for the polls to come. -/
def reloginStart (py : Runtime K) : Task K (Flow K) := do
  let acct ← accountForRelogin
  let flow ← startDeviceFlow py
  ask (.commit { deviceCode := changed acct.deviceCode (some (flow.deviceCode.text py)) })
  return flow

omit [PyFloat K] in
/-- `_install_token_on_hub`: the hub is given the token, and a status of failure is raised with its
text. -/
def installTokenOnHub (fqdn adminToken : String) (oauthToken : Json K) : Task K Unit := do
  let (status, text) ← ask (.postToken fqdn adminToken oauthToken)
  if 400 ≤ status then
    throw (.runtime ("hub rejected the token (" ++ toString status ++ "): " ++
      String.ofList (text.toList.take 400)))
  else return ()

/-- `ReloginPollOut`: how the re-login stands. -/
structure ReloginPollOut where
  accountId : String
  status : String
  githubLogin : Option String := none
  detail : Option String := none

/-- `except (RuntimeError, httpx.HTTPError)`: the text of the exception, if it is one of these. -/
def Raised.caught : Raised → Option String
  | .http message => some message
  | .runtime message => some message
  | .other _ => none

/-- The two ids are known and differ; an id that is not known differs from none. -/
def differs (recorded id : Option String) : Bool :=
  match truthy recorded, truthy id with
  | some recorded, some id => id ≠ recorded
  | _, _ => false

omit [PyFloat K] in
/-- A poll that ends the flow without a new token: the code is cleared, and the reason is
returned. -/
def failPoll (a : AccountId) (acct : GitHubAccount) (detail : String) : Task K ReloginPollOut := do
  ask (.commit { deviceCode := changed acct.deviceCode none })
  return { accountId := a.id, status := "failed", detail := some detail }

/-- What the hub says to the token: `none` when it keeps it. -/
def tryInstall (acct : GitHubAccount) (adminToken : String) (token : Json K) :
    Task K (Option String) :=
  tryCatch (do
      installTokenOnHub (acct.containerAppFqdn.getD "") adminToken token
      return none)
    (fun e => match e.caught with
      | some message => return some message
      | none => throw e)

/-- What follows when the hub has accepted the token: the vault is written, and then the row. -/
def persistToken (py : Runtime K) (a : AccountId) (acct : GitHubAccount) (token login : Json K) :
    Task K ReloginPollOut := do
  let githubLogin := if login.truthy then some (login.text py) else acct.githubLogin
  ask (.setSecret (secretName a "oauth") token)
  ask (.commit
    { oauthTokenKvRef := changed acct.oauthTokenKvRef (some (secretName a "oauth"))
      githubLogin := changed acct.githubLogin githubLogin
      deviceCode := changed acct.deviceCode none })
  return { accountId := a.id, status := "success", githubLogin := githubLogin }

/-- The end of `relogin_poll`: the hub first, the vault after it. -/
def replaceToken (py : Runtime K) (a : AccountId) (acct : GitHubAccount) (token login : Json K) :
    Task K ReloginPollOut := do
  match truthy (← ask (.getSecret (acct.adminTokenKvRef.getD ""))) with
  | none => throw (.other (.http 409 "hub admin token not found in Key Vault"))
  | some adminToken =>
      match ← tryInstall acct adminToken token with
      | some message => failPoll a acct (String.ofList (message.toList.take 500))
      | none => persistToken py a acct token login

/-- `relogin_poll`: once GitHub has issued a token, its user is compared with the account's, and
only then is it given to the hub. -/
def reloginPoll (py : Runtime K) (a : AccountId) : Task K ReloginPollOut := do
  let acct ← accountForRelogin
  match truthy acct.deviceCode with
  | none => throw (.other (.http 409 "no re-login in progress; call relogin/start first"))
  | some deviceCode =>
      match ← pollDeviceFlow deviceCode with
      | .pending => return { accountId := a.id, status := "pending" }
      | .error err => failPoll a acct ("device flow: " ++ err.text py)
      | .success token => do
          let who ← whoami py token
          if differs acct.githubUserId who.id then
            failPoll a acct ("authorized as " ++ (who.login.orElse (.str "another user")).text py ++
              ", but this account is " ++
              (truthy acct.githubLogin).getD (acct.githubUserId.getD "None"))
          else replaceToken py a acct token who.login

end Relogin
end TokenFoundry
