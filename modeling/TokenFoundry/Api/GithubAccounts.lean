import TokenFoundry.Services.Pools
import TokenFoundry.Services.TerraformRunner

/-!
# GitHub accounts (`app/api/github_accounts.py`)

The request that polls the device flow and the one that deletes an account, with the background
tasks they hand over to: `_deploy_account` and `_teardown_account`.

A session keeps the columns that were assigned and not yet committed (`AccountChanges`).  An
`UPDATE` that finds no row raises and leaves the session unusable until it is closed.

Deploying catches every exception at its outermost level, so the program records at each step
which columns are pending when that step raises.
-/

set_option autoImplicit false

namespace TokenFoundry
namespace GithubAccounts

open Pools (AccountId)
open TerraformRunner (Action JobInput Outputs Deployed Rounds)

/-! ## Tables -/

/-- A row of `github_accounts`: the account, where its secrets are, and the hub that runs with
it. -/
structure GitHubAccount where
  githubLogin : Option String
  githubUserId : Option String
  oauthTokenKvRef : Option String
  hubKeyKvRef : Option String
  adminTokenKvRef : Option String
  status : DeployStatus
  errorDetail : Option String
  deviceCode : Option String
  resourceGroup : Option String
  containerAppFqdn : Option String
  tfStateKey : Option String
  backendIds : List String
  deriving DecidableEq

/-- Assigned columns, which the next commit writes; the others stay as they are in the row. -/
structure AccountChanges where
  githubLogin : Option (Option String) := none
  githubUserId : Option (Option String) := none
  oauthTokenKvRef : Option (Option String) := none
  hubKeyKvRef : Option (Option String) := none
  adminTokenKvRef : Option (Option String) := none
  status : Option DeployStatus := none
  errorDetail : Option (Option String) := none
  deviceCode : Option (Option String) := none
  resourceGroup : Option (Option String) := none
  containerAppFqdn : Option (Option String) := none
  tfStateKey : Option (Option String) := none
  backendIds : Option (List String) := none

/-- Nothing is to be written, so that a commit sends no `UPDATE`. -/
def AccountChanges.isEmpty (ch : AccountChanges) : Bool :=
  ch.githubLogin.isNone && ch.githubUserId.isNone && ch.oauthTokenKvRef.isNone &&
    ch.hubKeyKvRef.isNone && ch.adminTokenKvRef.isNone && ch.status.isNone &&
    ch.errorDetail.isNone && ch.deviceCode.isNone && ch.resourceGroup.isNone &&
    ch.containerAppFqdn.isNone && ch.tfStateKey.isNone && ch.backendIds.isNone

/-- An assignment counts when it differs from the loaded value; this is how the session decides what
to write. -/
def changed {α : Type} [DecidableEq α] (loaded new : α) : Option α :=
  if new = loaded then none else some new

/-- Write the assigned columns into a row, whatever it holds by then. -/
def AccountChanges.apply (ch : AccountChanges) (acct : GitHubAccount) : GitHubAccount where
  githubLogin := ch.githubLogin.getD acct.githubLogin
  githubUserId := ch.githubUserId.getD acct.githubUserId
  oauthTokenKvRef := ch.oauthTokenKvRef.getD acct.oauthTokenKvRef
  hubKeyKvRef := ch.hubKeyKvRef.getD acct.hubKeyKvRef
  adminTokenKvRef := ch.adminTokenKvRef.getD acct.adminTokenKvRef
  status := ch.status.getD acct.status
  errorDetail := ch.errorDetail.getD acct.errorDetail
  deviceCode := ch.deviceCode.getD acct.deviceCode
  resourceGroup := ch.resourceGroup.getD acct.resourceGroup
  containerAppFqdn := ch.containerAppFqdn.getD acct.containerAppFqdn
  tfStateKey := ch.tfStateKey.getD acct.tfStateKey
  backendIds := ch.backendIds.getD acct.backendIds

/-! ## External calls -/

/-- The background tasks of an account. -/
inductive Task
  | deploy
  | teardown
  deriving DecidableEq, Repr

/-- What `poll_device_flow` returns: GitHub waits for the user, refuses, or has issued a token. -/
inductive DeviceReply
  | pending
  | error (message : String)
  | success (accessToken : String)

/-- What `whoami` returns; either field may be missing. -/
structure Whoami where
  login : Option String
  id : Option String

/-- The calls of the requests and of the tasks of an account: on the database, GitHub, the vault,
the gateway and the workflow. -/
inductive Call
  /-- `db.get`; a background task says which one it is. -/
  | getAccount (task : Option Task)
  /-- `db.get` of a row the session holds already. -/
  | getAgain
  | commitAccount (changes : AccountChanges)
  /-- The commit of the model routes, which writes the pending columns too. -/
  | commitRoutes (changes : AccountChanges)
  | rollback
  /-- `db.delete` and commit. -/
  | deleteAccount
  /-- `db.close()`. -/
  | close
  | pollDeviceFlow (deviceCode : String)
  | whoami (accessToken : String)
  | getSecret (name : String)
  | setSecret (name value : String)
  | deleteSecret (name : String)
  | drawToken
  | setJobInput (name : String) (input : JobInput)
  | refreshHubImageRef
  | dispatch (action : Action)
  | listRuns (correlationId : ℕ)
  | getRun (runId : ℕ)
  | readState
  /-- `_fetch_hub_models`: whether the hub lists a model of a known provider. -/
  | fetchHubModels (fqdn adminToken : String)
  /-- `ensure_pooled_provider_api` of every provider of the catalog. -/
  | ensurePooledApis
  | gateway (call : Pools.Call)
  /-- GitHub Actions executes a dispatched run. -/
  | execute (runId : ℕ)
  /-- The task of another account edits a pool. -/
  | editPool (poolId : String)

@[reducible] def Call.Answer : Call → Type
  | .getAccount _ => Option GitHubAccount
  | .pollDeviceFlow _ => DeviceReply
  | .whoami _ => Whoami
  | .getSecret _ => Option String
  | .drawToken => String
  | .dispatch _ => ℕ
  | .listRuns _ => Bool
  | .getRun _ => Option Bool
  | .readState => Outputs
  | .fetchHubModels _ _ => Bool
  | .gateway call => call.Answer
  | _ => Unit

abbrev accountsApi : Interface PyErr := ⟨Call, Call.Answer⟩

abbrev Handler (α : Type) := Prog.Raising accountsApi α

def ask (o : Call) : Handler o.Answer := @Prog.ask _ accountsApi o

/-- The provisioner behind the gateway calls of an account. -/
def provisioner (backendBase : String) : Pools.PoolClient accountsApi where
  backendBase := backendBase
  armToken := ask (.gateway .armToken)
  getPool id := ask (.gateway (.getPool id))
  putPool id props im := ask (.gateway (.putPool id props im))
  deletePool id im := ask (.gateway (.deletePool id im))
  deletePolicy id := ask (.gateway (.deletePolicy id))
  putBackend id contract := ask (.gateway (.putBackend id contract))
  deleteBackend id := ask (.gateway (.deleteBackend id))

/-- The runner behind the calls on the workflow. -/
def runner : TerraformRunner.RunnerClient accountsApi where
  drawToken := ask .drawToken
  setJobInput name input := ask (.setJobInput name input)
  refreshHubImageRef := ask .refreshHubImageRef
  dispatch action := ask (.dispatch action)
  listRuns n := ask (.listRuns n)
  getRun n := ask (.getRun n)
  readState := ask .readState

/-- One deployment of the control plane, and how long it waits for a run. -/
structure Settings where
  backendBase : String
  rounds : Rounds

/-! ## Helpers -/

/-- A reference that is set and not empty. -/
def truthy (ref : Option String) : Option String := ref.filter (fun s => s ≠ "")

/-- `_github_token_name`, `_hub_key_name`, `_admin_token_name`: the secrets of an account, which
differ in the last part of their names. -/
def secretName (a : AccountId) (kind : String) : String :=
  "gh-" ++ TerraformRunner.dashed a.id ++ "-" ++ kind

/-- The session is closed whatever happens. -/
def withDb {α : Type} (p : Handler α) : Handler α := Prog.Raising.tryFinally p (ask .close)

/-- `_fail`: the failure is committed with whatever is pending in the session. -/
def fail (acct : GitHubAccount) (pending : AccountChanges) (detail : String) : Handler Unit :=
  ask (.commitAccount { pending with
    status := changed acct.status .failed
    errorDetail := changed acct.errorDetail (some detail) })

/-! ## Requests -/

/-- The answer of a device poll: the status of the account, and who it belongs to. -/
structure DevicePollOut where
  status : DeployStatus
  githubLogin : Option String
  detail : Option String

/-- `device_poll`; also returns whether the deployment is handed over.  The row is read before
GitHub is asked, and written after it without being read again. -/
def devicePoll (a : AccountId) : Handler (DevicePollOut × Bool) := do
  match ← ask (.getAccount none) with
  | none => throw (.http 404 "account not found")
  | some acct =>
      if acct.status ≠ .pending then
        return (⟨acct.status, acct.githubLogin, acct.errorDetail⟩, false)
      else
        match ← ask (.pollDeviceFlow (acct.deviceCode.getD "")) with
        | .pending => return (⟨.pending, none, none⟩, false)
        | .error message => do
            fail acct {} ("device flow: " ++ message)
            return (⟨.failed, none, some ("device flow: " ++ message)⟩, false)
        | .success token => do
            let who ← ask (.whoami token)
            ask (.setSecret (secretName a "oauth") token)
            ask (.commitAccount
              { oauthTokenKvRef := changed acct.oauthTokenKvRef (some (secretName a "oauth"))
                githubLogin := changed acct.githubLogin who.login
                githubUserId := changed acct.githubUserId who.id
                deviceCode := changed acct.deviceCode none
                status := some .deploying })
            return (⟨.deploying, who.login, none⟩, true)

/-- `delete_account`: the row is marked, and the teardown is left to a background task. -/
def deleteAccount : Handler Unit := do
  match ← ask (.getAccount none) with
  | none => throw (.http 404 "account not found")
  | some acct => ask (.commitAccount { status := changed acct.status .deleting })

/-! ## The deployment -/

/-- `str(exc)[:2000]`: the text of a failure as it is kept in the row. -/
def failureText (exc : PyErr) : String := String.ofList (exc.text.toList.take 2000)

/-- What an exception of a step does: the row is read again and marked as failed. -/
def recordFailure (acct : GitHubAccount) (pending : AccountChanges) (exc : PyErr) :
    Handler Unit := do
  ask .getAgain
  fail acct pending (failureText exc)

/-- An exception before the session holds the row: it is read for the sake of the failure. -/
def recordUnread (exc : PyErr) : Handler Unit := do
  match ← ask (.getAccount (some .deploy)) with
  | none => return ()
  | some acct => fail acct {} (failureText exc)

/-- A step of the deployment: `none` when it raised and `onError` has dealt with it. -/
def attempt {α : Type} (onError : PyErr → Handler Unit) (p : Handler α) : Handler (Option α) :=
  tryCatch (do
      let x ← p
      return some x)
    (fun exc => do
      onError exc
      return none)

/-- `_register_hub_catalog`, as far as the account's session is concerned: its commit writes the
pending columns, and a concurrent registration rolls them back.  Returns what is still pending. -/
def registerHubCatalog (fqdn adminToken : String) (pending : AccountChanges) :
    Handler AccountChanges := do
  if ← ask (.fetchHubModels fqdn adminToken) then
    ask .ensurePooledApis
    tryCatch (do
        ask (.commitRoutes pending)
        return {})
      (fun e => match e with
        | .integrity => do
            ask .rollback
            return {}
        | e => throw e)
  else return pending

/-- The deployment from the running hub on: secrets, pools, catalog, and the status. -/
def joinPools (settings : Settings) (a : AccountId) (acct : GitHubAccount) (deployed : Deployed) :
    Handler Unit := do
  let fqdn := TerraformRunner.fqdnFromUrl deployed.appUrl
  let located : AccountChanges :=
    { containerAppFqdn := changed acct.containerAppFqdn (some fqdn)
      resourceGroup := changed acct.resourceGroup (some deployed.resourceGroup)
      tfStateKey := changed acct.tfStateKey (some ("hubs/" ++ a.id ++ ".tfstate")) }
  let keyed : AccountChanges :=
    { located with
      hubKeyKvRef := changed acct.hubKeyKvRef (some (secretName a "hubkey"))
      adminTokenKvRef := changed acct.adminTokenKvRef (some (secretName a "admin")) }
  let stored ← attempt (recordFailure acct located) (do
    ask (.setSecret (secretName a "hubkey") deployed.hubApiKey)
    ask (.setSecret (secretName a "admin") deployed.adminToken))
  if stored.isNone then return ()
  let committed ← attempt (recordFailure acct keyed) (ask (.commitAccount keyed))
  if committed.isNone then return ()
  match ← attempt (recordFailure acct {})
    (Pools.addHubToPools (provisioner settings.backendBase) a fqdn deployed.hubApiKey) with
  | none => return ()
  | some backendIds =>
      let joined : AccountChanges := { backendIds := changed acct.backendIds backendIds }
      let pending ← tryCatch (registerHubCatalog fqdn deployed.adminToken joined)
        (fun _ => return joined)
      let ready : AccountChanges :=
        { pending with
          status := changed acct.status .ready
          errorDetail := changed acct.errorDetail none }
      let _ ← attempt (recordFailure acct ready) (ask (.commitAccount ready))
      return ()

/-- `_deploy_account`: the hub is built, joins the pools and is recorded, and its models are
registered.  Whatever fails is recorded in the row, and nothing of what was built is taken down. -/
def deployAccount (settings : Settings) (a : AccountId) : Handler Unit := withDb do
  match ← attempt recordUnread (ask (.getAccount (some .deploy))) with
  | none => return ()
  | some none => return ()
  | some (some acct) =>
      match truthy acct.oauthTokenKvRef with
      | none => return ()
      | some ref =>
          let deployed ← attempt (recordFailure acct {}) (do
            match truthy (← ask (.getSecret ref)) with
            | none => do
                fail acct {} "oauth token not found in Key Vault"
                return none
            | some token => do
                let deployed ← TerraformRunner.deployHub runner settings.rounds a token
                return some deployed)
          match deployed with
          | some (some deployed) => joinPools settings a acct deployed
          | _ => return ()

/-! ## The teardown -/

/-- A gate of the teardown: whether it was passed.  Where it was not, the row says why. -/
def gate (acct : GitHubAccount) (p : Handler Unit) (detail : String) : Handler Bool :=
  tryCatch (do
      p
      return true)
    (fun exc => do
      fail acct {} (detail ++ exc.text)
      return false)

/-- The vault references of an account: those in its row, and those with names that are fixed. -/
def secretRefs (a : AccountId) (acct : GitHubAccount) : List (Option String) :=
  [acct.oauthTokenKvRef, acct.hubKeyKvRef, acct.adminTokenKvRef,
    some (TerraformRunner.jobinputName a), some (secretName a "outputs")]

/-- `kv.delete_secret` for every reference that is set; best effort, as each failure is
swallowed. -/
def deleteSecrets (refs : List (Option String)) : Handler Unit :=
  refs.forM (fun ref => match truthy ref with
    | none => return ()
    | some ref => tryCatch (ask (.deleteSecret ref)) (fun _ => return ()))

/-- The token of the account, if it has one, which the workflow needs for the removal. -/
def readToken (acct : GitHubAccount) : Handler (Option String) :=
  match truthy acct.oauthTokenKvRef with
  | none => return none
  | some ref => ask (.getSecret ref)

/-- `_teardown_account`: the hub leaves the pools, its resources are destroyed, its secrets are
deleted, and the row goes last.  The first two record their failure in the row and end the task. -/
def teardownAccount (settings : Settings) (a : AccountId) : Handler Unit := withDb do
  match ← ask (.getAccount (some .teardown)) with
  | none => return ()
  | some acct =>
      let removed ← gate acct
        (Pools.removeHubFromPools (provisioner settings.backendBase) a acct.backendIds)
        "APIM cleanup failed; nothing was destroyed — retry delete. "
      if ! removed then return ()
      let token ← readToken acct
      let destroyed ← gate acct
        (TerraformRunner.destroyHub runner settings.rounds a (token.getD ""))
        ("Azure resources were NOT destroyed and nothing else was " ++
          "removed — press delete again to retry. If this environment is " ++
          "not the most recently deployed one, the hub workflow is " ++
          "pointed at another environment's Key Vault and the retry will " ++
          "fail the same way until that is corrected. ")
      if ! destroyed then return ()
      deleteSecrets (secretRefs a acct)
      ask .deleteAccount

end GithubAccounts
end TokenFoundry
