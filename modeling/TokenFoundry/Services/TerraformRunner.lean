import TokenFoundry.Services.Pools

/-!
# Deploying and destroying a hub (`app/services/terraform_runner.py`)

The Terraform that builds a hub runs in a GitHub Action.  The control plane writes the job input
to the vault, dispatches a workflow run, finds it again by the correlation id it has drawn, and
polls it until it is completed.  Nothing stops a run that nobody polls any more.

The two waiting loops end at a deadline; here each is given the number of rounds that fit before
it.  The GitHub token is read before every request to GitHub and is part of that call.
-/

set_option autoImplicit false

namespace TokenFoundry
namespace TerraformRunner

open Pools (AccountId)

/-- The `action` input of the workflow: whether the hub is built or destroyed. -/
inductive Action
  | apply
  | destroy
  deriving DecidableEq, Repr

/-- The job input of a run, which the workflow reads from the vault. -/
structure JobInput where
  accountId : String
  oauthToken : String
  adminToken : String
  hubApiKey : String

/-- The terraform outputs in the remote state; an absent output is the empty text. -/
structure Outputs where
  appUrl : String
  resourceGroup : String

/-- What `deploy_hub` returns: the outputs of the run, and the secrets that were drawn for the
hub. -/
structure Deployed where
  appUrl : String
  resourceGroup : String
  adminToken : String
  hubApiKey : String

/-- The rounds of the waiting loops, after which the run counts as failed. -/
structure Rounds where
  find : ℕ
  poll : ℕ

/-- The vault, GitHub and the state blob. -/
structure RunnerClient (E : Interface PyErr) where
  /-- `secrets.token_urlsafe(32)`. -/
  drawToken : Prog.Raising E String
  /-- `KeyVaultService().set_secret` of the serialised job input. -/
  setJobInput : String → JobInput → Prog.Raising E Unit
  /-- `_refresh_hub_image_ref`. -/
  refreshHubImageRef : Prog.Raising E Unit
  /-- `_trigger_workflow` with a fresh correlation id, which is returned. -/
  dispatch : Action → Prog.Raising E ℕ
  /-- Whether the run with this correlation id is listed. -/
  listRuns : ℕ → Prog.Raising E Bool
  /-- `none` while the run is not completed, then whether its conclusion is `success`. -/
  getRun : ℕ → Prog.Raising E (Option Bool)
  readState : Prog.Raising E Outputs

/-- `account_id.replace('_', '-')`, as the vault admits no underscores. -/
def dashed (accountId : String) : String :=
  String.ofList (accountId.toList.map (fun c => if c = '_' then '-' else c))

/-- `_jobinput_name`: the secret that holds the job input of an account. -/
def jobinputName (a : AccountId) : String := "gh-" ++ dashed a.id ++ "-jobinput"

/-- `fqdn_from_url`: the host of an address, without the scheme and the slashes at the end. -/
def fqdnFromUrl (appUrl : String) : String :=
  (((appUrl.replace "https://" "").replace "http://" "").dropEndWhile '/').toString

section Operations

variable {E : Interface PyErr} (client : RunnerClient E)

/-- `_find_run`: wait until the run that was triggered is listed; the correlation id tells it from
others. -/
def findRun (correlationId : ℕ) : ℕ → Prog.Raising E Unit
  | 0 => throw (.terraform ("could not find the triggered run for corr=" ++
      toString correlationId))
  | rounds + 1 => do
      if ← client.listRuns correlationId then return ()
      else findRun correlationId rounds

/-- `_poll_run`: wait until the run has ended; only a success returns. -/
def pollRun (runId : ℕ) (a : AccountId) : ℕ → Prog.Raising E Unit
  | 0 => throw (.terraform ("deploy run " ++ toString runId ++ " for " ++ a.id ++
      " did not finish"))
  | rounds + 1 => do
      match ← client.getRun runId with
      | some true => return ()
      | some false => throw (.terraform ("deploy run " ++ toString runId ++ " for " ++ a.id ++
          " ended without success"))
      | none => pollRun runId a rounds

/-- `_read_state_outputs`: what Terraform has written; a state without an address counts as a
failure. -/
def readStateOutputs (a : AccountId) : Prog.Raising E Outputs := do
  let outputs ← client.readState
  if outputs.appUrl = "" then
    throw (.terraform ("state blob for " ++ a.id ++
      " has no app_url output (deploy may have failed)"))
  else return outputs

/-- Dispatch a run and wait for it, first to be listed and then to end. -/
def runWorkflow (rounds : Rounds) (a : AccountId) (action : Action) : Prog.Raising E Unit := do
  let correlationId ← client.dispatch action
  findRun client correlationId rounds.find
  pollRun client correlationId a rounds.poll

/-- `deploy_hub`: the secrets are drawn and put into the vault, the image is chosen, and the run is
made; its outputs name the hub. -/
def deployHub (rounds : Rounds) (a : AccountId) (oauthToken : String) :
    Prog.Raising E Deployed := do
  let adminToken ← client.drawToken
  let hubToken ← client.drawToken
  let hubApiKey := "sk-hub-" ++ hubToken
  client.setJobInput (jobinputName a) ⟨a.id, oauthToken, adminToken, hubApiKey⟩
  client.refreshHubImageRef
  runWorkflow client rounds a .apply
  let outputs ← readStateOutputs client a
  return ⟨outputs.appUrl, outputs.resourceGroup, adminToken, hubApiKey⟩

/-- `destroy_hub`: the run needs a job input too, of which only the account and the token are
used. -/
def destroyHub (rounds : Rounds) (a : AccountId) (oauthToken : String) :
    Prog.Raising E Unit := do
  client.setJobInput (jobinputName a) ⟨a.id, oauthToken, "x", "x"⟩
  runWorkflow client rounds a .destroy

end Operations

/-! ## Facts that the operations keep -/

section Steady

variable {E : Interface PyErr} {client : RunnerClient E} {ι W : Type} {env : Env E ι W}
variable {D : Discipline env} {ok : StepCond E ι W} {i : ι} {P : W → Prop}

lemma steady_findRun (hlist : ∀ n, D.Steady ok i P (client.listRuns n)) (n rounds : ℕ) :
    D.Steady ok i P (findRun client n rounds) := by
  induction rounds with
  | zero => exact .throw _
  | succ rounds ih =>
      refine .bind (hlist n) (fun found => ?_)
      cases found
      · exact ih
      · exact .pure _

lemma steady_pollRun (hget : ∀ n, D.Steady ok i P (client.getRun n)) (n : ℕ) (a : AccountId)
    (rounds : ℕ) : D.Steady ok i P (pollRun client n a rounds) := by
  induction rounds with
  | zero => exact .throw _
  | succ rounds ih =>
      refine .bind (hget n) (fun status => ?_)
      cases status with
      | none => exact ih
      | some success =>
          cases success
          · exact .throw _
          · exact .pure _

end Steady

end TerraformRunner
end TokenFoundry
