import TokenFoundry.Api.GithubAccounts
import TokenFoundry.Framework.PyValues
import TokenFoundry.Hub.Server

/-!
# Hub status polling (`app/services/hub_client.py`, `app/services/hub_status_poller.py`)

`poll_once` asks every ready hub how it is and records the answers.  A hub answers JSON of any
shape, and hubs of different ages answer different things; what a hub leaves out is read as a
default.  A hub that cannot be asked has no answer at all.

The columns are assigned one account after the other, in the objects of one session, and written by
the commit at the end of the pass: all of them, or none.
-/

set_option autoImplicit false

namespace TokenFoundry
namespace HubStatusPoller

open GithubAccounts (GitHubAccount truthy)

variable {K : Type} [PyFloat K]

/-! ## The answer of a hub (`hub_client.py`) -/

/-- `HubStatus`: what one hub says about itself, its login, its counters and the last failure. -/
structure HubStatus where
  loggedIn : Bool
  dropped : ℤ
  lost : ℤ
  auditDropped : ℤ
  state : String
  reason : Option String

omit [PyFloat K] in
/-- `_int`: `True` and `False` are no numbers here, and neither is a float; they count as zero. -/
def int : Json K → ℤ
  | .int n => n
  | _ => 0

/-- `str(v or "")`: what is false is the empty text. -/
def textOf (py : Runtime K) (v : Json K) : String := (v.orElse (.str "")).text py

omit [PyFloat K] in
/-- `" ".join(b for b in bits if b).strip()[:200] or None`: the text is cut after the white space
around it is gone. -/
def joined (bits : List String) : Option String :=
  truthy (some (String.ofList
    ((Server.strip (" ".intercalate (bits.filter (fun b => b ≠ ""))).toList).take 200)))

/-- The latest entry of the recent failures: its kind and its error, if the entry is a
dictionary. -/
def reasonOf (py : Runtime K) (stats : Dict K) : Option String :=
  match Json.get stats "recent" with
  | .list recent =>
      match recent.getLast? with
      | some (.dict last) =>
          joined [textOf py (Json.get last "kind"), textOf py (Json.get last "error")]
      | _ => none
  | _ => none

/-- `from_payload`: a field that is missing or of another type counts as nothing, so that any answer
can be read. -/
def HubStatus.fromPayload (py : Runtime K) : Json K → HubStatus
  | .dict payload =>
      let stats : Dict K := match Json.get payload "usage_events" with
        | .dict stats => stats
        | _ => []
      { loggedIn := (Json.get payload "logged_in").truthy
        dropped := int (Json.get payload "usage_events_dropped")
        lost := int (Json.get payload "usage_events_lost")
        auditDropped := int (Json.get payload "audit_payloads_dropped")
        state := ((Json.get stats "state").orElse (.str "ok")).text py
        reason := reasonOf py stats }
  | _ => ⟨false, 0, 0, 0, "unknown", none⟩

omit [PyFloat K] in
lemma length_joined {bits : List String} {reason : String} (h : joined bits = some reason) :
    reason.length ≤ 200 := by
  unfold joined truthy at h
  obtain ⟨hsome, -⟩ := Option.filter_eq_some_iff.1 h
  rw [← Option.some.inj hsome, String.length_ofList, List.length_take]
  exact Nat.min_le_left _ _

/-- Whatever a hub answers, the reason fits its column, since the text is cut. -/
lemma length_reason {py : Runtime K} {payload : Json K} {reason : String}
    (h : (HubStatus.fromPayload py payload).reason = some reason) : reason.length ≤ 200 := by
  unfold HubStatus.fromPayload reasonOf at h
  split at h
  · dsimp only at h
    split at h
    · split at h
      · exact length_joined h
      · exact absurd h (by simp)
    · exact absurd h (by simp)
  · exact absurd h (by simp)

/-! ## Tables -/

/-- The columns of an account that the poller writes; nobody else writes them. -/
structure Report where
  hubLoggedIn : Option Bool
  hubStatusAt : Option ℤ
  usageEventsDropped : ℤ
  usageEventsLost : ℤ
  auditPayloadsDropped : ℤ
  hubDropReason : Option String
  deriving DecidableEq

/-- A row of `github_accounts`, as far as the poller reads and writes it. -/
structure Row where
  id : String
  account : GitHubAccount
  report : Report
  deriving DecidableEq

/-- What is recorded of an answer: its fields, and the time it was asked for. -/
def HubStatus.report (status : HubStatus) (polledAt : ℤ) : Report where
  hubLoggedIn := some status.loggedIn
  hubStatusAt := some polledAt
  usageEventsDropped := status.dropped
  usageEventsLost := status.lost
  auditPayloadsDropped := status.auditDropped
  hubDropReason := status.reason

/-! ## External calls -/

/-- A response of a hub; `none` for a body that is no JSON. -/
structure Response (K : Type) where
  status : ℕ
  body : Option (Json K)

/-- The calls of one pass: one query, the vault and the hub for each account, and one commit for
all. -/
inductive Call
  /-- The query of the ready accounts. -/
  | readyAccounts
  | getSecret (name : String)
  /-- `GET /api/status`, with the admin token if there is one. -/
  | getStatus (fqdn : String) (adminToken : Option String)
  /-- `db.commit()`: the columns of the accounts that have changed. -/
  | commit (changes : List (String × Report))
  | rollback
  | close

@[reducible] def Call.Answer (K : Type) : Call → Type
  | .readyAccounts => List Row
  | .getSecret _ => Option String
  | .getStatus _ _ => Response K
  | .commit _ => Unit
  | .rollback => Unit
  | .close => Unit

abbrev pollerApi (K : Type) : Interface PyErr := ⟨Call, Call.Answer K⟩

abbrev Task (K α : Type) := Prog.Raising (pollerApi K) α

omit [PyFloat K] in
def ask (o : Call) : Task K (o.Answer K) := @Prog.ask _ (pollerApi K) o

omit [PyFloat K] in
/-- `try: p except Exception`: what was raised is kept as a value, on which the code branches. -/
def attempt {α : Type} (p : Task K α) : Task K (Except PyErr α) :=
  tryCatch (do
    let a ← p
    return .ok a) (fun e => return .error e)

/-- `fetch_status`: the answer, or `None` for a hub that cannot be reached, refuses, or answers with
no JSON. -/
def fetchStatus (py : Runtime K) (fqdn : String) (adminToken : Option String) :
    Task K (Option HubStatus) :=
  tryCatch (do
      let r ← ask (.getStatus fqdn (truthy adminToken))
      if 200 ≤ r.status && r.status < 300 then
        match r.body with
        | some payload => return some (.fromPayload py payload)
        | none => throw (.valueError "")
      else throw (.httpStatus r.status))
    (fun _ => return none)

/-! ## The pass (`hub_status_poller.py`) -/

/-- The counters that `poll_once` returns, which no decision depends on. -/
structure Stats where
  polled : ℕ := 0
  loggedIn : ℕ := 0
  expired : ℕ := 0
  unreachable : ℕ := 0
  deriving DecidableEq

/-- What a pass has come to: the counters, and the columns that the session has got to write. -/
structure Pass where
  stats : Stats
  changes : List (String × Report)

/-- A hub that has not answered: its columns stay as they are, and the pass counts it. -/
def Pass.miss (pass : Pass) : Pass where
  stats := { pass.stats with
    polled := pass.stats.polled + 1, unreachable := pass.stats.unreachable + 1 }
  changes := pass.changes

/-- A hub that has answered.  The session writes an object of which a column has got another
value. -/
def Pass.note (pass : Pass) (row : Row) (report : Report) : Pass where
  stats :=
    if report.hubLoggedIn = some true then
      { pass.stats with polled := pass.stats.polled + 1, loggedIn := pass.stats.loggedIn + 1 }
    else { pass.stats with polled := pass.stats.polled + 1, expired := pass.stats.expired + 1 }
  changes := if report = row.report then pass.changes else pass.changes ++ [(row.id, report)]

/-- The admin token; a failure of the vault is none of the poll's. -/
def adminToken (account : GitHubAccount) : Task K (Option String) :=
  match truthy account.adminTokenKvRef with
  | none => return none
  | some ref => tryCatch (ask (.getSecret ref)) (fun _ => return none)

/-- The body of the loop; `now` says when the answer for an account is taken. -/
def askHub (py : Runtime K) (now : String → ℤ) (row : Row) (pass : Pass) : Task K Pass :=
  match truthy row.account.containerAppFqdn with
  | none => return pass
  | some fqdn => do
      let token ← adminToken row.account
      match ← fetchStatus py fqdn token with
      | none => return pass.miss
      | some status => return pass.note row (status.report (now row.id))

/-- The loop over the accounts, each of which may add one change to the pass. -/
def askHubs (py : Runtime K) (now : String → ℤ) : List Row → Pass → Task K Pass
  | [], pass => return pass
  | row :: rows, pass => do
      let pass ← askHub py now row pass
      askHubs py now rows pass

/-- The query and the loop; the changes are collected and not yet written. -/
def gather (py : Runtime K) (now : String → ℤ) : Task K Pass := do
  let rows ← ask .readyAccounts
  askHubs py now rows ⟨{}, []⟩

/-- `poll_once`: the changes of all accounts are committed together, so that one failure rolls all
of them back; the session is closed in any case. -/
def pollOnce (py : Runtime K) (now : String → ℤ) : Task K Stats :=
  Prog.Raising.tryFinally (do
    match ← attempt (gather py now) with
    | .error _ => do
        -- only the query raises, and nothing has been counted before it
        ask .rollback
        return {}
    | .ok pass => do
        match ← attempt (ask (.commit pass.changes)) with
        | .error _ => do
            ask .rollback
            return pass.stats
        | .ok _ => return pass.stats) (ask .close)

end HubStatusPoller
end TokenFoundry
