import TokenFoundry.Api.GithubAccounts
import TokenFoundry.Framework.Requests
import TokenFoundry.Properties.PoolMembership

/-!
# Pressing delete again

A teardown that fails at one of its gates marks the account as failed, and the next attempt starts
over.  Four calls stand outside the gates: the read of the row, the read of the token's secret, the
commit that records a failure, and the commit that removes the row.  If one of them raises, the
attempt ends with the account still marked as being deleted; and if the last one raises, the
secrets are gone already, so that every later attempt raises at the read of the token.  The
deletions of backends and secrets are best effort: one that fails is passed over, the row goes, and
what is left is left for good (`teardown_stuck`).

`teardown_converges` says that this is all: where none of these calls fails, every attempt ends with
the row gone or marked as failed, and from wherever the attempts have got to, after one during which
no service fails nothing is left of the account, neither the row nor anything it referred to.

The attempts of one account follow one another.  Nobody else edits the pools meanwhile.
-/

set_option autoImplicit false

namespace TokenFoundry
namespace GithubAccounts
namespace Retry

open Pools (AccountId Provider Spelling PoolProps listed services backendId poolId)
open TerraformRunner (Action Rounds)

/-! ## The world -/

/-- All that an account is made of: its row, its secrets, its hub, its members in the pools, its
backends, and the workflow runs that destroy the hub. -/
structure Estate where
  row : Option GitHubAccount
  secrets : String → Option String
  pools : Pools.World Unit
  /-- The provider APIs that carry a policy. -/
  policies : String → Bool
  backends : String → Bool
  /-- The Azure resources of the hub exist. -/
  hub : Bool
  /-- The number of workflow runs that were dispatched. -/
  runs : ℕ
  /-- How often the last run was looked for, and polled. -/
  looked : ℕ
  polled : ℕ

/-- What the outside decides about a call: it is served, it is refused with a status, or how far the
workflow run has come. -/
inductive Pick
  | served
  /-- The management API refuses the call with a status. -/
  | refusal (code : ℕ)
  /-- Whether the run is listed. -/
  | listed (visible : Bool)
  /-- How far the run has got. -/
  | progress (conclusion : Option Bool)
  deriving DecidableEq

/-- Absent things are reported as not found, and present ones are there to be deleted. -/
def found (present : Bool) : Except PyErr Unit :=
  if present then .ok () else .error .resourceNotFound

/-- A commit updates the row, and raises where there is none. -/
def commit (w : Estate) (ch : AccountChanges) : Except PyErr Unit × Estate :=
  if ch.isEmpty then (.ok (), w)
  else match w.row with
    | none => (.error .staleData, w)
    | some acct => (.ok (), { w with row := some (ch.apply acct) })

/-- A call on a pool: served, or refused with a status. -/
def onPools (sp : Spelling) (w : Estate) (o : Pools.Call) (x : Pick) :
    Option (Pools.poolsApi.Reply o × Estate) :=
  match x with
  | .served => (Pools.serve sp () w.pools o none).map (fun s => (s.1, { w with pools := s.2 }))
  | .refusal code =>
      (Pools.serve sp () w.pools o (some code)).map (fun s => (s.1, { w with pools := s.2 }))
  | _ => none

/-- How the calls of a teardown are served; each deletion takes its effect and reports whether there
was something to delete. -/
def serve (sp : Spelling) (w : Estate) : (o : Call) → Pick → Option (accountsApi.Reply o × Estate)
  | .getAccount _, .served => some (.ok w.row, w)
  | .commitAccount ch, .served => some (commit w ch)
  | .deleteAccount, .served => some (.ok (), { w with row := none })
  | .close, .served => some (.ok (), w)
  | .getSecret name, .served =>
      some ((w.secrets name).elim (.error .resourceNotFound) (fun v => .ok (some v)), w)
  | .deleteSecret name, .served =>
      some (found (w.secrets name).isSome,
        { w with secrets := Function.update w.secrets name none })
  | .setJobInput name _, .served =>
      some (.ok (), { w with secrets := Function.update w.secrets name (some "") })
  | .dispatch _, .served =>
      some (.ok w.runs, { w with
        runs := w.runs + 1
        looked := 0
        polled := 0 })
  | .listRuns _, .listed visible => some (.ok visible, { w with looked := w.looked + 1 })
  | .getRun _, .progress conclusion =>
      some (.ok conclusion, { w with
        hub := w.hub && conclusion ≠ some true
        polled := w.polled + 1 })
  | .gateway .armToken, .served => some (.ok (), w)
  | .gateway (.deletePolicy id), .served =>
      some (found (w.policies id), { w with policies := Function.update w.policies id false })
  | .gateway (.deleteBackend b), .served =>
      some (found (w.backends b), { w with backends := Function.update w.backends b false })
  | .gateway (.getPool id), x => onPools sp w (.getPool id) x
  | .gateway (.putPool id props im), x => onPools sp w (.putPool id props im) x
  | .gateway (.deletePool id im), x => onPools sp w (.deletePool id im) x
  | _, _ => none

/-- A call may fail with any error but the one that says that there is nothing. -/
def mayFail (_ : Call) (e : PyErr) : Bool := decide (e ≠ .resourceNotFound)

/-- Any call may fail, with its effect or without, but nobody else touches the account. -/
def env (sp : Spelling) : Env accountsApi Unit Estate :=
  .faulty (fun _ => serve sp) mayFail mayFail (fun _ _ => False)

lemma env_drift {sp : Spelling} (w w' : Estate) : ¬ (env sp).drift w w' := id

/-- No service fails: no refusal, no failed run, and a run that ends before the deadline. -/
def Calm (rounds : Rounds) (w : Estate) : Call → Pick → Prop
  | _, .refusal _ => False
  | .listRuns _, .listed false => w.looked + 1 < rounds.find
  | .getRun _, .progress none => w.polled + 1 < rounds.poll
  | .getRun _, .progress (some false) => False
  | _, _ => True

instance (rounds : Rounds) (w : Estate) (o : Call) (x : Pick) : Decidable (Calm rounds w o x) := by
  unfold Calm
  split <;> infer_instance

/-- Every call is served, and the workflow run is listed and succeeds within the rounds that the
settings allow. -/
def calm (sp : Spelling) (rounds : Rounds) : Env accountsApi Unit Estate where
  Choice := Pick
  act _ w o x := if Calm rounds w o x then serve sp w o x else none
  drift _ _ := False

lemma calm_drift {sp : Spelling} {rounds : Rounds} (w w' : Estate) :
    ¬ (calm sp rounds).drift w w' := id

/-! ## Requests -/

inductive Request
  | press
  | attempt

/-- `delete_account`, or the background task it hands over to, which may be restarted any number of
times. -/
def Request.handler (settings : Settings) (a : AccountId) : Request → Handler Unit
  | .press => withDb deleteAccount
  | .attempt => teardownAccount settings a

/-- No request is in progress, and the account is as the last one has left it. -/
def idle (w : Estate) : Turn accountsApi Estate (Except PyErr Unit) := ⟨w, .done (.ok ())⟩

/-- The deletion has succeeded, or there was nothing to delete. -/
def deleted : Except PyErr Unit → Bool
  | .ok () => true
  | .error .resourceNotFound => true
  | .error _ => false

/-- The deletion has failed, and `remove_backend` passes over it.  The teardown goes on as if the
backend were gone. -/
def passedOver : Except PyErr Unit → Bool
  | .error (.httpResponse _) => true
  | _ => false

/-- None of the calls outside the gates fails: the read of the row, the read of the token, the
commit of a failure, and the commit that removes the row.  And no failure is passed over: a secret
is deleted or was not there, and the deletion of a backend does not end with a response that is
taken for granted. -/
def Sound : StepCond accountsApi Unit Estate
  | _, _, .getAccount (some .teardown), r => r.isOk = true
  | _, _, .getSecret _, r => r.isOk = true
  | _, _, .commitAccount ch, r => ch.status = some .failed → r.isOk = true
  | _, _, .deleteAccount, r => r.isOk = true
  | _, _, .deleteSecret _, r => deleted r = true
  | _, _, .gateway (.deleteBackend _), r => passedOver r = false
  | _, _, _, _ => True

instance (i : Unit) (w : Estate) (o : Call) (r : accountsApi.Reply o) :
    Decidable (Sound i w o r) :=
  match o, r with
  | .getAccount (some .teardown), r => inferInstanceAs (Decidable (r.isOk = true))
  | .getSecret _, r => inferInstanceAs (Decidable (r.isOk = true))
  | .commitAccount ch, r =>
      inferInstanceAs (Decidable (ch.status = some .failed → r.isOk = true))
  | .deleteAccount, r => inferInstanceAs (Decidable (r.isOk = true))
  | .deleteSecret _, r => inferInstanceAs (Decidable (deleted r = true))
  | .gateway (.deleteBackend _), r => inferInstanceAs (Decidable (passedOver r = false))
  | .getAccount none, _ | .getAccount (some .deploy), _ | .getAgain, _ | .commitRoutes _, _
  | .rollback, _ | .close, _ | .pollDeviceFlow _, _ | .whoami _, _ | .setSecret _ _, _
  | .drawToken, _ | .setJobInput _ _, _ | .refreshHubImageRef, _
  | .dispatch _, _ | .listRuns _, _ | .getRun _, _ | .readState, _ | .fetchHubModels _ _, _
  | .ensurePooledApis, _ | .gateway .armToken, _ | .gateway (.getPool _), _
  | .gateway (.putPool _ _ _), _ | .gateway (.deletePool _ _), _ | .gateway (.deletePolicy _), _
  | .gateway (.putBackend _ _), _ | .execute _, _ | .editPool _, _ => isTrue trivial

/-- The row is gone, or says that the deletion has failed. -/
def Ended (w : Estate) : Prop := ∀ acct ∈ w.row, acct.status = .failed

/-- The vault has the token that the row refers to. -/
def TokenKept (w : Estate) : Prop :=
  ∀ acct ∈ w.row, ∀ ref ∈ truthy acct.oauthTokenKvRef, (w.secrets ref).isSome = true

/-- Nothing is left of the account, in the database, in the vault, in Azure and at the gateway. -/
structure NothingLeft (a : AccountId) (acct : GitHubAccount) (w : Estate) : Prop where
  row : w.row = none
  hub : w.hub = false
  members : ∀ p, listed p a (services (w.pools.pool p)) = 0
  backends : ∀ p, w.backends (backendId p a) = false
  /-- Recorded backends that are not named after the account. -/
  extra : ∀ b ∈ acct.backendIds, a.id.toList.isSuffixOf b.toList = false → w.backends b = false
  secrets : ∀ ref ∈ secretRefs a acct, ∀ name ∈ truthy ref, w.secrets name = none

/-- The row refers to the same secrets and backends as at the start. -/
structure Refers (acct₀ acct : GitHubAccount) : Prop where
  token : acct.oauthTokenKvRef = acct₀.oauthTokenKvRef
  hubKey : acct.hubKeyKvRef = acct₀.hubKeyKvRef
  adminToken : acct.adminTokenKvRef = acct₀.adminTokenKvRef
  backendIds : acct.backendIds = acct₀.backendIds

lemma Refers.refl (acct : GitHubAccount) : Refers acct acct := ⟨rfl, rfl, rfl, rfl⟩

lemma Refers.trans {acct₀ acct₁ acct₂ : GitHubAccount} (h : Refers acct₀ acct₁)
    (h' : Refers acct₁ acct₂) : Refers acct₀ acct₂ :=
  ⟨h'.token.trans h.token, h'.hubKey.trans h.hubKey, h'.adminToken.trans h.adminToken,
    h'.backendIds.trans h.backendIds⟩

lemma Refers.secretRefs {acct₀ acct : GitHubAccount} (h : Refers acct₀ acct) (a : AccountId) :
    secretRefs a acct = secretRefs a acct₀ := by
  simp only [GithubAccounts.secretRefs, h.token, h.hubKey, h.adminToken]

lemma NothingLeft.refers {a : AccountId} {acct₀ acct : GitHubAccount} {w : Estate}
    (h : NothingLeft a acct w) (hrefers : Refers acct₀ acct) : NothingLeft a acct₀ w where
  row := h.row
  hub := h.hub
  members := h.members
  backends := h.backends
  extra := hrefers.backendIds ▸ h.extra
  secrets := hrefers.secretRefs a ▸ h.secrets

/-- What holds between the attempts: the row is the one of the account, and the vault has its token;
or there is no row, and nothing else either. -/
structure Whole (a : AccountId) (acct₀ : GitHubAccount) (w : Estate) : Prop where
  token : TokenKept w
  refers : ∀ acct ∈ w.row, Refers acct₀ acct
  gone : w.row = none → NothingLeft a acct₀ w


/-! ## The removal from the pools -/

/-- What the removal from the pools may do: things only go away. -/
structure Wanes (a : AccountId) (w w' : Estate) : Prop where
  row : w'.row = w.row
  secrets : w'.secrets = w.secrets
  members : ∀ p, listed p a (services (w'.pools.pool p)) ≤ listed p a (services (w.pools.pool p))
  backends : ∀ b, w.backends b = false → w'.backends b = false

section Wanes

variable {a : AccountId} {w w₁ w₂ : Estate}

lemma Wanes.refl (a : AccountId) (w : Estate) : Wanes a w w :=
  ⟨rfl, rfl, fun _ => le_rfl, fun _ => id⟩

lemma Wanes.trans (h₁ : Wanes a w w₁) (h₂ : Wanes a w₁ w₂) : Wanes a w w₂ :=
  ⟨h₂.row.trans h₁.row, h₂.secrets.trans h₁.secrets,
    fun p => (h₂.members p).trans (h₁.members p), fun b h => h₂.backends b (h₁.backends b h)⟩

lemma wanes_write {p : Provider} {v : Option PoolProps}
    (h : listed p a (services v) ≤ listed p a (services (w.pools.pool p))) :
    Wanes a w { w with pools := w.pools.write () (poolId p) v } := by
  refine ⟨rfl, rfl, fun q => ?_, fun _ => id⟩
  by_cases hq : q = p
  · subst hq
    simpa only [Pools.pool_write_self] using h
  · simp only [Pools.pool_write_ne hq, le_refl]

end Wanes

/-! ### What the gateway does -/

section Gateway

variable {sp : Spelling} {a : AccountId} {w w' : Estate}

/-- A deletion finds something or not; it fails in no other way. -/
lemma found_error {present : Bool} {e : PyErr} (h : found present = .error e) :
    e = .resourceNotFound := by
  unfold found at h
  split_ifs at h
  cases h
  rfl

lemma armToken_served {x : Pick} {r : Except PyErr Unit}
    (h : serve sp w (.gateway .armToken) x = some (r, w')) : w' = w ∧ r = .ok () := by
  cases x with
  | served =>
      cases h
      exact ⟨rfl, rfl⟩
  | _ => cases h

/-- A read of a pool is answered with the pool and its ETag, or that there is none; or it is
refused. -/
lemma getPool_served {id : String} {x : Pick} {r : Except PyErr Pools.PoolReply}
    (h : serve sp w (.gateway (.getPool id)) x = some (r, w')) :
    w' = w ∧ ((∃ props, (w.pools.pools id).value = some props ∧
        r = .ok (.found props (some (w.pools.pools id).version))) ∨
      ((w.pools.pools id).value = none ∧ r = .ok (.status 404)) ∨
      ∃ code, x = .refusal code ∧ r = .ok (.status code) ∧ 400 ≤ code ∧ code ≤ 599 ∧
        code ≠ 404) := by
  cases x with
  | served =>
      cases h
      refine ⟨rfl, ?_⟩
      cases hv : (w.pools.pools id).value with
      | none => exact .inr (.inl ⟨rfl, rfl⟩)
      | some props => exact .inl ⟨props, rfl, rfl⟩
  | refusal code =>
      obtain ⟨⟨r', g⟩, hg, heq⟩ := Option.map_eq_some_iff.1 h
      simp only [Pools.serve] at hg
      split_ifs at hg with hcode
      cases hg
      cases heq
      exact ⟨rfl, .inr (.inr ⟨code, rfl, rfl, hcode⟩)⟩
  | _ => cases h

/-- A write that names the current version lands; or it is refused. -/
lemma putPool_served {p : Provider} {props old : PoolProps}
    (hold : (w.pools.pools (poolId p)).value = some old) (hprops : listed p a props.services = 0)
    {x : Pick} {r : Except PyErr ℕ}
    (h : serve sp w (.gateway (.putPool (poolId p) props
      (some (.tag (w.pools.pools (poolId p)).version)))) x = some (r, w')) :
    (r = .ok 200 ∧ Wanes a w w' ∧ listed p a (services (w'.pools.pool p)) = 0) ∨
      ∃ code, x = .refusal code ∧ r = .ok code ∧ 400 ≤ code ∧ code ≤ 599 ∧ w' = w := by
  have hzero : listed p a (services (some (sp.store props))) = 0 := by
    rw [Pools.services_some, Pools.listed_store, hprops]
  cases x with
  | served =>
      obtain ⟨⟨r', g⟩, hg, heq⟩ := Option.map_eq_some_iff.1 h
      cases heq
      simp only [Pools.serve, hold] at hg
      rw [if_pos (by simp)] at hg
      cases hg
      refine .inl ⟨rfl, wanes_write (by omega), ?_⟩
      rw [Pools.pool_write_self, hzero]
  | refusal code =>
      obtain ⟨⟨r', g⟩, hg, heq⟩ := Option.map_eq_some_iff.1 h
      simp only [Pools.serve] at hg
      split_ifs at hg with hcode
      cases hg
      cases heq
      exact .inr ⟨code, rfl, rfl, hcode.1, hcode.2, rfl⟩
  | _ => cases h

lemma deletePool_served {p : Provider} {old : PoolProps}
    (hold : (w.pools.pools (poolId p)).value = some old) {x : Pick} {r : Except PyErr ℕ}
    (h : serve sp w (.gateway (.deletePool (poolId p)
      (.tag (w.pools.pools (poolId p)).version))) x = some (r, w')) :
    (r = .ok 200 ∧ Wanes a w w' ∧ listed p a (services (w'.pools.pool p)) = 0) ∨
      ∃ code, x = .refusal code ∧ r = .ok code ∧ 400 ≤ code ∧ code ≤ 599 ∧ code ≠ 404 ∧ w' = w := by
  cases x with
  | served =>
      obtain ⟨⟨r', g⟩, hg, heq⟩ := Option.map_eq_some_iff.1 h
      cases heq
      simp only [Pools.serve, hold] at hg
      rw [if_neg (by simp), if_pos (by simp)] at hg
      cases hg
      refine .inl ⟨rfl, wanes_write (Nat.zero_le _), ?_⟩
      rw [Pools.pool_write_self]
      rfl
  | refusal code =>
      obtain ⟨⟨r', g⟩, hg, heq⟩ := Option.map_eq_some_iff.1 h
      simp only [Pools.serve] at hg
      split_ifs at hg with hcode
      cases hg
      cases heq
      exact .inr ⟨code, rfl, rfl, hcode.1, hcode.2.1, hcode.2.2, rfl⟩
  | _ => cases h

lemma deletePolicy_served {id : String} {x : Pick} {r : Except PyErr Unit}
    (h : serve sp w (.gateway (.deletePolicy id)) x = some (r, w')) :
    (Wanes a w w' ∧ w'.pools = w.pools) ∧ ∀ e, r = .error e → e = .resourceNotFound := by
  cases x with
  | served =>
      cases h
      exact ⟨⟨⟨rfl, rfl, fun _ => le_rfl, fun _ hb => hb⟩, rfl⟩, fun _ => found_error⟩
  | _ => cases h

lemma deleteBackend_served {b : String} {x : Pick} {r : Except PyErr Unit}
    (h : serve sp w (.gateway (.deleteBackend b)) x = some (r, w')) :
    (Wanes a w w' ∧ w'.backends b = false) ∧ ∀ e, r = .error e → e = .resourceNotFound := by
  cases x with
  | served =>
      cases h
      refine ⟨⟨⟨rfl, rfl, fun _ => le_rfl, fun b' hb' => ?_⟩, Function.update_self _ _ _⟩,
        fun _ => found_error⟩
      by_cases hb : b' = b
      · simp [hb]
      · simpa [hb] using hb'
  | _ => cases h

end Gateway

/-- What a removal from the pools relies on: a call that returns has had its effect, and one that is
refused has a status that says so.  `X` is where the failures lead, as seen from the start. -/
structure Removal {env : Env accountsApi Unit Estate} (D : Discipline env)
    (cond : StepCond accountsApi Unit Estate) (a : AccountId) (X : Estate → Estate → Prop) :
      Prop where
  later : ∀ {w w₁ w₂}, Wanes a w w₁ → X w₁ w₂ → X w w₂
  armToken : ∀ w, D.wpE cond () (ask (.gateway .armToken)) (fun _ w' => w' = w) (fun _ => X w) w
  getPool : ∀ w id, D.wpE cond () (ask (.gateway (.getPool id)))
    (fun reply w' => w' = w ∧ ((∃ props, (w.pools.pools id).value = some props ∧
        reply = .found props (some (w.pools.pools id).version)) ∨
      ((w.pools.pools id).value = none ∧ reply = .status 404) ∨
      ∃ code, reply = .status code ∧ 400 ≤ code ∧ code ≤ 599 ∧ code ≠ 404 ∧ X w w))
    (fun _ => X w) w
  putPool : ∀ w p props old, (w.pools.pools (poolId p)).value = some old →
    listed p a props.services = 0 → D.wpE cond ()
      (ask (.gateway (.putPool (poolId p) props (some (.tag (w.pools.pools (poolId p)).version)))))
      (fun status w' =>
        (status = 200 ∧ Wanes a w w' ∧ listed p a (services (w'.pools.pool p)) = 0) ∨
          (400 ≤ status ∧ status ≤ 599 ∧ X w w')) (fun _ => X w) w
  deletePool : ∀ w p old, (w.pools.pools (poolId p)).value = some old → D.wpE cond ()
      (ask (.gateway (.deletePool (poolId p) (.tag (w.pools.pools (poolId p)).version))))
      (fun status w' =>
        (status = 200 ∧ Wanes a w w' ∧ listed p a (services (w'.pools.pool p)) = 0) ∨
          (400 ≤ status ∧ status ≤ 599 ∧ status ≠ 404 ∧ X w w')) (fun _ => X w) w
  deletePolicy : ∀ w id, D.wpE cond () (ask (.gateway (.deletePolicy id)))
    (fun _ w' => Wanes a w w' ∧ w'.pools = w.pools)
    (fun e w' => (e = .resourceNotFound ∧ Wanes a w w' ∧ w'.pools = w.pools) ∨
      (e ≠ .resourceNotFound ∧ X w w')) w
  deleteBackend : ∀ w b, D.wpE cond () (ask (.gateway (.deleteBackend b)))
    (fun _ w' => Wanes a w w' ∧ w'.backends b = false)
    (fun e w' => (e = .resourceNotFound ∧ Wanes a w w' ∧ w'.backends b = false) ∨
      (e ≠ .resourceNotFound ∧ (∀ code, e ≠ .httpResponse code) ∧ X w w')) w

/-- The account has left the pools of the providers that are not in the list, and their backends
are gone. -/
def Cleared (a : AccountId) (ps : List Provider) (w : Estate) : Prop :=
  ∀ p, p ∉ ps → listed p a (services (w.pools.pool p)) = 0 ∧ w.backends (backendId p a) = false

lemma Cleared.wanes {a : AccountId} {ps : List Provider} {w w' : Estate} (h : Cleared a ps w)
    (hw : Wanes a w w') : Cleared a ps w' := fun p hp =>
  ⟨Nat.le_zero.1 ((hw.members p).trans (h p hp).1.le), hw.backends _ (h p hp).2⟩

/-- The recorded backends that are not named after the account and not in the list are gone. -/
def ExtraCleared (a : AccountId) (backendIds left : List String) (w : Estate) : Prop :=
  ∀ b ∈ backendIds, b ∉ left → a.id.toList.isSuffixOf b.toList = false → w.backends b = false

section Removal

variable {env : Env accountsApi Unit Estate} {D : Discipline env}
variable {cond : StepCond accountsApi Unit Estate} {a : AccountId} {X : Estate → Estate → Prop}

lemma Removal.detachApiPolicy (h : Removal D cond a X) (backendBase : String) (p : Provider)
    (w : Estate) :
    D.wpE cond () (Pools.detachApiPolicy (provisioner backendBase) p)
      (fun _ w' => Wanes a w w' ∧ w'.pools = w.pools) (fun _ => X w) w := by
  refine (Discipline.wpE_tryCatch _ _).2 (Discipline.wpE_mono (fun _ _ h => h) (fun e w' he => ?_)
    (h.deletePolicy w p.apiId))
  rcases he with ⟨rfl, hdone⟩ | ⟨hne, hX⟩
  · exact hdone
  · cases e with
    | resourceNotFound => exact absurd rfl hne
    | _ => exact hX

/-- A pool that the account has left does not list it. -/
lemma Removal.poolRemoveService (h : Removal D cond a X) (backendBase : String) (p : Provider)
    (w : Estate) :
    D.wpE cond ()
      (Pools.poolRemoveService (provisioner backendBase) (poolId p) (backendId p a) (some p))
      (fun _ w' => Wanes a w w' ∧ listed p a (services (w'.pools.pool p)) = 0)
        (fun _ => X w) w := by
  have hraise : ∀ (status : ℕ) (w₁ w' : Estate), Wanes a w w₁ →
      (status = 200 ∧ Wanes a w₁ w' ∧ listed p a (services (w'.pools.pool p)) = 0) ∨
        (400 ≤ status ∧ status ≤ 599 ∧ X w₁ w') →
      D.wpE cond () (Pools.raiseForArm status)
        (fun _ w' => Wanes a w w' ∧ listed p a (services (w'.pools.pool p)) = 0) (fun _ => X w)
        w' := by
    rintro status w₁ w' hw₁ (⟨rfl, hw', hgone⟩ | ⟨hlow, hhigh, hX⟩)
    · exact ⟨hw₁.trans hw', hgone⟩
    · unfold Pools.raiseForArm
      rw [if_pos ⟨hlow, hhigh⟩]
      exact h.later hw₁ hX
  unfold Pools.poolRemoveService
  refine Discipline.wpE_then (h.armToken w) (fun _ w₁ hw₁ => ?_)
  subst hw₁
  refine Discipline.wpE_then (h.getPool w₁ (poolId p)) (fun reply w₂ hread => ?_)
  obtain ⟨rfl, ⟨props, hpool, rfl⟩ | ⟨hnone, rfl⟩ | ⟨code, rfl, hlow, hhigh, hne, hX⟩⟩ := hread
  · change D.wpE cond () (if (Pools.others p a props.services).length = props.services.length
      then _ else if Pools.others p a props.services = [] then _ else _) _ _ w₂
    split_ifs with hlen hempty
    · refine ⟨Wanes.refl a w₂, ?_⟩
      rw [Pools.World.pool, hpool]
      exact Pools.listed_eq_zero_of_length hlen
    · -- The last member: the policy goes first, then the pool.
      refine Discipline.wpE_then (h.detachApiPolicy _ p w₂) (fun _ w₃ hw₃ => ?_)
      have hpool₃ : (w₃.pools.pools (poolId p)).value = some props := by rw [hw₃.2, hpool]
      have hdelete := h.deletePool w₃ p props hpool₃
      rw [hw₃.2] at hdelete
      refine (Discipline.wpE_bind _ _).2 (Discipline.wpE_mono (fun status w₄ hstatus => ?_)
        (fun _ _ hX => h.later hw₃.1 hX) hdelete)
      rcases hstatus with ⟨rfl, hgone⟩ | ⟨hlow, hhigh, hne, hX⟩
      · exact hraise 200 w₃ w₄ hw₃.1 (.inl ⟨rfl, hgone⟩)
      · rw [if_neg hne]
        exact hraise status w₃ w₄ hw₃.1 (.inr ⟨hlow, hhigh, hX⟩)
    · refine Discipline.wpE_then (h.putPool w₂ p _ props hpool (Pools.listed_others_self p a _))
        (fun status w₃ hw₃ => ?_)
      exact hraise status w₂ w₃ (Wanes.refl a w₂) hw₃
  · refine ⟨Wanes.refl a w₂, ?_⟩
    rw [Pools.World.pool, hnone]
    rfl
  · change D.wpE cond () (if code = 404 then return () else Pools.raiseForArm code) _ _ w₂
    rw [if_neg hne]
    exact hraise code w₂ w₂ (Wanes.refl a w₂) (.inr ⟨hlow, hhigh, hX⟩)

lemma Removal.removeBackend (h : Removal D cond a X) (backendBase b : String) (w : Estate) :
    D.wpE cond () (Pools.removeBackend (provisioner backendBase) b)
      (fun _ w' => Wanes a w w' ∧ w'.backends b = false) (fun _ => X w) w := by
  refine (Discipline.wpE_tryCatch _ _).2 (Discipline.wpE_mono (fun _ _ h => h) (fun e w' he => ?_)
    (h.deleteBackend w b))
  rcases he with ⟨rfl, hdone⟩ | ⟨hne, hcode, hX⟩
  · exact hdone
  · cases e with
    | resourceNotFound => exact absurd rfl hne
    | httpResponse code => exact absurd rfl (hcode code)
    | _ => exact hX

/-- The removal clears the gateway of the account; where it raises, it has only taken away. -/
lemma Removal.removeHubFromPools (h : Removal D cond a X) (backendBase : String)
    (backendIds : List String) (w : Estate) :
    D.wpE cond () (Pools.removeHubFromPools (provisioner backendBase) a backendIds)
      (fun _ w' => Wanes a w w' ∧ Cleared a [] w' ∧ ExtraCleared a backendIds [] w')
      (fun _ => X w) w := by
  have hproviders : D.wpE cond () (Pools.providers.forM (fun p => do
      Pools.poolRemoveService (provisioner backendBase) (poolId p) (backendId p a) (some p)
      Pools.removeBackend (provisioner backendBase) (backendId p a)))
      (fun _ w' => Wanes a w w' ∧ Cleared a [] w') (fun _ => X w) w := by
    refine Discipline.wpE_forM (P := fun ps w' => Wanes a w w' ∧ Cleared a ps w')
      (fun p ps w₁ hw₁ => ?_) ⟨Wanes.refl a w, fun p hp => absurd (Pools.mem_providers p) hp⟩
    refine Discipline.wpE_then (Discipline.wpE_mono (fun _ _ h => h)
      (fun _ _ hX => h.later hw₁.1 hX) (h.poolRemoveService backendBase p w₁)) (fun _ w₂ hw₂ => ?_)
    refine Discipline.wpE_mono (fun _ w₃ hw₃ => ?_)
      (fun _ _ hX => h.later (hw₁.1.trans hw₂.1) hX)
        (h.removeBackend backendBase (backendId p a) w₂)
    refine ⟨hw₁.1.trans (hw₂.1.trans hw₃.1), fun q hq => ?_⟩
    by_cases hqp : q = p
    · subst hqp
      exact ⟨Nat.le_zero.1 ((hw₃.1.members q).trans hw₂.2.le), hw₃.2⟩
    · exact (hw₁.2.wanes (hw₂.1.trans hw₃.1)) q (by simp [hqp, hq])
  refine Discipline.wpE_then hproviders (fun _ w₁ hw₁ => ?_)
  refine Discipline.wpE_mono (fun _ w' hw' => ?_) (fun _ _ h => h) (Discipline.wpE_forM
    (P := fun left w' => (Wanes a w w' ∧ Cleared a [] w') ∧ ExtraCleared a backendIds left w')
    (fun b left w₂ hw₂ => ?_) ⟨hw₁, fun b hb hleft => absurd hb hleft⟩)
  · exact ⟨hw'.1.1, hw'.1.2, hw'.2⟩
  · -- An id that is named after the account is skipped.
    split_ifs with hsuffix
    · refine ⟨hw₂.1, fun b' hb' hleft hnamed => ?_⟩
      by_cases hbb : b' = b
      · subst hbb
        rw [hsuffix] at hnamed
        cases hnamed
      · exact hw₂.2 b' hb' (by simp [hbb, hleft]) hnamed
    · refine Discipline.wpE_mono (fun _ w₃ hw₃ => ?_) (fun _ _ hX => h.later hw₂.1.1 hX)
        (h.removeBackend backendBase b w₂)
      refine ⟨⟨hw₂.1.1.trans hw₃.1, hw₂.1.2.wanes hw₃.1⟩, fun b' hb' hleft hnamed => ?_⟩
      by_cases hbb : b' = b
      · rw [hbb]
        exact hw₃.2
      · exact hw₃.1.backends b' (hw₂.2 b' hb' (by simp [hbb, hleft]) hnamed)

end Removal

/-! ## The end of a teardown -/

/-- The row, the pools and the backends are as they were. -/
structure Same (w w' : Estate) : Prop where
  row : w'.row = w.row
  pools : w'.pools = w.pools
  backends : w'.backends = w.backends

lemma Same.trans {w w₁ w₂ : Estate} (h : Same w w₁) (h' : Same w₁ w₂) : Same w w₂ :=
  ⟨h'.row.trans h.row, h'.pools.trans h.pools, h'.backends.trans h.backends⟩

/-- The gateway and Azure are cleared of the account, and only its secrets and its row remain. -/
structure Bare (a : AccountId) (acct : GitHubAccount) (w : Estate) : Prop where
  hub : w.hub = false
  cleared : Cleared a [] w
  extra : ExtraCleared a acct.backendIds [] w

/-- The secrets of the references that are not in the list are gone. -/
def SecretsGone (refs left : List (Option String)) (w : Estate) : Prop :=
  ∀ ref ∈ refs, ref ∉ left → ∀ name ∈ truthy ref, w.secrets name = none

/-- The resources are gone, and the secrets of the references that are not in the list. -/
structure Swept (a : AccountId) (acct : GitHubAccount) (left : List (Option String)) (w : Estate) :
    Prop where
  bare : Bare a acct w
  secrets : SecretsGone (secretRefs a acct) left w

section Sweep

variable {a : AccountId} {acct : GitHubAccount} {w w' : Estate}

/-- What the gateway is cleared of stays away while the hub is destroyed. -/
lemma Same.bare (h : Same w w') (hcleared : Cleared a [] w)
    (hextra : ExtraCleared a acct.backendIds [] w)
    (hhub : w'.hub = false) : Bare a acct w' := by
  refine ⟨hhub, fun p hp => ?_, fun b hb hleft hnamed => ?_⟩
  · rw [h.pools, h.backends]
    exact hcleared p hp
  · rw [h.backends]
    exact hextra b hb hleft hnamed

lemma Bare.swept (h : Bare a acct w) : Swept a acct (secretRefs a acct) w :=
  ⟨h, fun _ hr hleft => absurd hr hleft⟩

/-- A reference that is not set needs no deletion, and counts as done. -/
lemma Swept.skip {ref : Option String} {left : List (Option String)} (hname : truthy ref = none)
    (h : Swept a acct (ref :: left) w) : Swept a acct left w := by
  refine ⟨h.bare, fun ref' hr hleft name hn => ?_⟩
  by_cases href : ref' = ref
  · rw [href, hname] at hn
    cases hn
  · exact h.secrets ref' hr (by simp [href, hleft]) name hn

/-- A reference that is set, and its secret deleted: one reference less is left. -/
lemma Swept.delete {ref : Option String} {left : List (Option String)} {name : String}
    (hname : truthy ref = some name) (h : Swept a acct (ref :: left) w) :
    Swept a acct left { w with secrets := Function.update w.secrets name none } := by
  refine ⟨⟨h.bare.hub, h.bare.cleared, h.bare.extra⟩, fun ref' hr hleft name' hn => ?_⟩
  by_cases hsame : name' = name
  · simp [hsame]
  · have href : ref' ≠ ref := by
      rintro rfl
      exact hsame (Option.some.inj (hn.symm.trans hname))
    simpa [hsame] using h.secrets ref' hr (by simp [href, hleft]) name' hn

/-- With the row, all is gone, since no reference is left. -/
lemma Swept.nothingLeft (h : Swept a acct [] w) : NothingLeft a acct { w with row := none } where
  row := rfl
  hub := h.bare.hub
  members p := (h.bare.cleared p (by simp)).1
  backends p := (h.bare.cleared p (by simp)).2
  extra b hb hnamed := h.bare.extra b hb (by simp) hnamed
  secrets ref hr name hn := h.secrets ref hr (by simp) name hn

end Sweep

/-! ## Attempts under failures -/

/-- Attempts that run alone: nothing but their own calls changes the account. -/
def rules (sp : Spelling) : Discipline (env sp) := .alone env_drift (fun _ => True)

section Failures

variable {sp : Spelling} {a : AccountId} {w : Estate}

abbrev Ok {α : Type} (sp : Spelling) (p : Handler α) (Q : α → Estate → Prop)
    (X : PyErr → Estate → Prop) (w : Estate) : Prop :=
  (rules sp).wpE Sound () p Q X w

/-- A call is served, or it is refused, or its answer is lost.  Only an answer that is served says
that there is nothing. -/
lemma ok_ask_error {o : Call} {Q : o.Answer → Estate → Prop} {X : PyErr → Estate → Prop}
    (hserved : ∀ x r w', serve sp w o x = some (r, w') → Sound () w o r →
      (∀ a, r = .ok a → Q a w') ∧ ∀ e, r = .error e → X e w')
    (hlost : ∀ x r w' e, e ≠ .resourceNotFound → serve sp w o x = some (r, w') →
      Sound () w o (.error e) → X e w')
    (hrefused : ∀ e, e ≠ .resourceNotFound → Sound () w o (.error e) → X e w) :
    Ok sp (ask o) Q X w := by
  refine Discipline.alone_ask (env sp) env_drift (fun _ x r w' ha hok => ⟨trivial, ?_⟩)
  rcases Env.faulty_act ha with ⟨p, r₀, hs, rfl | ⟨e, he, rfl⟩⟩ | ⟨rfl, e, he, rfl⟩
  · exact hserved p r w' hs hok
  · refine ⟨?_, ?_⟩
    · rintro a ⟨⟩
    · rintro e' ⟨⟩
      exact hlost p r₀ w' e (of_decide_eq_true he) hs hok
  · refine ⟨?_, ?_⟩
    · rintro a ⟨⟩
    · rintro e' ⟨⟩
      exact hrefused e (of_decide_eq_true he) hok

lemma ok_ask {o : Call} {Q : o.Answer → Estate → Prop} {X : PyErr → Estate → Prop}
    (hserved : ∀ x r w', serve sp w o x = some (r, w') → Sound () w o r →
      (∀ a, r = .ok a → Q a w') ∧ ∀ e, r = .error e → X e w')
    (hlost : ∀ x r w' e, serve sp w o x = some (r, w') → Sound () w o (.error e) → X e w')
    (hrefused : ∀ e, Sound () w o (.error e) → X e w) : Ok sp (ask o) Q X w :=
  ok_ask_error hserved (fun x r w' e _ => hlost x r w' e) (fun e _ => hrefused e)

/-- The row is this one, and the vault has its token. -/
def Standing (acct : GitHubAccount) (w : Estate) : Prop := w.row = some acct ∧ TokenKept w

lemma Standing.wanes {acct : GitHubAccount} {w' : Estate} (hw : Standing acct w)
    (h : Wanes a w w') : Standing acct w' := by
  refine ⟨h.row.trans hw.1, fun acct' hacct ref href => ?_⟩
  rw [h.row] at hacct
  rw [h.secrets]
  exact hw.2 acct' hacct ref href

/-- Where calls may fail, the removal goes only forward: a failure leaves less of the account than
there was. -/
lemma removal_rules : Removal (rules sp) Sound a (Wanes a) where
  later h h' := h.trans h'
  armToken w := by
    refine ok_ask (fun x r w' hs _ => ?_) (fun x r w' e hs _ => ?_) (fun _ _ => Wanes.refl a w)
    · obtain ⟨rfl, rfl⟩ := armToken_served hs
      exact ⟨fun _ _ => rfl, fun _ _ => Wanes.refl a w'⟩
    · obtain ⟨rfl, -⟩ := armToken_served hs
      exact Wanes.refl a w'
  getPool w id := by
    refine ok_ask (fun x r w' hs _ => ?_) (fun x r w' e hs _ => ?_) (fun _ _ => Wanes.refl a w)
    · obtain ⟨rfl, hr⟩ := getPool_served hs
      refine ⟨fun reply hreply => ⟨rfl, ?_⟩, fun _ _ => Wanes.refl a w'⟩
      subst hreply
      rcases hr with ⟨props, hv, hr⟩ | ⟨hv, hr⟩ | ⟨code, -, hr, hcode⟩
      · exact .inl ⟨props, hv, Except.ok.inj hr⟩
      · exact .inr (.inl ⟨hv, Except.ok.inj hr⟩)
      · exact .inr (.inr ⟨code, Except.ok.inj hr, hcode.1, hcode.2.1, hcode.2.2, Wanes.refl a w'⟩)
    · obtain ⟨rfl, -⟩ := getPool_served hs
      exact Wanes.refl a w'
  putPool w p props old hold hprops := by
    refine ok_ask (fun x r w' hs _ => ?_) (fun x r w' e hs _ => ?_) (fun _ _ => Wanes.refl a w)
    · rcases putPool_served hold hprops hs with ⟨rfl, hw⟩ | ⟨code, -, rfl, hlow, hhigh, rfl⟩
      · refine ⟨fun status hstatus => .inl ⟨(Except.ok.inj hstatus).symm, hw⟩, ?_⟩
        rintro _ ⟨⟩
      · refine ⟨fun status hstatus => ?_, ?_⟩
        · cases hstatus
          exact .inr ⟨hlow, hhigh, Wanes.refl a w'⟩
        · rintro _ ⟨⟩
    -- The answer of a put may be lost after the pool has been written; the others then find it gone
    -- on.
    · rcases putPool_served hold hprops hs with ⟨-, hw, -⟩ | ⟨-, -, -, -, -, rfl⟩
      · exact hw
      · exact Wanes.refl a w'
  deletePool w p old hold := by
    refine ok_ask (fun x r w' hs _ => ?_) (fun x r w' e hs _ => ?_) (fun _ _ => Wanes.refl a w)
    · rcases deletePool_served (a := a) hold hs with
        ⟨rfl, hw⟩ | ⟨code, -, rfl, hlow, hhigh, hne, rfl⟩
      · refine ⟨fun status hstatus => .inl ⟨(Except.ok.inj hstatus).symm, hw⟩, ?_⟩
        rintro _ ⟨⟩
      · refine ⟨fun status hstatus => ?_, ?_⟩
        · cases hstatus
          exact .inr ⟨hlow, hhigh, hne, Wanes.refl a w'⟩
        · rintro _ ⟨⟩
    · rcases deletePool_served (a := a) hold hs with ⟨-, hw, -⟩ | ⟨-, -, -, -, -, -, rfl⟩
      · exact hw
      · exact Wanes.refl a w'
  deletePolicy w id := by
    refine ok_ask_error (fun x r w' hs _ => ?_) (fun x r w' e he hs _ => ?_) (fun e he _ => ?_)
    · obtain ⟨hw, hr⟩ := deletePolicy_served (a := a) hs
      exact ⟨fun _ _ => hw, fun e he => .inl ⟨hr e he, hw⟩⟩
    · exact .inr ⟨he, (deletePolicy_served (a := a) hs).1.1⟩
    · exact .inr ⟨he, Wanes.refl a w⟩
  deleteBackend w b := by
    -- A backend is sure to go only where the failure of its deletion is not one that is swallowed.
    have hcaught : ∀ {e : PyErr}, Sound () w (.gateway (.deleteBackend b)) (.error e) →
        ∀ code, e ≠ .httpResponse code := by
      rintro _ hsound code rfl
      cases hsound
    refine ok_ask_error (fun x r w' hs _ => ?_) (fun x r w' e he hs hsound => ?_)
      (fun e he hsound => ?_)
    · obtain ⟨hw, hr⟩ := deleteBackend_served (a := a) hs
      exact ⟨fun _ _ => hw, fun e he => .inl ⟨hr e he, hw⟩⟩
    · exact .inr ⟨he, hcaught hsound, (deleteBackend_served (a := a) hs).1.1⟩
    · exact .inr ⟨he, hcaught hsound, Wanes.refl a w⟩

/-- The calls of a run touch neither the row nor the gateway, and no token is lost. -/
def Working (w w' : Estate) : Prop :=
  Same w w' ∧ ∀ name, (w.secrets name).isSome = true → (w'.secrets name).isSome = true

lemma Working.refl (w : Estate) : Working w w := ⟨⟨rfl, rfl, rfl⟩, fun _ => id⟩

lemma Working.trans {w w₁ w₂ : Estate} (h : Working w w₁) (h' : Working w₁ w₂) : Working w w₂ :=
  ⟨h.1.trans h'.1, fun name hname => h'.2 name (h.2 name hname)⟩

lemma Standing.working {acct : GitHubAccount} {w' : Estate} (hw : Standing acct w)
    (h : Working w w') : Standing acct w' := by
  refine ⟨h.1.row.trans hw.1, fun acct' hacct ref href => h.2 ref ?_⟩
  rw [h.1.row] at hacct
  exact hw.2 acct' hacct ref href

/-- The calls of a run of the workflow, which change nothing but the run and the hub. -/
def OfRun : Call → Prop
  | .setJobInput _ _ | .dispatch _ | .listRuns _ | .getRun _ => True
  | _ => False

lemma working_serve {o : Call} (ho : OfRun o) {x : Pick} {r : accountsApi.Reply o} {w' : Estate}
    (h : serve sp w o x = some (r, w')) : Working w w' := by
  unfold serve at h
  cases o with
  | setJobInput name value =>
      cases x with
      | served =>
          cases h
          refine ⟨⟨rfl, rfl, rfl⟩, fun n hn => ?_⟩
          by_cases hname : n = name
          · simp [hname]
          · simpa [hname] using hn
      | _ => cases h
  | dispatch action | listRuns n | getRun n =>
      -- The run and the hub may change, and with them neither the row nor a secret.
      cases x <;> cases h
      exact ⟨⟨rfl, rfl, rfl⟩, fun _ hn => hn⟩
  | _ => exact ho.elim

lemma working_ask {w₀ : Estate} (o : Call) (ho : OfRun o) :
    (rules sp).Steady Sound () (Working w₀) (ask o) := fun _ hw =>
  ok_ask (fun _ _ _ hs _ => ⟨fun _ _ => hw.trans (working_serve ho hs),
    fun _ _ => hw.trans (working_serve ho hs)⟩)
    (fun _ _ _ _ hs _ => hw.trans (working_serve ho hs)) (fun _ _ => hw)

/-- A run that is seen to succeed has destroyed the hub. -/
lemma ok_pollRun {w₀ : Estate} (n rounds : ℕ) (hw : Working w₀ w) :
    Ok sp (TerraformRunner.pollRun runner n a rounds) (fun _ w' => Working w₀ w' ∧ w'.hub = false)
      (fun _ => Working w₀) w := by
  induction rounds generalizing w with
  | zero => exact hw
  | succ rounds ih =>
      have hpoll : Ok sp (ask (.getRun n)) (fun conclusion w' => Working w₀ w' ∧
          (conclusion = some true → w'.hub = false)) (fun _ => Working w₀) w := by
        refine ok_ask (fun x r w' hs _ => ?_)
          (fun _ _ _ _ hs _ => hw.trans (working_serve (o := .getRun n) trivial hs)) (fun _ _ => hw)
        have hw' := hw.trans (working_serve (o := .getRun n) trivial hs)
        refine ⟨fun conclusion hr => ⟨hw', ?_⟩, fun _ _ => hw'⟩
        rintro rfl
        cases x with
        | progress conclusion =>
            cases hr
            cases hs
            simp
        | _ => cases hs
      refine Discipline.wpE_then hpoll (fun conclusion w₁ hw₁ => ?_)
      rcases conclusion with _ | _ | _
      · exact ih hw₁.1
      · exact hw₁.1
      · exact ⟨hw₁.1, hw₁.2 rfl⟩

lemma ok_destroyHub (rounds : Rounds) (token : String) :
    Ok sp (TerraformRunner.destroyHub runner rounds a token)
      (fun _ w' => Working w w' ∧ w'.hub = false) (fun _ => Working w) w := by
  refine Discipline.wpE_then (working_ask (.setJobInput _ _) trivial w (Working.refl w))
    (fun _ w₁ hw₁ => ?_)
  refine Discipline.wpE_then (working_ask (.dispatch .destroy) trivial w₁ hw₁) (fun n w₂ hw₂ => ?_)
  refine Discipline.wpE_then (TerraformRunner.steady_findRun
    (fun n => working_ask (.listRuns n) trivial) n rounds.find w₂ hw₂) (fun _ w₃ hw₃ => ?_)
  exact ok_pollRun n rounds.poll hw₃

lemma serve_commit {ch : AccountChanges} {x : Pick} {r : Except PyErr Unit} {w' : Estate}
    (h : serve sp w (.commitAccount ch) x = some (r, w')) : w' = (commit w ch).2 := by
  cases x with
  | served => exact (congrArg Prod.snd (Option.some.inj h)).symm
  | _ => cases h

/-- What is shown of every attempt: the row is gone or says that the deletion has failed, and the
account is whole or gone entirely. -/
def Settled (a : AccountId) (acct₀ : GitHubAccount) (w : Estate) : Prop := Ended w ∧ Whole a acct₀ w

lemma settled_gone {acct₀ : GitHubAccount} (h : NothingLeft a acct₀ w) : Settled a acct₀ w := by
  refine ⟨fun acct hacct => ?_, fun acct hacct => ?_, fun acct hacct => ?_, fun _ => h⟩
  · rw [h.row] at hacct
    cases hacct
  · rw [h.row] at hacct
    cases hacct
  · rw [h.row] at hacct
    cases hacct

/-- A row of the account, and its token in the vault. -/
lemma Standing.whole {acct₀ acct : GitHubAccount} (hrefers : Refers acct₀ acct)
    (hw : Standing acct w) : Whole a acct₀ w := by
  refine ⟨hw.2, fun acct' hacct => ?_, fun hnone => ?_⟩
  · rw [hw.1] at hacct
    cases hacct
    exact hrefers
  · rw [hw.1] at hnone
    cases hnone

/-- A change of the row that leaves its references alone. -/
lemma Standing.change {acct acct' : GitHubAccount} (hrefers : Refers acct acct')
    (hw : Standing acct w) : Standing acct' { w with row := some acct' } := by
  refine ⟨rfl, ?_⟩
  rintro _ ⟨⟩ ref href
  exact hw.2 acct hw.1 ref (hrefers.token ▸ href)

/-- The commit of a failure: the row is kept, with everything that the next attempt needs. -/
lemma ok_fail {acct₀ acct : GitHubAccount} (detail : String) (hrefers : Refers acct₀ acct)
    (hw : Standing acct w) :
    Ok sp (fail acct {} detail) (fun _ => Settled a acct₀) (fun _ => Settled a acct₀) w := by
  set ch : AccountChanges := {
    status := changed acct.status .failed
    errorDetail := changed acct.errorDetail (some detail) } with hch
  have happlied : Refers acct (ch.apply acct) := ⟨rfl, rfl, rfl, rfl⟩
  -- A row that says so already is as good as a commit.
  have hsame : acct.status = .failed → Settled a acct₀ w := by
    intro hstatus
    refine ⟨fun acct' hacct => ?_, hw.whole hrefers⟩
    rw [hw.1] at hacct
    cases hacct
    exact hstatus
  have happly : Settled a acct₀ { w with row := some (ch.apply acct) } := by
    refine ⟨?_, (hw.change happlied).whole (hrefers.trans happlied)⟩
    rintro _ ⟨⟩
    simp only [hch, AccountChanges.apply, changed]
    split_ifs with hstatus
    · exact hstatus.symm
    · rfl
  have hcommit : Settled a acct₀ (commit w ch).2 := by
    unfold commit
    split_ifs with hempty
    · refine hsame ?_
      by_contra hne
      simp [AccountChanges.isEmpty, hch, changed, Ne.symm hne] at hempty
    · rw [hw.1]
      exact happly
  -- A commit that fails leaves the row as it was; then it said so already.
  have hfailed : ∀ e, Sound () w (.commitAccount ch) (.error e) → Settled a acct₀ w := by
    intro e hsound
    refine hsame ?_
    by_contra hne
    have := hsound (by simp [hch, changed, Ne.symm hne])
    cases this
  refine ok_ask (fun x r w' hs _ => ?_) (fun x r w' e hs _ => ?_) hfailed
  · rw [serve_commit hs]
    exact ⟨fun _ _ => hcommit, fun _ _ => hcommit⟩
  · rw [serve_commit hs]
    exact hcommit

lemma ok_withDb {α : Type} {P : Estate → Prop} {p : Handler α}
    (h : Ok sp p (fun _ => P) (fun _ => P) w) : Ok sp (withDb p) (fun _ => P) (fun _ => P) w := by
  have hclose : ∀ w, P w → Ok sp (ask .close) (fun _ => P) (fun _ => P) w := by
    intro w hw
    refine ok_ask (fun x r w' hs _ => ?_) (fun x r w' e hs _ => ?_) (fun _ _ => hw)
    · cases x with
      | served =>
          cases hs
          exact ⟨fun _ _ => hw, fun _ _ => hw⟩
      | _ => cases hs
    · cases x with
      | served =>
          cases hs
          exact hw
      | _ => cases hs
  exact Discipline.wpE_tryFinally (Discipline.wpE_mono (fun _ w hw => hclose w hw)
    (fun _ w hw => hclose w hw) h)

/-- A gate is passed, or ends the attempt with the commit of a failure. -/
lemma ok_gate {acct₀ acct : GitHubAccount} {p : Handler Unit} {Q : Estate → Prop} (detail : String)
    (hrefers : Refers acct₀ acct) (hp : Ok sp p (fun _ => Q) (fun _ => Standing acct) w) :
    Ok sp (gate acct p detail) (fun passed w => if passed then Q w else Settled a acct₀ w)
      (fun _ => Settled a acct₀) w := by
  refine (Discipline.wpE_tryCatch _ _).2 ((Discipline.wpE_bind _ _).2 ?_)
  refine Discipline.wpE_mono (fun _ w hw => ?_) (fun e w hw => ?_) hp
  · exact hw
  · exact (Discipline.wpE_bind _ _).2 (ok_fail _ hrefers hw)

/-- A call outside the gates that only reads, and that the condition lets not fail. -/
lemma ok_read {o : Call} {Q : o.Answer → Estate → Prop} {X : PyErr → Estate → Prop}
    (hsound : ∀ r, Sound () w o r → r.isOk = true)
    (hQ : ∀ x v w', serve sp w o x = some (.ok v, w') → Q v w') : Ok sp (ask o) Q X w := by
  have hno : ∀ e, ¬ Sound () w o (.error e) := fun e h => by cases hsound _ h
  refine ok_ask (fun x r w' hs hok => ?_) (fun _ _ _ e _ hok => absurd hok (hno e))
    (fun e hok => absurd hok (hno e))
  cases r with
  | ok v =>
      refine ⟨?_, ?_⟩
      · rintro _ ⟨⟩
        exact hQ x v w' hs
      · rintro _ ⟨⟩
  | error e => exact absurd hok (hno e)

/-- Reading the token changes nothing, and a vault that fails is asked again by the next attempt. -/
lemma ok_readToken {acct : GitHubAccount} {P : Estate → Prop} {X : PyErr → Estate → Prop}
    (hw : P w) :
    Ok sp (readToken acct) (fun _ => P) X w := by
  unfold readToken
  cases truthy acct.oauthTokenKvRef with
  | none => exact hw
  | some ref =>
      refine ok_read (o := .getSecret ref) (fun _ h => h) (fun x v w' hs => ?_)
      cases x with
      | served =>
          obtain ⟨-, rfl⟩ := Prod.mk.inj (Option.some.inj hs)
          exact hw
      | _ => cases hs

/-- A deletion that is not passed over can only fail by finding nothing. -/
lemma eq_of_deleted {e : PyErr} (h : deleted (.error e) = true) : e = .resourceNotFound := by
  cases e with
  | resourceNotFound => rfl
  | _ => cases h

/-- The end of a teardown: nothing stops it, and all is gone with the row. -/
lemma ok_remove {acct : GitHubAccount} (hw : Bare a acct w) :
    Ok sp (do
      deleteSecrets (secretRefs a acct)
      ask .deleteAccount) (fun _ => NothingLeft a acct) (fun _ => NothingLeft a acct) w := by
  have hsecrets : Ok sp (deleteSecrets (secretRefs a acct)) (fun _ => Swept a acct [])
      (fun _ => NothingLeft a acct) w := by
    refine Discipline.wpE_forM (P := Swept a acct) (fun ref left w₁ hw₁ => ?_) hw.swept
    cases hname : truthy ref with
    | none => exact hw₁.skip hname
    | some name =>
        have hnot : ∀ {e : PyErr}, e ≠ .resourceNotFound →
            ¬ Sound () w₁ (.deleteSecret name) (.error e) := fun hne hsound =>
          hne (eq_of_deleted hsound)
        refine (Discipline.wpE_tryCatch _ _).2 (ok_ask_error (fun x r w' hs _ => ?_)
          (fun _ _ _ _ hne _ hsound => absurd hsound (hnot hne))
          (fun _ hne hsound => absurd hsound (hnot hne)))
        cases x with
        | served =>
            cases hs
            exact ⟨fun _ _ => hw₁.delete hname, fun _ _ => hw₁.delete hname⟩
        | _ => cases hs
  refine Discipline.wpE_then hsecrets (fun _ w₁ hw₁ => ?_)
  refine ok_read (o := .deleteAccount) (fun _ h => h) (fun x v w' hs => ?_)
  cases x with
  | served =>
      cases hs
      exact hw₁.nothingLeft
  | _ => cases hs

/-- An attempt none of whose failures is passed over ends as it should. -/
lemma ok_teardownAccount {acct₀ : GitHubAccount} (settings : Settings) (hw : Whole a acct₀ w) :
    Ok sp (teardownAccount settings a) (fun _ => Settled a acct₀) (fun _ => Settled a acct₀) w := by
  unfold teardownAccount
  refine ok_withDb ?_
  have hget : Ok sp (ask (.getAccount (some .teardown)))
      (fun row w => w.row = row ∧ Whole a acct₀ w) (fun _ => Settled a acct₀) w := by
    refine ok_read (o := .getAccount (some .teardown)) (fun _ h => h) (fun x v w' hs => ?_)
    cases x with
    | served =>
        cases hs
        exact ⟨rfl, hw⟩
    | _ => cases hs
  refine Discipline.wpE_then hget (fun row w hrow => ?_)
  cases row with
  | none => exact settled_gone (hrow.2.gone hrow.1)
  | some acct =>
      have hrefers : Refers acct₀ acct := hrow.2.refers acct hrow.1
      have hstanding : Standing acct w := ⟨hrow.1, hrow.2.token⟩
      -- The first gate: the gateway is cleared, or the attempt has failed.
      have hremoval : Ok sp (Pools.removeHubFromPools (provisioner settings.backendBase) a
          acct.backendIds) (fun _ w => Standing acct w ∧ Cleared a [] w ∧
            ExtraCleared a acct.backendIds [] w) (fun _ => Standing acct) w :=
        Discipline.wpE_mono (fun _ _ hw' => ⟨hstanding.wanes hw'.1, hw'.2⟩)
          (fun _ _ hw' => hstanding.wanes hw') (removal_rules.removeHubFromPools _ _ w)
      refine Discipline.wpE_then (ok_gate _ hrefers hremoval) (fun removed w₁ hw₁ => ?_)
      cases removed
      · exact hw₁
      refine Discipline.wpE_then (ok_readToken (P := fun w => Standing acct w ∧ Cleared a [] w ∧
        ExtraCleared a acct.backendIds [] w) hw₁) (fun token w₂ hw₂ => ?_)
      -- The second gate: the hub is destroyed, or the attempt has failed.
      obtain ⟨hstanding₂, hcleared, hextra⟩ := hw₂
      have hdestroy : Ok sp (TerraformRunner.destroyHub runner settings.rounds a (token.getD ""))
          (fun _ => Bare a acct) (fun _ => Standing acct) w₂ :=
        Discipline.wpE_mono (fun _ _ hw' => hw'.1.1.bare hcleared hextra hw'.2)
          (fun _ _ hw' => hstanding₂.working hw') (ok_destroyHub settings.rounds _)
      refine Discipline.wpE_then (ok_gate _ hrefers hdestroy) (fun destroyed w₃ hw₃ => ?_)
      cases destroyed
      · exact hw₃
      exact Discipline.wpE_mono (fun _ _ hw' => settled_gone (hw'.refers hrefers))
        (fun _ _ hw' => settled_gone (hw'.refers hrefers)) (ok_remove hw₃)

/-- Pressing delete only writes the status, so the account is as whole as before. -/
lemma ok_deleteAccount {acct₀ : GitHubAccount} (hw : Whole a acct₀ w) :
    Ok sp (withDb deleteAccount) (fun _ => Whole a acct₀) (fun _ => Whole a acct₀) w := by
  refine ok_withDb ?_
  have hget : Ok sp (ask (.getAccount none)) (fun _ => Whole a acct₀)
      (fun _ => Whole a acct₀) w := by
    refine ok_ask (fun x r w' hs _ => ?_) (fun x r w' e hs _ => ?_) (fun _ _ => hw)
    · cases x with
      | served =>
          cases hs
          exact ⟨fun _ _ => hw, fun _ _ => hw⟩
      | _ => cases hs
    · cases x with
      | served =>
          cases hs
          exact hw
      | _ => cases hs
  unfold deleteAccount
  refine Discipline.wpE_then hget (fun row w hw => ?_)
  cases row with
  | none => exact hw
  | some acct =>
      have hcommit : Whole a acct₀ (commit w { status := changed acct.status .deleting }).2 := by
        unfold commit
        split_ifs
        · exact hw
        · cases hrow : w.row with
          | none => exact hw
          | some acct' =>
              have happlied : Refers acct' (AccountChanges.apply
                  { status := changed acct.status .deleting } acct') := ⟨rfl, rfl, rfl, rfl⟩
              have hstanding : Standing acct' w := ⟨hrow, hw.token⟩
              exact (hstanding.change happlied).whole ((hw.refers acct' hrow).trans happlied)
      refine ok_ask (fun x r w' hs _ => ?_) (fun x r w' e hs _ => ?_) (fun _ _ => hw)
      · rw [serve_commit hs]
        exact ⟨fun _ _ => hcommit, fun _ _ => hcommit⟩
      · rw [serve_commit hs]
        exact hcommit

end Failures

/-! ## Attempts without failures -/

/-- Attempts that run alone while no service fails, which is when an attempt is expected to
finish. -/
def smooth (sp : Spelling) (rounds : Rounds) : Discipline (calm sp rounds) :=
  .alone calm_drift (fun _ => True)

section Calm

variable {sp : Spelling} {rounds : Rounds} {a : AccountId} {w : Estate}

abbrev Smooth {α : Type} (sp : Spelling) (rounds : Rounds) (p : Handler α) (Q : α → Estate → Prop)
    (X : PyErr → Estate → Prop) (w : Estate) : Prop :=
  (smooth sp rounds).wpE anyStep () p Q X w

lemma smooth_ask {o : Call} {Q : o.Answer → Estate → Prop} {X : PyErr → Estate → Prop}
    (h : ∀ x r w', Calm rounds w o x → serve sp w o x = some (r, w') →
      (∀ a, r = .ok a → Q a w') ∧ ∀ e, r = .error e → X e w') :
    Smooth sp rounds (ask o) Q X w := by
  refine Discipline.alone_ask (calm sp rounds) calm_drift (fun _ x r w' ha _ => ⟨trivial, ?_⟩)
  simp only [calm] at ha
  split_ifs at ha with hcalm
  exact h x r w' hcalm ha

/-- A call that answers with nothing but success; its postcondition is that of the answers. -/
lemma smooth_served {o : Call} {Q : o.Answer → Estate → Prop} {X : PyErr → Estate → Prop}
    (h : ∀ x r w', Calm rounds w o x → serve sp w o x = some (r, w') →
      ∃ v, r = .ok v ∧ Q v w') : Smooth sp rounds (ask o) Q X w := by
  refine smooth_ask (fun x r w' hcalm hs => ?_)
  obtain ⟨v, rfl, hQ⟩ := h x r w' hcalm hs
  refine ⟨?_, ?_⟩
  · rintro _ ⟨⟩
    exact hQ
  · rintro _ ⟨⟩

/-- Where no call fails, the removal does not: every status that it sees is one of success or of
absence. -/
lemma removal_smooth : Removal (smooth sp rounds) anyStep a (fun _ _ => False) where
  later _ h := h
  armToken w := by
    refine smooth_served (fun x r w' _ hs => ?_)
    obtain ⟨rfl, rfl⟩ := armToken_served hs
    exact ⟨(), rfl, rfl⟩
  getPool w id := by
    refine smooth_served (fun x r w' hcalm hs => ?_)
    obtain ⟨rfl, ⟨props, hv, rfl⟩ | ⟨hv, rfl⟩ | ⟨code, rfl, -⟩⟩ := getPool_served hs
    · exact ⟨_, rfl, rfl, .inl ⟨props, hv, rfl⟩⟩
    · exact ⟨_, rfl, rfl, .inr (.inl ⟨hv, rfl⟩)⟩
    · exact hcalm.elim
  putPool w p props old hold hprops := by
    refine smooth_served (fun x r w' hcalm hs => ?_)
    rcases putPool_served hold hprops hs with ⟨rfl, hw⟩ | ⟨code, rfl, -⟩
    · exact ⟨200, rfl, .inl ⟨rfl, hw⟩⟩
    · exact hcalm.elim
  deletePool w p old hold := by
    refine smooth_served (fun x r w' hcalm hs => ?_)
    rcases deletePool_served (a := a) hold hs with ⟨rfl, hw⟩ | ⟨code, rfl, -⟩
    · exact ⟨200, rfl, .inl ⟨rfl, hw⟩⟩
    · exact hcalm.elim
  deletePolicy w id := by
    refine smooth_ask (fun x r w' _ hs => ?_)
    obtain ⟨hw, hr⟩ := deletePolicy_served (a := a) hs
    exact ⟨fun _ _ => hw, fun e he => .inl ⟨hr e he, hw⟩⟩
  deleteBackend w b := by
    refine smooth_ask (fun x r w' _ hs => ?_)
    obtain ⟨hw, hr⟩ := deleteBackend_served (a := a) hs
    exact ⟨fun _ _ => hw, fun e he => .inl ⟨hr e he, hw⟩⟩

/-! ### The destroy run -/

lemma smooth_findRun {w₀ : Estate} (n k : ℕ) (hk : 0 < k) (hrounds : rounds.find ≤ w.looked + k)
    (hw : Same w₀ w ∧ w.polled = 0) :
    Smooth sp rounds (TerraformRunner.findRun runner n k) (fun _ w' => Same w₀ w' ∧ w'.polled = 0)
      (fun _ _ => False) w := by
  induction k generalizing w with
  | zero => exact absurd hk (lt_irrefl 0)
  | succ k ih =>
      have hlook : Smooth sp rounds (ask (.listRuns n)) (fun visible w' =>
          (Same w₀ w' ∧ w'.polled = 0) ∧ w'.looked = w.looked + 1 ∧
            (visible = false → w.looked + 1 < rounds.find)) (fun _ _ => False) w := by
        refine smooth_served (fun x r w' hcalm hs => ?_)
        cases x with
        | listed visible =>
            cases hs
            refine ⟨visible, rfl, ⟨⟨hw.1.row, hw.1.pools, hw.1.backends⟩, hw.2⟩, rfl, ?_⟩
            rintro rfl
            exact hcalm
        | _ => cases hs
      refine Discipline.wpE_then hlook (fun visible w₁ hw₁ => ?_)
      cases visible with
      | true => exact hw₁.1
      | false =>
          have hlater := hw₁.2.2 rfl
          exact ih (by omega) (by omega) hw₁.1

/-- The run is polled until it has succeeded.  The induction is on the rounds that are left, and
`calm` bounds how many are needed. -/
lemma smooth_pollRun {w₀ : Estate} (n k : ℕ) (hk : 0 < k) (hrounds : rounds.poll ≤ w.polled + k)
    (hw : Same w₀ w) :
    Smooth sp rounds (TerraformRunner.pollRun runner n a k)
      (fun _ w' => Same w₀ w' ∧ w'.hub = false) (fun _ _ => False) w := by
  induction k generalizing w with
  | zero => exact absurd hk (lt_irrefl 0)
  | succ k ih =>
      have hpoll : Smooth sp rounds (ask (.getRun n)) (fun conclusion w' =>
          Same w₀ w' ∧ w'.polled = w.polled + 1 ∧
            (conclusion = none → w.polled + 1 < rounds.poll) ∧ conclusion ≠ some false ∧
            (conclusion = some true → w'.hub = false)) (fun _ _ => False) w := by
        refine smooth_served (fun x r w' hcalm hs => ?_)
        cases x with
        | progress conclusion =>
            cases hs
            refine ⟨conclusion, rfl, ⟨hw.row, hw.pools, hw.backends⟩, rfl, ?_, ?_, ?_⟩
            · rintro rfl
              exact hcalm
            · rintro rfl
              exact hcalm
            · rintro rfl
              simp
        | _ => cases hs
      refine Discipline.wpE_then hpoll (fun conclusion w₁ hw₁ => ?_)
      obtain ⟨hsame, hcount, hnone, hfailed, hdone⟩ := hw₁
      rcases conclusion with _ | _ | _
      · have hlater := hnone rfl
        exact ih (by omega) (by omega) hsame
      · exact absurd rfl hfailed
      · exact ⟨hsame, hdone rfl⟩

lemma smooth_destroyHub (hfind : 0 < rounds.find) (hpoll : 0 < rounds.poll) (token : String) :
    Smooth sp rounds (TerraformRunner.destroyHub runner rounds a token)
      (fun _ w' => Same w w' ∧ w'.hub = false) (fun _ _ => False) w := by
  have hset : Smooth sp rounds
      (ask (.setJobInput (TerraformRunner.jobinputName a) ⟨a.id, token, "x", "x"⟩))
      (fun _ w' => Same w w') (fun _ _ => False) w := by
    refine smooth_served (fun x r w' _ hs => ?_)
    cases x with
    | served =>
        cases hs
        exact ⟨(), rfl, rfl, rfl, rfl⟩
    | _ => cases hs
  have hdispatch : ∀ w₁ : Estate, Same w w₁ → Smooth sp rounds (ask (.dispatch .destroy))
      (fun _ w' => Same w w' ∧ w'.looked = 0 ∧ w'.polled = 0) (fun _ _ => False) w₁ := by
    intro w₁ hw₁
    refine smooth_served (fun x r w' _ hs => ?_)
    cases x with
    | served =>
        cases hs
        exact ⟨_, rfl, ⟨hw₁.row, hw₁.pools, hw₁.backends⟩, rfl, rfl⟩
    | _ => cases hs
  refine Discipline.wpE_then hset (fun _ w₁ hw₁ => ?_)
  refine Discipline.wpE_then (hdispatch w₁ hw₁) (fun n w₂ hw₂ => ?_)
  refine Discipline.wpE_then (smooth_findRun n rounds.find hfind (by omega) ⟨hw₂.1, hw₂.2.2⟩)
    (fun _ w₃ hw₃ => ?_)
  exact smooth_pollRun n rounds.poll hpoll (by omega) hw₃.1

/-! ### The end of the teardown -/

lemma smooth_deleteSecrets {acct : GitHubAccount} (hw : Bare a acct w) :
    Smooth sp rounds (deleteSecrets (secretRefs a acct)) (fun _ => Swept a acct [])
      (fun _ _ => False)
      w := by
  refine Discipline.wpE_forM (P := Swept a acct) (fun ref left w₁ hw₁ => ?_) hw.swept
  cases hname : truthy ref with
  | none => exact hw₁.skip hname
  | some name =>
      refine (Discipline.wpE_tryCatch _ _).2 (smooth_ask (fun x r w' _ hs => ?_))
      cases x with
      | served =>
          cases hs
          exact ⟨fun _ _ => hw₁.delete hname, fun _ _ => hw₁.delete hname⟩
      | _ => cases hs

lemma smooth_withDb {p : Handler Unit} {Q : Estate → Prop}
    (h : Smooth sp rounds p (fun _ => Q) (fun _ _ => False) w) :
    Smooth sp rounds (withDb p) (fun _ => Q) (fun _ _ => False) w := by
  refine Discipline.wpE_tryFinally (Discipline.wpE_mono (fun _ w hw => ?_) (fun _ _ h => h.elim) h)
  refine smooth_served (fun x r w' _ hs => ?_)
  cases x with
  | served =>
      cases hs
      exact ⟨(), rfl, hw⟩
  | _ => cases hs

lemma smooth_gate {acct : GitHubAccount} {p : Handler Unit} {detail : String} {Q : Estate → Prop}
    (h : Smooth sp rounds p (fun _ => Q) (fun _ _ => False) w) :
    Smooth sp rounds (gate acct p detail) (fun passed w => passed = true ∧ Q w) (fun _ _ => False)
      w := by
  refine (Discipline.wpE_tryCatch _ _).2 ((Discipline.wpE_bind _ _).2 ?_)
  exact Discipline.wpE_mono (fun _ _ hw => ⟨rfl, hw⟩) (fun _ _ h => h.elim) h

/-- The token is there, and reading it changes nothing; a row without a reference asks for none. -/
lemma smooth_readToken {acct : GitHubAccount}
    (htoken : ∀ ref ∈ truthy acct.oauthTokenKvRef, (w.secrets ref).isSome = true) :
    Smooth sp rounds (readToken acct) (fun _ w' => w' = w) (fun _ _ => False) w := by
  unfold readToken
  cases href : truthy acct.oauthTokenKvRef with
  | none => rfl
  | some ref =>
      obtain ⟨value, hvalue⟩ := Option.isSome_iff_exists.1 (htoken ref href)
      refine smooth_served (fun x r w' _ hs => ?_)
      cases x with
      | served =>
          simp only [serve, hvalue] at hs
          cases hs
          exact ⟨some value, rfl, rfl⟩
      | _ => cases hs

/-- An attempt during which no service fails leaves nothing, wherever the attempts before it have
stopped. -/
lemma smooth_teardownAccount (settings : Settings) {acct : GitHubAccount}
    (hfind : 0 < settings.rounds.find) (hpoll : 0 < settings.rounds.poll)
    (hrow : w.row = some acct) (hw : TokenKept w) :
    Smooth sp settings.rounds (teardownAccount settings a) (fun _ => NothingLeft a acct)
      (fun _ _ => False) w := by
  unfold teardownAccount
  refine smooth_withDb ?_
  have hget : Smooth sp settings.rounds (ask (.getAccount (some .teardown)))
      (fun row w' => row = some acct ∧ w' = w) (fun _ _ => False) w := by
    refine smooth_served (fun x r w' _ hs => ?_)
    cases x with
    | served =>
        cases hs
        exact ⟨w.row, rfl, hrow, rfl⟩
    | _ => cases hs
  refine Discipline.wpE_then hget (fun row w₁ hw₁ => ?_)
  obtain ⟨rfl, rfl⟩ := hw₁
  refine Discipline.wpE_then (smooth_gate (removal_smooth.removeHubFromPools _ _ w₁))
    (fun removed w₂ hw₂ => ?_)
  obtain ⟨rfl, hwanes, hcleared, hextra⟩ := hw₂
  have htoken : ∀ ref ∈ truthy acct.oauthTokenKvRef, (w₂.secrets ref).isSome = true := by
    rw [hwanes.secrets]
    exact hw acct hrow
  refine Discipline.wpE_then (smooth_readToken htoken) (fun token w₃ hw₃ => ?_)
  subst hw₃
  refine Discipline.wpE_then (smooth_gate (smooth_destroyHub hfind hpoll _))
    (fun destroyed w₄ hw₄ => ?_)
  obtain ⟨rfl, hsame, hhub⟩ := hw₄
  have hbare : Bare a acct w₄ := hsame.bare hcleared hextra hhub
  refine Discipline.wpE_then (smooth_deleteSecrets hbare) (fun _ w₅ hw₅ => ?_)
  refine smooth_served (fun x r w' _ hs => ?_)
  cases x with
  | served =>
      cases hs
      exact ⟨(), rfl, hw₅.nothingLeft⟩
  | _ => cases hs

/-- Without a row there is nothing to do, and nothing is left from before. -/
lemma smooth_teardownAccount_gone (settings : Settings) {acct : GitHubAccount} (hrow : w.row = none)
    (hw : NothingLeft a acct w) :
    Smooth sp settings.rounds (teardownAccount settings a) (fun _ => NothingLeft a acct)
      (fun _ _ => False) w := by
  unfold teardownAccount
  refine smooth_withDb ?_
  have hget : Smooth sp settings.rounds (ask (.getAccount (some .teardown)))
      (fun row w' => row = none ∧ w' = w) (fun _ _ => False) w := by
    refine smooth_served (fun x r w' _ hs => ?_)
    cases x with
    | served =>
        cases hs
        exact ⟨w.row, rfl, hrow, rfl⟩
    | _ => cases hs
  refine Discipline.wpE_then hget (fun row w₁ hw₁ => ?_)
  obtain ⟨rfl, rfl⟩ := hw₁
  exact hw

end Calm

/-! ## Every sequence of attempts -/

section Runs

variable {sp : Spelling} {settings : Settings} {a : AccountId}

/-- Pressing delete and attempts, one after the other. -/
abbrev Run (sp : Spelling) (settings : Settings) (a : AccountId)
    (ok : StepCond accountsApi Unit Estate) :
    Turn accountsApi Estate (Except PyErr Unit) → Turn accountsApi Estate (Except PyErr Unit) →
      Prop :=
  Turn.Reaches (env sp) ok (fun q : Request => (q.handler settings a).run) (fun _ _ => True)

end Runs

/-! ## A retry that cannot succeed -/

section Stuck

lemma account_hexDigits : ∀ c ∈ "00000000000a".toList, c ∈ "0123456789abcdef".toList :=
  AccountId.hexDigits_of_all (by decide)

def account : AccountId := ⟨"00000000000a", account_hexDigits⟩

def settings : Settings := ⟨Pools.backends, ⟨2, 2⟩⟩

/-- An account with a hub, its token in the vault, and one pool of which it is the only member. -/
def deployed : Estate where
  row := some
    { githubLogin := some "login"
      githubUserId := some "1"
      oauthTokenKvRef := some "gh-oauth"
      hubKeyKvRef := none
      adminTokenKvRef := none
      status := .ready
      errorDetail := none
      deviceCode := none
      resourceGroup := some "rg"
      containerAppFqdn := some "hub.example"
      tfStateKey := none
      backendIds := [] }
  secrets name := if name = "gh-oauth" then some "token" else none
  pools := ⟨fun id => if id = poolId .openai then
      ⟨some (Pools.firstPool id (Pools.member Pools.backends (backendId .openai account))), []⟩
    else ⟨none, []⟩⟩
  policies _ := true
  backends _ := true
  hub := true
  runs := 0
  looked := 0
  polled := 0

lemma deployed_tokenKept : TokenKept deployed := by
  rintro _ ⟨⟩ ref href
  have hname : some "gh-oauth" = some ref := href
  cases hname
  rfl

/-- A call that is served, and whose answer says nothing more. -/
def ok : Fate Pick PyErr := .served .served

def pressed : List (Request ⊕ Fate Pick PyErr) := .inl .press :: List.replicate 3 (.inr ok)

def attempted (calls : List (Fate Pick PyErr)) : List (Request ⊕ Fate Pick PyErr) :=
  .inl .attempt :: calls.map .inr

/-- An attempt begins: the row is read, and the gateway cleared; a pool with members takes two more
calls. -/
def begun (calls : ℕ) : List (Fate Pick PyErr) := List.replicate (1 + calls) ok

/-- The token is read, and the destroy run succeeds: it is dispatched, listed and polled. -/
def destroyed : List Pick :=
  [.served, .served, .served, .listed true, .progress (some true)]

end Stuck

end Retry
end GithubAccounts
end TokenFoundry
