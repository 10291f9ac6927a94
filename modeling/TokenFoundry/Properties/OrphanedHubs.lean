import TokenFoundry.Api.GithubAccounts
import TokenFoundry.Properties.PoolMembership

/-!
# Orphaned hubs

An account's row is the only record of its hub.  Were the row to go first, the Azure resources,
the pool members or the per-account backends would be left behind with nothing to retry from.

Nothing keeps the background tasks of one account apart.  A deployment that is half way when the
account is deleted goes on after the row is gone (`hub_orphaned`).  A workflow run that the
control plane has given up on may still be queued when the destroy run comes and goes.  And the
deletion of a backend is best effort, although the teardown calls it a gate.

`no_orphan` says that this is all: in every run in which

* a deployment reads the row only while no teardown is between its read of the row and its end,
* a teardown reads the row only while no deployment is in that stretch and no apply run is
  unfinished,
* no deletion of a backend that exists is answered with an HTTP error,

the row outlives the hub, the pool members and the backends.

The tasks of other accounts edit the pools as well, and GitHub Actions executes the dispatched
runs in its own time: both are parties of the system, next to the requests of the account.
-/

set_option autoImplicit false

namespace TokenFoundry
namespace GithubAccounts

open Pools (AccountId Provider Spelling PoolProps listed services backendId poolId)
open TerraformRunner (Action Outputs)

/-! ## Parties -/

inductive Party
  | poll
  | delete
  /-- GitHub Actions executes this run. -/
  | actions (runId : ℕ)
  /-- The task of another account edits this pool. -/
  | neighbour (poolId : String)

/-- A request with the background task it hands over to, or one move of another party. -/
def Party.program (settings : Settings) (a : AccountId) : Party → Handler Unit
  | .poll => do
      let answer ← withDb (devicePoll a)
      if answer.2 then deployAccount settings a else return ()
  | .delete => do
      withDb deleteAccount
      teardownAccount settings a
  | .actions runId => ask (.execute runId)
  | .neighbour poolId => ask (.editPool poolId)

/-! ## The world -/

/-- A workflow run; its outcome is missing until it is completed. -/
structure Run where
  action : Action
  outcome : Option Bool
  deriving DecidableEq

/-- What the account has: its row, its hub in Azure, its members in the pools of the gateway and its
own backends, with the workflow runs and the background tasks that change them. -/
structure World (ι : Type) where
  row : Option GitHubAccount
  /-- The Azure resources of the hub exist. -/
  hub : Bool
  gateway : Pools.World ι
  /-- The per-account backends that exist. -/
  backends : String → Bool
  /-- The workflow runs, under the correlation ids `0, 1, …`. -/
  runs : List Run
  /-- The background task a thread is running, from its read of the row to its end. -/
  task : ι → Option Task
  /-- The session of the thread is unusable. -/
  broken : ι → Bool

/-- What the outside decides about a call: a plain service, the answers of GitHub and of the vault,
or how a run of the workflow has ended. -/
inductive Pick
  | served
  | text (value : Option String)
  | device (reply : DeviceReply)
  | who (whoami : Whoami)
  | yes (answer : Bool)
  | outputs (outputs : Outputs)
  /-- The conclusion of a run, and whether a failed `apply` leaves resources behind. -/
  | outcome (success left : Bool)
  /-- The management API serves the call, or refuses it with a status. -/
  | status (refusal : Option ℕ)
  | document (props : Option PoolProps)

section Serve

variable {ι : Type} [DecidableEq ι]

/-- A commit: without a row there is nothing to update, and the session is lost. -/
def commit (i : ι) (w : World ι) (ch : AccountChanges) : Except PyErr Unit × World ι :=
  if w.broken i then (.error .pendingRollback, w)
  else if ch.isEmpty then (.ok (), w)
  else match w.row with
    | none => (.error .staleData, { w with broken := Function.update w.broken i true })
    | some acct => (.ok (), { w with row := some (ch.apply acct) })

/-- What the end of a run leaves of the hub. -/
def Run.finish (r : Run) (hub success left : Bool) : Bool :=
  match r.action with
  | .apply => success || left || hub
  | .destroy => hub && ! success

/-- How a call is answered when it is served; `none` where the pick does not fit the call. -/
def serve (sp : Spelling) (a : AccountId) (i : ι) (w : World ι) :
    (o : Call) → Pick → Option (accountsApi.Reply o × World ι)
  | .getAccount task, .served =>
      some (.ok w.row,
        if w.row.isSome ∧ task.isSome then { w with task := Function.update w.task i task } else w)
  | .getAgain, .served => some (if w.broken i then .error .pendingRollback else .ok (), w)
  | .commitAccount ch, .served => some (commit i w ch)
  | .commitRoutes ch, .served => some (commit i w ch)
  | .rollback, .served => some (.ok (), { w with broken := Function.update w.broken i false })
  | .deleteAccount, .served => some (.ok (), { w with row := none })
  | .close, .served =>
      some (.ok (), { w with
        task := Function.update w.task i none
        broken := Function.update w.broken i false })
  | .pollDeviceFlow _, .device reply => some (.ok reply, w)
  | .whoami _, .who who => some (.ok who, w)
  | .getSecret _, .text value => some (.ok value, w)
  | .setSecret _ _, .served => some (.ok (), w)
  | .deleteSecret _, .served => some (.ok (), w)
  | .drawToken, .text value => some (.ok (value.getD ""), w)
  | .setJobInput _ _, .served => some (.ok (), w)
  | .refreshHubImageRef, .served => some (.ok (), w)
  | .dispatch action, .served =>
      some (.ok w.runs.length, { w with runs := w.runs ++ [⟨action, none⟩] })
  | .listRuns n, .yes visible => some (.ok (visible && decide (n < w.runs.length)), w)
  | .getRun n, .served =>
      some (match w.runs[n]? with
        | some r => .ok r.outcome
        | none => .error (.httpStatus 404), w)
  | .readState, .outputs outputs => some (.ok outputs, w)
  | .fetchHubModels _ _, .yes known => some (.ok known, w)
  | .ensurePooledApis, .served => some (.ok (), w)
  | .gateway (.putBackend b _), .served =>
      some (.ok (), { w with backends := Function.update w.backends b true })
  | .gateway (.deleteBackend b), .served =>
      some (if w.backends b then .ok () else .error .resourceNotFound,
        { w with backends := Function.update w.backends b false })
  | .gateway (.putBackend _ _), _ => none
  | .gateway (.deleteBackend _), _ => none
  | .gateway o, .status refusal =>
      (Pools.serve sp i w.gateway o refusal).map (fun p => (p.1, { w with gateway := p.2 }))
  | .execute n, .outcome success left =>
      match w.runs[n]? with
      | some ⟨action, none⟩ =>
          some (.ok (), { w with
            runs := w.runs.set n ⟨action, some success⟩
            hub := Run.finish ⟨action, none⟩ w.hub success left })
      | _ => none
  | .editPool id, .document props =>
      -- Another account neither adds nor keeps a second copy of this one's member.
      if ∀ p ∈ Pools.providers, id = poolId p →
          listed p a (services props) ≤ listed p a (services (w.gateway.pool p)) then
        some (.ok (), { w with gateway := w.gateway.write i id props })
      else none
  | _, _ => none

/-- Which exceptions a call may raise without effect.  A missing backend is reported only where
it is missing, and closing a session always succeeds. -/
def mayRaise : Call → PyErr → Bool
  | .close, _ => false
  | .execute _, _ => false
  | .editPool _, _ => false
  | .gateway (.deleteBackend _), e => decide (e ≠ .resourceNotFound)
  | _, _ => true

/-- Which exceptions a call may raise after its effect.  An HTTP error says that a backend was
not deleted. -/
def mayLose : Call → PyErr → Bool
  | .close, _ => false
  | .execute _, _ => false
  | .editPool _, _ => false
  | .gateway (.deleteBackend _), e => decide (e = .external)
  | _, _ => true

def env (sp : Spelling) (a : AccountId) (ι : Type) [DecidableEq ι] :
    Env accountsApi ι (World ι) :=
  .faulty (serve sp a) mayRaise mayLose (fun _ _ => False)

/-- No deployment is running, and no `apply` run is unfinished. -/
def Quiet (w : World ι) : Prop :=
  (∀ i, w.task i ≠ some .deploy) ∧ (⟨.apply, none⟩ : Run) ∉ w.runs

/-- The tasks are kept apart, and no backend is left behind: see the head of this module. -/
def KeptApart : StepCond accountsApi ι (World ι)
  | _, w, .getAccount (some .deploy), _ => w.row ≠ none → ∀ j, w.task j ≠ some .teardown
  | _, w, .getAccount (some .teardown), _ => w.row ≠ none → Quiet w
  | _, w, .gateway (.deleteBackend b), r =>
      ∀ status, r = .error (.httpResponse status) → w.backends b = false
  | _, _, _, _ => True

end Serve

/-! ## The invariant -/

section Invariant

variable {ι : Type} {a : AccountId} {i : ι} {w : World ι}

/-- Nothing is left of the account's hub: not the hub itself, no member in a pool and no backend. -/
structure NoResidue (a : AccountId) (w : World ι) : Prop where
  hub : w.hub = false
  members : ∀ p, listed p a (services (w.gateway.pool p)) = 0
  backends : ∀ p, w.backends (backendId p a) = false

/-- The invariant of all interleavings: the row goes last.  While a teardown runs everything is
quiet, so that what it has removed stays away. -/
structure Inv (a : AccountId) (w : World ι) : Prop where
  /-- Without a row nothing is left, and nothing is on its way. -/
  clean : w.row = none → Quiet w ∧ NoResidue a w
  quiet : ∀ i, w.task i = some .teardown → Quiet w

/-- What may happen while the account is being torn down: things only go away. -/
structure Shrinks (a : AccountId) (w w' : World ι) : Prop where
  hub : w'.hub = true → w.hub = true
  members : ∀ p,
    listed p a (services (w'.gateway.pool p)) ≤ listed p a (services (w.gateway.pool p))
  backends : ∀ b, w'.backends b = true → w.backends b = true
  runs : ∀ (n : ℕ) (o : Option Bool), w.runs[n]? = some (Run.mk .destroy o) →
    ∃ o', w'.runs[n]? = some (Run.mk .destroy o') ∧ (o' = o ∨ (o' = some true → w'.hub = false))

/-- What a thread relies on: nobody else changes its task, and during its own teardown the rest of
the account only shrinks. -/
structure Rely (a : AccountId) (i : ι) (w w' : World ι) : Prop where
  task : w'.task i = w.task i
  shrinks : w.task i = some .teardown → Shrinks a w w'

lemma Shrinks.refl (a : AccountId) (w : World ι) : Shrinks a w w :=
  ⟨id, fun _ => le_refl _, fun _ => id, fun _ o h => ⟨o, h, .inl rfl⟩⟩

lemma Shrinks.trans {w₁ w₂ w₃ : World ι} (h₁ : Shrinks a w₁ w₂) (h₂ : Shrinks a w₂ w₃) :
    Shrinks a w₁ w₃ := by
  refine ⟨fun h => h₁.hub (h₂.hub h), fun p => (h₂.members p).trans (h₁.members p),
    fun b h => h₁.backends b (h₂.backends b h), fun n o hn => ?_⟩
  obtain ⟨o₂, hn₂, ho₂⟩ := h₁.runs n o hn
  obtain ⟨o₃, hn₃, ho₃⟩ := h₂.runs n o₂ hn₂
  refine ⟨o₃, hn₃, ?_⟩
  rcases ho₃ with rfl | ho₃
  · rcases ho₂ with rfl | ho₂
    · exact .inl rfl
    · refine .inr (fun h => ?_)
      by_contra hhub
      have hgone := ho₂ h
      rw [h₂.hub (by simpa using hhub)] at hgone
      cases hgone
  · exact .inr ho₃

lemma Rely.refl (a : AccountId) (i : ι) (w : World ι) : Rely a i w w :=
  ⟨rfl, fun _ => Shrinks.refl a w⟩

lemma Rely.trans {w₁ w₂ w₃ : World ι} (h₁ : Rely a i w₁ w₂) (h₂ : Rely a i w₂ w₃) :
    Rely a i w₁ w₃ :=
  ⟨h₂.task.trans h₁.task, fun h => (h₁.shrinks h).trans (h₂.shrinks (h₁.task.trans h))⟩

lemma NoResidue.shrinks {w' : World ι} (h : NoResidue a w) (hS : Shrinks a w w') :
    NoResidue a w' := by
  refine ⟨?_, fun p => ?_, fun p => ?_⟩
  · by_contra hhub
    have hgone := hS.hub (by simpa using hhub)
    rw [h.hub] at hgone
    cases hgone
  · have := hS.members p
    rw [h.members p] at this
    omega
  · by_contra hb
    have hgone := hS.backends _ (by simpa using hb)
    rw [h.backends p] at hgone
    cases hgone

/-- A step of thread `i` keeps the invariant and what the others rely on. -/
def Kept (a : AccountId) (i : ι) (w w' : World ι) : Prop :=
  Inv a w' ∧ ∀ j, j ≠ i → Rely a j w w'

/-- A step after which there is less than before is allowed to everybody. -/
lemma kept_of_shrinks {w' : World ι} (hI : Inv a w) (hS : Shrinks a w w')
    (htask : w'.task = w.task) (hruns : (⟨.apply, none⟩ : Run) ∈ w'.runs → ⟨.apply, none⟩ ∈ w.runs)
    (hrow : w'.row = none → w.row = none) : Kept a i w w' := by
  have hquiet : Quiet w → Quiet w' := by
    intro hq
    refine ⟨fun j => ?_, fun h => hq.2 (hruns h)⟩
    rw [htask]
    exact hq.1 j
  refine ⟨⟨fun h => ?_, fun j hj => ?_⟩, fun j _ => ⟨by rw [htask], fun _ => hS⟩⟩
  · obtain ⟨hq, hr⟩ := hI.clean (hrow h)
    exact ⟨hquiet hq, hr.shrinks hS⟩
  · rw [htask] at hj
    exact hquiet (hI.quiet j hj)

/-- Where the account is not quiet, anything may happen but the removal of the row: no teardown is
running, and the row is there. -/
lemma kept_of_not_quiet {w' : World ι} (hI : Inv a w) (hq : ¬ Quiet w) (htask : w'.task = w.task)
    (hrow : w'.row = none → w.row = none) : Kept a i w w' := by
  have hno : ∀ j, w.task j ≠ some .teardown := fun j hj => hq (hI.quiet j hj)
  refine ⟨⟨fun h => ?_, fun j hj => ?_⟩, fun j _ => ⟨by rw [htask], fun h => ?_⟩⟩
  · exact absurd (hI.clean (hrow h)).1 hq
  · rw [htask] at hj
    exact absurd hj (hno j)
  · exact absurd h (hno j)

lemma kept_self (hI : Inv a w) : Kept a i w w := ⟨hI, fun j _ => Rely.refl a j w⟩

variable [DecidableEq ι]

/-- A background task begins.  A deployment needs that no teardown runs, and a teardown that
everything is quiet. -/
lemma kept_begin {t : Task} (hrow : w.row ≠ none)
    (hdeploy : t = .deploy → ∀ j, w.task j ≠ some .teardown)
    (hteardown : t = .teardown → Quiet w) :
    Kept a i w { w with task := Function.update w.task i (some t) } := by
  refine ⟨⟨fun h => absurd h hrow, fun j hj => ?_⟩, fun j hj => ⟨?_, fun _ => ?_⟩⟩
  · dsimp only at hj
    cases t with
    | deploy =>
        by_cases hji : j = i
        · subst hji
          rw [Function.update_self] at hj
          cases hj
        · rw [Function.update_of_ne hji] at hj
          exact absurd hj (hdeploy rfl j)
    | teardown =>
        refine ⟨fun k => ?_, (hteardown rfl).2⟩
        by_cases hki : k = i
        · subst hki
          simp
        · simp only [Function.update_of_ne hki]
          exact (hteardown rfl).1 k
  · exact Function.update_of_ne hj _ _
  · exact ⟨id, fun _ => le_refl _, fun _ => id, fun _ o h => ⟨o, h, .inl rfl⟩⟩

/-- A session is closed, and with it the background task of the thread ends. -/
lemma kept_close (hI : Inv a w) :
    Kept a i w { w with
      task := Function.update w.task i none
      broken := Function.update w.broken i false } := by
  have hquiet : Quiet w → Quiet { w with
      task := Function.update w.task i none
      broken := Function.update w.broken i false } := by
    intro hq
    refine ⟨fun k => ?_, hq.2⟩
    by_cases hki : k = i
    · subst hki
      simp
    · simp only [Function.update_of_ne hki]
      exact hq.1 k
  refine ⟨⟨fun h => ?_, fun j hj => ?_⟩, fun j hj => ⟨?_, fun _ => ?_⟩⟩
  · obtain ⟨hq, hr⟩ := hI.clean h
    exact ⟨hquiet hq, hr.hub, hr.members, hr.backends⟩
  · by_cases hji : j = i
    · subst hji
      simp at hj
    · simp only [Function.update_of_ne hji] at hj
      exact hquiet (hI.quiet j hj)
  · exact Function.update_of_ne hj _ _
  · exact ⟨id, fun _ => le_refl _, fun _ => id, fun _ o h => ⟨o, h, .inl rfl⟩⟩

omit [DecidableEq ι] in
/-- The row is deleted when nothing is left, which is the only step at which the invariant asks for
something. -/
lemma kept_delete (hI : Inv a w) (ht : w.task i = some .teardown) (hr : NoResidue a w) :
    Kept a i w { w with row := none } := by
  refine ⟨⟨fun _ => ⟨hI.quiet i ht, hr.hub, hr.members, hr.backends⟩, fun j hj => hI.quiet j hj⟩,
    fun j _ => ⟨rfl, fun _ => ?_⟩⟩
  exact ⟨id, fun _ => le_refl _, fun _ => id, fun _ o h => ⟨o, h, .inl rfl⟩⟩

def discipline (sp : Spelling) (a : AccountId) : Discipline (env sp a ι) where
  inv := Inv a
  rely := Rely a
  busy _ _ := True
  rely_refl := Rely.refl a
  rely_trans _ _ _ _ := Rely.trans
  drift_inv _ h := h.elim
  drift_rely _ _ h := h.elim

end Invariant

/-! ## The rules for calls -/

section Rules

variable {ι : Type} [DecidableEq ι] {sp : Spelling} {a : AccountId} {i : ι} {w : World ι}

abbrev Safe {α : Type} (sp : Spelling) (a : AccountId) (i : ι) (p : Handler α)
    (Q : α → World ι → Prop) (X : PyErr → World ι → Prop) (w : World ι) : Prop :=
  (discipline sp a).wpE KeptApart i p Q X w

abbrev Steady {α : Type} (sp : Spelling) (a : AccountId) (i : ι) (P : World ι → Prop)
    (p : Handler α) : Prop :=
  (discipline sp a).Steady KeptApart i P p

/-- A fact that survives the steps of the others, and may be carried from one call of a thread to
the next. -/
def Lasting (a : AccountId) (i : ι) (P : World ι → Prop) : Prop :=
  ∀ w w', Rely a i w w' → P w → P w'

/-- The rule for a call: what is to be shown where it is served, with or without its answer, and
where it is refused. -/
lemma safe_ask {o : Call} {Q : o.Answer → World ι → Prop} {X : PyErr → World ι → Prop}
    (hserved : ∀ w₁, Rely a i w w₁ → Inv a w₁ → ∀ x r₀ r w₂,
      serve sp a i w₁ o x = some (r₀, w₂) →
      (r = r₀ ∨ ∃ e, mayLose o e = true ∧ r = .error e) → KeptApart i w₁ o r →
      Kept a i w₁ w₂ ∧ (∀ b, r = .ok b → Q b w₂) ∧ (∀ e, r = .error e → X e w₂))
    (hrefused : ∀ w₁, Rely a i w w₁ → Inv a w₁ → ∀ e, mayRaise o e = true →
      KeptApart i w₁ o (.error e) → X e w₁) :
    Safe sp a i (ask o) Q X w := by
  refine Discipline.wpE_ask (fun w₁ hR hI => ⟨trivial, fun f r w₂ ha hok => ?_⟩)
  rcases Env.faulty_act ha with ⟨x, r₀, hs, hr⟩ | ⟨rfl, e, he, rfl⟩
  · obtain ⟨⟨hI₂, hG⟩, hQ, hX⟩ := hserved w₁ hR hI x r₀ r w₂ hs hr hok
    exact ⟨hI₂, hG, hQ, hX⟩
  · refine ⟨hI, fun j _ => Rely.refl a j _, by simp, fun e' he' => ?_⟩
    cases he'
    exact hrefused _ hR hI e he hok

/-- The two worlds differ in the contents of the row and in the sessions only. -/
structure Same (w w' : World ι) : Prop where
  hub : w'.hub = w.hub
  gateway : w'.gateway = w.gateway
  backends : w'.backends = w.backends
  runs : w'.runs = w.runs
  task : w'.task = w.task
  row : w'.row.isSome = w.row.isSome

omit [DecidableEq ι] in
lemma Same.shrinks {w' : World ι} (h : Same w w') : Shrinks a w w' := by
  refine ⟨by rw [h.hub]; exact id, fun p => by rw [h.gateway],
    fun b => by rw [h.backends]; exact id,
    fun n o hn => ⟨o, by rw [h.runs, hn], .inl rfl⟩⟩

omit [DecidableEq ι] in
lemma Same.rely {w' : World ι} (h : Same w w') : Rely a i w w' :=
  ⟨by rw [h.task], fun _ => h.shrinks⟩

omit [DecidableEq ι] in
lemma Same.kept {w' : World ι} (h : Same w w') (hI : Inv a w) : Kept a i w w' := by
  refine kept_of_shrinks hI h.shrinks h.task (by rw [h.runs]; exact id) (fun hrow => ?_)
  have hsome := h.row
  rw [hrow] at hsome
  exact Option.isNone_iff_eq_none.1 (by simpa using hsome.symm)

omit [DecidableEq ι] in
lemma Same.refl (w : World ι) : Same w w := ⟨rfl, rfl, rfl, rfl, rfl, rfl⟩

/-- Calls that change neither the hub nor who is doing what. -/
def Call.Harmless : Call → Prop
  | .getAccount (some _) | .deleteAccount | .close | .dispatch _ | .execute _ | .editPool _ => False
  | .gateway .armToken | .gateway (.getPool _) | .gateway (.deletePolicy _) => True
  | .gateway _ => False
  | _ => True

lemma commit_same (ch : AccountChanges) : Same w (commit i w ch).2 := by
  unfold commit
  split_ifs
  · exact Same.refl w
  · exact Same.refl w
  · cases hrow : w.row with
    | none => exact ⟨rfl, rfl, rfl, rfl, rfl, by simp [hrow]⟩
    | some acct => exact ⟨rfl, rfl, rfl, rfl, rfl, by simp [hrow]⟩

omit [DecidableEq ι] in
lemma gateway_same {o : Pools.Call} (ho : (Call.gateway o).Harmless) {refusal : Option ℕ}
    {r : Pools.poolsApi.Reply o} {g : Pools.World ι}
    (hs : Pools.serve sp i w.gateway o refusal = some (r, g)) : g = w.gateway := by
  cases o with
  | armToken =>
      cases hs
      rfl
  | deletePolicy id =>
      cases hs
      rfl
  | getPool id =>
      cases refusal with
      | none =>
          cases hs
          rfl
      | some code =>
          simp only [Pools.serve] at hs
          split_ifs at hs
          cases hs
          rfl
  | putPool id props im => exact ho.elim
  | deletePool id im => exact ho.elim
  | putBackend id contract => exact ho.elim
  | deleteBackend id => exact ho.elim

lemma serve_same {o : Call} (ho : o.Harmless) {x : Pick} {r : accountsApi.Reply o} {w' : World ι}
    (hs : serve sp a i w o x = some (r, w')) : Same w w' := by
  unfold serve at hs
  cases o with
  | getAccount task =>
      cases task with
      | none =>
          cases x <;> cases hs
          simpa using Same.refl w
      | some t => exact ho.elim
  | commitAccount ch | commitRoutes ch =>
      cases x with
      | served =>
          obtain ⟨-, rfl⟩ := Prod.mk.inj (Option.some.inj hs)
          exact commit_same _
      | _ => cases hs
  | deleteAccount | close | dispatch action | execute n | editPool id => exact ho.elim
  | gateway o =>
      cases o with
      | putBackend b contract | deleteBackend b => exact ho.elim
      | _ =>
          cases x with
          | status refusal =>
              obtain ⟨⟨r', g⟩, hg, heq⟩ := Option.map_eq_some_iff.1 hs
              cases heq
              exact ⟨rfl, gateway_same ho hg, rfl, rfl, rfl, rfl⟩
          | _ => cases hs
  | _ =>
      -- The other calls answer, and that is all.
      cases x <;> cases hs
      exact ⟨rfl, rfl, rfl, rfl, rfl, rfl⟩

/-- A harmless call keeps whatever survives the steps of the others. -/
lemma steady_harmless {P : World ι → Prop} (hP : Lasting a i P) {o : Call} (ho : o.Harmless) :
    Steady sp a i P (ask o) := by
  refine fun w hw => safe_ask (fun w₁ hR hI x r₀ r w₂ hs _ _ => ?_)
    (fun w₁ hR _ _ _ _ => hP w w₁ hR hw)
  have hsame : Same w₁ w₂ := serve_same ho hs
  have hP₂ : P w₂ := hP w₁ w₂ hsame.rely (hP w w₁ hR hw)
  exact ⟨hsame.kept hI, fun _ _ => hP₂, fun _ _ => hP₂⟩

/-! ## Requests -/

/-- The thread runs no background task; its calls are those of a request. -/
def Off (i : ι) (w : World ι) : Prop := w.task i = none

omit [DecidableEq ι] in
lemma off_lasting : Lasting a i (Off i) := fun _ _ hR h => hR.task.trans h

lemma safe_close :
    Safe sp a i (ask .close) (fun _ w => Off i w) (fun _ w => Off i w) w := by
  refine safe_ask (fun w₁ _ hI x r₀ r w₂ hs hr _ => ?_) (fun _ _ _ e he => by simp [mayRaise] at he)
  cases x with
  | served =>
      cases hs
      have hoff : Off i { w₁ with
          task := Function.update w₁.task i none
          broken := Function.update w₁.broken i false } := Function.update_self _ _ _
      exact ⟨kept_close hI, fun _ _ => hoff, fun _ _ => hoff⟩
  | _ => cases hs

/-- Whatever a program keeps, its session is closed at the end. -/
lemma safe_withDb {α : Type} {P : World ι → Prop} {p : Handler α}
    (h : Safe sp a i p (fun _ w => P w) (fun _ w => P w) w) :
    Safe sp a i (withDb p) (fun _ w => Off i w) (fun _ w => Off i w) w := by
  refine Discipline.wpE_tryFinally ?_
  exact Discipline.wpE_mono (fun _ _ _ => safe_close) (fun _ _ _ => safe_close) h

lemma steady_fail {P : World ι → Prop} (hP : Lasting a i P) (acct : GitHubAccount)
    (pending : AccountChanges) (detail : String) :
    Steady sp a i P (fail acct pending detail) :=
  steady_harmless hP trivial

lemma steady_devicePoll : Steady sp a i (Off i) (devicePoll a) := by
  unfold devicePoll
  refine .bind (steady_harmless off_lasting trivial) (fun acct => ?_)
  cases acct with
  | none => exact .throw _
  | some acct =>
      refine .ite (.pure _) (.bind (steady_harmless off_lasting trivial) (fun reply => ?_))
      cases reply with
      | pending => exact .pure _
      | error message => exact .bind (steady_fail off_lasting _ _ _) (fun _ => .pure _)
      | success token =>
          exact .bind (steady_harmless off_lasting trivial) (fun who =>
            .bind (steady_harmless off_lasting trivial) (fun _ =>
              .bind (steady_harmless off_lasting trivial) (fun _ => .pure _)))

lemma steady_deleteAccount : Steady sp a i (Off i) deleteAccount := by
  unfold deleteAccount
  refine .bind (steady_harmless off_lasting trivial) (fun acct => ?_)
  cases acct with
  | none => exact .throw _
  | some acct => exact steady_harmless off_lasting trivial

/-! ## The deployment -/

/-- The thread runs a deployment, so that no teardown runs beside it. -/
def Deploying (i : ι) (w : World ι) : Prop := w.task i = some .deploy

omit [DecidableEq ι] in
lemma deploying_lasting : Lasting a i (Deploying i) := fun _ _ hR h => hR.task.trans h

/-- Calls that leave the row and the tasks alone, whatever they do to the gateway or in Azure. -/
def Call.Plain : Call → Prop
  | .getAccount (some _) | .deleteAccount | .close => False
  | _ => True

lemma serve_plain {o : Call} (ho : o.Plain) {x : Pick} {r : accountsApi.Reply o} {w' : World ι}
    (hs : serve sp a i w o x = some (r, w')) :
    w'.task = w.task ∧ (w'.row = none → w.row = none) := by
  by_cases hharm : o.Harmless
  · have hsame := serve_same hharm hs
    refine ⟨hsame.task, fun hrow => ?_⟩
    have hsome := hsame.row
    rw [hrow] at hsome
    exact Option.isNone_iff_eq_none.1 (by simpa using hsome.symm)
  -- What is left are the calls that change the hub or the gateway.
  · unfold serve at hs
    cases o with
    | getAccount task =>
        cases task with
        | none => exact absurd trivial hharm
        | some t => exact ho.elim
    | deleteAccount | close => exact ho.elim
    | dispatch action =>
        cases x <;> cases hs
        exact ⟨rfl, id⟩
    | gateway o =>
        cases o with
        | putBackend b contract | deleteBackend b =>
            cases x <;> cases hs
            exact ⟨rfl, id⟩
        | _ =>
            cases x with
            | status refusal =>
                obtain ⟨⟨r', g⟩, -, heq⟩ := Option.map_eq_some_iff.1 hs
                cases heq
                exact ⟨rfl, id⟩
            | _ => cases hs
    | execute n =>
        cases x with
        | outcome success left =>
            dsimp only at hs
            split at hs
            · cases hs
              exact ⟨rfl, id⟩
            · cases hs
        | _ => cases hs
    | editPool id =>
        cases x with
        | document props =>
            dsimp only at hs
            split_ifs at hs
            cases hs
            exact ⟨rfl, fun h => h⟩
        | _ => cases hs
    | _ => exact absurd trivial hharm

lemma steady_plain {o : Call} (ho : o.Plain) : Steady sp a i (Deploying i) (ask o) := by
  refine fun w hw => safe_ask (fun w₁ hR hI x r₀ r w₂ hs _ _ => ?_)
    (fun w₁ hR _ _ _ _ => deploying_lasting w w₁ hR hw)
  obtain ⟨htask, hrow⟩ := serve_plain ho hs
  have hd : Deploying i w₁ := deploying_lasting w w₁ hR hw
  have hd₂ : Deploying i w₂ := by
    rw [Deploying, htask]
    exact hd
  have hq : ¬ Quiet w₁ := fun hq => hq.1 i hd
  exact ⟨kept_of_not_quiet hI hq htask hrow, fun _ _ => hd₂, fun _ _ => hd₂⟩

lemma steady_findRun {P : World ι → Prop} (hP : Lasting a i P) (n rounds : ℕ) :
    Steady sp a i P (TerraformRunner.findRun runner n rounds) :=
  TerraformRunner.steady_findRun (fun n => steady_harmless hP (o := .listRuns n) trivial) n rounds

lemma steady_pollRun {P : World ι → Prop} (hP : Lasting a i P) (n rounds : ℕ) :
    Steady sp a i P (TerraformRunner.pollRun runner n a rounds) :=
  TerraformRunner.steady_pollRun (fun n => steady_harmless hP (o := .getRun n) trivial) n a rounds

lemma steady_deployHub (rounds : TerraformRunner.Rounds) (token : String) :
    Steady sp a i (Deploying i) (TerraformRunner.deployHub runner rounds a token) := by
  unfold TerraformRunner.deployHub TerraformRunner.runWorkflow TerraformRunner.readStateOutputs
  refine .bind (steady_plain trivial) (fun _ => .bind (steady_plain trivial) (fun _ =>
    .bind (steady_plain trivial) (fun _ => .bind (steady_plain trivial) (fun _ =>
      .bind (.bind (steady_plain trivial) (fun n => .bind (steady_findRun deploying_lasting _ _)
        (fun _ => steady_pollRun deploying_lasting _ _))) (fun _ => ?_)))))
  refine .bind (.bind (steady_plain trivial) (fun outputs => ?_)) (fun _ => .pure _)
  exact .ite (.throw _) (.pure _)

lemma steady_addHubToPools (backendBase fqdn key : String) :
    Steady sp a i (Deploying i) (Pools.addHubToPools (provisioner backendBase) a fqdn key) := by
  unfold Pools.addHubToPools
  refine .bind (.forM (fun p => ?_) _) (fun _ => .pure _)
  refine .bind (steady_plain trivial) (fun _ => ?_)
  unfold Pools.poolAddService
  refine .bind (steady_plain trivial) (fun _ => .bind (steady_plain trivial) (fun reply => ?_))
  cases reply with
  | found props eTag =>
      exact .ite (.pure _) (.bind (steady_plain trivial) (fun _ => Pools.steady_raiseForArm _))
  | status code =>
      exact .ite (.bind (steady_plain trivial) (fun _ => Pools.steady_raiseForArm _))
        (Pools.steady_raiseForArm _)

lemma steady_registerHubCatalog (fqdn token : String) (pending : AccountChanges) :
    Steady sp a i (Deploying i) (registerHubCatalog fqdn token pending) := by
  unfold registerHubCatalog
  refine .bind (steady_plain trivial) (fun known => .ite (.bind (steady_plain trivial)
    (fun _ => .tryCatch (.bind (steady_plain trivial) (fun _ => .pure _)) (fun e => ?_))) (.pure _))
  cases e <;> first
    | exact .throw _
    | exact .bind (steady_plain trivial) (fun _ => .pure _)

lemma steady_attempt {α : Type} {P : World ι → Prop} {onError : PyErr → Handler Unit}
    {p : Handler α} (hp : Steady sp a i P p) (he : ∀ e, Steady sp a i P (onError e)) :
    Steady sp a i P (attempt onError p) :=
  .tryCatch (.bind hp (fun _ => .pure _)) (fun e => .bind (he e) (fun _ => .pure _))

lemma steady_recordFailure (acct : GitHubAccount) (pending : AccountChanges) (exc : PyErr) :
    Steady sp a i (Deploying i) (recordFailure acct pending exc) :=
  .bind (steady_plain trivial) (fun _ => steady_plain trivial)

lemma steady_joinPools (settings : Settings) (acct : GitHubAccount)
    (deployed : TerraformRunner.Deployed) :
    Steady sp a i (Deploying i) (joinPools settings a acct deployed) := by
  unfold joinPools
  refine .bind (steady_attempt (.bind (steady_plain trivial) (fun _ => steady_plain trivial))
    (steady_recordFailure _ _)) (fun stored => .ite (.pure _) ?_)
  refine .bind (steady_attempt (steady_plain trivial) (steady_recordFailure _ _))
    (fun committed => .ite (.pure _) ?_)
  refine .bind (steady_attempt (steady_addHubToPools _ _ _) (steady_recordFailure _ _))
    (fun backendIds => ?_)
  cases backendIds with
  | none => exact .pure _
  | some backendIds =>
      exact .bind (.tryCatch (steady_registerHubCatalog _ _ _) (fun _ => .pure _)) (fun pending =>
        .bind (steady_attempt (steady_plain trivial) (steady_recordFailure _ _)) (fun _ => .pure _))

/-- What a task knows when it has read the row: without one it has not begun. -/
def Begun (i : ι) (t : Task) (acct : Option GitHubAccount) (w : World ι) : Prop :=
  acct ≠ none → w.task i = some t

/-- The read with which a background task begins.  It takes the task up where the row is there. -/
lemma safe_begin (t : Task) :
    Safe sp a i (ask (.getAccount (some t))) (Begun i t) (fun _ _ => True) w := by
  refine safe_ask (fun w₁ _ hI x r₀ r w₂ hs hr hok => ?_) (fun _ _ _ _ _ _ => trivial)
  cases x with
  | served =>
      simp only [serve] at hs
      obtain ⟨rfl, rfl⟩ := Prod.mk.inj (Option.some.inj hs)
      by_cases hrow : w₁.row = none
      · refine ⟨by simpa [hrow] using kept_self hI, fun acct hacct hne => ?_, fun _ _ => trivial⟩
        rcases hr with rfl | ⟨e, -, he⟩
        · cases hacct
          exact absurd hrow hne
        · rw [hacct] at he
          cases he
      · have hsome : w₁.row.isSome = true := Option.isSome_iff_ne_none.2 hrow
        simp only [hsome, Option.isSome_some, and_self, if_true]
        refine ⟨kept_begin hrow ?_ ?_, fun _ _ _ => Function.update_self _ _ _, fun _ _ => trivial⟩
        · rintro rfl
          exact hok hrow
        · rintro rfl
          exact hok hrow
  | _ => cases hs

omit [DecidableEq ι] in
lemma true_lasting : Lasting a i (fun _ => True) := fun _ _ _ _ => trivial

/-- A deployment keeps the invariant, however its calls end and whatever runs beside it. -/
lemma safe_deployAccount (settings : Settings) :
    Safe sp a i (deployAccount settings a) (fun _ _ => True) (fun _ _ => True) w := by
  unfold deployAccount
  refine Discipline.wpE_mono (fun _ _ _ => trivial) (fun _ _ _ => trivial)
    (safe_withDb (P := fun _ => True) ?_)
  refine (Discipline.wpE_bind _ _).2 ?_
  unfold attempt
  refine (Discipline.wpE_tryCatch _ _).2 ((Discipline.wpE_bind _ _).2 ?_)
  refine Discipline.wpE_mono (fun acct w hw => ?_) (fun e w _ => ?_) (safe_begin .deploy)
  · cases acct with
    | none => trivial
    | some acct =>
        have hd : Deploying i w := hw (by simp)
        refine (Discipline.wpE_pure _).2 ?_
        dsimp only
        cases truthy acct.oauthTokenKvRef with
        | none => trivial
        | some ref =>
            refine Discipline.wpE_mono (fun _ _ _ => trivial) (fun _ _ _ => trivial)
              ((?_ : Steady sp a i (Deploying i) _) w hd)
            refine .bind (steady_attempt (.bind (steady_plain trivial) (fun token => ?_))
              (steady_recordFailure _ _)) (fun deployed => ?_)
            · cases truthy token with
              | none => exact .bind (steady_plain trivial) (fun _ => .pure _)
              | some token => exact .bind (steady_deployHub _ _) (fun _ => .pure _)
            · rcases deployed with _ | (_ | deployed)
              · exact .pure _
              · exact .pure _
              · exact steady_joinPools _ _ _
  · refine (Discipline.wpE_bind _ _).2 ((Discipline.wpE_bind _ _).2 ?_)
    refine Discipline.wpE_mono (fun acct w _ => ?_) (fun _ _ h => h) (safe_begin .deploy)
    cases acct with
    | none => trivial
    | some acct => exact steady_fail true_lasting _ _ _ w trivial

/-! ## The teardown -/

/-- The thread runs a teardown, and relies on what it has removed to stay away. -/
def Tearing (i : ι) (w : World ι) : Prop := w.task i = some .teardown

/-- The pool of the provider does not list the account. -/
def Gone (a : AccountId) (p : Provider) (w : World ι) : Prop :=
  listed p a (services (w.gateway.pool p)) = 0

omit [DecidableEq ι] in
/-- In a teardown, what has gone away stays away: a fact that shrinking keeps is a lasting one
there. -/
lemma lasting_of_shrinks {P R : World ι → Prop} (hP : Lasting a i P) (hT : ∀ w, P w → Tearing i w)
    (hR : ∀ w w', Shrinks a w w' → R w → R w') : Lasting a i (fun w => P w ∧ R w) :=
  fun w w' hr h => ⟨hP w w' hr h.1, hR w w' (hr.shrinks (hT w h.1)) h.2⟩

omit [DecidableEq ι] in
lemma gone_shrinks {p : Provider} {w w' : World ι} (hS : Shrinks a w w') (h : Gone a p w) :
    Gone a p w' := by
  have := hS.members p
  rw [h] at this
  exact Nat.le_zero.1 this

omit [DecidableEq ι] in
lemma absent_shrinks {b : String} {w w' : World ι} (hS : Shrinks a w w')
    (h : w.backends b = false) : w'.backends b = false := by
  by_contra hb
  have hold := hS.backends b (by simpa using hb)
  rw [h] at hold
  cases hold

omit [DecidableEq ι] in
lemma hub_shrinks {w w' : World ι} (hS : Shrinks a w w') (h : w.hub = false) : w'.hub = false := by
  by_contra hb
  have hold := hS.hub (by simpa using hb)
  rw [h] at hold
  cases hold

omit [DecidableEq ι] in
/-- Writing a document that lists the account no more often than before. -/
lemma write_shrinks {name : String} {v : Option PoolProps}
    (h : ∀ p, name = poolId p →
      listed p a (services v) ≤ listed p a (services (w.gateway.pool p))) :
    Shrinks a w { w with gateway := w.gateway.write i name v } := by
  refine ⟨id, fun p => ?_, fun _ => id, fun _ o ho => ⟨o, ho, .inl rfl⟩⟩
  by_cases hp : name = poolId p
  · subst hp
    dsimp only
    rw [Pools.pool_write_self]
    exact h p rfl
  · have hsame : (w.gateway.write i name v).pools (poolId p) = w.gateway.pools (poolId p) :=
      Function.update_of_ne (Ne.symm hp) _ _
    dsimp only [Pools.World.pool]
    rw [hsame]

lemma safe_getPool {P : World ι → Prop} (hP : Lasting a i P) (name : String) (hw : P w) :
    Safe sp a i (ask (.gateway (.getPool name)))
      (fun reply w => P w ∧ Pools.Read name reply w.gateway) (fun _ w => P w) w := by
  refine safe_ask (fun w₁ hR hI x r₀ r w₂ hs hr _ => ?_) (fun w₁ hR _ _ _ _ => hP w w₁ hR hw)
  have hw₁ := hP w w₁ hR hw
  have hsame : Same w₁ w₂ := serve_same (o := .gateway (.getPool name)) trivial hs
  have hw₂ := hP w₁ w₂ hsame.rely hw₁
  refine ⟨hsame.kept hI, fun reply hreply => ⟨hw₂, ?_⟩, fun _ _ => hw₂⟩
  cases x with
  | status refusal =>
      obtain ⟨⟨r', g⟩, hg, heq⟩ := Option.map_eq_some_iff.1 hs
      cases heq
      obtain ⟨-, reply', rfl, hread⟩ := Pools.serve_getPool hg
      rw [hsame.gateway]
      rcases hr with rfl | ⟨e, -, he⟩
      · cases hreply
        exact hread
      · rw [hreply] at he
        cases he
  | _ => cases hs

/-- Writing back a document without the account.  If the write is accepted the account is gone from
the pool. -/
lemma safe_putPool {P : World ι → Prop} (hP : Lasting a i P) {p : Provider} {props : PoolProps}
    (hprops : listed p a props.services = 0) (im : Option KeyLimits.IfMatch) (hw : P w) :
    Safe sp a i (ask (.gateway (.putPool (poolId p) props im)))
      (fun status w => P w ∧ ((400 ≤ status ∧ status ≤ 599) ∨ Gone a p w)) (fun _ w => P w) w := by
  refine safe_ask (fun w₁ hR hI x r₀ r w₂ hs hr _ => ?_) (fun w₁ hR _ _ _ _ => hP w w₁ hR hw)
  have hw₁ := hP w w₁ hR hw
  cases x with
  | status refusal =>
      obtain ⟨⟨r', g⟩, hg, heq⟩ := Option.map_eq_some_iff.1 hs
      cases heq
      rcases Pools.serve_putPool hg with ⟨rfl, code, hcode, rfl⟩ | ⟨-, rfl, -⟩
      · refine ⟨kept_self hI, fun status hstatus => ⟨hw₁, .inl ?_⟩, fun _ _ => hw₁⟩
        rcases hr with rfl | ⟨e, -, he⟩
        · cases hstatus
          exact hcode
        · rw [hstatus] at he
          cases he
      · have hzero : listed p a (services (some (sp.store props))) = 0 := by
          rw [Pools.services_some, Pools.listed_store, hprops]
        have hS : Shrinks a w₁ { w₁ with
            gateway := w₁.gateway.write i (poolId p) (some (sp.store props)) } := by
          refine write_shrinks (fun q hq => ?_)
          rw [← Pools.poolId_injective hq, hzero]
          exact Nat.zero_le _
        have hw₂ : P { w₁ with
            gateway := w₁.gateway.write i (poolId p) (some (sp.store props)) } :=
          hP w₁ _ ⟨rfl, fun _ => hS⟩ hw₁
        refine ⟨kept_of_shrinks hI hS rfl id id, fun _ _ => ⟨hw₂, .inr ?_⟩, fun _ _ => hw₂⟩
        rw [Gone, Pools.pool_write_self]
        exact hzero
  | _ => cases hs

/-- Deleting the document; that it is not found also means that the account is gone. -/
lemma safe_deletePool {P : World ι → Prop} (hP : Lasting a i P) {p : Provider}
    (im : KeyLimits.IfMatch) (hw : P w) :
    Safe sp a i (ask (.gateway (.deletePool (poolId p) im)))
      (fun status w => P w ∧ (((400 ≤ status ∧ status ≤ 599) ∧ status ≠ 404) ∨ Gone a p w))
      (fun _ w => P w) w := by
  refine safe_ask (fun w₁ hR hI x r₀ r w₂ hs hr _ => ?_) (fun w₁ hR _ _ _ _ => hP w w₁ hR hw)
  have hw₁ := hP w w₁ hR hw
  cases x with
  | status refusal =>
      obtain ⟨⟨r', g⟩, hg, heq⟩ := Option.map_eq_some_iff.1 hs
      cases heq
      rcases Pools.serve_deletePool hg with ⟨rfl, code, hcode, h404, rfl⟩ | ⟨rfl, hnone⟩ | ⟨-, rfl⟩
      · refine ⟨kept_self hI, fun status hstatus => ⟨hw₁, .inl ?_⟩, fun _ _ => hw₁⟩
        rcases hr with rfl | ⟨e, -, he⟩
        · cases hstatus
          exact ⟨hcode, h404⟩
        · rw [hstatus] at he
          cases he
      · refine ⟨kept_self hI, fun _ _ => ⟨hw₁, .inr ?_⟩, fun _ _ => hw₁⟩
        rw [Gone, Pools.World.pool, hnone]
        rfl
      · have hS : Shrinks a w₁ { w₁ with gateway := w₁.gateway.write i (poolId p) none } :=
          write_shrinks (fun q _ => Nat.zero_le _)
        have hw₂ : P { w₁ with gateway := w₁.gateway.write i (poolId p) none } :=
          hP w₁ _ ⟨rfl, fun _ => hS⟩ hw₁
        refine ⟨kept_of_shrinks hI hS rfl id id, fun _ _ => ⟨hw₂, .inr ?_⟩, fun _ _ => hw₂⟩
        rw [Gone, Pools.pool_write_self]
        rfl
  | _ => cases hs

lemma safe_raiseForArm {P Q : World ι → Prop} {status : ℕ} (hw : P w)
    (h : (400 ≤ status ∧ status ≤ 599) ∨ Q w) :
    Safe sp a i (Pools.raiseForArm status) (fun _ w => Q w) (fun _ w => P w) w := by
  unfold Pools.raiseForArm
  split_ifs with hbad
  · exact hw
  · exact h.resolve_left hbad

/-- Detaching the policy does not touch the pools, so what is gone from them is gone after it. -/
lemma steady_detachApiPolicy {P : World ι → Prop} (hP : Lasting a i P) (backendBase : String)
    (p : Provider) :
    Steady sp a i P (Pools.detachApiPolicy (provisioner backendBase) p) := by
  unfold Pools.detachApiPolicy
  refine .tryCatch (steady_harmless hP trivial) (fun e => ?_)
  cases e <;> first
    | exact .pure _
    | exact .throw _

/-- A pool that the account has left does not list it. -/
lemma safe_poolRemoveService {P : World ι → Prop} (hP : Lasting a i P) (backendBase : String)
    (p : Provider) (hw : P w) :
    Safe sp a i
      (Pools.poolRemoveService (provisioner backendBase) (poolId p) (backendId p a) (some p))
      (fun _ w => P w ∧ Gone a p w) (fun _ w => P w) w := by
  unfold Pools.poolRemoveService
  refine (Discipline.wpE_bind _ _).2 ?_
  refine Discipline.wpE_mono (fun _ w hw => ?_) (fun _ _ h => h)
    (steady_harmless hP (o := .gateway .armToken) trivial w hw)
  refine (Discipline.wpE_bind _ _).2 ?_
  refine Discipline.wpE_mono (fun reply w hread => ?_) (fun _ _ h => h)
    (safe_getPool hP (poolId p) hw)
  obtain ⟨hw, ⟨props, hpool, rfl⟩ | ⟨hnone, rfl⟩ | ⟨code, hbad, h404, rfl⟩⟩ := hread
  · change Safe sp a i (if (Pools.others p a props.services).length = props.services.length
      then _ else if Pools.others p a props.services = [] then _ else _) _ _ w
    split_ifs with hlen hempty
    · refine ⟨hw, ?_⟩
      rw [Gone, Pools.World.pool, hpool]
      exact Pools.listed_eq_zero_of_length hlen
    · -- The last member: the policy goes first, then the pool.
      refine (Discipline.wpE_bind _ _).2 ?_
      refine Discipline.wpE_mono (fun _ w hw => ?_) (fun _ _ h => h)
        (steady_detachApiPolicy hP _ _ w hw)
      refine (Discipline.wpE_bind _ _).2 ?_
      refine Discipline.wpE_mono (fun status w hs => ?_) (fun _ _ h => h)
        (safe_deletePool hP _ hw)
      split_ifs with h404
      · exact ⟨hs.1, hs.2.resolve_left (fun h => h.2 h404)⟩
      · exact safe_raiseForArm hs.1 (hs.2.imp And.left (fun h => ⟨hs.1, h⟩))
    · refine (Discipline.wpE_bind _ _).2 ?_
      refine Discipline.wpE_mono (fun status w hs => ?_) (fun _ _ h => h)
        (safe_putPool hP (Pools.listed_others_self p a _) _ hw)
      exact safe_raiseForArm hs.1 (hs.2.imp id (fun h => ⟨hs.1, h⟩))
  · dsimp only
    rw [if_pos rfl]
    refine ⟨hw, ?_⟩
    rw [Gone, Pools.World.pool, hnone]
    rfl
  · dsimp only
    rw [if_neg h404]
    exact safe_raiseForArm hw (.inl hbad)

/-- Deleting a backend: unless another exception is raised, it is gone. -/
lemma safe_removeBackend {P : World ι → Prop} (hP : Lasting a i P) (backendBase b : String)
    (hw : P w) :
    Safe sp a i (Pools.removeBackend (provisioner backendBase) b)
      (fun _ w => P w ∧ w.backends b = false) (fun _ w => P w) w := by
  have hdelete : Safe sp a i (ask (.gateway (.deleteBackend b)))
      (fun _ w => P w ∧ w.backends b = false)
      (fun e w => P w ∧ ((e = .resourceNotFound ∨ ∃ status, e = .httpResponse status) →
        w.backends b = false)) w := by
    refine safe_ask (fun w₁ hR hI x r₀ r w₂ hs _ _ => ?_) (fun w₁ hR _ e he hok => ?_)
    · cases x with
      | served =>
          cases hs
          have hgone : Function.update w₁.backends b false b = false := Function.update_self _ _ _
          have hS : Shrinks a w₁ { w₁ with backends := Function.update w₁.backends b false } := by
            refine ⟨id, fun _ => le_refl _, fun b' hb' => ?_, fun _ o ho => ⟨o, ho, .inl rfl⟩⟩
            by_cases hb : b' = b
            · subst hb
              exact absurd (hb'.symm.trans hgone) nofun
            · exact (Function.update_of_ne hb _ _).symm.trans hb'
          have hw₂ : P { w₁ with backends := Function.update w₁.backends b false } :=
            hP w₁ _ ⟨rfl, fun _ => hS⟩ (hP w w₁ hR hw)
          exact ⟨kept_of_shrinks hI hS rfl id id, fun _ _ => ⟨hw₂, hgone⟩,
            fun _ _ => ⟨hw₂, fun _ => hgone⟩⟩
      | _ => cases hs
    · refine ⟨hP w w₁ hR hw, ?_⟩
      rintro (rfl | ⟨status, rfl⟩)
      · simp [mayRaise] at he
      · exact hok status rfl
  refine (Discipline.wpE_tryCatch _ _).2 (Discipline.wpE_mono (fun _ _ h => h) ?_ hdelete)
  intro e w he
  cases e with
  | resourceNotFound => exact ⟨he.1, he.2 (.inl rfl)⟩
  | httpResponse status => exact ⟨he.1, he.2 (.inr ⟨status, rfl⟩)⟩
  | _ => exact he.1

/-- The account has left the pools of the providers that are not in the list, and their backends
are gone. -/
def Cleared (a : AccountId) (ps : List Provider) (w : World ι) : Prop :=
  ∀ p, p ∉ ps → Gone a p w ∧ w.backends (backendId p a) = false

omit [DecidableEq ι] in
lemma cleared_shrinks {ps : List Provider} {w w' : World ι} (hS : Shrinks a w w')
    (h : Cleared a ps w) : Cleared a ps w' := fun p hp =>
  ⟨gone_shrinks hS (h p hp).1, absent_shrinks hS (h p hp).2⟩

omit [DecidableEq ι] in
lemma tearing_lasting : Lasting a i (Tearing i) := fun _ _ hR h => hR.task.trans h

/-- The teardown has left nothing behind at the gateway: it returns only after every pool and every
backend is clear. -/
lemma safe_removeHubFromPools (backendBase : String) (backendIds : List String)
    (hw : Tearing i w) :
    Safe sp a i (Pools.removeHubFromPools (provisioner backendBase) a backendIds)
      (fun _ w => Tearing i w ∧ Cleared a [] w) (fun _ _ => True) w := by
  have hlasting : ∀ ps, Lasting a i (fun w => Tearing i w ∧ Cleared a ps w) := fun ps =>
    lasting_of_shrinks tearing_lasting (fun _ h => h) (fun _ _ => cleared_shrinks)
  have hround : ∀ p ps w, Tearing i w ∧ Cleared a (p :: ps) w →
      Safe sp a i (do
        Pools.poolRemoveService (provisioner backendBase) (poolId p) (backendId p a) (some p)
        Pools.removeBackend (provisioner backendBase) (backendId p a))
        (fun _ w => Tearing i w ∧ Cleared a ps w) (fun _ _ => True) w := by
    intro p ps w hw
    refine (Discipline.wpE_bind _ _).2 ?_
    refine Discipline.wpE_mono (fun _ w hw => ?_) (fun _ _ _ => trivial)
      (safe_poolRemoveService (hlasting _) _ p hw)
    have hleft : Lasting a i
        (fun w => (Tearing i w ∧ Cleared a (p :: ps) w) ∧ Gone a p w) :=
      lasting_of_shrinks (hlasting _) (fun _ h => h.1) (fun _ _ => gone_shrinks)
    refine Discipline.wpE_mono (fun _ w hw => ?_) (fun _ _ _ => trivial)
      (safe_removeBackend hleft _ _ hw)
    obtain ⟨⟨⟨ht, hc⟩, hgone⟩, hback⟩ := hw
    refine ⟨ht, fun q hq => ?_⟩
    by_cases hqp : q = p
    · subst hqp
      exact ⟨hgone, hback⟩
    · exact hc q (by simp [hqp, hq])
  have hextra : Steady sp a i (fun w => Tearing i w ∧ Cleared a [] w)
      (backendIds.forM (fun b => if a.id.toList.isSuffixOf b.toList then return ()
        else Pools.removeBackend (provisioner backendBase) b)) := by
    refine .forM (fun b => .ite (.pure _) (fun w hw => ?_)) _
    exact Discipline.wpE_mono (fun _ _ h => h.1) (fun _ _ h => h)
      (safe_removeBackend (hlasting []) _ b hw)
  refine (Discipline.wpE_bind _ _).2 ?_
  refine Discipline.wpE_mono (fun _ w hw => ?_) (fun _ _ h => h)
    (Discipline.wpE_forM (P := fun ps w => Tearing i w ∧ Cleared a ps w) hround
      ⟨hw, fun p hp => absurd (Pools.mem_providers p) hp⟩)
  exact Discipline.wpE_mono (fun _ _ h => h) (fun _ _ _ => trivial) (hextra w hw)

/-- The run is a destroy run, and if it was successful the hub is gone. -/
def Dispatched (n : ℕ) (w : World ι) : Prop :=
  ∃ o, w.runs[n]? = some ⟨.destroy, o⟩ ∧ (o = some true → w.hub = false)

omit [DecidableEq ι] in
lemma dispatched_shrinks {n : ℕ} {w w' : World ι} (hS : Shrinks a w w') (h : Dispatched n w) :
    Dispatched n w' := by
  obtain ⟨o, ho, hdone⟩ := h
  obtain ⟨o', ho', hor⟩ := hS.runs n o ho
  refine ⟨o', ho', fun h' => ?_⟩
  rcases hor with rfl | hgone
  · exact hub_shrinks hS (hdone h')
  · exact hgone h'

lemma safe_dispatch {P : World ι → Prop} (hP : Lasting a i P) (hw : P w) :
    Safe sp a i (ask (.dispatch .destroy)) (fun n w => P w ∧ Dispatched n w)
      (fun _ w => P w) w := by
  refine safe_ask (fun w₁ hR hI x r₀ r w₂ hs hr _ => ?_) (fun w₁ hR _ _ _ _ => hP w w₁ hR hw)
  cases x with
  | served =>
      cases hs
      have hS : Shrinks a w₁ { w₁ with runs := w₁.runs ++ [⟨.destroy, none⟩] } := by
        refine ⟨id, fun _ => le_refl _, fun _ => id, fun n o ho => ⟨o, ?_, .inl rfl⟩⟩
        exact (List.getElem?_append_left (List.getElem?_eq_some_iff.1 ho).1).trans ho
      have hw₂ : P { w₁ with runs := w₁.runs ++ [⟨.destroy, none⟩] } :=
        hP w₁ _ ⟨rfl, fun _ => hS⟩ (hP w w₁ hR hw)
      refine ⟨kept_of_shrinks hI hS rfl (fun h => by simpa using h) id, fun n hn => ⟨hw₂, ?_⟩,
        fun _ _ => hw₂⟩
      rcases hr with rfl | ⟨e, -, he⟩
      · cases hn
        exact ⟨none, by simp, fun h => by cases h⟩
      · rw [hn] at he
        cases he
  | _ => cases hs

lemma safe_getRun {P : World ι → Prop} (hP : Lasting a i P) {n : ℕ}
    (hn : ∀ w, P w → Dispatched n w) (hw : P w) :
    Safe sp a i (ask (.getRun n)) (fun o w => P w ∧ (o = some true → w.hub = false))
      (fun _ _ => True) w := by
  refine safe_ask (fun w₁ hR hI x r₀ r w₂ hs hr _ => ?_) (fun _ _ _ _ _ _ => trivial)
  cases x with
  | served =>
      have hw₁ := hP w w₁ hR hw
      obtain ⟨o, ho, hdone⟩ := hn w₁ hw₁
      simp only [serve, ho] at hs
      cases hs
      refine ⟨kept_self hI, fun o' ho' => ⟨hw₁, ?_⟩, fun _ _ => trivial⟩
      rcases hr with rfl | ⟨e, -, he⟩
      · cases ho'
        exact hdone
      · rw [ho'] at he
        cases he
  | _ => cases hs

/-- A poll that returns has seen the destroy run succeed. -/
lemma safe_pollRun {P : World ι → Prop} (hP : Lasting a i P) {n : ℕ}
    (hn : ∀ w, P w → Dispatched n w) (rounds : ℕ) (hw : P w) :
    Safe sp a i (TerraformRunner.pollRun runner n a rounds)
      (fun _ w => P w ∧ w.hub = false) (fun _ _ => True) w := by
  induction rounds generalizing w with
  | zero => trivial
  | succ rounds ih =>
      refine (Discipline.wpE_bind _ _).2 ?_
      refine Discipline.wpE_mono (fun o w ho => ?_) (fun _ _ _ => trivial) (safe_getRun hP hn hw)
      cases o with
      | none => exact ih ho.1
      | some success =>
          cases success
          · trivial
          · exact ⟨ho.1, ho.2 rfl⟩

/-- `destroy_hub` returns only when the hub is gone; every other end of the workflow run raises. -/
lemma safe_destroyHub {P : World ι → Prop} (hP : Lasting a i P) (hT : ∀ w, P w → Tearing i w)
    (rounds : TerraformRunner.Rounds) (token : String) (hw : P w) :
    Safe sp a i (TerraformRunner.destroyHub runner rounds a token)
      (fun _ w => P w ∧ w.hub = false) (fun _ _ => True) w := by
  refine (Discipline.wpE_bind _ _).2 ?_
  refine Discipline.wpE_mono (fun _ w hw => ?_) (fun _ _ _ => trivial)
    (steady_harmless hP (o := .setJobInput _ _) trivial w hw)
  refine (Discipline.wpE_bind _ _).2 ?_
  refine Discipline.wpE_mono (fun n w hw => ?_) (fun _ _ _ => trivial) (safe_dispatch hP hw)
  have hPn : Lasting a i (fun w => P w ∧ Dispatched n w) :=
    lasting_of_shrinks hP hT (fun _ _ => dispatched_shrinks)
  refine (Discipline.wpE_bind _ _).2 ?_
  refine Discipline.wpE_mono (fun _ w hw => ?_) (fun _ _ _ => trivial)
    (steady_findRun hPn n rounds.find w hw)
  exact Discipline.wpE_mono (fun _ _ h => ⟨h.1.1, h.2⟩) (fun _ _ _ => trivial)
    (safe_pollRun hPn (fun _ h => h.2) rounds.poll hw)

/-- What a gate that was passed has seen to: the step behind it has returned, and its postcondition
holds. -/
lemma safe_gate {Q : World ι → Prop} {acct : GitHubAccount} {p : Handler Unit} {detail : String}
    (h : Safe sp a i p (fun _ w => Q w) (fun _ _ => True) w) :
    Safe sp a i (gate acct p detail) (fun passed w => passed = true → Q w) (fun _ _ => True) w := by
  refine (Discipline.wpE_tryCatch _ _).2 ((Discipline.wpE_bind _ _).2 ?_)
  refine Discipline.wpE_mono (fun _ w hw => fun _ => hw) (fun e w _ => ?_) h
  refine (Discipline.wpE_bind _ _).2 ?_
  exact Discipline.wpE_mono (fun _ _ _ => fun hf => nomatch hf) (fun _ _ _ => trivial)
    (steady_fail true_lasting _ _ _ w trivial)

/-- The row is deleted only where nothing is left, which the gates before have established. -/
lemma safe_deleteRow (hw : Tearing i w ∧ NoResidue a w) :
    Safe sp a i (ask .deleteAccount) (fun _ _ => True) (fun _ _ => True) w := by
  refine safe_ask (fun w₁ hR hI x r₀ r w₂ hs _ _ => ?_) (fun _ _ _ _ _ _ => trivial)
  cases x with
  | served =>
      cases hs
      have ht : Tearing i w₁ := hR.task.trans hw.1
      exact ⟨kept_delete hI ht (hw.2.shrinks (hR.shrinks hw.1)), fun _ _ => trivial,
        fun _ _ => trivial⟩
  | _ => cases hs

lemma steady_deleteSecrets {P : World ι → Prop} (hP : Lasting a i P)
    (refs : List (Option String)) : Steady sp a i P (deleteSecrets refs) := by
  refine .forM (fun ref => ?_) refs
  cases truthy ref with
  | none => exact .pure _
  | some ref => exact .tryCatch (steady_harmless hP trivial) (fun _ => .pure _)

lemma steady_readToken {P : World ι → Prop} (hP : Lasting a i P) (acct : GitHubAccount) :
    Steady sp a i P (readToken acct) := by
  unfold readToken
  cases truthy acct.oauthTokenKvRef with
  | none => exact .pure _
  | some ref => exact steady_harmless hP trivial

/-- A teardown keeps the invariant.  Each gate adds what its step has removed, and behind the last
of them nothing is left. -/
lemma safe_teardownAccount (settings : Settings) :
    Safe sp a i (teardownAccount settings a) (fun _ _ => True) (fun _ _ => True) w := by
  have hcleared : Lasting a i (fun w => Tearing i w ∧ Cleared a [] w) :=
    lasting_of_shrinks tearing_lasting (fun _ h => h) (fun _ _ => cleared_shrinks)
  have hclean : Lasting a i (fun w => Tearing i w ∧ NoResidue a w) :=
    lasting_of_shrinks tearing_lasting (fun _ h => h) (fun _ _ hS h => h.shrinks hS)
  unfold teardownAccount
  refine Discipline.wpE_mono (fun _ _ _ => trivial) (fun _ _ _ => trivial)
    (safe_withDb (P := fun _ => True) ?_)
  refine (Discipline.wpE_bind _ _).2 ?_
  refine Discipline.wpE_mono (fun acct w hw => ?_) (fun _ _ h => h) (safe_begin .teardown)
  cases acct with
  | none => trivial
  | some acct =>
      have ht : Tearing i w := hw (by simp)
      refine (Discipline.wpE_bind _ _).2 ?_
      refine Discipline.wpE_mono (fun removed w hw => ?_) (fun _ _ h => h)
        (safe_gate (safe_removeHubFromPools _ _ ht))
      cases removed
      · trivial
      refine (Discipline.wpE_bind _ _).2 ?_
      refine Discipline.wpE_mono (fun token w hw => ?_) (fun _ _ _ => trivial)
        (steady_readToken hcleared acct w (hw rfl))
      refine (Discipline.wpE_bind _ _).2 ?_
      refine Discipline.wpE_mono (fun destroyed w hw => ?_) (fun _ _ h => h)
        (safe_gate (safe_destroyHub hcleared (fun _ h => h.1) _ _ hw))
      cases destroyed
      · trivial
      obtain ⟨⟨ht, hc⟩, hhub⟩ := hw rfl
      have hr : NoResidue a w :=
        ⟨hhub, fun p => (hc p (by simp)).1, fun p => (hc p (by simp)).2⟩
      refine (Discipline.wpE_bind _ _).2 ?_
      refine Discipline.wpE_mono (fun _ w hw => ?_) (fun _ _ _ => trivial)
        (steady_deleteSecrets hclean _ w ⟨ht, hr⟩)
      exact safe_deleteRow hw

/-! ## The other parties -/

/-- A workflow run is executed: it creates the hub or destroys it, or fails and may leave resources
behind. -/
lemma safe_execute (n : ℕ) :
    Safe sp a i (ask (.execute n)) (fun _ _ => True) (fun _ _ => True) w := by
  refine safe_ask (fun w₁ _ hI x r₀ r w₂ hs _ _ => ?_) (fun _ _ _ _ he => by simp [mayRaise] at he)
  refine ⟨?_, fun _ _ => trivial, fun _ _ => trivial⟩
  cases x with
  | outcome success left =>
      simp only [serve] at hs
      split at hs
      · next action hrun =>
        cases hs
        cases action with
        | apply =>
            have hq : ¬ Quiet w₁ := fun hq => hq.2 (List.mem_of_getElem? hrun)
            exact kept_of_not_quiet hI hq rfl id
        | destroy =>
            refine kept_of_shrinks hI ⟨fun h => ?_, fun _ => le_refl _, fun _ => id,
              fun m o hm => ?_⟩ rfl (fun h => ?_) id
            · exact (Bool.and_eq_true _ _ ▸ h).1
            · by_cases hmn : n = m
              · subst hmn
                have hlt := (List.getElem?_eq_some_iff.1 hrun).1
                refine ⟨some success, by simp [hlt], .inr (fun h => ?_)⟩
                cases h
                exact Bool.and_false _
              · exact ⟨o, (List.getElem?_set_ne hmn).trans hm, .inl rfl⟩
            · rcases List.mem_or_eq_of_mem_set h with hmem | heq
              · exact hmem
              · cases heq
      · cases hs
  | _ => cases hs

/-- The task of another account writes to a pool, and does not touch the members of this one. -/
lemma safe_editPool (name : String) :
    Safe sp a i (ask (.editPool name)) (fun _ _ => True) (fun _ _ => True) w := by
  refine safe_ask (fun w₁ _ hI x r₀ r w₂ hs _ _ => ?_) (fun _ _ _ _ he => by simp [mayRaise] at he)
  refine ⟨?_, fun _ _ => trivial, fun _ _ => trivial⟩
  cases x with
  | document props =>
      simp only [serve] at hs
      split_ifs at hs with hless
      cases hs
      have hS : Shrinks a w₁ { w₁ with gateway := w₁.gateway.write i name props } :=
        write_shrinks (fun p hp => hless p (Pools.mem_providers p) hp)
      exact kept_of_shrinks hI hS rfl id id
  | _ => cases hs

lemma safe_program (settings : Settings) (party : Party) (hw : Off i w) :
    Safe sp a i (party.program settings a) (fun _ _ => True) (fun _ _ => True) w := by
  cases party with
  | poll =>
      refine (Discipline.wpE_bind _ _).2 ?_
      refine Discipline.wpE_mono (fun answer w _ => ?_) (fun _ _ _ => trivial)
        (safe_withDb (steady_devicePoll w hw))
      cases answer.2
      · trivial
      · exact safe_deployAccount settings
  | delete =>
      refine (Discipline.wpE_bind _ _).2 ?_
      exact Discipline.wpE_mono (fun _ _ _ => safe_teardownAccount settings)
        (fun _ _ _ => trivial) (safe_withDb (steady_deleteAccount w hw))
  | actions n => exact safe_execute n
  | neighbour name => exact safe_editPool name

end Rules

/-! ## No orphaned hub -/

section Runs

variable {ι : Type} [DecidableEq ι]

/-- No task is running; without a row there is no unfinished `apply` run and nothing is left. -/
structure World.Begins (a : AccountId) (w : World ι) : Prop where
  idle : ∀ i, w.task i = none
  clean : w.row = none → (⟨.apply, none⟩ : Run) ∉ w.runs ∧ NoResidue a w

omit [DecidableEq ι] in
lemma World.Begins.inv {a : AccountId} {w : World ι} (h : w.Begins a) : Inv a w := by
  refine ⟨fun hrow => ⟨⟨fun i => ?_, (h.clean hrow).1⟩, (h.clean hrow).2⟩, fun i hi => ?_⟩
  · rw [h.idle i]
    exact nofun
  · rw [h.idle i] at hi
    cases hi

/-- Something is left of the account's hub: its resources, a pool member or a backend. -/
def Residue (a : AccountId) (w : World ι) : Prop :=
  w.hub = true ∨ (∃ p, listed p a (services (w.gateway.pool p)) ≠ 0) ∨
    ∃ p, w.backends (backendId p a) = true

/-- Every request with its background task, and every move of the other parties. -/
def start (settings : Settings) (a : AccountId) (parties : ι → Party) (w : World ι) :
    Config accountsApi ι (World ι) (Except PyErr Unit) :=
  ⟨w, fun i => ((parties i).program settings a).run⟩

/-- **No orphaned hub.**  In every run that keeps the tasks apart and in which no existing backend
survives its deletion, the row outlives the hub. -/
theorem no_orphan (settings : Settings) (sp : Spelling) (a : AccountId) (parties : ι → Party)
    (w : World ι) (hw : w.Begins a)
    (c : Config accountsApi ι (World ι) (Except PyErr Unit))
    (h : Reaches (env sp a ι) KeptApart (start settings a parties w) c)
    (hr : Residue a c.world) : c.world.row ≠ none := by
  have hQ : ∀ (i : ι) (r : Except PyErr Unit),
      (discipline sp a).Stable i (fun _ => True) := fun _ _ _ _ _ _ _ => trivial
  have hsafe : ∀ i, (discipline sp a).wp KeptApart i ((parties i).program settings a).run
      (fun _ _ => True) w := by
    intro i
    refine Discipline.wp_mono (fun r w _ => trivial)
      (safe_program settings (parties i) (hw.idle i))
  have hI : Inv a c.world :=
    (Discipline.sound (D := discipline sp a) (Q := fun _ _ _ => True)
      (c := start settings a parties w) hQ hw.inv hsafe h).1
  intro hrow
  obtain ⟨-, hclean⟩ := hI.clean hrow
  rcases hr with hhub | ⟨p, hp⟩ | ⟨p, hp⟩
  · rw [hclean.hub] at hhub
    cases hhub
  · exact hp (hclean.members p)
  · rw [hclean.backends p] at hp
    cases hp

end Runs

/-! ## Deletion during a deployment -/

section Overtaken

instance {n : ℕ} (w : World (Fin n)) : Decidable (Quiet w) := inferInstanceAs (Decidable (_ ∧ _))

instance {n : ℕ} (i : Fin n) (w : World (Fin n)) (o : Call) (r : accountsApi.Reply o) :
    Decidable (KeptApart i w o r) :=
  match o, r with
  | .getAccount (some .deploy), _ =>
      inferInstanceAs (Decidable (w.row ≠ none → ∀ j, w.task j ≠ some .teardown))
  | .getAccount (some .teardown), _ => inferInstanceAs (Decidable (w.row ≠ none → Quiet w))
  | .gateway (.deleteBackend b), .error (.httpResponse status) =>
      decidable_of_iff (w.backends b = false) ⟨fun h _ _ => h, fun h => h status rfl⟩
  | .gateway (.deleteBackend _), .ok _ => isTrue nofun
  | .gateway (.deleteBackend _), .error (.http _ _) | .gateway (.deleteBackend _), .error .external
  | .gateway (.deleteBackend _), .error .resourceNotFound
  | .gateway (.deleteBackend _), .error (.httpStatus _)
  | .gateway (.deleteBackend _), .error (.terraform _)
  | .gateway (.deleteBackend _), .error (.valueError _)
  | .gateway (.deleteBackend _), .error .typeError
  | .gateway (.deleteBackend _), .error .overflowError
  | .gateway (.deleteBackend _), .error .staleData
  | .gateway (.deleteBackend _), .error .integrity
  | .gateway (.deleteBackend _), .error .pendingRollback
  | .gateway (.deleteBackend _), .error .invalidRequest => isTrue nofun
  | .gateway .armToken, _ | .gateway (.getPool _), _ | .gateway (.putPool _ _ _), _
  | .gateway (.deletePool _ _), _ | .gateway (.deletePolicy _), _ | .gateway (.putBackend _ _), _
  | .getAccount none, _ | .getAgain, _ | .commitAccount _, _ | .commitRoutes _, _ | .rollback, _
  | .deleteAccount, _ | .close, _ | .pollDeviceFlow _, _ | .whoami _, _ | .getSecret _, _
  | .setSecret _ _, _ | .deleteSecret _, _ | .drawToken, _ | .setJobInput _ _, _
  | .refreshHubImageRef, _ | .dispatch _, _ | .listRuns _, _ | .getRun _, _ | .readState, _
  | .fetchHubModels _ _, _ | .ensurePooledApis, _ | .execute _, _ | .editPool _, _ => isTrue trivial

lemma account_hexDigits : ∀ c ∈ "00000000000a".toList, c ∈ "0123456789abcdef".toList :=
  AccountId.hexDigits_of_all (by decide)

def account : AccountId := ⟨"00000000000a", account_hexDigits⟩

/-- The account waits for its device code; nothing is deployed. -/
def authorizing : World (Fin 4) where
  row := some {
    githubLogin := none
    githubUserId := none
    oauthTokenKvRef := none
    hubKeyKvRef := none
    adminTokenKvRef := none
    status := .pending
    errorDetail := none
    deviceCode := some "device"
    resourceGroup := none
    containerAppFqdn := none
    tfStateKey := none
    backendIds := [] }
  hub := false
  gateway := ⟨fun _ => ⟨none, []⟩⟩
  backends _ := false
  runs := []
  task _ := none
  broken _ := false

lemma authorizing_begins : authorizing.Begins account := ⟨fun _ => rfl, nofun⟩

def parties : Fin 4 → Party
  | 0 => .poll
  | 1 => .delete
  | 2 => .actions 0
  | 3 => .actions 1

def settings : Settings := ⟨Pools.backends, ⟨2, 2⟩⟩

/-- One thread makes its next calls, and every one is served. -/
def turn (i : Fin 4) (picks : List Pick) : List (Fin 4 × Fate Pick PyErr) :=
  picks.map (fun x => (i, .served x))

/-- The device flow succeeds, and the background task can begin. -/
def authorized : List Pick :=
  [.served, .device (.success "token"), .who ⟨some "login", some "1"⟩, .served, .served, .served]

/-- From the read of the row to the dispatch of the `apply` run. -/
def deployStarted : List Pick := [.served, .text (some "token")]

def deployDispatched : List Pick :=
  [.text (some "admin"), .text (some "hub"), .served, .served, .served]

/-- The run is found and has succeeded; the outputs are read and the secrets stored. -/
def deployFound : List Pick :=
  [.yes true, .served, .outputs ⟨"https://hub.example", "rg"⟩, .served, .served]

/-- The hub joins three new pools, and no model is added to the catalog. -/
def deployJoined : List Pick :=
  [.served] ++ (List.replicate 3 [.served, .status none, .status none, .status none]).flatten ++
    [.yes false, .served, .served]

/-- The deletion is accepted, and the teardown has passed the gateway up to the dispatch. -/
def teardownDispatched (calls : List Pick) : List Pick :=
  [.served, .served, .served, .served] ++ (List.replicate 3 calls).flatten ++
    [.text (some "token"), .served, .served, .yes true]

/-- One task after the other: the destroy run fails, the hub is left and so is the row. -/
theorem no_orphan_inTurn :
    ∃ c, Reaches (env Pools.relativeIds account (Fin 4)) KeptApart
        (start settings account parties authorizing) c ∧
      c.world.hub = true ∧ c.world.row ≠ none := by
  obtain ⟨c, hreach, hhub⟩ := Config.reaches_of_play (env Pools.relativeIds account (Fin 4))
    KeptApart (start settings account parties authorizing)
    (turn 0 (authorized ++ deployStarted ++ deployDispatched) ++ turn 2 [.outcome true true] ++
      turn 0 (deployFound ++ deployJoined) ++
      turn 1 (teardownDispatched
        [.status none, .status none, .status none, .status none, .served]) ++
      turn 3 [.outcome false true] ++ turn 1 [.served, .served, .served])
    (fun c => c.world.hub = true) (by decide +kernel)
  exact ⟨c, hreach, hhub, no_orphan settings Pools.relativeIds account parties authorizing
    authorizing_begins c hreach (.inl hhub)⟩

/-- The account is deleted when its deployment has just read the row: the hub is created after
everything, the row included, has been removed. -/
theorem hub_orphaned :
    ¬ ∀ (settings : Settings) (sp : Spelling) (a : AccountId) (parties : Fin 4 → Party)
      (w : World (Fin 4)), w.Begins a → ∀ c : Config accountsApi (Fin 4) (World (Fin 4))
        (Except PyErr Unit),
      Reaches (env sp a (Fin 4)) anyStep (start settings a parties w) c →
      (∀ i, c.world.task i = none) → Residue a c.world → c.world.row ≠ none := by
  intro hclaim
  obtain ⟨c, hreach, hidle, hhub, hrow⟩ := Config.reaches_of_play
    (env Pools.relativeIds account (Fin 4)) anyStep
    (start settings account parties authorizing)
    (turn 0 (authorized ++ deployStarted) ++
      turn 1 (teardownDispatched [.status none, .status none, .served]) ++
      turn 2 [.outcome true false] ++
      turn 1 [.served, .served, .served, .served, .served, .served] ++
      turn 0 deployDispatched ++ turn 3 [.outcome true true] ++
      turn 0 (deployFound ++ [.served, .served, .served]))
    (fun c => (∀ i, c.world.task i = none) ∧ c.world.hub = true ∧ c.world.row = none)
    (by decide +kernel)
  exact hclaim settings Pools.relativeIds account parties authorizing authorizing_begins c hreach
    hidle (.inl hhub) hrow

end Overtaken

end GithubAccounts
end TokenFoundry
