import TokenFoundry.Framework.Requests
import TokenFoundry.Properties.PoolMembership
import TokenFoundry.Services.ProviderApis

/-!
# A pool that nothing routes to

The last account of a pool leaves by detaching the policy of the provider API and deleting the pool,
in this order, because the pool cannot be deleted while the policy names it.  The deletion of the
pool carries the ETag of the read; the deletion of the policy carries nothing.  Another account that
joins meanwhile writes the pool and then the policy.  If it has finished before the policy is
deleted, the deletion of the pool is refused as stale, and the pool is left with a member and
without a policy (`pool_detached`).

`pooled_routable` says that this is the only way: in every run in which the policy is deleted only
while the deployment has not written it yet, a pool that is there when both tasks have ended is
routed to.
-/

set_option autoImplicit false

namespace TokenFoundry
namespace PooledRouting

open Pools (AccountId Provider Spelling PoolProps Service poolsApi services backendId poolId)
open ProviderApis (ProviderPolicy apisApi)
open KeyLimits (NamedValue IfMatch)

/-! ## The two tasks -/

inductive Party
  | removal
  | deployment
  deriving DecidableEq

abbrev gatewayApi : Interface PyErr := poolsApi.sum apisApi

/-- `_pool_remove_service` of one account, and steps 3 and 4 of the deployment of another. -/
def Party.program (backendBase : String) (p : Provider) (a b : AccountId) :
    Party → Prog.Raising gatewayApi Unit
  | .removal => Prog.Raising.inl apisApi
      (Pools.poolRemoveService (Pools.client backendBase) (poolId p) (backendId p a) (some p))
  | .deployment => do
      Prog.Raising.inl apisApi
        (Pools.poolAddService (Pools.client backendBase) (poolId p) (backendId p b))
      let _ ← Prog.Raising.inr poolsApi (ProviderApis.ensurePooledProviderApi p)

/-! ## The gateway -/

/-- What the two tasks share of the gateway: its pools, and the inbound policies of its APIs. -/
structure World where
  pools : Pools.World Party
  /-- The inbound policies, by API. -/
  policies : String → Cell Party (Option ProviderPolicy)

/-- The API of the provider carries a policy that routes to the pool. -/
def Routes (p : Provider) (w : World) : Prop :=
  ∃ policy ∈ (w.policies p.apiId).value, policy.backendId = poolId p

/-- Some policy names the backend, and the gateway refuses to delete it then. -/
def World.names (w : World) (id : String) : Bool :=
  Pools.providers.any (fun p =>
    (w.policies p.apiId).value.any (fun policy => policy.backendId = id))

def World.writePolicy (w : World) (i : Party) (apiId : String) (v : Option ProviderPolicy) :
    World :=
  { w with policies := Function.update w.policies apiId ((w.policies apiId).write i v) }

/-- A call on the pools, which leaves the policies as they are. -/
def onPools (sp : Spelling) (i : Party) (w : World) (o : Pools.Call) :
    Option (poolsApi.Reply o × World) :=
  (Pools.serve sp i w.pools o none).map (fun s => (s.1, { w with pools := s.2 }))

/-- A backend that a policy names is not deleted; the gateway answers 400. -/
def deletePool (sp : Spelling) (i : Party) (w : World) (id : String) (im : IfMatch) :
    Option (Except PyErr ℕ × World) :=
  if w.names id then some (.ok 400, w) else onPools sp i w (.deletePool id im)

/-- How the gateway answers: the documents are cells, and everything else is accepted without a
trace. -/
def serve (sp : Spelling) (i : Party) (w : World) :
    (o : gatewayApi.Call) → Option NamedValue → Option (gatewayApi.Reply o × World)
  | .inl (.deletePolicy id), _ =>
      some (if (w.policies id).value.isSome then .ok () else .error .resourceNotFound,
        w.writePolicy i id none)
  | .inl (.deletePool id im), _ => deletePool sp i w id im
  | .inl o, _ => onPools sp i w o
  | .inr (.putPolicy id policy), _ => some (.ok (), w.writePolicy i id (some policy))
  | .inr .getNamedValue, nv => some (nv.elim (.error .resourceNotFound) .ok, w)
  | .inr (.putNamedValue _ _), _ => some (.ok (), w)
  | .inr (.putApi _ _ _), _ => some (.ok (), w)
  | .inr (.putOperation _ _ _), _ => some (.ok (), w)
  | .inr (.putOperationPolicy _ _), _ => some (.ok (), w)
  | .inr (.linkProduct _ _), _ => some (.ok (), w)
  | .inr (.putDiagnostic _), _ => some (.ok (), w)

/-- Every call is served, and no one but the two tasks writes. -/
def env (sp : Spelling) : Env gatewayApi Party World where
  Choice := Option NamedValue
  act := serve sp
  drift _ _ := False

/-- The policy is deleted only while the deployment has not written it yet. -/
def OnTime : StepCond gatewayApi Party World
  | _, w, .inl (.deletePolicy id), _ => .deployment ∉ (w.policies id).writers
  | _, _, _, _ => True

instance (i : Party) (w : World) (o : gatewayApi.Call) (r : gatewayApi.Reply o) :
    Decidable (OnTime i w o r) := by
  unfold OnTime
  split <;> infer_instance

def start (backendBase : String) (p : Provider) (a b : AccountId) (w : World) :
    Config gatewayApi Party World (Except PyErr Unit) :=
  ⟨w, fun i => (i.program backendBase p a b).run⟩

/-- Before both tasks: the account is the only member of the pool. -/
structure World.LastMember (w : World) (p : Provider) (a : AccountId) : Prop where
  pool : ∃ props, w.pools.pool p = some props ∧ props.services ≠ [] ∧
    Pools.others p a props.services = []
  fresh : (w.pools.pools (poolId p)).log = [] ∧ (w.policies p.apiId).log = []

/-! ## The invariant -/

/-- The deployment has written the pool, so that its account is a member. -/
def Joined (p : Provider) (w : World) : Prop := .deployment ∈ (w.pools.pools (poolId p)).writers

/-- The deployment has written the policy that routes the provider to the pool. -/
def Wired (p : Provider) (w : World) : Prop := .deployment ∈ (w.policies p.apiId).writers

/-- The invariant of the interleavings: once wired, the policy routes to a pool that is there;
before the deployment has joined, the torn-down account has the pool alone. -/
structure Inv (p : Provider) (a : AccountId) (w : World) : Prop where
  routes : Wired p w → Routes p w
  alone : ¬ Joined p w → Pools.others p a (services (w.pools.pool p)) = []

/-- Both see the pool move forward; until it has joined, the deployment finds the pool as it was,
or gone. -/
structure Rely (p : Provider) (i : Party) (w w' : World) : Prop where
  past : Cell.Past (w.pools.pools (poolId p)) (w'.pools.pools (poolId p))
  wired : Wired p w → Wired p w'
  joined : i = .deployment → Joined p w' → Joined p w
  gone : i = .deployment → w.pools.pool p = none → w'.pools.pool p = none
  before : i = .deployment → ¬ Joined p w →
    w'.pools.pools (poolId p) = w.pools.pools (poolId p) ∨ w'.pools.pool p = none

lemma Rely.refl (p : Provider) (i : Party) (w : World) : Rely p i w w :=
  ⟨Cell.Past.refl _, id, fun _ => id, fun _ => id, fun _ _ => .inl rfl⟩

lemma Rely.trans {p : Provider} {i : Party} {w₁ w₂ w₃ : World} (h₁ : Rely p i w₁ w₂)
    (h₂ : Rely p i w₂ w₃) : Rely p i w₁ w₃ := by
  refine ⟨h₁.past.trans h₂.past, fun h => h₂.wired (h₁.wired h),
    fun hi h => h₁.joined hi (h₂.joined hi h), fun hi h => h₂.gone hi (h₁.gone hi h),
    fun hi h => ?_⟩
  have h' : ¬ Joined p w₂ := fun hj => h (h₁.joined hi hj)
  rcases h₁.before hi h with hsame | hgone
  · exact (h₂.before hi h').imp_left (fun h => h.trans hsame)
  · exact .inr (h₂.gone hi hgone)

def discipline (sp : Spelling) (p : Provider) (a : AccountId) : Discipline (env sp) where
  inv := Inv p a
  rely := Rely p
  busy _ _ := True
  rely_refl := Rely.refl p
  rely_trans _ _ _ _ := Rely.trans
  drift_inv _ h := h.elim
  drift_rely _ _ h := h.elim

/-- A step keeps the invariant and what the other one relies on. -/
def Kept (p : Provider) (a : AccountId) (i : Party) (w w' : World) : Prop :=
  Inv p a w' ∧ ∀ j, j ≠ i → Rely p j w w'

section Steps

variable {p : Provider} {a : AccountId} {i : Party} {w : World}

lemma kept_self (hI : Inv p a w) : Kept p a i w w := ⟨hI, fun j _ => Rely.refl p j w⟩

/-- A call on the pools, on its own. -/
abbrev Safe {α : Type} (sp : Spelling) (p : Provider) (a : AccountId) (i : Party)
    (prog : Pools.Handler α) (Q : α → World → Prop) (X : PyErr → World → Prop) (w : World) : Prop :=
  (discipline sp p a).left.wpE (OnTime : StepCond gatewayApi Party World).left i prog Q X w

/-- A call on the APIs, on its own. -/
abbrev SafeApis {α : Type} (sp : Spelling) (p : Provider) (a : AccountId) (i : Party)
    (prog : ProviderApis.Handler α) (Q : α → World → Prop) (X : PyErr → World → Prop) (w : World) :
    Prop :=
  (discipline sp p a).right.wpE (OnTime : StepCond gatewayApi Party World).right i prog Q X w

variable {sp : Spelling}

lemma safe_ask {o : Pools.Call} {Q : o.Answer → World → Prop} {X : PyErr → World → Prop}
    (h : ∀ w₁, Rely p i w w₁ → Inv p a w₁ → ∀ x r w₂, serve sp i w₁ (.inl o) x = some (r, w₂) →
      OnTime i w₁ (.inl o) r →
      Kept p a i w₁ w₂ ∧ (∀ v, r = .ok v → Q v w₂) ∧ ∀ e, r = .error e → X e w₂) :
    Safe sp p a i (Pools.ask o) Q X w := by
  refine Discipline.wpE_ask (fun w₁ hR hI => ⟨trivial, fun x r w₂ ha hok => ?_⟩)
  obtain ⟨⟨hI₂, hG⟩, hQ, hX⟩ := h w₁ hR hI x r w₂ ha hok
  exact ⟨hI₂, hG, hQ, hX⟩

lemma safe_armToken {P : World → Prop} (hP : ∀ w w', Rely p i w w' → P w → P w') (hw : P w) :
    Safe sp p a i (Pools.ask .armToken) (fun _ => P) (fun _ _ => False) w := by
  refine safe_ask (fun w₁ hR hI x r w₂ hs _ => ?_)
  cases hs
  refine ⟨kept_self hI, fun _ _ => hP w _ hR hw, ?_⟩
  rintro e ⟨⟩

/-- What a read of the pool tells, which is the document of this moment or that there is none. -/
lemma safe_getPool {P : World → Prop} (hP : ∀ w w', Rely p i w w' → P w → P w') (hw : P w) :
    Safe sp p a i (Pools.ask (.getPool (poolId p))) (fun reply w => P w ∧ Inv p a w ∧
      ((∃ props, w.pools.pool p = some props ∧
          reply = .found props (some (w.pools.pools (poolId p)).version)) ∨
        (w.pools.pool p = none ∧ reply = .status 404))) (fun _ _ => False) w := by
  refine safe_ask (fun w₁ hR hI x r w₂ hs _ => ?_)
  cases hs
  refine ⟨kept_self hI, ?_, ?_⟩
  · rintro reply ⟨⟩
    refine ⟨hP w _ hR hw, hI, ?_⟩
    cases hv : (w₁.pools.pools (poolId p)).value with
    | none => exact .inr ⟨hv, by simp only⟩
    | some props => exact .inl ⟨props, hv, by simp only⟩
  · rintro e ⟨⟩

lemma routes_of_policies {w' : World} (h : w'.policies = w.policies) : Routes p w →
    Routes p w' := by
  intro hr
  rwa [Routes, h]

/-- The removal writes the pool: it deletes it, or it has seen the deployment's member in it. -/
lemma kept_removal (hI : Inv p a w) {v : Option PoolProps}
    (hv : v = none ∨ (Joined p w ∧ w.pools.pool p ≠ none)) :
    Kept p a .removal w { w with pools := w.pools.write .removal (poolId p) v } := by
  set w' : World := { w with pools := w.pools.write .removal (poolId p) v } with hw'
  have hcell : w'.pools.pools (poolId p) = (w.pools.pools (poolId p)).write .removal v :=
    Pools.pools_write_self _ _
  have hpool : w'.pools.pool p = v := Pools.pool_write_self _ _
  have hjoined : Joined p w' ↔ Joined p w := by
    rw [Joined, hcell, Cell.writers_write, List.mem_cons]
    simp [Joined]
  refine ⟨⟨fun h => routes_of_policies rfl (hI.routes h), fun h => ?_⟩, fun j hj => ⟨?_, id,
    fun _ => hjoined.1, fun _ hnone => ?_, fun _ hnot => ?_⟩⟩
  · rcases hv with rfl | hv
    · rw [hpool]
      rfl
    · exact absurd (hjoined.2 hv.1) h
  · rw [hcell]
    exact Cell.past_write _ _ _
  · rcases hv with rfl | hv
    · exact hpool
    · exact absurd hnone hv.2
  · rcases hv with rfl | hv
    · exact .inr hpool
    · exact absurd hv.1 hnot

/-- The deployment writes the pool; it is the one that is no longer apart, so the second part of the
invariant asks for nothing. -/
lemma kept_deployment (hI : Inv p a w) (v : Option PoolProps) :
    Kept p a .deployment w { w with pools := w.pools.write .deployment (poolId p) v } := by
  set w' : World := { w with pools := w.pools.write .deployment (poolId p) v } with hw'
  have hcell : w'.pools.pools (poolId p) = (w.pools.pools (poolId p)).write .deployment v :=
    Pools.pools_write_self _ _
  have hjoined : Joined p w' := by
    rw [Joined, hcell, Cell.writers_write]
    exact List.mem_cons_self
  refine ⟨⟨fun h => routes_of_policies rfl (hI.routes h), fun h => absurd hjoined h⟩,
    fun j hj => ?_⟩
  have hother : j ≠ .deployment → Rely p j w w' := fun hne =>
    ⟨by rw [hcell]; exact Cell.past_write _ _ _, id, fun h => absurd h hne, fun h => absurd h hne,
      fun h => absurd h hne⟩
  exact hother hj

/-- The policy is deleted before the deployment has written it. -/
lemma kept_detach (hI : Inv p a w) {id : String} (hok : .deployment ∉ (w.policies id).writers) :
    Kept p a .removal w (w.writePolicy .removal id none) := by
  have hwired : Wired p (w.writePolicy .removal id none) ↔ Wired p w := by
    by_cases hapi : p.apiId = id
    · subst hapi
      simp [Wired, World.writePolicy]
    · simp [Wired, World.writePolicy, hapi]
  refine ⟨⟨fun h => ?_, hI.alone⟩, fun j _ => ⟨Cell.Past.refl _, hwired.2, fun _ h => h,
    fun _ h => h, fun _ _ => .inl rfl⟩⟩
  have hne : p.apiId ≠ id := by
    rintro rfl
    exact hok (hwired.1 h)
  obtain ⟨policy, hpolicy, hroutes⟩ := hI.routes (hwired.1 h)
  exact ⟨policy, by simpa [World.writePolicy, hne] using hpolicy, hroutes⟩

/-- The deployment writes the policy, and the pool that it names is the one of the provider. -/
lemma kept_wire (hI : Inv p a w) {policy : ProviderPolicy} (hroutes : policy.backendId = poolId p) :
    Kept p a .deployment w (w.writePolicy .deployment p.apiId (some policy)) ∧
      Wired p (w.writePolicy .deployment p.apiId (some policy)) := by
  have hwired : Wired p (w.writePolicy .deployment p.apiId (some policy)) := by
    simp [Wired, World.writePolicy]
  refine ⟨⟨⟨fun _ => ⟨policy, ?_, hroutes⟩, hI.alone⟩,
    fun j _ => ⟨Cell.Past.refl _, fun _ => hwired,
    fun _ => id, fun _ => id, fun _ _ => .inl rfl⟩⟩, hwired⟩
  simp [World.writePolicy]

/-! ## The removal -/

lemma safe_detachApiPolicy (backendBase : String) :
    Safe sp p a .removal (Pools.detachApiPolicy (Pools.client backendBase) p) (fun _ _ => True)
      (fun _ _ => True) w := by
  have hdelete : Safe sp p a .removal (Pools.ask (.deletePolicy p.apiId)) (fun _ _ => True)
      (fun _ _ => True) w := by
    refine safe_ask (fun w₁ _ hI x r w₂ hs hok => ?_)
    cases hs
    exact ⟨kept_detach hI hok, fun _ _ => trivial, fun _ _ => trivial⟩
  refine (Discipline.wpE_tryCatch _ _).2 (Discipline.wpE_mono (fun _ _ _ => trivial)
    (fun e _ _ => ?_) hdelete)
  cases e <;> trivial

lemma safe_deletePool (im : IfMatch) :
    Safe sp p a .removal (Pools.ask (.deletePool (poolId p) im)) (fun _ _ => True)
      (fun _ _ => True) w := by
  refine safe_ask (fun w₁ _ hI x r w₂ hs _ => ⟨?_, fun _ _ => trivial, fun _ _ => trivial⟩)
  change deletePool sp .removal w₁ (poolId p) im = some (r, w₂) at hs
  unfold deletePool at hs
  split_ifs at hs with hnames
  · cases hs
    exact kept_self hI
  · obtain ⟨⟨r', g⟩, hg, heq⟩ := Option.map_eq_some_iff.1 hs
    cases heq
    rcases Pools.serve_deletePool hg with ⟨rfl, -⟩ | ⟨rfl, -⟩ | ⟨-, rfl⟩
    · exact kept_self hI
    · exact kept_self hI
    · exact kept_removal hI (.inl rfl)

/-- A write with the ETag of the read lands only on what was read. -/
lemma safe_putKept {props kept : PoolProps} (hread : w.pools.pool p = some props)
    (hothers : Pools.others p a props.services ≠ []) :
    Safe sp p a .removal (Pools.ask (.putPool (poolId p) kept
        (some (.tag (w.pools.pools (poolId p)).version)))) (fun _ _ => True)
          (fun _ _ => True) w := by
  refine safe_ask (fun w₁ hR hI x r w₂ hs _ => ⟨?_, fun _ _ => trivial, fun _ _ => trivial⟩)
  obtain ⟨⟨r', g⟩, hg, heq⟩ := Option.map_eq_some_iff.1 hs
  cases heq
  rcases Pools.serve_putPool hg with ⟨rfl, -⟩ | ⟨hlands, rfl, -⟩
  · exact kept_self hI
  · have hsame := hR.past.eq_of_version ((hlands _ rfl).2 _ rfl)
    have hpool : w₁.pools.pool p = some props := by
      rw [Pools.World.pool, ← hsame]
      exact hread
    refine kept_removal hI (.inr ⟨?_, by simp [hpool]⟩)
    by_contra hnot
    refine hothers ?_
    have halone := hI.alone hnot
    rwa [hpool] at halone

lemma safe_removal (backendBase : String) :
    Safe sp p a .removal
      (Pools.poolRemoveService (Pools.client backendBase) (poolId p) (backendId p a) (some p))
      (fun _ _ => True) (fun _ _ => True) w := by
  have hraise : ∀ (status : ℕ) w, Safe sp p a .removal (Pools.raiseForArm status) (fun _ _ => True)
      (fun _ _ => True) w :=
    fun status w => Pools.steady_raiseForArm status w trivial
  unfold Pools.poolRemoveService
  refine (Discipline.wpE_bind _ _).2 (Discipline.wpE_mono (fun _ w _ => ?_) (fun _ _ h => h.elim)
    (safe_armToken (P := fun _ => True) (fun _ _ _ => id) trivial))
  refine (Discipline.wpE_bind _ _).2 (Discipline.wpE_mono (fun reply w hread => ?_)
    (fun _ _ h => h.elim) (safe_getPool (P := fun _ => True) (fun _ _ _ => id) trivial))
  obtain ⟨-, -, ⟨props, hpool, rfl⟩ | ⟨hnone, rfl⟩⟩ := hread
  · change Safe sp p a .removal (if (Pools.others p a props.services).length =
      props.services.length then _ else if Pools.others p a props.services = [] then _ else _) _ _ w
    split_ifs with hlen hempty
    · trivial
    · refine Discipline.wpE_then (safe_detachApiPolicy backendBase) (fun _ w _ => ?_)
      refine Discipline.wpE_then (safe_deletePool _) (fun status w _ => ?_)
      split_ifs
      · trivial
      · exact hraise status w
    · refine Discipline.wpE_then (safe_putKept hpool hempty) (fun status w _ => hraise status w)
  · trivial

/-! ## The deployment -/

/-- The deployment has not written the pool, and the teardown may still find itself alone in it. -/
def Apart (p : Provider) (w : World) : Prop := ¬ Joined p w

lemma apart_stable (w w' : World) (hR : Rely p .deployment w w') (hw : Apart p w) : Apart p w' :=
  fun h => hw (hR.joined rfl h)

/-- The answer of `_raise_for_arm`: a refusal leaves the pool gone. -/
lemma safe_raiseForArm {status : ℕ}
    (h : status < 400 ∨ w.pools.pool p = none) :
    Safe sp p a .deployment (Pools.raiseForArm status) (fun _ _ => True)
      (fun _ w => w.pools.pool p = none) w := by
  unfold Pools.raiseForArm
  split_ifs with hbad
  · exact h.resolve_left (by omega)
  · trivial

/-- The write of the deployment lands, or the pool is gone. -/
lemma safe_putJoined {props : PoolProps} {im : Option IfMatch} (hw : Apart p w)
    (him : im = none ∨ ∃ old, w.pools.pool p = some old ∧
      im = some (.tag (w.pools.pools (poolId p)).version)) :
    Safe sp p a .deployment (Pools.ask (.putPool (poolId p) props im))
      (fun status w => status < 400 ∨ w.pools.pool p = none) (fun _ _ => False) w := by
  refine safe_ask (fun w₁ hR hI x r w₂ hs _ => ?_)
  obtain ⟨⟨r', g⟩, hg, heq⟩ := Option.map_eq_some_iff.1 hs
  cases heq
  rcases him with rfl | ⟨old, hold, rfl⟩
  · cases hg
    refine ⟨kept_deployment hI _, ?_, ?_⟩
    · rintro status ⟨⟩
      exact .inl (show (201 : ℕ) < 400 by omega)
    · rintro e ⟨⟩
  · rcases hR.before rfl hw with hsame | hgone
    · have hsome : (w₁.pools.pools (poolId p)).value.isSome = true := by
        rw [hsame, show (w.pools.pools (poolId p)).value = some old from hold]
        rfl
      simp only [Pools.serve, hsame] at hg
      rw [hsame] at hsome
      rw [if_pos ⟨hsome, trivial⟩] at hg
      cases hg
      refine ⟨kept_deployment hI _, ?_, ?_⟩
      · rintro status ⟨⟩
        exact .inl (show (200 : ℕ) < 400 by omega)
      · rintro e ⟨⟩
    · simp only [Pools.serve, show (w₁.pools.pools (poolId p)).value = none from hgone] at hg
      rw [if_neg (by simp)] at hg
      cases hg
      refine ⟨kept_self hI, ?_, ?_⟩
      · rintro status ⟨⟩
        exact .inr hgone
      · rintro e ⟨⟩

/-- `_pool_add_service` returns, or the pool is gone: the teardown has deleted it between the read
and the write, which the `If-Match` header notices. -/
lemma safe_poolAddService (backendBase : String) (b : AccountId) (hw : Apart p w) :
    Safe sp p a .deployment
      (Pools.poolAddService (Pools.client backendBase) (poolId p) (backendId p b))
      (fun _ _ => True) (fun _ w => w.pools.pool p = none) w := by
  unfold Pools.poolAddService
  refine (Discipline.wpE_bind _ _).2 (Discipline.wpE_mono (fun _ w hw => ?_) (fun _ _ h => h.elim)
    (safe_armToken apart_stable hw))
  refine (Discipline.wpE_bind _ _).2 (Discipline.wpE_mono (fun reply w hread => ?_)
    (fun _ _ h => h.elim) (safe_getPool apart_stable hw))
  obtain ⟨hw, -, ⟨props, hpool, rfl⟩ | ⟨hnone, rfl⟩⟩ := hread
  · dsimp only
    split_ifs
    · trivial
    · exact (Discipline.wpE_bind _ _).2 (Discipline.wpE_mono (fun status w h => safe_raiseForArm h)
        (fun _ _ h => h.elim) (safe_putJoined hw (.inr ⟨props, hpool, rfl⟩)))
  · dsimp only
    rw [if_pos rfl]
    exact (Discipline.wpE_bind _ _).2 (Discipline.wpE_mono (fun status w h => safe_raiseForArm h)
      (fun _ _ h => h.elim) (safe_putJoined hw (.inl rfl)))

/-- The calls that are neither a document nor answered; they only have to be accepted. -/
def Plain : ProviderApis.Call → Prop
  | .getNamedValue | .putPolicy _ _ => False
  | _ => True

/-- These calls succeed, and change nothing that is looked at. -/
lemma safe_plain {P : World → Prop} (hP : ∀ w w', Rely p i w w' → P w → P w')
    {o : ProviderApis.Call} (ho : Plain o) (hw : P w) :
    SafeApis sp p a i (ProviderApis.ask o) (fun _ => P) (fun _ _ => False) w := by
  refine Discipline.wpE_ask (fun w₁ hR hI => ⟨trivial, fun x r w₂ ha _ => ?_⟩)
  have hsame : w₂ = w₁ ∧ ∃ v, r = .ok v := by
    cases o with
    | getNamedValue => exact ho.elim
    | putPolicy id policy => exact ho.elim
    | _ =>
        cases ha
        exact ⟨rfl, _, rfl⟩
  obtain ⟨rfl, v, rfl⟩ := hsame
  refine ⟨hI, fun j _ => Rely.refl p j w₂, fun _ _ => hP w w₂ hR hw, ?_⟩
  rintro e ⟨⟩

lemma wired_stable (w w' : World) (hR : Rely p i w w') (hw : Wired p w) : Wired p w' := hR.wired hw

lemma true_stable (w w' : World) (_ : Rely p i w w') (hw : True) : True := hw

lemma safe_skipHttp {P : World → Prop} {prog : ProviderApis.Handler Unit}
    (h : SafeApis sp p a i prog (fun _ => P) (fun _ _ => False) w) :
    SafeApis sp p a i (ProviderApis.skipHttp prog) (fun _ => P) (fun _ _ => False) w :=
  (Discipline.wpE_tryCatch _ _).2 (Discipline.wpE_mono (fun _ _ h => h) (fun _ _ h => h.elim) h)

/-- `ensure_key_limits_nv`: a missing named value is created, and one that is there is left. -/
lemma safe_ensureKeyLimitsNv :
    SafeApis sp p a i (KeyLimits.ensureKeyLimitsNv ProviderApis.client) (fun _ _ => True)
      (fun _ _ => False) w := by
  have hget : SafeApis sp p a i (ProviderApis.ask .getNamedValue) (fun _ _ => True)
      (fun e _ => e = .resourceNotFound) w := by
    refine Discipline.wpE_ask (fun w₁ hR hI => ⟨trivial, fun x r w₂ ha _ => ?_⟩)
    cases ha
    refine ⟨hI, fun j _ => Rely.refl p j _, fun _ _ => trivial, fun e he => ?_⟩
    cases x with
    | none =>
        cases he
        rfl
    | some nv => cases he
  refine Discipline.wpE_then
    (?_ : SafeApis sp p a i _ (fun _ _ => True) (fun _ _ => False) w) (fun found w _ => ?_)
  · refine (Discipline.wpE_tryCatch _ _).2 ((Discipline.wpE_bind _ _).2 ?_)
    refine Discipline.wpE_mono (fun _ _ _ => trivial) (fun e w he => ?_) hget
    subst he
    trivial
  · cases found with
    | true => trivial
    | false => exact safe_plain (o := .putNamedValue ∅ .any) true_stable trivial trivial

lemma safe_putPolicy {policy : ProviderPolicy} (hroutes : policy.backendId = poolId p) :
    SafeApis sp p a .deployment (ProviderApis.ask (.putPolicy p.apiId policy)) (fun _ => Wired p)
      (fun _ _ => False) w := by
  refine Discipline.wpE_ask (fun w₁ hR hI => ⟨trivial, fun x r w₂ ha _ => ?_⟩)
  cases ha
  obtain ⟨⟨hI₂, hG⟩, hwired⟩ := kept_wire hI hroutes
  refine ⟨hI₂, hG, fun _ _ => hwired, ?_⟩
  rintro e ⟨⟩

/-- `ensure_pooled_provider_api` returns with the policy written, since every one of its calls is
served. -/
lemma safe_ensurePooledProviderApi :
    SafeApis sp p a .deployment (ProviderApis.ensurePooledProviderApi p) (fun _ => Wired p)
      (fun _ _ => False) w := by
  have hafter : ∀ w, Wired p w → SafeApis sp p a .deployment (do
      ProviderApis.llmProducts.forM
        (fun productId => ProviderApis.skipHttp (ProviderApis.ask (.linkProduct productId p.apiId)))
      ProviderApis.ensureApiLlmDiagnostic p.apiId) (fun _ => Wired p) (fun _ _ => False) w := by
    intro w hw
    refine Discipline.wpE_then (Discipline.wpE_forM (P := fun _ => Wired p) (fun productId _ w hw =>
      safe_skipHttp (safe_plain (o := .linkProduct productId p.apiId) wired_stable trivial hw)) hw)
      (fun _ w hw => ?_)
    exact (Discipline.wpE_tryCatch _ _).2 (Discipline.wpE_mono (fun _ _ h => h)
      (fun _ _ h => h.elim)
      (safe_skipHttp (safe_plain (o := .putDiagnostic p.apiId) wired_stable trivial hw)))
  unfold ProviderApis.ensurePooledProviderApi ProviderApis.ensureApiAndOps
  refine (Discipline.wpE_bind _ _).2 ((Discipline.wpE_bind _ _).2 (Discipline.wpE_mono
    (fun _ w _ => ?_) (fun _ _ h => h) safe_ensureKeyLimitsNv))
  refine Discipline.wpE_then (safe_plain (o := .putApi _ _ _) true_stable trivial trivial)
    (fun _ w _ => ?_)
  refine Discipline.wpE_then (Discipline.wpE_forM (P := fun _ _ => True) (fun op _ w _ => safe_plain
    (o := .putOperation p.apiId op.1 op.2) true_stable trivial trivial) trivial) (fun _ w _ => ?_)
  refine Discipline.wpE_then (safe_putPolicy rfl) (fun _ w hw => ?_)
  split_ifs
  · exact Discipline.wpE_then (safe_plain (o := .putOperationPolicy p.apiId "chat") wired_stable
      trivial hw) (fun _ w hw => hafter w hw)
  · exact hafter w hw

/-- What the deployment ends with: the policy, or an exception and no pool. -/
def Done (p : Provider) : Party → Except PyErr Unit → World → Prop
  | .removal, _ => fun _ => True
  | .deployment, .ok _ => Wired p
  | .deployment, .error _ => fun w => w.pools.pool p = none

lemma safe_removalTask (backendBase : String) (b : AccountId) :
    (discipline sp p a).wp OnTime .removal (Party.program backendBase p a b .removal).run
      (Done p .removal) w :=
  Discipline.wp_mono (fun _ _ _ => trivial) (Discipline.wpE_inl.2 (safe_removal backendBase))

lemma safe_deployment (backendBase : String) (b : AccountId) (hw : Apart p w) :
    (discipline sp p a).wp OnTime .deployment
      (Party.program backendBase p a b .deployment).run (Done p .deployment) w := by
  have hprog : (discipline sp p a).wpE OnTime .deployment
      (Party.program backendBase p a b .deployment) (fun _ => Wired p)
      (fun _ w => w.pools.pool p = none) w := by
    refine (Discipline.wpE_bind _ _).2 (Discipline.wpE_inl.2 ?_)
    refine Discipline.wpE_mono (fun _ w _ => ?_) (fun _ _ h => h)
      (safe_poolAddService backendBase b hw)
    refine (Discipline.wpE_bind _ _).2 (Discipline.wpE_inr.2 ?_)
    exact Discipline.wpE_mono (fun _ _ h => h) (fun _ _ h => h.elim) safe_ensurePooledProviderApi
  refine Discipline.wp_mono (fun r w hr => ?_) hprog
  cases r <;> exact hr

end Steps

/-! ## The theorem -/

/-- **Pooled providers stay routable.**  If the policy is deleted only while the deployment has not
written it yet, then a pool that is there once the deployment has ended is routed to, whether or not
the removal has ended as well. -/
theorem pooled_routable (sp : Spelling) (backendBase : String) (p : Provider) (a b : AccountId)
    {w : World} (hw : w.LastMember p a) {c : Config gatewayApi Party World (Except PyErr Unit)}
    (h : Reaches (env sp) OnTime (start backendBase p a b w) c) {r : Except PyErr Unit}
    (hr : c.Returned .deployment r) {props : PoolProps}
    (hpool : c.world.pools.pool p = some props) : Routes p c.world := by
  obtain ⟨⟨old, hold, -, hothers⟩, hlog, hpolicies⟩ := hw
  have hapart : Apart p w := by simp [Apart, Joined, Cell.writers, hlog]
  have hI : Inv p a w := by
    refine ⟨fun hwired => ?_, fun _ => ?_⟩
    · simp [Wired, Cell.writers, hpolicies] at hwired
    · rw [hold]
      exact hothers
  have hstable : ∀ i r, (discipline sp p a).Stable i (Done p i r) := by
    rintro (_ | _) r w w' hR _ hw
    · trivial
    · cases r with
      | ok _ => exact hR.wired hw
      | error e => exact hR.gone rfl hw
  have hprogs : ∀ i, (discipline sp p a).wp OnTime i ((start backendBase p a b w).prog i)
      (Done p i) w := by
    rintro (_ | _)
    · exact safe_removalTask backendBase b
    · exact safe_deployment backendBase b hapart
  have hdone : Done p .deployment r c.world :=
    Discipline.returned_of_sound (c := start backendBase p a b w) hstable hI hprogs h hr
  have hinv : Inv p a c.world :=
    (Discipline.sound (c := start backendBase p a b w) hstable hI hprogs h).1
  cases r with
  | ok _ => exact hinv.routes hdone
  | error e =>
      rw [show c.world.pools.pool p = none from hdone] at hpool
      cases hpool

/-! ## A deployment that overtakes the removal -/

section Overtaken

lemma leaving_hexDigits : ∀ c ∈ "00000000000a".toList, c ∈ "0123456789abcdef".toList :=
  AccountId.hexDigits_of_all (by decide)

lemma joining_hexDigits : ∀ c ∈ "00000000000b".toList, c ∈ "0123456789abcdef".toList :=
  AccountId.hexDigits_of_all (by decide)

def leaving : AccountId := ⟨"00000000000a", leaving_hexDigits⟩

def joining : AccountId := ⟨"00000000000b", joining_hexDigits⟩

/-- The account that leaves is the only member of the pool, and the API routes to it. -/
def lastMember : World where
  pools := ⟨fun id => if id = poolId .openai then
      ⟨some (Pools.firstPool id (Pools.member Pools.backends (backendId .openai leaving))), []⟩
    else ⟨none, []⟩⟩
  policies apiId := if apiId = Provider.openai.apiId then
      ⟨some (ProviderApis.buildProviderPolicy (poolId .openai)), []⟩
    else ⟨none, []⟩

lemma lastMember_last : lastMember.LastMember .openai leaving :=
  ⟨⟨_, rfl, by decide, by decide +kernel⟩, rfl, rfl⟩

/-- A task makes its next calls, and none of them needs a choice of the outside. -/
def calls (i : Party) (n : ℕ) : List (Party × Option NamedValue) := List.replicate n (i, none)

/-- The account joins while the other one has the pool in hand: the policy is deleted, the pool is
not, and the policy is written again. -/
theorem pooled_routable_stale :
    ∃ c, Reaches (env Pools.relativeIds) OnTime
        (start Pools.backends .openai leaving joining lastMember) c ∧
      c.Returned .removal (.error (.httpStatus 412)) ∧ Routes .openai c.world := by
  obtain ⟨c, hreach, hremoval, hdeployment, hpool⟩ := Config.reaches_of_play
    (env Pools.relativeIds) OnTime (start Pools.backends .openai leaving joining lastMember)
    (calls .removal 2 ++ calls .deployment 3 ++ calls .removal 2 ++ calls .deployment 10)
    (fun c => c.Returned .removal (.error (.httpStatus 412)) ∧ c.Returned .deployment (.ok ()) ∧
      (c.world.pools.pool .openai).isSome = true)
    (by decide +kernel)
  obtain ⟨props, hprops⟩ := Option.isSome_iff_exists.1 hpool
  exact ⟨c, hreach, hremoval, pooled_routable Pools.relativeIds Pools.backends .openai leaving
    joining lastMember_last hreach hdeployment hprops⟩

/-- The deployment has finished when the policy is deleted: the pool keeps its new member, and
nothing routes to it. -/
theorem pool_detached :
    ¬ ∀ (sp : Spelling) (backendBase : String) (p : Provider) (a b : AccountId) (w : World),
      w.LastMember p a → ∀ (c : Config gatewayApi Party World (Except PyErr Unit))
        (r₁ r₂ : Except PyErr Unit) (props : PoolProps),
      Reaches (env sp) anyStep (start backendBase p a b w) c → c.Returned .removal r₁ →
      c.Returned .deployment r₂ → c.world.pools.pool p = some props → props.services ≠ [] →
      Routes p c.world := by
  intro hclaim
  obtain ⟨c, hreach, hremoval, hdeployment, hpool, hnone⟩ := Config.reaches_of_play
    (env Pools.relativeIds) anyStep (start Pools.backends .openai leaving joining lastMember)
    (calls .removal 2 ++ calls .deployment 13 ++ calls .removal 2)
    (fun c => c.Returned .removal (.error (.httpStatus 412)) ∧ c.Returned .deployment (.ok ()) ∧
      (c.world.pools.pool .openai).any (fun props => props.services ≠ []) = true ∧
      (c.world.policies Provider.openai.apiId).value.isNone = true)
    (by decide +kernel)
  obtain ⟨props, hprops, hmembers⟩ := (Option.any_eq_true _ _).1 hpool
  obtain ⟨policy, hpolicy, -⟩ := hclaim Pools.relativeIds Pools.backends .openai leaving joining
    lastMember lastMember_last c _ _ props hreach hremoval hdeployment hprops
    (of_decide_eq_true hmembers)
  rw [Option.isNone_iff_eq_none.1 hnone] at hpolicy
  cases hpolicy

end Overtaken

end PooledRouting
end TokenFoundry
