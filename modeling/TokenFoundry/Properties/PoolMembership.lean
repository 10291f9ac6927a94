import TokenFoundry.Framework.VersionedCell
import TokenFoundry.Services.Pools

/-!
# Which accounts the pools list

Deploy and teardown tasks of different accounts edit the three pools at the same time.  Every
write but one carries the ETag of the read it is based on.  The exception is the first member of
a pool: the `PUT` that creates the document has no `If-Match` header, so that two tasks that both
found no pool overwrite one another (`member_lost`).

`pools_exact` says that this is the only way to lose a member.  In every run in which a `PUT`
without `If-Match` finds no pool, every pool lists exactly the accounts that were added and not
removed afterwards, each of them once, once all calls have returned; no write ever loses the
session affinity or leaves a pool without members.
-/

set_option autoImplicit false

namespace TokenFoundry
namespace Pools

open KeyLimits (IfMatch)

/-! ## The management API -/

/-- The pools of the gateway; each document is a cell with its version and the history of its
writes. -/
structure World (ι : Type) where
  pools : String → Cell ι (Option PoolProps)

/-- The document of a pool, if there is one; a pool that has lost its last member is deleted. -/
def World.pool {ι : Type} (w : World ι) (p : Provider) : Option PoolProps :=
  (w.pools (poolId p)).value

def World.write {ι : Type} (w : World ι) (i : ι) (id : String) (v : Option PoolProps) : World ι :=
  ⟨Function.update w.pools id ((w.pools id).write i v)⟩

/-- An answer of the API.  It gives the ETag on every read, changes it on every write and refuses
a stale `If-Match`; it may also refuse any call with an error status of its own. -/
def serve {ι : Type} (sp : Spelling) (i : ι) (w : World ι) :
    (o : Call) → Option ℕ → Option (poolsApi.Reply o × World ι)
  | .getPool id, none =>
      some (.ok (match (w.pools id).value with
        | some props => .found props (some (w.pools id).version)
        | none => .status 404), w)
  | .getPool _, some code =>
      if 400 ≤ code ∧ code ≤ 599 ∧ code ≠ 404 then some (.ok (.status code), w) else none
  | .putPool id props im, none =>
      match im with
      | none => some (.ok 201, w.write i id (some (sp.store props)))
      | some .any =>
          if (w.pools id).value.isSome then some (.ok 200, w.write i id (some (sp.store props)))
          else some (.ok 412, w)
      | some (.tag t) =>
          if (w.pools id).value.isSome ∧ t = (w.pools id).version then
            some (.ok 200, w.write i id (some (sp.store props)))
          else some (.ok 412, w)
  | .putPool _ _ _, some code => if 400 ≤ code ∧ code ≤ 599 then some (.ok code, w) else none
  | .deletePool id im, none =>
      if (w.pools id).value = none then some (.ok 404, w)
      else if im = .any ∨ im = .tag (w.pools id).version then some (.ok 200, w.write i id none)
      else some (.ok 412, w)
  | .deletePool _ _, some code =>
      if 400 ≤ code ∧ code ≤ 599 ∧ code ≠ 404 then some (.ok code, w) else none
  | .armToken, _ => some (.ok (), w)
  | .deletePolicy _, _ => some (.ok (), w)
  | .putBackend _ _, _ => some (.ok (), w)
  | .deleteBackend _, _ => some (.ok (), w)

/-- Every call may raise, before or after its effect, and nobody but the tasks writes to the
pools. -/
def env (sp : Spelling) (ι : Type) : Env poolsApi ι (World ι) :=
  .faulty (serve sp) (fun _ _ => true) (fun _ _ => true) (fun _ _ => False)

/-- A `PUT` without `If-Match` finds no pool.  The code sends it where it has read that there is
none, and the condition is that this is still so. -/
def CreatesAbsent {ι : Type} : StepCond poolsApi ι (World ι)
  | _, w, .putPool id _ none, _ => (w.pools id).value = none
  | _, _, _, _ => True

/-! ## What the management API does -/

section Api

variable {ι : Type} {sp : Spelling} {i : ι} {w w' : World ι}

/-- What a read of a pool tells: the document with its version, that there is none, or an error that
says nothing. -/
def Read (id : String) (reply : PoolReply) (w : World ι) : Prop :=
  (∃ props, (w.pools id).value = some props ∧
    reply = .found props (some (w.pools id).version)) ∨
  ((w.pools id).value = none ∧ reply = .status 404) ∨
  ∃ code, (400 ≤ code ∧ code ≤ 599) ∧ code ≠ 404 ∧ reply = .status code

/-- A `GET` changes nothing, and its reply is about the pool as it is at this moment. -/
lemma serve_getPool {id : String} {x : Option ℕ} {r : poolsApi.Reply (.getPool id)}
    (hs : serve sp i w (.getPool id) x = some (r, w')) :
    w' = w ∧ ∃ reply, r = .ok reply ∧ Read id reply w := by
  cases x with
  | none =>
      simp only [serve] at hs
      cases hs
      refine ⟨rfl, _, rfl, ?_⟩
      cases hv : (w.pools id).value with
      | none => exact .inr (.inl ⟨hv, by simp only⟩)
      | some props => exact .inl ⟨props, hv, by simp only⟩
  | some code =>
      simp only [serve] at hs
      split_ifs at hs with hcode
      cases hs
      exact ⟨rfl, _, rfl, .inr (.inr ⟨code, ⟨hcode.1, hcode.2.1⟩, hcode.2.2, rfl⟩)⟩

/-- The `If-Match` header of a `PUT` allows it: without a header always, with one if the document is
there and has the version. -/
def Lands (im : Option IfMatch) (id : String) (w : World ι) : Prop :=
  ∀ m, im = some m → (w.pools id).value.isSome = true ∧
    ∀ t, m = .tag t → t = (w.pools id).version

/-- A `PUT` is refused, or replaces the document by the one that was sent, as the gateway stores
it. -/
lemma serve_putPool {id : String} {props : PoolProps} {im : Option IfMatch} {x : Option ℕ}
    {r : poolsApi.Reply (.putPool id props im)}
    (hs : serve sp i w (.putPool id props im) x = some (r, w')) :
    (w' = w ∧ ∃ code, (400 ≤ code ∧ code ≤ 599) ∧ r = .ok code) ∨
      (Lands im id w ∧ w' = w.write i id (some (sp.store props)) ∧ ∃ code, r = .ok code) := by
  have hstale : 400 ≤ 412 ∧ 412 ≤ 599 := by decide
  cases x with
  | some code =>
      simp only [serve] at hs
      split_ifs at hs with hcode
      cases hs
      exact .inl ⟨rfl, code, hcode, rfl⟩
  | none =>
      rcases im with _ | (_ | t)
      · simp only [serve] at hs
        cases hs
        exact .inr ⟨by simp [Lands], rfl, _, rfl⟩
      · simp only [serve] at hs
        split_ifs at hs with hl
        · cases hs
          exact .inr ⟨by simp [Lands, hl], rfl, _, rfl⟩
        · cases hs
          exact .inl ⟨rfl, 412, hstale, rfl⟩
      · simp only [serve] at hs
        split_ifs at hs with hl
        · cases hs
          exact .inr ⟨by simp [Lands, hl.1, hl.2], rfl, _, rfl⟩
        · cases hs
          exact .inl ⟨rfl, 412, hstale, rfl⟩

/-- A `DELETE` is refused, finds no document, or removes it. -/
lemma serve_deletePool {id : String} {im : IfMatch} {x : Option ℕ}
    {r : poolsApi.Reply (.deletePool id im)}
    (hs : serve sp i w (.deletePool id im) x = some (r, w')) :
    (w' = w ∧ ∃ code, (400 ≤ code ∧ code ≤ 599) ∧ code ≠ 404 ∧ r = .ok code) ∨
      (w' = w ∧ (w.pools id).value = none) ∨
      ((im = .any ∨ im = .tag (w.pools id).version) ∧ w' = w.write i id none) := by
  have hstale : (400 ≤ 412 ∧ 412 ≤ 599) ∧ 412 ≠ 404 := by decide
  cases x with
  | some code =>
      simp only [serve] at hs
      split_ifs at hs with hcode
      cases hs
      exact .inl ⟨rfl, code, ⟨hcode.1, hcode.2.1⟩, hcode.2.2, rfl⟩
  | none =>
      simp only [serve] at hs
      split_ifs at hs with habsent him
      · cases hs
        exact .inr (.inl ⟨rfl, habsent⟩)
      · cases hs
        exact .inr (.inr ⟨him, rfl⟩)
      · cases hs
        exact .inl ⟨rfl, 412, hstale.1, hstale.2, rfl⟩

end Api

/-! ## Tasks -/

/-- What a task does to the pools: a deployment adds the account, a teardown removes it. -/
inductive Op
  | add (hubFqdn hubKey : String)
  | remove (backendIds : List String)

def Op.isAdd : Op → Bool
  | .add _ _ => true
  | .remove _ => false

def Op.run (backendBase : String) (a : AccountId) : Op → Handler Unit
  | .add hubFqdn hubKey => do
      let _ ← addHubToPools (client backendBase) a hubFqdn hubKey
  | .remove backendIds => removeHubFromPools (client backendBase) a backendIds

/-- The operations of one account, one after the other; an exception ends them. -/
def task (backendBase : String) (a : AccountId) (ops : List Op) : Handler Unit :=
  ops.forM (Op.run backendBase a)

def start {ι : Type} (backendBase : String) (acct : ι → AccountId) (ops : ι → List Op)
    (w : World ι) : Config poolsApi ι (World ι) (Except PyErr Unit) :=
  ⟨w, fun i => (task backendBase (acct i) (ops i)).run⟩

/-! ## Accounts of the members -/

/-- Every member of the list belongs to an account, so that no task meets a member that it cannot
tell apart. -/
def Owned {ι : Type} (acct : ι → AccountId) (p : Provider) (ss : List Service) : Prop :=
  ∀ s ∈ ss, ∃ i, Lists p (acct i) s

lemma owned_store {ι : Type} {acct : ι → AccountId} {p : Provider} (sp : Spelling)
    {props : PoolProps} (h : Owned acct p props.services) :
    Owned acct p (sp.store props).services := by
  intro s' hs'
  obtain ⟨s, hs, rfl⟩ := List.mem_map.1 hs'
  obtain ⟨i, hi⟩ := h s hs
  exact ⟨i, (lists_respell sp _).2 hi⟩

/-! ## What every step keeps -/

/-- What a write of a document keeps: it has members, and the session affinity that was there; a
new document gets the cookie affinity. -/
def Edit (old new : Option PoolProps) : Prop :=
  ∀ n ∈ new, n.services ≠ [] ∧
    (∀ o ∈ old, ∀ a ∈ o.sessionAffinity, n.sessionAffinity = some a) ∧
    (old = none → n.sessionAffinity = some cookieAffinity)

section Discipline

variable {ι : Type} {sp : Spelling} {acct : ι → AccountId} {i : ι} {w : World ι}

/-- The invariant of all interleavings: the members belong to the accounts, and every write of an
account was an edit of its own membership. -/
structure Inv (acct : ι → AccountId) (w : World ι) : Prop where
  owned : ∀ p, Owned acct p (services (w.pool p))
  edits : ∀ p, (w.pools (poolId p)).WritesFrom (fun _ => Edit)

/-- The others keep the history of the pools and the members of this account. -/
structure Rely (acct : ι → AccountId) (i : ι) (w w' : World ι) : Prop where
  past : ∀ p, Cell.Past (w.pools (poolId p)) (w'.pools (poolId p))
  listed : ∀ p, listed p (acct i) (services (w'.pool p)) = listed p (acct i) (services (w.pool p))

lemma Rely.refl (i : ι) (w : World ι) : Rely acct i w w :=
  ⟨fun _ => Cell.Past.refl _, fun _ => rfl⟩

lemma Rely.trans {w₁ w₂ w₃ : World ι} (h₁ : Rely acct i w₁ w₂) (h₂ : Rely acct i w₂ w₃) :
    Rely acct i w₁ w₃ :=
  ⟨fun p => (h₁.past p).trans (h₂.past p), fun p => (h₂.listed p).trans (h₁.listed p)⟩

def discipline (sp : Spelling) (acct : ι → AccountId) : Discipline (env sp ι) where
  inv := Inv acct
  rely := Rely acct
  busy _ _ := True
  rely_refl := Rely.refl
  rely_trans _ _ _ _ := Rely.trans
  drift_inv _ h := h.elim
  drift_rely _ _ h := h.elim

/-- A step of thread `i` keeps the invariant and what the others rely on. -/
def Kept (acct : ι → AccountId) (i : ι) (w w' : World ι) : Prop :=
  Inv acct w' ∧ ∀ j, j ≠ i → Rely acct j w w'

lemma Kept.refl (hI : Inv acct w) : Kept acct i w w := ⟨hI, fun j _ => Rely.refl j w⟩

lemma pools_write_self (id : String) (v : Option PoolProps) :
    (w.write i id v).pools id = (w.pools id).write i v :=
  Function.update_self _ _ _

lemma pool_write_self (p : Provider) (v : Option PoolProps) :
    (w.write i (poolId p) v).pool p = v := by
  rw [World.pool, pools_write_self]
  rfl

lemma pools_write_ne {p q : Provider} (h : q ≠ p) (v : Option PoolProps) :
    (w.write i (poolId p) v).pools (poolId q) = w.pools (poolId q) :=
  Function.update_of_ne (fun heq => h (poolId_injective heq)) _ _

lemma pool_write_ne {p q : Provider} (h : q ≠ p) (v : Option PoolProps) :
    (w.write i (poolId p) v).pool q = w.pool q := by
  rw [World.pool, pools_write_ne h]
  rfl

/-- Writing a pool so that only the members of account `i` change. -/
lemma write_kept (hI : Inv acct w) {p : Provider} {v : Option PoolProps}
    (howned : Owned acct p (services v)) (hedit : Edit (w.pool p) v)
    (hothers : ∀ j, j ≠ i →
      listed p (acct j) (services v) = listed p (acct j) (services (w.pool p))) :
    Kept acct i w (w.write i (poolId p) v) := by
  refine ⟨⟨fun q => ?_, fun q => ?_⟩, fun j hj => ⟨fun q => ?_, fun q => ?_⟩⟩
  · by_cases hq : q = p
    · subst hq
      rw [pool_write_self]
      exact howned
    · rw [pool_write_ne hq]
      exact hI.owned q
  · by_cases hq : q = p
    · subst hq
      rw [pools_write_self]
      exact (hI.edits q).write hedit
    · rw [pools_write_ne hq]
      exact hI.edits q
  · by_cases hq : q = p
    · subst hq
      rw [pools_write_self]
      exact Cell.past_write _ _ _
    · rw [pools_write_ne hq]
      exact Cell.Past.refl _
  · by_cases hq : q = p
    · subst hq
      rw [pool_write_self]
      exact hothers j hj
    · rw [pool_write_ne hq]

end Discipline

/-! ## The rules for calls -/

section Rules

variable {ι : Type} {sp : Spelling} {acct : ι → AccountId} {i : ι} {w : World ι}

/-- How often the account of a task is listed in each pool. -/
def Knows (acct : ι → AccountId) (i : ι) (m : Provider → ℕ) (w : World ι) : Prop :=
  ∀ p, listed p (acct i) (services (w.pool p)) = m p

/-- Nothing is promised where a call raised. -/
abbrev Safe {α : Type} (sp : Spelling) (acct : ι → AccountId) (i : ι) (p : Handler α)
    (Q : α → World ι → Prop) (w : World ι) : Prop :=
  (discipline sp acct).wpE CreatesAbsent i p Q (fun _ _ => True) w

/-- A fact that survives the steps of the others, who change their own memberships only. -/
def Lasting (acct : ι → AccountId) (i : ι) (P : World ι → Prop) : Prop :=
  ∀ w w', Rely acct i w w' → P w → P w'

lemma knows_lasting {m : Provider → ℕ} : Lasting acct i (Knows acct i m) := by
  intro w w' hR h p
  rw [hR.listed p, h p]

/-- The condition does not look at the reply, so it may be used before the call is answered. -/
lemma createsAbsent_reply {o : Call} {r r' : poolsApi.Reply o} (h : CreatesAbsent i w o r) :
    CreatesAbsent i w o r' := by
  cases o with
  | putPool id props im => cases im <;> exact h
  | _ => trivial

/-- The rule for a call: what it does when it is served is kept, and its answer is as promised. -/
lemma safe_ask {o : Call} {Q : o.Answer → World ι → Prop}
    (h : ∀ w₁, Rely acct i w w₁ → Inv acct w₁ → ∀ x r w₂,
      serve sp i w₁ o x = some (r, w₂) → CreatesAbsent i w₁ o r →
      Kept acct i w₁ w₂ ∧ ∀ a, r = .ok a → Q a w₂) :
    Safe sp acct i (ask o) Q w := by
  refine Discipline.wpE_ask (fun w₁ hR hI => ⟨trivial, fun f r w₂ ha hok => ?_⟩)
  rcases Env.faulty_act ha with ⟨x, r₀, hs, hr⟩ | ⟨rfl, e, -, rfl⟩
  · obtain ⟨⟨hI₂, hG⟩, hQ⟩ := h w₁ hR hI x r₀ w₂ hs (createsAbsent_reply hok)
    refine ⟨hI₂, hG, ?_, fun _ _ => trivial⟩
    rintro a rfl
    rcases hr with rfl | ⟨e, -, he⟩
    · exact hQ a rfl
    · cases he
  · exact ⟨hI, fun j _ => Rely.refl j _, by simp, fun _ _ => trivial⟩

/-- A call that changes nothing here, whether it raises or not. -/
lemma safe_same {o : Call} {P : World ι → Prop} (hP : Lasting acct i P)
    (ho : ∀ (w : World ι) x r w', serve sp i w o x = some (r, w') → w' = w) (hw : P w) :
    (discipline sp acct).wpE CreatesAbsent i (ask o) (fun _ w => P w) (fun _ w => P w) w := by
  refine Discipline.wpE_ask (fun w₁ hR hI => ⟨trivial, fun f r w₂ ha _ => ?_⟩)
  have hw₂ : w₂ = w₁ := by
    rcases Env.faulty_act ha with ⟨x, r₀, hs, -⟩ | ⟨rfl, -⟩
    · exact ho w₁ x r₀ w₂ hs
    · rfl
  subst hw₂
  have hP₁ := hP w w₂ hR hw
  exact ⟨hI, fun j _ => Rely.refl j _, fun _ _ => hP₁, fun _ _ => hP₁⟩

lemma safe_getPool {m : Provider → ℕ} (p : Provider) (hw : Knows acct i m w) :
    Safe sp acct i (ask (.getPool (poolId p)))
      (fun reply w => Inv acct w ∧ Knows acct i m w ∧ Read (poolId p) reply w) w := by
  refine safe_ask (fun w₁ hR hI x r w₂ hs _ => ?_)
  obtain ⟨rfl, reply, rfl, hread⟩ := serve_getPool hs
  refine ⟨Kept.refl hI, fun b hb => ?_⟩
  cases hb
  exact ⟨hI, knows_lasting w w₂ hR hw, hread⟩

lemma knows_write {m : Provider → ℕ} {p : Provider} {v : Option PoolProps} {n : ℕ}
    (hw : Knows acct i m w) (hn : listed p (acct i) (services v) = n) :
    Knows acct i (Function.update m p n) (w.write i (poolId p) v) := by
  intro q
  by_cases hq : q = p
  · subst hq
    rw [pool_write_self, Function.update_self, hn]
  · rw [pool_write_ne hq, Function.update_of_ne hq, hw q]

lemma safe_putPool {m : Provider → ℕ} {p : Provider} {props : PoolProps} {im : Option IfMatch}
    {n : ℕ} (hw : Knows acct i m w)
    (hland : ∀ w₁, Rely acct i w w₁ → Inv acct w₁ → Lands im (poolId p) w₁ →
      (im = none → w₁.pool p = none) →
      Owned acct p props.services ∧ Edit (w₁.pool p) (some (sp.store props)) ∧
      (∀ j, j ≠ i → listed p (acct j) props.services = listed p (acct j) (services (w₁.pool p))) ∧
      listed p (acct i) props.services = n) :
    Safe sp acct i (ask (.putPool (poolId p) props im))
      (fun status w => (400 ≤ status ∧ status ≤ 599) ∨
        Knows acct i (Function.update m p n) w) w := by
  refine safe_ask (fun w₁ hR hI x r w₂ hs hok => ?_)
  have hw₁ := knows_lasting w w₁ hR hw
  rcases serve_putPool hs with ⟨rfl, code, hcode, rfl⟩ | ⟨hl, rfl, -⟩
  · refine ⟨Kept.refl hI, fun b hb => .inl ?_⟩
    cases hb
    exact hcode
  · have hcreate : im = none → w₁.pool p = none := by
      rintro rfl
      exact hok
    obtain ⟨howned, hedit, hothers, hself⟩ := hland w₁ hR hI hl hcreate
    refine ⟨write_kept hI (owned_store sp howned) hedit (fun j hj => ?_), fun _ _ =>
      .inr (knows_write hw₁ ?_)⟩
    · exact (listed_store sp p (acct j) props).trans (hothers j hj)
    · exact (listed_store sp p (acct i) props).trans hself

lemma safe_raiseForArm {status : ℕ} {Q : World ι → Prop}
    (h : (400 ≤ status ∧ status ≤ 599) ∨ Q w) :
    Safe sp acct i (raiseForArm status) (fun _ w => Q w) w := by
  unfold raiseForArm
  split_ifs with hbad
  · exact trivial
  · exact h.resolve_left hbad

lemma safe_armToken {m : Provider → ℕ} (hw : Knows acct i m w) :
    Safe sp acct i (ask .armToken) (fun _ w => Knows acct i m w) w :=
  Discipline.wpE_mono (fun _ _ h => h) (fun _ _ _ => trivial)
    (safe_same knows_lasting (fun _ _ _ _ hs => by cases hs; rfl) hw)

/-- A read that is still current when a write with its ETag lands. -/
lemma pool_eq_of_version {w₁ : World ι} {p : Provider} (hR : Rely acct i w w₁)
    (hv : (w.pools (poolId p)).version = (w₁.pools (poolId p)).version) : w₁.pool p = w.pool p := by
  rw [World.pool, World.pool, (hR.past p).eq_of_version hv]

lemma edit_append {props : PoolProps} {s : Service} :
    Edit (some props) (some (sp.store (appendService props s))) := by
  intro n hn
  cases hn
  refine ⟨by simp [Spelling.store, appendService], fun o ho a ha => ?_, by simp⟩
  cases ho
  simp only [Spelling.store, appendService]
  rw [Option.mem_def.1 ha, Option.getD_some]

lemma edit_first {id : String} {s : Service} : Edit none (some (sp.store (firstPool id s))) := by
  intro n hn
  cases hn
  exact ⟨by simp [Spelling.store, firstPool], by simp, fun _ => rfl⟩

lemma edit_keep {props : PoolProps} {kept : List Service} (hk : kept ≠ []) :
    Edit (some props) (some (sp.store { props with services := kept })) := by
  intro n hn
  cases hn
  refine ⟨by simpa [Spelling.store] using hk, fun o ho a ha => ?_, by simp⟩
  cases ho
  exact ha

lemma edit_delete {old : Option PoolProps} : Edit old none := by
  intro n hn
  cases hn

lemma owned_append {p : Provider} {backendBase : String} {ss : List Service}
    (h : Owned acct p ss) :
    Owned acct p (ss ++ [member backendBase (backendId p (acct i))]) := by
  intro s hs
  rcases List.mem_append.1 hs with hs | hs
  · exact h s hs
  · rw [List.mem_singleton.1 hs]
    exact ⟨i, lists_member backendBase p (acct i)⟩

/-! ## Joining and leaving one pool -/

/-- The account is listed once, whoever else joins or leaves. -/
lemma safe_poolAddService (hinj : Function.Injective acct) (backendBase : String)
    {m : Provider → ℕ} {p : Provider} (hm : m p ≤ 1) (hw : Knows acct i m w) :
    Safe sp acct i (poolAddService (client backendBase) (poolId p) (backendId p (acct i)))
      (fun _ w => Knows acct i (Function.update m p 1) w) w := by
  have hne : ∀ j, j ≠ i → acct i ≠ acct j := fun j hj h => hj (hinj h).symm
  unfold poolAddService
  refine (Discipline.wpE_bind _ _).2 ?_
  refine Discipline.wpE_mono (fun _ w hw => ?_) (fun _ _ h => h) (safe_armToken hw)
  refine (Discipline.wpE_bind _ _).2 ?_
  refine Discipline.wpE_mono (fun reply w hread => ?_) (fun _ _ h => h) (safe_getPool p hw)
  obtain ⟨hI, hw, ⟨props, hpool, rfl⟩ | ⟨hnone, rfl⟩ | ⟨code, hbad, h404, rfl⟩⟩ := hread
  · change w.pool p = some props at hpool
    dsimp only
    have howned : Owned acct p props.services := by
      have := hI.owned p
      rwa [hpool] at this
    have hcount : listed p (acct i) props.services = m p := by
      have := hw p
      rwa [hpool] at this
    split_ifs with hany
    · -- Already a member.
      have hpos : 0 < m p := by
        rw [← hcount, listed, List.countP_pos_iff]
        simpa using hany
      have hone : m p = 1 := by omega
      rw [← hone, Function.update_eq_self]
      exact hw
    -- Not a member yet: the services that were read go back with this one at their end, and the
    -- ETag makes sure that they are still those.
    · have hzero : listed p (acct i) props.services = 0 := by
        rw [listed, List.countP_eq_zero]
        simpa using hany
      refine (Discipline.wpE_bind _ _).2 ?_
      refine Discipline.wpE_mono (fun status w hs => safe_raiseForArm hs) (fun _ _ h => h)
        (safe_putPool (n := 1) hw (fun w₁ hR hI₁ hl _ => ?_))
      have hsame := pool_eq_of_version hR ((hl _ rfl).2 _ rfl)
      rw [hpool] at hsame
      rw [hsame, services_some]
      refine ⟨owned_append howned, edit_append, fun j hj => ?_, ?_⟩
      · rw [appendService, listed_append, client, listed_member_of_ne _ _ (hne j hj), Nat.add_zero]
      · rw [appendService, listed_append, client, listed_member_self, hzero]
  · dsimp only
    rw [if_pos rfl]
    refine (Discipline.wpE_bind _ _).2 ?_
    refine Discipline.wpE_mono (fun status w hs => safe_raiseForArm hs) (fun _ _ h => h)
      (safe_putPool (n := 1) hw (fun w₁ hR hI₁ _ hcreate => ?_))
    -- There was no pool.  The put that creates one is only safe if there is none at its moment
    -- either, which is what the step has to promise.
    have habsent : w₁.pool p = none := hcreate rfl
    rw [habsent]
    have hempty : Owned acct p [] := fun s hs => absurd hs List.not_mem_nil
    refine ⟨owned_append hempty, edit_first, fun j hj => ?_, ?_⟩
    · rw [firstPool, client, listed_member_of_ne _ _ (hne j hj)]
      rfl
    · rw [firstPool, client, listed_member_self]
  · dsimp only
    rw [if_neg h404]
    exact safe_raiseForArm (.inl hbad)

lemma owned_others {p : Provider} {a : AccountId} {ss : List Service} (h : Owned acct p ss) :
    Owned acct p (others p a ss) := fun s hs => h s (List.mem_of_mem_filter hs)

/-- What a task knows after its read: the version it saw, and how often it is listed. -/
def Saw (acct : ι → AccountId) (i : ι) (m : Provider → ℕ) (p : Provider)
    (c : Cell ι (Option PoolProps)) (w : World ι) : Prop :=
  Knows acct i m w ∧ Cell.Past c (w.pools (poolId p))

lemma saw_lasting {m : Provider → ℕ} {p : Provider} {c : Cell ι (Option PoolProps)} :
    Lasting acct i (Saw acct i m p c) :=
  fun w w' hR h => ⟨knows_lasting w w' hR h.1, h.2.trans (hR.past p)⟩

lemma safe_detachApiPolicy {backendBase : String} {P : World ι → Prop} (hP : Lasting acct i P)
    (q : Provider) (hw : P w) :
    Safe sp acct i (detachApiPolicy (client backendBase) q) (fun _ w => P w) w := by
  unfold detachApiPolicy
  refine (Discipline.wpE_tryCatch _ _).2 ?_
  refine Discipline.wpE_mono (fun _ _ h => h) (fun e w h => ?_)
    (safe_same hP (fun _ _ _ _ hs => by cases hs; rfl) hw)
  cases e <;> first | exact h | exact trivial

lemma safe_removeBackend {backendBase : String} {P : World ι → Prop} (hP : Lasting acct i P)
    (b : String) (hw : P w) :
    Safe sp acct i (removeBackend (client backendBase) b) (fun _ w => P w) w := by
  unfold removeBackend
  refine (Discipline.wpE_tryCatch _ _).2 ?_
  refine Discipline.wpE_mono (fun _ _ h => h) (fun e w h => ?_)
    (safe_same hP (fun _ _ _ _ hs => by cases hs; rfl) hw)
  cases e <;> first | exact h | exact trivial

lemma safe_deletePool {m : Provider → ℕ} {p : Provider} {im : IfMatch} (hw : Knows acct i m w)
    (hland : ∀ w₁, Rely acct i w w₁ → im = .any ∨ im = .tag (w₁.pools (poolId p)).version →
      ∀ j, j ≠ i → listed p (acct j) (services (w₁.pool p)) = 0) :
    Safe sp acct i (ask (.deletePool (poolId p) im))
      (fun status w => ((400 ≤ status ∧ status ≤ 599) ∧ status ≠ 404) ∨
        Knows acct i (Function.update m p 0) w) w := by
  refine safe_ask (fun w₁ hR hI x r w₂ hs _ => ?_)
  have hw₁ := knows_lasting w w₁ hR hw
  rcases serve_deletePool hs with ⟨rfl, code, hcode, h404, rfl⟩ | ⟨rfl, hnone⟩ | ⟨him, rfl⟩
  · refine ⟨Kept.refl hI, fun b hb => .inl ?_⟩
    cases hb
    exact ⟨hcode, h404⟩
  · -- Somebody else deleted it: nobody is listed.
    have hzero : m p = 0 := by
      rw [← hw₁ p, World.pool, hnone]
      rfl
    refine ⟨Kept.refl hI, fun _ _ => .inr ?_⟩
    rw [← hzero, Function.update_eq_self]
    exact hw₁
  · refine ⟨write_kept hI (by simp [Owned, services]) edit_delete (fun j hj => ?_),
      fun _ _ => .inr (knows_write hw₁ rfl)⟩
    rw [hland w₁ hR him j hj]
    rfl

/-- The account is no longer listed, and whoever else is stays. -/
lemma safe_poolRemoveService (hinj : Function.Injective acct) (backendBase : String)
    {m : Provider → ℕ} {p : Provider} (hw : Knows acct i m w) :
    Safe sp acct i
      (poolRemoveService (client backendBase) (poolId p) (backendId p (acct i)) (some p))
      (fun _ w => Knows acct i (Function.update m p 0) w) w := by
  have hne : ∀ j, j ≠ i → acct i ≠ acct j := fun j hj h => hj (hinj h).symm
  unfold poolRemoveService
  refine (Discipline.wpE_bind _ _).2 ?_
  refine Discipline.wpE_mono (fun _ w hw => ?_) (fun _ _ h => h) (safe_armToken hw)
  refine (Discipline.wpE_bind _ _).2 ?_
  refine Discipline.wpE_mono (fun reply w hread => ?_) (fun _ _ h => h) (safe_getPool p hw)
  obtain ⟨hI, hw, ⟨props, hpool, rfl⟩ | ⟨hnone, rfl⟩ | ⟨code, hbad, h404, rfl⟩⟩ := hread
  · change w.pool p = some props at hpool
    have howned : Owned acct p props.services := by
      have := hI.owned p
      rwa [hpool] at this
    have hcount : listed p (acct i) props.services = m p := by
      have := hw p
      rwa [hpool] at this
    change Safe sp acct i (if (others p (acct i) props.services).length = props.services.length
      then _ else if others p (acct i) props.services = [] then _ else _) _ w
    split_ifs with hlen hempty
    · have hzero : m p = 0 := by rw [← hcount, listed_eq_zero_of_length hlen]
      rw [← hzero, Function.update_eq_self]
      exact hw
    · refine (Discipline.wpE_bind _ _).2 ?_
      -- This was the last member: the API policies are detached before the pool is deleted, and
      -- meanwhile the others may have written it.
      have hsaw : Saw acct i m p (w.pools (poolId p)) w := ⟨hw, Cell.Past.refl _⟩
      refine Discipline.wpE_mono (fun _ w' hw' => ?_) (fun _ _ h => h)
        (safe_detachApiPolicy saw_lasting p hsaw)
      refine (Discipline.wpE_bind _ _).2 ?_
      refine Discipline.wpE_mono (fun status w hs => ?_) (fun _ _ h => h)
        (safe_deletePool hw'.1 (fun w₁ hR him j hj => ?_))
      · split_ifs with h404
        · exact hs.resolve_left (fun h => h.2 h404)
        · exact safe_raiseForArm (hs.imp And.left id)
      · have hver : (w.pools (poolId p)).version = (w₁.pools (poolId p)).version := by
          simpa using him
        have hsame : w₁.pool p = w.pool p := by
          rw [World.pool, World.pool, (hw'.2.trans (hR.past p)).eq_of_version hver]
        rw [hsame, hpool, services_some, ← listed_others_of_ne p (hne j hj), hempty]
        rfl
    · refine (Discipline.wpE_bind _ _).2 ?_
      refine Discipline.wpE_mono (fun status w hs => safe_raiseForArm hs) (fun _ _ h => h)
        (safe_putPool (n := 0) hw (fun w₁ hR hI₁ hl _ => ?_))
      -- Others are left: they are written back under the ETag they were read with.
      have hsame := pool_eq_of_version hR ((hl _ rfl).2 _ rfl)
      rw [hpool] at hsame
      rw [hsame, services_some]
      exact ⟨owned_others howned, edit_keep hempty,
        fun j hj => listed_others_of_ne p (hne j hj) _, listed_others_self p (acct i) _⟩
  · have hzero : m p = 0 := by
      rw [← hw p, World.pool, hnone]
      rfl
    dsimp only
    rw [if_pos rfl, ← hzero, Function.update_eq_self]
    exact hw
  · dsimp only
    rw [if_neg h404]
    exact safe_raiseForArm (.inl hbad)

/-! ## The tasks -/

/-- The membership a list of operations leaves behind: that of the last one, or the one before if
there is none. -/
def membership (m : Provider → ℕ) (ops : List Op) : Provider → ℕ :=
  ops.foldl (fun _ op _ => if op.isAdd then 1 else 0) m

/-- The providers that are no longer left have their new count. -/
def Settled (n : ℕ) (ps : List Provider) (m : Provider → ℕ) : Prop :=
  ∀ p, p ∉ ps → m p = n

lemma safe_addHubToPools (hinj : Function.Injective acct) (backendBase hubFqdn hubKey : String)
    {m : Provider → ℕ} (hm : ∀ p, m p ≤ 1) (hw : Knows acct i m w) :
    Safe sp acct i (addHubToPools (client backendBase) (acct i) hubFqdn hubKey)
      (fun _ w => Knows acct i (fun _ => 1) w) w := by
  unfold addHubToPools
  refine (Discipline.wpE_bind _ _).2 ?_
  have hstart : ∃ m' : Provider → ℕ, (∀ p, m' p ≤ 1) ∧ Settled 1 providers m' ∧
      Knows acct i m' w := ⟨m, hm, fun p hp => absurd (mem_providers p) hp, hw⟩
  refine Discipline.wpE_mono (fun _ w hw => ?_) (fun _ _ h => h)
    (Discipline.wpE_forM (P := fun ps w => ∃ m' : Provider → ℕ, (∀ p, m' p ≤ 1) ∧
      Settled 1 ps m' ∧ Knows acct i m' w) ?_ hstart)
  · obtain ⟨m', -, hall, hw⟩ := hw
    intro p
    rw [hw p, hall p List.not_mem_nil]
  · rintro p ps w ⟨m', hm', hall, hw⟩
    refine (Discipline.wpE_bind _ _).2 ?_
    refine Discipline.wpE_mono (fun _ w hw => ?_) (fun _ _ _ => trivial)
      (safe_same knows_lasting (fun _ _ _ _ hs => by cases hs; rfl) hw)
    refine Discipline.wpE_mono (fun _ w hw => ?_) (fun _ _ h => h)
      (safe_poolAddService hinj backendBase (hm' p) hw)
    refine ⟨Function.update m' p 1, fun q => ?_, fun q hq => ?_, hw⟩
    · by_cases hqp : q = p
      · rw [hqp, Function.update_self]
      · rw [Function.update_of_ne hqp]
        exact hm' q
    · by_cases hqp : q = p
      · rw [hqp, Function.update_self]
      · rw [Function.update_of_ne hqp]
        exact hall q (by simp [hqp, hq])

/-- A removal leaves the account in no pool.  It returns only after each pool has been rewritten
without the account, or was found without it. -/
lemma safe_removeHubFromPools (hinj : Function.Injective acct) (backendBase : String)
    (backendIds : List String) {m : Provider → ℕ} (hw : Knows acct i m w) :
    Safe sp acct i (removeHubFromPools (client backendBase) (acct i) backendIds)
      (fun _ w => Knows acct i (fun _ => 0) w) w := by
  unfold removeHubFromPools
  refine (Discipline.wpE_bind _ _).2 ?_
  have hstart : ∃ m' : Provider → ℕ, Settled 0 providers m' ∧ Knows acct i m' w :=
    ⟨m, fun p hp => absurd (mem_providers p) hp, hw⟩
  refine Discipline.wpE_mono (fun _ w hw => ?_) (fun _ _ h => h)
    (Discipline.wpE_forM (P := fun ps w => ∃ m' : Provider → ℕ,
      Settled 0 ps m' ∧ Knows acct i m' w) ?_ hstart)
  · obtain ⟨m', hall, hw⟩ := hw
    have hzero : Knows acct i (fun _ => 0) w := by
      intro p
      rw [hw p, hall p List.not_mem_nil]
    refine Discipline.wpE_forM (P := fun _ w => Knows acct i (fun _ => 0) w) ?_ hzero
    intro b bs w hw
    split_ifs
    · exact hw
    · exact safe_removeBackend knows_lasting b hw
  · rintro p ps w ⟨m', hall, hw⟩
    refine (Discipline.wpE_bind _ _).2 ?_
    refine Discipline.wpE_mono (fun _ w hw => ?_) (fun _ _ h => h)
      (safe_poolRemoveService hinj backendBase hw)
    refine Discipline.wpE_mono (fun _ w hw => ?_) (fun _ _ h => h)
      (safe_removeBackend knows_lasting _ hw)
    refine ⟨Function.update m' p 0, fun q hq => ?_, hw⟩
    by_cases hqp : q = p
    · rw [hqp, Function.update_self]
    · rw [Function.update_of_ne hqp]
      exact hall q (by simp [hqp, hq])

lemma safe_task (hinj : Function.Injective acct) (backendBase : String) (ops : List Op)
    {m : Provider → ℕ} (hm : ∀ p, m p ≤ 1) (hw : Knows acct i m w) :
    Safe sp acct i (task backendBase (acct i) ops)
      (fun _ w => Knows acct i (membership m ops) w) w := by
  have hstart : ∃ m' : Provider → ℕ, (∀ p, m' p ≤ 1) ∧ membership m' ops = membership m ops ∧
      Knows acct i m' w := ⟨m, hm, rfl, hw⟩
  refine Discipline.wpE_mono (fun _ w hw => ?_) (fun _ _ h => h)
    (Discipline.wpE_forM (P := fun rest w => ∃ m' : Provider → ℕ, (∀ p, m' p ≤ 1) ∧
      membership m' rest = membership m ops ∧ Knows acct i m' w) ?_ hstart)
  · obtain ⟨m', -, hsame, hw⟩ := hw
    rw [← hsame]
    exact hw
  · rintro op rest w ⟨m', hm', hsame, hw⟩
    cases op with
    | add hubFqdn hubKey =>
        refine (Discipline.wpE_bind _ _).2 ?_
        refine Discipline.wpE_mono (fun _ w hw => ?_) (fun _ _ h => h)
          (safe_addHubToPools hinj backendBase hubFqdn hubKey hm' hw)
        exact ⟨fun _ => 1, fun _ => le_refl 1, hsame, hw⟩
    | remove backendIds =>
        refine Discipline.wpE_mono (fun _ w hw => ?_) (fun _ _ h => h)
          (safe_removeHubFromPools hinj backendBase backendIds hw)
        exact ⟨fun _ => 0, fun _ => Nat.zero_le 1, hsame, hw⟩

end Rules

/-! ## Exact membership -/

section Exact

variable {ι : Type}

/-- A pool lists exactly these accounts, each once, and nothing else. -/
structure ListsExactly (acct : ι → AccountId) (p : Provider) (v : Option PoolProps) (S : Set ι) :
    Prop where
  once : ∀ i ∈ S, listed p (acct i) (services v) = 1
  only : ∀ s ∈ services v, ∃ i ∈ S, Lists p (acct i) s

/-- The accounts that were added and not removed afterwards; an account without operations stays
what it was. -/
def finalMembers (S₀ : Provider → Set ι) (ops : ι → List Op) (p : Provider) : Set ι :=
  {i | match (ops i).getLast? with
    | some op => op.isAdd = true
    | none => i ∈ S₀ p}

/-- Every pool lists exactly the accounts of `S₀`, and its history begins here. -/
def World.Begins (acct : ι → AccountId) (S₀ : Provider → Set ι) (w : World ι) : Prop :=
  ∀ p, ListsExactly acct p (w.pool p) (S₀ p) ∧ (w.pools (poolId p)).log = []

lemma membership_of_getLast? (m : Provider → ℕ) (ops : List Op) (p : Provider) :
    membership m ops p = match ops.getLast? with
      | some op => if op.isAdd then 1 else 0
      | none => m p := by
  induction ops using List.reverseRecOn with
  | nil => rfl
  | append_singleton ops op _ =>
      rw [membership, List.foldl_append, List.getLast?_concat]
      rfl

lemma World.Begins.inv {acct : ι → AccountId} {S₀ : Provider → Set ι} {w : World ι}
    (h : w.Begins acct S₀) : Inv acct w where
  owned := fun p s hs => ((h p).1.only s hs).imp (fun _ hi => hi.2)
  edits := by
    intro p c i v hpast
    have hlog := hpast.2
    rw [(h p).2] at hlog
    exact absurd hlog (by simp [Cell.write])

open Classical in
lemma World.Begins.knows {acct : ι → AccountId} (hinj : Function.Injective acct)
    {S₀ : Provider → Set ι} {w : World ι} (h : w.Begins acct S₀) (i : ι) :
    Knows acct i (fun p => if i ∈ S₀ p then 1 else 0) w := by
  intro p
  dsimp only
  split_ifs with hi
  · exact (h p).1.once i hi
  · rw [listed, List.countP_eq_zero]
    intro s hs hl
    obtain ⟨j, hj, hlj⟩ := (h p).1.only s hs
    exact hi (hinj (eq_of_lists hlj hl) ▸ hj)

variable [DecidableEq ι]

open Classical in
/-- **Pool membership.**  In a run in which a `PUT` without `If-Match` finds no pool, no write
empties a pool or changes its affinity, and once all calls have returned the pools list exactly
the accounts that were added and not removed afterwards, each once. -/
theorem pools_exact (sp : Spelling) (backendBase : String) {acct : ι → AccountId}
    (hinj : Function.Injective acct) {S₀ : Provider → Set ι} {ops : ι → List Op} {w : World ι}
    (hw : w.Begins acct S₀) {c : Config poolsApi ι (World ι) (Except PyErr Unit)}
    (h : Reaches (env sp ι) CreatesAbsent (start backendBase acct ops w) c) :
    (∀ p, (c.world.pools (poolId p)).WritesFrom (fun _ => Edit)) ∧
      ((∀ i, c.Returned i (.ok ())) →
        ∀ p, ListsExactly acct p (c.world.pool p) (finalMembers S₀ ops p)) := by
  set m : ι → Provider → ℕ := fun i p => if i ∈ S₀ p then 1 else 0 with hm
  have hsafe : ∀ i, (discipline sp acct).wp CreatesAbsent i ((start backendBase acct ops w).prog i)
      (fun r w => r = .ok () → Knows acct i (membership (m i) (ops i)) w) w := by
    intro i
    have hle : ∀ p, m i p ≤ 1 := by
      intro p
      simp only [hm]
      split_ifs <;> simp
    refine Discipline.wp_mono (fun r w hr hok => ?_)
      (safe_task hinj backendBase (ops i) hle (hw.knows hinj i))
    subst hok
    exact hr
  have hstable : ∀ i (r : Except PyErr Unit), (discipline sp acct).Stable i
      (fun w => r = .ok () → Knows acct i (membership (m i) (ops i)) w) :=
    fun i r w w' hR _ hk hr => knows_lasting w w' hR (hk hr)
  have hI : Inv acct c.world :=
    (Discipline.sound (c := start backendBase acct ops w) hstable hw.inv hsafe h).1
  refine ⟨hI.edits, fun hdone p => ?_⟩
  have hcount : ∀ i, listed p (acct i) (services (c.world.pool p)) =
      if i ∈ finalMembers S₀ ops p then 1 else 0 := by
    intro i
    have hk := Discipline.returned_of_sound (c := start backendBase acct ops w) hstable hw.inv
      hsafe h (hdone i) rfl p
    rw [hk, membership_of_getLast?, finalMembers]
    cases hl : (ops i).getLast? with
    | none => simp [hl, hm]
    | some op => simp [hl]
  refine ⟨fun i hi => by rw [hcount i, if_pos hi], fun s hs => ?_⟩
  obtain ⟨i, hi⟩ := hI.owned p s hs
  refine ⟨i, ?_, hi⟩
  by_contra hnot
  have hzero := hcount i
  rw [if_neg hnot, listed, List.countP_eq_zero] at hzero
  exact hzero s hs hi

end Exact

/-! ## Two first members -/

section FirstMembers

/-- Two accounts without a pool yet, each deployed once, under ids that differ in the last digit. -/
def pair : Fin 2 → AccountId
  | 0 => ⟨"00000000000a", AccountId.hexDigits_of_all (by decide)⟩
  | 1 => ⟨"00000000000b", AccountId.hexDigits_of_all (by decide)⟩

lemma pair_injective : Function.Injective pair := by
  intro i j h
  have hhex : ∀ i j, (pair i).hex = (pair j).hex → i = j := by decide
  exact hhex i j (congrArg AccountId.hex h)

def noPools : World (Fin 2) := ⟨fun _ => ⟨none, []⟩⟩

def deployEach (_ : Fin 2) : List Op := [.add "hub.example" "key"]

def backends : String := arm ++ "/service/apim/backends"

lemma noPools_begins : noPools.Begins pair (fun _ => ∅) := by
  refine fun p => ⟨⟨by simp, ?_⟩, rfl⟩
  intro s hs
  exact absurd hs List.not_mem_nil

instance (i : Fin 2) (w : World (Fin 2)) (o : Call) (r : poolsApi.Reply o) :
    Decidable (CreatesAbsent i w o r) :=
  match o with
  | .putPool id _ none => inferInstanceAs (Decidable ((w.pools id).value = none))
  | .putPool _ _ (some _) | .armToken | .getPool _ | .deletePool _ _ | .deletePolicy _
  | .putBackend _ _ | .deleteBackend _ => isTrue trivial

/-- The turns of the two deployments; every call is served. -/
def schedule (turns : List (Fin 2)) : List (Fin 2 × Fate (Option ℕ) PyErr) :=
  turns.map (fun i => (i, .served none))

/-- One deployment after the other: the second finds the pool of the first, and both are listed. -/
theorem pools_exact_inTurn :
    ∃ c, Reaches (env relativeIds (Fin 2)) CreatesAbsent
        (start backends pair deployEach noPools) c ∧
      ∀ p, ListsExactly pair p (c.world.pool p) (finalMembers (fun _ => ∅) deployEach p) := by
  obtain ⟨c, hreach, hdone⟩ := Config.reaches_of_play (env relativeIds (Fin 2)) CreatesAbsent
    (start backends pair deployEach noPools)
    (schedule (List.replicate 12 0 ++ List.replicate 12 1))
    (fun c => ∀ i, c.Returned i (.ok ())) (by decide +kernel)
  exact ⟨c, hreach, (pools_exact relativeIds backends pair_injective noPools_begins hreach).2
    hdone⟩

/-- Both deployments find no pool, and the second one overwrites the first. -/
theorem member_lost :
    ¬ ∀ (sp : Spelling) (backendBase : String) (acct : Fin 2 → AccountId),
      Function.Injective acct → ∀ (S₀ : Provider → Set (Fin 2)) (ops : Fin 2 → List Op)
      (w : World (Fin 2)), w.Begins acct S₀ → ∀ c,
      Reaches (env sp (Fin 2)) anyStep (start backendBase acct ops w) c →
      (∀ i, c.Returned i (.ok ())) →
      ∀ p, ListsExactly acct p (c.world.pool p) (finalMembers S₀ ops p) := by
  intro hclaim
  obtain ⟨c, hreach, hdone, hlost⟩ := Config.reaches_of_play (env relativeIds (Fin 2)) anyStep
    (start backends pair deployEach noPools)
    (schedule (List.replicate 3 0 ++ List.replicate 3 1 ++ List.replicate 9 0 ++
      List.replicate 9 1))
    (fun c => (∀ i, c.Returned i (.ok ())) ∧
      listed .openai (pair 0) (services (c.world.pool .openai)) = 0) (by decide +kernel)
  have hexact := hclaim relativeIds backends pair pair_injective _ deployEach noPools
    noPools_begins c hreach hdone .openai
  have honce := hexact.once 0 rfl
  rw [hlost] at honce
  cases honce

end FirstMembers

end Pools
end TokenFoundry
