import TokenFoundry.Framework.Requests
import TokenFoundry.Framework.VersionedCell
import TokenFoundry.Api.Keys

/-!
# Where a key lives

A virtual key is a row of the database, a subscription of the gateway and an entry of the limits
map.  `Ledger` is the world of the requests that issue, suspend and delete keys, one after the
other, with every call served, refused, or served with its answer lost.

A lookup that finds nothing is reported as such only where there is nothing: `ResourceNotFoundError`
is never a failure of the service.
-/

set_option autoImplicit false

namespace TokenFoundry
namespace KeyLedger

open Keys (Tenant Project VirtualKey keysApi Handler client withDb)
open KeyLimits (LimitsMap NvText NamedValue IfMatch Entry)

/-! ## The world -/

/-- What the requests about keys share: the tables of the database, the subscriptions of the gateway
and its limits map, and the ids that were drawn. -/
structure Ledger where
  tenants : String → Option Tenant
  projects : String → Option Project
  keys : List VirtualKey
  /-- The states of the gateway's subscriptions. -/
  subscriptions : String → Option String
  named : Cell Unit (Option NvText)
  /-- The key ids that were drawn. -/
  usedIds : List String

def Ledger.findKey (w : Ledger) (id : String) : Option VirtualKey :=
  w.keys.find? (fun k => k.id = id)

/-- The limits map that the gateway sees, empty where the named value is missing. -/
def Ledger.map (w : Ledger) : LimitsMap := (w.named.value.map NvText.parsed).getD ∅

/-- `create_or_update` of a subscription, or its deletion; the other subscriptions keep their
states. -/
def Ledger.setSubscription (w : Ledger) (id : String) (state : Option String) : Ledger :=
  { w with subscriptions := Function.update w.subscriptions id state }

/-- `UPDATE virtual_keys SET status = … WHERE id = …`. -/
def Ledger.setStatus (w : Ledger) (id : String) (status : KeyStatus) : Ledger :=
  { w with keys := w.keys.map (fun k => if k.id = id then { k with status := status } else k) }

/-- The write names a version that is not the current one. -/
def Ledger.stale (w : Ledger) : IfMatch → Bool
  | .any => false
  | .tag t => w.named.value.isNone || t ≠ w.named.version

/-- What the outside decides: the value it draws, and whether a read carries the ETag. -/
structure Pick where
  value : String
  tagged : Bool

/-- How the services answer.  An id drawn by `uuid4` names nothing yet. -/
def serve (w : Ledger) : (o : Keys.Call) → Pick → Option (keysApi.Reply o × Ledger)
  | .getProject id, _ => some (.ok (w.projects id), w)
  | .getTenant id, _ => some (.ok (w.tenants id), w)
  | .getKey id, _ => some (.ok (w.findKey id), w)
  | .insertKey vk, _ =>
      if (w.findKey vk.id).isSome then some (.error .integrity, w)
      else some (.ok (), { w with keys := w.keys ++ [vk] })
  | .commitKeyStatus id status, _ =>
      if (w.findKey id).isNone then some (.error .staleData, w)
      else some (.ok (), w.setStatus id status)
  | .deleteKey id, _ => some (.ok (), { w with keys := w.keys.filter (fun k => k.id ≠ id) })
  | .refreshKey id, _ => some ((w.findKey id).elim (.error .invalidRequest) .ok, w)
  | .close, _ => some (.ok (), w)
  | .newId, p =>
      if "vk_" ++ p.value ∈ w.usedIds ∨ (w.subscriptions ("vk_" ++ p.value)).isSome then none
      else some (.ok p.value, { w with usedIds := ("vk_" ++ p.value) :: w.usedIds })
  | .createSubscription id _, _ => some (.ok (), w.setSubscription id (some "active"))
  | .subscriptionSecret id, p =>
      some (if (w.subscriptions id).isSome then .ok (some p.value) else .error .resourceNotFound, w)
  | .getSubscription id, _ =>
      some (if (w.subscriptions id).isSome then .ok () else .error .resourceNotFound, w)
  | .setSubscriptionState id state, _ => some (.ok (), w.setSubscription id (some state))
  | .deleteSubscription id, _ =>
      some (if (w.subscriptions id).isSome then .ok () else .error .resourceNotFound,
        w.setSubscription id none)
  | .setSecret _ _, p => some (.ok p.value, w)
  | .deleteSecret _, _ => some (.ok (), w)
  | .getNamedValue, p =>
      some (match w.named.value with
        | none => .error .resourceNotFound
        | some text => .ok ⟨text, if p.tagged then some w.named.version else none⟩, w)
  | .putNamedValue m im, _ =>
      if w.stale im then some (.error (.httpResponse 412), w)
      else some (.ok (), { w with named := w.named.write () (some (.limits m)) })
  | _, _ => none

/-- A call may fail with any error but the one that says that there is nothing. -/
def mayFail (_ : Keys.Call) (e : PyErr) : Bool := decide (e ≠ .resourceNotFound)

def env : Env keysApi Unit Ledger := .faulty (fun _ => serve) mayFail mayFail (fun _ _ => False)

lemma env_drift (w w' : Ledger) : ¬ env.drift w w' := id

/-! ## Requests -/

inductive Request
  | create (body : VirtualKeyCreate)
  | suspend (keyId : String)
  | delete (keyId : String)

/-- The program of a request, inside its database session, which is closed on every way out. -/
def Request.handler : Request → Handler Unit
  | .create body => withDb (do let _ ← Keys.createKey body)
  | .suspend id => withDb (do let _ ← Keys.suspendKey id)
  | .delete id => withDb (Keys.deleteKey id)

/-- No request is in progress, so that the next one begins on the tables as they are. -/
def idle (w : Ledger) : Turn keysApi Ledger (Except PyErr Unit) := ⟨w, .done (.ok ())⟩

/-! ## The tables -/

/-- The primary key, and no id drawn twice: the ids of rows and subscriptions are among those that
were drawn. -/
structure Ledger.WellFormed (w : Ledger) : Prop where
  ids : (w.keys.map VirtualKey.id).Nodup
  used : ∀ k ∈ w.keys, k.id ∈ w.usedIds
  subs : ∀ k ∈ w.keys, ∀ s ∈ k.subscription, s ∈ w.usedIds

/-- The call writes nothing, neither to the database nor at the gateway. -/
def Reads : Keys.Call → Prop
  | .insertKey _ | .commitKeyStatus _ _ | .deleteKey _ | .newId | .createSubscription _ _
  | .setSubscriptionState _ _ | .deleteSubscription _ | .putNamedValue _ _ => False
  | _ => True

section Serve

variable {w w' : Ledger} {o : Keys.Call} {p : Pick} {r : keysApi.Reply o}

lemma serve_reads (ho : Reads o) (h : serve w o p = some (r, w')) : w' = w := by
  cases o with
  | insertKey vk => exact ho.elim
  | commitKeyStatus id status => exact ho.elim
  | deleteKey id => exact ho.elim
  | newId => exact ho.elim
  | createSubscription id name => exact ho.elim
  | setSubscriptionState id state => exact ho.elim
  | deleteSubscription id => exact ho.elim
  | putNamedValue m im => exact ho.elim
  | listSubscriptions t => cases h
  | commitTenant id ch => cases h
  | refreshTenant id => cases h
  | _ =>
      cases h
      rfl

/-- An id that was drawn stays drawn, whatever is deleted under it. -/
lemma serve_used {x : String} (h : serve w o p = some (r, w')) (hx : x ∈ w.usedIds) :
    x ∈ w'.usedIds := by
  by_cases hr : Reads o
  · rw [serve_reads hr h]
    exact hx
  cases o with
  | insertKey vk =>
      simp only [serve] at h
      split_ifs at h <;> cases h <;> exact hx
  | commitKeyStatus id status =>
      simp only [serve] at h
      split_ifs at h <;> cases h <;> exact hx
  | newId =>
      simp only [serve] at h
      split_ifs at h
      cases h
      exact List.mem_cons_of_mem _ hx
  | putNamedValue m im =>
      simp only [serve] at h
      split_ifs at h <;> cases h <;> exact hx
  | deleteKey id =>
      cases h
      exact hx
  | createSubscription id name =>
      cases h
      exact hx
  | setSubscriptionState id state =>
      cases h
      exact hx
  | deleteSubscription id =>
      cases h
      exact hx
  | _ => exact absurd trivial hr

/-- A row that is inserted names an id that was drawn. -/
def Drawn (w : Ledger) : Keys.Call → Prop
  | .insertKey vk => vk.id ∈ w.usedIds ∧ ∀ s ∈ vk.subscription, s ∈ w.usedIds
  | _ => True

lemma Reads.drawn (ho : Reads o) : Drawn w o := by
  cases o with
  | insertKey vk => exact ho.elim
  | _ => trivial

lemma findKey_none {id : String} (h : ¬ (w.findKey id).isSome = true) :
    id ∉ w.keys.map VirtualKey.id := by
  intro hmem
  obtain ⟨k, hk, rfl⟩ := List.mem_map.1 hmem
  refine h ?_
  rw [Ledger.findKey, List.find?_isSome]
  exact ⟨k, hk, by simp⟩

lemma findKey_unique (hw : w.WellFormed) {id : String} {vk : VirtualKey}
    (h : w.findKey id = some vk) :
    vk ∈ w.keys ∧ vk.id = id ∧ ∀ k ∈ w.keys, k.id = id → k = vk := by
  have hmem : vk ∈ w.keys := List.mem_of_find?_eq_some h
  have hid : vk.id = id := by simpa using List.find?_some h
  exact ⟨hmem, hid, fun k hk hkid => List.inj_on_of_nodup_map hw.ids hk hmem (hkid.trans hid.symm)⟩

/-- A status update is made row by row, and changes neither id nor subscription. -/
lemma mem_setStatus {id : String} {status : KeyStatus} {k : VirtualKey}
    (h : k ∈ (w.setStatus id status).keys) :
    ∃ k₀ ∈ w.keys, k.id = k₀.id ∧ k.subscription = k₀.subscription ∧
      (k = k₀ ∨ k₀.id = id ∧ k.status = status) := by
  obtain ⟨k₀, hk₀, rfl⟩ := List.mem_map.1 h
  split_ifs with hid
  · exact ⟨k₀, hk₀, rfl, rfl, .inr ⟨hid, rfl⟩⟩
  · exact ⟨k₀, hk₀, rfl, rfl, .inl rfl⟩

lemma Ledger.WellFormed.setStatus (hw : w.WellFormed) (id : String) (status : KeyStatus) :
    (w.setStatus id status).WellFormed := by
  refine ⟨?_, fun k hk => ?_, fun k hk s hs => ?_⟩
  · have hmap : (w.setStatus id status).keys.map VirtualKey.id = w.keys.map VirtualKey.id := by
      simp only [Ledger.setStatus, List.map_map]
      refine List.map_congr_left (fun k _ => ?_)
      simp only [Function.comp_apply]
      split_ifs <;> rfl
    rw [hmap]
    exact hw.ids
  · obtain ⟨k₀, hk₀, hid, -, -⟩ := mem_setStatus hk
    exact hid ▸ hw.used k₀ hk₀
  · obtain ⟨k₀, hk₀, -, hsub, -⟩ := mem_setStatus hk
    exact hw.subs k₀ hk₀ s (hsub ▸ hs)

/-- Every call keeps the tables well-formed.  The insert needs that its id was drawn by the request
itself. -/
lemma serve_wellFormed (hw : w.WellFormed) (ho : Drawn w o) (h : serve w o p = some (r, w')) :
    w'.WellFormed := by
  -- The calls that read leave the ledger as it is; of the others, only a new row and a new id add
  -- to what has to be known.
  by_cases hr : Reads o
  · rw [serve_reads hr h]
    exact hw
  cases o with
  | insertKey vk =>
      simp only [serve] at h
      split_ifs at h with hfind
      · cases h
        exact hw
      · cases h
        refine ⟨?_, fun k hk => ?_, fun k hk s hs => ?_⟩
        · simp only [List.map_append, List.map_cons, List.map_nil]
          refine List.nodup_append.2 ⟨hw.ids, by simp, ?_⟩
          -- The insertion was not refused, so no row has the id.
          rintro a ha b hb rfl
          exact findKey_none hfind (List.mem_singleton.1 hb ▸ ha)
        · rcases List.mem_append.1 hk with hk | hk
          · exact hw.used k hk
          · exact List.mem_singleton.1 hk ▸ ho.1
        · rcases List.mem_append.1 hk with hk | hk
          · exact hw.subs k hk s hs
          · exact ho.2 s (List.mem_singleton.1 hk ▸ hs)
  | commitKeyStatus id status =>
      simp only [serve] at h
      split_ifs at h
      · cases h
        exact hw
      · cases h
        exact hw.setStatus id status
  | deleteKey id =>
      cases h
      exact ⟨hw.ids.sublist (List.filter_sublist.map _),
        fun k hk => hw.used k (List.mem_of_mem_filter hk),
        fun k hk => hw.subs k (List.mem_of_mem_filter hk)⟩
  | newId =>
      simp only [serve] at h
      split_ifs at h
      cases h
      exact ⟨hw.ids, fun k hk => List.mem_cons_of_mem _ (hw.used k hk),
        fun k hk s hs => List.mem_cons_of_mem _ (hw.subs k hk s hs)⟩
  | createSubscription id name =>
      cases h
      exact ⟨hw.ids, hw.used, hw.subs⟩
  | setSubscriptionState id state =>
      cases h
      exact ⟨hw.ids, hw.used, hw.subs⟩
  | deleteSubscription id =>
      cases h
      exact ⟨hw.ids, hw.used, hw.subs⟩
  | putNamedValue m im =>
      simp only [serve] at h
      split_ifs at h
      · cases h
        exact hw
      · cases h
        exact ⟨hw.ids, hw.used, hw.subs⟩
  | _ => exact absurd trivial hr

end Serve

end KeyLedger
end TokenFoundry
