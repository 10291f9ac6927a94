import TokenFoundry.Framework.VersionedCell
import TokenFoundry.Api.Tenants

/-!
# The world of the key requests

The database, the named value and the sessions of the requests of `Api/Keys.lean` and
`Api/Tenants.lean`, the invariant that keeps a tenant's row and the limits map in agreement, and
what each kind of call keeps of it.

The world keeps, next to the database and the named value, what each open session has done so
far (`Session`); no program reads it.  A request that is switching a tenant's flag has the
tenant in `pushing` from listing the keys to recording the row, and in that stretch nothing is
promised for the tenant.
-/

set_option autoImplicit false

namespace TokenFoundry
namespace Keys

open KeyLimits

/-! ## Requests -/

inductive Request
  | create (body : VirtualKeyCreate)
  | update (tenantId : String) (body : TenantUpdate)
  | delete (keyId : String)

/-- The program of a request, inside its database session, which is closed at the end. -/
def Request.handler : Request → Handler Unit
  | .create body => withDb (do let _ ← createKey body)
  | .update t body => withDb (do let _ ← updateTenant t body)
  | .delete k => withDb (deleteKey k)

/-! ## The world -/

/-- What a request has done so far: the version of the named value it read, the audit flag of
the tenant row it loaded, the key id it drew and has not inserted, the tenant whose keys it
listed and whose flag it has not recorded, and the key it is deleting. -/
structure Session where
  opened : Bool
  seen : ℕ
  loaded : Option Bool
  drawn : Option String
  pushing : Option String
  deleting : Option String
  deriving DecidableEq

def Session.closed : Session := ⟨false, 0, none, none, none, none⟩

/-- The database, the named value of the gateway, the ids that were ever drawn, and what each
request has noted of itself. -/
structure World (ι : Type) where
  tenants : String → Option Tenant
  keys : List VirtualKey
  named : Cell ι (Option NvText)
  usedIds : List String
  session : ι → Session

variable {ι : Type}

/-- The limits map the gateway sees, which is empty where the named value is missing or cannot be
read. -/
def World.map (w : World ι) : LimitsMap := (w.named.value.map NvText.parsed).getD ∅

/-- The tenant of a key, through its project. -/
def owner (projects : String → Option Project) (k : VirtualKey) : Option String :=
  (projects k.projectId).map Project.tenantId

def World.findKey (w : World ι) (id : String) : Option VirtualKey :=
  w.keys.find? (fun k => k.id = id)

/-- The subscription ids of a tenant's keys, as the join finds them at this moment. -/
def World.subscriptionsOf (projects : String → Option Project) (w : World ι) (t : String) :
    List String :=
  (w.keys.filter (fun k => owner projects k = some t)).filterMap VirtualKey.subscription

/-- Record something in the session of a request; the notes decide no answer. -/
def World.note [DecidableEq ι] (w : World ι) (i : ι) (f : Session → Session) : World ι :=
  { w with session := Function.update w.session i (f { w.session i with opened := true }) }

/-- Write the columns of a tenant row that a commit names. -/
def TenantChanges.apply (ch : TenantChanges) (t : Tenant) : Tenant :=
  { t with
    name := ch.name.getD t.name
    mode := ch.mode.getD t.mode
    auditEnabled := ch.auditEnabled.getD t.auditEnabled }

/-- What the outside decides: the value it draws, and whether a read carries the ETag. -/
structure Pick where
  value : String
  tagged : Bool

/-- How the services answer.  Every call succeeds, but for a write with a stale ETag; the calls
of requests that are not modelled here are never made. -/
def serve [DecidableEq ι] (projects : String → Option Project) (i : ι) (w : World ι) :
    (o : Call) → Pick → Option (keysApi.Reply o × World ι)
  | .getProject id, _ => some (.ok (projects id), w.note i (fun s => s))
  | .getTenant id, _ =>
      some (.ok (w.tenants id),
        w.note i (fun s => { s with loaded := (w.tenants id).map Tenant.auditEnabled }))
  | .getKey id, _ =>
      some (.ok (w.findKey id),
        w.note i (fun s => { s with deleting := (w.findKey id).map VirtualKey.id }))
  | .listSubscriptions t, _ =>
      some (.ok (w.subscriptionsOf projects t), w.note i (fun s => { s with pushing := some t }))
  | .insertKey vk, _ =>
      some (.ok (), { w.note i (fun s => { s with drawn := none }) with keys := w.keys ++ [vk] })
  | .deleteKey id, _ =>
      some (.ok (), { w.note i (fun s => s) with keys := w.keys.filter (fun k => k.id ≠ id) })
  | .refreshKey id, _ => some ((w.findKey id).elim (.error .invalidRequest) .ok, w)
  | .commitTenant id ch, _ =>
      match w.tenants id with
      | none => some (.error .staleData, w)
      | some t =>
          some (.ok (), { w.note i (fun s => { s with pushing := none }) with
            tenants := Function.update w.tenants id (some (ch.apply t)) })
  | .refreshTenant id, _ => some ((w.tenants id).elim (.error .invalidRequest) .ok, w)
  | .close, _ => some (.ok (), { w with session := Function.update w.session i .closed })
  | .newId, p =>
      if "vk_" ++ p.value ∈ w.usedIds then none
      else some (.ok p.value, { w.note i (fun s => { s with drawn := some ("vk_" ++ p.value) }) with
        usedIds := ("vk_" ++ p.value) :: w.usedIds })
  | .createSubscription _ _, _ => some (.ok (), w)
  | .subscriptionSecret _, p => some (.ok (some p.value), w)
  | .deleteSubscription _, _ => some (.ok (), w)
  | .setSecret _ _, p => some (.ok p.value, w)
  | .deleteSecret _, _ => some (.ok (), w)
  | .getNamedValue, p =>
      some (match w.named.value with
          | none => .error .resourceNotFound
          | some text => .ok ⟨text, if p.tagged then some w.named.version else none⟩,
        w.note i (fun s => { s with seen := w.named.version }))
  | .putNamedValue m .any, _ =>
      some (.ok (), { w with named := w.named.write i (some (.limits m)) })
  | .putNamedValue m (.tag t), _ =>
      if w.named.value.isSome ∧ t = w.named.version then
        some (.ok (), { w with named := w.named.write i (some (.limits m)) })
      else some (.error (.httpResponse 412), w)
  | _, _ => none

def env (projects : String → Option Project) (ι : Type) [DecidableEq ι] :
    Env keysApi ι (World ι) where
  Choice := Pick
  act := serve projects
  drift _ _ := False

/-! ## What holds of every world -/

/-- The gateway stamps the requests of this subscription for auditing. -/
def Flagged (m : LimitsMap) (s : String) : Prop := (m.lookup s).bind Entry.a = some 1

instance (m : LimitsMap) (s : String) : Decidable (Flagged m s) :=
  inferInstanceAs (Decidable (_ = _))

/-- A request has drawn this key id and has not inserted the key. -/
def Drawn (w : World ι) (s : String) : Prop := ∃ j, (w.session j).drawn = some s

/-- The tenant has a key with this subscription that nobody is deleting. -/
def Live (projects : String → Option Project) (w : World ι) (t s : String) : Prop :=
  ∃ k ∈ w.keys, k.subscription = some s ∧ owner projects k = some t ∧
    ∀ j, (w.session j).deleting ≠ some k.id

/-- The invariant of the audit flags: ids are drawn once, subscriptions belong to one key, and the
flag in the map agrees with the tenant's row for every live key of a tenant that is not being
switched. -/
structure Inv (projects : String → Option Project) (w : World ι) : Prop where
  tenant_id : ∀ t row, w.tenants t = some row → row.id = t
  subs_inj : ∀ k ∈ w.keys, ∀ k' ∈ w.keys, ∀ s, k.subscription = some s →
    k'.subscription = some s → k = k'
  used_ids : ∀ k ∈ w.keys, k.id ∈ w.usedIds
  used_subs : ∀ k ∈ w.keys, ∀ s ∈ k.subscription, s ∈ w.usedIds
  used_map : ∀ s ∈ w.map, s ∈ w.usedIds
  used_drawn : ∀ s, Drawn w s → s ∈ w.usedIds
  drawn_row : ∀ s, Drawn w s → ∀ k ∈ w.keys, k.id ≠ s ∧ k.subscription ≠ some s
  drawn_inj : ∀ i j s, (w.session i).drawn = some s → (w.session j).drawn = some s → i = j
  pushing_inj : ∀ i j t, (w.session i).pushing = some t → (w.session j).pushing = some t → i = j
  idle : ∀ i, (w.session i).opened = false → w.session i = .closed
  agree : ∀ t row, w.tenants t = some row → (∀ j, (w.session j).pushing ≠ some t) →
    ∀ s, Live projects w t s → (Flagged w.map s ↔ row.auditEnabled = true)

/-! ## What the steps of the others may do -/

/-- Ids are never used twice, and the named value only moves forward. -/
structure Grows (w w' : World ι) : Prop where
  used : w.usedIds ⊆ w'.usedIds
  drawn : ∀ s, Drawn w' s → Drawn w s ∨ s ∉ w.usedIds
  rows : ∀ k ∈ w'.keys, k ∈ w.keys ∨
    ∃ s, k.id = s ∧ k.subscription = some s ∧ (Drawn w s ∨ s ∉ w.usedIds)
  named : Cell.Past w.named w'.named

/-- Nobody touches the session of a request, the entry of the key it is creating, or the keys
and the flag of the tenant it is switching. -/
structure Rely (projects : String → Option Project) (i : ι) (w w' : World ι) : Prop where
  grows : Grows w w'
  session : w'.session i = w.session i
  drawn : ∀ s, (w.session i).drawn = some s → w'.map.lookup s = w.map.lookup s
  pushing : ∀ t, (w.session i).pushing = some t →
    (w'.tenants t).map Tenant.auditEnabled = (w.tenants t).map Tenant.auditEnabled ∧
    ∀ s, Live projects w' t s → Live projects w t s ∧ w'.map.lookup s = w.map.lookup s

lemma Grows.refl (w : World ι) : Grows w w :=
  ⟨List.Subset.refl _, fun _ h => .inl h, fun _ h => .inl h, Cell.Past.refl _⟩

lemma Grows.trans {w₁ w₂ w₃ : World ι} (h₁ : Grows w₁ w₂) (h₂ : Grows w₂ w₃) : Grows w₁ w₃ := by
  have hdrawn : ∀ s, Drawn w₂ s ∨ s ∉ w₂.usedIds → Drawn w₁ s ∨ s ∉ w₁.usedIds := by
    rintro s (hs | hs)
    · exact h₁.drawn s hs
    · exact .inr (fun h => hs (h₁.used h))
  refine ⟨fun s hs => h₂.used (h₁.used hs), fun s hs => hdrawn s (h₂.drawn s hs), fun k hk => ?_,
    h₁.named.trans h₂.named⟩
  rcases h₂.rows k hk with hk | ⟨s, hid, hsub, hs⟩
  · exact h₁.rows k hk
  · exact .inr ⟨s, hid, hsub, hdrawn s hs⟩

lemma Rely.refl {projects : String → Option Project} (i : ι) (w : World ι) :
    Rely projects i w w :=
  ⟨Grows.refl w, rfl, fun _ _ => rfl, fun _ _ => ⟨rfl, fun _ h => ⟨h, rfl⟩⟩⟩

lemma Rely.trans {projects : String → Option Project} {i : ι} {w₁ w₂ w₃ : World ι}
    (h₁ : Rely projects i w₁ w₂) (h₂ : Rely projects i w₂ w₃) : Rely projects i w₁ w₃ := by
  refine ⟨h₁.grows.trans h₂.grows, h₂.session.trans h₁.session, fun s hs => ?_, fun t ht => ?_⟩
  · have hs₂ : (w₂.session i).drawn = some s := by rw [h₁.session, hs]
    rw [h₂.drawn s hs₂, h₁.drawn s hs]
  · have ht₂ : (w₂.session i).pushing = some t := by rw [h₁.session, ht]
    obtain ⟨haud₁, hlive₁⟩ := h₁.pushing t ht
    obtain ⟨haud₂, hlive₂⟩ := h₂.pushing t ht₂
    refine ⟨haud₂.trans haud₁, fun s hs => ?_⟩
    obtain ⟨hs₂, hl₂⟩ := hlive₂ s hs
    obtain ⟨hs₁, hl₁⟩ := hlive₁ s hs₂
    exact ⟨hs₁, hl₂.trans hl₁⟩

def discipline [DecidableEq ι] (projects : String → Option Project) :
    Discipline (env projects ι) where
  inv := Inv projects
  rely := Rely projects
  busy _ _ := True
  rely_refl := Rely.refl
  rely_trans _ _ _ _ := Rely.trans
  drift_inv _ h := h.elim
  drift_rely _ _ h := h.elim

/-! ## What every step keeps -/

section Steps

variable [DecidableEq ι] {projects : String → Option Project} {i : ι} {w : World ι}

/-- A step of thread `i` keeps the invariant and what the others rely on. -/
def Kept (projects : String → Option Project) (i : ι) (w w' : World ι) : Prop :=
  Inv projects w' ∧ ∀ j, j ≠ i → Rely projects j w w'

@[simp] lemma note_session_self (f : Session → Session) :
    (w.note i f).session i = f { w.session i with opened := true } :=
  Function.update_self i _ _

@[simp] lemma note_session_ne (f : Session → Session) {j : ι} (h : j ≠ i) :
    (w.note i f).session j = w.session j :=
  Function.update_of_ne h _ _

/-- The note of one request, seen from its fields: a field that the note does not change is as it
was for everybody. -/
lemma note_field {β : Type} (f : Session → Session) (g : Session → β)
    (hg : g (f { w.session i with opened := true }) = g (w.session i)) (j : ι) :
    g ((w.note i f).session j) = g (w.session j) := by
  by_cases hj : j = i
  · subst hj
    rw [note_session_self, hg]
  · rw [note_session_ne f hj]

lemma note_idle {f : Session → Session} (hI : Inv projects w)
    (hf : (f { w.session i with opened := true }).opened = true) (j : ι)
    (hj : ((w.note i f).session j).opened = false) : (w.note i f).session j = .closed := by
  by_cases hji : j = i
  · subst hji
    rw [note_session_self] at hj
    rw [hf] at hj
    cases hj
  · rw [note_session_ne f hji] at hj ⊢
    exact hI.idle j hj

/-- A note that neither draws, nor opens or closes a switch, nor forgets a deletion. -/
lemma note_kept (hI : Inv projects w) (f : Session → Session)
    (hopened : (f { w.session i with opened := true }).opened = true)
    (hdrawn : (f { w.session i with opened := true }).drawn = (w.session i).drawn)
    (hpushing : (f { w.session i with opened := true }).pushing = (w.session i).pushing)
    (hdeleting : ∀ kid, (w.session i).deleting = some kid →
      (f { w.session i with opened := true }).deleting = some kid) :
    Kept projects i w (w.note i f) := by
  have hD : ∀ j, ((w.note i f).session j).drawn = (w.session j).drawn :=
    note_field f Session.drawn hdrawn
  have hP : ∀ j, ((w.note i f).session j).pushing = (w.session j).pushing :=
    note_field f Session.pushing hpushing
  have hDrawn : ∀ s, Drawn (w.note i f) s ↔ Drawn w s := by
    intro s
    simp only [Drawn, hD]
  have hLive : ∀ t s, Live projects (w.note i f) t s → Live projects w t s := by
    rintro t s ⟨k, hk, hsub, hown, hdel⟩
    refine ⟨k, hk, hsub, hown, fun j hj => ?_⟩
    by_cases hji : j = i
    · subst hji
      exact hdel j (by rw [note_session_self]; exact hdeleting k.id hj)
    · exact hdel j (by rw [note_session_ne f hji]; exact hj)
  refine ⟨?_, fun j hj => ?_⟩
  · exact
      { tenant_id := hI.tenant_id
        subs_inj := hI.subs_inj
        used_ids := hI.used_ids
        used_subs := hI.used_subs
        used_map := hI.used_map
        used_drawn := fun s hs => hI.used_drawn s ((hDrawn s).1 hs)
        drawn_row := fun s hs => hI.drawn_row s ((hDrawn s).1 hs)
        drawn_inj := fun j k s hj hk => hI.drawn_inj j k s (hD j ▸ hj) (hD k ▸ hk)
        pushing_inj := fun j k t hj hk => hI.pushing_inj j k t (hP j ▸ hj) (hP k ▸ hk)
        idle := note_idle hI hopened
        agree := fun t row ht hno s hs =>
          hI.agree t row ht (fun j => hP j ▸ hno j) s (hLive t s hs) }
  · refine ⟨⟨List.Subset.refl _, fun s hs => .inl ((hDrawn s).1 hs), fun _ h => .inl h,
      Cell.Past.refl _⟩, note_session_ne f hj, fun _ _ => rfl, fun t _ => ⟨rfl, fun s hs => ?_⟩⟩
    exact ⟨hLive t s hs, rfl⟩

/-- Opening the switch of a tenant that nobody else is switching. -/
lemma list_kept (hI : Inv projects w) {t : String} (hnone : (w.session i).pushing = none)
    (hfree : ∀ j, j ≠ i → (w.session j).pushing ≠ some t) :
    Kept projects i w (w.note i (fun s => { s with pushing := some t })) := by
  set w' := w.note i (fun s => { s with pushing := some t }) with hw'
  have hD : ∀ j, (w'.session j).drawn = (w.session j).drawn := note_field _ Session.drawn rfl
  have hX : ∀ j, (w'.session j).deleting = (w.session j).deleting :=
    note_field _ Session.deleting rfl
  have hDrawn : ∀ s, Drawn w' s ↔ Drawn w s := by
    intro s
    simp only [Drawn, hD]
  have hLive : ∀ t s, Live projects w' t s ↔ Live projects w t s := by
    intro t s
    simp only [Live, hX]
    rfl
  have hself : (w'.session i).pushing = some t := by rw [hw', note_session_self]
  have hother : ∀ j, j ≠ i → w'.session j = w.session j := fun j hj => note_session_ne _ hj
  refine ⟨?_, fun j hj => ?_⟩
  · exact
      { tenant_id := hI.tenant_id
        subs_inj := hI.subs_inj
        used_ids := hI.used_ids
        used_subs := hI.used_subs
        used_map := hI.used_map
        used_drawn := fun s hs => hI.used_drawn s ((hDrawn s).1 hs)
        drawn_row := fun s hs => hI.drawn_row s ((hDrawn s).1 hs)
        drawn_inj := fun j k s hj hk => hI.drawn_inj j k s (hD j ▸ hj) (hD k ▸ hk)
        -- Two switches of one tenant would be this one and one that `hfree` excludes.
        pushing_inj := by
          intro j k t' hj hk
          by_cases hji : j = i
          · by_cases hki : k = i
            · rw [hji, hki]
            · rw [hji, hself] at hj
              rw [hother k hki] at hk
              exact absurd (hk.trans hj.symm) (hfree k hki)
          · by_cases hki : k = i
            · rw [hki, hself] at hk
              rw [hother j hji] at hj
              exact absurd (hj.trans hk.symm) (hfree j hji)
            · rw [hother j hji] at hj
              rw [hother k hki] at hk
              exact hI.pushing_inj j k t' hj hk
        idle := note_idle hI rfl
        agree := by
          intro t' row ht hno s hs
          refine hI.agree t' row ht (fun j => ?_) s ((hLive t' s).1 hs)
          by_cases hji : j = i
          · rw [hji, hnone]
            simp
          · rw [← hother j hji]
            exact hno j }
  · refine ⟨⟨List.Subset.refl _, fun s hs => .inl ((hDrawn s).1 hs), fun _ h => .inl h,
      Cell.Past.refl _⟩, hother j hj, fun _ _ => rfl, fun t' _ => ⟨rfl, fun s hs => ?_⟩⟩
    exact ⟨(hLive t' s).1 hs, rfl⟩

/-- After a draw the ids that are drawn are those of before, and the new one. -/
lemma drawn_note {id s : String}
    (h : ∃ j, ((w.note i (fun s => { s with drawn := some id })).session j).drawn = some s) :
    Drawn w s ∨ s = id := by
  obtain ⟨j, hj⟩ := h
  by_cases hji : j = i
  · rw [hji, note_session_self] at hj
    exact .inr (Option.some.inj hj).symm
  · rw [note_session_ne _ hji] at hj
    exact .inl ⟨j, hj⟩

/-- Nobody else has drawn a fresh id, since every id that was drawn has been used. -/
lemma drawn_inj_note (hI : Inv projects w) {id s : String} (hid : id ∉ w.usedIds) {j k : ι}
    (hj : ((w.note i (fun s => { s with drawn := some id })).session j).drawn = some s)
    (hk : ((w.note i (fun s => { s with drawn := some id })).session k).drawn = some s) :
    j = k := by
  by_cases hji : j = i
  · by_cases hki : k = i
    · rw [hji, hki]
    · rw [hji, note_session_self] at hj
      rw [note_session_ne _ hki] at hk
      exact absurd (hI.used_drawn s ⟨k, hk⟩) (Option.some.inj hj ▸ hid)
  · by_cases hki : k = i
    · rw [hki, note_session_self] at hk
      rw [note_session_ne _ hji] at hj
      exact absurd (hI.used_drawn s ⟨j, hj⟩) (Option.some.inj hk ▸ hid)
    · rw [note_session_ne _ hji] at hj
      rw [note_session_ne _ hki] at hk
      exact hI.drawn_inj j k s hj hk

/-- Drawing an id that was never used keeps the invariant, since no row and no entry can have it. -/
lemma draw_kept (hI : Inv projects w) {id : String} (hid : id ∉ w.usedIds) :
    Kept projects i w { w.note i (fun s => { s with drawn := some id }) with
      usedIds := id :: w.usedIds } := by
  set w' : World ι := { w.note i (fun s => { s with drawn := some id }) with
    usedIds := id :: w.usedIds } with hw'
  have hsess : w'.session = (w.note i (fun s => { s with drawn := some id })).session := rfl
  have hP : ∀ j, (w'.session j).pushing = (w.session j).pushing := by
    rw [hsess]
    exact note_field _ Session.pushing rfl
  have hX : ∀ j, (w'.session j).deleting = (w.session j).deleting := by
    rw [hsess]
    exact note_field _ Session.deleting rfl
  have hDrawn : ∀ s, Drawn w' s → Drawn w s ∨ s = id := fun s h => drawn_note h
  have hLive : ∀ t s, Live projects w' t s ↔ Live projects w t s := by
    intro t s
    simp only [Live, hX]
    rfl
  have hlift : ∀ s, s ∈ w.usedIds → s ∈ w'.usedIds := fun s hs => List.mem_cons_of_mem _ hs
  refine ⟨?_, fun j hj => ?_⟩
  · exact
      { tenant_id := hI.tenant_id
        subs_inj := hI.subs_inj
        used_ids := fun k hk => hlift _ (hI.used_ids k hk)
        used_subs := fun k hk s hs => hlift _ (hI.used_subs k hk s hs)
        used_map := fun s hs => hlift _ (hI.used_map s hs)
        used_drawn := by
          intro s hs
          rcases hDrawn s hs with hs | rfl
          · exact hlift _ (hI.used_drawn s hs)
          · exact List.mem_cons_self
        -- A fresh id is in no row, since the ids of all rows have been used.
        drawn_row := by
          intro s hs k hk
          rcases hDrawn s hs with hs | rfl
          · exact hI.drawn_row s hs k hk
          · refine ⟨fun heq => hid (heq ▸ hI.used_ids k hk), fun heq => ?_⟩
            exact hid (hI.used_subs k hk _ heq)
        drawn_inj := fun j k s hj hk => drawn_inj_note hI hid hj hk
        pushing_inj := fun j k t hj hk => hI.pushing_inj j k t (hP j ▸ hj) (hP k ▸ hk)
        idle := by
          intro j hj
          rw [hsess] at hj ⊢
          exact note_idle hI rfl j hj
        agree := fun t row ht hno s hs =>
          hI.agree t row ht (fun j => hP j ▸ hno j) s ((hLive t s).1 hs) }
  · refine ⟨⟨fun s hs => hlift s hs, fun s hs => ?_, fun _ h => .inl h, Cell.Past.refl _⟩,
      (congrFun hsess j).trans (note_session_ne _ hj), fun _ _ => rfl,
      fun t _ => ⟨rfl, fun s hs => ⟨(hLive t s).1 hs, rfl⟩⟩⟩
    rcases hDrawn s hs with hs | rfl
    · exact .inl hs
    · exact .inr hid

/-! ### Inserting a key -/

/-- The world in which the key has been inserted that the request has drawn. -/
def World.insertKey (w : World ι) (i : ι) (vk : VirtualKey) : World ι :=
  { w.note i (fun s => { s with drawn := none }) with keys := w.keys ++ [vk] }

section Insert

variable {vk : VirtualKey}

lemma session_insertKey : (w.insertKey i vk).session =
    (w.note i (fun s => { s with drawn := none })).session := rfl

lemma session_insertKey_ne {j : ι} (hj : j ≠ i) :
    (w.insertKey i vk).session j = w.session j := by
  rw [session_insertKey, note_session_ne _ hj]

lemma pushing_insertKey (j : ι) :
    ((w.insertKey i vk).session j).pushing = (w.session j).pushing := by
  rw [session_insertKey]
  exact note_field _ Session.pushing rfl j

lemma deleting_insertKey (j : ι) :
    ((w.insertKey i vk).session j).deleting = (w.session j).deleting := by
  rw [session_insertKey]
  exact note_field _ Session.deleting rfl j

/-- The request has drawn nothing any more, once its row is in. -/
lemma ne_of_drawn_insertKey {j : ι} {s : String}
    (h : ((w.insertKey i vk).session j).drawn = some s) : j ≠ i := by
  rintro rfl
  rw [session_insertKey, note_session_self] at h
  cases h

lemma mem_insertKey {k : VirtualKey} (h : k ∈ (w.insertKey i vk).keys) : k ∈ w.keys ∨ k = vk :=
  (List.mem_append.1 h).imp_right List.mem_singleton.1

lemma drawn_insertKey (hI : Inv projects w) (hdrawn : (w.session i).drawn = some vk.id)
    {s : String} (h : Drawn (w.insertKey i vk) s) : Drawn w s ∧ s ≠ vk.id := by
  obtain ⟨j, hj⟩ := h
  have hji := ne_of_drawn_insertKey hj
  rw [session_insertKey_ne hji] at hj
  refine ⟨⟨j, hj⟩, ?_⟩
  rintro rfl
  exact hji (hI.drawn_inj j i _ hj hdrawn)

lemma live_insertKey (hsub : vk.subscription = some vk.id) {t s : String}
    (h : Live projects (w.insertKey i vk) t s) :
    Live projects w t s ∨ (s = vk.id ∧ owner projects vk = some t) := by
  obtain ⟨k, hk, hs, hown, hdel⟩ := h
  rcases mem_insertKey hk with hk | rfl
  · exact .inl ⟨k, hk, hs, hown, fun j => deleting_insertKey j ▸ hdel j⟩
  · rw [hsub] at hs
    exact .inr ⟨(Option.some.inj hs).symm, hown⟩

/-- The new row has a subscription of its own, since its id has been drawn. -/
lemma subs_inj_insertKey (hI : Inv projects w) (hdrawn : Drawn w vk.id)
    (hsub : vk.subscription = some vk.id) : ∀ k ∈ (w.insertKey i vk).keys,
      ∀ k' ∈ (w.insertKey i vk).keys, ∀ s, k.subscription = some s → k'.subscription = some s →
        k = k' := by
  have hnew := hI.drawn_row vk.id hdrawn
  intro k hk k' hk' s hs hs'
  rcases mem_insertKey hk with hold | rfl
  · rcases mem_insertKey hk' with hold' | rfl
    · exact hI.subs_inj k hold k' hold' s hs hs'
    · rw [hsub] at hs'
      exact absurd (hs.trans hs'.symm) (hnew k hold).2
  · rcases mem_insertKey hk' with hold' | rfl
    · rw [hsub] at hs
      exact absurd (hs'.trans hs.symm) (hnew k' hold').2
    · rfl

lemma drawn_row_insertKey (hI : Inv projects w) (hdrawn : (w.session i).drawn = some vk.id)
    (hsub : vk.subscription = some vk.id) : ∀ s, Drawn (w.insertKey i vk) s →
      ∀ k ∈ (w.insertKey i vk).keys, k.id ≠ s ∧ k.subscription ≠ some s := by
  intro s hs k hk
  obtain ⟨hs, hne⟩ := drawn_insertKey hI hdrawn hs
  rcases mem_insertKey hk with hk | rfl
  · exact hI.drawn_row s hs k hk
  · refine ⟨fun h => hne h.symm, fun h => ?_⟩
    rw [hsub] at h
    exact hne (Option.some.inj h).symm

lemma inv_insertKey (hI : Inv projects w) (hdrawn : (w.session i).drawn = some vk.id)
    (hsub : vk.subscription = some vk.id)
    (hflag : ∀ t ∈ owner projects vk, ∀ row, w.tenants t = some row →
      (Flagged w.map vk.id ↔ row.auditEnabled = true)) :
    Inv projects (w.insertKey i vk) where
  tenant_id := hI.tenant_id
  subs_inj := subs_inj_insertKey hI ⟨i, hdrawn⟩ hsub
  used_ids := by
    intro k hk
    rcases mem_insertKey hk with hk | rfl
    · exact hI.used_ids k hk
    · exact hI.used_drawn _ ⟨i, hdrawn⟩
  used_subs := by
    intro k hk s hs
    rcases mem_insertKey hk with hk | rfl
    · exact hI.used_subs k hk s hs
    · rw [hsub] at hs
      exact Option.some.inj hs ▸ hI.used_drawn _ ⟨i, hdrawn⟩
  used_map := hI.used_map
  used_drawn s hs := hI.used_drawn s (drawn_insertKey hI hdrawn hs).1
  drawn_row := drawn_row_insertKey hI hdrawn hsub
  drawn_inj j k s hj hk := by
    rw [session_insertKey_ne (ne_of_drawn_insertKey hj)] at hj
    rw [session_insertKey_ne (ne_of_drawn_insertKey hk)] at hk
    exact hI.drawn_inj j k s hj hk
  pushing_inj j k t hj hk :=
    hI.pushing_inj j k t (pushing_insertKey j ▸ hj) (pushing_insertKey k ▸ hk)
  idle j hj := by
    rw [session_insertKey] at hj ⊢
    exact note_idle hI rfl j hj
  agree t row ht hno s hs := by
    rcases live_insertKey hsub hs with hs | ⟨rfl, hown⟩
    · exact hI.agree t row ht (fun j => pushing_insertKey j ▸ hno j) s hs
    · exact hflag t hown row ht

lemma rely_insertKey (hI : Inv projects w) (hdrawn : (w.session i).drawn = some vk.id)
    (hsub : vk.subscription = some vk.id)
    (hquiet : ∀ t ∈ owner projects vk, ∀ j, (w.session j).pushing ≠ some t) {j : ι}
    (hj : j ≠ i) : Rely projects j w (w.insertKey i vk) := by
  refine ⟨⟨List.Subset.refl _, fun s hs => .inl (drawn_insertKey hI hdrawn hs).1, fun k hk => ?_,
    Cell.Past.refl _⟩, session_insertKey_ne hj, fun _ _ => rfl,
    fun t ht => ⟨rfl, fun s hs => ?_⟩⟩
  · rcases mem_insertKey hk with hk | rfl
    · exact .inl hk
    · exact .inr ⟨_, rfl, hsub, .inl ⟨i, hdrawn⟩⟩
  · rcases live_insertKey hsub hs with hs | ⟨-, hown⟩
    · exact ⟨hs, rfl⟩
    · exact absurd ht (hquiet t hown j)

/-- Inserting a key whose tenant is not being switched, with the flag of the tenant. -/
lemma insert_kept (hI : Inv projects w) (hdrawn : (w.session i).drawn = some vk.id)
    (hsub : vk.subscription = some vk.id)
    (hquiet : ∀ t ∈ owner projects vk, ∀ j, (w.session j).pushing ≠ some t)
    (hflag : ∀ t ∈ owner projects vk, ∀ row, w.tenants t = some row →
      (Flagged w.map vk.id ↔ row.auditEnabled = true)) :
    Kept projects i w (w.insertKey i vk) :=
  ⟨inv_insertKey hI hdrawn hsub hflag, fun _ => rely_insertKey hI hdrawn hsub hquiet⟩

end Insert

/-- Deleting a row keeps the invariant, since it takes away and adds nothing. -/
lemma delete_kept (hI : Inv projects w) (id : String) :
    Kept projects i w { w.note i (fun s => s) with
      keys := w.keys.filter (fun k => k.id ≠ id) } := by
  set w' : World ι := { w.note i (fun s => s) with
    keys := w.keys.filter (fun k => k.id ≠ id) } with hw'
  have hsess : w'.session = (w.note i (fun s => s)).session := rfl
  have hD : ∀ j, (w'.session j).drawn = (w.session j).drawn := by
    rw [hsess]
    exact note_field _ Session.drawn rfl
  have hP : ∀ j, (w'.session j).pushing = (w.session j).pushing := by
    rw [hsess]
    exact note_field _ Session.pushing rfl
  have hX : ∀ j, (w'.session j).deleting = (w.session j).deleting := by
    rw [hsess]
    exact note_field _ Session.deleting rfl
  have hDrawn : ∀ s, Drawn w' s ↔ Drawn w s := by
    intro s
    simp only [Drawn, hD]
  have hmem : ∀ k ∈ w'.keys, k ∈ w.keys := fun k hk => List.mem_of_mem_filter hk
  -- With fewer rows, fewer subscriptions are live, and there is less to agree on.
  have hLive : ∀ t s, Live projects w' t s → Live projects w t s := by
    rintro t s ⟨k, hk, hs, hown, hdel⟩
    exact ⟨k, hmem k hk, hs, hown, fun j => hX j ▸ hdel j⟩
  refine ⟨?_, fun j hj => ?_⟩
  · exact
      { tenant_id := hI.tenant_id
        subs_inj := fun k hk k' hk' => hI.subs_inj k (hmem k hk) k' (hmem k' hk')
        used_ids := fun k hk => hI.used_ids k (hmem k hk)
        used_subs := fun k hk => hI.used_subs k (hmem k hk)
        used_map := hI.used_map
        used_drawn := fun s hs => hI.used_drawn s ((hDrawn s).1 hs)
        drawn_row := fun s hs k hk => hI.drawn_row s ((hDrawn s).1 hs) k (hmem k hk)
        drawn_inj := fun j k s hj hk => hI.drawn_inj j k s (hD j ▸ hj) (hD k ▸ hk)
        pushing_inj := fun j k t hj hk => hI.pushing_inj j k t (hP j ▸ hj) (hP k ▸ hk)
        idle := by
          intro j hj
          rw [hsess] at hj ⊢
          exact note_idle hI rfl j hj
        agree := fun t row ht hno s hs =>
          hI.agree t row ht (fun j => hP j ▸ hno j) s (hLive t s hs) }
  · refine ⟨⟨List.Subset.refl _, fun s hs => .inl ((hDrawn s).1 hs), fun k hk => .inl (hmem k hk),
      Cell.Past.refl _⟩, by rw [hsess, note_session_ne _ hj], fun _ _ => rfl,
      fun t _ => ⟨rfl, fun s hs => ?_⟩⟩
    exact ⟨hLive t s hs, rfl⟩

/-! ### Recording a tenant row -/

@[simp] lemma apply_id (ch : TenantChanges) (t : Tenant) : (ch.apply t).id = t.id := rfl

/-- The world in which the row has been recorded, which ends the switch of the request. -/
def World.commitTenant (w : World ι) (i : ι) (id : String) (row : Tenant) : World ι :=
  { w.note i (fun s => { s with pushing := none }) with
    tenants := Function.update w.tenants id (some row) }

/-- The row may be recorded: either with the flag that its keys have been given, or with the flag
unchanged. -/
def Recordable (projects : String → Option Project) (i : ι) (w : World ι) (id : String)
    (row row' : Tenant) : Prop :=
  ((w.session i).pushing = some id ∧
      ∀ s, Live projects w id s → (Flagged w.map s ↔ row'.auditEnabled = true)) ∨
    ((w.session i).pushing = none ∧ row'.auditEnabled = row.auditEnabled)

section Commit

variable {id : String} {row row' : Tenant}

lemma session_commitTenant : (w.commitTenant i id row').session =
    (w.note i (fun s => { s with pushing := none })).session := rfl

lemma tenants_eq_commitTenant : (w.commitTenant i id row').tenants =
    Function.update w.tenants id (some row') := rfl

lemma session_commitTenant_ne {j : ι} (hj : j ≠ i) :
    (w.commitTenant i id row').session j = w.session j := by
  rw [session_commitTenant, note_session_ne _ hj]

lemma drawn_eq_commitTenant (j : ι) :
    ((w.commitTenant i id row').session j).drawn = (w.session j).drawn := by
  rw [session_commitTenant]
  exact note_field _ Session.drawn rfl j

lemma drawn_commitTenant (s : String) : Drawn (w.commitTenant i id row') s ↔ Drawn w s :=
  exists_congr (fun j => by rw [drawn_eq_commitTenant])

lemma live_commitTenant (t s : String) :
    Live projects (w.commitTenant i id row') t s ↔ Live projects w t s := by
  have hdeleting : ∀ j, ((w.commitTenant i id row').session j).deleting =
      (w.session j).deleting := by
    rw [session_commitTenant]
    exact note_field _ Session.deleting rfl
  simp only [Live, hdeleting]
  rfl

/-- The request switches no tenant any more, once the row is recorded. -/
lemma ne_of_pushing_commitTenant {j : ι} {t : String}
    (h : ((w.commitTenant i id row').session j).pushing = some t) : j ≠ i := by
  rintro rfl
  rw [session_commitTenant, note_session_self] at h
  cases h

lemma tenants_commitTenant {t : String} {r : Tenant}
    (h : (w.commitTenant i id row').tenants t = some r) :
    (t = id ∧ r = row') ∨ (t ≠ id ∧ w.tenants t = some r) := by
  by_cases ht : t = id
  · subst ht
    rw [tenants_eq_commitTenant, Function.update_self] at h
    exact .inl ⟨rfl, (Option.some.inj h).symm⟩
  · rw [tenants_eq_commitTenant, Function.update_of_ne ht] at h
    exact .inr ⟨ht, h⟩

omit [DecidableEq ι] in
/-- The request has been switching no tenant but this one. -/
lemma Recordable.pushing (h : Recordable projects i w id row row') {t : String}
    (ht : (w.session i).pushing = some t) : t = id := by
  rcases h with ⟨hp, -⟩ | ⟨hp, -⟩
  · exact Option.some.inj (ht.symm.trans hp)
  · rw [hp] at ht
    cases ht

/-- After the row has been recorded, the keys of every tenant that nobody is switching have the flag
of its row. -/
lemma agree_commitTenant (hI : Inv projects w) (hrow : w.tenants id = some row)
    (h : Recordable projects i w id row row') {t : String} {r : Tenant}
    (ht : (w.commitTenant i id row').tenants t = some r)
    (hno : ∀ j, ((w.commitTenant i id row').session j).pushing ≠ some t) {s : String}
    (hs : Live projects w t s) : Flagged w.map s ↔ r.auditEnabled = true := by
  have hothers : ∀ j, j ≠ i → (w.session j).pushing ≠ some t := by
    intro j hj
    have hsame : (w.commitTenant i id row').session j = w.session j := session_commitTenant_ne hj
    exact hsame ▸ hno j
  rcases tenants_commitTenant ht with ⟨rfl, rfl⟩ | ⟨hne, hold⟩
  · rcases h with ⟨-, hflag⟩ | ⟨hp, haudit⟩
    · exact hflag s hs
    · rw [haudit]
      refine hI.agree t row hrow (fun j => ?_) s hs
      by_cases hj : j = i
      · simp [hj, hp]
      · exact hothers j hj
  · refine hI.agree t r hold (fun j => ?_) s hs
    by_cases hj : j = i
    · exact fun hp => hne (h.pushing (hj ▸ hp))
    · exact hothers j hj

lemma inv_commitTenant (hI : Inv projects w) (hrow : w.tenants id = some row)
    (hid : row'.id = row.id) (h : Recordable projects i w id row row') :
    Inv projects (w.commitTenant i id row') where
  tenant_id t r ht := by
    rcases tenants_commitTenant ht with ⟨rfl, rfl⟩ | ⟨-, hold⟩
    · exact hid.trans (hI.tenant_id _ _ hrow)
    · exact hI.tenant_id t r hold
  subs_inj := hI.subs_inj
  used_ids := hI.used_ids
  used_subs := hI.used_subs
  used_map := hI.used_map
  used_drawn s hs := hI.used_drawn s ((drawn_commitTenant s).1 hs)
  drawn_row s hs := hI.drawn_row s ((drawn_commitTenant s).1 hs)
  drawn_inj j k s hj hk :=
    hI.drawn_inj j k s (drawn_eq_commitTenant j ▸ hj) (drawn_eq_commitTenant k ▸ hk)
  pushing_inj j k t hj hk := by
    rw [session_commitTenant_ne (ne_of_pushing_commitTenant hj)] at hj
    rw [session_commitTenant_ne (ne_of_pushing_commitTenant hk)] at hk
    exact hI.pushing_inj j k t hj hk
  idle j hj := by
    rw [session_commitTenant] at hj ⊢
    exact note_idle hI rfl j hj
  agree t r ht hno s hs := agree_commitTenant hI hrow h ht hno ((live_commitTenant t s).1 hs)

lemma rely_commitTenant (hI : Inv projects w) (hrow : w.tenants id = some row)
    (h : Recordable projects i w id row row') {j : ι} (hj : j ≠ i) :
    Rely projects j w (w.commitTenant i id row') := by
  refine ⟨⟨List.Subset.refl _, fun s hs => .inl ((drawn_commitTenant s).1 hs), fun _ h => .inl h,
    Cell.Past.refl _⟩, session_commitTenant_ne hj, fun _ _ => rfl,
    fun t ht => ⟨?_, fun s hs => ⟨(live_commitTenant t s).1 hs, rfl⟩⟩⟩
  by_cases hid : t = id
  · subst hid
    -- Another request is switching this tenant, so that this one is not, and leaves the flag.
    rcases h with ⟨hp, -⟩ | ⟨-, haudit⟩
    · exact absurd (hI.pushing_inj j i _ ht hp) hj
    · rw [tenants_eq_commitTenant, Function.update_self, hrow, Option.map_some, Option.map_some,
        haudit]
  · rw [tenants_eq_commitTenant, Function.update_of_ne hid]

/-- Recording a tenant row keeps the invariant, if the flag has been pushed or stays the same. -/
lemma commit_kept (hI : Inv projects w) (hrow : w.tenants id = some row) {ch : TenantChanges}
    (h : Recordable projects i w id row (ch.apply row)) :
    Kept projects i w (w.commitTenant i id (ch.apply row)) :=
  ⟨inv_commitTenant hI hrow (apply_id ch row) h, fun _ => rely_commitTenant hI hrow h⟩

end Commit

/-- Closing a session whose switch is settled and whose deletion is done. -/
lemma close_kept (hI : Inv projects w)
    (hpush : ∀ t, (w.session i).pushing = some t → ∀ row, w.tenants t = some row →
      ∀ s, Live projects w t s → (Flagged w.map s ↔ row.auditEnabled = true))
    (hdel : ∀ id, (w.session i).deleting = some id → ∀ k ∈ w.keys, k.id ≠ id) :
    Kept projects i w { w with session := Function.update w.session i .closed } := by
  set w' : World ι := { w with session := Function.update w.session i .closed } with hw'
  have hself : w'.session i = .closed := Function.update_self i _ _
  have hother : ∀ j, j ≠ i → w'.session j = w.session j := fun j hj => Function.update_of_ne hj _ _
  have hDrawn : ∀ s, Drawn w' s → Drawn w s := by
    rintro s ⟨j, hj⟩
    by_cases hji : j = i
    · rw [hji, hself] at hj
      cases hj
    · exact ⟨j, by rwa [hother j hji] at hj⟩
  -- The key that was being deleted is gone, so that it does not come back to life.
  have hLive : ∀ t s, Live projects w' t s → Live projects w t s := by
    rintro t s ⟨k, hk, hs, hown, hd⟩
    refine ⟨k, hk, hs, hown, fun j hj => ?_⟩
    by_cases hji : j = i
    · exact hdel k.id (hji ▸ hj) k hk rfl
    · exact hd j (by rw [hother j hji]; exact hj)
  have hne : ∀ j t, (w'.session j).pushing = some t → j ≠ i := by
    rintro j t hj rfl
    rw [hself] at hj
    cases hj
  have hneD : ∀ j t, (w'.session j).drawn = some t → j ≠ i := by
    rintro j t hj rfl
    rw [hself] at hj
    cases hj
  refine ⟨?_, fun j hj => ?_⟩
  · exact
      { tenant_id := hI.tenant_id
        subs_inj := hI.subs_inj
        used_ids := hI.used_ids
        used_subs := hI.used_subs
        used_map := hI.used_map
        used_drawn := fun s hs => hI.used_drawn s (hDrawn s hs)
        drawn_row := fun s hs => hI.drawn_row s (hDrawn s hs)
        drawn_inj := by
          intro j k s hj hk
          rw [hother j (hneD j s hj)] at hj
          rw [hother k (hneD k s hk)] at hk
          exact hI.drawn_inj j k s hj hk
        pushing_inj := by
          intro j k t hj hk
          rw [hother j (hne j t hj)] at hj
          rw [hother k (hne k t hk)] at hk
          exact hI.pushing_inj j k t hj hk
        idle := by
          intro j hj
          by_cases hji : j = i
          · rw [hji, hself]
          · rw [hother j hji] at hj ⊢
            exact hI.idle j hj
        -- The tenant that was being switched is settled by assumption; the others are as before.
        agree := by
          intro t row ht hno s hs
          by_cases hp : (w.session i).pushing = some t
          · exact hpush t hp row ht s (hLive t s hs)
          · refine hI.agree t row ht (fun j => ?_) s (hLive t s hs)
            by_cases hji : j = i
            · exact hji ▸ hp
            · rw [← hother j hji]
              exact hno j }
  · exact ⟨⟨List.Subset.refl _, fun s hs => .inl (hDrawn s hs), fun _ h => .inl h,
      Cell.Past.refl _⟩, hother j hj, fun _ _ => rfl, fun t _ => ⟨rfl, fun s hs =>
      ⟨hLive t s hs, rfl⟩⟩⟩

/-- The subscriptions a request may write in the limits map. -/
structure Free (projects : String → Option Project) (i : ι) (F : String → Prop) (w : World ι) :
    Prop where
  used : ∀ s, F s → s ∈ w.usedIds
  drawn : ∀ j, j ≠ i → ∀ s, F s → (w.session j).drawn ≠ some s
  live : ∀ t s, F s → Live projects w t s → (w.session i).pushing = some t

omit [DecidableEq ι] in
/-- Writing the entries of free subscriptions only keeps the invariant, since it is about the
others. -/
lemma put_kept (hI : Inv projects w) {F : String → Prop} (hF : Free projects i F w)
    {m : LimitsMap} (hfoot : ∀ s, ¬ F s → m.lookup s = w.map.lookup s) :
    Kept projects i w { w with named := w.named.write i (some (.limits m)) } := by
  set w' : World ι := { w with named := w.named.write i (some (.limits m)) } with hw'
  have hmap : w'.map = m := rfl
  have hLive : ∀ t s, Live projects w' t s ↔ Live projects w t s := fun _ _ => Iff.rfl
  refine ⟨?_, fun j hj => ?_⟩
  · exact
      { tenant_id := hI.tenant_id
        subs_inj := hI.subs_inj
        used_ids := hI.used_ids
        used_subs := hI.used_subs
        used_map := by
          intro s hs
          by_cases hFs : F s
          · exact hF.used s hFs
          · refine hI.used_map s ?_
            rw [hmap] at hs
            rw [← Finmap.lookup_isSome, ← hfoot s hFs, Finmap.lookup_isSome]
            exact hs
        used_drawn := hI.used_drawn
        drawn_row := hI.drawn_row
        drawn_inj := hI.drawn_inj
        pushing_inj := hI.pushing_inj
        idle := hI.idle
        agree := by
          intro t row ht hno s hs
          have hFs : ¬ F s := fun h => hno i (hF.live t s h ((hLive t s).1 hs))
          rw [hmap, Flagged, hfoot s hFs]
          exact hI.agree t row ht hno s ((hLive t s).1 hs) }
  · refine ⟨⟨List.Subset.refl _, fun s hs => .inl hs, fun _ h => .inl h, Cell.past_write _ _ _⟩,
      rfl, fun s hs => ?_, fun t ht => ⟨rfl, fun s hs => ⟨(hLive t s).1 hs, ?_⟩⟩⟩
    · exact hfoot s (fun h => hF.drawn j hj s h hs)
    · refine hfoot s (fun h => ?_)
      exact hj (hI.pushing_inj j i t ht (hF.live t s h ((hLive t s).1 hs)))

end Steps

end Keys
end TokenFoundry
