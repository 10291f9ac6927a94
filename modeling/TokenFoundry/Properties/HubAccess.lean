import TokenFoundry.Framework.Credentials
import TokenFoundry.Framework.Outcomes
import TokenFoundry.Hub.AdminApi

/-!
# Whom a hub admits

The keys of a hub are credentials in the sense of `Framework/Credentials.lean`: a request of the
administrator that creates one issues it, one that deletes it revokes it, and no other request
touches it.  With that, the answer of `_check_client_auth` after any run of requests is read off the
requests: a caller is admitted under the first key it presents that is the hub's own, or that has
been issued and not been revoked since.  A key that was revoked never comes back, as the primary key
keeps a second row of it out.

An image backend that cannot be stored ends a request with an error; whether keys are required has
then already been committed.
-/

set_option autoImplicit false

namespace TokenFoundry
namespace AdminApi

open Store (Db)
open Server (JsonModule)
open Credentials (Registry Event Status)

section Status

variable {K : Type}

/-! ## The status of a key -/

def rowStatus (row : Store.ApiKey K) : Status := if row.revoked then .revoked else .live

def findRow (key : String) (db : Db K) : Option (Store.ApiKey K) :=
  db.apiKeys.find? (fun row => decide (row.key = key))

def status (db : Db K) : Registry String :=
  fun key => ((findRow key db).map rowStatus).getD .unknown

lemma status_congr {db db' : Db K} (h : db'.apiKeys = db.apiKeys) : status db' = status db := by
  funext key
  rw [status, findRow, h]
  rfl

lemma status_empty (key : String) : status (Db.empty : Db K) key = .unknown := rfl

lemma isValidApiKey_iff (key : String) (db : Db K) :
    Store.isValidApiKey key db = true ↔ status db key = .live := by
  unfold status
  cases hfind : findRow key db with
  | none =>
      have hnone : ∀ row ∈ db.apiKeys, row.key ≠ key := by simpa [findRow] using hfind
      have hvalid : Store.isValidApiKey key db = false := by
        rw [Store.isValidApiKey, List.any_eq_false]
        intro row hrow
        simp [hnone row hrow]
      simp [hvalid]
  | some row =>
      have hmem : row ∈ db.apiKeys := List.mem_of_find?_eq_some hfind
      have hkey : row.key = key := by simpa using List.find?_some hfind
      -- The primary key makes the row that is found the only one of its key.
      have honly : ∀ other ∈ db.apiKeys, other.key = key → other = row := fun other hother h =>
        List.inj_on_of_nodup_map db.unique hother hmem (h.trans hkey.symm)
      have hvalid : Store.isValidApiKey key db = true ↔ row.revoked = false := by
        rw [Store.isValidApiKey, List.any_eq_true]
        constructor
        · rintro ⟨other, hother, h⟩
          rw [Bool.and_eq_true, decide_eq_true_iff] at h
          rw [honly other hother h.1] at h
          simpa using h.2
        · exact fun h => ⟨row, hmem, by simp [hkey, h]⟩
      rw [hvalid, Option.map_some, Option.getD_some, rowStatus]
      cases row.revoked <;> simp

lemma status_of_mem {db : Db K} {key : String} (h : key ∈ db.apiKeys.map Store.ApiKey.key) :
    status db key ≠ .unknown := by
  obtain ⟨row, hrow, rfl⟩ := List.mem_map.1 h
  have hfind : (findRow row.key db).isSome = true := by
    rw [findRow, List.find?_isSome]
    exact ⟨row, hrow, by simp⟩
  obtain ⟨found, hfound⟩ := Option.isSome_iff_exists.1 hfind
  rw [status, hfound, Option.map_some, Option.getD_some, rowStatus]
  split_ifs <;> simp

lemma status_of_not_mem {db : Db K} {key : String} (h : key ∉ db.apiKeys.map Store.ApiKey.key) :
    status db key = .unknown := by
  have hfind : findRow key db = none := by
    rw [findRow, List.find?_eq_none]
    intro row hrow heq
    exact h (List.mem_map.2 ⟨row, hrow, by simpa using heq⟩)
  rw [status, hfind]
  rfl

/-- A key that is known already is not issued again. -/
lemma status_createApiKey_none {token name : String} {now : K} {db : Db K}
    (h : Store.createApiKey token name now db = none) :
    Credentials.step (status db) (.issue (Store.newKey token)) = status db := by
  have hmem : Store.newKey token ∈ db.apiKeys.map Store.ApiKey.key := by
    by_contra hmem
    simp [Store.createApiKey, hmem] at h
  have hissued : (status db (Store.newKey token)).issued = status db (Store.newKey token) := by
    cases hs : status db (Store.newKey token) with
    | unknown => exact absurd hs (status_of_mem hmem)
    | live => rfl
    | revoked => rfl
  rw [Credentials.step, hissued, Function.update_eq_self]

lemma status_createApiKey {token name : String} {now : K} {db db' : Db K} {row : Store.ApiKey K}
    (h : Store.createApiKey token name now db = some (row, db')) :
    status db' = Credentials.step (status db) (.issue (Store.newKey token)) := by
  by_cases hmem : Store.newKey token ∈ db.apiKeys.map Store.ApiKey.key
  · simp [Store.createApiKey, hmem] at h
  rw [Store.createApiKey, dif_neg hmem] at h
  cases h
  funext key
  rw [Credentials.step, status_of_not_mem hmem]
  by_cases hkey : key = Store.newKey token
  · have hnone : ∀ row ∈ db.apiKeys, row.key ≠ Store.newKey token :=
      fun row hrow heq => hmem (List.mem_map.2 ⟨row, hrow, heq⟩)
    have hfind : db.apiKeys.find? (fun row => decide (row.key = Store.newKey token)) = none := by
      simpa using hnone
    rw [hkey, Function.update_self, status, findRow, List.find?_append, hfind]
    simp [rowStatus, Status.issued]
  · rw [Function.update_of_ne hkey, status, status, findRow, findRow, List.find?_append]
    simp [Ne.symm hkey]

lemma status_revokeApiKey (key : String) (db : Db K) :
    status (Store.revokeApiKey key db) = Credentials.step (status db) (.revoke key) := by
  funext k
  have hfind : findRow k (Store.revokeApiKey key db) =
      (findRow k db).map (Store.ApiKey.revoke key) := by
    rw [findRow, Store.revokeApiKey, List.find?_map]
    simp only [Function.comp_def, Store.ApiKey.key_revoke]
    rfl
  rw [status, hfind, Option.map_map, Credentials.step]
  by_cases hkey : k = key
  · subst hkey
    rw [Function.update_self, status]
    cases hrow : findRow k db with
    | none => rfl
    | some row =>
        have hrowkey : row.key = k := by simpa using List.find?_some hrow
        have hrevoked : (row.revoke k).revoked = true := by rw [Store.ApiKey.revoke, if_pos hrowkey]
        rw [Option.map_some, Option.map_some, Option.getD_some, Option.getD_some,
          Function.comp_apply, rowStatus, if_pos hrevoked, rowStatus]
        split_ifs <;> rfl
  · rw [Function.update_of_ne hkey, status]
    cases hrow : findRow k db with
    | none => rfl
    | some row =>
        have hrowkey : row.key = k := by simpa using List.find?_some hrow
        have hne : row.key ≠ key := hrowkey ▸ hkey
        rw [Option.map_some, Option.map_some, Function.comp_apply, Store.ApiKey.revoke, if_neg hne]

end Status

section Requests

variable {K : Type} [PyFloat K]

/-! ## What a request does -/

/-- What a request does to the keys of the hub: an admin issues a key or revokes one, every other
request leaves them alone. -/
def eventOf (s : Settings) (r : Request K) : Option (Event String) :=
  if checkAdmin s r.adminToken then
    match r.call with
    | .createKey (some body) token _ =>
        if (keyName body).isOk then some (.issue (Store.newKey token)) else none
    | .revokeKey key => some (.revoke key)
    | _ => none
  else none

def requestedIn : Json K → Option Bool
  | .dict d => (d.lookup "require_auth").map Json.truthy
  | _ => none

/-- What a request says about whether keys are required; `none` where it does not ask, or where its
sender is not the admin. -/
def requestedAuth (s : Settings) (r : Request K) : Option Bool :=
  if checkAdmin s r.adminToken then
    match r.call with
    | .setSettings (some body) => requestedIn body
    | _ => none
  else none

def afterAuth (body : Json K) (db : Db K) : Db K :=
  (requestedIn body).elim db (fun enabled => Store.setRequireAuth enabled db)

/-- The first part of a request to `/api/settings` is done, unless it asks for nothing. -/
lemma applyRequireAuth_cases (body : Json K) (db : Db K) :
    applyRequireAuth body db = .ok (afterAuth body db) ∨
      ∃ e, applyRequireAuth body db = .error e ∧ requestedIn body = none := by
  unfold applyRequireAuth afterAuth
  cases body with
  | dict d =>
      left
      rw [member, requestedIn]
      cases d.lookup "require_auth" <;> rfl
  | str text =>
      rw [member]
      split_ifs
      · exact .inr ⟨_, rfl, rfl⟩
      · exact .inl rfl
  | list xs =>
      rw [member]
      split_ifs
      · exact .inr ⟨_, rfl, rfl⟩
      · exact .inl rfl
  | _ => exact .inr ⟨_, rfl, rfl⟩

lemma setImageConfig_store {json : JsonModule K} {py : Runtime K} {endpoint apiKey model : Json K}
    {db db' : Db K} (h : Store.setImageConfig json py endpoint apiKey model db = .ok db') :
    ∃ raw, db' = Store.setSetting Store.imageConfigKey raw db := by
  unfold Store.setImageConfig at h
  obtain ⟨current, -, h⟩ := Outcomes.bind_eq_ok.1 h
  obtain ⟨newKey, -, h⟩ := Outcomes.bind_eq_ok.1 h
  obtain ⟨e, -, h⟩ := Outcomes.bind_eq_ok.1 h
  obtain ⟨m, -, h⟩ := Outcomes.bind_eq_ok.1 h
  obtain ⟨raw, -, h⟩ := Outcomes.bind_eq_ok.1 h
  cases h
  exact ⟨_, rfl⟩

lemma applyImage_store {json : JsonModule K} {py : Runtime K} {body : Json K} {db db' : Db K}
    (h : applyImage json py body db = .ok db') :
    db' = db ∨ ∃ raw, db' = Store.setSetting Store.imageConfigKey raw db := by
  unfold applyImage at h
  split at h
  · cases h
  · next img _ =>
      unfold orRaise at h
      cases hset : Store.setImageConfig json py (Json.get img "endpoint") (Json.get img "api_key")
          (Json.get img "model") db with
      | error f => rw [hset] at h; cases h
      | ok db'' =>
          rw [hset] at h
          cases h
          exact .inr (setImageConfig_store hset)
  · cases h
    exact .inl rfl

/-- What a request to `/api/settings` leaves: the switch is written first, and the image backend
after it or not at all. -/
lemma apiSetSettings_store (json : JsonModule K) (py : Runtime K) (s : Settings) (body : Json K)
    (db : Db K) :
    (apiSetSettings json py s body db).2 = afterAuth body db ∨
      ∃ raw, (apiSetSettings json py s body db).2 =
        Store.setSetting Store.imageConfigKey raw (afterAuth body db) := by
  rcases applyRequireAuth_cases body db with hauth | ⟨e, hauth, hnone⟩
  · cases himage : applyImage json py body (afterAuth body db) with
    | error e =>
        left
        simp only [apiSetSettings, hauth, himage]
    | ok db' =>
        simp only [apiSetSettings, hauth, himage]
        exact applyImage_store himage
  · left
    simp only [apiSetSettings, hauth, afterAuth, hnone, Option.elim]

lemma apiKeys_afterAuth (body : Json K) (db : Db K) : (afterAuth body db).apiKeys = db.apiKeys := by
  unfold afterAuth
  cases requestedIn body <;> rfl

omit [PyFloat K] in
lemma kv_createApiKey {token name : String} {now : K} {db db' : Db K} {row : Store.ApiKey K}
    (h : Store.createApiKey token name now db = some (row, db')) : db'.kv = db.kv := by
  by_cases hmem : Store.newKey token ∈ db.apiKeys.map Store.ApiKey.key
  · simp [Store.createApiKey, hmem] at h
  · rw [Store.createApiKey, dif_neg hmem] at h
    cases h
    rfl

lemma kv_apiKeysCreate (token : String) (now : K) (body : Json K) (db : Db K) :
    (apiKeysCreate token now body db).2.kv = db.kv := by
  cases hname : keyName body with
  | error e => simp only [apiKeysCreate, hname]
  | ok name =>
      cases hcreate : Store.createApiKey token name now db with
      | none => simp only [apiKeysCreate, hname, hcreate]
      | some r =>
          simp only [apiKeysCreate, hname, hcreate]
          exact kv_createApiKey hcreate

/-- **The hub's keys are credentials**: one request does to them what its event says. -/
lemma status_serve (json : JsonModule K) (py : Runtime K) (s : Settings) (db : Db K)
    (r : Request K) :
    status (serve json py s db r).2 = Credentials.run (eventOf s r).toList (status db) := by
  unfold serve eventOf
  split_ifs with hadmin
  · cases hcall : r.call with
    | getSettings => rfl
    | listKeys => rfl
    | revokeKey key => exact status_revokeApiKey key db
    | setSettings body =>
        cases body with
        | none => rfl
        | some body =>
            rcases apiSetSettings_store json py s body db with h | ⟨raw, h⟩
            · exact status_congr (by rw [handle, h, apiKeys_afterAuth])
            · exact status_congr (by rw [handle, h]; exact apiKeys_afterAuth body db)
    | createKey body token now =>
        cases body with
        | none => rfl
        | some body =>
            cases hname : keyName body with
            | error e => simp [handle, apiKeysCreate, hname, Except.isOk, Except.toBool]
            | ok name =>
                cases hcreate : Store.createApiKey token name now db with
                | none =>
                    simpa [handle, apiKeysCreate, hname, hcreate, Except.isOk, Except.toBool] using
                      (status_createApiKey_none hcreate).symm
                | some r =>
                    simpa [handle, apiKeysCreate, hname, hcreate, Except.isOk, Except.toBool] using
                      status_createApiKey hcreate
  · rfl

theorem status_runStore (json : JsonModule K) (py : Runtime K) (s : Settings) (db : Db K)
    (requests : List (Request K)) :
    status (runStore json py s db requests) =
      Credentials.run (requests.filterMap (eventOf s)) (status db) := by
  induction requests generalizing db with
  | nil => rfl
  | cons r requests ih =>
      rw [runStore, List.foldl_cons]
      refine (ih (serve json py s db r).2).trans ?_
      rw [status_serve, List.filterMap_cons]
      cases eventOf s r <;> rfl

/-! ## Whether keys are required -/

omit [PyFloat K] in
lemma getRequireAuth_setRequireAuth (default enabled : Bool) (db : Db K) :
    Store.getRequireAuth default (Store.setRequireAuth enabled db) = enabled := by
  unfold Store.getRequireAuth Store.setRequireAuth
  rw [Store.getSetting_setSetting]
  cases enabled <;> rfl

omit [PyFloat K] in
lemma getRequireAuth_congr {db db' : Db K} (default : Bool)
    (h : Store.getSetting Store.requireAuthKey db' = Store.getSetting Store.requireAuthKey db) :
    Store.getRequireAuth default db' = Store.getRequireAuth default db := by
  rw [Store.getRequireAuth, h]
  rfl

lemma getRequireAuth_afterAuth (default : Bool) (body : Json K) (db : Db K) :
    Store.getRequireAuth default (afterAuth body db) =
      (requestedIn body).getD (Store.getRequireAuth default db) := by
  unfold afterAuth
  cases requestedIn body with
  | none => rfl
  | some enabled => exact getRequireAuth_setRequireAuth default enabled db

lemma getRequireAuth_serve (json : JsonModule K) (py : Runtime K) (s : Settings) (default : Bool)
    (db : Db K) (r : Request K) :
    Store.getRequireAuth default (serve json py s db r).2 =
      (requestedAuth s r).getD (Store.getRequireAuth default db) := by
  unfold serve requestedAuth
  split_ifs with hadmin
  · cases hcall : r.call with
    | getSettings => rfl
    | listKeys => rfl
    | revokeKey key => rfl
    | setSettings body =>
        cases body with
        | none => rfl
        | some body =>
            have hkv : Store.requireAuthKey ≠ Store.imageConfigKey := by decide
            refine Eq.trans ?_ (getRequireAuth_afterAuth default body db)
            rcases apiSetSettings_store json py s body db with h | ⟨raw, h⟩
            · rw [handle, h]
            · rw [handle, h]
              exact getRequireAuth_congr default (Store.getSetting_setSetting_of_ne hkv raw _)
    | createKey body token now =>
        cases body with
        | none => rfl
        | some body =>
            exact getRequireAuth_congr default (congrFun (kv_apiKeysCreate token now body db) _)
  · rfl

/-- Whether keys are required after a run: what the last request has said that has said
something. -/
def required (s : Settings) (requests : List (Request K)) : Bool :=
  ((requests.filterMap (requestedAuth s)).getLast?).getD s.requireAuth

lemma getRequireAuth_runStore (json : JsonModule K) (py : Runtime K) (s : Settings)
    (default : Bool) (db : Db K) (requests : List (Request K)) :
    Store.getRequireAuth default (runStore json py s db requests) =
      ((requests.filterMap (requestedAuth s)).getLast?).getD (Store.getRequireAuth default db) := by
  induction requests generalizing db with
  | nil => rfl
  | cons r requests ih =>
      rw [runStore, List.foldl_cons]
      refine (ih (serve json py s db r).2).trans ?_
      rw [getRequireAuth_serve, List.filterMap_cons]
      cases requestedAuth s r with
      | none => rfl
      | some enabled =>
          rw [List.getLast?_cons]
          cases (requests.filterMap (requestedAuth s)).getLast? <;> rfl

/-! ## Who is admitted -/

/-- A key can be compared with the hub's own.  The comparison of Python's `hmac` raises for text
that is not ASCII, on either side. -/
def Comparable (s : Settings) (key : String) : Prop :=
  s.hubApiKey = "" ∨ isAscii key = true ∧ isAscii s.hubApiKey = true

/-- A key is the hub's own, or has been issued and not been revoked since. -/
def Entitled (s : Settings) (requests : List (Request K)) (key : String) : Prop :=
  (s.hubApiKey ≠ "" ∧ key = s.hubApiKey) ∨
    ∃ before after, requests.filterMap (eventOf s) = before ++ .issue key :: after ∧
      .issue key ∉ before ∧ .revoke key ∉ after

omit [PyFloat K] in
lemma isHubKey_ok (s : Settings) (key : String) :
    isHubKey s key = .ok (decide (s.hubApiKey ≠ "" ∧ key = s.hubApiKey)) ∧ Comparable s key ∨
      isHubKey s key = .error .raised ∧ ¬ Comparable s key := by
  unfold isHubKey Comparable
  by_cases hempty : s.hubApiKey = ""
  · simp [hempty]
  · by_cases hascii : isAscii key = true ∧ isAscii s.hubApiKey = true
    · simp [hempty, hascii]
    · right
      simp only [hempty, if_false, Bool.and_eq_true, hascii, false_or, not_false_eq_true, and_true]

/-- The hub's own key, or one of its store.  An empty key of the environment stands for none. -/
def Accepted (s : Settings) (db : Db K) (key : String) : Prop :=
  (s.hubApiKey ≠ "" ∧ key = s.hubApiKey) ∨ Store.isValidApiKey key db = true

/-- The first of a list with `Q`, where those before it have `P`. -/
def FirstIn {α : Type} (P Q : α → Prop) (items : List α) (a : α) : Prop :=
  ∃ before after, items = before ++ a :: after ∧ (∀ b ∈ before, P b) ∧ Q a

omit [PyFloat K] in
lemma firstIn_cons {α : Type} {P Q : α → Prop} {b a : α} {items : List α} :
    FirstIn P Q (b :: items) a ↔ (b = a ∧ Q a) ∨ (P b ∧ FirstIn P Q items a) := by
  constructor
  · rintro ⟨before, after, heq, hbefore, ha⟩
    cases before with
    | nil => exact .inl ⟨(List.cons.inj heq).1, ha⟩
    | cons b' before =>
        obtain ⟨rfl, rfl⟩ := List.cons.inj heq
        obtain ⟨hb, hbefore⟩ := List.forall_mem_cons.1 hbefore
        exact .inr ⟨hb, before, after, rfl, hbefore, ha⟩
  · rintro (⟨rfl, ha⟩ | ⟨hb, before, after, rfl, hbefore, ha⟩)
    · exact ⟨[], items, rfl, by simp, ha⟩
    · exact ⟨b :: before, after, rfl, List.forall_mem_cons.2 ⟨hb, hbefore⟩, ha⟩

omit [PyFloat K] in
/-- The loop ends at the first key that is accepted, unless a key cannot be compared. -/
lemma firstValid_iff (s : Settings) (db : Db K) (keys : List String) (key : String) :
    firstValid s db keys = .ok key ↔
      FirstIn (fun k => Comparable s k ∧ ¬ Accepted s db k)
        (fun k => Comparable s k ∧ Accepted s db k) keys key := by
  induction keys with
  | nil => simp [firstValid, FirstIn]
  | cons k keys ih =>
      rw [firstIn_cons, ← ih]
      rcases isHubKey_ok s k with ⟨hk, hcomparable⟩ | ⟨hk, hnot⟩
      · have hstep : firstValid s db (k :: keys) =
            if decide (s.hubApiKey ≠ "" ∧ k = s.hubApiKey) || Store.isValidApiKey k db then .ok k
            else firstValid s db keys := by
          rw [firstValid, hk]
          rfl
        have haccepted : (decide (s.hubApiKey ≠ "" ∧ k = s.hubApiKey) ||
            Store.isValidApiKey k db) = true ↔ Accepted s db k := by simp [Accepted]
        rw [hstep]
        split_ifs with h
        · simp only [Except.ok.injEq]
          constructor
          · rintro rfl
            exact .inl ⟨rfl, hcomparable, haccepted.1 h⟩
          · rintro (⟨rfl, -⟩ | ⟨⟨-, hnot⟩, -⟩)
            · rfl
            · exact absurd (haccepted.1 h) hnot
        · constructor
          · exact fun hfirst => .inr ⟨⟨hcomparable, fun ha => h (haccepted.2 ha)⟩, hfirst⟩
          · rintro (⟨rfl, -, ha⟩ | ⟨-, hfirst⟩)
            · exact absurd (haccepted.2 ha) h
            · exact hfirst
      · have hstep : firstValid s db (k :: keys) = .error .raised := by
          rw [firstValid, hk]
          rfl
        rw [hstep]
        constructor
        · exact fun h => (nomatch h)
        · rintro (⟨rfl, hcomparable, -⟩ | ⟨⟨hcomparable, -⟩, -⟩)
          · exact absurd hcomparable hnot
          · exact absurd hcomparable hnot

/-- After a run from a store that has just been made, the keys that are accepted are those to which
somebody is entitled. -/
lemma accepted_iff (json : JsonModule K) (py : Runtime K) (s : Settings)
    (requests : List (Request K)) (key : String) :
    Accepted s (runStore json py s Db.empty requests) key ↔ Entitled s requests key := by
  rw [Accepted, Entitled, isValidApiKey_iff, status_runStore,
    Credentials.run_unknown (status_empty key)]

/-- **Who is admitted**: after every run of requests to a hub that has just been started, a caller
is admitted under the first key it presents that is the hub's own or that has been issued and not
been revoked since; where no key is required, everybody is.  No key is tried after one that cannot
be compared. -/
theorem admitted_iff (json : JsonModule K) (py : Runtime K) (s : Settings)
    (requests : List (Request K)) (h : Headers) (who : Option String) :
    checkClientAuth s (runStore json py s Db.empty requests) h = .ok who ↔
      if required s requests = true then
        ∃ key, who = some key ∧
          FirstIn (fun k => Comparable s k ∧ ¬ Entitled s requests k)
            (fun k => Comparable s k ∧ Entitled s requests k) (clientKeyCandidates h) key
      else who = (clientKeyCandidates h).head? := by
  have hrequired : Store.getRequireAuth s.requireAuth (runStore json py s Db.empty requests) =
      required s requests := getRequireAuth_runStore json py s s.requireAuth Db.empty requests
  have hfirst : ∀ key, firstValid s (runStore json py s Db.empty requests)
      (clientKeyCandidates h) = .ok key ↔
        FirstIn (fun k => Comparable s k ∧ ¬ Entitled s requests k)
          (fun k => Comparable s k ∧ Entitled s requests k) (clientKeyCandidates h) key := by
    intro key
    rw [firstValid_iff]
    simp only [accepted_iff]
  unfold checkClientAuth
  rw [hrequired]
  cases required s requests with
  | false =>
      rw [Bool.not_false, if_pos rfl, if_neg Bool.false_ne_true, Except.ok.injEq]
      exact eq_comm
  | true =>
      simp only [Bool.not_true, Bool.false_eq_true, if_false, if_true, ← hfirst]
      cases firstValid s (runStore json py s Db.empty requests) (clientKeyCandidates h) with
      | error e => simp
      | ok key => simp [eq_comm]

/-- **A revoked key never comes back**: whatever is asked before an issued key is revoked and after,
the key is not valid, and a caller that has to show one is not admitted under it, unless it is the
hub's own. -/
theorem revoked_refused (json : JsonModule K) (py : Runtime K) (s : Settings)
    (before after : List (Request K)) (r : Request K) (key : String)
    (hissued : .issue key ∈ before.filterMap (eventOf s))
    (hrevoke : eventOf s r = some (.revoke key)) :
    let db := runStore json py s Db.empty (before ++ r :: after)
    Store.isValidApiKey key db = false ∧
      (key ≠ s.hubApiKey → required s (before ++ r :: after) = true →
        ∀ h, checkClientAuth s db h ≠ .ok (some key)) := by
  have hstatus : status (runStore json py s Db.empty (before ++ r :: after)) key = .revoked := by
    rw [status_runStore, List.filterMap_append, List.filterMap_cons, hrevoke]
    exact Credentials.run_issue_revoke hissued
  have hnot : ¬ Store.isValidApiKey key
      (runStore json py s Db.empty (before ++ r :: after)) = true := by
    rw [isValidApiKey_iff, hstatus]
    exact fun h => (nomatch h)
  refine ⟨Bool.not_eq_true _ ▸ hnot, fun hown hrequired h hadmitted => ?_⟩
  rw [admitted_iff, if_pos hrequired] at hadmitted
  obtain ⟨key', hkey, _, _, _, _, _, hentitled⟩ := hadmitted
  cases hkey
  rw [← accepted_iff json py] at hentitled
  rcases hentitled with ⟨-, heq⟩ | hvalid
  · exact hown heq
  · exact hnot hvalid

theorem revoked_refused_ci :
    let db := runStore (K := ℚ) ⟨fun _ => .invalid, fun _ _ => .ok []⟩ Runtime.strict
      ⟨false, "", "admin"⟩ Db.empty
      ([⟨some "admin", .createKey (some (.dict [("name", .str "ci")])) "abc" 0⟩] ++
        ⟨some "admin", .revokeKey "sk-hub-abc"⟩ ::
          [⟨some "admin", .setSettings (some (.dict [("require_auth", .bool true)]))⟩,
            ⟨some "admin", .createKey (some (.dict [])) "abc" 1⟩])
    Store.isValidApiKey "sk-hub-abc" db = false ∧
      ∀ h, checkClientAuth ⟨false, "", "admin"⟩ db h ≠ .ok (some "sk-hub-abc") := by
  obtain ⟨hvalid, hrefused⟩ := revoked_refused (K := ℚ) ⟨fun _ => .invalid, fun _ _ => .ok []⟩
    Runtime.strict ⟨false, "", "admin"⟩
    [⟨some "admin", .createKey (some (.dict [("name", .str "ci")])) "abc" 0⟩]
    [⟨some "admin", .setSettings (some (.dict [("require_auth", .bool true)]))⟩,
      ⟨some "admin", .createKey (some (.dict [])) "abc" 1⟩]
    ⟨some "admin", .revokeKey "sk-hub-abc"⟩ "sk-hub-abc" (by decide) (by decide)
  exact ⟨hvalid, hrefused (by decide) (by decide)⟩

end Requests

end AdminApi
end TokenFoundry
