import TokenFoundry.Properties.HubAccess
import TokenFoundry.Properties.StreamRewriting

/-!
# The image backend of a hub

The administrator stores the backend of the images with `POST /api/settings`, as one JSON text.  A
request that brings no key keeps the one that is stored.  So after any run of requests the endpoint
and the model are those of the last request that has been stored, and the key is the last one that
was not blank.

The key is a secret: what the administration endpoints answer, over any run, is the same whatever
the key is, as long as there is one.
-/

set_option autoImplicit false

namespace TokenFoundry
namespace AdminApi

open Store (Db ImageConfig)
open Server (JsonModule pythonJson)

variable {K : Type} [PyFloat K]

/-! ## What is stored is read again -/

lemma textField_of_lookup (py : Runtime K) {cfg : Dict K} {key s : String}
    (h : cfg.lookup key = some (.str s)) : Store.textField py cfg key = s := by
  rw [Store.textField, Json.get, h, Option.getD_some, Json.orElse]
  by_cases hs : s = ""
  · simp [hs, Json.truthy, Json.text]
  · simp [hs, Json.truthy, Json.text]

omit [PyFloat K] in
lemma unique_document (cfg : ImageConfig) : JsonText.Unique (.dict (cfg.document : Dict K)) := by
  rw [JsonText.unique_dict_iff]
  refine ⟨by simp [ImageConfig.document], ?_⟩
  simp [ImageConfig.document, JsonText.Unique]

/-- The row of an image backend, as `json.dumps` writes it when it is given nothing but the
document. -/
def written (ft : JsonText.FloatText K) (cfg : ImageConfig) : String :=
  String.ofList (JsonText.dumps ft ⟨false, true⟩ (.dict cfg.document))

lemma readImageConfig_written (ft : JsonText.FloatText K) (py : Runtime K) (cfg : ImageConfig) :
    Store.readImageConfig (pythonJson ft) py (written ft cfg) = .ok cfg := by
  have hloads : (pythonJson ft).loads (written ft cfg).toList = .value (.dict cfg.document) := by
    rw [written, String.toList_ofList]
    exact Server.pythonJson_loads (JsonText.loads_dumps ft ⟨false, true⟩ (unique_document cfg))
  have hne : written ft cfg ≠ "" := by
    intro hempty
    have hnothing : (pythonJson ft).loads "".toList = .invalid := rfl
    rw [hempty, hnothing] at hloads
    cases hloads
  rw [Store.readImageConfig, if_neg hne, hloads]
  have hendpoint : (cfg.document : Dict K).lookup "endpoint" = some (.str cfg.endpoint) := rfl
  have hkey : (cfg.document : Dict K).lookup "api_key" = some (.str cfg.apiKey) := by
    simp [ImageConfig.document, List.lookup_cons]
  have hmodel : (cfg.document : Dict K).lookup "model" = some (.str cfg.model) := by
    simp [ImageConfig.document, List.lookup_cons]
  dsimp only
  rw [textField_of_lookup py hendpoint, textField_of_lookup py hkey, textField_of_lookup py hmodel]

lemma getImageConfig_congr {json : JsonModule K} {py : Runtime K} {db db' : Db K}
    (h : Store.getSetting Store.imageConfigKey db' = Store.getSetting Store.imageConfigKey db) :
    Store.getImageConfig json py db' = Store.getImageConfig json py db := by
  rw [Store.getImageConfig, h]
  rfl

/-! ## One request -/

/-- The three texts of an image backend, if they are texts. -/
def requestedConfig (img : Dict K) : Except CopilotClient.Fault ImageConfig := do
  let newKey ← Store.stripped (Json.get img "api_key")
  let endpoint ← Store.stripped (Json.get img "endpoint")
  let model ← Store.stripped (Json.get img "model")
  return ⟨endpoint, newKey, model⟩

/-- A request that brings no key keeps the one that is stored. -/
def ImageConfig.update (current asked : ImageConfig) : ImageConfig :=
  { asked with apiKey := if asked.apiKey = "" then current.apiKey else asked.apiKey }

lemma setImageConfig_eq (ft : JsonText.FloatText K) (py : Runtime K) (img : Dict K) {db : Db K}
    {current : ImageConfig} (h : Store.getImageConfig (pythonJson ft) py db = .ok current) :
    Store.setImageConfig (pythonJson ft) py (Json.get img "endpoint") (Json.get img "api_key")
        (Json.get img "model") db =
      (requestedConfig img).map (fun asked =>
        Store.setSetting Store.imageConfigKey
          (written ft (ImageConfig.update current asked)) db) := by
  unfold Store.setImageConfig requestedConfig
  rw [h]
  cases Store.stripped (Json.get img "api_key") with
  | error f => rfl
  | ok newKey =>
      cases Store.stripped (Json.get img "endpoint") with
      | error f => rfl
      | ok endpoint =>
          cases Store.stripped (Json.get img "model") with
          | error f => rfl
          | ok model => rfl

/-- The image backend for which a body asks, if it asks for one; a text that is none is refused. -/
def askedIn (d : Dict K) : Except Refusal (Option ImageConfig) :=
  match d.lookup "image" with
  | some (.dict img) => (orRaise (requestedConfig img)).map some
  | _ => .ok none

/-- The image backend that a body brings into the store. -/
def requestedBackend : Json K → Option ImageConfig
  | .dict d => (askedIn d).toOption.join
  | _ => none

/-- The image backend that a request asks to store; `none` where it does not ask, or where its
sender is not the admin. -/
def requestedImage (s : Settings) (r : Request K) : Option ImageConfig :=
  if checkAdmin s r.adminToken then
    match r.call with
    | .setSettings (some body) => requestedBackend body
    | _ => none
  else none

omit [PyFloat K] in
lemma member_other {body : Json K} (h : ∀ d, body ≠ .dict d) (key : String) :
    member key body = .ok none ∨ ∃ e, member key body = .error e := by
  cases body with
  | dict d => exact absurd rfl (h d)
  | str text =>
      rw [member]
      split_ifs
      · exact .inr ⟨_, rfl⟩
      · exact .inl rfl
  | list xs =>
      rw [member]
      split_ifs
      · exact .inr ⟨_, rfl⟩
      · exact .inl rfl
  | _ => exact .inr ⟨_, rfl⟩

/-- A body that is no dictionary changes nothing: neither part of the request gets as far as a
write. -/
lemma apiSetSettings_other (json : JsonModule K) (py : Runtime K) (s : Settings) {body : Json K}
    (h : ∀ d, body ≠ .dict d) (db : Db K) : (apiSetSettings json py s body db).2 = db := by
  have hauth : applyRequireAuth body db = .ok db ∨ ∃ e, applyRequireAuth body db = .error e := by
    unfold applyRequireAuth
    rcases member_other h "require_auth" with hm | ⟨e, hm⟩
    · exact .inl (by rw [hm])
    · exact .inr ⟨e, by rw [hm]⟩
  have himage :
      applyImage json py body db = .ok db ∨ ∃ e, applyImage json py body db = .error e := by
    unfold applyImage
    rcases member_other h "image" with hm | ⟨e, hm⟩
    · exact .inl (by rw [hm])
    · exact .inr ⟨e, by rw [hm]⟩
  rcases hauth with hauth | ⟨e, hauth⟩
  · rcases himage with himage | ⟨e, himage⟩
    · simp only [apiSetSettings, hauth, himage]
    · simp only [apiSetSettings, hauth, himage]
  · simp only [apiSetSettings, hauth]

lemma getSetting_afterAuth {key : String} (h : key ≠ Store.requireAuthKey) (body : Json K)
    (db : Db K) : Store.getSetting key (afterAuth body db) = Store.getSetting key db := by
  unfold afterAuth
  cases requestedIn body with
  | none => rfl
  | some enabled => exact Store.getSetting_setSetting_of_ne h _ db

lemma applyRequireAuth_dict (d : Dict K) (db : Db K) :
    applyRequireAuth (.dict d) db = .ok (afterAuth (.dict d) db) := by
  unfold applyRequireAuth afterAuth
  rw [member, requestedIn]
  cases d.lookup "require_auth" <;> rfl

/-- The store with a new image backend. -/
def stored (ft : JsonText.FloatText K) (current : ImageConfig) (db : Db K)
    (asked : Option ImageConfig) : Db K :=
  asked.elim db (fun asked =>
    Store.setSetting Store.imageConfigKey (written ft (ImageConfig.update current asked)) db)

/-- The second part of a request to `/api/settings`: what the body asks for is merged with the row
that is there, and the result is written back. -/
lemma applyImage_dict (ft : JsonText.FloatText K) (py : Runtime K) (d : Dict K) {db : Db K}
    {current : ImageConfig} (h : Store.getImageConfig (pythonJson ft) py db = .ok current) :
    applyImage (pythonJson ft) py (.dict d) db = (askedIn d).map (stored ft current db) := by
  cases hlookup : d.lookup "image" with
  | none => simp [applyImage, member, askedIn, hlookup, Except.map, stored]
  | some v =>
      cases v with
      | dict img =>
          simp only [applyImage, member, askedIn, hlookup]
          rw [setImageConfig_eq ft py img h]
          cases requestedConfig img <;> rfl
      | _ => simp [applyImage, member, askedIn, hlookup, Except.map, stored]

lemma getImageConfig_setSetting (ft : JsonText.FloatText K) (py : Runtime K) (cfg : ImageConfig)
    (db : Db K) : Store.getImageConfig (pythonJson ft) py
      (Store.setSetting Store.imageConfigKey (written ft cfg) db) = .ok cfg := by
  rw [Store.getImageConfig, Store.getSetting_setSetting]
  exact readImageConfig_written ft py cfg

lemma getImageConfig_stored (ft : JsonText.FloatText K) {py : Runtime K} {db : Db K}
    {current : ImageConfig} (h : Store.getImageConfig (pythonJson ft) py db = .ok current)
    (asked : Option ImageConfig) :
    Store.getImageConfig (pythonJson ft) py (stored ft current db asked) =
      .ok (asked.elim current (ImageConfig.update current)) := by
  cases asked with
  | none => exact h
  | some asked => exact getImageConfig_setSetting ft py _ db

lemma getImageConfig_afterAuth (json : JsonModule K) (py : Runtime K) (body : Json K) (db : Db K) :
    Store.getImageConfig json py (afterAuth body db) = Store.getImageConfig json py db :=
  getImageConfig_congr (getSetting_afterAuth (by decide) body db)

/-- What one request does to the image backend: it applies its update, if it has one, and every
other request leaves the row as it is. -/
lemma getImageConfig_serve (ft : JsonText.FloatText K) (py : Runtime K) (s : Settings) {db : Db K}
    (r : Request K) {current : ImageConfig}
    (h : Store.getImageConfig (pythonJson ft) py db = .ok current) :
    Store.getImageConfig (pythonJson ft) py (serve (pythonJson ft) py s db r).2 =
      .ok ((requestedImage s r).elim current (ImageConfig.update current)) := by
  unfold serve requestedImage
  split_ifs with hadmin
  · cases hcall : r.call with
    | getSettings => exact h
    | listKeys => exact h
    | revokeKey key => exact h
    | createKey body token now =>
        cases body with
        | none => exact h
        | some body =>
            refine Eq.trans (getImageConfig_congr ?_) h
            exact congrFun (kv_apiKeysCreate token now body db) _
    | setSettings body =>
        cases body with
        | none => exact h
        | some body =>
            by_cases hdict : ∃ d, body = .dict d
            · obtain ⟨d, rfl⟩ := hdict
              rw [handle]
              dsimp only
              have hafter := (getImageConfig_afterAuth (pythonJson ft) py (.dict d) db).trans h
              simp only [apiSetSettings, applyRequireAuth_dict, applyImage_dict ft py d hafter,
                requestedBackend]
              cases askedIn d with
              | error e => exact hafter
              | ok asked => exact getImageConfig_stored ft hafter asked
            · have hother : ∀ d, body ≠ .dict d := fun d hd => hdict ⟨d, hd⟩
              have hnone : requestedBackend body = none := by
                cases body with
                | dict d => exact absurd rfl (hother d)
                | _ => rfl
              rw [handle, apiSetSettings_other (pythonJson ft) py s hother db]
              dsimp only
              rw [hnone]
              exact h
  · exact h

lemma getImageConfig_runStore (ft : JsonText.FloatText K) (py : Runtime K) (s : Settings)
    {db : Db K} (requests : List (Request K)) {current : ImageConfig}
    (h : Store.getImageConfig (pythonJson ft) py db = .ok current) :
    Store.getImageConfig (pythonJson ft) py (runStore (pythonJson ft) py s db requests) =
      .ok ((requests.filterMap (requestedImage s)).foldl ImageConfig.update current) := by
  induction requests generalizing db current with
  | nil => exact h
  | cons r requests ih =>
      rw [runStore, List.foldl_cons]
      refine (ih (getImageConfig_serve ft py s r h)).trans ?_
      rw [List.filterMap_cons]
      cases requestedImage s r <;> rfl

/-! ## Any run -/

lemma getLast?_cons_getD {α : Type} (a default : α) (items : List α) :
    ((a :: items).getLast?).getD default = (items.getLast?).getD a := by
  rw [List.getLast?_cons, Option.getD_some]

/-- What is kept of the requested backends: the last endpoint and the last model, and the last key
that is not blank. -/
lemma foldl_update (asked : List ImageConfig) (current : ImageConfig) :
    asked.foldl ImageConfig.update current =
      ⟨((asked.map ImageConfig.endpoint).getLast?).getD current.endpoint,
        (((asked.map ImageConfig.apiKey).filter (fun k => decide (k ≠ ""))).getLast?).getD
          current.apiKey,
        ((asked.map ImageConfig.model).getLast?).getD current.model⟩ := by
  induction asked generalizing current with
  | nil => rfl
  | cons a asked ih =>
      rw [List.foldl_cons, ih, List.map_cons, List.map_cons, List.map_cons, getLast?_cons_getD,
        getLast?_cons_getD, List.filter_cons]
      by_cases hkey : a.apiKey = ""
      · simp [ImageConfig.update, hkey]
      · simp only [ne_eq, hkey, not_false_eq_true, decide_true, if_true]
        rw [getLast?_cons_getD]
        simp [ImageConfig.update, hkey]

/-- **The image backend after any run of requests** has the endpoint and the model of the last
request that was stored, and the last key that was not blank. -/
theorem imageConfig_after_run (ft : JsonText.FloatText K) (py : Runtime K) (s : Settings)
    {db : Db K} (requests : List (Request K)) {current : ImageConfig}
    (h : Store.getImageConfig (pythonJson ft) py db = .ok current) :
    let asked := requests.filterMap (requestedImage s)
    Store.getImageConfig (pythonJson ft) py (runStore (pythonJson ft) py s db requests) =
      .ok ⟨((asked.map ImageConfig.endpoint).getLast?).getD current.endpoint,
        (((asked.map ImageConfig.apiKey).filter (fun k => decide (k ≠ ""))).getLast?).getD
          current.apiKey,
        ((asked.map ImageConfig.model).getLast?).getD current.model⟩ := by
  rw [getImageConfig_runStore ft py s requests h, foldl_update]

def adminRequest (img : Dict ℚ) : Request ℚ :=
  ⟨some "admin", .setSettings (some (.dict [("image", .dict img)]))⟩

/-- The second request brings no key, so that the key of the first is kept. -/
theorem imageConfig_after_two :
    Store.getImageConfig (pythonJson JsonText.FloatText.fractions) Runtime.strict
      (runStore (pythonJson JsonText.FloatText.fractions) Runtime.strict
        ⟨true, "", "admin"⟩ Db.empty
        [adminRequest [("endpoint", .str "https://a"), ("api_key", .str " secret ")],
          adminRequest [("endpoint", .str "https://b"), ("model", .str "m")]]) =
      .ok ⟨"https://b", "secret", "m"⟩ :=
  (imageConfig_after_run JsonText.FloatText.fractions Runtime.strict ⟨true, "", "admin"⟩ _
    (show Store.getImageConfig _ _ Db.empty = .ok .blank from rfl)).trans (by decide)

/-! ## The key is not told -/

/-- Two stores differ at most in the key of their image backends, which both have or both have
not. -/
structure SameButKey (ft : JsonText.FloatText K) (py : Runtime K) (db db' : Db K) : Prop where
  apiKeys : db'.apiKeys = db.apiKeys
  others : ∀ key, key ≠ Store.imageConfigKey → Store.getSetting key db' = Store.getSetting key db
  image : ∃ c c', Store.getImageConfig (pythonJson ft) py db = .ok c ∧
    Store.getImageConfig (pythonJson ft) py db' = .ok c' ∧ c'.endpoint = c.endpoint ∧
    c'.model = c.model ∧ (c'.apiKey = "" ↔ c.apiKey = "")

namespace SameButKey

variable {ft : JsonText.FloatText K} {py : Runtime K} {db db' : Db K}

lemma getSettings_eq (h : SameButKey ft py db db') (s : Settings) :
    apiGetSettings (pythonJson ft) py s db' = apiGetSettings (pythonJson ft) py s db := by
  obtain ⟨c, c', hc, hc', hendpoint, hmodel, hkey⟩ := h.image
  have hview : settingsView (K := K) (Store.getRequireAuth s.requireAuth db) c' =
      settingsView (Store.getRequireAuth s.requireAuth db) c := by
    simp only [settingsView, ImageConfig.modelOrDefault, ImageConfig.configured, hendpoint, hmodel,
      ne_eq, hkey]
  have hauth : Store.getRequireAuth s.requireAuth db' = Store.getRequireAuth s.requireAuth db :=
    getRequireAuth_congr _ (h.others _ (by decide))
  rw [apiGetSettings, apiGetSettings, hc, hc', hauth]
  exact congrArg Except.ok hview

lemma afterAuth (h : SameButKey ft py db db') (body : Json K) :
    SameButKey ft py (AdminApi.afterAuth body db) (AdminApi.afterAuth body db') where
  apiKeys := by rw [apiKeys_afterAuth, apiKeys_afterAuth, h.apiKeys]
  others key hkey := by
    unfold AdminApi.afterAuth
    cases requestedIn body with
    | none => exact h.others key hkey
    | some enabled =>
        by_cases heq : key = Store.requireAuthKey
        · rw [heq]
          exact (Store.getSetting_setSetting _ _ db').trans
            (Store.getSetting_setSetting _ _ db).symm
        · exact (Store.getSetting_setSetting_of_ne heq _ db').trans
            ((h.others key hkey).trans (Store.getSetting_setSetting_of_ne heq _ db).symm)
  image := by
    rw [getImageConfig_afterAuth, getImageConfig_afterAuth]
    exact h.image

lemma stored (h : SameButKey ft py db db') {c c' : ImageConfig}
    (hc : Store.getImageConfig (pythonJson ft) py db = .ok c)
    (hc' : Store.getImageConfig (pythonJson ft) py db' = .ok c')
    (hkey : c'.apiKey = "" ↔ c.apiKey = "") (asked : Option ImageConfig) :
    SameButKey ft py (AdminApi.stored ft c db asked) (AdminApi.stored ft c' db' asked) where
  apiKeys := by cases asked <;> exact h.apiKeys
  others key hne := by
    cases asked with
    | none => exact h.others key hne
    | some asked =>
        exact (Store.getSetting_setSetting_of_ne hne _ db').trans
          ((h.others key hne).trans (Store.getSetting_setSetting_of_ne hne _ db).symm)
  image := by
    refine ⟨_, _, getImageConfig_stored ft hc asked, getImageConfig_stored ft hc' asked, ?_⟩
    cases asked with
    | none =>
        obtain ⟨b, b', hb, hb', hendpoint, hmodel, -⟩ := h.image
        obtain rfl : b = c := by rw [hc] at hb; cases hb; rfl
        obtain rfl : b' = c' := by rw [hc'] at hb'; cases hb'; rfl
        exact ⟨hendpoint, hmodel, hkey⟩
    | some asked =>
        refine ⟨rfl, rfl, ?_⟩
        rw [Option.elim, Option.elim, ImageConfig.update, ImageConfig.update]
        split_ifs
        · exact hkey
        · rfl

/-- A request to `/api/settings` is answered alike, and leaves stores that differ as before. -/
lemma setSettings (h : SameButKey ft py db db') (s : Settings) (body : Json K) :
    (apiSetSettings (pythonJson ft) py s body db').1 =
        (apiSetSettings (pythonJson ft) py s body db).1 ∧
      SameButKey ft py (apiSetSettings (pythonJson ft) py s body db).2
        (apiSetSettings (pythonJson ft) py s body db').2 := by
  by_cases hdict : ∃ d, body = .dict d
  · obtain ⟨d, rfl⟩ := hdict
    have hafter := h.afterAuth (.dict d)
    obtain ⟨c, c', hc, hc', -, -, hkey⟩ := hafter.image
    simp only [apiSetSettings, applyRequireAuth_dict, applyImage_dict ft py d hc,
      applyImage_dict ft py d hc']
    cases askedIn d with
    | error e => exact ⟨rfl, hafter⟩
    | ok asked =>
        have hstored := hafter.stored hc hc' hkey asked
        exact ⟨hstored.getSettings_eq s, hstored⟩
  · have hother : ∀ d, body ≠ .dict d := fun d hd => hdict ⟨d, hd⟩
    refine ⟨?_, by
      rw [apiSetSettings_other _ py s hother, apiSetSettings_other _ py s hother]
      exact h⟩
    rcases member_other hother "require_auth" with hauth | ⟨e, hauth⟩
    · rcases member_other hother "image" with himage | ⟨e, himage⟩
      · simp only [apiSetSettings, applyRequireAuth, applyImage, hauth, himage]
        exact h.getSettings_eq s
      · simp only [apiSetSettings, applyRequireAuth, applyImage, hauth, himage]
    · simp only [apiSetSettings, applyRequireAuth, hauth]

lemma createKey (h : SameButKey ft py db db') (token : String) (now : K) (body : Json K) :
    (apiKeysCreate token now body db').1 = (apiKeysCreate token now body db).1 ∧
      SameButKey ft py (apiKeysCreate token now body db).2
        (apiKeysCreate token now body db').2 := by
  cases hname : keyName body with
  | error e =>
      simp only [apiKeysCreate, hname]
      exact ⟨trivial, h⟩
  | ok name =>
      by_cases hmem : Store.newKey token ∈ db.apiKeys.map Store.ApiKey.key
      · have hmem' : Store.newKey token ∈ db'.apiKeys.map Store.ApiKey.key := by rwa [h.apiKeys]
        simp only [apiKeysCreate, hname, Store.createApiKey, hmem, hmem', dif_pos]
        exact ⟨trivial, h⟩
      · have hmem' : Store.newKey token ∉ db'.apiKeys.map Store.ApiKey.key := by rwa [h.apiKeys]
        simp only [apiKeysCreate, hname, Store.createApiKey, dif_neg hmem, dif_neg hmem']
        refine ⟨trivial, ?_, h.others, h.image⟩
        change db'.apiKeys ++ _ = db.apiKeys ++ _
        rw [h.apiKeys]

/-- One request is answered alike, and leaves stores that differ as before. -/
lemma serve (h : SameButKey ft py db db') (s : Settings) (r : Request K) :
    (AdminApi.serve (pythonJson ft) py s db' r).1 = (AdminApi.serve (pythonJson ft) py s db r).1 ∧
      SameButKey ft py (AdminApi.serve (pythonJson ft) py s db r).2
        (AdminApi.serve (pythonJson ft) py s db' r).2 := by
  unfold AdminApi.serve
  split_ifs with hadmin
  · cases r.call with
    | getSettings => exact ⟨h.getSettings_eq s, h⟩
    | setSettings body =>
        cases body with
        | none => exact ⟨rfl, h⟩
        | some body => exact h.setSettings s body
    | listKeys =>
        refine ⟨?_, h⟩
        rw [handle, handle, apiKeysList, apiKeysList, Store.listApiKeys, Store.listApiKeys,
          h.apiKeys]
    | createKey body token now =>
        cases body with
        | none => exact ⟨rfl, h⟩
        | some body => exact h.createKey token now body
    | revokeKey key =>
        refine ⟨rfl, ?_, h.others, h.image⟩
        change db'.apiKeys.map _ = db.apiKeys.map _
        rw [h.apiKeys]
  · exact ⟨rfl, h⟩

end SameButKey

/-- **The image key is not told**: over any run of requests to the administration endpoints, two
hubs whose stores differ in nothing but the key of the image backend give the same answers. -/
theorem answers_without_key (ft : JsonText.FloatText K) (py : Runtime K) (s : Settings)
    {db db' : Db K} (requests : List (Request K)) (h : SameButKey ft py db db') :
    runAnswers (pythonJson ft) py s db' requests = runAnswers (pythonJson ft) py s db requests := by
  induction requests generalizing db db' with
  | nil => rfl
  | cons r requests ih =>
      obtain ⟨hanswer, hafter⟩ := h.serve s r
      rw [runAnswers, runAnswers, hanswer, ih hafter]

/-- A store with an image backend, of which only the key varies. -/
def backendStore (key : String) : Db ℚ :=
  Store.setSetting Store.imageConfigKey
    (written JsonText.FloatText.fractions ⟨"https://a", key, ""⟩)
    Db.empty

lemma backendStore_same {key key' : String} (h : key' = "" ↔ key = "") :
    SameButKey JsonText.FloatText.fractions Runtime.strict (backendStore key)
      (backendStore key') where
  apiKeys := rfl
  others _ hk := (Store.getSetting_setSetting_of_ne hk _ Db.empty).trans
    (Store.getSetting_setSetting_of_ne hk _ Db.empty).symm
  image := ⟨⟨"https://a", key, ""⟩, ⟨"https://a", key', ""⟩,
    getImageConfig_setSetting JsonText.FloatText.fractions Runtime.strict _ Db.empty,
    getImageConfig_setSetting JsonText.FloatText.fractions Runtime.strict _ Db.empty, rfl, rfl, h⟩

theorem answers_without_key_two :
    runAnswers (pythonJson JsonText.FloatText.fractions) Runtime.strict ⟨true, "", "admin"⟩
        (backendStore "one") [adminRequest [("model", .str "m")], ⟨some "admin", .getSettings⟩] =
      runAnswers (pythonJson JsonText.FloatText.fractions) Runtime.strict ⟨true, "", "admin"⟩
        (backendStore "two") [adminRequest [("model", .str "m")], ⟨some "admin", .getSettings⟩] :=
  answers_without_key JsonText.FloatText.fractions Runtime.strict _ _
    (backendStore_same (by decide))

end AdminApi
end TokenFoundry
