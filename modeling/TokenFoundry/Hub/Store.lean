import Mathlib.Data.List.Nodup
import Mathlib.Logic.Function.Basic
import TokenFoundry.Hub.Server

/-!
# The store of a hub (`hub/store.py`, `hub/image_client.py`)

Two tables: `kv`, which holds the settings and the image backend, and `api_keys`.  Each call opens a
connection and commits.  What `secrets` draws and what the clock says are arguments.

The image backend is one row of `kv`, as a JSON text.  The retired administrator's password is left
out; nothing asks for it any more.
-/

set_option autoImplicit false

namespace TokenFoundry
namespace Store

open CopilotClient (Text Fault)
open Server (JsonModule)

section Tables

variable {K : Type}

/-- A row of `api_keys`: a key that was issued, and whether it was revoked. -/
structure ApiKey (K : Type) where
  key : String
  name : String
  createdAt : K
  revoked : Bool

/-- The tables; the rows of `api_keys` are in the order in which they were inserted. -/
structure Db (K : Type) where
  kv : String → Option String
  apiKeys : List (ApiKey K)
  /-- `PRIMARY KEY`. -/
  unique : (apiKeys.map ApiKey.key).Nodup

/-- A store that has just been made: no settings and no keys. -/
def Db.empty : Db K := ⟨fun _ => none, [], List.nodup_nil⟩

/-! ## Settings -/

/-- `get_setting`: the text of a setting, if it was ever stored. -/
def getSetting (key : String) (db : Db K) : Option String := db.kv key

/-- `set_setting`: one setting is stored, and the others stay. -/
def setSetting (key value : String) (db : Db K) : Db K :=
  { db with kv := Function.update db.kv key (some value) }

@[simp] lemma getSetting_setSetting (key value : String) (db : Db K) :
    getSetting key (setSetting key value db) = some value := by
  simp [getSetting, setSetting]

lemma getSetting_setSetting_of_ne {key other : String} (h : key ≠ other) (value : String)
    (db : Db K) : getSetting key (setSetting other value db) = getSetting key db := by
  simp [getSetting, setSetting, h]

def requireAuthKey : String := "require_auth"

/-- `get_require_auth`: what is stored goes before the environment. -/
def getRequireAuth (default : Bool) (db : Db K) : Bool :=
  match getSetting requireAuthKey db with
  | none => default
  | some value => decide (value = "1")

/-- `set_require_auth`, as a digit. -/
def setRequireAuth (enabled : Bool) (db : Db K) : Db K :=
  setSetting requireAuthKey (if enabled then "1" else "0") db

/-! ## API keys -/

/-- `is_valid_api_key`: there is such a row, and it was not revoked. -/
def isValidApiKey (key : String) (db : Db K) : Bool :=
  db.apiKeys.any (fun row => decide (row.key = key) && ! row.revoked)

/-- `"sk-hub-" + secrets.token_urlsafe(32)`, with what was drawn. -/
def newKey (token : String) : String := "sk-hub-" ++ token

lemma unique_append {rows : List (ApiKey K)} {row : ApiKey K}
    (h : (rows.map ApiKey.key).Nodup) (hrow : row.key ∉ rows.map ApiKey.key) :
    ((rows ++ [row]).map ApiKey.key).Nodup := by
  rw [List.map_append]
  refine List.nodup_append.2 ⟨h, List.nodup_singleton _, ?_⟩
  intro a ha b hb heq
  rw [List.map_cons, List.map_nil, List.mem_singleton] at hb
  subst hb heq
  exact hrow ha

/-- `create_api_key`; `none` stands for `IntegrityError`, which a key that is there already
raises. -/
def createApiKey (token name : String) (now : K) (db : Db K) : Option (ApiKey K × Db K) :=
  let row : ApiKey K := ⟨newKey token, name, now, false⟩
  if h : row.key ∈ db.apiKeys.map ApiKey.key then none
  else some (row, ⟨db.kv, db.apiKeys ++ [row], unique_append db.unique h⟩)

/-- A row with this key is marked, and any other one stays. -/
def ApiKey.revoke (key : String) (row : ApiKey K) : ApiKey K :=
  if row.key = key then { row with revoked := true } else row

@[simp] lemma ApiKey.key_revoke (key : String) (row : ApiKey K) :
    (row.revoke key).key = row.key := by
  unfold ApiKey.revoke
  split_ifs <;> rfl

lemma unique_revoke {rows : List (ApiKey K)} (h : (rows.map ApiKey.key).Nodup) (key : String) :
    ((rows.map (ApiKey.revoke key)).map ApiKey.key).Nodup := by
  have hkeys : ApiKey.key ∘ ApiKey.revoke key = (ApiKey.key : ApiKey K → String) :=
    funext (ApiKey.key_revoke key)
  rw [List.map_map, hkeys]
  exact h

/-- `revoke_api_key`: the row stays in the table, and is marked. -/
def revokeApiKey (key : String) (db : Db K) : Db K :=
  ⟨db.kv, db.apiKeys.map (ApiKey.revoke key), unique_revoke db.unique key⟩

end Tables

section Documents

variable {K : Type} [PyFloat K]

/-- `list_api_keys`, the newest first; rows of one time stay in their order. -/
def listApiKeys (db : Db K) : List (ApiKey K) :=
  db.apiKeys.mergeSort (fun a b => PyFloat.le b.createdAt a.createdAt)

/-! ## The image backend -/

/-- The settings of the image backend. -/
structure ImageConfig where
  endpoint : String
  apiKey : String
  model : String
  deriving DecidableEq

def ImageConfig.blank : ImageConfig := ⟨"", "", ""⟩

def imageConfigKey : String := "image_config"

/-- `str(cfg.get(key) or "")`: a field that is missing is empty. -/
def textField (py : Runtime K) (cfg : Dict K) (key : String) : String :=
  ((Json.get cfg key).orElse (.str "")).text py

/-- What is read out of the row; a document that is none counts as blank. -/
def readImageConfig (json : JsonModule K) (py : Runtime K) (raw : String) :
    Except Fault ImageConfig :=
  if raw = "" then .ok .blank
  else match json.loads raw.toList with
    | .value (.dict cfg) =>
        .ok ⟨textField py cfg "endpoint", textField py cfg "api_key", textField py cfg "model"⟩
    | .value _ => .ok .blank
    | .invalid => .ok .blank
    | .raises (.failure .value) => .ok .blank
    | .raises (.failure .type) => .ok .blank
    | .raises f => .error f

/-- `get_image_config`: what is stored, or empty fields where nothing is. -/
def getImageConfig (json : JsonModule K) (py : Runtime K) (db : Db K) : Except Fault ImageConfig :=
  match getSetting imageConfigKey db with
  | none => .ok .blank
  | some raw => readImageConfig json py raw

/-- `(v or "").strip()`: what is neither false nor a text raises. -/
def stripped (v : Json K) : Except Fault String :=
  match v.orElse (.str "") with
  | .str s => .ok (String.ofList (Server.strip s.toList))
  | _ => .error (.failure .attribute)

/-- The document in which the settings are stored. -/
def ImageConfig.document (cfg : ImageConfig) : Dict K :=
  [("endpoint", .str cfg.endpoint), ("api_key", .str cfg.apiKey), ("model", .str cfg.model)]

/-- `set_image_config`: the fields are replaced, but an empty key leaves the one that is stored. -/
def setImageConfig (json : JsonModule K) (py : Runtime K) (endpoint apiKey model : Json K)
    (db : Db K) : Except Fault (Db K) := do
  let current ← getImageConfig json py db
  let newKey ← stripped apiKey
  let endpoint ← stripped endpoint
  let model ← stripped model
  let cfg : ImageConfig := ⟨endpoint, if newKey = "" then current.apiKey else newKey, model⟩
  let raw ← json.dumps false (.dict cfg.document)
  return setSetting imageConfigKey (String.ofList raw) db

/-- `is_configured`, for what has been read: there is an address and a key. -/
def ImageConfig.configured (cfg : ImageConfig) : Bool :=
  decide (cfg.endpoint ≠ "") && decide (cfg.apiKey ≠ "")

/-- `DEFAULT_IMAGE_MODEL`, which stands for an empty field. -/
def defaultImageModel : String := "gpt-image-2"

/-- `get_model`, for what has been read: the stored model, or the default. -/
def ImageConfig.modelOrDefault (cfg : ImageConfig) : String :=
  if cfg.model = "" then defaultImageModel else cfg.model

end Documents

end Store
end TokenFoundry
