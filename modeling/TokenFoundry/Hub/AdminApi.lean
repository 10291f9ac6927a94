import TokenFoundry.Hub.Store

/-!
# Who may call a hub, and who decides it (`hub/server.py`)

`_check_client_auth` guards the endpoints under `/v1`, `_check_admin` those under `/api`.  The
control plane changes the settings and the keys through the latter.

A handler runs without a pause once it has the body of its request, so that a run of handlers is a
list of requests.  An exception leaves behind what the handler has committed before.  No session is
ever opened, and only the configured token admits an administrator.
-/

set_option autoImplicit false

namespace TokenFoundry
namespace AdminApi

open CopilotClient (Text Fault)
open Server (JsonModule)
open Store (Db ImageConfig)

/-- `request.headers.get`, under names in small letters. -/
abbrev Headers := String → Option String

/-- The settings of the environment that are used here; the store may have others in their place. -/
structure Settings where
  requireAuth : Bool
  hubApiKey : String
  adminToken : String

/-- What keeps a handler from answering, as far as the client can see it. -/
inductive Refusal
  /-- `HTTPException`. -/
  | http (status : ℕ) (detail : String)
  /-- An exception that the framework answers with 500. -/
  | raised
  deriving DecidableEq

/-! ## `_check_client_auth` -/

def bearer : Text := ['b', 'e', 'a', 'r', 'e', 'r', ' ']

/-- The token of an `Authorization` header; the scheme may be written in letters of either case. -/
def bearerToken (auth : Text) : Text :=
  if (auth.take bearer.length).map Char.toLower = bearer then
    Server.strip (auth.drop bearer.length)
  else []

/-- `_client_key_candidates`: the keys of the two headers, without white space and without empty
ones. -/
def clientKeyCandidates (h : Headers) : List String :=
  let xkey := Server.strip ((h "x-api-key").getD "").toList
  let token := bearerToken ((h "authorization").getD "").toList
  ([xkey, token].filter (fun t => ! t.isEmpty)).map String.ofList

/-- `_extract_client_key`: the first of the candidates. -/
def extractClientKey (h : Headers) : Option String := (clientKeyCandidates h).head?

/-- The texts that the comparison in constant time takes; another one makes it raise. -/
def isAscii (s : String) : Bool := s.toList.all (fun c => decide (c.toNat < 128))

/-- `bool(s.hub_api_key) and secrets.compare_digest(key, s.hub_api_key)`; texts that are not ASCII
cannot be compared. -/
def isHubKey (s : Settings) (key : String) : Except Refusal Bool :=
  if s.hubApiKey = "" then .ok false
  else if isAscii key && isAscii s.hubApiKey then .ok (decide (key = s.hubApiKey))
  else .error .raised

/-- `for key in keys`: the first key that is that of the environment, or is one of the store's and
not revoked. -/
def firstValid {K : Type} (s : Settings) (db : Db K) : List String → Except Refusal String
  | [] => .error (.http 401 "Invalid or missing API key")
  | key :: keys => do
      let envOk ← isHubKey s key
      if envOk || Store.isValidApiKey key db then return key else firstValid s db keys

/-- `_check_client_auth`: where keys are required, one of the candidates has to be valid; otherwise
any request is admitted. -/
def checkClientAuth {K : Type} (s : Settings) (db : Db K) (h : Headers) :
    Except Refusal (Option String) :=
  let keys := clientKeyCandidates h
  if ! Store.getRequireAuth s.requireAuth db then .ok keys.head?
  else some <$> firstValid s db keys

section Endpoints

variable {K : Type} [PyFloat K]

/-! ## The endpoints under `/api` -/

/-- `_check_admin`: the header has the token of the environment; without such a token nobody is
admitted. -/
def checkAdmin (s : Settings) (adminToken : Option String) : Bool :=
  decide (s.adminToken ≠ "") && decide (adminToken.getD "" = s.adminToken)

/-- What an operation of the language raises is not caught, and the framework answers with 500. -/
def orRaise {ε α : Type} (x : Except ε α) : Except Refusal α := x.mapError (fun _ => .raised)

/-- `body[key]`, if `key in body`.  A list and a text can hold the key, but have no such item. -/
def member (key : String) : Json K → Except Refusal (Option (Json K))
  | .dict d => .ok (d.lookup key)
  | .list xs => if xs.any (fun x => Server.isText x key) then .error .raised else .ok none
  | .str s => if (Splitting.findSep key.toList s.toList).isSome then .error .raised else .ok none
  | _ => .error .raised

/-- `"require_auth"` in a request to `/api/settings`: where it is given, it is stored. -/
def applyRequireAuth (body : Json K) (db : Db K) : Except Refusal (Db K) :=
  match member "require_auth" body with
  | .error e => .error e
  | .ok none => .ok db
  | .ok (some v) => .ok (Store.setRequireAuth v.truthy db)

/-- `"image"` in a request to `/api/settings`: where it is a dictionary, its fields are stored. -/
def applyImage (json : JsonModule K) (py : Runtime K) (body : Json K) (db : Db K) :
    Except Refusal (Db K) :=
  match member "image" body with
  | .error e => .error e
  | .ok (some (.dict img)) =>
      orRaise (Store.setImageConfig json py (Json.get img "endpoint") (Json.get img "api_key")
        (Json.get img "model") db)
  | .ok _ => .ok db

/-- What the two endpoints of `/api/settings` answer; the key of the image backend is not among
it. -/
def settingsView (requireAuth : Bool) (img : ImageConfig) : Json K :=
  .dict [("require_auth", .bool requireAuth), ("image", .dict
    [("endpoint", .str img.endpoint), ("model", .str img.modelOrDefault),
      ("configured", .bool img.configured)])]

/-- `api_get_settings`: the settings as they stand in the store or, where it has none, in the
environment. -/
def apiGetSettings (json : JsonModule K) (py : Runtime K) (s : Settings) (db : Db K) :
    Except Refusal (Json K) := do
  let img ← orRaise (Store.getImageConfig json py db)
  return settingsView (Store.getRequireAuth s.requireAuth db) img

/-- `api_set_settings`: the two parts are committed one after the other, so that the first one stays
where the second raises. -/
def apiSetSettings (json : JsonModule K) (py : Runtime K) (s : Settings) (body : Json K)
    (db : Db K) : Except Refusal (Json K) × Db K :=
  match applyRequireAuth body db with
  | .error e => (.error e, db)
  | .ok db' =>
      match applyImage json py body db' with
      | .error e => (.error e, db')
      | .ok db'' => (apiGetSettings json py s db'', db'')

/-- A row of the keys as the list shows it, with the key in clear. -/
def rowView (row : Store.ApiKey K) : Json K :=
  .dict [("key", .str row.key), ("name", .str row.name), ("created_at", .float row.createdAt),
    ("revoked", .int (if row.revoked then 1 else 0))]

/-- `api_keys_list`: all rows, with those that were revoked. -/
def apiKeysList (db : Db K) : Json K :=
  .dict [("data", .list ((Store.listApiKeys db).map rowView))]

/-- `(body.get("name") or "unnamed").strip()`: a name that is no text raises. -/
def keyName (body : Json K) : Except Refusal String := do
  let d ← orRaise body.asDict
  match (Json.get d "name").orElse (.str "unnamed") with
  | .str name => return String.ofList (Server.strip name.toList)
  | _ => throw .raised

/-- `api_keys_create`: a key is drawn and stored; it is shown in the answer. -/
def apiKeysCreate (token : String) (now : K) (body : Json K) (db : Db K) :
    Except Refusal (Json K) × Db K :=
  match keyName body with
  | .error e => (.error e, db)
  | .ok name =>
      match Store.createApiKey token name now db with
      | none => (.error .raised, db)
      | some (row, db') =>
          (.ok (.dict [("key", .str row.key), ("name", .str row.name),
            ("created_at", .float row.createdAt), ("revoked", .bool row.revoked)]), db')

/-- `api_keys_revoke`: the answer is the same whether or not there is such a key. -/
def apiKeysRevoke (key : String) (db : Db K) : Except Refusal (Json K) × Db K :=
  (.ok (.dict [("ok", .bool true)]), Store.revokeApiKey key db)

/-- The endpoints under `/api` that are behind the admin token. -/
inductive Call (K : Type)
  | getSettings
  /-- The body is what `request.json()` gives, if it is a document. -/
  | setSettings (body : Option (Json K))
  | listKeys
  /-- With what is drawn, and the time. -/
  | createKey (body : Option (Json K)) (token : String) (now : K)
  | revokeKey (key : String)

/-- A request to one of them, with the token it carries. -/
structure Request (K : Type) where
  /-- `x_admin_token`. -/
  adminToken : Option String
  call : Call K

/-- The handler of a call; a body that is no document raises before anything is stored. -/
def handle (json : JsonModule K) (py : Runtime K) (s : Settings) (db : Db K) :
    Call K → Except Refusal (Json K) × Db K
  | .getSettings => (apiGetSettings json py s db, db)
  | .setSettings none => (.error .raised, db)
  | .setSettings (some body) => apiSetSettings json py s body db
  | .listKeys => (.ok (apiKeysList db), db)
  | .createKey none _ _ => (.error .raised, db)
  | .createKey (some body) token now => apiKeysCreate token now body db
  | .revokeKey key => apiKeysRevoke key db

/-- A request to an endpoint under `/api`: without the token it is refused, and the store stays as
it is. -/
def serve (json : JsonModule K) (py : Runtime K) (s : Settings) (db : Db K) (r : Request K) :
    Except Refusal (Json K) × Db K :=
  if checkAdmin s r.adminToken then handle json py s db r.call
  else (.error (.http 401 "Admin login required"), db)

/-- The store after a run of requests, in their order. -/
def runStore (json : JsonModule K) (py : Runtime K) (s : Settings) (db : Db K)
    (requests : List (Request K)) : Db K :=
  requests.foldl (fun db r => (serve json py s db r).2) db

/-- What the requests of a run are answered, in their order. -/
def runAnswers (json : JsonModule K) (py : Runtime K) (s : Settings) :
    Db K → List (Request K) → List (Except Refusal (Json K))
  | _, [] => []
  | db, r :: requests =>
      (serve json py s db r).1 :: runAnswers json py s (serve json py s db r).2 requests

end Endpoints

end AdminApi
end TokenFoundry
