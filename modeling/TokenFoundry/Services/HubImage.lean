import TokenFoundry.Framework.Programs
import TokenFoundry.Framework.PyValues
import TokenFoundry.Models.Enums

/-!
# The image of a new hub (`app/services/acr.py`, `app/services/terraform_runner.py`)

Before a hub is deployed, the repository variable that names its image is pointed at the newest
image of the registry.  Three services are asked for it: the registry (`newest_tag`), the vault
(`KeyVaultService.get_secret`) and GitHub (`GitHubRepoConfigurator.set_variable`).

Some requests to GitHub cannot be sent at all: an address that `httpx` does not read, a header that
is not ASCII, a body that has no encoding.  What is raised for them is no `httpx.HTTPError`
(`Httpx`). The same errors in the lookup are errors among others, all of which it catches.
-/

set_option autoImplicit false

namespace TokenFoundry
namespace HubImage

variable {K : Type} [PyFloat K]

/-! ## What the services answer -/

/-- An exception, as far as the code distinguishes them: those that `except` names, and the
others. -/
inductive Raised
  /-- `httpx.HTTPError`. -/
  | http
  /-- `GitHubRepoError`. -/
  | repo (message : String)
  /-- Any other one. -/
  | other (exc : PyErr)
  deriving DecidableEq

/-- A response of the registry; `none` for a body that is no JSON. -/
structure Response (K : Type) where
  status : ℕ
  body : Option (Json K)

/-- In which order tags are listed: by the time of their last update, the newest or the oldest
first. -/
inductive Orderby
  | timedesc
  | timeasc
  deriving DecidableEq

/-- The requests to the registry, to the vault and to GitHub, with what of them the answer depends
on. -/
inductive Call (K : Type)
  /-- `_arm_token`. -/
  | armToken
  | exchange (host tenant armToken : String)
  | accessToken (host repository : String) (refreshToken : Json K)
  /-- With the parameters `orderby` and `n`. -/
  | listTags (host repository : String) (orderby : Orderby) (n : ℕ) (accessToken : Json K)
  /-- `KeyVaultService().get_secret`: the value of the secret. -/
  | getSecret (name : String)
  /-- `GET` of a variable of the repository: the status. -/
  | probeVariable (base name token : String)
  /-- `PATCH` of a variable that is there, or `POST` of a new one: the status and the text. -/
  | writeVariable (base : String) (isNew : Bool) (name value token : String)

@[reducible] def Call.Answer : Call K → Type
  | .armToken => String
  | .exchange .. => Response K
  | .accessToken .. => Response K
  | .listTags .. => Response K
  | .getSecret _ => Option String
  | .probeVariable .. => ℕ
  | .writeVariable .. => ℕ × String

abbrev imageApi (K : Type) : Interface Raised := ⟨Call K, Call.Answer⟩

abbrev Task (K α : Type) := Prog.Raising (imageApi K) α

omit [PyFloat K] in
def ask (o : Call K) : Task K o.Answer := @Prog.ask _ (imageApi K) o

omit [PyFloat K] in
/-- An expression that raises where it has no value; what it raises is caught like any other
error. -/
def orRaise {α : Type} (x : Option α) : Task K α := Prog.Raising.ofOption (.other .external) x

/-! ## The registry (`acr.py`) -/

omit [PyFloat K] in
/-- `v[key]`, which raises for a key that is missing and for what is no dictionary. -/
def item (v : Json K) (key : String) : Option (Json K) :=
  match v with
  | .dict d => d.lookup key
  | _ => none

/-- `payload + "=" * (-len(payload) % 4)`: the padding that the encoding of a token leaves out. -/
def padded (payload : String) : String :=
  payload ++ String.ofList (List.replicate ((4 - payload.length % 4) % 4) '=')

/-- `_tenant_of`: the tenant in the claims of a token; `claims` is `json.loads` of
`base64.urlsafe_b64decode`. -/
def tenantOf (py : Runtime K) (claims : String → Option (Json K)) (jwt : String) :
    Option String := do
  let payload ← (jwt.splitOn ".")[1]?
  let body ← claims (padded payload)
  let tid ← item body "tid"
  return tid.text py

/-- The name of the first tag of a listing: raised, absent, or a text. -/
def firstName (py : Runtime K) (body : Json K) : Option (Option String) :=
  match body with
  | .dict d =>
      let found := (Json.get d "tags").orElse (.list [])
      if found.truthy then
        match found with
        | .list (first :: _) => (item first "name").map (fun name => some (name.text py))
        | _ => none
      else some none
  | _ => none

/-- `host` of `newest_tag`, the address of the registry. -/
def hostOf (registry : String) : String := registry ++ ".azurecr.io"

/-- The body of `newest_tag`: a token of the subscription is exchanged for one of the registry, and
that for one of the repository, with which the tags are listed. -/
def resolveTag (py : Runtime K) (claims : String → Option (Json K)) (registry repository : String) :
    Task K (Option String) := do
  let host := hostOf registry
  let arm ← ask .armToken
  let tenant ← orRaise (tenantOf py claims arm)
  let refresh ← ask (.exchange host tenant arm)
  if refresh.status ≠ 200 then return none
  else
    let refreshToken ← orRaise (refresh.body.bind (item · "refresh_token"))
    let access ← ask (.accessToken host repository refreshToken)
    if access.status ≠ 200 then return none
    else
      let accessToken ← orRaise (access.body.bind (item · "access_token"))
      let tags ← ask (.listTags host repository .timedesc 1 accessToken)
      if tags.status ≠ 200 then return none
      else orRaise (tags.body.bind (firstName py))

/-- `newest_tag`: whatever goes wrong, there is then no tag. -/
def newestTag (py : Runtime K) (claims : String → Option (Json K)) (registry repository : String) :
    Task K (Option String) :=
  tryCatch (resolveTag py claims registry repository) (fun _ => return none)

/-! ## The variable (`github_repo.py`) -/

/-- What `httpx` can put into a request; what it cannot is not sent, and raises no
`httpx.HTTPError`. -/
structure Httpx where
  /-- The addresses below this one can be read; otherwise `httpx.InvalidURL` is raised. -/
  reads : String → Bool
  /-- The text can be encoded in a body: not so, for some versions, a lone surrogate. -/
  encodes : String → Bool

/-- A header is encoded in ASCII, and a text that is not raises as the request is built. -/
def isAscii (value : String) : Bool := value.toList.all (fun c => decide (c.toNat < 128))

/-- `GitHubRepoConfigurator`: the repository, and the token it is written with. -/
structure Configurator where
  owner : String
  repo : String
  token : String

/-- `_base`, the address that the requests of the configurator begin with. -/
def Configurator.base (g : Configurator) : String :=
  "https://api.github.com/repos/" ++ g.owner ++ "/" ++ g.repo

/-- The requests without a body can be sent: their address is read, and the token is in a header. -/
def Configurator.sendable (x : Httpx) (g : Configurator) : Bool :=
  x.reads g.base && isAscii g.token

omit [PyFloat K] in
/-- A request that cannot be built raises, before anything is sent. -/
def require (built : Bool) : Task K Unit := if built then return () else throw (.other .external)

omit [PyFloat K] in
/-- The second request of `set_variable`, once it is built; the status decides whether it has
failed. -/
def writeVariable (g : Configurator) (isNew : Bool) (name value : String) : Task K Unit := do
  let answer ← ask (.writeVariable g.base isNew name value g.token)
  if answer.1 = (if isNew then 201 else 204) then return ()
  else throw (.repo ("failed to set variable " ++ name ++ " (" ++ toString answer.1 ++ "): " ++
    String.ofList (answer.2.toList.take 300)))

omit [PyFloat K] in
/-- `set_variable`: the first request asks whether the variable is there, and the second changes it
or makes it. -/
def setVariable (x : Httpx) (g : Configurator) (name value : String) : Task K Unit := do
  require (g.sendable x)
  let exists' ← ask (.probeVariable g.base name g.token)
  require (x.encodes value)
  writeVariable g (decide (exists' ≠ 200)) name value

/-! ## `_refresh_hub_image_ref` -/

/-- `get_settings()`, as far as the refresh reads it. -/
structure Settings where
  acrName : String
  hubImageTag : String
  githubRepoOwner : String
  githubRepoName : String

/-- `GitHubRepoConfigurator(s.github_repo_owner, s.github_repo_name, pat)`: the repository is that
of the settings. -/
def Settings.configurator (s : Settings) (pat : String) : Configurator :=
  ⟨s.githubRepoOwner, s.githubRepoName, pat⟩

/-- `_HUB_REPOSITORY`: the images of the hub in the registry. -/
def hubRepository : String := "gitmodel"

/-- `_BOOTSTRAP_PAT_SECRET`: the name of the token in the vault. -/
def bootstrapPatSecret : String := "github-bootstrap-pat"

/-- `except (GitHubRepoError, httpx.HTTPError)`: nothing else is caught around the write. -/
def Raised.caught : Raised → Bool
  | .http => true
  | .repo _ => true
  | .other _ => false

/-- The tag of the registry, or the one of the settings where that is missing or empty. -/
def tagOr (found : Option String) (fallback : String) : String :=
  match found with
  | none => fallback
  | some tag => if tag = "" then fallback else tag

/-- `_refresh_hub_image_ref`: the newest tag, or the one of the settings where the lookup gives
none, is written into the variable.  Without a token in the vault, nothing is written. -/
def refreshHubImageRef (py : Runtime K) (claims : String → Option (Json K)) (x : Httpx)
    (s : Settings) : Task K Unit := do
  let found ← (if s.acrName = "" then pure none
    else newestTag py claims s.acrName hubRepository : Task K (Option String))
  let tag := tagOr found s.hubImageTag
  if tag = "" then return ()
  else
    let pat ← ask (.getSecret bootstrapPatSecret)
    if pat.getD "" = "" then return ()
    else
      tryCatch (setVariable x (s.configurator (pat.getD "")) "HUB_IMAGE_REF" ("gitmodel:" ++ tag))
        (fun e => if e.caught then return () else throw e)

end HubImage
end TokenFoundry
