import TokenFoundry.Framework.Requests
import TokenFoundry.Models.Routes
import TokenFoundry.Services.ProviderApis

/-!
# The catalog of a hub (`app/api/github_accounts.py`)

`_register_hub_catalog` reads the chat models of a hub, wires the API of every provider they need to
its pool, and then inserts the platform routes that are missing.  The inserts, the vendor labels of
older rows and the deletions of a resync are sent by the flush of one commit.  A row that the index
refuses takes the whole transaction with it; the handler rolls back and returns.

`GithubAccounts.registerHubCatalog` is what this does to the row of the account.
-/

set_option autoImplicit false

namespace TokenFoundry
namespace HubCatalog

open Pools (Provider)
open ProviderApis (apisApi)

/-! ## The catalog -/

/-- An entry of `GET /api/models`, with the fields that are read of it. -/
structure HubModel where
  id : Option String
  type : Option String

/-- The ids of the chat models; an entry without an id is left out. -/
def chatModels (rows : List HubModel) : List String :=
  rows.filterMap (fun m => match m.id, m.type with
    | some id, some "chat" => if id ≠ "" then some id else none
    | _, _ => none)

/-- `_provider_for_model`: the vendor whose protocol the hub speaks for the model, by the beginning
of its name. -/
def providerForModel (modelId : String) : Option Provider :=
  if lowerStartsWith modelId ["claude"] then some .anthropic
  else if lowerStartsWith modelId ["gpt", "o1-", "o3-", "o4-", "chatgpt", "grok", "kimi"] then
    some .openai
  else if lowerStartsWith modelId ["gemini"] then some .google
  else none

/-- `by_provider.setdefault(prov, []).append(mid)`: a new provider goes to the end. -/
def appendTo (prov : Provider) (mid : String) :
    List (Provider × List String) → List (Provider × List String)
  | [] => [(prov, [mid])]
  | (p, mids) :: rest =>
      if p = prov then (p, mids ++ [mid]) :: rest else (p, mids) :: appendTo prov mid rest

/-- `by_provider`, in the order in which the providers first appear; a model without one is left
out. -/
def byProvider (modelIds : List String) : List (Provider × List String) :=
  modelIds.foldl (fun d mid => match providerForModel mid with
    | some prov => appendTo prov mid d
    | none => d) []

/-- The models that get a route: the chat models of which the vendor is known. -/
def offered (rows : List HubModel) : List String :=
  (chatModels rows).filter (fun mid => (providerForModel mid).isSome)

lemma mem_appendTo {prov : Provider} {mid m : String} {d : List (Provider × List String)} :
    m ∈ (appendTo prov mid d).flatMap (·.2) ↔ m ∈ d.flatMap (·.2) ∨ m = mid := by
  induction d with
  | nil => simp [appendTo]
  | cons group rest ih =>
      obtain ⟨p, mids⟩ := group
      unfold appendTo
      split_ifs with hp
      · simp only [List.flatMap_cons, List.mem_append, List.mem_singleton]
        tauto
      · simp only [List.flatMap_cons, List.mem_append, ih]
        tauto

/-- The groups hold the models that have a provider, and no others. -/
lemma mem_byProvider {modelIds : List String} {m : String} :
    m ∈ (byProvider modelIds).flatMap (·.2) ↔
      m ∈ modelIds.filter (fun mid => (providerForModel mid).isSome) := by
  have hfold : ∀ d : List (Provider × List String),
      m ∈ (modelIds.foldl (fun d mid => match providerForModel mid with
        | some prov => appendTo prov mid d
        | none => d) d).flatMap (·.2) ↔
      m ∈ d.flatMap (·.2) ∨ m ∈ modelIds.filter (fun mid => (providerForModel mid).isSome) := by
    induction modelIds with
    | nil => simp
    | cons mid mids ih =>
        intro d
        rw [List.foldl_cons, ih]
        cases hprov : providerForModel mid with
        | none => simp [hprov]
        | some prov =>
            simp only [mem_appendTo, List.filter_cons, hprov, Option.isSome_some, if_true,
              List.mem_cons]
            tauto
  simpa [byProvider] using hfold []

/-! ## The session -/

/-- The calls on the database and on the hub; those on the gateway are the other half of the
interface. -/
inductive Call
  | fetchHubModels (fqdn adminToken : String)
  /-- `db.query(ModelRoute).all()`. -/
  | readRoutes
  /-- `uuid.uuid4().hex[:12]`. -/
  | newId
  /-- The `UPDATE`s of the flush: the new vendor label of each row, by its id. -/
  | updateVendors (changes : List (String × String))
  /-- One `INSERT` of the flush. -/
  | insertRoute (route : ModelRoute)
  /-- The `DELETE`s of the flush, by id. -/
  | deleteRoutes (ids : List String)
  | commit
  | rollback

@[reducible] def Call.Answer : Call → Type
  | .fetchHubModels _ _ => List HubModel
  | .readRoutes => List ModelRoute
  | .newId => String
  | _ => Unit

abbrev sessionApi : Interface PyErr := ⟨Call, Call.Answer⟩

/-- The management API and the session. -/
abbrev catalogApi : Interface PyErr := apisApi.sum sessionApi

abbrev Handler (α : Type) := Prog.Raising catalogApi α

def ask (o : Call) : Handler o.Answer := @Prog.ask _ catalogApi (.inr o)

/-! ## The registration -/

/-- The protocol that a vendor's models are routed with. -/
def protocol : Provider → Protocol
  | .openai => .openai
  | .anthropic => .anthropic
  | .google => .google

/-- The platform route of a model: it belongs to no tenant and names the pool of its vendor. -/
def platformRoute (hex : String) (prov : Provider) (poolId mid : String) : ModelRoute where
  id := "rt_" ++ hex
  tenantId := none
  name := mid
  provider := protocol prov
  vendor := vendorForModel mid
  apimBackendOrPoolId := some poolId
  deploymentName := none
  apiVersion := none
  ownerScope := .platform
  authMode := .mi

/-- The loop that wires the providers; their pool ids stand next to their models. -/
def ensurePools : List (Provider × List String) → Handler (List (Provider × String × List String))
  | [] => return []
  | (prov, mids) :: rest => do
      let poolId ← Prog.Raising.inl sessionApi (ProviderApis.ensurePooledProviderApi prov)
      let pooled ← ensurePools rest
      return (prov, poolId, mids) :: pooled

/-- The inner loop over the models of one provider: the new rows, and the names known by then. -/
def addModels (prov : Provider) (poolId : String) (existing : List String) :
    List String → Handler (List ModelRoute × List String)
  | [] => return ([], existing)
  | mid :: mids =>
      if mid ∈ existing then addModels prov poolId existing mids
      else do
        let hex ← ask .newId
        let (routes, known) ← addModels prov poolId (mid :: existing) mids
        return (platformRoute hex prov poolId mid :: routes, known)

/-- The outer loop over the providers; the names that have a route grow as it goes. -/
def addRoutes (existing : List String) :
    List (Provider × String × List String) → Handler (List ModelRoute)
  | [] => return []
  | (prov, poolId, mids) :: rest => do
      let (routes, known) ← addModels prov poolId existing mids
      let more ← addRoutes known rest
      return routes ++ more

/-- The names of the platform routes that are there already. -/
def platformNames (routes : List ModelRoute) : List String :=
  (routes.filter ModelRoute.isPlatform).map ModelRoute.name

/-- The rows without a vendor that can be given one by the name of their model. -/
def backfill (routes : List ModelRoute) : List (String × String) :=
  routes.filterMap (fun r => match r.vendor with
    | none => (vendorForModel r.name).map (fun v => (r.id, v))
    | some _ => none)

/-- The platform-scoped rows whose model the hub no longer offers, whoever has added them. -/
def retired (offered : List String) (routes : List ModelRoute) : List String :=
  (routes.filter (fun r => r.ownerScope = .platform ∧ r.name ∉ offered)).map ModelRoute.id

/-- `db.commit()`: the flush and the commit.  The changes, the new rows and the deletions go in
together. -/
def commitAll (changes : List (String × String)) (created : List ModelRoute)
    (removed : List String) : Handler Unit := do
  if changes ≠ [] then ask (.updateVendors changes)
  created.forM (fun route => ask (.insertRoute route))
  if removed ≠ [] then ask (.deleteRoutes removed)
  ask .commit

/-- `_register_hub_catalog`: the models that the hub offers get a pool for each vendor and a route
each.  A violation of the index rolls all of it back, and is not raised. -/
def registerHubCatalog (fqdn adminToken : String) (prune : Bool) : Handler Unit := do
  let rows ← ask (.fetchHubModels fqdn adminToken)
  let groups := byProvider (chatModels rows)
  if groups = [] then return ()
  let pooled ← ensurePools groups
  let allRoutes ← ask .readRoutes
  let created ← addRoutes (platformNames allRoutes) pooled
  let removed := if prune then retired (groups.flatMap (·.2)) allRoutes else []
  tryCatch (commitAll (backfill allRoutes) created removed) (fun e => match e with
    | .integrity => ask .rollback
    | e => throw e)

end HubCatalog
end TokenFoundry
