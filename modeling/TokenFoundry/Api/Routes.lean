import TokenFoundry.Framework.Programs
import TokenFoundry.Models.Enums
import TokenFoundry.Models.Routes

/-!
# Model routes by hand (`app/api/routes.py`, `app/models/schemas.py`)

An administrator adds a route, edits its display fields, or deletes it.  What the row belongs to is
said by the request, and the default is the platform.
-/

set_option autoImplicit false

namespace TokenFoundry
namespace RoutesApi

/-! ## Bodies -/

/-- `ModelRouteCreate`: a route of the operator's, which may bring its own backend. -/
structure ModelRouteCreate where
  name : String
  provider : Protocol
  tenantId : Option String := none
  deploymentName : Option String := none
  apiVersion : Option String := none
  backendUrl : Option String := none
  ownerScope : OwnerScope := .platform
  authMode : AuthMode := .mi
  backendSecret : Option String := none

/-- `ModelRouteUpdate`: the fields that can be edited; absent ones are left alone. -/
structure ModelRouteUpdate where
  name : Option String := none
  deploymentName : Option String := none
  apiVersion : Option String := none

/-! ## External calls -/

/-- The calls of the requests on routes: on the database, the vault and the gateway. -/
inductive Call
  /-- `uuid.uuid4().hex[:12]`. -/
  | newId
  | setSecret (name value : String)
  /-- `ensure_provider_api`: the id of the backend. -/
  | ensureProviderApi (provider : Protocol) (backendUrl backendSecret : String)
  /-- `db.add` and commit. -/
  | insertRoute (route : ModelRoute)
  /-- `db.refresh`. -/
  | refreshRoute (routeId : String)
  /-- `db.get`. -/
  | getRoute (routeId : String)
  /-- The commit of edited columns. -/
  | saveRoute (route : ModelRoute)
  | deleteSecret (name : String)
  /-- `db.delete` and commit. -/
  | deleteRoute (routeId : String)

@[reducible] def Call.Answer : Call → Type
  | .newId => String
  | .ensureProviderApi .. => String
  | .getRoute _ => Option ModelRoute
  | _ => Unit

abbrev routesApi : Interface PyErr := ⟨Call, Call.Answer⟩

abbrev Handler (α : Type) := Prog.Raising routesApi α

def ask (o : Call) : Handler o.Answer := @Prog.ask _ routesApi o

/-! ## The requests -/

/-- `KeyVaultService.backend_secret_name`: the secret that holds the key of a route's backend. -/
def backendSecretName (routeId : String) : String :=
  String.ofList (("route-" ++ routeId ++ "-backend").toList.map
    (fun c => if c = '_' then '-' else c))

/-- The backend of a route that brings its own: the secret first, and then the API with it. -/
def wireBackend (routeId : String) (body : ModelRouteCreate) : Handler (Option String) :=
  match body.backendUrl.filter (· ≠ ""), body.backendSecret.filter (· ≠ "") with
  | some url, some secret => do
      ask (.setSecret (backendSecretName routeId) secret)
      let backendId ← ask (.ensureProviderApi body.provider url secret)
      return some backendId
  | _, _ => return none

/-- The row of a request; the vendor is derived from the name. -/
def ModelRouteCreate.route (body : ModelRouteCreate) (routeId : String)
    (backendId : Option String) : ModelRoute where
  id := routeId
  tenantId := body.tenantId
  name := body.name
  provider := body.provider
  vendor := vendorForModel body.name
  apimBackendOrPoolId := backendId
  deploymentName := body.deploymentName
  apiVersion := body.apiVersion
  ownerScope := body.ownerScope
  authMode := body.authMode

/-- `add_route`: the backend is wired before the row is inserted. -/
def addRoute (body : ModelRouteCreate) : Handler ModelRoute := do
  let hex ← ask .newId
  let routeId := "rt_" ++ hex
  let backendId ← wireBackend routeId body
  ask (.insertRoute (body.route routeId backendId))
  ask (.refreshRoute routeId)
  return body.route routeId backendId

/-- The edited row: a field that is absent keeps its value, and the vendor stays as it was. -/
def ModelRouteUpdate.apply (body : ModelRouteUpdate) (route : ModelRoute) : ModelRoute :=
  { route with
    name := body.name.getD route.name
    deploymentName := body.deploymentName.orElse (fun _ => route.deploymentName)
    apiVersion := body.apiVersion.orElse (fun _ => route.apiVersion) }

/-- `update_route`: the row alone; the gateway is not told. -/
def updateRoute (routeId : String) (body : ModelRouteUpdate) : Handler ModelRoute := do
  match ← ask (.getRoute routeId) with
  | none => throw (.http 404 "route not found")
  | some route =>
      ask (.saveRoute (body.apply route))
      ask (.refreshRoute routeId)
      return body.apply route

/-- `delete_route`: the secret goes first, best effort, and then the row. -/
def deleteRoute (routeId : String) : Handler Unit := do
  match ← ask (.getRoute routeId) with
  | none => throw (.http 404 "route not found")
  | some _ =>
      tryCatch (ask (.deleteSecret (backendSecretName routeId))) (fun _ => return ())
      ask (.deleteRoute routeId)

end RoutesApi
end TokenFoundry
