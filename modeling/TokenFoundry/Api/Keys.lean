import TokenFoundry.Services.KeyLimits
import TokenFoundry.Models.Schemas

/-!
# Virtual keys (`app/api/keys.py`)

The requests on virtual keys as programs of their external calls: the metadata database, the
gateway (subscriptions and the shared named value) and the secret vault.  The tenant requests of
`app/api/tenants.py` use the same services and share this interface.

Every request runs inside `get_db`, whose `finally` closes the session as the last call.
-/

set_option autoImplicit false

namespace TokenFoundry
namespace Keys

open KeyLimits

/-! ## Tables -/

/-- A row of `tenants`, with the products that its keys subscribe to and its audit flag. -/
structure Tenant where
  id : String
  name : String
  mode : TenantMode
  apimProductIds : List String
  auditEnabled : Bool
  deriving DecidableEq

/-- A row of `projects`, between a tenant and its keys. -/
structure Project where
  id : String
  tenantId : String
  name : String
  deriving DecidableEq

/-- A row of `virtual_keys`: what the control plane knows of a key, its subscription, secret and
limits. -/
structure VirtualKey where
  id : String
  projectId : String
  apimSubscriptionId : Option String
  keyvaultRef : Option String
  tokensPerMinute : Option ℤ
  tokenQuotaTier : Option TokenQuotaTier
  tokenQuotaPeriod : Option TokenQuotaPeriod
  status : KeyStatus
  deriving DecidableEq

/-- The subscription id, where it is truthy; a key may have none. -/
def VirtualKey.subscription (vk : VirtualKey) : Option String :=
  vk.apimSubscriptionId.filter (fun s => s ≠ "")

/-- The columns of a tenant that a commit writes; the others stay. -/
structure TenantChanges where
  name : Option String
  mode : Option TenantMode
  auditEnabled : Option Bool

/-! ## External calls -/

/-- The calls of the requests on keys and tenants: on the database, the gateway and the vault. -/
inductive Call
  | getProject (id : String)
  | getTenant (id : String)
  | getKey (id : String)
  /-- The subscription ids of a tenant's keys (the join in `_apply_audit_flag`). -/
  | listSubscriptions (tenantId : String)
  | insertKey (vk : VirtualKey)
  | commitKeyStatus (id : String) (status : KeyStatus)
  | deleteKey (id : String)
  | refreshKey (id : String)
  | commitTenant (id : String) (changes : TenantChanges)
  | refreshTenant (id : String)
  /-- `db.close()`. -/
  | close
  /-- `uuid.uuid4().hex[:12]`. -/
  | newId
  /-- `subscription.create_or_update` of an active subscription. -/
  | createSubscription (id displayName : String)
  /-- The primary key of `subscription.list_secrets`. -/
  | subscriptionSecret (id : String)
  /-- `subscription.get`. -/
  | getSubscription (id : String)
  | setSubscriptionState (id state : String)
  | deleteSubscription (id : String)
  | setSecret (name value : String)
  | deleteSecret (name : String)
  | getNamedValue
  | putNamedValue (mapping : LimitsMap) (ifMatch : IfMatch)

@[reducible] def Call.Answer : Call → Type
  | .getProject _ => Option Project
  | .getTenant _ => Option Tenant
  | .getKey _ => Option VirtualKey
  | .listSubscriptions _ => List String
  | .refreshKey _ => VirtualKey
  | .refreshTenant _ => Tenant
  | .newId => String
  | .subscriptionSecret _ => Option String
  | .setSecret _ _ => String
  | .getNamedValue => NamedValue
  | _ => Unit

abbrev keysApi : Interface PyErr := ⟨Call, Call.Answer⟩

abbrev Handler (α : Type) := Prog.Raising keysApi α

def ask (o : Call) : Handler o.Answer := @Prog.ask _ keysApi o

def client : NamedValueClient keysApi where
  get := ask .getNamedValue
  put m im := ask (.putNamedValue m im)

/-! ## The provisioner and the vault -/

/-- `ApimProvisioner.create_subscription`: the subscription is put and its key is asked for, in two
calls. -/
def createSubscription (subscriptionId displayName : String) : Handler String := do
  ask (.createSubscription subscriptionId displayName)
  let primaryKey ← ask (.subscriptionSecret subscriptionId)
  return primaryKey.getD ""

/-- `ApimProvisioner.delete_subscription`: a missing subscription counts as deleted. -/
def deleteSubscription (subscriptionId : String) : Handler Unit :=
  tryCatch (ask (.deleteSubscription subscriptionId))
    (fun e => match e with
      | .resourceNotFound => return ()
      | e => throw e)

/-- `ApimProvisioner.set_subscription_state`: a missing subscription is left alone. -/
def setSubscriptionState (subscriptionId state : String) : Handler Unit := do
  let found ← tryCatch (do
      ask (.getSubscription subscriptionId)
      return true)
    (fun e => match e with
      | .resourceNotFound => return false
      | e => throw e)
  if found then
    ask (.setSubscriptionState subscriptionId state)

/-- `KeyVaultService.subscription_key_name`: the secret that holds the value of a key. -/
def subscriptionKeyName (virtualKeyId : String) : String :=
  String.ofList (virtualKeyId.toList.map (fun c => if c = '_' then '-' else c))

/-- `except Exception: pass`: a call that may fail without ending the request. -/
def swallow (p : Handler Unit) : Handler Unit := tryCatch p (fun _ => return ())

/-- `get_db`: the session is closed whatever happens. -/
def withDb {α : Type} (p : Handler α) : Handler α := Prog.Raising.tryFinally p (ask .close)

/-! ## The requests -/

/-- Steps 1 to 3 of `create_key`: subscription, secret, limits and inherited audit flag. -/
def publishLimits (keyId : String) (body : VirtualKeyCreate) (auditEnabled : Bool) :
    Handler Unit :=
  tryCatch (do
      upsertKeyLimits client keyId body.tokensPerMinute
        (body.tokenQuotaTier.map TokenQuotaTier.value)
        (body.tokenQuotaPeriod.map TokenQuotaPeriod.value)
      if auditEnabled then
        setAuditFlag client [keyId] true)
    (fun exc => do
      swallow (deleteSubscription keyId)
      swallow (ask (.deleteSecret (subscriptionKeyName keyId)))
      throw (.http 502 ("failed to apply key limits: " ++ exc.text)))

/-- `create_key`; returns the row and the key's value.  The subscription comes first, then the
secret, the limits and the audit flag, and the row last. -/
def createKey (body : VirtualKeyCreate) : Handler (VirtualKey × String) := do
  match ← ask (.getProject body.projectId) with
  | none => throw (.http 404 "project not found")
  | some project =>
      match ← ask (.getTenant project.tenantId) with
      | none => throw (.http 409 "tenant has no APIM product provisioned")
      | some tenant =>
          if tenant.apimProductIds = [] then
            throw (.http 409 "tenant has no APIM product provisioned")
          let hex ← ask .newId
          let keyId := "vk_" ++ hex
          let keyValue ← createSubscription keyId
            (tenant.name ++ "/" ++ project.name ++ "/" ++ keyId)
          let kvRef ← ask (.setSecret (subscriptionKeyName keyId) keyValue)
          publishLimits keyId body tenant.auditEnabled
          let vk : VirtualKey :=
            { id := keyId
              projectId := project.id
              apimSubscriptionId := some keyId
              keyvaultRef := some kvRef
              tokensPerMinute := body.tokensPerMinute
              tokenQuotaTier := body.tokenQuotaTier
              tokenQuotaPeriod := body.tokenQuotaPeriod
              status := .active }
          ask (.insertKey vk)
          let row ← ask (.refreshKey keyId)
          return (row, keyValue)

/-- `suspend_key`: the subscription is switched off before the row says so. -/
def suspendKey (keyId : String) : Handler VirtualKey := do
  match ← ask (.getKey keyId) with
  | none => throw (.http 404 "key not found")
  | some vk =>
      match vk.subscription with
      | none => pure ()
      | some s => setSubscriptionState s "suspended"
      ask (.commitKeyStatus keyId .suspended)
      ask (.refreshKey keyId)

/-- `delete_key`: best effort on the cloud side, then the row, which goes in any case. -/
def deleteKey (keyId : String) : Handler Unit := do
  match ← ask (.getKey keyId) with
  | none => throw (.http 404 "key not found")
  | some vk =>
      match vk.subscription with
      | none => pure ()
      | some s =>
          swallow (deleteSubscription s)
          swallow (removeKeyLimits client s)
      swallow (ask (.deleteSecret (subscriptionKeyName keyId)))
      ask (.deleteKey keyId)

end Keys
end TokenFoundry
