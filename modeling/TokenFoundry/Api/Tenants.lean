import TokenFoundry.Api.Keys
import TokenFoundry.Framework.Requests

/-!
# Tenants (`app/api/tenants.py`)

`update_tenant` with `_apply_audit_flag`: the audit decision is pushed to the gateway for every
key of the tenant, and recorded in the tenant row afterwards.

`create_tenant` and `delete_tenant` need a few calls of their own (`LifeCall`), next to those
they share with the requests on keys.
-/

set_option autoImplicit false

namespace TokenFoundry
namespace Keys

open KeyLimits

/-- `TenantUpdate`: absent fields are left alone. -/
structure TenantUpdate where
  name : Option String
  mode : Option TenantMode
  auditEnabled : Option Bool

/-- The column is written when the assigned value differs from the loaded one. -/
def assigned {α : Type} [DecidableEq α] (loaded : α) (new : Option α) : Option α :=
  new.filter (fun v => v ≠ loaded)

/-- `_apply_audit_flag`: the flag is set for the subscriptions that the tenant's keys have at this
moment; a failure is raised as one of the gateway. -/
def applyAuditFlag (tenant : Tenant) (enabled : Bool) : Handler Unit := do
  let subIds ← ask (.listSubscriptions tenant.id)
  tryCatch (setAuditFlag client subIds enabled)
    (fun exc =>
      throw (.http 502 ("failed to apply audit flag at the gateway: " ++ exc.text)))

/-- `update_tenant`: where the audit flag changes, it is applied at the gateway before the row is
written. -/
def updateTenant (tenantId : String) (body : TenantUpdate) : Handler Tenant := do
  match ← ask (.getTenant tenantId) with
  | none => throw (.http 404 "tenant not found")
  | some tenant =>
      match assigned tenant.auditEnabled body.auditEnabled with
      | none => pure ()
      | some enabled => applyAuditFlag tenant enabled
      ask (.commitTenant tenantId
        { name := assigned tenant.name body.name
          mode := assigned tenant.mode body.mode
          auditEnabled := assigned tenant.auditEnabled body.auditEnabled })
      ask (.refreshTenant tenantId)

/-! ## The life of a tenant -/

/-- `TenantCreate`: a new tenant, whose product at the gateway is made with it. -/
structure TenantCreate where
  name : String
  mode : TenantMode
  billingAccountId : Option String

/-- The calls that only creation and deletion make; the others they share with the requests on
keys. -/
inductive LifeCall
  /-- `uuid.uuid4().hex[:12]`. -/
  | newId
  /-- `ApimProvisioner.ensure_product_for_tenant`. -/
  | ensureProduct (tenantId : String)
  /-- `db.add(tenant); db.commit()`. -/
  | insertTenant (tenant : Tenant) (billingAccountId : Option String)
  /-- How many keys the tenant's projects have. -/
  | countKeys (tenantId : String)
  /-- `db.delete(tenant); db.commit()`. -/
  | deleteTenant (id : String)

@[reducible] def LifeCall.Answer : LifeCall → Type
  | .newId => String
  | .ensureProduct _ => String
  | .countKeys _ => ℕ
  | _ => Unit

abbrev lifeApi : Interface PyErr := ⟨LifeCall, LifeCall.Answer⟩

abbrev tenantsApi : Interface PyErr := keysApi.sum lifeApi

/-- A request handler of the tenant router. -/
abbrev TenantHandler (α : Type) := Prog.Raising tenantsApi α

def askKeys (o : Call) : TenantHandler o.Answer := @Prog.ask _ tenantsApi (.inl o)

def askLife (o : LifeCall) : TenantHandler o.Answer := @Prog.ask _ tenantsApi (.inr o)

/-- `create_tenant`: a tenant is created without a product when the gateway is unavailable. -/
def createTenant (body : TenantCreate) : TenantHandler Tenant := do
  let tenantId := "tn_" ++ (← askLife .newId)
  let productIds ← tryCatch (do
      let productId ← askLife (.ensureProduct tenantId)
      return [productId])
    (fun _ => return [])
  askLife (.insertTenant
    { id := tenantId
      name := body.name
      mode := body.mode
      apimProductIds := productIds
      auditEnabled := false }
    body.billingAccountId)
  askKeys (.refreshTenant tenantId)

/-- `delete_tenant`: refuses while there are keys, and looks at nothing else that refers to the
tenant. -/
def deleteTenant (tenantId : String) : TenantHandler Unit := do
  match ← askKeys (.getTenant tenantId) with
  | none => throw (.http 404 "tenant not found")
  | some _ =>
      let live ← askLife (.countKeys tenantId)
      if live ≠ 0 then
        throw (.http 409 ("tenant has " ++ toString live ++ " key(s); delete those first"))
      askLife (.deleteTenant tenantId)

end Keys
end TokenFoundry
