import TokenFoundry.Framework.Interleaving
import TokenFoundry.Models.Enums

/-!
# User management (`app/api/users.py`, `app/api/auth.py`)

The four admin requests on the `users` table, each as the program of its database calls.
Every request first decodes its bearer token; a token's claims are those of the moment it was
issued, and nothing looks the caller up again.

A commit writes the columns whose assigned value differs from the loaded one, as the session
does, so a request that read a row long ago does not write back the columns it left alone.
-/

set_option autoImplicit false

namespace TokenFoundry
namespace Users

/-- A row of the `users` table.  A customer is bound to a tenant; an admin need not be. -/
structure User where
  id : String
  username : String
  passwordHash : String
  role : UserRole
  tenantId : Option String
  disabled : Bool
  deriving DecidableEq, Repr

/-- The claims of a token, which become the request's `Principal`; they are not looked up in the
table. -/
structure Principal where
  subject : String
  role : UserRole
  tenantId : Option String
  deriving DecidableEq, Repr

/-- `UserCreate`: a new user, with the password in clear. -/
structure UserCreate where
  username : String
  password : String
  role : UserRole
  tenantId : Option String

/-- `UserUpdate`: absent fields are left alone. -/
structure UserUpdate where
  role : Option UserRole
  tenantId : Option String
  disabled : Option Bool

/-- The columns a commit writes; the others stay. -/
structure Changes where
  role : Option UserRole
  tenantId : Option (Option String)
  disabled : Option Bool
  passwordHash : Option String

/-- Write the changed columns of a row. -/
def Changes.apply (ch : Changes) (u : User) : User :=
  { u with
    role := ch.role.getD u.role
    tenantId := ch.tenantId.getD u.tenantId
    disabled := ch.disabled.getD u.disabled
    passwordHash := ch.passwordHash.getD u.passwordHash }

/-- The external calls of the user router: on tokens, passwords and the two tables. -/
inductive Call
  /-- `decode_token`: signature and expiry. -/
  | decodeToken (token : Principal)
  /-- `hash_password`, salted. -/
  | hashPassword (password : String)
  /-- `uuid.uuid4`. -/
  | newId
  /-- `db.query(User).filter(User.username == …).one_or_none()`. -/
  | findUsername (username : String)
  /-- `db.get(User, …)`. -/
  | getUser (id : String)
  /-- `db.get(Tenant, …)`. -/
  | getTenant (id : String)
  /-- `db.query(User).filter(User.role == ADMIN).count()`. -/
  | countAdmins
  /-- `db.add(user); db.commit()`. -/
  | insertUser (u : User)
  /-- `db.commit()` with dirty columns. -/
  | commitChanges (id : String) (ch : Changes)
  /-- `db.delete(user); db.commit()`. -/
  | deleteUser (id : String)
  /-- `db.refresh(user)`. -/
  | refresh (id : String)

/-- What a call answers; a `db.get` answers with the row or with nothing. -/
@[reducible] def Call.Answer : Call → Type
  | .decodeToken _ => Principal
  | .hashPassword _ => String
  | .newId => String
  | .findUsername _ => Option User
  | .getUser _ => Option User
  | .getTenant _ => Bool
  | .countAdmins => ℕ
  | .insertUser _ => Unit
  | .commitChanges _ _ => Unit
  | .deleteUser _ => Unit
  | .refresh _ => User

abbrev usersApi : Interface PyErr := ⟨Call, Call.Answer⟩

/-- A request handler of the user router. -/
abbrev Handler (α : Type) := Prog.Raising usersApi α

/-- Make one call of the interface. -/
def ask (o : Call) : Handler o.Answer := @Prog.ask _ usersApi o

/-! ## The handlers -/

/-- `require_admin` over `_decode_jwt`: the role is the token's, not the row's. -/
def requireAdmin (token : Principal) : Handler Principal := do
  let principal ← ask (.decodeToken token)
  if principal.role ≠ .admin then
    throw (.http 403 "admin role required")
  return principal

/-- `_require_tenant_for_customer`: a customer has to name a tenant that is there at this moment;
for an admin nothing is asked. -/
def requireTenantForCustomer (role : UserRole) (tenantId : Option String) : Handler Unit := do
  if role = .customer then
    match tenantId with
    | none => throw (.http 400 "customer users must be bound to a tenant")
    | some t =>
        if t = "" then
          throw (.http 400 "customer users must be bound to a tenant")
        unless ← ask (.getTenant t) do
          throw (.http 404 "tenant not found")

/-- `create_user`: the name has to be free and the tenant there, each of which is looked up before
the row is inserted. -/
def createUser (token : Principal) (body : UserCreate) : Handler User := do
  let _ ← requireAdmin token
  if (← ask (.findUsername body.username)).isSome then
    throw (.http 409 "username already exists")
  requireTenantForCustomer body.role body.tenantId
  let id ← ask .newId
  let user : User :=
    { id := "usr_" ++ id
      username := body.username
      passwordHash := ← ask (.hashPassword body.password)
      role := body.role
      tenantId := if body.role = .customer then body.tenantId else none
      disabled := false }
  ask (.insertUser user)
  ask (.refresh user.id)

/-- The column is written when the assigned value differs from the loaded one. -/
def dirty {α : Type} [DecidableEq α] (loaded assigned : α) : Option α :=
  if assigned = loaded then none else some assigned

/-- `update_user`: nobody takes the role or the account from himself, and the last admin keeps
both. -/
def updateUser (token : Principal) (userId : String) (body : UserUpdate) : Handler User := do
  let principal ← requireAdmin token
  match ← ask (.getUser userId) with
  | none => throw (.http 404 "user not found")
  | some user =>
      let isSelf := user.username = principal.subject
      let newRole := body.role.getD user.role
      let newTenant := if body.tenantId.isSome then body.tenantId else user.tenantId
      if isSelf ∧ body.role.isSome ∧ body.role ≠ some .admin then
        throw (.http 400 "cannot demote yourself")
      if isSelf ∧ body.disabled = some true then
        throw (.http 400 "cannot disable yourself")
      requireTenantForCustomer newRole newTenant
      ask (.commitChanges userId
        { role := dirty user.role newRole
          tenantId := dirty user.tenantId (if newRole = .customer then newTenant else none)
          disabled := body.disabled.bind (dirty user.disabled)
          passwordHash := none })
      ask (.refresh userId)

/-- `reset_password`: the hash is replaced, and nothing else. -/
def resetPassword (token : Principal) (userId newPassword : String) : Handler User := do
  let _ ← requireAdmin token
  match ← ask (.getUser userId) with
  | none => throw (.http 404 "user not found")
  | some user =>
      let hash ← ask (.hashPassword newPassword)
      ask (.commitChanges userId
        { role := none, tenantId := none, disabled := none
          passwordHash := dirty user.passwordHash hash })
      ask (.refresh userId)

/-- `delete_user`: nobody deletes himself, and the last admin is not deleted. -/
def deleteUser (token : Principal) (userId : String) : Handler Unit := do
  let principal ← requireAdmin token
  match ← ask (.getUser userId) with
  | none => throw (.http 404 "user not found")
  | some user =>
      if user.username = principal.subject then
        throw (.http 400 "cannot delete yourself")
      if user.role = .admin then
        if (← ask .countAdmins) ≤ 1 then
          throw (.http 400 "cannot delete the last admin")
      ask (.deleteUser userId)

/-- A user-management request with the token it carries. -/
inductive Request
  | create (token : Principal) (body : UserCreate)
  | update (token : Principal) (userId : String) (body : UserUpdate)
  | reset (token : Principal) (userId newPassword : String)
  | delete (token : Principal) (userId : String)

/-- The token of a request, from which its caller is known. -/
def Request.token : Request → Principal
  | .create t _ => t
  | .update t _ _ => t
  | .reset t _ _ => t
  | .delete t _ => t

/-- The program of a request; what it answers with is of no interest here. -/
def Request.handler : Request → Handler Unit
  | .create t b => do let _ ← createUser t b
  | .update t u b => do let _ ← updateUser t u b
  | .reset t u p => do let _ ← resetPassword t u p
  | .delete t u => deleteUser t u

end Users
end TokenFoundry
