import TokenFoundry.Properties.AuditWorld
import TokenFoundry.Properties.Lockout

/-!
# Users and their tenants

Users are bound to tenants by an id that no foreign key guards.  `create_user` and `update_user`
check that the tenant of a customer exists and leave admins unbound, in the same commit that
writes the role.  `delete_tenant` asks for keys and not for users, so that a customer can be left
with a tenant that is gone (`customer_orphaned`).

In every sequence of requests, whichever of their calls fail, no admin is bound; and as long as a
tenant is only deleted when no customer is bound to it, every customer is bound to a tenant that
exists (`tenant_binding`).
-/

set_option autoImplicit false

namespace TokenFoundry
namespace Binding

open Users (User UserCreate UserUpdate Principal Changes usersApi dirty)
open Keys (Tenant TenantCreate TenantUpdate Project keysApi lifeApi tenantsApi owner)

/-! ## The two tables -/

/-- The accounts, and the tenants with what their requests work on. -/
structure Registry where
  accounts : Users.World
  office : Keys.World Unit

/-- The tenant has a row, in the table that the requests on tenants write. -/
def Registry.exists (w : Registry) (t : String) : Bool := (w.office.tenants t).isSome

/-- Write the row of a tenant, or remove it; the accounts are not looked at. -/
def Registry.setTenant (w : Registry) (t : String) (row : Option Tenant) : Registry :=
  { w with office := { w.office with tenants := Function.update w.office.tenants t row } }

abbrev adminApi : Interface PyErr := usersApi.sum tenantsApi

/-- How the services answer: the routers' own, over one table of tenants. -/
def serve (projects : String → Option Project) (w : Registry) :
    (o : adminApi.Call) → Keys.Pick → Option (adminApi.Reply o × Registry)
  | .inl (.getTenant t), _ => some (.ok (w.exists t), w)
  | .inl o, p =>
      (Users.serve w.accounts o p.value).map (fun s => (s.1, { w with accounts := s.2 }))
  | .inr (.inl o), p =>
      (Keys.serve projects () w.office o p).map (fun s => (s.1, { w with office := s.2 }))
  | .inr (.inr .newId), p => some (.ok p.value, w)
  | .inr (.inr (.ensureProduct _)), p => some (.ok p.value, w)
  | .inr (.inr (.insertTenant row _)), _ =>
      if w.exists row.id then some (.error .integrity, w)
      else some (.ok (), w.setTenant row.id (some row))
  | .inr (.inr (.countKeys t)), _ =>
      some (.ok (w.office.keys.countP (fun k => owner projects k = some t)), w)
  | .inr (.inr (.deleteTenant t)), _ => some (.ok (), w.setTenant t none)

/-- Any call may fail with any error, before its effect or after. -/
def env (projects : String → Option Project) : Env adminApi Unit Registry :=
  .faulty (fun _ => serve projects) (fun _ _ => true) (fun _ _ => true) (fun _ _ => False)

/-! ## Requests -/

inductive Request
  | user (q : Users.Request)
  | createTenant (body : TenantCreate)
  | updateTenant (tenantId : String) (body : TenantUpdate)
  | deleteTenant (tenantId : String)

/-- The program of a request, on the accounts or on the tenants. -/
def Request.handler : Request → Prog.Raising adminApi Unit
  | .user q => q.handler.inl tenantsApi
  | .createTenant body => Prog.Raising.inr usersApi (do let _ ← Keys.createTenant body)
  | .updateTenant t body =>
      Prog.Raising.inr usersApi (Prog.Raising.inl lifeApi (do let _ ← Keys.updateTenant t body))
  | .deleteTenant t => Prog.Raising.inr usersApi (Keys.deleteTenant t)

/-- A customer is bound to the tenant, and would be orphaned by its deletion. -/
def BoundTo (t : String) (w : Registry) : Prop :=
  ∃ u ∈ w.accounts.users, u.role = .customer ∧ u.tenantId = some t

instance (t : String) (w : Registry) : Decidable (BoundTo t w) :=
  inferInstanceAs (Decidable (∃ u ∈ _, _))

/-- A tenant to which a customer is bound is not deleted. -/
def NoUsersLeft : Request → Registry → Prop
  | .deleteTenant t, w => ¬ BoundTo t w
  | _, _ => True

instance (q : Request) (w : Registry) : Decidable (NoUsersLeft q w) := by
  cases q <;> unfold NoUsersLeft <;> infer_instance

/-! ## The invariant -/

def AdminsUnbound (w : Registry) : Prop :=
  ∀ u ∈ w.accounts.users, u.role = .admin → u.tenantId = none

instance (w : Registry) : Decidable (AdminsUnbound w) :=
  inferInstanceAs (Decidable (∀ u ∈ _, _))

def CustomersBound (w : Registry) : Prop :=
  ∀ u ∈ w.accounts.users, u.role = .customer → ∃ t, u.tenantId = some t ∧ w.exists t = true

/-- A row that both parts of the binding accept: an admin has no tenant, and a customer has one that
exists, as far as the deletions are guarded. -/
def Proper (w : Registry) (guarded : Prop) (u : User) : Prop :=
  (u.role = .admin → u.tenantId = none) ∧
    (guarded → u.role = .customer → ∃ t, u.tenantId = some t ∧ w.exists t = true)

/-- Every row is proper, and the constraints of the table hold. -/
structure Inv (guarded : Prop) (w : Registry) : Prop where
  wellFormed : w.accounts.WellFormed
  proper : ∀ u ∈ w.accounts.users, Proper w guarded u

variable {projects : String → Option Project} {guarded : Prop}

lemma env_drift (projects : String → Option Project) (w w' : Registry) :
    ¬ (env projects).drift w w' := id

/-- The rules for a request that runs alone; between two requests the other one may have been
served. -/
def rules (projects : String → Option Project) (guarded : Prop) : Discipline (env projects) :=
  .alone (env_drift projects) (Inv guarded)

lemma Inv.keep {w w' : Registry} (h : Inv guarded w)
    (hsame : w'.accounts = w.accounts)
    (htenants : ∀ t, w.exists t = true → w'.exists t = true) : Inv guarded w' := by
  refine ⟨hsame ▸ h.wellFormed, fun u hu => ?_⟩
  obtain ⟨hadm, hcust⟩ := h.proper u (hsame ▸ hu)
  refine ⟨hadm, fun hg hrole => ?_⟩
  obtain ⟨t, ht, hex⟩ := hcust hg hrole
  exact ⟨t, ht, htenants t hex⟩

/-! ## The user requests -/

section UserRequests

variable {w : Registry}

/-- The request may be made here: it keeps the invariant, whatever fails. -/
abbrev UserOk (projects : String → Option Project) (guarded : Prop) {α : Type}
    (p : Users.Handler α) (Q : α → Registry → Prop) (w : Registry) : Prop :=
  (rules projects guarded).left.wpE anyStep () p Q (fun _ _ => True) w

lemma user_ask {o : Users.Call} {Q : o.Answer → Registry → Prop} (hw : Inv guarded w)
    (h : ∀ p r w', serve projects w (.inl o) p = some (r, w') →
      Inv guarded w' ∧ ∀ a, r = .ok a → Q a w') :
    UserOk projects guarded (Users.ask o) Q w := by
  refine Discipline.alone_ask (env projects).left (env_drift projects) (fun _ x r w' ha _ => ?_)
  rcases Env.faulty_act ha with ⟨p, r₀, hs, hr⟩ | ⟨rfl, e, -, rfl⟩
  · obtain ⟨hinv, hq⟩ := h p r₀ w' hs
    refine ⟨hinv, fun a hok => ?_, fun _ _ => trivial⟩
    rcases hr with rfl | ⟨e, -, rfl⟩
    · exact hq a hok
    · cases hok
  · refine ⟨hw, fun a hok => ?_, fun _ _ => trivial⟩
    cases hok

/-- The call writes no row of the accounts, whatever it looks up. -/
def Reads : Users.Call → Prop
  | .insertUser _ | .commitChanges _ _ | .deleteUser _ => False
  | _ => True

lemma serve_reads {o : Users.Call} (ho : Reads o) {p : Keys.Pick} {r : adminApi.Reply (.inl o)}
    {w' : Registry} (h : serve projects w (.inl o) p = some (r, w')) : w' = w := by
  cases o with
  | insertUser u => exact ho.elim
  | commitChanges id ch => exact ho.elim
  | deleteUser id => exact ho.elim
  | newId =>
      simp only [serve, Users.serve] at h
      split_ifs at h
      · cases h
      · cases h
        rfl
  | getTenant t =>
      cases h
      rfl
  | _ =>
      simp only [serve, Users.serve, Option.map_some] at h
      cases h
      rfl

lemma user_read {o : Users.Call} {Q : o.Answer → Registry → Prop} (ho : Reads o)
    (hw : Inv guarded w) (h : ∀ p a, serve projects w (.inl o) p = some (.ok a, w) → Q a w) :
    UserOk projects guarded (Users.ask o) Q w := by
  refine user_ask hw (fun p r w' hs => ?_)
  obtain rfl := serve_reads ho hs
  refine ⟨hw, fun a hr => ?_⟩
  subst hr
  exact h p a hs

lemma user_requireAdmin {token : Principal} {Q : Principal → Registry → Prop}
    (hw : Inv guarded w) (hQ : ∀ principal, Q principal w) :
    UserOk projects guarded (Users.requireAdmin token) Q w := by
  unfold Users.requireAdmin
  refine (Discipline.wpE_bind _ _).2 (user_read trivial hw (fun p principal _ => ?_))
  exact Discipline.wpE_guard (fun _ => trivial) (fun _ => hQ principal)

/-- What the check of the tenant establishes: a customer has a tenant that exists, for an admin
nothing is asked. -/
lemma user_requireTenant {role : UserRole} {tenantId : Option String}
    {Q : Unit → Registry → Prop} (hw : Inv guarded w)
    (hQ : (role = .customer → ∃ t, tenantId = some t ∧ w.exists t = true) → Q () w) :
    UserOk projects guarded (Users.requireTenantForCustomer role tenantId) Q w := by
  unfold Users.requireTenantForCustomer
  split_ifs with hrole
  · cases tenantId with
    | none => trivial
    | some t =>
        refine Discipline.wpE_guard (fun _ => trivial) (fun _ => ?_)
        refine (Discipline.wpE_bind _ _).2 (user_read trivial hw (fun p found hs => ?_))
        have hfound : w.exists t = found := by
          cases hs
          rfl
        cases found with
        | true => exact hQ (fun _ => ⟨t, rfl, hfound⟩)
        | false => trivial
  · exact hQ (fun h => absurd h hrole)

/-- The row that a creation or an update writes is proper. -/
lemma proper_row {u : User} {role : UserRole} {tenantId : Option String}
    (hcheck : role = .customer → ∃ t, tenantId = some t ∧ w.exists t = true)
    (hrole : u.role = role) (htenant : u.tenantId = if role = .customer then tenantId else none) :
    Proper w guarded u := by
  refine ⟨fun hadm => ?_, fun _ hcust => ?_⟩
  · rw [htenant, if_neg]
    rw [← hrole, hadm]
    decide
  · obtain ⟨t, ht, hex⟩ := hcheck (hrole ▸ hcust)
    exact ⟨t, by rw [htenant, if_pos (hrole ▸ hcust), ht], hex⟩

/-- A write of the user router keeps the constraints of its table and leaves the tenants
alone. -/
lemma serve_write {o : Users.Call} (ho : ¬ Reads o) {p : Keys.Pick}
    {r : adminApi.Reply (.inl o)} {w' : Registry} (hw : Inv guarded w)
    (h : serve projects w (.inl o) p = some (r, w')) :
    ∃ a, w' = { w with accounts := a } ∧ a.WellFormed ∧
      Users.serve w.accounts o p.value = some (r, a) := by
  have hserve : serve projects w (.inl o) p =
      (Users.serve w.accounts o p.value).map (fun s => (s.1, { w with accounts := s.2 })) := by
    cases o <;> first | rfl | exact absurd trivial ho
  rw [hserve] at h
  obtain ⟨⟨r₀, a⟩, hs, heq⟩ := Option.map_eq_some_iff.1 h
  cases heq
  exact ⟨a, rfl, (Users.serve_keeps hw.wellFormed hs).1, hs⟩

/-- An insertion adds at most its row, so only that row has to be proper. -/
lemma insert_keeps {u : User} {p : Keys.Pick} {r : adminApi.Reply (.inl (.insertUser u))}
    {w' : Registry} (hw : Inv guarded w) (hu : Proper w guarded u)
    (h : serve projects w (.inl (.insertUser u)) p = some (r, w')) : Inv guarded w' := by
  obtain ⟨a, rfl, hwf, hs⟩ := serve_write (o := .insertUser u) id hw h
  refine ⟨hwf, fun v hv => ?_⟩
  simp only [Users.serve] at hs
  split_ifs at hs
  · cases hs
    exact hw.proper v hv
  · cases hs
    rcases List.mem_append.1 hv with hv | hv
    · exact hw.proper v hv
    · rw [List.mem_singleton.1 hv]
      exact hu

/-- An update changes at most the row with its key. -/
lemma update_keeps {id : String} {ch : Changes} {p : Keys.Pick}
    {r : adminApi.Reply (.inl (.commitChanges id ch))} {w' : Registry} (hw : Inv guarded w)
    (hrow : ∀ u ∈ w.accounts.users, u.id = id → Proper w guarded (ch.apply u))
    (h : serve projects w (.inl (.commitChanges id ch)) p = some (r, w')) : Inv guarded w' := by
  obtain ⟨a, rfl, hwf, hs⟩ := serve_write (o := .commitChanges id ch) (fun h => h) hw h
  refine ⟨hwf, fun v hv => ?_⟩
  simp only [Users.serve] at hs
  split_ifs at hs
  · cases hs
    exact hw.proper v hv
  · cases hs
    exact hw.proper v hv
  · cases hs
    obtain ⟨u, hu, rfl⟩ := List.mem_map.1 hv
    show Proper w guarded _
    split_ifs with hid
    · exact hrow u hu hid
    · exact hw.proper u hu

/-- A deletion removes rows, and what holds of all rows holds of fewer. -/
lemma delete_keeps {id : String} {p : Keys.Pick} {r : adminApi.Reply (.inl (.deleteUser id))}
    {w' : Registry} (hw : Inv guarded w)
    (h : serve projects w (.inl (.deleteUser id)) p = some (r, w')) : Inv guarded w' := by
  obtain ⟨a, rfl, hwf, hs⟩ := serve_write (o := .deleteUser id) (fun h => h) hw h
  refine ⟨hwf, fun v hv => ?_⟩
  cases hs
  exact hw.proper v (List.mem_of_mem_filter hv)

lemma user_create (token : Principal) (body : UserCreate) (hw : Inv guarded w) :
    UserOk projects guarded (Users.createUser token body) (fun _ _ => True) w := by
  unfold Users.createUser
  refine (Discipline.wpE_bind _ _).2 (user_requireAdmin hw (fun principal => ?_))
  refine (Discipline.wpE_bind _ _).2 (user_read trivial hw (fun p found _ => ?_))
  refine Discipline.wpE_guard (fun _ => trivial) (fun _ => ?_)
  refine (Discipline.wpE_bind _ _).2 (user_requireTenant hw (fun hcheck => ?_))
  refine (Discipline.wpE_bind _ _).2 (user_read trivial hw (fun p hex _ => ?_))
  refine (Discipline.wpE_bind _ _).2 (user_read trivial hw (fun p hash _ => ?_))
  refine (Discipline.wpE_bind _ _).2 (user_ask hw (fun p r w' hs => ?_))
  have hwrite : Inv guarded w' := insert_keeps hw (proper_row hcheck rfl rfl) hs
  exact ⟨hwrite, fun _ _ => user_read trivial hwrite (fun _ _ _ => trivial)⟩

/-- Reading a row by its key: there is none, or it is the only one with the key. -/
lemma user_getUser {id : String} {Q : Option User → Registry → Prop} (hw : Inv guarded w)
    (hnone : Q none w) (hsome : ∀ u ∈ w.accounts.users,
      (∀ v ∈ w.accounts.users, v.id = id → v = u) → Q (some u) w) :
    UserOk projects guarded (Users.ask (.getUser id)) Q w := by
  refine user_read trivial hw (fun p row hs => ?_)
  have hfind : w.accounts.find id = row := by
    cases hs
    rfl
  cases row with
  | none => exact hnone
  | some u =>
      have hmem : u ∈ w.accounts.users := List.mem_of_find?_eq_some hfind
      have hid : u.id = id := by simpa using List.find?_some hfind
      exact hsome u hmem (fun v hv hvid =>
        List.inj_on_of_nodup_map hw.wellFormed.ids hv hmem (hvid.trans hid.symm))

/-- A column that is written where it is dirty holds what was assigned. -/
lemma dirty_getD {α : Type} [DecidableEq α] (loaded assigned : α) :
    (dirty loaded assigned).getD loaded = assigned := by
  unfold dirty
  split_ifs with h
  · exact h.symm
  · rfl

lemma user_update (token : Principal) (userId : String) (body : UserUpdate)
    (hw : Inv guarded w) :
    UserOk projects guarded (Users.updateUser token userId body) (fun _ _ => True) w := by
  unfold Users.updateUser
  refine (Discipline.wpE_bind _ _).2 (user_requireAdmin hw (fun principal => ?_))
  refine (Discipline.wpE_bind _ _).2 (user_getUser hw trivial (fun user _ hunique => ?_))
  refine Discipline.wpE_guard (fun _ => trivial) (fun _ => ?_)
  refine Discipline.wpE_guard (fun _ => trivial) (fun _ => ?_)
  refine (Discipline.wpE_bind _ _).2 (user_requireTenant hw (fun hcheck => ?_))
  refine (Discipline.wpE_bind _ _).2 (user_ask hw (fun p r w' hs => ?_))
  have hwrite : Inv guarded w' := by
    refine update_keeps hw (fun u hu hid => ?_) hs
    rw [hunique u hu hid]
    exact proper_row hcheck (dirty_getD _ _) (dirty_getD _ _)
  exact ⟨hwrite, fun _ _ => user_read trivial hwrite (fun _ _ _ => trivial)⟩

lemma user_reset (token : Principal) (userId newPassword : String) (hw : Inv guarded w) :
    UserOk projects guarded (Users.resetPassword token userId newPassword) (fun _ _ => True) w := by
  unfold Users.resetPassword
  refine (Discipline.wpE_bind _ _).2 (user_requireAdmin hw (fun principal => ?_))
  refine (Discipline.wpE_bind _ _).2 (user_getUser hw trivial (fun user _ _ => ?_))
  refine (Discipline.wpE_bind _ _).2 (user_read trivial hw (fun p hash _ => ?_))
  refine (Discipline.wpE_bind _ _).2 (user_ask hw (fun p r w' hs => ?_))
  have hwrite : Inv guarded w' := by
    refine update_keeps hw (fun u hu _ => ?_) hs
    exact hw.proper u hu
  exact ⟨hwrite, fun _ _ => user_read trivial hwrite (fun _ _ _ => trivial)⟩

lemma user_delete (token : Principal) (userId : String) (hw : Inv guarded w) :
    UserOk projects guarded (Users.deleteUser token userId) (fun _ _ => True) w := by
  unfold Users.deleteUser
  refine (Discipline.wpE_bind _ _).2 (user_requireAdmin hw (fun principal => ?_))
  refine (Discipline.wpE_bind _ _).2 (user_getUser hw trivial (fun user _ _ => ?_))
  refine Discipline.wpE_guard (fun _ => trivial) (fun _ => ?_)
  have hdelete : UserOk projects guarded (Users.ask (.deleteUser userId)) (fun _ _ => True) w :=
    user_ask hw (fun p r w' hs => ⟨delete_keeps hw hs, fun _ _ => trivial⟩)
  split_ifs
  · refine (Discipline.wpE_bind _ _).2 (user_read trivial hw (fun p (n : ℕ) _ => ?_))
    exact Discipline.wpE_guard (fun _ => trivial) (fun _ => hdelete)
  · exact hdelete

lemma user_handler (q : Users.Request) (hw : Inv guarded w) :
    UserOk projects guarded q.handler (fun _ _ => True) w := by
  cases q with
  | create t b => exact (Discipline.wpE_bind _ _).2 (user_create t b hw)
  | update t u b => exact (Discipline.wpE_bind _ _).2 (user_update t u b hw)
  | reset t u p => exact (Discipline.wpE_bind _ _).2 (user_reset t u p hw)
  | delete t u => exact user_delete t u hw

end UserRequests

/-! ## The tenant requests -/

section TenantRequests

variable {w : Registry}

/-- The request may be made here. -/
abbrev TenantOk (projects : String → Option Project) (guarded : Prop) {α : Type}
    (p : Keys.TenantHandler α) (Q : α → Registry → Prop) (w : Registry) : Prop :=
  (rules projects guarded).right.wpE anyStep () p Q (fun _ _ => True) w

/-- The requests on keys and tenants remove no tenant, apart from the deletion itself. -/
lemma office_keeps {v v' : Keys.World Unit} {o : Keys.Call} {p : Keys.Pick}
    {r : keysApi.Reply o} (h : Keys.serve projects () v o p = some (r, v')) (t : String)
    (ht : (v.tenants t).isSome) : (v'.tenants t).isSome := by
  cases o with
  | commitTenant id ch =>
      simp only [Keys.serve] at h
      split at h
      · cases h
        exact ht
      · cases h
        by_cases hid : t = id
        · simp [hid]
        · simpa [hid] using ht
  | newId =>
      simp only [Keys.serve] at h
      split_ifs at h
      cases h
      exact ht
  | putNamedValue m im =>
      cases im with
      | any =>
          cases h
          exact ht
      | tag t =>
          simp only [Keys.serve] at h
          split_ifs at h <;>
          · cases h
            exact ht
  | _ =>
      first
      | cases h
        exact ht
      | exact nomatch h

/-- No call but a deletion removes a tenant, and none touches an account. -/
lemma tenants_keep {o : tenantsApi.Call} (ho : ∀ t, o ≠ .inr (.deleteTenant t)) {p : Keys.Pick}
    {r : adminApi.Reply (.inr o)} {w' : Registry} (h : serve projects w (.inr o) p = some (r, w')) :
    w'.accounts = w.accounts ∧ ∀ t, w.exists t = true → w'.exists t = true := by
  rcases o with o | o
  · simp only [serve] at h
    obtain ⟨⟨r₀, v⟩, hs, heq⟩ := Option.map_eq_some_iff.1 h
    cases heq
    exact ⟨rfl, fun t ht => office_keeps hs t ht⟩
  · cases o with
    | deleteTenant t => exact absurd rfl (ho t)
    | insertTenant row billing =>
        simp only [serve] at h
        split_ifs at h
        · cases h
          exact ⟨rfl, fun _ ht => ht⟩
        · cases h
          refine ⟨rfl, fun t ht => ?_⟩
          by_cases hid : t = row.id
          · simp [Registry.exists, Registry.setTenant, hid]
          · simpa [Registry.exists, Registry.setTenant, hid] using ht
    | _ =>
        cases h
        exact ⟨rfl, fun _ ht => ht⟩

lemma tenant_ask {o : tenantsApi.Call} {Q : tenantsApi.Answer o → Registry → Prop}
    {X : PyErr → Registry → Prop} (ho : ∀ t, o ≠ .inr (.deleteTenant t)) (hw : Inv guarded w)
    (hQ : ∀ a w', Inv guarded w' → w'.accounts = w.accounts → Q a w')
    (hX : ∀ e w', Inv guarded w' → X e w') :
    (rules projects guarded).right.wpE anyStep () (Prog.ask o) Q X w := by
  refine Discipline.alone_ask (env projects).right (env_drift projects) (fun _ x r w' ha _ => ?_)
  have hkeep : w'.accounts = w.accounts ∧ ∀ t, w.exists t = true → w'.exists t = true := by
    rcases Env.faulty_act ha with ⟨p, r₀, hs, -⟩ | ⟨rfl, -⟩
    · exact tenants_keep ho hs
    · exact ⟨rfl, fun _ ht => ht⟩
  have hw' : Inv guarded w' := hw.keep hkeep.1 hkeep.2
  exact ⟨hw', fun a _ => hQ a w' hw' hkeep.1, fun e _ => hX e w' hw'⟩

lemma tenant_create (body : TenantCreate) (hw : Inv guarded w) :
    TenantOk projects guarded (Keys.createTenant body) (fun _ _ => True) w := by
  unfold Keys.createTenant
  refine (Discipline.wpE_bind _ _).2 (tenant_ask (by simp) hw (fun (hex : String) w₁ hw₁ _ => ?_)
    (fun _ _ _ => trivial))
  have hinsert : ∀ (row : Tenant) w₂, Inv guarded w₂ → TenantOk projects guarded (do
      Keys.askLife (.insertTenant row body.billingAccountId)
      Keys.askKeys (.refreshTenant ("tn_" ++ hex))) (fun _ _ => True) w₂ := by
    intro row w₂ hw₂
    refine (Discipline.wpE_bind _ _).2 (tenant_ask (by simp) hw₂ (fun _ w₃ hw₃ _ => ?_)
      (fun _ _ _ => trivial))
    exact tenant_ask (by simp) hw₃ (fun _ _ _ _ => trivial) (fun _ _ _ => trivial)
  refine (Discipline.wpE_bind _ _).2 ((Discipline.wpE_tryCatch _ _).2
    ((Discipline.wpE_bind _ _).2 (tenant_ask (by simp) hw₁ (fun product w₂ hw₂ _ => ?_)
      (fun _ w₂ hw₂ => ?_))))
  · exact hinsert _ w₂ hw₂
  · exact hinsert _ w₂ hw₂

/-- The only call that may leave a customer without a tenant. -/
lemma tenant_askDelete (t : String) (hw : Inv guarded w) (hleft : guarded → ¬ BoundTo t w) :
    TenantOk projects guarded (Keys.askLife (.deleteTenant t)) (fun _ _ => True) w := by
  refine Discipline.alone_ask (env projects).right (env_drift projects) (fun _ x r w' ha _ => ?_)
  refine ⟨?_, fun _ _ => trivial, fun _ _ => trivial⟩
  rcases Env.faulty_act ha with ⟨p, r₀, hs, -⟩ | ⟨rfl, -⟩
  · cases hs
    refine ⟨hw.wellFormed, fun u hu => ?_⟩
    obtain ⟨hadm, hcust⟩ := hw.proper u hu
    refine ⟨hadm, fun hg hrole => ?_⟩
    obtain ⟨s, hs, hex⟩ := hcust hg hrole
    have hst : s ≠ t := by
      rintro rfl
      exact hleft hg ⟨u, hu, hrole, hs⟩
    exact ⟨s, hs, by simpa [Registry.exists, Registry.setTenant, hst] using hex⟩
  · exact hw

lemma tenant_delete (t : String) (hw : Inv guarded w) (hleft : guarded → ¬ BoundTo t w) :
    TenantOk projects guarded (Keys.deleteTenant t) (fun _ _ => True) w := by
  unfold Keys.deleteTenant
  refine (Discipline.wpE_bind _ _).2 (tenant_ask (by simp) hw (fun row w₁ hw₁ hsame₁ => ?_)
    (fun _ _ _ => trivial))
  cases row with
  | none => trivial
  | some row =>
      refine (Discipline.wpE_bind _ _).2 (tenant_ask (by simp) hw₁
        (fun (live : ℕ) w₂ hw₂ hsame₂ => ?_) (fun _ _ _ => trivial))
      refine Discipline.wpE_guard (fun _ => trivial) (fun _ => ?_)
      refine tenant_askDelete t hw₂ (fun hg => ?_)
      rw [BoundTo, hsame₂, hsame₁]
      exact hleft hg

lemma tenant_update (t : String) (body : TenantUpdate) (hw : Inv guarded w) :
    TenantOk projects guarded (Prog.Raising.inl lifeApi (do let _ ← Keys.updateTenant t body))
      (fun _ _ => True) w := by
  refine Discipline.wpE_inl.2 (Discipline.wp_mono (fun r _ _ => ?_)
    (Discipline.alone_any (env projects).right.left (env_drift projects)
      (fun w o x r w' hw ha => ?_) _ hw))
  · cases r <;> trivial
  · rcases Env.faulty_act ha with ⟨p, r₀, hs, -⟩ | ⟨rfl, -⟩
    · obtain ⟨hsame, hkeep⟩ := tenants_keep (o := .inl o) (by simp) hs
      exact hw.keep hsame hkeep
    · exact hw

end TenantRequests

/-! ## Every sequence of requests -/

lemma handler_ok (q : Request) {w : Registry} (hw : Inv guarded w)
    (hq : guarded → NoUsersLeft q w) :
    (rules projects guarded).wpE anyStep () q.handler (fun _ _ => True) (fun _ _ => True) w := by
  cases q with
  | user q => exact Discipline.wpE_inl.2 (user_handler q hw)
  | createTenant body =>
      exact Discipline.wpE_inr.2 ((Discipline.wpE_bind _ _).2 (tenant_create body hw))
  | updateTenant t body => exact Discipline.wpE_inr.2 (tenant_update t body hw)
  | deleteTenant t => exact Discipline.wpE_inr.2 (tenant_delete t hw hq)

/-- A world in which no request is in progress, as between two requests. -/
def idle (w : Registry) : Turn adminApi Registry (Except PyErr Unit) := ⟨w, .done (.ok ())⟩

/-- The invariant holds in every world that a sequence of requests reaches. -/
lemma inv_reached {w₀ : Registry} (h₀ : Inv guarded w₀)
    {t : Turn adminApi Registry (Except PyErr Unit)}
    (h : Turn.Reaches (env projects) anyStep Request.handler
      (fun q w => guarded → NoUsersLeft q w) (idle w₀) t) : Inv guarded t.world := by
  have hreq : ∀ q w, (rules projects guarded).inv w → True → (guarded → NoUsersLeft q w) →
      (rules projects guarded).wp anyStep () q.handler.run (fun _ _ => True) w :=
    fun q w hw _ hq => Discipline.wp_mono (fun _ _ _ => trivial) (handler_ok q hw hq)
  exact (Turn.sound (t := idle w₀) hreq h₀ ⟨_, rfl⟩ trivial h).1

/-- **Users and their tenants.**  No admin is ever bound to a tenant.  If a tenant is only deleted
when no customer is bound to it, every customer is bound to a tenant that exists. -/
theorem tenant_binding (projects : String → Option Project) (w₀ : Registry)
    (hwf : w₀.accounts.WellFormed) (hadmins : AdminsUnbound w₀) (hcustomers : CustomersBound w₀) :
    (∀ t, Turn.Reaches (env projects) anyStep Request.handler (fun _ _ => True) (idle w₀) t →
      AdminsUnbound t.world) ∧
    (∀ t, Turn.Reaches (env projects) anyStep Request.handler NoUsersLeft (idle w₀) t →
      CustomersBound t.world) := by
  constructor
  · intro t h
    have hinv : Inv False w₀ := ⟨hwf, fun u hu => ⟨hadmins u hu, False.elim⟩⟩
    have h' : Inv False t.world := inv_reached hinv (by simpa using h)
    exact fun u hu => (h'.proper u hu).1
  · intro t h
    have hinv : Inv True w₀ := ⟨hwf, fun u hu => ⟨hadmins u hu, fun _ => hcustomers u hu⟩⟩
    have h' : Inv True t.world := inv_reached hinv (by simpa using h)
    exact fun u hu => (h'.proper u hu).2 trivial

/-! ## A tenant that is deleted under its customer -/

/-- One admin with a token, and no tenants; everything else is made by requests. -/
def oneAdmin : Registry where
  accounts :=
    { users := [⟨"usr_1", "ada", "h1", .admin, none, false⟩]
      tenants := []
      tokens := [⟨"ada", .admin, none⟩]
      usedIds := ["usr_1"] }
  office :=
    { tenants := fun _ => none
      keys := []
      named := ⟨none, []⟩
      usedIds := []
      session := fun _ => .closed }

lemma oneAdmin_wellFormed : oneAdmin.accounts.WellFormed :=
  ⟨by decide, by decide, by decide⟩

lemma oneAdmin_customers : CustomersBound oneAdmin := by
  intro u hu hrole
  obtain rfl := List.mem_singleton.1 hu
  exact absurd hrole (by decide)

abbrev Choice : Type := Fate Keys.Pick PyErr

/-- A request whose calls are all served, with one drawn value. -/
def served (q : Request) (value : String) (calls : ℕ) : List (Request ⊕ Choice) :=
  .inl q :: List.replicate calls (.inr (.served ⟨value, true⟩))

/-- A tenant is created, and a customer of it, by the admin's two requests. -/
def signUp : List (Request ⊕ Choice) :=
  served (.createTenant ⟨"acme", .internal, none⟩) "1" 4 ++
    served (.user (.create ⟨"ada", .admin, none⟩ ⟨"bob", "pw", .customer, some "tn_1"⟩)) "2" 7

/-- Bob is bound to the tenant, which the sign-up has created. -/
def bobIn (w : Registry) : Prop :=
  ∃ u ∈ w.accounts.users, u.username = "bob" ∧ u.role = .customer ∧ u.tenantId = some "tn_1"

instance (w : Registry) : Decidable (bobIn w) := inferInstanceAs (Decidable (∃ u ∈ _, _))

/-- The customer who has signed up is bound to a tenant that exists. -/
theorem tenant_binding_signUp :
    ∃ t, Turn.Reaches (env (fun _ => none)) anyStep Request.handler NoUsersLeft (idle oneAdmin) t ∧
      bobIn t.world ∧ CustomersBound t.world := by
  obtain ⟨t, hreach, hbob⟩ := Turn.reaches_of_play (env (fun _ => none)) anyStep
    (fun q : Request => q.handler.run) NoUsersLeft (idle oneAdmin) signUp (fun t => bobIn t.world)
      (by decide)
  exact ⟨t, hreach, hbob, (tenant_binding _ oneAdmin oneAdmin_wellFormed (by decide)
    oneAdmin_customers).2 t hreach⟩

/-- The tenant is deleted, and its customer stays, bound to a tenant that is gone. -/
theorem customer_orphaned :
    ¬ ∀ (projects : String → Option Project) (w₀ : Registry), w₀.accounts.WellFormed →
      AdminsUnbound w₀ → CustomersBound w₀ → ∀ t, Turn.Reaches (env projects) anyStep
        Request.handler (fun _ _ => True) (idle w₀) t → CustomersBound t.world := by
  intro hclaim
  obtain ⟨t, hreach, ⟨u, hu, hrole, htenant⟩, hgone⟩ := Turn.reaches_of_play
    (env (fun _ => none)) anyStep (fun q : Request => q.handler.run) (fun _ _ => True)
    (idle oneAdmin) (signUp ++ served (.deleteTenant "tn_1") "" 3)
    (fun t => BoundTo "tn_1" t.world ∧ t.world.exists "tn_1" = false) (by decide)
  obtain ⟨s, hs, hex⟩ := hclaim _ oneAdmin oneAdmin_wellFormed (by decide) oneAdmin_customers t
    hreach u hu hrole
  obtain rfl : "tn_1" = s := Option.some.inj (htenant.symm.trans hs)
  exact absurd hex (by simp [hgone])

end Binding
end TokenFoundry
