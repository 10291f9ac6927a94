import TokenFoundry.Api.Users
import Mathlib.Data.List.Nodup

/-!
# The platform cannot lose its last enabled admin, as long as callers are still admins

`app/api/users.py` guards against a lockout by refusing self-demotion, self-disabling and the
deletion of the last admin.  The guards speak about the caller's token, and a token keeps its
role after the account behind it was demoted, disabled or deleted.  So an admin whose account
is already disabled may still delete the only enabled one (`lockout_reachable`).

What the guards do give is `enabledAdmin_remains`.  In every interleaving in which the caller's
own account is still an enabled admin whenever a commit takes an enabled admin away, an
enabled admin remains.  The caller is then the one who remains: the self checks, together with
the fact that a row never changes its username, show that the row taken away is another one.
-/

set_option autoImplicit false

namespace TokenFoundry
namespace Users

/-! ## The database -/

/-- What the router shares: the tables, the tokens in circulation and the ids of all rows there
ever were. -/
structure World where
  users : List User
  tenants : List String
  tokens : List Principal
  usedIds : List String

def World.find (w : World) (id : String) : Option User := w.users.find? (fun u => u.id = id)

/-- `UPDATE users SET … WHERE id = …`.  It changes the row that is there now, and nothing where the
row is gone. -/
def World.update (w : World) (id : String) (ch : Changes) : World :=
  { w with users := w.users.map (fun u => if u.id = id then ch.apply u else u) }

/-- `DELETE FROM users WHERE id = …`, which leaves the other rows. -/
def World.remove (w : World) (id : String) : World :=
  { w with users := w.users.filter (fun u => u.id ≠ id) }

def Changes.isEmpty (ch : Changes) : Bool :=
  ch.role.isNone && ch.tenantId.isNone && ch.disabled.isNone && ch.passwordHash.isNone

/-- How the database, the token library and `uuid4` answer; the value the outside picks is the
drawn id or the salted hash.  An id drawn by `uuid4` is never the id of an earlier row. -/
def serve (w : World) : (o : Call) → String → Option (usersApi.Reply o × World)
  | .decodeToken t, _ =>
      some (if t ∈ w.tokens then .ok t else .error (.http 401 "invalid token"), w)
  | .hashPassword _, s => some (.ok s, w)
  | .newId, s => if "usr_" ++ s ∈ w.usedIds then none else some (.ok s, w)
  | .findUsername n, _ => some (.ok (w.users.find? (fun u => u.username = n)), w)
  | .getUser id, _ => some (.ok (w.find id), w)
  | .getTenant t, _ => some (.ok (decide (t ∈ w.tenants)), w)
  | .countAdmins, _ => some (.ok (w.users.countP (fun u => u.role = .admin)), w)
  | .insertUser u, _ =>
      if u.id ∈ w.usedIds then none
      else if w.users.any (fun v => v.username = u.username) then some (.error .integrity, w)
      else some (.ok (), { w with users := w.users ++ [u], usedIds := u.id :: w.usedIds })
  | .commitChanges id ch, _ =>
      if ch.isEmpty then some (.ok (), w)
      else if (w.find id).isNone then some (.error .staleData, w)
      else some (.ok (), w.update id ch)
  | .deleteUser id, _ => some (.ok (), w.remove id)
  | .refresh id, _ => some ((w.find id).elim (.error .invalidRequest) .ok, w)

def mayRaise : Call → PyErr → Bool
  | .decodeToken _, e => e = .http 401 "invalid token"
  | _, e => e = .external

/-- Logins issue tokens for enabled accounts; tokens expire.  A token keeps the role that its
account had, whatever becomes of the account. -/
inductive Drift (w : World) : World → Prop
  | login (u : User) (hu : u ∈ w.users) (hd : u.disabled = false) :
      Drift w { w with tokens := ⟨u.username, u.role, u.tenantId⟩ :: w.tokens }
  | expire (ts : List Principal) (h : ts ⊆ w.tokens) : Drift w { w with tokens := ts }

/-- The outside of the user router: the database serves the calls, any of them may raise before or
after its effect, and logins happen meanwhile. -/
def env (ι : Type) : Env usersApi ι World := .faulty (fun _ => serve) mayRaise mayRaise Drift

/-! ## Enabled admins -/

/-- An account that can administer the platform, since a disabled one cannot log in. -/
def EnabledAdmin (u : User) : Prop := u.role = .admin ∧ u.disabled = false

instance (u : User) : Decidable (EnabledAdmin u) := inferInstanceAs (Decidable (_ ∧ _))

def World.HasEnabledAdmin (w : World) : Prop := ∃ u ∈ w.users, EnabledAdmin u

instance (w : World) : Decidable w.HasEnabledAdmin :=
  inferInstanceAs (Decidable (∃ u ∈ w.users, EnabledAdmin u))

/-- The constraints of the table: the primary key and the unique username. -/
structure World.WellFormed (w : World) : Prop where
  ids : (w.users.map User.id).Nodup
  names : (w.users.map User.username).Nodup
  used : ∀ u ∈ w.users, u.id ∈ w.usedIds

/-- Columns that demote and disable nobody; an update with these takes no admin away. -/
def Changes.Harmless (ch : Changes) : Prop := ch.role ≠ some .customer ∧ ch.disabled ≠ some true

/-- The call demotes, disables or deletes an account that is an enabled admin now. -/
def TakesAdminAway (w : World) : Call → Prop
  | .commitChanges id ch => ¬ ch.Harmless ∧ ∃ u ∈ w.users, u.id = id ∧ EnabledAdmin u
  | .deleteUser id => ∃ u ∈ w.users, u.id = id ∧ EnabledAdmin u
  | _ => False

instance (w : World) (o : Call) : Decidable (TakesAdminAway w o) := by
  cases o <;> unfold TakesAdminAway Changes.Harmless <;> infer_instance

/-- Whenever a call takes an enabled admin away, the account of its caller is one too. -/
def CallerStillAdmin {ι : Type} (reqs : ι → Request) : StepCond usersApi ι World :=
  fun i w o _ => TakesAdminAway w o →
    ∃ a ∈ w.users, a.username = (reqs i).token.subject ∧ EnabledAdmin a

instance {ι : Type} (reqs : ι → Request) (i : ι) (w : World) (o : Call) (r : usersApi.Reply o) :
    Decidable (CallerStillAdmin reqs i w o r) := by
  unfold CallerStillAdmin
  infer_instance

/-! ## What one step keeps -/

/-- Rows never change their username, and a used id never names a new row. -/
def SameNames (w w' : World) : Prop :=
  w.usedIds ⊆ w'.usedIds ∧
    ∀ u' ∈ w'.users, u'.id ∈ w.usedIds → ∃ u ∈ w.users, u.id = u'.id ∧ u.username = u'.username

lemma SameNames.refl (w : World) : SameNames w w :=
  ⟨List.Subset.refl _, fun u hu _ => ⟨u, hu, rfl, rfl⟩⟩

lemma SameNames.trans {w₁ w₂ w₃ : World} (h₁ : SameNames w₁ w₂) (h₂ : SameNames w₂ w₃) :
    SameNames w₁ w₃ := by
  refine ⟨List.Subset.trans h₁.1 h₂.1, fun u₃ hu₃ hid => ?_⟩
  obtain ⟨u₂, hu₂, hid₂, hname₂⟩ := h₂.2 u₃ hu₃ (h₁.1 hid)
  obtain ⟨u₁, hu₁, hid₁, hname₁⟩ := h₁.2 u₂ hu₂ (hid₂ ▸ hid)
  exact ⟨u₁, hu₁, hid₁.trans hid₂, hname₁.trans hname₂⟩

@[simp] lemma Changes.apply_id (ch : Changes) (u : User) : (ch.apply u).id = u.id := rfl

@[simp] lemma Changes.apply_username (ch : Changes) (u : User) :
    (ch.apply u).username = u.username := rfl

/-- The row of the same key after an update; the other rows are themselves. -/
def updated (id : String) (ch : Changes) (u : User) : User :=
  if u.id = id then ch.apply u else u

@[simp] lemma updated_id (id : String) (ch : Changes) (u : User) : (updated id ch u).id = u.id := by
  unfold updated
  split <;> rfl

@[simp] lemma updated_username (id : String) (ch : Changes) (u : User) :
    (updated id ch u).username = u.username := by
  unfold updated
  split <;> rfl

lemma World.update_users (w : World) (id : String) (ch : Changes) :
    (w.update id ch).users = w.users.map (updated id ch) := rfl

lemma World.WellFormed.update {w : World} (h : w.WellFormed) (id : String) (ch : Changes) :
    (w.update id ch).WellFormed := by
  refine ⟨?_, ?_, ?_⟩
  · have hmap : (w.update id ch).users.map User.id = w.users.map User.id := by
      simp [World.update_users, Function.comp_def]
    rw [hmap]
    exact h.ids
  · have hmap : (w.update id ch).users.map User.username = w.users.map User.username := by
      simp [World.update_users, Function.comp_def]
    rw [hmap]
    exact h.names
  · intro u' hu'
    rw [World.update_users, List.mem_map] at hu'
    obtain ⟨u, hu, rfl⟩ := hu'
    rw [updated_id]
    exact h.used u hu

lemma World.WellFormed.remove {w : World} (h : w.WellFormed) (id : String) :
    (w.remove id).WellFormed :=
  ⟨h.ids.sublist (List.filter_sublist.map _), h.names.sublist (List.filter_sublist.map _),
    fun u hu => h.used u (List.mem_of_mem_filter hu)⟩

lemma World.WellFormed.insert {w : World} (h : w.WellFormed) (u : User)
    (hid : u.id ∉ w.usedIds)
    (hname : w.users.any (fun v => v.username = u.username) = false) :
    World.WellFormed { w with users := w.users ++ [u], usedIds := u.id :: w.usedIds } := by
  have hnone : ∀ v ∈ w.users, v.username ≠ u.username := by
    simpa using hname
  refine ⟨?_, ?_, ?_⟩
  · simp only [List.map_append, List.map_cons, List.map_nil]
    refine List.nodup_append.2 ⟨h.ids, by simp, ?_⟩
    rintro a ha b hb rfl
    obtain ⟨v, hv, rfl⟩ := List.mem_map.1 ha
    have hvu : v.id = u.id := by simpa using hb
    exact hid (hvu ▸ h.used v hv)
  · simp only [List.map_append, List.map_cons, List.map_nil]
    refine List.nodup_append.2 ⟨h.names, by simp, ?_⟩
    rintro a ha b hb rfl
    obtain ⟨v, hv, rfl⟩ := List.mem_map.1 ha
    exact hnone v hv (by simpa using hb)
  · intro v hv
    rcases List.mem_append.1 hv with hv | hv
    · exact List.mem_cons_of_mem _ (h.used v hv)
    · rw [List.mem_singleton.1 hv]
      exact List.mem_cons_self

/-- Every served call keeps the constraints of the table and the usernames of its rows. -/
lemma serve_keeps {w w' : World} {o : Call} {x : String} {r : usersApi.Reply o}
    (hw : w.WellFormed) (h : serve w o x = some (r, w')) : w'.WellFormed ∧ SameNames w w' := by
  have hrefl : w.WellFormed ∧ SameNames w w := ⟨hw, SameNames.refl w⟩
  cases o with
  | insertUser u =>
      simp only [serve] at h
      split_ifs at h with hid hname
      · cases h
        exact hrefl
      · cases h
        refine ⟨hw.insert u hid (by simpa using hname), List.subset_cons_self _ _, ?_⟩
        intro v hv hused
        rcases List.mem_append.1 hv with hv | hv
        · exact ⟨v, hv, rfl, rfl⟩
        · exact absurd (List.mem_singleton.1 hv ▸ hused) hid
  | commitChanges id ch =>
      simp only [serve] at h
      split_ifs at h
      · cases h
        exact hrefl
      · cases h
        exact hrefl
      · cases h
        refine ⟨hw.update id ch, List.Subset.refl _, fun u' hu' _ => ?_⟩
        rw [World.update_users, List.mem_map] at hu'
        obtain ⟨u, hu, rfl⟩ := hu'
        exact ⟨u, hu, by simp, by simp⟩
  | deleteUser id =>
      cases h
      exact ⟨hw.remove id, List.Subset.refl _,
        fun u hu _ => ⟨u, List.mem_of_mem_filter hu, rfl, rfl⟩⟩
  | newId =>
      simp only [serve] at h
      split_ifs at h
      cases h
      exact hrefl
  | _ =>
      cases h
      exact hrefl

/-! ## Which calls keep an enabled admin -/

lemma Changes.Harmless.enabledAdmin {ch : Changes} (h : ch.Harmless) {u : User}
    (hu : EnabledAdmin u) : EnabledAdmin (ch.apply u) := by
  obtain ⟨hrole, hdis⟩ := h
  refine ⟨?_, ?_⟩
  · change ch.role.getD u.role = .admin
    cases hr : ch.role with
    | none => simpa using hu.1
    | some r =>
        cases r with
        | admin => rfl
        | customer => exact absurd hr hrole
  · change ch.disabled.getD u.disabled = false
    cases hd : ch.disabled with
    | none => simpa using hu.2
    | some d =>
        cases d with
        | false => rfl
        | true => exact absurd hd hdis

/-- A call that takes no admin away keeps every enabled admin's row, up to harmless columns. -/
lemma serve_keeps_admins {w w' : World} {o : Call} {x : String} {r : usersApi.Reply o}
    (h0 : w.HasEnabledAdmin) (haway : ¬ TakesAdminAway w o) (h : serve w o x = some (r, w')) :
    w'.HasEnabledAdmin := by
  obtain ⟨a, ha, hadm⟩ := h0
  cases o with
  | commitChanges id ch =>
      simp only [serve] at h
      split_ifs at h
      · cases h
        exact ⟨a, ha, hadm⟩
      · cases h
        exact ⟨a, ha, hadm⟩
      · cases h
        refine ⟨updated id ch a, List.mem_map_of_mem ha, ?_⟩
        unfold updated
        split_ifs with hid
        -- The row of this admin is changed, and the change takes neither the role nor the account
        -- away.
        · have hharm : ch.Harmless := by
            by_contra hnot
            exact haway ⟨hnot, a, ha, hid, hadm⟩
          exact hharm.enabledAdmin hadm
        · exact hadm
  | deleteUser id =>
      cases h
      have haid : a.id ≠ id := fun hid => haway ⟨a, ha, hid, hadm⟩
      exact ⟨a, List.mem_filter.2 ⟨ha, by simpa using haid⟩, hadm⟩
  | insertUser v =>
      simp only [serve] at h
      split_ifs at h
      · cases h
        exact ⟨a, ha, hadm⟩
      · cases h
        exact ⟨a, List.mem_append_left _ ha, hadm⟩
  | newId =>
      simp only [serve] at h
      split_ifs at h
      cases h
      exact ⟨a, ha, hadm⟩
  | _ =>
      cases h
      exact ⟨a, ha, hadm⟩

/-- What a handler must know before it writes: a row that it may take an admin away from is
not the row of its caller. -/
def SafeCall (subject : String) (w : World) : Call → Prop
  | .commitChanges id ch => ch.Harmless ∨ ∀ u ∈ w.users, u.id = id → u.username ≠ subject
  | .deleteUser id => ∀ u ∈ w.users, u.id = id → u.username ≠ subject
  | _ => True

/-- A call made safely leaves the row of its caller alone where it takes an admin away. -/
lemma serve_keeps_caller {w w' : World} {o : Call} {x : String} {r : usersApi.Reply o}
    {a : User} (ha : a ∈ w.users) (hsafe : SafeCall a.username w o) (haway : TakesAdminAway w o)
    (h : serve w o x = some (r, w')) : a ∈ w'.users := by
  cases o with
  | commitChanges id ch =>
      simp only [serve] at h
      split_ifs at h
      · cases h
        exact ha
      · cases h
        exact ha
      · cases h
        have haid : a.id ≠ id := fun hid =>
          hsafe.resolve_left haway.1 a ha hid rfl
        have hsame : updated id ch a = a := if_neg haid
        exact hsame ▸ List.mem_map_of_mem (f := updated id ch) ha
  | deleteUser id =>
      cases h
      have haid : a.id ≠ id := fun hid => hsafe a ha hid rfl
      exact List.mem_filter.2 ⟨ha, by simpa using haid⟩
  | _ => exact haway.elim

/-! ## The discipline of the router -/

/-- The table keeps its constraints and an enabled admin; rows keep their usernames. -/
def discipline (ι : Type) : Discipline (env ι) where
  inv w := w.WellFormed ∧ w.HasEnabledAdmin
  rely _ := SameNames
  busy _ _ := True
  rely_refl _ := SameNames.refl
  rely_trans _ _ _ _ := SameNames.trans
  drift_inv := by
    rintro w w' ⟨hw, h0⟩ (⟨u, hu, hd⟩ | ⟨ts, hts⟩)
    · exact ⟨⟨hw.ids, hw.names, hw.used⟩, h0⟩
    · exact ⟨⟨hw.ids, hw.names, hw.used⟩, h0⟩
  drift_rely := by
    rintro w w' i - (⟨u, hu, hd⟩ | ⟨ts, hts⟩)
    · exact SameNames.refl w
    · exact SameNames.refl w

/-- A safe step of a run whose callers are still admins keeps the invariant. -/
lemma act_keeps {ι : Type} {reqs : ι → Request} {i : ι} {w w' : World} {o : Call}
    {f : Fate String PyErr} {r : usersApi.Reply o} (hI : (discipline ι).inv w)
    (hsafe : SafeCall (reqs i).token.subject w o) (hok : CallerStillAdmin reqs i w o r)
    (h : (env ι).act i w o f = some (r, w')) : (discipline ι).inv w' ∧ SameNames w w' := by
  obtain ⟨hw, h0⟩ := hI
  rcases Env.faulty_act h with ⟨x, r₀, hs, -⟩ | ⟨rfl, -⟩
  · obtain ⟨hw', hnames⟩ := serve_keeps hw hs
    refine ⟨⟨hw', ?_⟩, hnames⟩
    by_cases haway : TakesAdminAway w o
    · obtain ⟨a, ha, hname, hadm⟩ := hok haway
      exact ⟨a, serve_keeps_caller ha (hname ▸ hsafe) haway hs, hadm⟩
    · exact serve_keeps_admins h0 haway hs
  · exact ⟨⟨hw, h0⟩, SameNames.refl _⟩

section Handlers

variable {ι α : Type} {reqs : ι → Request} {i : ι} {w : World}

/-- A handler is safe when it makes every call safely, whatever the others do. -/
abbrev SafeHandler (reqs : ι → Request) (i : ι) (x : Handler α) (Q : α → World → Prop)
    (w : World) : Prop :=
  (discipline ι).wpE (CallerStillAdmin reqs) i x Q (fun _ _ => True) w

/-- The rule for a call: it is made safely, and what it answers is known later on. -/
lemma safe_ask {o : Call} {Q : o.Answer → World → Prop}
    (hsafe : ∀ w₁, SameNames w w₁ → SafeCall (reqs i).token.subject w₁ o)
    (hQ : ∀ w₁ x a w₂, SameNames w w₁ → w₁.WellFormed → serve w₁ o x = some (.ok a, w₂) →
      SameNames w₁ w₂ → Q a w₂) :
    SafeHandler reqs i (ask o) Q w := by
  refine Discipline.wpE_ask (fun w₁ hR hI => ⟨trivial, fun f r w₂ ha hok => ?_⟩)
  obtain ⟨hI₂, hnames⟩ := act_keeps hI (hsafe w₁ hR) hok ha
  refine ⟨hI₂, fun j _ => hnames, fun a hr => ?_, fun _ _ => trivial⟩
  subst hr
  rcases Env.faulty_act ha with ⟨x, r₀, hs, hr₀ | ⟨e, -, he⟩⟩ | ⟨-, e, -, he⟩
  · exact hQ w₁ x a w₂ hR hI.1 (hr₀ ▸ hs) hnames
  · cases he
  · cases he

/-- A call that writes no row is safe, and the names of the accounts are the same after it. -/
lemma safe_read {o : Call} {Q : o.Answer → World → Prop} (ho : ∀ s w, SafeCall s w o)
    (hQ : ∀ a w', SameNames w w' → Q a w') : SafeHandler reqs i (ask o) Q w :=
  safe_ask (fun _ _ => ho _ _) (fun _ _ a w₂ hR _ _ hn => hQ a w₂ (hR.trans hn))

/-- Whatever row there is under the key, it carries this username. -/
def Named (id name : String) (w : World) : Prop :=
  id ∈ w.usedIds ∧ ∀ u ∈ w.users, u.id = id → u.username = name

lemma Named.keep {id name : String} {w w' : World} (h : Named id name w)
    (hn : SameNames w w') : Named id name w' := by
  refine ⟨hn.1 h.1, fun u' hu' hid => ?_⟩
  obtain ⟨u, hu, hid', hname⟩ := hn.2 u' hu' (hid ▸ h.1)
  exact hname ▸ h.2 u hu (hid'.trans hid)

lemma World.WellFormed.named {w : World} (h : w.WellFormed) {id : String} {u : User}
    (hf : w.find id = some u) : Named id u.username w := by
  have hmem : u ∈ w.users := List.mem_of_find?_eq_some hf
  have hid : u.id = id := by simpa using List.find?_some hf
  refine ⟨hid ▸ h.used u hmem, fun v hv hvid => ?_⟩
  rw [List.inj_on_of_nodup_map h.ids hv hmem (hvid.trans hid.symm)]

/-! ## Every handler is safe -/

lemma safe_requireAdmin {Q : Principal → World → Prop}
    (hQ : ∀ w', SameNames w w' → Q (reqs i).token w') :
    SafeHandler reqs i (requireAdmin (reqs i).token) Q w := by
  unfold requireAdmin
  refine (Discipline.wpE_bind _ _).2 (safe_ask (fun _ _ => trivial) ?_)
  intro w₁ x a w₂ hR _ hs hn
  have ha : a = (reqs i).token ∧ w₂ = w₁ := by
    simp only [serve] at hs
    split_ifs at hs
    · cases hs
      exact ⟨rfl, rfl⟩
    · cases hs
  obtain ⟨rfl, rfl⟩ := ha
  exact Discipline.wpE_guard (fun _ => trivial) (fun _ => hQ _ hR)

lemma safe_requireTenantForCustomer {role : UserRole} {tenantId : Option String}
    {Q : Unit → World → Prop} (hQ : ∀ w', SameNames w w' → Q () w') :
    SafeHandler reqs i (requireTenantForCustomer role tenantId) Q w := by
  unfold requireTenantForCustomer
  split_ifs
  · cases tenantId with
    | none => trivial
    | some t =>
        refine Discipline.wpE_guard (fun _ => trivial) (fun _ => ?_)
        refine (Discipline.wpE_bind _ _).2 (safe_read (fun _ _ => trivial) ?_)
        intro found w₁ hR
        cases found with
        | true => exact hQ w₁ hR
        | false => trivial
  · exact hQ w (SameNames.refl w)

lemma safe_createUser (body : UserCreate) :
    SafeHandler reqs i (createUser (reqs i).token body) (fun _ _ => True) w := by
  unfold createUser
  refine (Discipline.wpE_bind _ _).2 (safe_requireAdmin (fun w₁ _ => ?_))
  refine (Discipline.wpE_bind _ _).2 (safe_read (fun _ _ => trivial) (fun found w₂ _ => ?_))
  refine Discipline.wpE_guard (fun _ => trivial) (fun _ => ?_)
  refine (Discipline.wpE_bind _ _).2 (safe_requireTenantForCustomer (fun w₃ _ => ?_))
  refine (Discipline.wpE_bind _ _).2 (safe_read (fun _ _ => trivial) (fun id w₄ _ => ?_))
  refine (Discipline.wpE_bind _ _).2 (safe_read (fun _ _ => trivial) (fun hash w₅ _ => ?_))
  refine (Discipline.wpE_bind _ _).2 (safe_read (fun _ _ => trivial) (fun _ w₆ _ => ?_))
  exact safe_read (fun _ _ => trivial) (fun _ _ _ => trivial)

/-- Reading a row by its key fixes the username under that key for the rest of the request. -/
lemma safe_getUser {id : String} {Q : Option User → World → Prop}
    (hnone : ∀ w', SameNames w w' → Q none w')
    (hsome : ∀ w' u, SameNames w w' → Named id u.username w' → Q (some u) w') :
    SafeHandler reqs i (ask (.getUser id)) Q w := by
  refine safe_ask (fun _ _ => trivial) (fun w₁ x row w₂ hR hw hs _ => ?_)
  cases hs
  cases hrow : w₁.find id with
  | none => exact hnone w₁ hR
  | some u => exact hsome w₁ u hR (hw.named hrow)

lemma safe_resetPassword (userId newPassword : String) :
    SafeHandler reqs i (resetPassword (reqs i).token userId newPassword) (fun _ _ => True) w := by
  unfold resetPassword
  refine (Discipline.wpE_bind _ _).2 (safe_requireAdmin (fun w₁ _ => ?_))
  refine (Discipline.wpE_bind _ _).2 (safe_getUser (fun w₂ _ => trivial) (fun w₂ user _ _ => ?_))
  refine (Discipline.wpE_bind _ _).2 (safe_read (fun _ _ => trivial) (fun hash w₃ _ => ?_))
  have hharm : ∀ s w, SafeCall s w (.commitChanges userId
      { role := none, tenantId := none, disabled := none
        passwordHash := dirty user.passwordHash hash }) := fun _ _ => .inl ⟨by simp, by simp⟩
  refine (Discipline.wpE_bind _ _).2 (safe_read hharm (fun _ w₄ _ => ?_))
  exact safe_read (fun _ _ => trivial) (fun _ _ _ => trivial)

/-- A column that is assigned its own value or a harmless one is not written harmfully. -/
lemma dirty_ne {α : Type} [DecidableEq α] {loaded assigned bad : α}
    (h : assigned = bad → loaded = bad) : dirty loaded assigned ≠ some bad := by
  unfold dirty
  split_ifs with heq
  · simp
  · rintro ⟨⟩
    exact heq (h rfl).symm

lemma safe_updateUser (userId : String) (body : UserUpdate) :
    SafeHandler reqs i (updateUser (reqs i).token userId body) (fun _ _ => True) w := by
  unfold updateUser
  refine (Discipline.wpE_bind _ _).2 (safe_requireAdmin (fun w₁ _ => ?_))
  refine (Discipline.wpE_bind _ _).2 (safe_getUser (fun w₂ _ => trivial) (fun w₂ user _ hn => ?_))
  refine Discipline.wpE_guard (fun _ => trivial) (fun hrole => ?_)
  refine Discipline.wpE_guard (fun _ => trivial) (fun hdis => ?_)
  refine (Discipline.wpE_bind _ _).2 (safe_requireTenantForCustomer (fun w₃ hn₃ => ?_))
  refine (Discipline.wpE_bind _ _).2 (safe_ask (fun w₄ hn₄ => ?_)
    (fun w₄ _ _ w₅ _ _ _ _ => safe_read (fun _ _ => trivial) (fun _ _ _ => trivial)))
  -- Either the row is the caller's own and the self checks passed, or it is somebody else's.
  by_cases hself : user.username = (reqs i).token.subject
  · refine .inl ⟨dirty_ne (fun hcust => ?_), ?_⟩
    · cases hbody : body.role with
      | none => simpa [hbody] using hcust
      | some r =>
          have hadm : r = .admin := by
            by_contra hne
            exact hrole ⟨hself, by simp [hbody], by simpa [hbody] using hne⟩
          simp [hbody, hadm] at hcust
    · cases hbody : body.disabled with
      | none => simp
      | some d =>
          refine dirty_ne (fun hd => ?_)
          exact absurd ⟨hself, by rw [hbody, hd]⟩ hdis
  · refine .inr (fun u hu hid => ?_)
    rw [(hn.keep (hn₃.trans hn₄)).2 u hu hid]
    exact hself

lemma safe_deleteUser (userId : String) :
    SafeHandler reqs i (deleteUser (reqs i).token userId) (fun _ _ => True) w := by
  unfold deleteUser
  refine (Discipline.wpE_bind _ _).2 (safe_requireAdmin (fun w₁ _ => ?_))
  refine (Discipline.wpE_bind _ _).2 (safe_getUser (fun w₂ _ => trivial) (fun w₂ user _ hn => ?_))
  refine Discipline.wpE_guard (fun _ => trivial) (fun hself => ?_)
  have hdelete : ∀ w₃, SameNames w₂ w₃ →
      SafeHandler reqs i (ask (.deleteUser userId)) (fun _ _ => True) w₃ := by
    intro w₃ hn₃
    refine safe_ask (fun w₄ hn₄ u hu hid => ?_) (fun _ _ _ _ _ _ _ _ => trivial)
    rw [(hn.keep (hn₃.trans hn₄)).2 u hu hid]
    exact hself
  split_ifs
  · refine (Discipline.wpE_bind _ _).2 (safe_read (fun _ _ => trivial) (fun n w₃ hn₃ => ?_))
    exact Discipline.wpE_guard (fun _ => trivial) (fun _ => hdelete w₃ hn₃)
  · exact hdelete w₂ (SameNames.refl w₂)

lemma safe_handler (reqs : ι → Request) (i : ι) (w : World) :
    SafeHandler reqs i (reqs i).handler (fun _ _ => True) w := by
  have hcreate : ∀ b, SafeHandler reqs i (createUser (reqs i).token b) (fun _ _ => True) w :=
    fun b => safe_createUser b
  have hupdate : ∀ u b, SafeHandler reqs i (updateUser (reqs i).token u b) (fun _ _ => True) w :=
    fun u b => safe_updateUser u b
  have hreset : ∀ u p, SafeHandler reqs i (resetPassword (reqs i).token u p) (fun _ _ => True) w :=
    fun u p => safe_resetPassword u p
  have hdelete : ∀ u, SafeHandler reqs i (deleteUser (reqs i).token u) (fun _ _ => True) w :=
    fun u => safe_deleteUser u
  cases hreq : reqs i with
  | create t b =>
      rw [hreq] at hcreate
      exact (Discipline.wpE_bind _ _).2 (hcreate b)
  | update t u b =>
      rw [hreq] at hupdate
      exact (Discipline.wpE_bind _ _).2 (hupdate u b)
  | reset t u p =>
      rw [hreq] at hreset
      exact (Discipline.wpE_bind _ _).2 (hreset u p)
  | delete t u =>
      rw [hreq] at hdelete
      exact hdelete u

end Handlers

/-! ## Lockout freedom -/

/-- The requests before any of them has made a call. -/
def start {ι : Type} (reqs : ι → Request) (w : World) :
    Config usersApi ι World (Except PyErr Unit) :=
  ⟨w, fun i => (reqs i).handler.run⟩

/-- In every interleaving in which the caller's account is still an enabled admin whenever an
enabled admin is demoted, disabled or deleted, an enabled admin remains. -/
theorem enabledAdmin_remains {ι : Type} [DecidableEq ι] (reqs : ι → Request) {w : World}
    (hw : w.WellFormed) (h0 : w.HasEnabledAdmin)
    {c : Config usersApi ι World (Except PyErr Unit)}
    (h : Reaches (env ι) (CallerStillAdmin reqs) (start reqs w) c) :
    c.world.HasEnabledAdmin := by
  have hsafe : ∀ i, (discipline ι).wp (CallerStillAdmin reqs) i ((start reqs w).prog i)
      (fun _ _ => True) w := fun i =>
    Discipline.wp_mono (fun _ _ _ => trivial) (safe_handler reqs i w)
  have hstable : ∀ i (_ : Except PyErr Unit), (discipline ι).Stable i (fun _ => True) :=
    fun _ _ _ _ _ _ _ => trivial
  exact (Discipline.sound hstable ⟨hw, h0⟩ hsafe h).1.2

/-- Two enabled admins, each with a token: the fewest among whom one can take the platform from the
other. -/
def twoAdmins : World where
  users :=
    [⟨"usr_1", "ada", "h1", .admin, none, false⟩, ⟨"usr_2", "bob", "h2", .admin, none, false⟩]
  tenants := []
  tokens := [⟨"ada", .admin, none⟩, ⟨"bob", .admin, none⟩]
  usedIds := ["usr_1", "usr_2"]

lemma twoAdmins_wellFormed : twoAdmins.WellFormed :=
  ⟨by decide, by decide, by decide⟩

/-- Ada disables Bob, and Bob deletes Ada.  Either request alone would leave an enabled admin. -/
def duel : Fin 2 → Request
  | 0 => .update ⟨"ada", .admin, none⟩ "usr_2" ⟨none, none, some true⟩
  | 1 => .delete ⟨"bob", .admin, none⟩ "usr_1"

/-- Ada's request alone: her account is an enabled admin when she disables Bob. -/
theorem enabledAdmin_remains_duel :
    ∃ c, Reaches (env (Fin 2)) (CallerStillAdmin duel) (start duel twoAdmins) c ∧
      (⟨"usr_2", "bob", "h2", .admin, none, true⟩ : User) ∈ c.world.users ∧
      c.world.HasEnabledAdmin := by
  obtain ⟨c, hreach, hbob⟩ := Config.reaches_of_play (env (Fin 2)) (CallerStillAdmin duel)
    (start duel twoAdmins) [(0, .served ""), (0, .served ""), (0, .served ""), (0, .served "")]
    (fun c => (⟨"usr_2", "bob", "h2", .admin, none, true⟩ : User) ∈ c.world.users) (by decide)
  exact ⟨c, hreach, hbob, enabledAdmin_remains duel twoAdmins_wellFormed (by decide) hreach⟩

/-- Tokens that a login of a present, enabled account would have issued. -/
def World.TokensIssued (w : World) : Prop :=
  ∀ t ∈ w.tokens, ∃ u ∈ w.users, u.disabled = false ∧ t = ⟨u.username, u.role, u.tenantId⟩

instance (w : World) : Decidable w.TokensIssued :=
  inferInstanceAs (Decidable (∀ t ∈ w.tokens, ∃ u ∈ w.users, _ ∧ _))

/-- Bob, whose account Ada has just disabled, deletes the only enabled admin: his token still
says that he is an admin, and the count of admins still includes his account. -/
theorem lockout_reachable :
    ¬ ∀ (reqs : Fin 2 → Request) (w : World), w.WellFormed → w.TokensIssued →
      w.HasEnabledAdmin → ∀ c, Reaches (env (Fin 2)) anyStep (start reqs w) c →
        c.world.HasEnabledAdmin := by
  intro hclaim
  obtain ⟨c, hreach, hnone⟩ := Config.reaches_of_play (env (Fin 2)) anyStep
    (start duel twoAdmins)
    [(0, .served ""), (0, .served ""), (0, .served ""), (0, .served ""),
      (1, .served ""), (1, .served ""), (1, .served ""), (1, .served "")]
    (fun c => ¬ c.world.HasEnabledAdmin) (by decide)
  exact hnone (hclaim duel twoAdmins twoAdmins_wellFormed (by decide) (by decide) c hreach)

end Users
end TokenFoundry
