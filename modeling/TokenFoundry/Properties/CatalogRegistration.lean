import TokenFoundry.Api.HubCatalog

/-!
# Every chat model gets its route

Any number of hubs register their catalogs at once.  Each registration reads the routes and then
inserts the ones that are missing, in one transaction.  The partial unique index on the names of
platform routes keeps a name from being inserted twice: an insert waits for another transaction that
has inserted the same name, and is refused if that one commits.  The refusal takes back the whole
batch, and the registration returns as if every row of it were there.  Two catalogs that share one
model and differ in another therefore lose a model (`model_lost`).

`catalog_converges` says when they do not: if, whenever a row is refused, every model of that
registration has a route already, then a registration that returns has a route for each of its
models, exactly one, and the rows of the tenants change in their vendor label only.
-/

set_option autoImplicit false

namespace TokenFoundry
namespace HubCatalog

open KeyLimits (NamedValue)
open Pools (Provider)
open ProviderApis (apisApi)

/-! ## The database -/

/-- What a transaction changes apart from its inserts: the vendors that it has assigned to routes,
and the routes that it has deleted.  Both reach the table with the commit. -/
structure Edits where
  vendors : List (String × String)
  deleted : List String

/-- The database that the registrations share: the committed routes, the inserts that still wait for
their commit, and the transaction of each registration. -/
structure World (ι : Type) where
  routes : List ModelRoute
  /-- The inserts that are not committed, each with its transaction. -/
  inserted : List (ι × ModelRoute)
  /-- The transaction of a registration, or `none` where the database has aborted it. -/
  edits : ι → Option Edits

/-- The primary key and `ux_model_routes_platform_name` do not admit both rows. -/
def clash (r r' : ModelRoute) : Bool :=
  r.id = r'.id ∨ (r.isPlatform ∧ r'.isPlatform ∧ r.name = r'.name)

def relabel (vendors : List (String × String)) (r : ModelRoute) : ModelRoute :=
  match vendors.lookup r.id with
  | some v => { r with vendor := some v }
  | none => r

/-- The rows of the tenants, up to the vendor label. -/
def tenantRoutes (routes : List ModelRoute) : List ModelRoute :=
  (routes.filter (fun r => r.ownerScope = .tenant)).map (fun r => { r with vendor := none })

section Database

variable {ι : Type} [DecidableEq ι]

/-- The rows that a transaction has inserted and not yet committed; its own queries see them, those
of the other transactions do not. -/
def World.own (w : World ι) (i : ι) : List ModelRoute :=
  (w.inserted.filter (fun e => e.1 = i)).map (·.2)

/-- A transaction ends without its inserts.  The committed rows stay as they are; a commit writes
its rows into the table beside this. -/
def World.settle (w : World ι) (i : ι) (e : Option Edits) : World ι :=
  { w with
    inserted := w.inserted.filter (fun e => e.1 ≠ i)
    edits := Function.update w.edits i e }

/-- The session is between two transactions: nothing is changed and nothing is deleted. -/
def noEdits : Option Edits := some ⟨[], []⟩

def updateVendors (i : ι) (w : World ι) (changes : List (String × String)) :
    Except PyErr Unit × World ι :=
  match w.edits i with
  | none => (.error .external, w)
  | some e =>
      if changes.all (fun c => c.1 ∈ w.routes.map ModelRoute.id) then
        (.ok (), { w with edits := Function.update w.edits i (some { e with vendors := changes }) })
      else (.error .staleData, w.settle i none)

/-- An insert waits for the transactions that hold a row it clashes with. -/
def insertRoute (i : ι) (w : World ι) (r : ModelRoute) : Option (Except PyErr Unit × World ι) :=
  if (w.edits i).isNone then some (.error .external, w)
  else if w.inserted.any (fun e => e.1 ≠ i ∧ clash r e.2) then none
  else if (w.routes ++ w.own i).any (clash r) then some (.error .integrity, w.settle i none)
  else some (.ok (), { w with inserted := w.inserted ++ [(i, r)] })

def deleteRoutes (i : ι) (w : World ι) (ids : List String) : Except PyErr Unit × World ι :=
  match w.edits i with
  | none => (.error .external, w)
  | some e =>
      (.ok (), { w with edits := Function.update w.edits i (some { e with deleted := ids }) })

def commit (i : ι) (w : World ι) : Except PyErr Unit × World ι :=
  match w.edits i with
  | none => (.error .external, w)
  | some e =>
      (.ok (), World.settle { w with
        routes := (w.routes.filter (fun r => r.id ∉ e.deleted)).map (relabel e.vendors) ++
          w.own i } i noEdits)

/-- What the outside picks: the digits of a new id, and the named value of the limits. -/
structure Pick where
  hex : String
  namedValue : Option NamedValue

/-- The answers of the management API.  Only the lookup of a named value depends on what exists
there; every write is accepted. -/
def armAnswer (nv : Option NamedValue) : (o : ProviderApis.Call) → apisApi.Reply o
  | .getNamedValue => nv.elim (.error .resourceNotFound) .ok
  | .putNamedValue _ _ => .ok ()
  | .putApi _ _ _ => .ok ()
  | .putOperation _ _ _ => .ok ()
  | .putPolicy _ _ => .ok ()
  | .putOperationPolicy _ _ => .ok ()
  | .linkProduct _ _ => .ok ()
  | .putDiagnostic _ => .ok ()

/-- How the calls of a registration are served; `none` while an insert waits. -/
def serve (catalogs : ι → List HubModel) (i : ι) (w : World ι) :
    (o : catalogApi.Call) → Pick → Option (catalogApi.Reply o × World ι)
  | .inl o, x => some (armAnswer x.namedValue o, w)
  | .inr (.fetchHubModels _ _), _ => some (.ok (catalogs i), w)
  | .inr .readRoutes, _ => some (.ok w.routes, w)
  | .inr .newId, x => some (.ok x.hex, w)
  | .inr (.updateVendors changes), _ => some (updateVendors i w changes)
  | .inr (.insertRoute r), _ => insertRoute i w r
  | .inr (.deleteRoutes ids), _ => some (deleteRoutes i w ids)
  | .inr .commit, _ => some (commit i w)
  | .inr .rollback, _ => some (.ok (), w.settle i noEdits)

/-- The database may abort a transaction at any moment, as it does for a deadlock or a lost
connection; the inserts of the transaction are gone then. -/
inductive Aborts (w : World ι) : World ι → Prop
  | mk (i : ι) : Aborts w (w.settle i none)

/-- A call may raise before its effect or after; only the index raises `IntegrityError`. -/
def mayFail : catalogApi.Call → PyErr → Bool
  | _, .integrity => false
  | _, _ => true

def env (catalogs : ι → List HubModel) : Env catalogApi ι (World ι) :=
  .faulty (serve catalogs) mayFail mayFail Aborts

/-- Whenever a row is refused, the models of that registration have their routes. -/
def Covered (catalogs : ι → List HubModel) : StepCond catalogApi ι (World ι)
  | i, w, .inr (.insertRoute _), .error .integrity => offered (catalogs i) ⊆ platformNames w.routes
  | _, _, _, _ => True

instance (catalogs : ι → List HubModel) (i : ι) (w : World ι) (o : catalogApi.Call)
    (r : catalogApi.Reply o) : Decidable (Covered catalogs i w o r) := by
  unfold Covered
  split <;> infer_instance

/-- The registrations, before any of them has made a call; each has its hub and its token. -/
def start (hubs : ι → String × String) (w : World ι) :
    Config catalogApi ι (World ι) (Except PyErr Unit) :=
  ⟨w, fun i => (registerHubCatalog (hubs i).1 (hubs i).2 false).run⟩

/-- The index is in force, and no transaction has begun. -/
structure World.Settled (w : World ι) : Prop where
  index : (platformNames w.routes).Nodup
  inserted : w.inserted = []
  edits : ∀ i, w.edits i = noEdits

/-! ## The invariant -/

/-- No name belongs to two platform routes, committed or not, and the tenants keep their rows. -/
structure Inv (rows : List ModelRoute) (w : World ι) : Prop where
  names : (platformNames w.routes ++ w.inserted.map (fun e => e.2.name)).Nodup
  platform : ∀ e ∈ w.inserted, e.2.isPlatform = true
  kept : ∀ i, ∀ e ∈ w.edits i, e.deleted = []
  tenants : tenantRoutes w.routes = tenantRoutes rows

/-- The routes grow, and nobody else touches the transaction, unless it is aborted. -/
structure Rely (i : ι) (w w' : World ι) : Prop where
  grows : platformNames w.routes ⊆ platformNames w'.routes
  same : w'.edits i = none ∨ (w'.edits i = w.edits i ∧ w'.own i = w.own i)

lemma Rely.refl (i : ι) (w : World ι) : Rely i w w := ⟨List.Subset.refl _, .inr ⟨rfl, rfl⟩⟩

lemma Rely.trans {i : ι} {w₁ w₂ w₃ : World ι} (h₁ : Rely i w₁ w₂) (h₂ : Rely i w₂ w₃) :
    Rely i w₁ w₃ := by
  refine ⟨List.Subset.trans h₁.grows h₂.grows, ?_⟩
  rcases h₂.same with hnone | ⟨hedits, hown⟩
  · exact .inl hnone
  · rcases h₁.same with hnone | ⟨hedits', hown'⟩
    · exact .inl (hedits.trans hnone)
    · exact .inr ⟨hedits.trans hedits', hown.trans hown'⟩

section Steps

variable {rows : List ModelRoute} {w : World ι} {i : ι}

@[simp] lemma settle_routes (e : Option Edits) : (w.settle i e).routes = w.routes := rfl

lemma own_settle {j : ι} (hj : j ≠ i) (e : Option Edits) : (w.settle i e).own j = w.own j := by
  unfold World.own World.settle
  rw [List.filter_filter]
  congr 1
  refine List.filter_congr (fun e _ => ?_)
  by_cases hje : e.1 = j
  · simp [hje, hj]
  · simp [hje]

lemma inv_settle (h : Inv rows w) {e : Option Edits} (he : ∀ e' ∈ e, e'.deleted = []) :
    Inv rows (w.settle i e) := by
  refine ⟨h.names.sublist ?_, fun e he => h.platform e (List.mem_of_mem_filter he), fun j => ?_,
    h.tenants⟩
  · exact (List.Sublist.refl _).append ((List.filter_sublist).map _)
  · by_cases hj : j = i
    · subst hj
      simpa [World.settle] using he
    · simpa [World.settle, hj] using h.kept j

lemma rely_settle {j : ι} (hj : j ≠ i) (e : Option Edits) : Rely j w (w.settle i e) :=
  ⟨List.Subset.refl _, .inr ⟨by simp [World.settle, hj], own_settle hj e⟩⟩

/-- An edit of one transaction is none of the others'. -/
lemma rely_edits {j : ι} (hj : j ≠ i) (e : Option Edits) :
    Rely j w { w with edits := Function.update w.edits i e } :=
  ⟨List.Subset.refl _, .inr ⟨by simp [hj], rfl⟩⟩

lemma rely_insert {j : ι} (hj : j ≠ i) (r : ModelRoute) :
    Rely j w { w with inserted := w.inserted ++ [(i, r)] } :=
  ⟨List.Subset.refl _, .inr ⟨rfl, by simp [World.own, Ne.symm hj]⟩⟩

/-- An insert keeps the invariant if it clashes neither with an insert of another transaction nor
with a row that its own transaction sees. -/
lemma inv_insert (h : Inv rows w) {r : ModelRoute} (hr : r.isPlatform = true)
    (hothers : w.inserted.any (fun e => e.1 ≠ i ∧ clash r e.2) = false)
    (hown : (w.routes ++ w.own i).any (clash r) = false) :
    Inv rows { w with inserted := w.inserted ++ [(i, r)] } := by
  have hclash : ∀ r' : ModelRoute, r'.isPlatform = true → clash r r' = false →
      r'.name ≠ r.name := by
    intro r' hr' hclash hname
    simp [clash, hr, hr', hname] at hclash
  have hroutes : r.name ∉ platformNames w.routes := by
    intro hmem
    obtain ⟨r', hr', hname⟩ := List.mem_map.1 hmem
    obtain ⟨hr', hplatform⟩ := List.mem_filter.1 hr'
    refine hclash r' hplatform ?_ hname
    simpa using List.any_eq_false.1 hown r' (List.mem_append_left _ hr')
  have hinserted : r.name ∉ w.inserted.map (fun e => e.2.name) := by
    intro hmem
    obtain ⟨e, he, hname⟩ := List.mem_map.1 hmem
    refine hclash e.2 (h.platform e he) ?_ hname
    by_cases hei : e.1 = i
    · have hmine : e.2 ∈ w.own i :=
        List.mem_map.2 ⟨e, List.mem_filter.2 ⟨he, by simpa using hei⟩, rfl⟩
      simpa using List.any_eq_false.1 hown e.2 (List.mem_append_right _ hmine)
    · simpa [hei] using List.any_eq_false.1 hothers e he
  refine ⟨?_, ?_, h.kept, h.tenants⟩
  · simp only [List.map_append, List.map_cons, List.map_nil, ← List.append_assoc]
    refine List.nodup_append.2 ⟨h.names, List.nodup_singleton _, ?_⟩
    intro a ha b hb
    rw [List.mem_singleton.1 hb]
    rintro rfl
    rcases List.mem_append.1 ha with ha | ha
    · exact hroutes ha
    · exact hinserted ha
  · intro e he
    rcases List.mem_append.1 he with he | he
    · exact h.platform e he
    · rw [List.mem_singleton.1 he]
      exact hr

/-! ### The commit -/

@[simp] lemma relabel_name (vendors : List (String × String)) (r : ModelRoute) :
    (relabel vendors r).name = r.name := by
  unfold relabel
  split <;> rfl

@[simp] lemma relabel_ownerScope (vendors : List (String × String)) (r : ModelRoute) :
    (relabel vendors r).ownerScope = r.ownerScope := by
  unfold relabel
  split <;> rfl

@[simp] lemma relabel_isPlatform (vendors : List (String × String)) (r : ModelRoute) :
    (relabel vendors r).isPlatform = r.isPlatform := by
  unfold relabel
  split <;> rfl

lemma platformNames_relabel (vendors : List (String × String)) (routes : List ModelRoute) :
    platformNames (routes.map (relabel vendors)) = platformNames routes := by
  unfold platformNames
  rw [List.filter_map, List.map_map]
  have hname : ModelRoute.name ∘ relabel vendors = ModelRoute.name := by
    funext r
    simp
  have hplatform : ModelRoute.isPlatform ∘ relabel vendors = ModelRoute.isPlatform := by
    funext r
    simp
  rw [hname, hplatform]

lemma tenantRoutes_relabel (vendors : List (String × String)) (routes : List ModelRoute) :
    tenantRoutes (routes.map (relabel vendors)) = tenantRoutes routes := by
  unfold tenantRoutes
  rw [List.filter_map, List.map_map]
  have hscope : (fun r : ModelRoute => decide (r.ownerScope = .tenant)) ∘ relabel vendors =
      fun r => decide (r.ownerScope = .tenant) := by
    funext r
    simp
  have hvendor : (fun r : ModelRoute => { r with vendor := none }) ∘ relabel vendors =
      fun r => { r with vendor := none } := by
    funext r
    simp only [Function.comp_apply, relabel]
    split <;> rfl
  rw [hscope, hvendor]

lemma platformNames_append (l l' : List ModelRoute) :
    platformNames (l ++ l') = platformNames l ++ platformNames l' := by
  simp [platformNames]

lemma tenantRoutes_append (l l' : List ModelRoute) :
    tenantRoutes (l ++ l') = tenantRoutes l ++ tenantRoutes l' := by
  simp [tenantRoutes]

lemma mem_own (h : Inv rows w) : ∀ r ∈ w.own i, r.isPlatform = true := by
  intro r hr
  obtain ⟨e, he, rfl⟩ := List.mem_map.1 hr
  exact h.platform e (List.mem_of_mem_filter he)

lemma platformNames_of_platform {l : List ModelRoute} (h : ∀ r ∈ l, r.isPlatform = true) :
    platformNames l = l.map ModelRoute.name := by
  rw [platformNames, List.filter_eq_self.2 h]

lemma tenantRoutes_of_platform {l : List ModelRoute} (h : ∀ r ∈ l, r.isPlatform = true) :
    tenantRoutes l = [] := by
  have hnone : l.filter (fun r => decide (r.ownerScope = .tenant)) = [] := by
    refine List.filter_eq_nil_iff.2 (fun r hr => ?_)
    have hplatform := h r hr
    simp only [ModelRoute.isPlatform, decide_eq_true_eq] at hplatform
    simp [hplatform.1]
  rw [tenantRoutes, hnone, List.map_nil]

/-- The state of the database after a commit that deletes nothing. -/
def World.committed (w : World ι) (i : ι) (vendors : List (String × String)) : World ι :=
  World.settle { w with routes := w.routes.map (relabel vendors) ++ w.own i } i noEdits

lemma platformNames_committed (h : Inv rows w) (vendors : List (String × String)) :
    platformNames (w.committed i vendors).routes =
      platformNames w.routes ++ (w.own i).map ModelRoute.name := by
  unfold World.committed
  rw [settle_routes, platformNames_append, platformNames_relabel,
    platformNames_of_platform (mem_own h)]

lemma inv_committed (h : Inv rows w) (vendors : List (String × String)) :
    Inv rows (w.committed i vendors) := by
  have hperm : ((w.own i).map ModelRoute.name ++
      (w.inserted.filter (fun e => e.1 ≠ i)).map (fun e => e.2.name)).Perm
        (w.inserted.map (fun e => e.2.name)) := by
    have hsplit := (List.filter_append_perm (fun e => decide (e.1 = i)) w.inserted).map
      (fun e => e.2.name)
    simpa [World.own, List.map_map, Function.comp_def] using hsplit
  refine ⟨?_, fun e he => h.platform e (List.mem_of_mem_filter he), fun j => ?_, ?_⟩
  · rw [platformNames_committed h, List.append_assoc]
    exact (hperm.append_left _).nodup_iff.2 h.names
  · by_cases hj : j = i
    · subst hj
      simp [World.committed, World.settle, noEdits]
    · simpa [World.committed, World.settle, hj] using h.kept j
  · unfold World.committed
    rw [settle_routes, tenantRoutes_append, tenantRoutes_relabel,
      tenantRoutes_of_platform (mem_own h), List.append_nil]
    exact h.tenants

lemma rely_committed (h : Inv rows w) {j : ι} (hj : j ≠ i) (vendors : List (String × String)) :
    Rely j w (w.committed i vendors) := by
  refine ⟨?_, .inr ⟨by simp [World.committed, World.settle, hj], own_settle hj _⟩⟩
  rw [platformNames_committed h]
  exact List.subset_append_left _ _

/-- Nothing is deleted, so that a commit of a live transaction makes its inserts rows. -/
lemma commit_eq (h : Inv rows w) :
    (w.edits i = none ∧ commit i w = (.error .external, w)) ∨
      ∃ e, w.edits i = some e ∧ commit i w = (.ok (), w.committed i e.vendors) := by
  unfold commit
  cases he : w.edits i with
  | none => exact .inl ⟨rfl, rfl⟩
  | some e => exact .inr ⟨e, rfl, by simp [World.committed, h.kept i e he]⟩

/-! ### Every call -/

/-- The calls of a registration that does not prune: it inserts platform routes only, and it deletes
nothing. -/
def Plain : catalogApi.Call → Prop
  | .inr (.insertRoute r) => r.isPlatform = true
  | .inr (.deleteRoutes _) => False
  | _ => True

/-- A step keeps the invariant and what the others rely on. -/
def Kept (rows : List ModelRoute) (i : ι) (w w' : World ι) : Prop :=
  Inv rows w' ∧ ∀ j, j ≠ i → Rely j w w'

lemma kept_self (h : Inv rows w) : Kept rows i w w := ⟨h, fun j _ => Rely.refl j w⟩

lemma kept_settle (h : Inv rows w) {e : Option Edits} (he : ∀ e' ∈ e, e'.deleted = []) :
    Kept rows i w (w.settle i e) := ⟨inv_settle h he, fun _ hj => rely_settle hj e⟩

lemma kept_updateVendors (h : Inv rows w) (changes : List (String × String)) :
    Kept rows i w (updateVendors i w changes).2 := by
  unfold updateVendors
  cases he : w.edits i with
  | none => exact kept_self h
  | some e =>
      dsimp only
      split_ifs with hall
      · refine ⟨⟨h.names, h.platform, fun j e' he' => ?_, h.tenants⟩, fun j hj => rely_edits hj _⟩
        by_cases hj : j = i
        · subst hj
          simp only [Function.update_self, Option.mem_def, Option.some.injEq] at he'
          rw [← he']
          exact h.kept j e he
        · change e' ∈ Function.update w.edits i _ j at he'
          rw [Function.update_of_ne hj] at he'
          exact h.kept j e' he'
      · exact kept_settle h (by simp)

lemma kept_insertRoute (h : Inv rows w) {r : ModelRoute} (hr : r.isPlatform = true)
    {s : Except PyErr Unit × World ι} (hs : insertRoute i w r = some s) : Kept rows i w s.2 := by
  unfold insertRoute at hs
  split_ifs at hs with hnone hwait hrefused
  · cases hs
    exact kept_self h
  · cases hs
    exact kept_settle h (by simp)
  · cases hs
    exact ⟨inv_insert h hr (by simpa using hwait) (by simpa using hrefused),
      fun j hj => rely_insert hj r⟩

lemma kept_commit (h : Inv rows w) : Kept rows i w (commit i w).2 := by
  rcases commit_eq h (i := i) with ⟨-, heq⟩ | ⟨e, -, heq⟩
  · rw [heq]
    exact kept_self h
  · rw [heq]
    exact ⟨inv_committed h _, fun j hj => rely_committed h hj _⟩

lemma kept_serve {catalogs : ι → List HubModel} (h : Inv rows w) {o : catalogApi.Call}
    (ho : Plain o) {x : Pick} {r : catalogApi.Reply o} {w' : World ι}
    (hs : serve catalogs i w o x = some (r, w')) : Kept rows i w w' := by
  unfold serve at hs
  split at hs
  · cases hs
    exact kept_self h
  · cases hs
    exact kept_self h
  · cases hs
    exact kept_self h
  · cases hs
    exact kept_self h
  · obtain rfl : (updateVendors i w _).2 = w' := congrArg Prod.snd (Option.some.inj hs)
    exact kept_updateVendors h _
  · exact kept_insertRoute h ho hs
  · exact ho.elim
  · obtain rfl : (commit i w).2 = w' := congrArg Prod.snd (Option.some.inj hs)
    exact kept_commit h
  · cases hs
    exact kept_settle h (by simp [noEdits])

end Steps

omit [DecidableEq ι] in
lemma inv_of_settled {w : World ι} (h : w.Settled) : Inv w.routes w := by
  refine ⟨by simpa [h.inserted] using h.index, by simp [h.inserted], fun i e he => ?_, rfl⟩
  rw [h.edits i] at he
  cases he
  rfl

/-- The registrations under interference.  A registration relies on the others to keep the platform
routes of the table, and every step of a registration keeps the invariant. -/
def discipline (catalogs : ι → List HubModel) (rows : List ModelRoute) :
    Discipline (env catalogs) where
  inv := Inv rows
  rely := Rely
  busy _ _ := True
  rely_refl := Rely.refl
  rely_trans _ _ _ _ := Rely.trans
  drift_inv h hd := by
    cases hd with
    | mk i => exact inv_settle h (by simp)
  drift_rely j _ hd := by
    cases hd with
    | mk i =>
        by_cases hj : j = i
        · subst hj
          exact ⟨List.Subset.refl _, .inl (by simp [World.settle])⟩
        · exact rely_settle hj none

/-! ## The registration -/

section Registration

variable {catalogs : ι → List HubModel} {rows : List ModelRoute} {i : ι} {w : World ι}

/-- Every model of the registration has its route: the names that its hub offers are among those of
the platform routes of the table. -/
def Routed (catalogs : ι → List HubModel) (i : ι) (w : World ι) : Prop :=
  offered (catalogs i) ⊆ platformNames w.routes

/-- Where the index has refused a row, every model has its route. -/
def Refused (catalogs : ι → List HubModel) (i : ι) (e : PyErr) (w : World ι) : Prop :=
  e = .integrity → Routed catalogs i w

/-- These names are known to have routes, and the transaction holds these rows unless it is
aborted. -/
structure Holds (i : ι) (known : List String) (held : List ModelRoute) (w : World ι) : Prop where
  known : known ⊆ platformNames w.routes
  held : w.edits i = none ∨ w.own i = held

lemma Holds.rely {known : List String} {held : List ModelRoute} {w' : World ι} (hR : Rely i w w')
    (h : Holds i known held w) : Holds i known held w' := by
  refine ⟨List.Subset.trans h.known hR.grows, ?_⟩
  rcases hR.same with hnone | ⟨hedits, hown⟩
  · exact .inl hnone
  · exact h.held.imp (fun hnone => hedits.trans hnone) (fun heq => hown.trans heq)

/-- The registration may go on here. -/
abbrev Goes (catalogs : ι → List HubModel) (rows : List ModelRoute) (i : ι) {α : Type}
    (p : Handler α) (Q : α → World ι → Prop) (X : PyErr → World ι → Prop) (w : World ι) : Prop :=
  (discipline catalogs rows).wpE (Covered catalogs) i p Q X w

/-- The rule for a call: the index is the only one to raise `IntegrityError`. -/
lemma goes_ask {o : Call} (ho : Plain (.inr o)) {Q : o.Answer → World ι → Prop}
    (hQ : ∀ w₁ x b w₂, Rely i w w₁ → Inv rows w₁ →
      serve catalogs i w₁ (.inr o) x = some (.ok b, w₂) → Q b w₂)
    (hX : ∀ w₁ x w₂, Rely i w w₁ → serve catalogs i w₁ (.inr o) x = some (.error .integrity, w₂) →
      Covered catalogs i w₁ (.inr o) (.error .integrity) → Routed catalogs i w₂) :
    Goes catalogs rows i (ask o) Q (Refused catalogs i) w := by
  refine Discipline.wpE_ask (fun w₁ hR hI => ⟨trivial, fun x r w₂ ha hok => ?_⟩)
  have hraised : ∀ e, mayFail (.inr o) e = true → e ≠ .integrity := by
    rintro e he rfl
    simp [mayFail] at he
  rcases Env.faulty_act ha with ⟨x, r₀, hs, hr⟩ | ⟨rfl, e, he, rfl⟩
  · obtain ⟨hI₂, hG⟩ := kept_serve hI ho hs
    refine ⟨hI₂, hG, fun b hb => ?_, fun e he hint => ?_⟩
    · rcases hr with rfl | ⟨e, -, rfl⟩
      · exact hQ w₁ x b w₂ hR hI (hb ▸ hs)
      · cases hb
    · subst he hint
      rcases hr with hr | ⟨e, he, hr⟩
      · subst hr
        exact hX w₁ x w₂ hR hs hok
      · cases hr
        exact absurd rfl (hraised _ he)
  · refine ⟨hI, fun j _ => Rely.refl j _, fun b hb => ?_, fun e' he' hint => ?_⟩
    · cases hb
    · cases he'
      exact absurd hint (hraised _ he)

/-- The management API does not touch the database, so a part of the registration that only calls
the API keeps what holds of the rows. -/
lemma goes_apis {α : Type} {P : World ι → Prop} (hP : ∀ w w', Rely i w w' → P w → P w')
    (p : Prog.Raising apisApi α) (hw : P w) :
    Goes catalogs rows i (Prog.Raising.inl sessionApi p) (fun _ => P) (fun _ _ => True) w := by
  have hany : ∀ {β : Type} (q : Prog apisApi β) {w : World ι}, P w →
      (discipline catalogs rows).left.wp (Covered catalogs).left i q (fun _ => P) w := by
    intro β q
    induction q with
    | done b => exact fun hw => hw
    | call o k ih =>
        intro w hw w₁ hR hI
        refine ⟨trivial, fun x r w₂ ha _ => ?_⟩
        have hsame : w₂ = w₁ := by
          have hact : (env catalogs).act i w₁ (.inl o) x = some (r, w₂) := ha
          rcases Env.faulty_act hact with ⟨x, r₀, hs, -⟩ | ⟨hsame, -⟩
          · cases hs
            rfl
          · exact hsame
        subst hsame
        exact ⟨hI, fun j _ => Rely.refl j _, ih r (hP w w₂ hR hw)⟩
  refine Discipline.wpE_inl.2 (Discipline.wp_mono (fun r w hr => ?_) (hany p.run hw))
  cases r with
  | ok a => exact hr
  | error e => trivial

lemma goes_fetch (fqdn adminToken : String) (hw : Holds i [] [] w) :
    Goes catalogs rows i (ask (.fetchHubModels fqdn adminToken))
      (fun catalog w => catalog = catalogs i ∧ Holds i [] [] w) (Refused catalogs i) w := by
  refine goes_ask (o := .fetchHubModels fqdn adminToken) trivial (fun w₁ x b w₂ hR _ hs => ?_)
    (fun w₁ x w₂ _ hs _ => ?_)
  · cases hs
    exact ⟨rfl, hw.rely hR⟩
  · cases hs

lemma goes_readRoutes (hw : Holds i [] [] w) :
    Goes catalogs rows i (ask .readRoutes)
      (fun allRoutes w => Holds i (platformNames allRoutes) [] w) (Refused catalogs i) w := by
  refine goes_ask (o := .readRoutes) trivial (fun w₁ x b w₂ hR _ hs => ?_)
    (fun w₁ x w₂ _ hs _ => ?_)
  · cases hs
    exact ⟨List.Subset.refl _, (hw.rely hR).held⟩
  · cases hs

lemma goes_rollback (hw : Routed catalogs i w) :
    Goes catalogs rows i (ask .rollback) (fun _ => Routed catalogs i) (Refused catalogs i) w := by
  refine goes_ask (o := .rollback) trivial (fun w₁ x b w₂ hR _ hs => ?_)
    (fun w₁ x w₂ _ hs _ => ?_)
  · cases hs
    exact List.Subset.trans hw hR.grows
  · cases hs

/-- The wiring keeps the models of every group: the pools that it hands on are built for the models
that it has been given, none of them lost. -/
lemma goes_ensurePools {P : World ι → Prop} (hP : ∀ w w', Rely i w w' → P w → P w')
    (groups : List (Provider × List String)) (hw : P w) :
    Goes catalogs rows i (ensurePools groups)
      (fun pooled w => P w ∧ pooled.flatMap (·.2.2) = groups.flatMap (·.2))
        (fun _ _ => True) w := by
  induction groups generalizing w with
  | nil => exact ⟨hw, rfl⟩
  | cons group rest ih =>
      obtain ⟨prov, mids⟩ := group
      refine Discipline.wpE_then (goes_apis hP _ hw) (fun poolId w hw => ?_)
      refine Discipline.wpE_then (ih hw) (fun pooled w hpooled => ?_)
      exact ⟨hpooled.1, by simp [hpooled.2]⟩

/-! ### The new rows -/

/-- The new rows are platform routes, and cover the models that are not known. -/
structure Adds (existing mids : List String) (routes : List ModelRoute) : Prop where
  platform : ∀ r ∈ routes, r.isPlatform = true
  covers : ∀ m ∈ mids, m ∈ existing ∨ m ∈ routes.map ModelRoute.name

/-- A call that only answers: it keeps whatever survives the steps of the others. -/
lemma goes_newId {P : World ι → Prop} (hP : ∀ w w', Rely i w w' → P w → P w') (hw : P w) :
    Goes catalogs rows i (ask .newId) (fun _ => P) (fun _ _ => True) w := by
  refine Discipline.wpE_mono (fun _ _ h => h) (fun _ _ _ => trivial)
    (goes_ask (o := .newId) trivial (fun w₁ x hex w₂ hR _ hs => ?_) (fun w₁ x w₂ _ hs _ => ?_))
  · cases hs
    exact hP w _ hR hw
  · cases hs

/-- The loop over the models of a pool: each model ends up among the existing names or among those
that are skipped.  The induction is on the models, and the names that exist grow along it. -/
lemma goes_addModels {P : World ι → Prop} (hP : ∀ w w', Rely i w w' → P w → P w') (prov : Provider)
    (poolId : String) (mids : List String) {existing : List String} (hw : P w) :
    Goes catalogs rows i (addModels prov poolId existing mids)
      (fun res w => P w ∧ Adds existing (mids ++ res.2) res.1) (fun _ _ => True) w := by
  induction mids generalizing w existing with
  | nil => exact ⟨hw, by simp, fun m hm => .inl hm⟩
  | cons mid mids ih =>
      unfold addModels
      split_ifs with hknown
      · refine Discipline.wpE_mono (fun res w hres => ⟨hres.1, hres.2.platform, ?_⟩)
          (fun _ _ h => h) (ih hw)
        intro m hm
        rcases List.mem_cons.1 hm with rfl | hm
        · exact .inl hknown
        · exact hres.2.covers m hm
      · refine Discipline.wpE_then (goes_newId hP hw) (fun hex w hw => ?_)
        refine Discipline.wpE_then (ih hw) (fun res w hres => ?_)
        obtain ⟨routes, known⟩ := res
        obtain ⟨hw, hadds⟩ := hres
        refine ⟨hw, ?_, ?_⟩
        · intro r hr
          rcases List.mem_cons.1 hr with rfl | hr
          · simp [platformRoute, ModelRoute.isPlatform]
          · exact hadds.platform r hr
        · intro m hm
          have hmem : m ∈ mid :: existing ∨ m ∈ routes.map ModelRoute.name := by
            rcases List.mem_cons.1 hm with rfl | hm
            · exact .inl List.mem_cons_self
            · exact hadds.covers m hm
          simp only [List.mem_cons, List.map_cons, platformRoute] at hmem ⊢
          tauto

lemma goes_addRoutes {P : World ι → Prop} (hP : ∀ w w', Rely i w w' → P w → P w')
    (pooled : List (Provider × String × List String)) {existing : List String} (hw : P w) :
    Goes catalogs rows i (addRoutes existing pooled)
      (fun routes w => P w ∧ Adds existing (pooled.flatMap (·.2.2)) routes)
        (fun _ _ => True) w := by
  induction pooled generalizing w existing with
  | nil => exact ⟨hw, by simp, by simp⟩
  | cons group rest ih =>
      obtain ⟨prov, poolId, mids⟩ := group
      refine Discipline.wpE_then (goes_addModels hP prov poolId mids hw) (fun res w hres => ?_)
      obtain ⟨routes, known⟩ := res
      obtain ⟨hw, hadds⟩ := hres
      refine Discipline.wpE_then (ih hw) (fun more w hmore => ?_)
      refine ⟨hmore.1, ?_, ?_⟩
      · intro r hr
        rcases List.mem_append.1 hr with hr | hr
        · exact hadds.platform r hr
        · exact hmore.2.platform r hr
      · intro m hm
        have hknown : m ∈ mids ∨ m ∈ known → m ∈ existing ∨ m ∈ routes.map ModelRoute.name :=
          fun h => hadds.covers m (List.mem_append.2 h)
        have hlater : m ∈ rest.flatMap (·.2.2) → m ∈ known ∨ m ∈ more.map ModelRoute.name :=
          hmore.2.covers m
        simp only [List.flatMap_cons, List.mem_append, List.map_append] at hm ⊢
        tauto

/-! ### The transaction -/

variable {known : List String} {held : List ModelRoute}

lemma goes_updateVendors (changes : List (String × String)) (hw : Holds i known held w) :
    Goes catalogs rows i (ask (.updateVendors changes)) (fun _ => Holds i known held)
      (Refused catalogs i) w := by
  refine goes_ask (o := .updateVendors changes) trivial (fun w₁ x b w₂ hR _ hs => ?_)
    (fun w₁ x w₂ _ hs _ => ?_)
  · have hupdate : updateVendors i w₁ changes = (.ok b, w₂) := Option.some.inj hs
    obtain ⟨hknown, hheld⟩ := hw.rely hR
    unfold updateVendors at hupdate
    split at hupdate
    · cases hupdate
    · next e he =>
      split_ifs at hupdate with hall
      · cases hupdate
        exact ⟨hknown, .inr (hheld.resolve_left (by simp [he]))⟩
      · cases hupdate
  · have hupdate : updateVendors i w₁ changes = (.error .integrity, w₂) := Option.some.inj hs
    unfold updateVendors at hupdate
    split at hupdate
    · cases hupdate
    · split_ifs at hupdate <;> cases hupdate

lemma goes_insertRoute {r : ModelRoute} (hr : r.isPlatform = true) (hw : Holds i known held w) :
    Goes catalogs rows i (ask (.insertRoute r)) (fun _ => Holds i known (held ++ [r]))
      (Refused catalogs i) w := by
  refine goes_ask (o := .insertRoute r) hr (fun w₁ x b w₂ hR _ hs => ?_)
    (fun w₁ x w₂ _ hs hok => ?_)
  · change insertRoute i w₁ r = some (.ok b, w₂) at hs
    unfold insertRoute at hs
    split_ifs at hs with hnone hwait hrefused
    · cases hs
    · cases hs
    · cases hs
      obtain ⟨hknown, hheld⟩ := hw.rely hR
      have hmine : w₁.own i = held := hheld.resolve_left (by simpa using hnone)
      refine ⟨hknown, .inr ?_⟩
      rw [← hmine]
      simp [World.own]
  · change insertRoute i w₁ r = some (.error .integrity, w₂) at hs
    unfold insertRoute at hs
    split_ifs at hs with hnone hwait hrefused
    · cases hs
    · cases hs
      exact hok
    · cases hs

lemma goes_commit (hw : Holds i known held w) :
    Goes catalogs rows i (ask .commit)
      (fun _ w => known ++ held.map ModelRoute.name ⊆ platformNames w.routes)
      (Refused catalogs i) w := by
  refine goes_ask (o := .commit) trivial (fun w₁ x b w₂ hR hI hs => ?_) (fun w₁ x w₂ _ hs _ => ?_)
  · have hcommit : commit i w₁ = (.ok b, w₂) := Option.some.inj hs
    obtain ⟨hknown, hheld⟩ := hw.rely hR
    rcases commit_eq hI (i := i) with ⟨-, heq⟩ | ⟨e, he, heq⟩
    · rw [heq] at hcommit
      cases hcommit
    · rw [heq] at hcommit
      cases hcommit
      have hmine : w₁.own i = held := hheld.resolve_left (by simp [he])
      rw [platformNames_committed hI, hmine]
      exact List.append_subset.2 ⟨List.subset_append_of_subset_left _ hknown,
        List.subset_append_right _ _⟩
  · have hcommit : commit i w₁ = (.error .integrity, w₂) := Option.some.inj hs
    unfold commit at hcommit
    split at hcommit <;> cases hcommit

lemma goes_inserts {created : List ModelRoute} (hcreated : ∀ r ∈ created, r.isPlatform = true)
    (hw : Holds i known [] w) :
    Goes catalogs rows i (created.forM (fun route => ask (.insertRoute route)))
      (fun _ => Holds i known created) (Refused catalogs i) w := by
  have hloop : Goes catalogs rows i (created.forM (fun route => ask (.insertRoute route)))
      (fun _ w => ∃ held, held ++ [] = created ∧ Holds i known held w) (Refused catalogs i) w := by
    refine Discipline.wpE_forM
      (P := fun rest w => ∃ held, held ++ rest = created ∧ Holds i known held w) ?_ ⟨[], rfl, hw⟩
    rintro route rest w ⟨held, hall, hheld⟩
    have hroute : route.isPlatform = true := hcreated route (by simp [← hall])
    exact Discipline.wpE_mono (fun _ w hw => ⟨held ++ [route], by simp [hall], hw⟩)
      (fun _ _ h => h) (goes_insertRoute hroute hheld)
  refine Discipline.wpE_mono (fun _ w hdone => ?_) (fun _ _ h => h) hloop
  obtain ⟨held, hall, hheld⟩ := hdone
  rw [List.append_nil] at hall
  exact hall ▸ hheld

/-- The commit of a registration that does not prune.  If it returns, the table has the rows that
were known and those that were created; if the index refuses a row, every model has its route
already. -/
lemma goes_commitAll (changes : List (String × String)) {created : List ModelRoute}
    (hcreated : ∀ r ∈ created, r.isPlatform = true) (hw : Holds i known [] w) :
    Goes catalogs rows i (commitAll changes created [])
      (fun _ w => known ++ created.map ModelRoute.name ⊆ platformNames w.routes)
      (Refused catalogs i) w := by
  have hrest : ∀ {w}, Holds i known [] w → Goes catalogs rows i (do
      created.forM (fun route => ask (.insertRoute route))
      ask .commit) (fun _ w => known ++ created.map ModelRoute.name ⊆ platformNames w.routes)
      (Refused catalogs i) w := fun hw =>
    Discipline.wpE_then (goes_inserts hcreated hw) (fun _ w hheld => goes_commit hheld)
  unfold commitAll
  split_ifs with hnone
  · exact absurd rfl hnone
  · exact absurd rfl hnone
  · exact Discipline.wpE_then (goes_updateVendors changes hw) (fun _ w hw => hrest hw)
  · exact hrest hw

/-- A refused row is rolled back; the other exceptions go on. -/
lemma goes_recover {e : PyErr} (hw : Refused catalogs i e w) :
    Goes catalogs rows i (match e with
      | .integrity => ask .rollback
      | e => throw e) (fun _ => Routed catalogs i) (fun _ _ => True) w := by
  by_cases he : e = .integrity
  · subst he
    exact Discipline.wpE_mono (fun _ _ h => h) (fun _ _ _ => trivial) (goes_rollback (hw rfl))
  · cases e <;> first | exact absurd rfl he | trivial

/-- A registration that returns has a route for each of its models. -/
lemma goes_register (fqdn adminToken : String) (hw : Holds i [] [] w) :
    Goes catalogs rows i (registerHubCatalog fqdn adminToken false) (fun _ => Routed catalogs i)
      (fun _ _ => True) w := by
  have hstable : ∀ known w w', Rely i w w' → Holds i known [] w → Holds i known [] w' :=
    fun _ _ _ hR h => h.rely hR
  unfold registerHubCatalog
  refine (Discipline.wpE_bind _ _).2 (Discipline.wpE_mono (fun catalog w h => ?_)
    (fun _ _ _ => trivial) (goes_fetch fqdn adminToken hw))
  obtain ⟨rfl, hw⟩ := h
  have hgroups : ∀ m ∈ offered (catalogs i),
      m ∈ (byProvider (chatModels (catalogs i))).flatMap (·.2) :=
    fun m hm => mem_byProvider.2 hm
  simp only [Bool.false_eq_true, if_false]
  split_ifs with hempty
  · intro m hm
    have hgroup := hgroups m hm
    simp [hempty] at hgroup
  refine Discipline.wpE_then (goes_ensurePools (hstable []) _ hw) (fun pooled w h => ?_)
  obtain ⟨hw, hpooled⟩ := h
  refine (Discipline.wpE_bind _ _).2 (Discipline.wpE_mono (fun allRoutes w hw => ?_)
    (fun _ _ _ => trivial) (goes_readRoutes hw))
  refine Discipline.wpE_then (goes_addRoutes (hstable (platformNames allRoutes)) pooled hw) (fun
    created w h => ?_)
  obtain ⟨hw, hadds⟩ := h
  have hcovers : offered (catalogs i) ⊆ platformNames allRoutes ++ created.map ModelRoute.name :=
    fun m hm => List.mem_append.2 (hadds.covers m (hpooled ▸ hgroups m hm))
  refine (Discipline.wpE_tryCatch _ _).2 (Discipline.wpE_mono
    (fun _ w hdone => List.Subset.trans hcovers hdone) (fun e w hrefused => goes_recover hrefused)
    (goes_commitAll (backfill allRoutes) hadds.platform hw))

end Registration

/-- **Catalog registration converges.**  If the models of a registration have their routes whenever
one of its rows is refused, a registration that has returned has exactly one platform route for each
of its chat models, and no row of a tenant changes but in its vendor label. -/
theorem catalog_converges (catalogs : ι → List HubModel) (hubs : ι → String × String) {w : World ι}
    (hw : w.Settled) {c : Config catalogApi ι (World ι) (Except PyErr Unit)}
    (h : Reaches (env catalogs) (Covered catalogs) (start hubs w) c) :
    (∀ i, c.Returned i (.ok ()) → ∀ m ∈ offered (catalogs i),
      (platformNames c.world.routes).count m = 1) ∧
    tenantRoutes c.world.routes = tenantRoutes w.routes := by
  have hprog : ∀ i, (discipline catalogs w.routes).wp (Covered catalogs) i ((start hubs w).prog i)
      (fun r w' => r = .ok () → Routed catalogs i w') w := by
    intro i
    have hbegin : Holds i [] [] w := ⟨List.nil_subset _, .inr (by simp [World.own, hw.inserted])⟩
    refine Discipline.wp_mono (fun r w' hr => ?_)
      (goes_register (hubs i).1 (hubs i).2 hbegin)
    cases r with
    | ok _ => exact fun _ => hr
    | error e => exact fun he => nomatch he
  have hstable : ∀ i (r : Except PyErr Unit), (discipline catalogs w.routes).Stable i
      (fun w' => r = .ok () → Routed catalogs i w') :=
    fun i r w₁ w₂ hR _ hrouted hr => List.Subset.trans (hrouted hr) hR.grows
  have hinv : Inv w.routes c.world :=
    (Discipline.sound (c := start hubs w) hstable (inv_of_settled hw) hprog h).1
  refine ⟨fun i hi m hm => ?_, hinv.tenants⟩
  have hrouted := Discipline.returned_of_sound (c := start hubs w) hstable (inv_of_settled hw) hprog
    h hi rfl
  exact List.count_eq_one_of_mem (List.nodup_append.1 hinv.names).1 (hrouted hm)

end Database

/-! ## Two registrations at once -/

section Twice

/-- A database without routes, shared by two registrations of which neither has begun. -/
def noRoutes : World (Fin 2) := ⟨[], [], fun _ => noEdits⟩

lemma noRoutes_settled : noRoutes.Settled := ⟨List.nodup_nil, rfl, fun _ => rfl⟩

def chat (id : String) : HubModel := ⟨some id, some "chat"⟩

def hubs : Fin 2 → String × String := fun _ => ("hub.example", "token")

/-- One registration makes its next calls, with these digits for new ids. -/
def turn (i : Fin 2) (digits : List String) : List (Fin 2 × Fate Pick PyErr) :=
  digits.map (fun hex => (i, .served ⟨hex, none⟩))

/-- The calls before the first new id: the catalog, the wiring of one provider, the routes. -/
def prepared : List String := List.replicate 10 ""

/-- Both registrations read no routes; the first one commits, and the second one is refused. -/
def raced : List (Fin 2 × Fate Pick PyErr) :=
  let first : Fin 2 := ⟨0, Nat.zero_lt_two⟩
  let second : Fin 2 := ⟨1, Nat.one_lt_two⟩
  turn first (prepared ++ ["a0", "a1"]) ++ turn second (prepared ++ ["b0", "b1"]) ++
    turn first ["", "", ""] ++ turn second ["", ""]

/-- Two hubs with the same catalog; the registration that commits second clashes in every row. -/
def sameCatalog : Fin 2 → List HubModel := fun _ => [chat "gemini-3-pro", chat "gemini-3-flash"]

/-- The second one is refused, and finds every model of its catalog routed. -/
theorem catalog_converges_raced :
    ∃ c, Reaches (env sameCatalog) (Covered sameCatalog) (start hubs noRoutes) c ∧
      ∀ m ∈ offered (sameCatalog 1), (platformNames c.world.routes).count m = 1 := by
  obtain ⟨c, hreach, hreturned⟩ := Config.reaches_of_play (env sameCatalog) (Covered sameCatalog)
    (start hubs noRoutes) raced (fun c => c.Returned 1 (.ok ())) (by decide +kernel)
  exact ⟨c, hreach, (catalog_converges sameCatalog hubs noRoutes_settled hreach).1 1 hreturned⟩

/-- Two hubs that share one model, so that the rollback of the second registration takes with it a
model that only its own hub offers. -/
def overlapping : Fin 2 → List HubModel
  | 0 => [chat "gemini-3-pro", chat "gemini-3-flash"]
  | 1 => [chat "gemini-3-pro", chat "gemini-3-nano"]

/-- The refusal of the shared model takes the other one with it: both registrations return, and the
model that only the second hub serves has no route. -/
theorem model_lost :
    ¬ ∀ (catalogs : Fin 2 → List HubModel) (hubs : Fin 2 → String × String) (w : World (Fin 2)),
      w.Settled → ∀ c, Reaches (env catalogs) anyStep (start hubs w) c →
        (∀ i, c.Returned i (.ok ())) →
        (∀ i, ∀ m ∈ offered (catalogs i), (platformNames c.world.routes).count m = 1) ∧
          tenantRoutes c.world.routes = tenantRoutes w.routes := by
  intro hclaim
  obtain ⟨c, hreach, hreturned, hlost⟩ := Config.reaches_of_play (env overlapping) anyStep
    (start hubs noRoutes) raced
    (fun c => (∀ i, c.Returned i (.ok ())) ∧
      (platformNames c.world.routes).count "gemini-3-nano" = 0) (by decide +kernel)
  have hone := (hclaim overlapping hubs noRoutes noRoutes_settled c hreach hreturned).1 1
    "gemini-3-nano" (by decide +kernel)
  omega

end Twice

end HubCatalog
end TokenFoundry
