import TokenFoundry.Api.Routes
import TokenFoundry.Properties.CatalogRegistration

/-!
# What a resync deletes

A resync prunes the routes that the hub does not serve any more.  A row does not say who has made
it: the prune goes by the scope, and a route that an administrator adds has the scope of the
platform unless the request says otherwise.

Here every row carries its origin beside it.  `prune_safe_iff`: in every run of requests, every
resync deletes what it has to and nothing that it must not, if and only if, whenever it is
committed, the hub serves every model of the platform routes that administrators have made.
-/

set_option autoImplicit false

namespace TokenFoundry
namespace Resync

open Prog.Raising (exec ends ends_bind ends_mono ends_then ends_ask)
open HubCatalog (HubModel Edits clash relabel armAnswer catalogApi offered byProvider chatModels
  platformNames retired backfill commitAll addRoutes addModels ensurePools registerHubCatalog)
open RoutesApi (ModelRouteCreate ModelRouteUpdate routesApi)
open KeyLimits (NamedValue)
open Pools (Provider)

/-! ## The table -/

/-- Who has made a row: an administrator, or the registration of a catalog.  The database has no
column for this. -/
inductive Origin
  | admin
  | catalog
  deriving DecidableEq

/-- A row of the table, with the origin that the source does not record. -/
structure Row where
  origin : Origin
  route : ModelRoute

/-- The rows, the flushed part of the open transaction, and the number of registrations that have
been committed. -/
structure Database where
  rows : List Row
  inserted : List ModelRoute
  edits : Edits
  committed : ℕ

def Database.routes (d : Database) : List ModelRoute := d.rows.map Row.route

/-- The open transaction ends without effect, by a rollback or with its session. -/
def Database.dropped (d : Database) : Database := { d with inserted := [], edits := ⟨[], []⟩ }

/-- The open transaction of a registration is committed: the deletions and the labels reach the
table, and the inserts are appended. -/
def Database.commit (d : Database) : Database where
  rows := (d.rows.filter (fun row => row.route.id ∉ d.edits.deleted)).map
      (fun row => { row with route := relabel d.edits.vendors row.route }) ++
    d.inserted.map (fun r => ⟨.catalog, r⟩)
  inserted := []
  edits := ⟨[], []⟩
  committed := d.committed + 1

/-- No two rows have one id, those of the open transaction included. -/
def Database.Keyed (d : Database) : Prop :=
  (d.routes.map ModelRoute.id ++ d.inserted.map ModelRoute.id).Nodup

/-! ## The calls -/

/-- The database, and the number of calls that the request has made. -/
structure World where
  db : Database
  calls : ℕ

/-- What a request meets: the catalog of the hub, which of its calls raise and whether they have had
their effect, the digits of the new ids, and the named value of the limits. -/
structure Outcomes where
  catalog : List HubModel
  fails : ℕ → Option (PyErr × Bool)
  hex : ℕ → String
  namedValue : ℕ → Option NamedValue

/-- Any call may raise, before its effect or after; which call does is given by its number. -/
def fallible {E : Interface PyErr} (o : Outcomes)
    (answer : (c : E.Call) → World → E.Reply c × Database) (c : E.Call) (w : World) :
    E.Reply c × World :=
  match o.fails w.calls with
  | none => ((answer c w).1, ⟨(answer c w).2, w.calls + 1⟩)
  | some (e, took) => (.error e, ⟨if took then (answer c w).2 else w.db, w.calls + 1⟩)

/-- The calls of a registration.  Its rows are written by the commit only, and become rows of the
catalog. -/
def catalogAnswer (o : Outcomes) : (c : catalogApi.Call) → World → catalogApi.Reply c × Database
  | .inl c, w => (armAnswer (o.namedValue w.calls) c, w.db)
  | .inr (.fetchHubModels _ _), w => (.ok o.catalog, w.db)
  | .inr .readRoutes, w => (.ok w.db.routes, w.db)
  | .inr .newId, w => (.ok (o.hex w.calls), w.db)
  | .inr (.updateVendors changes), w =>
      (.ok (), { w.db with edits := { w.db.edits with vendors := changes } })
  | .inr (.insertRoute r), w =>
      if (w.db.routes ++ w.db.inserted).any (clash r) then (.error .integrity, w.db.dropped)
      else (.ok (), { w.db with inserted := w.db.inserted ++ [r] })
  | .inr (.deleteRoutes ids), w =>
      (.ok (), { w.db with edits := { w.db.edits with deleted := ids } })
  | .inr .commit, w => (.ok (), w.db.commit)
  | .inr .rollback, w => (.ok (), w.db.dropped)

/-- The calls of an administrator's request, each of which commits by itself. -/
def routesAnswer (o : Outcomes) : (c : routesApi.Call) → World → routesApi.Reply c × Database
  | .newId, w => (.ok (o.hex w.calls), w.db)
  | .setSecret _ _, w => (.ok (), w.db)
  | .ensureProviderApi .., w => (.ok (o.hex w.calls), w.db)
  | .insertRoute r, w =>
      if w.db.routes.any (clash r) then (.error .integrity, w.db)
      else (.ok (), { w.db with rows := w.db.rows ++ [⟨.admin, r⟩] })
  | .refreshRoute _, w => (.ok (), w.db)
  | .getRoute routeId, w => (.ok (w.db.routes.find? (·.id = routeId)), w.db)
  | .saveRoute r, w =>
      if w.db.routes.any (fun r' => r'.id ≠ r.id ∧ clash r r') then (.error .integrity, w.db)
      else (.ok (), { w.db with
        rows := w.db.rows.map
          (fun row => if row.route.id = r.id then { row with route := r } else row) })
  | .deleteSecret _, w => (.ok (), w.db)
  | .deleteRoute routeId, w =>
      (.ok (), { w.db with rows := w.db.rows.filter (·.route.id ≠ routeId) })

section Calls

variable {E : Interface PyErr} {o : Outcomes}
  (answer : (c : E.Call) → World → E.Reply c × Database) {w : World}

/-- The rule for a call that may raise: the exceptional postcondition has to hold with its effect
and without. -/
lemma ends_fallible {c : E.Call} {Q : E.Answer c → Database → Prop} {X : Database → Prop}
    (hok : ∀ a, (answer c w).1 = .ok a → Q a (answer c w).2) (hafter : X (answer c w).2)
    (hbefore : X w.db) :
    ends (fallible o answer) (@Prog.ask _ E c) (fun a w' => Q a w'.db) (fun _ w' => X w'.db) w := by
  refine ends_ask (fun a ha => ?_) (fun e he => ?_)
  · unfold fallible at ha ⊢
    cases hfails : o.fails w.calls with
    | none =>
        rw [hfails] at ha
        exact hok a ha
    | some failure =>
        rw [hfails] at ha
        cases ha
  · unfold fallible at he ⊢
    cases hfails : o.fails w.calls with
    | none => exact hafter
    | some failure =>
        obtain ⟨e', took⟩ := failure
        cases took with
        | true => exact hafter
        | false => exact hbefore

/-- What every call keeps, a program keeps, whether it returns or raises. -/
lemma ends_keeps {α : Type} {P : Database → Prop}
    (hanswer : ∀ c w', P w'.db → P (answer c w').2) (p : Prog.Raising E α) (hw : P w.db) :
    ends (fallible o answer) p (fun _ w' => P w'.db) (fun _ w' => P w'.db) w := by
  refine Prog.Raising.ends_always (P := fun w' : World => P w'.db) (fun c w' hP => ?_) p hw
  unfold fallible
  cases o.fails w'.calls with
  | none => exact hanswer c w' hP
  | some failure =>
      obtain ⟨e, took⟩ := failure
      cases took with
      | true => exact hanswer c w' hP
      | false => exact hP

end Calls

/-! ## The transaction of a registration -/

section Registration

variable (o : Outcomes) {w : World} {d : Database}

/-- The management API does not touch the table, and the loop over the providers calls nothing
else. -/
lemma ends_ensurePools (groups : List (Provider × List String)) (hw : w.db = d) :
    ends (fallible o (catalogAnswer o)) (ensurePools groups) (fun _ w' => w'.db = d)
      (fun _ w' => w'.db = d) w := by
  induction groups generalizing w with
  | nil => exact hw
  | cons group rest ih =>
      obtain ⟨prov, mids⟩ := group
      unfold ensurePools
      have hpool : ends (fallible o (catalogAnswer o))
          (Prog.Raising.inl HubCatalog.sessionApi (ProviderApis.ensurePooledProviderApi prov))
          (fun _ w' => w'.db = d) (fun _ w' => w'.db = d) w := by
        refine Prog.Raising.ends_inl.2 ?_
        exact ends_keeps (P := (· = d)) (fun c => catalogAnswer o (.inl c)) (fun c w' h => h) _ hw
      refine ends_then hpool (fun poolId w' hw' => ?_)
      exact ends_then (ih hw') (fun pooled w'' hw'' => hw'')

/-- New ids do not touch it either; the loop over the models only asks for them. -/
lemma ends_addModels (prov : Provider) (poolId : String) (existing mids : List String)
    (hw : w.db = d) :
    ends (fallible o (catalogAnswer o)) (addModels prov poolId existing mids)
      (fun _ w' => w'.db = d)
      (fun _ w' => w'.db = d) w := by
  induction mids generalizing existing w with
  | nil => exact hw
  | cons mid mids ih =>
      unfold addModels
      split_ifs
      · exact ih existing hw
      · refine ends_then (ends_fallible (catalogAnswer o) (c := .inr .newId) (Q := fun _ d' => d' =
          d) (X := (· = d)) (fun _ _ => hw) hw hw) (fun hex w' hw' => ?_)
        exact ends_then (ih (mid :: existing) hw') (fun res w'' hw'' => hw'')

lemma ends_addRoutes (existing : List String) (pooled : List (Provider × String × List String))
    (hw : w.db = d) :
    ends (fallible o (catalogAnswer o)) (addRoutes existing pooled) (fun _ w' => w'.db = d)
      (fun _ w' => w'.db = d) w := by
  induction pooled generalizing existing w with
  | nil => exact hw
  | cons group rest ih =>
      obtain ⟨prov, poolId, mids⟩ := group
      unfold addRoutes
      refine ends_then (ends_addModels o prov poolId existing mids hw) (fun res w' hw' => ?_)
      exact ends_then (ih res.2 hw') (fun more w'' hw'' => hw'')

/-- The transaction is open, and is going to delete these rows. -/
structure Open (d : Database) (removed : List String) (d' : Database) : Prop where
  rows : d'.rows = d.rows
  committed : d'.committed = d.committed
  deleted : d'.edits.deleted = removed
  keyed : d'.Keyed

/-- The rows are deleted, the others are relabelled, and rows with new ids are added. -/
def Pruned (d : Database) (removed : List String) (d' : Database) : Prop :=
  d'.committed = d.committed + 1 ∧ ∃ (vendors : List (String × String)) (created : List ModelRoute),
    d'.rows = (d.rows.filter (fun row => row.route.id ∉ removed)).map
        (fun row => { row with route := relabel vendors row.route }) ++
      created.map (fun r => ⟨.catalog, r⟩) ∧
    (d.routes.map ModelRoute.id ++ created.map ModelRoute.id).Nodup

/-- What a registration leaves: the rows as they were, or as they have been committed. -/
def Left (d : Database) (removed : List String) (d' : Database) : Prop :=
  d'.Keyed ∧ ((d'.rows = d.rows ∧ d'.committed = d.committed) ∨ Pruned d removed d')

lemma relabel_id (vendors : List (String × String)) (r : ModelRoute) :
    (relabel vendors r).id = r.id := by
  unfold relabel
  cases vendors.lookup r.id <;> rfl

lemma Database.routes_eq {d d' : Database} (h : d'.rows = d.rows) : d'.routes = d.routes := by
  unfold Database.routes
  rw [h]

lemma Database.Keyed.dropped (h : d.Keyed) : d.dropped.Keyed := by
  unfold Database.Keyed at h ⊢
  simpa [Database.dropped, Database.routes] using (List.nodup_append.1 h).1

/-- A row that is inserted beside the others has an id of its own. -/
lemma Database.Keyed.insert (h : d.Keyed) {r : ModelRoute}
    (hclash : (d.routes ++ d.inserted).any (clash r) = false) :
    Database.Keyed { d with inserted := d.inserted ++ [r] } := by
  unfold Database.Keyed at h ⊢
  have hnew : r.id ∉ (d.routes ++ d.inserted).map ModelRoute.id := by
    intro hmem
    obtain ⟨r', hr', hid⟩ := List.mem_map.1 hmem
    have hfree := List.any_eq_false.1 hclash r' hr'
    simp [clash, hid] at hfree
  have hall : ((d.routes ++ d.inserted).map ModelRoute.id ++ [r.id]).Nodup := by
    refine List.nodup_append.2 ⟨by simpa using h, by simp, ?_⟩
    intro id hid id' hid'
    rw [List.mem_singleton.1 hid']
    exact fun heq => hnew (heq ▸ hid)
  simpa [Database.routes, List.map_append, List.append_assoc] using hall

lemma ids_committed (deleted : List String) (vendors : List (String × String)) (rows : List Row) :
    ((rows.filter (fun row => row.route.id ∉ deleted)).map
      (fun row => ({ row with route := relabel vendors row.route } : Row))).map (·.route.id) =
    (rows.filter (fun row => row.route.id ∉ deleted)).map (·.route.id) := by
  rw [List.map_map]
  exact List.map_congr_left fun row _ => relabel_id vendors row.route

lemma Open.keyed_commit {removed : List String} {d' : Database} (h : Open d removed d') :
    d'.commit.Keyed := by
  have hkeyed := h.keyed
  unfold Database.Keyed Database.routes at hkeyed ⊢
  rw [List.map_map] at hkeyed
  simp only [Database.commit, List.map_append, List.map_map, List.map_nil, List.append_nil]
  have hids := ids_committed d'.edits.deleted d'.edits.vendors d'.rows
  rw [List.map_map] at hids
  change (List.map ((fun row : Row => row.route.id) ∘ _) _ ++ List.map ModelRoute.id _).Nodup
  rw [hids]
  exact hkeyed.sublist ((List.filter_sublist.map _).append_right _)

/-- The commit of an open transaction leaves the table that the registration has prepared. -/
lemma Open.commit {removed : List String} {d' : Database} (h : Open d removed d') :
    Left d removed d'.commit := by
  refine ⟨h.keyed_commit, .inr ⟨by simp [Database.commit, h.committed], d'.edits.vendors,
    d'.inserted, ?_, ?_⟩⟩
  · simp only [Database.commit, h.rows, h.deleted]
  · rw [← Database.routes_eq h.rows]
    exact h.keyed

lemma Open.left {removed : List String} {d' : Database} (h : Open d [] d') : Left d removed d' :=
  ⟨h.keyed, .inl ⟨h.rows, h.committed⟩⟩

lemma Left.dropped {removed : List String} {d' : Database} (h : Left d removed d') :
    Left d removed d'.dropped := ⟨h.1.dropped, h.2⟩

/-- The inserts of the flush: each is added to the open transaction, and a failure drops all of
them. -/
lemma ends_inserts (created : List ModelRoute) (removed : List String) (hw : Open d [] w.db) :
    ends (fallible o (catalogAnswer o))
      (created.forM (fun route => HubCatalog.ask (.insertRoute route)))
      (fun _ w' => Open d [] w'.db) (fun _ w' => Left d removed w'.db) w := by
  refine Prog.Raising.ends_forM (P := fun _ (w' : World) => Open d [] w'.db)
    (fun r rest w' hopen => ?_) hw
  refine ends_fallible (catalogAnswer o) (c := .inr (.insertRoute r)) (Q := fun _ => Open d [])
    (X := Left d removed) (fun a ha => ?_) ?_ hopen.left
  · simp only [catalogAnswer] at ha ⊢
    split_ifs at ha ⊢ with hclash
    exact ⟨hopen.rows, hopen.committed, hopen.deleted,
      hopen.keyed.insert (by simpa using hclash)⟩
  · simp only [catalogAnswer]
    split_ifs with hclash
    · exact hopen.left.dropped
    · exact ⟨hopen.keyed.insert (by simpa using hclash), .inl ⟨hopen.rows, hopen.committed⟩⟩

/-- The flush and the commit: the table is as before, or it has the deletions together with the
inserts. -/
lemma ends_commitAll (changes : List (String × String)) (created : List ModelRoute)
    (removed : List String) (hw : Open d [] w.db) :
    ends (fallible o (catalogAnswer o)) (commitAll changes created removed)
      (fun _ w' => Left d removed w'.db) (fun _ w' => Left d removed w'.db) w := by
  have hcommit : ∀ w', Open d removed w'.db → ends (fallible o (catalogAnswer o))
      (HubCatalog.ask .commit) (fun _ w' => Left d removed w'.db)
      (fun _ w' => Left d removed w'.db) w' := fun w' hopen =>
    ends_fallible (catalogAnswer o) (c := .inr .commit) (Q := fun _ => Left d removed)
      (X := Left d removed) (fun _ _ => hopen.commit) hopen.commit
      ⟨hopen.keyed, .inl ⟨hopen.rows, hopen.committed⟩⟩
  have hdelete : ∀ w', Open d [] w'.db → ends (fallible o (catalogAnswer o)) (do
      if removed ≠ [] then HubCatalog.ask (.deleteRoutes removed)
      HubCatalog.ask .commit) (fun _ w' => Left d removed w'.db)
      (fun _ w' => Left d removed w'.db) w' := by
    intro w' hopen
    split_ifs with hnone
    · refine ends_then (ends_fallible (catalogAnswer o) (c := .inr (.deleteRoutes removed)) (Q :=
        fun _ => Open d removed) (X := Left d removed) (fun _ _ => ?_) ?_ hopen.left) (fun _ w'' h
        => hcommit w'' h)
      · exact ⟨hopen.rows, hopen.committed, rfl, hopen.keyed⟩
      · exact ⟨hopen.keyed, .inl ⟨hopen.rows, hopen.committed⟩⟩
    · have hempty : removed = [] := by simpa using hnone
      exact hcommit w' (hempty ▸ hopen)
  have hinsert : ∀ w', Open d [] w'.db → ends (fallible o (catalogAnswer o)) (do
      created.forM (fun route => HubCatalog.ask (.insertRoute route))
      if removed ≠ [] then HubCatalog.ask (.deleteRoutes removed)
      HubCatalog.ask .commit) (fun _ w' => Left d removed w'.db)
      (fun _ w' => Left d removed w'.db) w' := fun w' hopen =>
    ends_then (ends_inserts o created removed hopen) (fun _ w'' h => hdelete w'' h)
  unfold commitAll
  by_cases hnone : changes ≠ []
  · dsimp only
    rw [if_pos hnone]
    refine ends_then (ends_fallible (catalogAnswer o) (c := .inr (.updateVendors changes)) (Q := fun
      _ => Open d []) (X := Left d removed) (fun _ _ => ?_) ?_ hw.left) (fun _ w' h => hinsert w' h)
    · exact ⟨hw.rows, hw.committed, hw.deleted, hw.keyed⟩
    · exact ⟨hw.keyed, .inl ⟨hw.rows, hw.committed⟩⟩
  · dsimp only
    rw [if_neg hnone]
    exact hinsert w hw

/-- The rows that a registration deletes: none without `prune`, and otherwise the platform rows
whose names the hub does not offer. -/
def doomed (d : Database) (prune : Bool) : List String :=
  if prune then retired ((byProvider (chatModels o.catalog)).flatMap (·.2)) d.routes else []

/-- A registration leaves the table as it was, or does all that it has to. -/
lemma ends_register (fqdn adminToken : String) (prune : Bool) (hw : Open d [] d)
    (hdb : w.db = d) :
    ends (fallible o (catalogAnswer o)) (registerHubCatalog fqdn adminToken prune)
      (fun _ w' => Left d (doomed o d prune) w'.db) (fun _ w' => Left d (doomed o d prune) w'.db)
      w := by
  have hkept : ∀ w' : World, w'.db = d → Left d (doomed o d prune) w'.db := by
    intro w' h
    rw [h]
    exact ⟨hw.keyed, .inl ⟨rfl, rfl⟩⟩
  unfold registerHubCatalog
  refine (ends_bind _ _).2 (ends_mono (fun rows w₁ h => ?_) (fun _ w₁ h => hkept w₁ h)
    (ends_fallible (catalogAnswer o) (c := .inr (.fetchHubModels fqdn adminToken))
      (Q := fun rows d' => rows = o.catalog ∧ d' = d) (X := (· = d))
        (fun rows hrows => ?_) hdb hdb))
  · obtain ⟨rfl, hdb₁⟩ := h
    dsimp only
    by_cases hempty : byProvider (chatModels o.catalog) = []
    · rw [if_pos hempty]
      exact hkept w₁ hdb₁
    rw [if_neg hempty]
    refine (ends_bind _ _).2 (ends_mono (fun pooled w₂ hdb₂ => ?_) (fun _ w₂ h => hkept w₂ h)
      (ends_ensurePools o _ hdb₁))
    refine (ends_bind _ _).2 (ends_mono (fun allRoutes w₃ h => ?_) (fun _ w₃ h => hkept w₃ h)
      (ends_fallible (catalogAnswer o) (c := .inr .readRoutes)
        (Q := fun allRoutes d' => allRoutes = d.routes ∧ d' = d) (X := (· = d))
        (fun allRoutes hroutes => ?_) hdb₂ hdb₂))
    · obtain ⟨rfl, hdb₃⟩ := h
      refine (ends_bind _ _).2 (ends_mono (fun created w₄ hdb₄ => ?_) (fun _ w₄ h => hkept w₄ h)
        (ends_addRoutes o (platformNames d.routes) pooled hdb₃))
      refine (Prog.Raising.ends_tryCatch _ _).2 (ends_mono (fun _ w₅ h => h) (fun e w₅ h => ?_)
        (ends_commitAll o (backfill d.routes) created (doomed o d prune) (hdb₄ ▸ hw)))
      by_cases he : e = .integrity
      · subst he
        exact ends_fallible (catalogAnswer o) (c := .inr .rollback)
          (Q := fun _ => Left d (doomed o d prune)) (X := Left d (doomed o d prune))
          (fun _ _ => h.dropped) h.dropped h
      · cases e <;> first | exact absurd rfl he | exact h
    · cases hroutes
      exact ⟨congrArg Database.routes hdb₂, hdb₂⟩
  · cases hrows
    exact ⟨rfl, hdb⟩

end Registration

/-! ## Runs -/

section Runs

variable {d d' : Database}

/-- A request about the routes, by an administrator or by the registration of a catalog, with the
outcomes of its calls. -/
inductive Request
  | add (body : ModelRouteCreate) (o : Outcomes)
  | update (routeId : String) (body : ModelRouteUpdate) (o : Outcomes)
  | delete (routeId : String) (o : Outcomes)
  /-- The registration of a catalog, by a deployment or by a resync. -/
  | register (fqdn adminToken : String) (prune : Bool) (o : Outcomes)

/-- The database after a request; what the session has not committed is lost. -/
def Request.after (d : Database) : Request → Database
  | .add body o =>
      (exec (fallible o (routesAnswer o)) (RoutesApi.addRoute body) ⟨d, 0⟩).2.db.dropped
  | .update routeId body o =>
      (exec (fallible o (routesAnswer o)) (RoutesApi.updateRoute routeId body) ⟨d, 0⟩).2.db.dropped
  | .delete routeId o =>
      (exec (fallible o (routesAnswer o)) (RoutesApi.deleteRoute routeId) ⟨d, 0⟩).2.db.dropped
  | .register fqdn adminToken prune o =>
      (exec (fallible o (catalogAnswer o)) (registerHubCatalog fqdn adminToken prune)
        ⟨d, 0⟩).2.db.dropped

/-- No transaction is open, as it is between two requests. -/
structure Database.Settled (d : Database) : Prop where
  keyed : d.Keyed
  inserted : d.inserted = []
  edits : d.edits = ⟨[], []⟩

lemma Database.Settled.begin (h : d.Settled) : Open d [] d := ⟨rfl, rfl, by rw [h.edits], h.keyed⟩

lemma Database.Keyed.settled (h : d.Keyed) : d.dropped.Settled := ⟨h.dropped, rfl, rfl⟩

lemma keyed_iff_routes (h : d.inserted = []) : d.Keyed ↔ (d.routes.map ModelRoute.id).Nodup := by
  unfold Database.Keyed
  rw [h, List.map_nil, List.append_nil]

lemma settled_of_routes (hids : (d.routes.map ModelRoute.id).Nodup) (hinserted : d.inserted = [])
    (hedits : d.edits = ⟨[], []⟩) : d.Settled :=
  ⟨(keyed_iff_routes hinserted).2 hids, hinserted, hedits⟩

/-- The requests of the administrators keep the ids apart, since the table refuses a second row
under an id. -/
lemma settled_routesAnswer (o : Outcomes) (c : routesApi.Call) (w : World) (h : w.db.Settled) :
    (routesAnswer o c w).2.Settled := by
  have hids := (keyed_iff_routes h.inserted).1 h.keyed
  cases c with
  | insertRoute r =>
      simp only [routesAnswer]
      split_ifs with hclash
      · exact h
      · have hkeyed := (h.keyed.insert (r := r) (by simpa [h.inserted] using hclash))
        unfold Database.Keyed at hkeyed
        refine settled_of_routes ?_ h.inserted h.edits
        simpa [h.inserted, Database.routes] using hkeyed
  | saveRoute r =>
      simp only [routesAnswer]
      split_ifs with hclash
      · exact h
      · refine settled_of_routes ?_ h.inserted h.edits
        have hsame : ((w.db.rows.map (fun row =>
            if row.route.id = r.id then { row with route := r } else row)).map Row.route).map
            ModelRoute.id = w.db.routes.map ModelRoute.id := by
          unfold Database.routes
          rw [List.map_map, List.map_map, List.map_map]
          refine List.map_congr_left fun row _ => ?_
          dsimp only [Function.comp]
          split_ifs with hid
          · exact hid.symm
          · rfl
        exact hsame ▸ hids
  | deleteRoute routeId =>
      refine settled_of_routes ?_ h.inserted h.edits
      exact hids.sublist ((List.filter_sublist.map _).map _)
  | newId => exact h
  | setSecret name value => exact h
  | ensureProviderApi provider url secret => exact h
  | refreshRoute routeId => exact h
  | getRoute routeId => exact h
  | deleteSecret name => exact h

lemma settled_routes {α : Type} (o : Outcomes) (p : RoutesApi.Handler α) (h : d.Settled) :
    (exec (fallible o (routesAnswer o)) p ⟨d, 0⟩).2.db.dropped.Settled := by
  obtain ⟨r, w', hexec, hok, herror⟩ := Prog.Raising.exec_of_ends
    (ends_keeps (o := o) (routesAnswer o) (settled_routesAnswer o) p (w := ⟨d, 0⟩) h)
  rw [hexec]
  cases r with
  | ok a => exact (hok a rfl).keyed.settled
  | error e => exact (herror e rfl).keyed.settled

/-- What a registration leaves when its session is closed: the table with the doomed rows or without
them, and the catalog's new ones. -/
lemma left_register (fqdn adminToken : String) (prune : Bool) (o : Outcomes) (h : d.Settled) :
    Left d (doomed o d prune) (Request.after d (.register fqdn adminToken prune o)) := by
  obtain ⟨r, w', hexec, hok, herror⟩ := Prog.Raising.exec_of_ends
    (ends_register o fqdn adminToken prune h.begin (w := ⟨d, 0⟩) rfl)
  simp only [Request.after]
  rw [hexec]
  cases r with
  | ok a => exact (hok a rfl).dropped
  | error e => exact (herror e rfl).dropped

lemma Database.Settled.after (h : d.Settled) (request : Request) :
    (request.after d).Settled := by
  cases request with
  | add body o => exact settled_routes o _ h
  | update routeId body o => exact settled_routes o _ h
  | delete routeId o => exact settled_routes o _ h
  | register fqdn adminToken prune o =>
      exact ⟨(left_register fqdn adminToken prune o h).1, rfl, rfl⟩

/-- The route is still there, up to its vendor label. -/
def Survives (row : Row) (d' : Database) : Prop :=
  ∃ row' ∈ d'.rows, row'.origin = row.origin ∧
    row'.route = { row.route with vendor := row'.route.vendor }

/-- What a resync may delete, and what it has to. -/
structure PruneSafe (catalog : List HubModel) (d d' : Database) : Prop where
  admin : ∀ row ∈ d.rows, row.origin = .admin → Survives row d'
  tenant : ∀ row ∈ d.rows, row.route.ownerScope = .tenant → Survives row d'
  retired : offered catalog ≠ [] → d'.committed ≠ d.committed → ∀ row ∈ d.rows,
    row.origin = .catalog → row.route.ownerScope = .platform → row.route.name ∉ offered catalog →
    ∀ row' ∈ d'.rows, row'.route.id ≠ row.route.id

/-- If the resync is committed, the hub serves what the administrators have added for the platform.
-/
def Spared (catalog : List HubModel) (d d' : Database) : Prop :=
  d'.committed ≠ d.committed → ∀ row ∈ d.rows, row.origin = .admin →
    row.route.ownerScope = .platform → row.route.name ∈ offered catalog

/-- A row is deleted for its scope and its name. -/
lemma mem_doomed {o : Outcomes} (hkeyed : d.Keyed) {row : Row} (hrow : row ∈ d.rows) :
    row.route.id ∈ doomed o d true ↔
      row.route.ownerScope = .platform ∧ row.route.name ∉ offered o.catalog := by
  have hserved : row.route.name ∈ (byProvider (chatModels o.catalog)).flatMap (·.2) ↔
      row.route.name ∈ offered o.catalog := HubCatalog.mem_byProvider
  unfold doomed
  rw [if_pos rfl]
  unfold retired
  constructor
  · intro h
    obtain ⟨r, hr, hid⟩ := List.mem_map.1 h
    obtain ⟨hr, hpruned⟩ := List.mem_filter.1 hr
    obtain ⟨row', hrow', rfl⟩ := List.mem_map.1 hr
    have hsame : row'.route = row.route := by
      have hnodup := (List.nodup_append.1 hkeyed).1
      exact List.inj_on_of_nodup_map hnodup (List.mem_map_of_mem hrow')
        (List.mem_map_of_mem hrow) hid
    rw [hsame] at hpruned
    simpa [hserved] using hpruned
  · rintro ⟨hscope, hname⟩
    refine List.mem_map.2 ⟨row.route, List.mem_filter.2 ⟨List.mem_map_of_mem hrow, ?_⟩, rfl⟩
    simpa [hscope, hserved] using hname

lemma survives_of_same (h : d'.rows = d.rows) {row : Row} (hrow : row ∈ d.rows) :
    Survives row d' := ⟨row, h ▸ hrow, rfl, rfl⟩

lemma Pruned.survives {removed : List String} (h : Pruned d removed d') {row : Row}
    (hrow : row ∈ d.rows) (hid : row.route.id ∉ removed) : Survives row d' := by
  obtain ⟨-, vendors, created, hrows, -⟩ := h
  refine ⟨{ row with route := relabel vendors row.route }, ?_, rfl, ?_⟩
  · rw [hrows]
    refine List.mem_append_left _ (List.mem_map.2 ⟨row, List.mem_filter.2 ⟨hrow, ?_⟩, rfl⟩)
    simpa using hid
  · unfold relabel
    cases vendors.lookup row.route.id <;> rfl

lemma Pruned.gone {removed : List String} (h : Pruned d removed d') {row : Row}
    (hrow : row ∈ d.rows) (hid : row.route.id ∈ removed) :
    ∀ row' ∈ d'.rows, row'.route.id ≠ row.route.id := by
  obtain ⟨-, vendors, created, hrows, hnodup⟩ := h
  intro row' hrow'
  rw [hrows] at hrow'
  rcases List.mem_append.1 hrow' with hkept | hnew
  · obtain ⟨row₀, hrow₀, rfl⟩ := List.mem_map.1 hkept
    have hkeep := (List.mem_filter.1 hrow₀).2
    dsimp only
    rw [relabel_id]
    intro hsame
    rw [hsame] at hkeep
    simp [hid] at hkeep
  · obtain ⟨r, hr, rfl⟩ := List.mem_map.1 hnew
    intro hsame
    have hdisjoint := (List.nodup_append.1 hnodup).2.2
    exact hdisjoint _ (List.mem_map_of_mem (List.mem_map_of_mem hrow)) _ (List.mem_map_of_mem hr)
      hsame.symm

lemma prune_safe_of_left {o : Outcomes} (hkeyed : d.Keyed) (hleft : Left d (doomed o d true) d') :
    PruneSafe o.catalog d d' ↔ Spared o.catalog d d' := by
  rcases hleft.2 with ⟨hrows, hcommitted⟩ | hpruned
  · refine ⟨fun _ h => absurd hcommitted h, fun _ => ?_⟩
    exact ⟨fun row hrow _ => survives_of_same hrows hrow,
      fun row hrow _ => survives_of_same hrows hrow, fun _ h => absurd hcommitted h⟩
  · have hcommitted : d'.committed ≠ d.committed := by
      have hone := hpruned.1
      omega
    constructor
    · intro hsafe _ row hrow hadmin hscope
      by_contra hname
      obtain ⟨row', hrow', -, hroute⟩ := hsafe.admin row hrow hadmin
      refine hpruned.gone hrow ((mem_doomed hkeyed hrow).2 ⟨hscope, hname⟩) row' hrow' ?_
      rw [hroute]
    · intro hspared
      refine ⟨fun row hrow hadmin => hpruned.survives hrow fun hid => ?_,
        fun row hrow htenant => hpruned.survives hrow fun hid => ?_,
          fun _ _ row hrow _ hscope hname =>
          hpruned.gone hrow ((mem_doomed hkeyed hrow).2 ⟨hscope, hname⟩)⟩
      · obtain ⟨hscope, hname⟩ := (mem_doomed hkeyed hrow).1 hid
        exact hname (hspared hcommitted row hrow hadmin hscope)
      · have hscope := ((mem_doomed hkeyed hrow).1 hid).1
        rw [htenant] at hscope
        cases hscope

/-- **What a resync deletes**: along every run, each resync is safe if and only if, whenever it is
committed, the hub serves the models of the platform routes that administrators have added. -/
theorem prune_safe_iff (hd : d.Settled) (requests : List Request) :
    Along Request.after (fun d request => match request with
      | .register _ _ true o => PruneSafe o.catalog d (request.after d)
      | _ => True) d requests ↔
    Along Request.after (fun d request => match request with
      | .register _ _ true o => Spared o.catalog d (request.after d)
      | _ => True) d requests := by
  have hkeeps : ∀ (d : Database) (request : Request), d.Settled → (request.after d).Settled :=
    fun d request h => h.after request
  refine along_congr hkeeps (fun d request h => ?_) hd requests
  cases request with
  | register fqdn adminToken prune o =>
      cases prune with
      | true => exact prune_safe_of_left h.keyed (left_register fqdn adminToken true o h)
      | false => exact Iff.rfl
  | add body o => exact Iff.rfl
  | update routeId body o => exact Iff.rfl
  | delete routeId o => exact Iff.rfl

end Runs

/-! ## A route by hand -/

/-- No call raises, and the hub offers this catalog. -/
def smooth (catalog : List HubModel) : Outcomes := ⟨catalog, fun _ => none, toString, fun _ => none⟩

def noRoutes : Database := ⟨[], [], ⟨[], []⟩, 0⟩

lemma noRoutes_settled : noRoutes.Settled := ⟨List.nodup_nil, rfl, rfl⟩

/-- A hub that serves one model, which is for chats and therefore gets a route. -/
def oneModel : List HubModel := [⟨some "gemini-3-pro", some "chat"⟩]

/-- An administrator adds a route with the defaults of the body. -/
def addedByHand (name : String) : Request := .add { name := name, provider := .google } (smooth [])

/-- A resync with the hub, which prunes. -/
def resync : Request := .register "hub.example" "token" true (smooth oneModel)

/-- The table after the first route, added by an administrator under a name of his own. -/
def oneRoute (name : String) : Database :=
  { noRoutes with
    rows := [⟨.admin, ModelRouteCreate.route { name := name, provider := .google } "rt_0" none⟩] }

lemma added_oneRoute : (addedByHand "my-model").after noRoutes = oneRoute "my-model" := by rfl

lemma resync_committed : (resync.after (oneRoute "my-model")).committed = 1 := by rfl

lemma oneRoute_settled (name : String) : (oneRoute name).Settled :=
  settled_of_routes (List.nodup_singleton _) rfl rfl

/-- The route of a model that the hub serves stays. -/
theorem prune_safe_served :
    PruneSafe oneModel (oneRoute "gemini-3-pro") (resync.after (oneRoute "gemini-3-pro")) := by
  have hspared : Spared oneModel (oneRoute "gemini-3-pro")
      (resync.after (oneRoute "gemini-3-pro")) := by
    intro _ row hrow _ _
    obtain rfl := List.mem_singleton.1 hrow
    decide +kernel
  have hrun := (prune_safe_iff (oneRoute_settled "gemini-3-pro") [resync]).2
    (along_singleton.2 hspared)
  have hsafe := along_singleton.1 hrun
  exact hsafe

/-- A route that has been added by hand is deleted by the next resync. -/
theorem prunes_by_hand :
    ¬ ∀ d : Database, d.Settled → ∀ requests : List Request,
      Along Request.after (fun d request => match request with
        | .register _ _ true o => PruneSafe o.catalog d (request.after d)
        | _ => True) d requests := by
  intro h
  have hsafe := h noRoutes noRoutes_settled [addedByHand "my-model", resync]
      [addedByHand "my-model"]
    resync [] rfl
  change PruneSafe oneModel ((addedByHand "my-model").after noRoutes) (resync.after _) at hsafe
  rw [added_oneRoute] at hsafe
  have hspared := (prune_safe_of_left (oneRoute_settled "my-model").keyed
    (left_register "hub.example" "token" true (smooth oneModel)
      (oneRoute_settled "my-model"))).1 hsafe
  have hcommitted : (resync.after (oneRoute "my-model")).committed ≠ 0 := by
    rw [resync_committed]
    exact one_ne_zero
  exact absurd (hspared hcommitted _ (List.mem_singleton.2 rfl) rfl rfl) (by decide +kernel)

end Resync
end TokenFoundry
