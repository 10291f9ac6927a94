import TokenFoundry.Services.HubStatusPoller
import Mathlib.Tactic.IntervalCases

/-!
# A pass over the hubs

A hub that does not answer costs the others nothing: neither the vault nor a hub can end the loop
(`exec_gather`).  The commit at the end can.  It writes the answers of all the hubs, and it raises
when one of their rows has been deleted since the pass has begun, and when one of the answers does
not fit its columns; then none of them is recorded.

A hub can send a text with lone surrogates, which no encoding has.  A text here has none; which of
its characters stand for them is a parameter (`Conditions.surrogate`).

`recorded_iff`: a pass records every answer that it has got if and only if that commit goes through,
or there is no row left to record an answer in.
-/

set_option autoImplicit false

namespace TokenFoundry
namespace HubStatusPoller

open Prog.Raising (exec)
open GithubAccounts (GitHubAccount truthy)

variable {K : Type} [PyFloat K]

/-! ## The world of a pass -/

/-- The accounts of the database; the ids are the primary key, so no two rows share one. -/
structure Table where
  rows : List Row
  nodup : (rows.map (·.id)).Nodup

namespace Table

/-- Accounts that a teardown has deleted are gone; the other rows stay as they are. -/
def delete (t : Table) (ids : List String) : Table where
  rows := t.rows.filter (fun row => row.id ∉ ids)
  nodup := t.nodup.sublist (List.filter_sublist.map _)

/-- A row with the columns that have been written to it. -/
def written (changes : List (String × Report)) (row : Row) : Row :=
  { row with report := (changes.lookup row.id).getD row.report }

def write (t : Table) (changes : List (String × Report)) : Table where
  rows := t.rows.map (written changes)
  nodup := by
    rw [List.map_map]
    exact t.nodup

/-- The query of the pass: the rows whose account is ready. -/
def ready (t : Table) : List Row := t.rows.filter (fun row => row.account.status = .ready)

/-- Whether the account has a row, which decides if an `UPDATE` of it matches. -/
def has (t : Table) (id : String) : Bool := t.rows.any (fun row => row.id = id)

end Table

/-- The number fits a column of the type `integer`, which has 32 bits in Postgres. -/
def fitsInteger (n : ℤ) : Bool := -2147483648 ≤ n && n ≤ 2147483647

/-- The text can be sent to the database: it has no NUL, and can be encoded. -/
def storableText (surrogate : Char → Bool) (text : String) : Bool :=
  text.toList.all (fun ch => decide (ch ≠ '\x00') && ! surrogate ch)

/-- The columns can be stored; the one of the reason is bounded. -/
def Report.fits (surrogate : Char → Bool) (report : Report) : Bool :=
  fitsInteger report.usageEventsDropped && fitsInteger report.usageEventsLost &&
    fitsInteger report.auditPayloadsDropped &&
    report.hubDropReason.all (fun reason => reason.length ≤ 256 && storableText surrogate reason)

/-- What surrounds a pass: the hubs, the vault, the clock, and the teardowns that delete accounts
meanwhile. -/
structure Conditions (K : Type) where
  /-- How the hubs answer. -/
  hub : (fqdn : String) → (adminToken : Option String) → Except PyErr (Response K)
  secret : String → Except PyErr (Option String)
  now : String → ℤ
  /-- The accounts that are deleted before the n-th call to the database. -/
  deleted : ℕ → List String
  /-- The characters that stand for lone surrogates. -/
  surrogate : Char → Bool

/-- The accounts, and the number of calls to the database. -/
structure World where
  table : Table
  calls : ℕ

/-- The deletions that come before the next call to the database. -/
def World.next (w : World) (deleted : ℕ → List String) : World :=
  ⟨w.table.delete (deleted w.calls), w.calls + 1⟩

/-- The commit: all the rows or none of them.  A row that is gone makes the session raise, and so
does a value that its column cannot hold. -/
def Table.commit (surrogate : Char → Bool) (t : Table) (changes : List (String × Report)) :
    Except PyErr Unit × Table :=
  if changes.all (fun e => t.has e.1) then
    if changes.all (fun e => e.2.fits surrogate) then (.ok (), t.write changes) else
      (.error .external, t)
  else (.error .staleData, t)

/-- The calls of a pass.  Accounts can be deleted before every call to the database, and the world
counts these calls. -/
def served (c : Conditions K) : (o : Call) → World → Except PyErr (o.Answer K) × World
  | .readyAccounts, w => (.ok (w.next c.deleted).table.ready, w.next c.deleted)
  | .getSecret name, w => (c.secret name, w)
  | .getStatus fqdn adminToken, w => (c.hub fqdn adminToken, w)
  | .commit changes, w =>
      let w := w.next c.deleted
      ((w.table.commit c.surrogate changes).1,
        { w with table := (w.table.commit c.surrogate changes).2 })
  | .rollback, w => (.ok (), w.next c.deleted)
  | .close, w => (.ok (), w.next c.deleted)

/-! ## What a pass is to record -/

/-- The token that the hub of an account is sent. -/
def Conditions.token (c : Conditions K) (account : GitHubAccount) : Option String :=
  match truthy account.adminTokenKvRef with
  | none => none
  | some ref => (c.secret ref).toOption.bind id

/-- What a response comes to: the status of a successful one with a JSON body, and nothing
otherwise. -/
def Response.status? (py : Runtime K) (r : Response K) : Option HubStatus :=
  if 200 ≤ r.status && r.status < 300 then r.body.map (.fromPayload py) else none

/-- The answer of the hub of a row; `none` if it has not replied. -/
def Conditions.reply (c : Conditions K) (py : Runtime K) (row : Row) : Option HubStatus :=
  match truthy row.account.containerAppFqdn with
  | none => none
  | some fqdn => (c.hub fqdn (truthy (c.token row.account))).toOption.bind (Response.status? py)

/-- What is to be recorded of a row, which is the specification of the pass: the report of its hub,
if the account is ready and the hub answers. -/
def Conditions.answer (c : Conditions K) (py : Runtime K) (row : Row) : Option Report :=
  if row.account.status = .ready then
    (c.reply py row).map (fun status => status.report (c.now row.id))
  else none

/-- The end of a pass that begins with these accounts. -/
def Conditions.pass (c : Conditions K) (py : Runtime K) (t : Table) : Except PyErr Stats × World :=
  exec (served c) (pollOnce py c.now) ⟨t, 0⟩

/-- The pass returns, the answer of every hub that has replied is in its row, if there is still one,
and the login flag and the status time of the other hubs are what they were. -/
structure Recorded (c : Conditions K) (py : Runtime K) (t : Table) : Prop where
  returns : ∃ stats, (c.pass py t).1 = .ok stats
  replied : ∀ row ∈ t.rows, ∀ row' ∈ (c.pass py t).2.table.rows, row'.id = row.id →
    ∀ report ∈ c.answer py row, row'.report = report
  silent : ∀ row ∈ t.rows, ∀ row' ∈ (c.pass py t).2.table.rows, row'.id = row.id →
    c.answer py row = none →
    row'.report.hubLoggedIn = row.report.hubLoggedIn ∧
      row'.report.hubStatusAt = row.report.hubStatusAt

/-- The hub has replied, and its columns are to change. -/
def Conditions.Changes (c : Conditions K) (py : Runtime K) (row : Row) : Prop :=
  ∃ report ∈ c.answer py row, report ≠ row.report

/-- The numbers of the answer are in range, and its reason can be sent to the database. -/
def HubStatus.storable (surrogate : Char → Bool) (status : HubStatus) : Bool :=
  fitsInteger status.dropped && fitsInteger status.lost && fitsInteger status.auditDropped &&
    status.reason.all (storableText surrogate)

/-- The answer ends the commit: the row has been deleted since the pass has begun, or the database
cannot store the answer. -/
def Conditions.Spoils (c : Conditions K) (py : Runtime K) (row : Row) : Prop :=
  c.Changes py row ∧ row.id ∉ c.deleted 0 ∧
    (row.id ∈ c.deleted 1 ∨ ∃ status ∈ c.reply py row, status.storable c.surrogate = false)

/-! ## The loop -/

section Loop

variable (py : Runtime K) (c : Conditions K) (w : World)

omit [PyFloat K] in
lemma exec_adminToken (account : GitHubAccount) :
    exec (served c) (adminToken account) w = (.ok (c.token account), w) := by
  unfold adminToken Conditions.token
  cases truthy account.adminTokenKvRef with
  | none => rfl
  | some ref =>
      dsimp only
      have hask : exec (served c) (ask (.getSecret ref)) w = (c.secret ref, w) := rfl
      rw [Prog.Raising.exec_tryCatch, hask]
      cases c.secret ref with
      | error e => rfl
      | ok secret => rfl

lemma exec_fetchStatus (fqdn : String) (token : Option String) :
    exec (served c) (fetchStatus py fqdn token) w =
      (.ok ((c.hub fqdn (truthy token)).toOption.bind (Response.status? py)), w) := by
  unfold fetchStatus
  have hask : exec (served c) (ask (.getStatus fqdn (truthy token))) w =
      (c.hub fqdn (truthy token), w) := rfl
  rw [Prog.Raising.exec_tryCatch]
  cases hhub : c.hub fqdn (truthy token) with
  | error e =>
      rw [hhub] at hask
      rw [Prog.Raising.exec_bind_error _ hask]
      rfl
  | ok r =>
      rw [hhub] at hask
      rw [Prog.Raising.exec_bind_ok _ hask]
      change _ = (Except.ok (r.status? py), w)
      unfold Response.status?
      split_ifs with hstatus
      · cases r.body with
        | none => rfl
        | some payload => rfl
      · rfl

/-- What the loop makes of an account: it is passed over without an address, counted as missed
without an answer, and noted with one. -/
def Conditions.round (pass : Pass) (row : Row) : Pass :=
  match truthy row.account.containerAppFqdn with
  | none => pass
  | some _ =>
      match c.reply py row with
      | none => pass.miss
      | some status => pass.note row (status.report (c.now row.id))

lemma exec_askHub (row : Row) (pass : Pass) :
    exec (served c) (askHub py c.now row pass) w = (.ok (c.round py pass row), w) := by
  unfold askHub Conditions.round Conditions.reply
  cases truthy row.account.containerAppFqdn with
  | none => rfl
  | some fqdn =>
      dsimp only
      rw [Prog.Raising.exec_bind_ok _ (exec_adminToken c w row.account),
        Prog.Raising.exec_bind_ok _ (exec_fetchStatus py c w fqdn (c.token row.account))]
      cases (c.hub fqdn (truthy (c.token row.account))).toOption.bind (Response.status? py) with
      | none => rfl
      | some status => rfl

/-- The loop always returns, since it catches what the hubs and the vault raise; the passes of the
single accounts add up. -/
lemma exec_askHubs (rows : List Row) (pass : Pass) :
    exec (served c) (askHubs py c.now rows pass) w = (.ok (rows.foldl (c.round py) pass), w) := by
  induction rows generalizing pass with
  | nil => rfl
  | cons row rows ih =>
      unfold askHubs
      rw [Prog.Raising.exec_bind_ok _ (exec_askHub py c w row pass)]
      exact ih (c.round py pass row)

/-- The columns of an account that the session has got to write. -/
def Conditions.change (row : Row) : Option (String × Report) :=
  ((c.reply py row).map (fun status => status.report (c.now row.id))).bind
    (fun report => if report = row.report then none else some (row.id, report))

lemma changes_round (pass : Pass) (row : Row) :
    (c.round py pass row).changes = pass.changes ++ (c.change py row).toList := by
  have hsilent : truthy row.account.containerAppFqdn = none → c.reply py row = none := by
    intro hfqdn
    unfold Conditions.reply
    rw [hfqdn]
  unfold Conditions.round Conditions.change
  cases hfqdn : truthy row.account.containerAppFqdn with
  | none => simp [hsilent hfqdn]
  | some fqdn =>
      cases c.reply py row with
      | none => simp [Pass.miss]
      | some status =>
          simp only [Pass.note, Option.map_some, Option.bind_some]
          split_ifs <;> simp

lemma changes_rounds (rows : List Row) (pass : Pass) :
    (rows.foldl (c.round py) pass).changes = pass.changes ++ rows.filterMap (c.change py) := by
  induction rows generalizing pass with
  | nil => simp
  | cons row rows ih =>
      rw [List.foldl_cons, ih, changes_round, List.append_assoc]
      congr 1
      cases hchange : c.change py row with
      | none => simp [hchange]
      | some e => simp [hchange]

end Loop

/-! ## The commit -/

section Commit

variable (py : Runtime K) (c : Conditions K)

/-- What the commit of the pass is to write: the reports of the accounts that were ready when the
pass asked for them. -/
def Conditions.changes (t : Table) : List (String × Report) :=
  (t.delete (c.deleted 0)).ready.filterMap (c.change py)

/-- The rows that are left when the commit begins, after the teardowns before the query and before
the commit. -/
def Table.atCommit (t : Table) : Table := (t.delete (c.deleted 0)).delete (c.deleted 1)

omit [PyFloat K] in
lemma mem_delete {t : Table} {ids : List String} {row : Row} :
    row ∈ (t.delete ids).rows ↔ row ∈ t.rows ∧ row.id ∉ ids := by
  simp [Table.delete]

omit [PyFloat K] in
lemma Table.eq_of_id {t : Table} {row row' : Row} (h : row ∈ t.rows) (h' : row' ∈ t.rows)
    (hid : row'.id = row.id) : row' = row :=
  List.inj_on_of_nodup_map t.nodup h' h hid

omit [PyFloat K] in
lemma Table.has_iff {t : Table} {row : Row} (h : row ∈ t.rows) (ids : List String) :
    (t.delete ids).has row.id = true ↔ row.id ∉ ids := by
  unfold Table.has
  rw [List.any_eq_true]
  constructor
  · rintro ⟨row', hrow', hid⟩
    rw [decide_eq_true_eq] at hid
    rw [← hid]
    exact (mem_delete.1 hrow').2
  · intro hids
    exact ⟨row, mem_delete.2 ⟨h, hids⟩, by simp⟩

/-- The session writes what has been answered and is new. -/
lemma mem_changes {t : Table} {e : String × Report} :
    e ∈ c.changes py t ↔ ∃ row ∈ t.rows, row.id ∉ c.deleted 0 ∧ row.id = e.1 ∧
      c.answer py row = some e.2 ∧ e.2 ≠ row.report := by
  obtain ⟨id, report⟩ := e
  unfold Conditions.changes Table.ready Conditions.change Conditions.answer
  simp only [List.mem_filterMap, List.mem_filter, mem_delete, decide_eq_true_eq,
    Option.bind_eq_some_iff]
  constructor
  · rintro ⟨row, ⟨⟨hrow, hdeleted⟩, hready⟩, report', hreport, hchange⟩
    split_ifs at hchange with hsame
    cases hchange
    exact ⟨row, hrow, hdeleted, rfl, by rw [if_pos hready, hreport], hsame⟩
  · rintro ⟨row, hrow, hdeleted, rfl, hanswer, hnew⟩
    split_ifs at hanswer with hready
    exact ⟨row, ⟨⟨hrow, hdeleted⟩, hready⟩, report, hanswer, by rw [if_neg hnew]⟩

/-- One change is written for each account, and it is the answer of its hub, unless the account was
deleted before the pass asked. -/
lemma lookup_changes {t : Table} {row : Row} (hrow : row ∈ t.rows)
    (hdeleted : row.id ∉ c.deleted 0) :
    ((c.changes py t).lookup row.id).getD row.report = (c.answer py row).getD row.report := by
  cases hlookup : (c.changes py t).lookup row.id with
  | some report =>
      obtain ⟨before, later, hsplit, -⟩ := List.lookup_eq_some_iff.1 hlookup
      have hmem : (row.id, report) ∈ c.changes py t := by
        rw [hsplit]
        simp
      obtain ⟨row', hrow', -, hid, hanswer, -⟩ := (mem_changes py c).1 hmem
      rw [Table.eq_of_id hrow hrow' hid] at hanswer
      rw [hanswer]
  | none =>
      cases hanswer : c.answer py row with
      | none => rfl
      | some report =>
          by_contra hnew
          have hmem : (row.id, report) ∈ c.changes py t :=
            (mem_changes py c).2 ⟨row, hrow, hdeleted, rfl, hanswer, fun h => hnew h.symm⟩
          exact absurd (List.lookup_eq_none_iff.1 hlookup _ hmem) (by simp)

/-- What an answer needs to be stored; its reason is short enough. -/
lemma fits_report (row : Row) {status : HubStatus} (hreply : c.reply py row = some status)
    (polledAt : ℤ) :
    (status.report polledAt).fits c.surrogate = status.storable c.surrogate := by
  have hshort : ∀ reason, status.reason = some reason → reason.length ≤ 256 := by
    intro reason hreason
    unfold Conditions.reply at hreply
    split at hreply
    · exact absurd hreply (by simp)
    · obtain ⟨r, -, hr⟩ := Option.bind_eq_some_iff.1 hreply
      unfold Response.status? at hr
      split_ifs at hr
      obtain ⟨payload, -, rfl⟩ := Option.map_eq_some_iff.1 hr
      exact (length_reason hreason).trans (by omega)
  unfold Report.fits HubStatus.storable HubStatus.report
  cases hreason : status.reason with
  | none => rfl
  | some reason => simp [hshort reason hreason]

omit [PyFloat K] in
lemma commit_cases (surrogate : Char → Bool) (t : Table) (changes : List (String × Report)) :
    t.commit surrogate changes = (.ok (), t.write changes) ∨
      ∃ e, t.commit surrogate changes = (.error e, t) := by
  unfold Table.commit
  split_ifs
  · exact .inl rfl
  · exact .inr ⟨_, rfl⟩
  · exact .inr ⟨_, rfl⟩

/-- The commit goes through if and only if no answer spoils it. -/
lemma commit_ok_iff (t : Table) :
    ((t.atCommit c).commit c.surrogate (c.changes py t)).1 = .ok () ↔ ∀ row ∈ t.rows,
      ¬ c.Spoils py row := by
  have hcommit : ((t.atCommit c).commit c.surrogate (c.changes py t)).1 = .ok () ↔
      ∀ e ∈ c.changes py t, (t.atCommit c).has e.1 = true ∧ e.2.fits c.surrogate = true := by
    unfold Table.commit
    constructor
    · intro hok e he
      split_ifs at hok with hhas hfits
      exact ⟨List.all_eq_true.1 hhas e he, List.all_eq_true.1 hfits e he⟩
    · intro hall
      rw [if_pos (List.all_eq_true.2 (fun e he => (hall e he).1)),
        if_pos (List.all_eq_true.2 (fun e he => (hall e he).2))]
  rw [hcommit]
  constructor
  · rintro hall row hrow ⟨⟨report, hanswer, hnew⟩, hdeleted, hspoils⟩
    have hmem : (row.id, report) ∈ c.changes py t :=
      (mem_changes py c).2 ⟨row, hrow, hdeleted, rfl, hanswer, hnew⟩
    obtain ⟨hhas, hfits⟩ := hall _ hmem
    have hleft : row ∈ (t.delete (c.deleted 0)).rows := mem_delete.2 ⟨hrow, hdeleted⟩
    -- An answer ends the commit if its row has gone meanwhile, or if it cannot be stored.
    rcases hspoils with hgone | ⟨status, hreply, hstorable⟩
    · exact (Table.has_iff hleft (c.deleted 1)).1 hhas hgone
    · unfold Conditions.answer at hanswer
      rw [Option.mem_def] at hreply
      split_ifs at hanswer
      · rw [hreply] at hanswer
        cases hanswer
        dsimp only at hfits
        rw [fits_report py c row hreply, hstorable] at hfits
        exact absurd hfits (by simp)
      · exact absurd hanswer (by simp)
  · intro hnone e he
    obtain ⟨row, hrow, hdeleted, hid, hanswer, hnew⟩ := (mem_changes py c).1 he
    have hspoils := hnone row hrow
    have hleft : row ∈ (t.delete (c.deleted 0)).rows := mem_delete.2 ⟨hrow, hdeleted⟩
    constructor
    · rw [← hid]
      refine (Table.has_iff hleft (c.deleted 1)).2 (fun hgone => hspoils ?_)
      exact ⟨⟨e.2, hanswer, hnew⟩, hdeleted, .inl hgone⟩
    · by_contra hfits
      refine hspoils ⟨⟨e.2, hanswer, hnew⟩, hdeleted, .inr ?_⟩
      unfold Conditions.answer at hanswer
      split_ifs at hanswer
      obtain ⟨status, hreply, hreport⟩ := Option.map_eq_some_iff.1 hanswer
      rw [← hreport, fits_report py c row hreply] at hfits
      exact ⟨status, hreply, by simpa using hfits⟩

end Commit

/-! ## The pass -/

section Pass

variable (py : Runtime K) (c : Conditions K) (t : Table)

omit [PyFloat K] in
lemma exec_attempt {α : Type} {p : Task K α} {w w' : World} {r : Except PyErr α}
    (hp : exec (served c) p w = (r, w')) : exec (served c) (attempt p) w = (.ok r, w') := by
  unfold attempt
  rw [Prog.Raising.exec_tryCatch]
  cases r with
  | error e =>
      rw [Prog.Raising.exec_bind_error _ hp]
      rfl
  | ok a =>
      rw [Prog.Raising.exec_bind_ok _ hp]
      rfl

/-- The accounts are asked in any case; the first call to the database is the query, and only the
deletions before it matter here. -/
lemma exec_gather : ∃ pass, pass.changes = c.changes py t ∧
    exec (served c) (gather py c.now) ⟨t, 0⟩ = (.ok pass, ⟨t.delete (c.deleted 0), 1⟩) := by
  unfold gather
  have hask : exec (served c) (ask .readyAccounts) ⟨t, 0⟩ =
      (.ok (t.delete (c.deleted 0)).ready, ⟨t.delete (c.deleted 0), 1⟩) := rfl
  rw [Prog.Raising.exec_bind_ok _ hask, exec_askHubs]
  exact ⟨_, changes_rounds py c _ _, rfl⟩

/-- The rows in the end.  If the commit goes through the changes are written before the last
deletions, otherwise a rollback follows and nothing is written. -/
def Conditions.left : Table :=
  if ((t.atCommit c).commit c.surrogate (c.changes py t)).1 = .ok () then
    ((t.atCommit c).write (c.changes py t)).delete (c.deleted 2)
  else ((t.atCommit c).delete (c.deleted 2)).delete (c.deleted 3)

lemma pass_ends : ∃ stats, (c.pass py t).1 = .ok stats ∧ (c.pass py t).2.table = c.left py t := by
  unfold Conditions.pass pollOnce
  obtain ⟨pass, hchanges, hgather⟩ := exec_gather py c t
  rw [Prog.Raising.exec_tryFinally, Prog.Raising.exec_bind_ok _ (exec_attempt c hgather)]
  dsimp only
  have hask : exec (served c) (ask (.commit pass.changes)) ⟨t.delete (c.deleted 0), 1⟩ =
      (((t.atCommit c).commit c.surrogate (c.changes py t)).1,
        ⟨((t.atCommit c).commit c.surrogate (c.changes py t)).2, 2⟩) := by
    rw [hchanges]
    rfl
  rw [Prog.Raising.exec_bind_ok _ (exec_attempt c hask)]
  unfold Conditions.left
  rcases commit_cases c.surrogate (t.atCommit c) (c.changes py t) with hcommit | ⟨e, hcommit⟩
  · rw [hcommit]
    exact ⟨pass.stats, rfl, rfl⟩
  · rw [hcommit]
    exact ⟨pass.stats, rfl, rfl⟩

/-- The rows in the end, if the commit goes through. -/
lemma mem_left_of_ok (hok : ∀ row ∈ t.rows, ¬ c.Spoils py row) {row' : Row} :
    row' ∈ (c.left py t).rows ↔ ∃ row ∈ t.rows, (∀ n < 3, row.id ∉ c.deleted n) ∧
      row' = { row with report := (c.answer py row).getD row.report } := by
  have hwritten : ∀ row ∈ t.rows, row.id ∉ c.deleted 0 → Table.written (c.changes py t) row =
      { row with report := (c.answer py row).getD row.report } := by
    intro row hrow hdeleted
    unfold Table.written
    rw [lookup_changes py c hrow hdeleted]
  unfold Conditions.left
  rw [if_pos ((commit_ok_iff py c t).2 hok), mem_delete]
  unfold Table.write Table.atCommit
  simp only [List.mem_map, mem_delete]
  constructor
  · rintro ⟨⟨row, ⟨⟨hrow, hzero⟩, hone⟩, rfl⟩, htwo⟩
    refine ⟨row, hrow, fun n hn => ?_, hwritten row hrow hzero⟩
    interval_cases n
    · exact hzero
    · exact hone
    · exact htwo
  · rintro ⟨row, hrow, hdeleted, rfl⟩
    refine ⟨⟨row, ⟨⟨hrow, hdeleted 0 (by decide)⟩, hdeleted 1 (by decide)⟩, ?_⟩,
      hdeleted 2 (by decide)⟩
    exact hwritten row hrow (hdeleted 0 (by decide))

/-- The rows in the end, if the commit does not go through: those of the start that nobody has
deleted, with the reports that they had. -/
lemma mem_left_of_spoilt (hspoilt : ¬ ∀ row ∈ t.rows, ¬ c.Spoils py row) {row : Row} :
    row ∈ (c.left py t).rows ↔ row ∈ t.rows ∧ ∀ n < 4, row.id ∉ c.deleted n := by
  unfold Conditions.left
  rw [if_neg (fun h => hspoilt ((commit_ok_iff py c t).1 h))]
  unfold Table.atCommit
  simp only [mem_delete]
  constructor
  · rintro ⟨⟨⟨⟨hrow, hzero⟩, hone⟩, htwo⟩, hthree⟩
    refine ⟨hrow, fun n hn => ?_⟩
    interval_cases n
    · exact hzero
    · exact hone
    · exact htwo
    · exact hthree
  · rintro ⟨hrow, hdeleted⟩
    exact ⟨⟨⟨⟨hrow, hdeleted 0 (by decide)⟩, hdeleted 1 (by decide)⟩, hdeleted 2 (by decide)⟩,
      hdeleted 3 (by decide)⟩

/-- The answers of a pass are recorded if and only if none of them ends the commit, or there is no
row left to record one in. -/
theorem recorded_iff : Recorded c py t ↔
    (∀ row ∈ t.rows, ¬ c.Spoils py row) ∨
      ∀ row ∈ t.rows, c.Changes py row → ∃ n < 4, row.id ∈ c.deleted n := by
  obtain ⟨stats, hreturns, hleft⟩ := pass_ends py c t
  by_cases hok : ∀ row ∈ t.rows, ¬ c.Spoils py row
  · refine iff_of_true ⟨⟨stats, hreturns⟩, ?_, ?_⟩ (.inl hok)
    · intro row hrow row' hrow' hid report hanswer
      rw [hleft] at hrow'
      obtain ⟨row₀, hrow₀, -, rfl⟩ := (mem_left_of_ok py c t hok).1 hrow'
      cases Table.eq_of_id hrow hrow₀ hid
      change (c.answer py row).getD row.report = report
      rw [Option.mem_def.1 hanswer]
      rfl
    · intro row hrow row' hrow' hid hanswer
      rw [hleft] at hrow'
      obtain ⟨row₀, hrow₀, -, rfl⟩ := (mem_left_of_ok py c t hok).1 hrow'
      cases Table.eq_of_id hrow hrow₀ hid
      simp [hanswer]
  · rw [or_iff_right hok]
    constructor
    -- The commit was rolled back, so a row that is still there has its old report.
    · intro h row hrow ⟨report, hanswer, hnew⟩
      by_contra hgone
      have hrow' : row ∈ (c.pass py t).2.table.rows := by
        rw [hleft, mem_left_of_spoilt py c t hok]
        exact ⟨hrow, fun n hn hdeleted => hgone ⟨n, hn, hdeleted⟩⟩
      exact hnew (h.replied row hrow row hrow' rfl report hanswer).symm
    · intro hgone
      refine ⟨⟨stats, hreturns⟩, ?_, ?_⟩
      · intro row hrow row' hrow' hid report hanswer
        rw [hleft, mem_left_of_spoilt py c t hok] at hrow'
        obtain ⟨hmem, hdeleted⟩ := hrow'
        cases Table.eq_of_id hrow hmem hid
        by_contra hnew
        obtain ⟨n, hn, hin⟩ := hgone row hrow ⟨report, hanswer, fun h => hnew h.symm⟩
        exact hdeleted n hn hin
      · intro row hrow row' hrow' hid _
        rw [hleft, mem_left_of_spoilt py c t hok] at hrow'
        cases Table.eq_of_id hrow hrow'.1 hid
        exact ⟨rfl, rfl⟩

end Pass

/-! ## One answer of many -/

section Example

/-- A ready account that has never been polled, under the address that is also its id. -/
def fresh (id : String) : Row where
  id := id
  account := ⟨none, none, none, none, none, .ready, none, none, none, some id, none, []⟩
  report := ⟨none, none, 0, 0, 0, none⟩

def twoHubs : Table := ⟨[fresh "a", fresh "b"], by decide⟩

/-- Both hubs reply, and the second one with these fields besides. -/
def secondReplies (fields : Dict ℚ) (deleted : ℕ → List String) : Conditions ℚ where
  hub := fun fqdn _ => .ok ⟨200, some (.dict (("logged_in", .bool true) ::
    if fqdn = "b" then fields else []))⟩
  secret := fun _ => .error .external
  now := fun _ => 1
  deleted := deleted
  surrogate := fun ch => decide (ch = '\uffff')

/-- A number beyond the column undoes the answer of the other hub, and so does a text that cannot be
encoded, or a row that is deleted while the hubs are asked. -/
theorem not_recorded_other :
    ¬ Recorded (secondReplies [("usage_events_lost", .int 2147483648)] (fun _ => []))
        .strict twoHubs ∧
      ¬ Recorded (secondReplies [("usage_events",
        .dict [("recent", .list [.dict [("kind", .str "\uffff")]])])] (fun _ => []))
        .strict twoHubs ∧
      ¬ Recorded (secondReplies [] (fun n => if n = 1 then ["b"] else [])) .strict twoHubs := by
  have hother : ∀ (fields : Dict ℚ) (deleted : ℕ → List String),
      fresh "a" ∈ ((secondReplies fields deleted).pass .strict twoHubs).2.table.rows →
      ¬ Recorded (secondReplies fields deleted) .strict twoHubs := by
    intro fields deleted hkept h
    have hanswer := h.replied (fresh "a") (by decide) (fresh "a") hkept rfl _ rfl
    have hpolled : (none : Option ℤ) = some 1 := congrArg Report.hubStatusAt hanswer
    cases hpolled
  refine ⟨hother _ _ (by decide), hother _ _ (by decide +kernel), hother _ _ (by decide)⟩

end Example

end HubStatusPoller
end TokenFoundry
