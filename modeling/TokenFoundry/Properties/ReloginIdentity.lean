import TokenFoundry.Api.Relogin

/-!
# The identity of a re-login

The browser that authorizes a device code may be signed in as somebody else, so a poll asks GitHub
whose token it has got.  The lookup turns every failure into an empty answer, and an empty answer is
not compared.

What a poll does to the hub and to the vault is kept as a journal of each.  `relogin_guarded_iff`:
in every run of requests, every poll replaces the token of an account only by one of the same user,
if and only if every poll that gets a token to the hub has got an id for it.
-/

set_option autoImplicit false

namespace TokenFoundry
namespace Relogin

open Prog.Raising (exec)
open Pools (AccountId)
open GithubAccounts (GitHubAccount AccountChanges changed truthy secretName)

variable {K : Type} [PyFloat K]

/-! ## The world of a poll -/

/-- The row of the account, and the tokens that the hub and the vault have got, the latest first. -/
structure World (K : Type) where
  row : Option GitHubAccount
  taken : List (Json K)
  stored : List (String × Json K)

/-- What comes back from every call of a request: the database, GitHub's three endpoints, the vault
and the hub may each answer or raise. -/
structure Outcomes (K : Type) where
  read : Option Raised
  code : Except Raised (Response K)
  grant : Except Raised (Option (Json K))
  user : Json K → Except Raised (Response K)
  secret : Except Raised (Option String)
  install : Except Raised (ℕ × String)
  /-- Whether the hub takes a token that it does not accept. -/
  keeps : Bool
  store : Option Raised
  /-- Whether the vault stores the token though the call raises. -/
  stores : Bool
  commit : Option Raised
  /-- Whether the columns are written though the commit raises. -/
  commits : Bool

/-- A call that has nothing to answer, and may still raise. -/
def reply : Option Raised → Except Raised Unit
  | none => .ok ()
  | some e => .error e

omit [PyFloat K] in
/-- The hub answers that it has taken the token, which is how the code reads a status below 400. -/
def Outcomes.accepts (o : Outcomes K) : Bool :=
  match o.install with
  | .ok (status, _) => status < 400
  | .error _ => false

omit [PyFloat K] in
/-- The calls of a request.  Only the commit, the installation and the vault change something. -/
def served (o : Outcomes K) : (c : Call K) → World K → Except Raised c.Answer × World K
  | .getAccount, w => (match o.read with
      | none => .ok w.row
      | some e => .error e, w)
  | .requestCode, w => (o.code, w)
  | .grant _, w => (o.grant, w)
  | .getUser token, w => (o.user token, w)
  | .getSecret _, w => (o.secret, w)
  | .postToken _ _ token, w =>
      (o.install, if o.accepts || o.keeps then { w with taken := token :: w.taken } else w)
  | .setSecret name token, w =>
      (reply o.store,
        if o.store.isNone || o.stores then { w with stored := (name, token) :: w.stored } else w)
  | .commit changes, w =>
      (reply o.commit,
        if o.commit.isNone || o.commits then { w with row := w.row.map changes.apply } else w)

/-- What the grant comes to, as the flow classifies its body; a grant that raises comes to
nothing. -/
def Outcomes.result (o : Outcomes K) : Option (FlowResult K) :=
  match o.grant with
  | .ok body => FlowResult.ofBody body
  | .error _ => none

/-- What the lookup comes to: the user that GitHub names, or nobody where the call fails or the
answer cannot be read. -/
def Outcomes.who (py : Runtime K) (o : Outcomes K) (token : Json K) : Whoami K :=
  match o.user token with
  | .error _ => ⟨.null, none⟩
  | .ok r =>
      if successful r.status then (Whoami.ofBody py r.body).getD ⟨.null, none⟩
      else ⟨.null, none⟩

/-- The id that GitHub confirms for a token; an empty id confirms nothing. -/
def Outcomes.lookup (py : Runtime K) (o : Outcomes K) (token : Json K) : Option String :=
  truthy (o.who py token).id

/-! ## What a request may change -/

/-- The hub and the vault have got nothing, and the row refers to the same secret and user. -/
structure Untouched (w w' : World K) : Prop where
  taken : w'.taken = w.taken
  stored : w'.stored = w.stored
  ref : w'.row.map (·.oauthTokenKvRef) = w.row.map (·.oauthTokenKvRef)
  id : w'.row.map (·.githubUserId) = w.row.map (·.githubUserId)

/-- The hub has got a token, and the vault may have got it if the hub has accepted it. -/
structure Replaced (o : Outcomes K) (a : AccountId) (token : Json K) (w w' : World K) : Prop where
  taken : w'.taken = token :: w.taken
  stored : w'.stored = w.stored ∧ w'.row.map (·.oauthTokenKvRef) = w.row.map (·.oauthTokenKvRef) ∨
    o.accepts = true ∧ w'.stored = (secretName a "oauth", token) :: w.stored
  id : w'.row.map (·.githubUserId) = w.row.map (·.githubUserId)

section Steps

omit [PyFloat K]

variable {o : Outcomes K} {w w' w'' : World K}

lemma Untouched.refl (w : World K) : Untouched w w := ⟨rfl, rfl, rfl, rfl⟩

lemma AccountChanges.map_apply {α : Type} {ch : AccountChanges} {column : GitHubAccount → α}
    (h : ∀ acct, column (ch.apply acct) = column acct) (row : Option GitHubAccount) :
    (row.map ch.apply).map column = row.map column := by
  rw [Option.map_map]
  exact congrArg (Option.map · row) (funext h)

/-- A commit of other columns touches neither the token nor the user of the account. -/
lemma untouched_commit {ch : AccountChanges} (href : ch.oauthTokenKvRef = none)
    (hid : ch.githubUserId = none) : Untouched w (served o (.commit ch) w).2 := by
  unfold served
  dsimp only
  split_ifs
  · refine ⟨rfl, rfl, AccountChanges.map_apply (fun acct => ?_) w.row,
      AccountChanges.map_apply (fun acct => ?_) w.row⟩
    · simp [AccountChanges.apply, href]
    · simp [AccountChanges.apply, hid]
  · exact .refl w

variable (o w)

lemma exec_failPoll (a : AccountId) (acct : GitHubAccount) (detail : String) :
    ∃ r w', exec (served o) (failPoll a acct detail : Task K _) w = (r, w') ∧ Untouched w w' := by
  unfold failPoll
  set ch : AccountChanges := { deviceCode := changed acct.deviceCode none } with hch
  have hcommit : exec (served o) (ask (.commit ch) : Task K _) w =
      (reply o.commit, (served o (.commit ch) w).2) := rfl
  have hkept : Untouched w (served o (.commit ch) w).2 := untouched_commit rfl rfl
  cases hreply : o.commit with
  | none =>
      rw [hreply] at hcommit
      exact ⟨_, _, Prog.Raising.exec_bind_ok _ hcommit, hkept⟩
  | some e =>
      rw [hreply] at hcommit
      exact ⟨_, _, Prog.Raising.exec_bind_error _ hcommit, hkept⟩

end Steps

/-! ## The phases of a poll -/

section Phases

variable (py : Runtime K) (a : AccountId) (o : Outcomes K) (w : World K)

/-- An account that can take a new token: it is ready, and its hub can be reached and
administered. -/
structure Relogs (acct : GitHubAccount) : Prop where
  ready : acct.status = .ready
  fqdn : (truthy acct.containerAppFqdn).isSome
  admin : (truthy acct.adminTokenKvRef).isSome

omit [PyFloat K] in
/-- The account is returned if it can take a new token, and otherwise the request is refused; in
both cases nothing is written. -/
lemma exec_accountForRelogin :
    (∃ acct, exec (served o) accountForRelogin w = (.ok acct, w) ∧ o.read = none ∧
      w.row = some acct ∧ Relogs acct) ∨
    ((∃ e, exec (served o) accountForRelogin w = (.error e, w)) ∧
      ∀ acct, o.read = none → w.row = some acct → ¬ Relogs acct) := by
  unfold accountForRelogin
  cases hread : o.read with
  | some e =>
      have hask : exec (served o) (ask .getAccount : Task K _) w = (.error e, w) := by
        show served o .getAccount w = _
        simp [served, hread]
      exact .inr ⟨⟨e, Prog.Raising.exec_bind_error _ hask⟩, fun _ h => nomatch h⟩
  | none =>
      have hask : exec (served o) (ask .getAccount : Task K _) w = (.ok w.row, w) := by
        show served o .getAccount w = _
        simp [served, hread]
      rw [Prog.Raising.exec_bind_ok _ hask]
      cases hrow : w.row with
      | none => exact .inr ⟨⟨_, rfl⟩, fun _ _ h => nomatch h⟩
      | some acct =>
          dsimp only
          split_ifs with hstatus hrefs
          · refine .inr ⟨⟨_, rfl⟩, fun acct' _ h hrelogs => ?_⟩
            cases h
            exact hstatus hrelogs.ready
          · refine .inr ⟨⟨_, rfl⟩, fun acct' _ h hrelogs => ?_⟩
            cases h
            simp only [Option.isNone_iff_eq_none, Bool.or_eq_true] at hrefs
            have hfqdn := Option.isSome_iff_ne_none.1 hrelogs.fqdn
            have hadmin := Option.isSome_iff_ne_none.1 hrelogs.admin
            exact hrefs.elim hfqdn hadmin
          · refine .inl ⟨acct, rfl, rfl, rfl, by simpa using hstatus, ?_, ?_⟩
            · cases hfqdn : truthy acct.containerAppFqdn <;> simp_all
            · cases hadmin : truthy acct.adminTokenKvRef <;> simp_all

lemma exec_pollDeviceFlow (deviceCode : String) :
    ∃ r, exec (served o) (pollDeviceFlow deviceCode) w = (r, w) ∧ r.toOption = o.result := by
  unfold pollDeviceFlow Outcomes.result
  have hask : exec (served o) (ask (.grant deviceCode) : Task K _) w = (o.grant, w) := rfl
  cases hgrant : o.grant with
  | error e =>
      rw [hgrant] at hask
      exact ⟨_, Prog.Raising.exec_bind_error _ hask, rfl⟩
  | ok body =>
      rw [hgrant] at hask
      rw [Prog.Raising.exec_bind_ok _ hask]
      exact Prog.Raising.exec_ofOption _ _ (FlowResult.ofBody body) w

/-- The lookup always returns, since it catches whatever the request to GitHub raises. -/
lemma exec_whoami (token : Json K) :
    exec (served o) (whoami py token) w = (.ok (o.who py token), w) := by
  unfold whoami Outcomes.who
  rw [Prog.Raising.exec_tryCatch]
  have hask : exec (served o) (ask (.getUser token) : Task K _) w = (o.user token, w) := rfl
  cases huser : o.user token with
  | error e =>
      rw [huser] at hask
      rw [Prog.Raising.exec_bind_error _ hask]
      rfl
  | ok r =>
      rw [huser] at hask
      rw [Prog.Raising.exec_bind_ok _ hask]
      dsimp only
      split_ifs with hstatus
      · cases Whoami.ofBody py r.body with
        | none => rfl
        | some who => rfl
      · rfl

/-- The hub is asked, and has got the token in the end. -/
structure Takes : Prop where
  admin : ∃ secret, o.secret = .ok secret ∧ (truthy secret).isSome
  kept : (o.accepts || o.keeps) = true

omit [PyFloat K] in
/-- Whether the hub keeps the token, as the poll sees it. -/
lemma exec_tryInstall (acct : GitHubAccount) (adminToken : String) (token : Json K) :
    ∃ r, exec (served o) (tryInstall acct adminToken token) w =
        (r, (served o (.postToken (acct.containerAppFqdn.getD "") adminToken token) w).2) ∧
      (o.accepts = true ∧ r = .ok none ∨ o.accepts = false ∧ r ≠ .ok none) := by
  unfold tryInstall installTokenOnHub
  rw [Prog.Raising.exec_tryCatch]
  set w' := (served o (.postToken (acct.containerAppFqdn.getD "") adminToken token) w).2
  have hpost : exec (served o)
      (ask (.postToken (acct.containerAppFqdn.getD "") adminToken token) : Task K _) w =
      (o.install, w') := rfl
  cases hinstall : o.install with
  | error e =>
      have haccepts : o.accepts = false := by
        unfold Outcomes.accepts
        rw [hinstall]
      rw [hinstall] at hpost
      rw [Prog.Raising.exec_bind_error _ (Prog.Raising.exec_bind_error _ hpost)]
      dsimp only
      cases e.caught with
      | none => exact ⟨_, rfl, .inr ⟨haccepts, by simp⟩⟩
      | some message => exact ⟨_, rfl, .inr ⟨haccepts, by simp⟩⟩
  | ok answer =>
      obtain ⟨status, text⟩ := answer
      have haccepts : o.accepts = decide (status < 400) := by
        unfold Outcomes.accepts
        rw [hinstall]
      rw [hinstall] at hpost
      rw [haccepts]
      -- `raise_for_status` comes after the hub has answered, so that a refusal is the status alone.
      by_cases hstatus : 400 ≤ status
      · have hraise : exec (served o) (do
            let (status, text) ← ask (.postToken (acct.containerAppFqdn.getD "") adminToken token)
            if 400 ≤ status then
              throw (.runtime ("hub rejected the token (" ++ toString status ++ "): " ++
                String.ofList (text.toList.take 400)))
            else return () : Task K Unit) w = (.error (.runtime ("hub rejected the token (" ++
              toString status ++ "): " ++ String.ofList (text.toList.take 400))), w') := by
          rw [Prog.Raising.exec_bind_ok _ hpost]
          dsimp only
          rw [if_pos hstatus]
          rfl
        rw [Prog.Raising.exec_bind_error _ hraise]
        exact ⟨_, rfl, .inr ⟨by simpa using hstatus, by simp⟩⟩
      · have hreturn : exec (served o) (do
            let (status, text) ← ask (.postToken (acct.containerAppFqdn.getD "") adminToken token)
            if 400 ≤ status then
              throw (.runtime ("hub rejected the token (" ++ toString status ++ "): " ++
                String.ofList (text.toList.take 400)))
            else return () : Task K Unit) w = (.ok (), w') := by
          rw [Prog.Raising.exec_bind_ok _ hpost]
          dsimp only
          rw [if_neg hstatus]
          rfl
        rw [Prog.Raising.exec_bind_ok _ hreturn]
        exact ⟨_, rfl, .inl ⟨by simpa using hstatus, rfl⟩⟩

/-- The vault is the last to be written.  The reference of the row changes only together with the
token that it refers to, and the recorded user not at all. -/
lemma exec_persistToken (acct : GitHubAccount) (token login : Json K) :
    ∃ r w', exec (served o) (persistToken py a acct token login) w = (r, w') ∧
      w'.taken = w.taken ∧ w'.row.map (·.githubUserId) = w.row.map (·.githubUserId) ∧
      (w'.stored = w.stored ∧ w'.row.map (·.oauthTokenKvRef) = w.row.map (·.oauthTokenKvRef) ∨
        w'.stored = (secretName a "oauth", token) :: w.stored) := by
  unfold persistToken
  set w₁ := (served o (.setSecret (secretName a "oauth") token) w).2 with hw₁
  have hset : exec (served o) (ask (.setSecret (secretName a "oauth") token) : Task K _) w =
      (reply o.store, w₁) := rfl
  have hrow : w₁.row = w.row ∧ w₁.taken = w.taken := by
    rw [hw₁]
    unfold served
    dsimp only
    split_ifs <;> exact ⟨rfl, rfl⟩
  -- A write of the vault that raises ends the request before the row is written.
  cases hstore : o.store with
  | some e =>
      rw [hstore] at hset
      refine ⟨_, w₁, Prog.Raising.exec_bind_error _ hset, hrow.2, by rw [hrow.1], ?_⟩
      rw [hrow.1, hw₁]
      unfold served
      dsimp only
      split_ifs
      · exact .inr rfl
      · exact .inl ⟨rfl, rfl⟩
  | none =>
      have hstored : w₁.stored = (secretName a "oauth", token) :: w.stored := by
        rw [hw₁]
        simp [served, hstore]
      rw [hstore] at hset
      rw [Prog.Raising.exec_bind_ok _ hset]
      set ch : AccountChanges :=
        { oauthTokenKvRef := changed acct.oauthTokenKvRef (some (secretName a "oauth"))
          githubLogin := changed acct.githubLogin
            (if login.truthy then some (login.text py) else acct.githubLogin)
          deviceCode := changed acct.deviceCode none } with hch
      set w₂ := (served o (.commit ch) w₁).2 with hw₂
      have hcommit : exec (served o) (ask (.commit ch) : Task K _) w₁ = (reply o.commit, w₂) := rfl
      -- The commit touches the row alone, and of it not the GitHub id.
      have hkept : w₂.taken = w₁.taken ∧ w₂.stored = w₁.stored ∧
          w₂.row.map (·.githubUserId) = w₁.row.map (·.githubUserId) := by
        rw [hw₂]
        unfold served
        dsimp only
        split_ifs
        · exact ⟨rfl, rfl, AccountChanges.map_apply (fun _ => rfl) w₁.row⟩
        · exact ⟨rfl, rfl, rfl⟩
      have hend : w₂.taken = w.taken ∧
          w₂.row.map (·.githubUserId) = w.row.map (·.githubUserId) ∧
          w₂.stored = (secretName a "oauth", token) :: w.stored := by
        refine ⟨hkept.1.trans hrow.2, ?_, hkept.2.1.trans hstored⟩
        rw [hkept.2.2, hrow.1]
      obtain ⟨htaken, hid, hvault⟩ := hend
      cases hreply : o.commit with
      | none =>
          rw [hreply] at hcommit
          exact ⟨_, w₂, Prog.Raising.exec_bind_ok _ hcommit, htaken, hid, .inr hvault⟩
      | some e =>
          rw [hreply] at hcommit
          exact ⟨_, w₂, Prog.Raising.exec_bind_error _ hcommit, htaken, hid, .inr hvault⟩

/-- The end of a poll replaces the token where the hub takes it, and nothing elsewhere. -/
lemma exec_replaceToken (acct : GitHubAccount) (token login : Json K) :
    ∃ r w', exec (served o) (replaceToken py a acct token login) w = (r, w') ∧
      (Takes o ∧ Replaced o a token w w' ∨ ¬ Takes o ∧ Untouched w w') := by
  unfold replaceToken
  have hsecret : exec (served o) (ask (.getSecret (acct.adminTokenKvRef.getD "")) : Task K _) w =
      (o.secret, w) := rfl
  cases hanswer : o.secret with
  | error e =>
      rw [hanswer] at hsecret
      refine ⟨_, w, Prog.Raising.exec_bind_error _ hsecret, .inr ⟨fun h => ?_, .refl w⟩⟩
      obtain ⟨secret, hok, -⟩ := h.admin
      rw [hanswer] at hok
      cases hok
  | ok secret =>
      rw [hanswer] at hsecret
      rw [Prog.Raising.exec_bind_ok _ hsecret]
      cases htruthy : truthy secret with
      | none =>
          refine ⟨_, w, rfl, .inr ⟨fun h => ?_, .refl w⟩⟩
          obtain ⟨secret', hok, hsome⟩ := h.admin
          rw [hanswer] at hok
          cases hok
          simp [htruthy] at hsome
      | some adminToken =>
          dsimp only
          obtain ⟨r, hinstall, hr⟩ := exec_tryInstall o w acct adminToken token
          set w₁ := (served o (.postToken (acct.containerAppFqdn.getD "") adminToken token) w).2
            with hw₁
          have htakes : Takes o ↔ (o.accepts || o.keeps) = true :=
            ⟨fun h => h.kept, fun h => ⟨⟨secret, hanswer, by simp [htruthy]⟩, h⟩⟩
          -- The hub may keep the token although its answer did not arrive; `Takes` counts that as
          -- taken.
          have hhub : (Takes o ∧ w₁ = { w with taken := token :: w.taken }) ∨
              (¬ Takes o ∧ w₁ = w) := by
            rw [htakes, hw₁]
            unfold served
            dsimp only
            split_ifs with hkept
            · exact .inl ⟨hkept, rfl⟩
            · exact .inr ⟨hkept, rfl⟩
          rcases hr with ⟨haccepts, rfl⟩ | ⟨hrefused, hr⟩
          · have htake : Takes o := htakes.2 (by simp [haccepts])
            have hw₁' : w₁ = { w with taken := token :: w.taken } :=
              (hhub.resolve_right fun h => h.1 htake).2
            rw [Prog.Raising.exec_bind_ok _ hinstall]
            obtain ⟨r, w', hexec, htaken, hid, hvault⟩ :=
              exec_persistToken py a o w₁ acct token login
            rw [hw₁'] at htaken hid hvault
            exact ⟨r, w', hexec, .inl ⟨htake, htaken,
              hvault.imp_right fun h => ⟨haccepts, h⟩, hid⟩⟩
          -- No acceptance has arrived: the failure is noted on the row, and the vault keeps the old
          -- token.
          · cases r with
            | error e =>
                refine ⟨_, w₁, Prog.Raising.exec_bind_error _ hinstall, ?_⟩
                rcases hhub with ⟨htake, h⟩ | ⟨htake, h⟩
                · rw [h]
                  exact .inl ⟨htake, rfl, .inl ⟨rfl, rfl⟩, rfl⟩
                · rw [h]
                  exact .inr ⟨htake, .refl w⟩
            | ok message =>
                cases message with
                | none => exact absurd rfl hr
                | some message =>
                    rw [Prog.Raising.exec_bind_ok _ hinstall]
                    obtain ⟨r, w', hexec, hsame⟩ := exec_failPoll o w₁ a acct
                      (String.ofList (message.toList.take 500))
                    refine ⟨r, w', hexec, ?_⟩
                    rcases hhub with ⟨htake, h⟩ | ⟨htake, h⟩
                    · rw [h] at hsame
                      exact .inl ⟨htake, hsame.taken, .inl ⟨hsame.stored, hsame.ref⟩, hsame.id⟩
                    · rw [h] at hsame
                      exact .inr ⟨htake, hsame⟩

end Phases

/-! ## A poll -/

section Poll

variable (py : Runtime K) (a : AccountId) (o : Outcomes K) (w : World K)

/-- The flow of the account has been authorized with a token. -/
structure Offers (acct : GitHubAccount) (token : Json K) : Prop where
  read : o.read = none
  row : w.row = some acct
  relogs : Relogs acct
  flow : (truthy acct.deviceCode).isSome
  token : o.result = some (.success token)

/-- A poll changes nothing but for a token that is offered, not known to be another's, and taken. -/
lemma exec_reloginPoll :
    ∃ r w', exec (served o) (reloginPoll py a) w = (r, w') ∧
      ((∃ acct token, Offers o w acct token ∧
          differs acct.githubUserId (o.who py token).id = false ∧ Takes o ∧
          Replaced o a token w w') ∨
        Untouched w w' ∧ ∀ acct token, Offers o w acct token →
          differs acct.githubUserId (o.who py token).id = false → ¬ Takes o) := by
  unfold reloginPoll
  rcases exec_accountForRelogin o w with ⟨acct, hexec, hread, hrow, hrelogs⟩ | ⟨⟨e, hexec⟩, hnot⟩
  · rw [Prog.Raising.exec_bind_ok _ hexec]
    have hsame {acct' token'} (h : Offers o w acct' token') : acct' = acct :=
      Option.some.inj (h.row.symm.trans hrow)
    cases hcode : truthy acct.deviceCode with
    | none =>
        refine ⟨_, w, rfl, .inr ⟨.refl w, fun acct' token' h => ?_⟩⟩
        have hflow := h.flow
        rw [hsame h, hcode] at hflow
        cases hflow
    | some deviceCode =>
        dsimp only
        obtain ⟨r, hpoll, hr⟩ := exec_pollDeviceFlow o w deviceCode
        cases r with
        | error e =>
            refine ⟨_, w, Prog.Raising.exec_bind_error _ hpoll, .inr ⟨.refl w, fun _ _ h => ?_⟩⟩
            cases hr.trans h.token
        | ok result =>
            rw [Prog.Raising.exec_bind_ok _ hpoll]
            cases result with
            | pending =>
                refine ⟨_, w, rfl, .inr ⟨.refl w, fun _ _ h => ?_⟩⟩
                cases hr.trans h.token
            | error err =>
                obtain ⟨r, w', hfail, hkept⟩ := exec_failPoll o w a acct
                  ("device flow: " ++ err.text py)
                refine ⟨r, w', hfail, .inr ⟨hkept, fun _ _ h => ?_⟩⟩
                cases hr.trans h.token
            | success token =>
                -- From here on GitHub has issued a token; the poll asks whose it is before the hub
                -- hears of it.
                have hoffers : Offers o w acct token :=
                  ⟨hread, hrow, hrelogs, by simp [hcode], hr.symm⟩
                have htoken {acct' token'} (h : Offers o w acct' token') : token' = token := by
                  cases hr.trans h.token
                  rfl
                dsimp only
                rw [Prog.Raising.exec_bind_ok _ (exec_whoami py o w token)]
                cases hdiffers : differs acct.githubUserId (o.who py token).id with
                -- Somebody else's token ends the poll with a failure, whatever the hub would have
                -- done with it.
                | true =>
                    rw [if_pos rfl]
                    obtain ⟨r, w', hfail, hkept⟩ := exec_failPoll o w a acct
                      ("authorized as " ++
                        ((o.who py token).login.orElse (.str "another user")).text py ++
                        ", but this account is " ++
                        (truthy acct.githubLogin).getD (acct.githubUserId.getD "None"))
                    refine ⟨r, w', hfail, .inr ⟨hkept, fun acct' token' h hsameId => ?_⟩⟩
                    rw [hsame h, htoken h, hdiffers] at hsameId
                    cases hsameId
                | false =>
                    rw [if_neg Bool.false_ne_true]
                    obtain ⟨r, w', hreplace, hend⟩ := exec_replaceToken py a o w acct token
                      (o.who py token).login
                    refine ⟨r, w', hreplace, ?_⟩
                    rcases hend with ⟨htakes, hreplaced⟩ | ⟨hnot, hkept⟩
                    · exact .inl ⟨acct, token, hoffers, hdiffers, htakes, hreplaced⟩
                    · exact .inr ⟨hkept, fun _ _ _ _ => hnot⟩
  · refine ⟨_, w, Prog.Raising.exec_bind_error _ hexec, .inr ⟨.refl w, fun acct token h => ?_⟩⟩
    exact absurd h.relogs (hnot acct h.read h.row)

/-- The world after a poll, whether the poll has returned or raised. -/
def afterPoll : World K := (exec (served o) (reloginPoll py a) w).2

/-- The token of the poll belongs to a user, as GitHub says. -/
def Confirmed (uid : String) (token : Json K) : Prop :=
  o.result = some (.success token) ∧ o.lookup py token = some uid

/-- The hub has got nothing but a token of the user, and so has the vault, after the hub has
accepted it; the row refers to a secret that has been stored before unless the vault has got it. -/
def Guarded (uid : String) : Prop :=
  ((afterPoll py a o w).taken = w.taken ∨
    ∃ token, Confirmed py o uid token ∧ (afterPoll py a o w).taken = token :: w.taken) ∧
  ((afterPoll py a o w).stored = w.stored ∧
      (afterPoll py a o w).row.map (·.oauthTokenKvRef) = w.row.map (·.oauthTokenKvRef) ∨
    ∃ token, Confirmed py o uid token ∧ o.accepts = true ∧
      (afterPoll py a o w).stored = (secretName a "oauth", token) :: w.stored)

/-- The account belongs to a user, as long as there is a row. -/
def Records (uid : String) : Prop := ∀ acct ∈ w.row, truthy acct.githubUserId = some uid

/-- Every token that gets to the hub has been looked up. -/
def Identified : Prop :=
  ∀ acct token, Offers o w acct token → Takes o → (o.lookup py token).isSome

lemma differs_eq {recorded id : Option String} {uid : String} (h : truthy recorded = some uid) :
    differs recorded id = (truthy id).any (· ≠ uid) := by
  unfold differs
  rw [h]
  cases truthy id <;> rfl

/-- For one poll the guard holds if and only if GitHub has named the user.  With a name the code
compares, and without one it goes on. -/
lemma guarded_iff_identified {uid : String} (hrecords : Records w uid) :
    Guarded py a o w uid ↔ Identified py o w := by
  obtain ⟨r, w', hexec, hend⟩ := exec_reloginPoll py a o w
  have hafter : afterPoll py a o w = w' := by
    unfold afterPoll
    rw [hexec]
  unfold Guarded Identified
  rw [hafter]
  rcases hend with ⟨acct, token, hoffers, hdiffers, htakes, hreplaced⟩ | ⟨hkept, hnot⟩
  · rw [differs_eq (hrecords acct hoffers.row)] at hdiffers
    constructor
    · rintro ⟨hhub, -⟩ acct' token' hoffers' -
      obtain hsame' : token' = token := by
        cases hoffers.token.symm.trans hoffers'.token
        rfl
      rcases hhub with hsame | ⟨token'', ⟨hresult, hlookup⟩, -⟩
      · rw [hreplaced.taken] at hsame
        simp at hsame
      · cases hoffers'.token.symm.trans hresult
        rw [hlookup]
        rfl
    · intro hidentified
      obtain ⟨id, hid⟩ := Option.isSome_iff_exists.1 (hidentified acct token hoffers htakes)
      have hconfirmed : Confirmed py o uid token := by
        refine ⟨hoffers.token, ?_⟩
        unfold Outcomes.lookup at hid ⊢
        rw [hid] at hdiffers ⊢
        simpa using hdiffers
      exact ⟨.inr ⟨token, hconfirmed, hreplaced.taken⟩,
        hreplaced.stored.imp_right fun h => ⟨token, hconfirmed, h⟩⟩
  · refine ⟨fun _ acct' token hoffers htakes => ?_, fun _ => ?_⟩
    · by_contra hnone
      refine hnot acct' token hoffers ?_ htakes
      rw [differs_eq (hrecords acct' hoffers.row)]
      unfold Outcomes.lookup at hnone
      simp only [Option.not_isSome_iff_eq_none] at hnone
      rw [hnone]
      rfl
    · exact ⟨.inl hkept.taken, .inl ⟨hkept.stored, hkept.ref⟩⟩

end Poll

/-! ## Runs -/

section Runs

variable (py : Runtime K) (a : AccountId)

lemma exec_startDeviceFlow (o : Outcomes K) (w : World K) :
    ∃ r, exec (served o) (startDeviceFlow py) w = (r, w) := by
  unfold startDeviceFlow
  have hask : exec (served o) (ask .requestCode : Task K _) w = (o.code, w) := rfl
  cases hcode : o.code with
  | error e =>
      rw [hcode] at hask
      exact ⟨_, Prog.Raising.exec_bind_error _ hask⟩
  | ok r =>
      rw [hcode] at hask
      rw [Prog.Raising.exec_bind_ok _ hask]
      split_ifs
      · exact (Prog.Raising.exec_ofOption _ _ _ w).imp (fun _ h => h.1)
      · exact ⟨_, rfl⟩

/-- A new flow replaces no token; it only writes the codes of the flow. -/
lemma exec_reloginStart (o : Outcomes K) (w : World K) :
    Untouched w (exec (served o) (reloginStart py) w).2 := by
  unfold reloginStart
  rcases exec_accountForRelogin o w with ⟨acct, hexec, -⟩ | ⟨⟨e, hexec⟩, -⟩
  · rw [Prog.Raising.exec_bind_ok _ hexec]
    obtain ⟨r, hflow⟩ := exec_startDeviceFlow py o w
    cases r with
    | error e =>
        rw [Prog.Raising.exec_bind_error _ hflow]
        exact .refl w
    | ok flow =>
        rw [Prog.Raising.exec_bind_ok _ hflow]
        set ch : AccountChanges :=
          { deviceCode := changed acct.deviceCode (some (flow.deviceCode.text py)) } with hch
        have hcommit : exec (served o) (ask (.commit ch) : Task K _) w =
            (reply o.commit, (served o (.commit ch) w).2) := rfl
        have hkept : Untouched w (served o (.commit ch) w).2 := untouched_commit rfl rfl
        cases hreply : o.commit with
        | none =>
            rw [hreply] at hcommit
            rw [Prog.Raising.exec_bind_ok _ hcommit]
            exact hkept
        | some e =>
            rw [hreply] at hcommit
            rw [Prog.Raising.exec_bind_error _ hcommit]
            exact hkept
  · rw [Prog.Raising.exec_bind_error _ hexec]
    exact .refl w

/-- What happens to an account: a flow is started, a poll asks for its end, or something else writes
or removes the row. -/
inductive Request (K : Type)
  | start (o : Outcomes K)
  | poll (o : Outcomes K)
  /-- Another request or task writes columns of the row, but not the user it has recorded. -/
  | elsewhere (changes : AccountChanges) (h : changes.githubUserId = none)
  | removed

/-- The world after a request; the calls of a request are not interrupted by another one. -/
def Request.after (w : World K) : Request K → World K
  | .start o => (exec (served o) (reloginStart py) w).2
  | .poll o => afterPoll py a o w
  | .elsewhere changes _ => { w with row := w.row.map changes.apply }
  | .removed => { w with row := none }

omit [PyFloat K] in
lemma Records.of_id {w w' : World K} {uid : String} (h : Records w uid)
    (hid : w'.row.map (·.githubUserId) = w.row.map (·.githubUserId)) : Records w' uid := by
  intro acct' hacct'
  rw [Option.mem_def.1 hacct', Option.map_some] at hid
  obtain ⟨acct, hacct, hsame⟩ := Option.map_eq_some_iff.1 hid.symm
  rw [← hsame]
  exact h acct hacct

lemma Records.after {w : World K} {uid : String} (h : Records w uid) (request : Request K) :
    Records (request.after py a w) uid := by
  cases request with
  | start o => exact h.of_id (exec_reloginStart py o w).id
  | poll o =>
      obtain ⟨r, w', hexec, hend⟩ := exec_reloginPoll py a o w
      have hafter : afterPoll py a o w = w' := by
        unfold afterPoll
        rw [hexec]
      rw [Request.after, hafter]
      rcases hend with ⟨_, _, _, _, _, hreplaced⟩ | ⟨hkept, -⟩
      · exact h.of_id hreplaced.id
      · exact h.of_id hkept.id
  | elsewhere changes hchanges =>
      refine h.of_id (AccountChanges.map_apply (fun acct => ?_) w.row)
      simp [AccountChanges.apply, hchanges]
  | removed => exact fun acct hacct => nomatch hacct

/-- **The identity guard**: in a run of requests about an account with a recorded user, every poll
is guarded if and only if every poll that gets a token to the hub has found an id for it. -/
theorem relogin_guarded_iff {w : World K} {uid : String} (hrecords : Records w uid)
    (requests : List (Request K)) :
    Along (Request.after py a) (fun w request => match request with
      | .poll o => Guarded py a o w uid
      | _ => True) w requests ↔
    Along (Request.after py a) (fun w request => match request with
      | .poll o => Identified py o w
      | _ => True) w requests := by
  have hkeeps : ∀ w request, Records w uid → Records (Request.after py a w request) uid :=
    fun w request h => h.after py a request
  refine along_congr hkeeps (fun w request h => ?_) hrecords requests
  cases request with
  | poll o => exact guarded_iff_identified py a o w h
  | start o => exact Iff.rfl
  | elsewhere changes hchanges => exact Iff.rfl
  | removed => exact Iff.rfl

end Runs

/-! ## Two lookups -/

/-- A hub that has been deployed for the user `1`, and a flow that waits. -/
def waiting : World ℚ where
  row := some
    { githubLogin := some "login"
      githubUserId := some "1"
      oauthTokenKvRef := some "gh-0-oauth"
      hubKeyKvRef := none
      adminTokenKvRef := some "gh-0-admin"
      status := .ready
      errorDetail := none
      deviceCode := some "device"
      resourceGroup := none
      containerAppFqdn := some "hub"
      tfStateKey := none
      backendIds := [] }
  taken := []
  stored := []

lemma waiting_records : Records waiting "1" := by
  rintro acct ⟨⟩
  rfl

lemma account_hexDigits : ∀ c ∈ "0".toList, c ∈ "0123456789abcdef".toList :=
  AccountId.hexDigits_of_all (by decide)

def account : AccountId := ⟨"0", account_hexDigits⟩

/-- The flow is authorized, and everything is accepted; only the answer of the lookup is left
open. -/
def authorized (user : Except Raised (Response ℚ)) : Outcomes ℚ where
  read := none
  code := .error (.http "")
  grant := .ok (some (.dict [("access_token", .str "token")]))
  user _ := user
  secret := .ok (some "admin")
  install := .ok (200, "")
  keeps := false
  store := none
  stores := false
  commit := none
  commits := false

/-- GitHub says that the token belongs to the user whom the row has recorded. -/
def sameUser : Outcomes ℚ := authorized (.ok ⟨200, some (.dict [("id", .str "1")])⟩)

lemma sameUser_identified (w : World ℚ) : Identified .strict sameUser w := by
  intro acct token _ _
  rfl

theorem relogin_guarded_sameUser :
    Records waiting "1" ∧ Guarded .strict account sameUser waiting "1" := by
  refine ⟨waiting_records, ?_⟩
  have hrun := (relogin_guarded_iff .strict account waiting_records [.poll sameUser]).2
    (along_singleton.2 (sameUser_identified waiting))
  have hguarded := along_singleton.1 hrun
  exact hguarded

/-- GitHub does not say whose token it is, because the lookup does not come through. -/
def noUser : Outcomes ℚ := authorized (.error (.http ""))

/-- A token that nobody has looked up gets to the hub. -/
theorem relogin_unguarded :
    ¬ ∀ (py : Runtime ℚ) (a : AccountId) (w : World ℚ) (uid : String), Records w uid →
      ∀ requests : List (Request ℚ), Along (Request.after py a) (fun w request => match request with
        | .poll o => Guarded py a o w uid
        | _ => True) w requests := by
  intro h
  have hguarded := along_singleton.1 (h .strict account waiting "1" waiting_records [.poll noUser])
  have hidentified := (guarded_iff_identified .strict account noUser waiting waiting_records).1
    hguarded
  obtain ⟨acct, hrow⟩ : ∃ acct, waiting.row = some acct := ⟨_, rfl⟩
  have hoffers : Offers noUser waiting acct (.str "token") := by
    cases hrow
    exact ⟨rfl, rfl, ⟨rfl, rfl, rfl⟩, rfl, rfl⟩
  exact absurd (hidentified acct _ hoffers ⟨⟨_, rfl, rfl⟩, rfl⟩) (by decide)

end Relogin
end TokenFoundry
