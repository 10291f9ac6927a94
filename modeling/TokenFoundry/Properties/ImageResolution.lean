import TokenFoundry.Services.HubImage

/-!
# Resolving the image of a new hub

The refresh of `HUB_IMAGE_REF` runs before every deployment and promises never to raise.  The lookup
in the registry is guarded as a whole.  The secret after it is read under no guard, and the vault
raises for a secret that is not there.  The requests to GitHub are guarded against what goes wrong
on the way (`httpx.HTTPError`), and not against a secret that no header can hold.

What the newest image is, is said of the repository itself, a list of tags with the times at which
they have been pushed (`Latest`); that the registry answers from it is documented of the parameters
`orderby` and `n` (`Documented`).

`resolves_iff`: the promise is kept unless there is a tag to publish and the vault raises, or a
request cannot be built.
-/

set_option autoImplicit false

namespace TokenFoundry
namespace HubImage

open Prog.Raising (exec)

variable {K : Type}

/-! ## What may come back -/

/-- The variables of the repository. -/
abbrev Variables := String → Option String

/-- What every service answers, or raises, during one resolution of the image: Azure's token, the
registry with its exchange and its tags, the vault, and GitHub. -/
structure Outcomes (K : Type) where
  armToken : Except Raised String
  exchange : Except Raised (Response K)
  access : Except Raised (Response K)
  tags : (host repository : String) → Orderby → ℕ → Except Raised (Response K)
  secret : Except Raised (Option String)
  /-- `none` for a request that has not come through. -/
  probe : Option ℕ
  write : Option (ℕ × String)
  /-- Whether the variable has been written, whatever came back. -/
  written : Bool

/-- A request to GitHub that does not come through raises `httpx.HTTPError`. -/
def transported {α : Type} : Option α → Except Raised α
  | some a => .ok a
  | none => .error .http

/-- Every service answers as it does, and GitHub keeps the variables. -/
def served (o : Outcomes K) : (c : Call K) → Variables → Except Raised c.Answer × Variables
  | .armToken, v => (o.armToken, v)
  | .exchange .., v => (o.exchange, v)
  | .accessToken .., v => (o.access, v)
  | .listTags host repository orderby n _, v => (o.tags host repository orderby n, v)
  | .getSecret _, v => (o.secret, v)
  | .probeVariable .., v => (transported o.probe, v)
  | .writeVariable _ _ name value _, v =>
      (transported o.write, if o.written then Function.update v name (some value) else v)

/-! ## The repository -/

/-- A tag, with the time at which it was pushed. -/
structure Tag where
  name : String
  pushed : ℤ

/-- The tag of that name has been pushed last: no other tag of the repository was pushed after
it. -/
def Latest (repository : List Tag) (name : String) : Prop :=
  ∃ t ∈ repository, t.name = name ∧ ∀ t' ∈ repository, t'.pushed ≤ t.pushed

/-- A tag may be listed before another one, under the order that the request asks for. -/
def Orderby.before : Orderby → Tag → Tag → Prop
  | .timedesc, t, t' => t'.pushed ≤ t.pushed
  | .timeasc, t, t' => t.pushed ≤ t'.pushed

/-- The first `n` tags of a repository in an order; tags of one time come as they may. -/
def FirstTags (repository : List Tag) (orderby : Orderby) (n : ℕ) (tags : List Tag) : Prop :=
  ∃ sorted : List Tag, sorted.Perm repository ∧ sorted.Pairwise orderby.before ∧
    tags = sorted.take n

/-- The body of an answer lists these tags, in this order and with their names. -/
def Lists (tags : List Tag) (body : Json K) : Prop :=
  ∃ d entries, body = .dict d ∧ Json.get d "tags" = .list entries ∧
    List.Forall₂ (fun entry t => item entry "name" = some (.str t.name)) entries tags

/-- A registry that answers with a listing lists the tags that it has, in the order and to the
number that are asked for. -/
def Outcomes.Documented (o : Outcomes K) (registry : (host repository : String) → List Tag) :
    Prop :=
  ∀ host repository orderby n answer body, o.tags host repository orderby n = .ok answer →
    answer.status = 200 → answer.body = some body →
      ∃ tags, FirstTags (registry host repository) orderby n tags ∧ Lists tags body

/-- The newest tag of a repository, whatever the registry has that answers so. -/
def Outcomes.Newest (o : Outcomes K) (host repository name : String) : Prop :=
  ∀ registry, o.Documented registry → Latest (registry host repository) name

section Repository

variable [PyFloat K]

omit [PyFloat K] in
/-- What comes first in a listing by time has been pushed last. -/
lemma FirstTags.latest {repository tags : List Tag} {t : Tag} {n : ℕ}
    (h : FirstTags repository .timedesc n (t :: tags)) : Latest repository t.name := by
  obtain ⟨sorted, hperm, hsorted, htake⟩ := h
  cases n with
  | zero => simp at htake
  | succ n =>
      cases sorted with
      | nil => simp at htake
      | cons t' rest =>
          rw [List.take_succ_cons] at htake
          obtain ⟨rfl, -⟩ := List.cons.inj htake
          refine ⟨t, hperm.subset List.mem_cons_self, rfl, fun t' ht' => ?_⟩
          rcases List.mem_cons.1 (hperm.symm.subset ht') with rfl | hrest
          · exact le_rfl
          · exact (List.pairwise_cons.1 hsorted).1 t' hrest

/-- The name that is read from a listing is that of its first tag. -/
lemma firstName_of_lists (py : Runtime K) {tags : List Tag} {body : Json K} (h : Lists tags body)
    {name : String} (hname : firstName py body = some (some name)) :
    ∃ t rest, tags = t :: rest ∧ t.name = name := by
  obtain ⟨d, entries, rfl, hentries, hlist⟩ := h
  cases hlist with
  | nil => simp [firstName, hentries, Json.orElse, Json.truthy] at hname
  | @cons entry t entries tags hentry =>
      refine ⟨t, tags, rfl, ?_⟩
      simpa [firstName, hentries, Json.orElse, Json.truthy, hentry, Json.text] using hname

end Repository

/-! ## The lookup in the registry -/

section Registry

variable [PyFloat K] (o : Outcomes K) (v : Variables)

/-- The tag that the lookup finds, if it finds one. -/
def Outcomes.found (py : Runtime K) (claims : String → Option (Json K)) (o : Outcomes K)
    (registry repository : String) : Option String := do
  let arm ← o.armToken.toOption
  let _ ← tenantOf py claims arm
  let refresh ← o.exchange.toOption
  if refresh.status ≠ 200 then none
  else
    let _ ← refresh.body.bind (item · "refresh_token")
    let access ← o.access.toOption
    if access.status ≠ 200 then none
    else
      let _ ← access.body.bind (item · "access_token")
      let tags ← (o.tags (hostOf registry) repository .timedesc 1).toOption
      if tags.status ≠ 200 then none
      else (tags.body.bind (firstName py)).join

/-- A part of the lookup finds a tag, or returns or raises without one; nothing is written. -/
def Finds (p : Task K (Option String)) (found : Option String) : Prop :=
  ∃ r, exec (served o) p v = (r, v) ∧ r.toOption.join = found

omit [PyFloat K] in
lemma finds_return (found : Option String) : Finds o v (return found) found := ⟨.ok found, rfl, rfl⟩

omit [PyFloat K] in
/-- A step of the lookup that raises ends it without a tag. -/
lemma finds_bind {α : Type} {p : Task K α} {f : α → Task K (Option String)} {x : Option α}
    {g : α → Option String} (hp : ∃ r, exec (served o) p v = (r, v) ∧ r.toOption = x)
    (hf : ∀ a, Finds o v (f a) (g a)) : Finds o v (p >>= f) (x.bind g) := by
  obtain ⟨r, hexec, rfl⟩ := hp
  cases r with
  | error e => exact ⟨.error e, Prog.Raising.exec_bind_error _ hexec, rfl⟩
  | ok a =>
      obtain ⟨r, hrest, hfound⟩ := hf a
      exact ⟨r, (Prog.Raising.exec_bind_ok _ hexec).trans hrest, hfound⟩

omit [PyFloat K] in
lemma finds_orRaise (x : Option (Option String)) : Finds o v (orRaise x) x.join := by
  obtain ⟨r, hexec, hr⟩ := Prog.Raising.exec_ofOption (E := imageApi K) (served o) _ x v
  exact ⟨r, hexec, by rw [hr]⟩

omit [PyFloat K] in
lemma finds_ite {c : Prop} [Decidable c] {p q : Task K (Option String)} {x y : Option String}
    (hp : Finds o v p x) (hq : Finds o v q y) :
    Finds o v (if c then p else q) (if c then x else y) := by
  split_ifs
  · exact hp
  · exact hq

lemma finds_resolveTag (py : Runtime K) (claims : String → Option (Json K))
    (registry repository : String) :
    Finds o v (resolveTag py claims registry repository)
      (o.found py claims registry repository) := by
  unfold resolveTag Outcomes.found
  refine finds_bind o v ⟨_, rfl, rfl⟩ fun arm => ?_
  refine finds_bind o v (Prog.Raising.exec_ofOption _ _ _ v) fun tenant => ?_
  refine finds_bind o v ⟨_, rfl, rfl⟩ fun refresh => ?_
  refine finds_ite o v (finds_return o v none) ?_
  refine finds_bind o v (Prog.Raising.exec_ofOption _ _ _ v) fun refreshToken => ?_
  refine finds_bind o v ⟨_, rfl, rfl⟩ fun access => ?_
  refine finds_ite o v (finds_return o v none) ?_
  refine finds_bind o v (Prog.Raising.exec_ofOption _ _ _ v) fun accessToken => ?_
  refine finds_bind o v ⟨_, rfl, rfl⟩ fun tags => ?_
  exact finds_ite o v (finds_return o v none) (finds_orRaise o v _)

/-- Whatever the registry answers, its lookup returns.  Every exception of the three requests is
caught, and the lookup has no tag then. -/
lemma exec_newestTag (py : Runtime K) (claims : String → Option (Json K))
    (registry repository : String) :
    exec (served o) (newestTag py claims registry repository) v =
      (.ok (o.found py claims registry repository), v) := by
  obtain ⟨r, hexec, hfound⟩ := finds_resolveTag o v py claims registry repository
  unfold newestTag
  rw [Prog.Raising.exec_tryCatch, hexec, ← hfound]
  cases r with
  | error e => rfl
  | ok found => rfl

/-- What the lookup finds is the newest tag of the repository. -/
lemma newest_of_found {py : Runtime K} {claims : String → Option (Json K)}
    {registry repository name : String} (h : o.found py claims registry repository = some name) :
    o.Newest (hostOf registry) repository name := by
  intro contents hdocumented
  unfold Outcomes.found at h
  -- Each leg has come back with what the next one needs; the listing is the last of them.
  obtain ⟨arm, -, h⟩ := Option.bind_eq_some_iff.1 h
  obtain ⟨tenant, -, h⟩ := Option.bind_eq_some_iff.1 h
  obtain ⟨refresh, -, h⟩ := Option.bind_eq_some_iff.1 h
  split_ifs at h with hrefresh
  obtain ⟨refreshToken, -, h⟩ := Option.bind_eq_some_iff.1 h
  obtain ⟨access, -, h⟩ := Option.bind_eq_some_iff.1 h
  split_ifs at h with haccess
  obtain ⟨accessToken, -, h⟩ := Option.bind_eq_some_iff.1 h
  obtain ⟨answer, hanswer, h⟩ := Option.bind_eq_some_iff.1 h
  split_ifs at h with hstatus
  obtain ⟨body, hbody, hname⟩ := Option.bind_eq_some_iff.1 (Option.join_eq_some_iff.1 h)
  have hok : o.tags (hostOf registry) repository .timedesc 1 = .ok answer := by
    cases htags : o.tags (hostOf registry) repository .timedesc 1 with
    | error e => simp [htags, Except.toOption] at hanswer
    | ok answer' =>
        rw [htags] at hanswer
        exact congrArg Except.ok (Option.some.inj hanswer)
  obtain ⟨tags, hfirst, hlists⟩ := hdocumented _ _ _ _ answer body hok (not_not.1 hstatus) hbody
  obtain ⟨t, rest, rfl, rfl⟩ := firstName_of_lists py hlists hname
  exact hfirst.latest

end Registry

/-! ## The variable -/

section Variable

variable (x : Httpx) (g : Configurator) (o : Outcomes K) (v : Variables)

/-- The requests can be built: the first one, and the second one if the first comes back. -/
def Sends (value : String) : Prop :=
  g.sendable x = true ∧ (o.probe = none ∨ x.encodes value = true)

lemma exec_require (built : Bool) : exec (served o) (require built : Task K Unit) v =
    (if built then .ok () else .error (.other .external), v) := by
  cases built <;> rfl

/-- Whatever GitHub answers to the write, what is raised is guarded against. -/
lemma exec_writeVariable (isNew : Bool) (name value : String) :
    ∃ r v', exec (served o) (writeVariable g isNew name value : Task K Unit) v = (r, v') ∧
      (v' = v ∨ v' = Function.update v name (some value)) ∧ ∀ e, r = .error e →
        e.caught = true := by
  unfold writeVariable
  set v' := if o.written then Function.update v name (some value) else v with hv'
  have hkept : v' = v ∨ v' = Function.update v name (some value) := by
    rw [hv']
    split_ifs
    · exact .inr rfl
    · exact .inl rfl
  have hwrite : exec (served o)
      (ask (.writeVariable g.base isNew name value g.token) : Task K _) v =
      (transported o.write, v') := rfl
  cases hanswer : o.write with
  | none =>
      rw [hanswer] at hwrite
      refine ⟨_, v', Prog.Raising.exec_bind_error _ hwrite, hkept, fun e he => ?_⟩
      cases he
      rfl
  | some answer =>
      rw [hanswer] at hwrite
      rw [Prog.Raising.exec_bind_ok _ hwrite]
      generalize (if isNew = true then 201 else 204) = expected
      by_cases hok : answer.1 = expected
      · rw [if_pos hok]
        exact ⟨_, v', rfl, hkept, fun e he => nomatch he⟩
      · rw [if_neg hok]
        refine ⟨_, v', rfl, hkept, fun e he => ?_⟩
        cases he
        rfl

/-- Whatever GitHub answers, publishing a variable writes that variable if any.  It raises what is
not guarded against if and only if a request cannot be built. -/
lemma exec_setVariable (name value : String) :
    ∃ r v', exec (served o) (setVariable x g name value : Task K Unit) v = (r, v') ∧
      (v' = v ∨ v' = Function.update v name (some value)) ∧
      ((∀ e, r = .error e → e.caught = true) ↔ Sends x g o value) := by
  unfold setVariable Sends
  cases hsendable : g.sendable x with
  | false =>
      refine ⟨_, v, Prog.Raising.exec_bind_error _ (exec_require o v false), .inl rfl, ?_⟩
      simp [Raised.caught]
  | true =>
      rw [Prog.Raising.exec_bind_ok _ (exec_require o v true)]
      cases hprobe : o.probe with
      | none =>
          have hask : exec (served o) (ask (.probeVariable g.base name g.token) : Task K _) v =
              (.error .http, v) := by
            show served o (.probeVariable g.base name g.token) v = _
            simp [served, hprobe, transported]
          refine ⟨_, v, Prog.Raising.exec_bind_error _ hask, .inl rfl, ?_⟩
          simp [Raised.caught]
      | some status =>
          have hask : exec (served o) (ask (.probeVariable g.base name g.token) : Task K _) v =
              (.ok status, v) := by
            show served o (.probeVariable g.base name g.token) v = _
            simp [served, hprobe, transported]
          rw [Prog.Raising.exec_bind_ok _ hask]
          cases hencodes : x.encodes value with
          | false =>
              refine ⟨_, v, Prog.Raising.exec_bind_error _ (exec_require o v false), .inl rfl, ?_⟩
              simp [Raised.caught]
          | true =>
              rw [Prog.Raising.exec_bind_ok _ (exec_require o v true)]
              obtain ⟨r, v', hexec, hkept, hcaught⟩ :=
                exec_writeVariable g o v (decide (status ≠ 200)) name value
              exact ⟨r, v', hexec, hkept, by simpa using hcaught⟩

/-- The `try` of the refresh around the write of a variable: what GitHub's client raises by design
is caught, anything else goes on. -/
def published (name value : String) : Task K Unit :=
  tryCatch (setVariable x g name value) (fun e => if e.caught then return () else throw e)

/-- What GitHub raises ends there, and a request that cannot be built does not. -/
lemma exec_published (name value : String) :
    ∃ r v', exec (served o) (published x g name value) v = (r, v') ∧
      (v' = v ∨ v' = Function.update v name (some value)) ∧ (r = .ok () ↔ Sends x g o value) := by
  obtain ⟨r, v', hexec, hkept, hcaught⟩ := exec_setVariable x g o v name value
  unfold published
  rw [Prog.Raising.exec_tryCatch, hexec, ← hcaught]
  cases r with
  | ok u => exact ⟨_, v', rfl, hkept, by simp⟩
  | error e =>
      dsimp only
      cases he : e.caught with
      | true => exact ⟨.ok (), v', rfl, hkept, by simp [he]⟩
      | false => exact ⟨.error e, v', rfl, hkept, by simp [he]⟩

end Variable

/-! ## The refresh -/

section Refresh

variable [PyFloat K] (py : Runtime K) (claims : String → Option (Json K)) (x : Httpx) (s : Settings)
  (o : Outcomes K) (v : Variables)

/-- What the registry has told, if it has been asked. -/
def told : Option String :=
  if s.acrName = "" then none else o.found py claims s.acrName hubRepository

/-- The tag to be published: the registry's newest, or the one of the settings. -/
def chosenTag : String := tagOr (told py claims s o) s.hubImageTag

/-- The image to be published, under its name in the registry. -/
def chosenImage : String := "gitmodel:" ++ chosenTag py claims s o

/-- The refresh returns, and either no variable has changed, or the image has a tag that is the
newest one of the registry, or the configured one. -/
def Resolves : Prop :=
  ∃ v', exec (served o) (refreshHubImageRef py claims x s) v = (.ok (), v') ∧
    (v' = v ∨ ∃ tag, tag ≠ "" ∧
      (told py claims s o = some tag ∧ o.Newest (hostOf s.acrName) hubRepository tag ∨
        tag = s.hubImageTag) ∧
      v' = Function.update v "HUB_IMAGE_REF" (some ("gitmodel:" ++ tag)))

lemma newest_of_told {tag : String} (h : told py claims s o = some tag) :
    o.Newest (hostOf s.acrName) hubRepository tag := by
  unfold told at h
  split_ifs at h
  exact newest_of_found o h

lemma chosenTag_source :
    told py claims s o = some (chosenTag py claims s o) ∨
      chosenTag py claims s o = s.hubImageTag := by
  unfold chosenTag tagOr
  cases told py claims s o with
  | none => exact .inr rfl
  | some tag =>
      dsimp only
      split_ifs
      · exact .inr rfl
      · exact .inl rfl

/-- The first step of the refresh: without a registry nothing is asked, and with one its lookup
returns in any case. -/
lemma exec_told :
    exec (served o) (if s.acrName = "" then pure none
      else newestTag py claims s.acrName hubRepository : Task K (Option String)) v =
      (.ok (told py claims s o), v) := by
  unfold told
  split_ifs
  · rfl
  · exact exec_newestTag o v py claims s.acrName hubRepository

/-- **The promise of the refresh is kept** unless there is a tag to publish, and the vault raises or
has a secret with which the requests cannot be built. -/
theorem resolves_iff :
    Resolves py claims x s o v ↔
      (chosenTag py claims s o = "" ∨ ∃ pat, o.secret = .ok pat ∧
        (pat.getD "" = "" ∨
          Sends x (s.configurator (pat.getD "")) o (chosenImage py claims s o))) := by
  unfold Resolves refreshHubImageRef
  rw [Prog.Raising.exec_bind_ok _ (exec_told py claims s o v)]
  change (∃ v', exec (E := imageApi K) (served o)
    (if chosenTag py claims s o = "" then _ else _) v =
    _ ∧ _) ↔ _
  -- Without a tag nothing is to be published, and the vault is not asked.
  by_cases htag : chosenTag py claims s o = ""
  · rw [if_pos htag]
    exact ⟨fun _ => .inl htag, fun _ => ⟨v, rfl, .inl rfl⟩⟩
  · rw [if_neg htag]
    have hask : exec (served o) (ask (.getSecret bootstrapPatSecret) : Task K _) v =
        (o.secret, v) := rfl
    cases hsecret : o.secret with
    | error e =>
        rw [hsecret] at hask
        rw [Prog.Raising.exec_bind_error _ hask]
        refine ⟨fun ⟨v', hexec, _⟩ => ?_, fun h => ?_⟩
        · cases hexec
        · rcases h with h | ⟨pat, hpat, -⟩
          · exact absurd h htag
          · cases hpat
    | ok pat =>
        rw [hsecret] at hask
        rw [Prog.Raising.exec_bind_ok _ hask]
        have hcondition : (chosenTag py claims s o = "" ∨ ∃ pat', Except.ok (ε := Raised) pat =
            .ok pat' ∧ (pat'.getD "" = "" ∨
              Sends x (s.configurator (pat'.getD "")) o (chosenImage py claims s o))) ↔
            (pat.getD "" = "" ∨
              Sends x (s.configurator (pat.getD "")) o (chosenImage py claims s o)) := by
          simp [htag]
        rw [hcondition]
        -- A vault without the secret is a skip; with one, the requests have to be built.
        by_cases hpat : pat.getD "" = ""
        · rw [if_pos hpat]
          exact ⟨fun _ => .inl hpat, fun _ => ⟨v, rfl, .inl rfl⟩⟩
        · rw [if_neg hpat]
          obtain ⟨r, v', hexec, hkept, hsends⟩ := exec_published x
            (s.configurator (pat.getD "")) o v "HUB_IMAGE_REF" (chosenImage py claims s o)
          have hrun : exec (served o) (tryCatch (setVariable x (s.configurator (pat.getD ""))
              "HUB_IMAGE_REF" ("gitmodel:" ++ tagOr (told py claims s o) s.hubImageTag))
              (fun e => if e.caught then return () else throw e) : Task K Unit) v = (r, v') := hexec
          rw [hrun]
          refine ⟨fun ⟨v'', hok, _⟩ => .inr (hsends.1 (Prod.mk.inj hok).1), fun h => ?_⟩
          have hok : r = .ok () := hsends.2 (h.resolve_left hpat)
          refine ⟨v', by rw [hok], hkept.imp_right fun hv' => ⟨_, htag, ?_, hv'⟩⟩
          exact (chosenTag_source py claims s o).imp_left
            (fun h => ⟨h, newest_of_told py claims s o h⟩)

end Refresh

/-- A registry that cannot be asked, and a vault that answers so. -/
def offline (secret : Except Raised (Option String)) : Outcomes ℚ where
  armToken := .error (.other .external)
  exchange := .error .http
  access := .error .http
  tags _ _ _ _ := .error .http
  secret := secret
  probe := some 200
  write := some (204, "")
  written := true

/-- Every text can be put into a request, as it is for text that is plain ASCII. -/
def anyText : Httpx := ⟨fun _ => true, fun _ => true⟩

/-- Settings with a tag, and without a registry: the tag is published as it stands. -/
def tagged : Settings := ⟨"", "v1", "owner", "repo"⟩

/-- Where the secret is missing, the refresh raises, and where it is no ASCII text as well. -/
theorem raises_without_pat :
    (¬ ∀ (py : Runtime ℚ) (claims : String → Option (Json ℚ)) (x : Httpx) (s : Settings)
      (o : Outcomes ℚ) (v : Variables), Resolves py claims x s o v) ∧
    ¬ Resolves .strict (fun _ => none) anyText tagged (offline (.ok (some "påt")))
      (fun _ => none) := by
  have hmissing : ¬ Resolves .strict (fun _ => none) anyText tagged
      (offline (.error (.other .resourceNotFound))) (fun _ => none) := by
    rw [resolves_iff]
    rintro (htag | ⟨pat, hpat, -⟩)
    · exact absurd htag (by decide)
    · cases hpat
  refine ⟨fun h => hmissing (h _ _ _ _ _ _), ?_⟩
  rw [resolves_iff]
  rintro (htag | ⟨pat, hpat, hempty | hsends⟩)
  · exact absurd htag (by decide)
  · cases hpat
    exact absurd hempty (by decide)
  · cases hpat
    exact absurd hsends.1 (by decide)

end HubImage
end TokenFoundry
