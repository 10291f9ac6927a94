import TokenFoundry.Framework.Interleaving
import TokenFoundry.Services.KeyLimits

/-!
# Backend pools (`app/services/apim_provisioner.py`)

Every provider has one pool, a document that lists the per-account backends of all hubs.  A hub
joins and leaves the three pools by reading the document and writing it back.

A member is recognised by the lower-cased suffix `/backends/<id>` of its service id, because the
management API stores another spelling of the id than the one it was sent.  An account id is
`gha_` with lower-case hexadecimal digits, so that the suffix of one account is never the suffix
of another (`eq_of_lists`).
-/

set_option autoImplicit false

namespace TokenFoundry
namespace Pools

open KeyLimits (IfMatch)

/-! ## Names -/

/-- The providers a hub serves, in the order of the loops. -/
inductive Provider
  | openai
  | anthropic
  | google
  deriving DecidableEq, Repr

/-- The vendors whose models a hub serves, in the order of the loops. -/
def providers : List Provider := [.openai, .anthropic, .google]

lemma mem_providers (p : Provider) : p ∈ providers := by
  cases p <;> decide

/-- The name of the vendor in the ids of the gateway. -/
def Provider.name : Provider → String
  | .openai => "openai"
  | .anthropic => "anthropic"
  | .google => "google"

/-- `PROVIDER_APIS[provider]["api_id"]`: the API that the pool of the vendor is behind. -/
def Provider.apiId (p : Provider) : String := "llm-" ++ p.name

/-- `PROVIDER_APIS[provider]["auth_header"]`: the header with which a backend is called. -/
def Provider.authHeader : Provider → String
  | .anthropic => "x-api-key"
  | _ => "Authorization"

/-- `PROVIDER_APIS[provider]["bearer"]`: whether the key in that header is a bearer token. -/
def Provider.bearer : Provider → Bool
  | .anthropic => false
  | _ => true

/-- An account id, `gha_` and what `uuid4().hex[:12]` gives. -/
structure AccountId where
  hex : String
  hex_digits : ∀ c ∈ hex.toList, c ∈ "0123456789abcdef".toList

/-- A text whose characters have been checked one after the other. -/
lemma AccountId.hexDigits_of_all {hex : String}
    (h : hex.toList.all (fun c => "0123456789abcdef".toList.contains c) = true) :
    ∀ c ∈ hex.toList, c ∈ "0123456789abcdef".toList := by
  intro c hc
  simpa using List.all_eq_true.1 h c hc

/-- The id as it stands in the row, and at the end of the backend ids. -/
def AccountId.id (a : AccountId) : String := "gha_" ++ a.hex

/-- The pool of a vendor, which all hubs share. -/
def poolId (p : Provider) : String := "llm-" ++ p.name ++ "-pool"

/-- The backend of one hub for one vendor; it ends with the account's id. -/
def backendId (p : Provider) (a : AccountId) : String := "llm-" ++ p.name ++ "-" ++ a.id

lemma poolId_injective {p q : Provider} (h : poolId p = poolId q) : p = q := by
  revert h
  cases p <;> cases q <;> decide

/-- `str.lower`, for the characters of ids. -/
def lower (s : String) : List Char := s.toList.map Char.toLower

/-- `s.rsplit(sep, 1)[0]`: what stands before the last occurrence. -/
def rsplitHead (s sep : String) : String :=
  match (List.range (s.toList.length + 1)).reverse.find?
      (fun n => sep.toList.isPrefixOf (s.toList.drop n)) with
  | some n => String.ofList (s.toList.take n)
  | none => s

/-! ## Documents -/

/-- A member of a pool, as the management API stores it. -/
structure Service where
  id : Option String
  priority : Option ℕ
  weight : Option ℕ
  deriving DecidableEq, Repr

/-- The session affinity of a pool: how a conversation stays with one member. -/
structure Affinity where
  source : String
  name : String
  deriving DecidableEq, Repr

/-- The properties of a pool, which a `PUT` writes as a whole. -/
structure PoolProps where
  description : String
  type : String
  services : List Service
  sessionAffinity : Option Affinity
  deriving DecidableEq, Repr

/-- The affinity a pool is created with, and which it gets if it has none. -/
def cookieAffinity : Affinity := ⟨"Cookie", "SessionId"⟩

/-- The contract of a per-account backend: where the hub is, and the header it expects. -/
structure BackendContract where
  url : String
  header : String × String
  deriving DecidableEq, Repr

/-- What a `GET` of a pool gives: the document with its ETag, or another status. -/
inductive PoolReply
  | found (props : PoolProps) (eTag : Option ℕ)
  | status (code : ℕ)

/-- The management API, and the base of its backend URLs.  The code is written over any interface
that has these calls. -/
structure PoolClient (E : Interface PyErr) where
  backendBase : String
  armToken : Prog.Raising E Unit
  getPool : String → Prog.Raising E PoolReply
  /-- A `PUT`, with the `If-Match` header if there is one; returns the status. -/
  putPool : String → PoolProps → Option IfMatch → Prog.Raising E ℕ
  /-- A `DELETE` with an `If-Match` header; returns the status. -/
  deletePool : String → IfMatch → Prog.Raising E ℕ
  /-- `api_policy.delete`. -/
  deletePolicy : String → Prog.Raising E Unit
  /-- `backend.create_or_update`. -/
  putBackend : String → BackendContract → Prog.Raising E Unit
  /-- `backend.delete`. -/
  deleteBackend : String → Prog.Raising E Unit

/-! ## Operations -/

/-- `s.get("id", "").lower().endswith(svc_suffix)`: ids are compared by their ends, as the API
spells them in its own way. -/
def isMember (svcSuffix : List Char) (s : Service) : Bool :=
  svcSuffix.isSuffixOf (lower (s.id.getD ""))

/-- `f"/backends/{backend_id}".lower()`: what the id of a member ends with. -/
def suffixOf (backendId : String) : List Char := lower ("/backends/" ++ backendId)

section Operations

variable {E : Interface PyErr} (client : PoolClient E)

/-- The service that stands for a backend, with the URL of the backend as its id. -/
def member (backendBase backendId : String) : Service :=
  ⟨some (rsplitHead backendBase "/backends" ++ "/backends/" ++ backendId), some 1, some 1⟩

/-- `_raise_for_arm`: a status of failure is raised, and any other one is not looked at. -/
def raiseForArm (status : ℕ) : Prog.Raising E Unit :=
  if 400 ≤ status ∧ status ≤ 599 then throw (.httpStatus status) else return ()

/-- The document with one more member, at the end; what else it holds goes back as it was read. -/
def appendService (props : PoolProps) (s : Service) : PoolProps :=
  { props with
    type := "Pool"
    services := props.services ++ [s]
    sessionAffinity := some (props.sessionAffinity.getD cookieAffinity) }

/-- The document of a pool with its first member, which is written where there was none. -/
def firstPool (poolId : String) (s : Service) : PoolProps where
  description := "Hub pool for " ++ rsplitHead poolId "-pool"
  type := "Pool"
  services := [s]
  sessionAffinity := some cookieAffinity

/-- `_pool_add_service`: read the pool, and write it back with the backend in it, under the ETag it
was read with.  A pool that is not there is created, and then without a condition. -/
def poolAddService (poolId backendId : String) : Prog.Raising E Unit := do
  client.armToken
  match ← client.getPool poolId with
  | .found props eTag =>
      if props.services.any (isMember (suffixOf backendId)) then return ()
      else do
        let status ← client.putPool poolId
          (appendService props (member client.backendBase backendId)) (eTag.map .tag)
        raiseForArm status
  | .status code =>
      if code = 404 then do
        let status ← client.putPool poolId
          (firstPool poolId (member client.backendBase backendId)) none
        raiseForArm status
      else raiseForArm code

/-- `_detach_api_policy`: the policy that names the pool goes first, as a pool in use cannot be
deleted. -/
def detachApiPolicy (provider : Provider) : Prog.Raising E Unit :=
  tryCatch (client.deletePolicy provider.apiId)
    (fun e => match e with
      | .resourceNotFound => return ()
      | e => throw e)

/-- `_pool_remove_service`: read the pool, and write it back without the backend, under the ETag it
was read with; a pool that would be empty is deleted. -/
def poolRemoveService (poolId backendId : String) (provider : Option Provider) :
    Prog.Raising E Unit := do
  client.armToken
  match ← client.getPool poolId with
  | .status code => if code = 404 then return () else raiseForArm code
  | .found props eTag =>
      let kept := props.services.filter (fun s => ! isMember (suffixOf backendId) s)
      if kept.length = props.services.length then return ()
      else if kept = [] then do
        match provider with
        | some p => detachApiPolicy client p
        | none => pure ()
        let status ← client.deletePool poolId (eTag.elim .any .tag)
        if status = 404 then return () else raiseForArm status
      else do
        let status ← client.putPool poolId { props with services := kept }
          (some (eTag.elim .any .tag))
        raiseForArm status

/-- `remove_backend`: best effort; an error of the gateway is swallowed. -/
def removeBackend (backendId : String) : Prog.Raising E Unit :=
  tryCatch (client.deleteBackend backendId)
    (fun e => match e with
      | .resourceNotFound => return ()
      | .httpResponse _ => return ()
      | e => throw e)

/-- The contract of `_ensure_provider_backend`: the address of the hub, and the key it is called
with. -/
def hubContract (p : Provider) (hubFqdn hubKey : String) : BackendContract where
  url := "https://" ++ hubFqdn
  header := (p.authHeader, if p.bearer then "Bearer " ++ hubKey else hubKey)

/-- `add_hub_to_pools`; returns the backend ids.  For each vendor the backend comes first and its
place in the pool after it. -/
def addHubToPools (a : AccountId) (hubFqdn hubKey : String) : Prog.Raising E (List String) := do
  providers.forM (fun p => do
    client.putBackend (backendId p a) (hubContract p hubFqdn hubKey)
    poolAddService client (poolId p) (backendId p a))
  return providers.map (fun p => backendId p a)

/-- `remove_hub_from_pools`: for each vendor the place in the pool goes first and the backend after
it; then the backends that the row names beyond these. -/
def removeHubFromPools (a : AccountId) (backendIds : List String) : Prog.Raising E Unit := do
  providers.forM (fun p => do
    poolRemoveService client (poolId p) (backendId p a) (some p)
    removeBackend client (backendId p a))
  backendIds.forM (fun b =>
    if a.id.toList.isSuffixOf b.toList then return () else removeBackend client b)

end Operations

/-! ## Facts that the operations keep -/

section Steady

variable {E : Interface PyErr} {client : PoolClient E} {ι W : Type} {env : Env E ι W}
variable {D : Discipline env} {ok : StepCond E ι W} {i : ι} {P : W → Prop}

lemma steady_raiseForArm (status : ℕ) :
    D.Steady ok i P (raiseForArm status : Prog.Raising E Unit) :=
  .ite (.throw _) (.pure _)

/-- Every call of a removal keeps the fact, so that the removal as a whole keeps it. -/
structure PoolClient.Steady (client : PoolClient E) (D : Discipline env) (ok : StepCond E ι W)
    (i : ι) (P : W → Prop) : Prop where
  armToken : D.Steady ok i P client.armToken
  getPool : ∀ id, D.Steady ok i P (client.getPool id)
  putPool : ∀ id props im, D.Steady ok i P (client.putPool id props im)
  deletePool : ∀ id im, D.Steady ok i P (client.deletePool id im)
  deletePolicy : ∀ id, D.Steady ok i P (client.deletePolicy id)
  deleteBackend : ∀ id, D.Steady ok i P (client.deleteBackend id)

lemma PoolClient.Steady.detachApiPolicy (h : client.Steady D ok i P) (p : Provider) :
    D.Steady ok i P (detachApiPolicy client p) := by
  refine .tryCatch (h.deletePolicy _) (fun e => ?_)
  cases e <;> first
    | exact .pure _
    | exact .throw _

lemma PoolClient.Steady.poolRemoveService (h : client.Steady D ok i P) (poolId backendId : String)
    (p : Provider) : D.Steady ok i P (poolRemoveService client poolId backendId (some p)) := by
  refine .bind h.armToken (fun _ => .bind (h.getPool _) (fun reply => ?_))
  cases reply with
  | status code => exact .ite (.pure _) (steady_raiseForArm _)
  | found props eTag =>
      refine .ite (.pure _) (.ite (.bind (h.detachApiPolicy p) (fun _ => ?_)) ?_)
      · exact .bind (h.deletePool _ _) (fun _ => .ite (.pure _) (steady_raiseForArm _))
      · exact .bind (h.putPool _ _ _) (fun _ => steady_raiseForArm _)

lemma PoolClient.Steady.removeBackend (h : client.Steady D ok i P) (backendId : String) :
    D.Steady ok i P (removeBackend client backendId) := by
  refine .tryCatch (h.deleteBackend _) (fun e => ?_)
  cases e <;> first
    | exact .pure _
    | exact .throw _

lemma PoolClient.Steady.removeHubFromPools (h : client.Steady D ok i P) (a : AccountId)
    (backendIds : List String) : D.Steady ok i P (removeHubFromPools client a backendIds) := by
  refine .bind (.forM (fun p => ?_) _) (fun _ => .forM (fun b => ?_) _)
  · exact .bind (h.poolRemoveService _ _ p) (fun _ => h.removeBackend _)
  · exact .ite (.pure _) (h.removeBackend b)

end Steady

/-! ## The calls -/

inductive Call
  | armToken
  | getPool (poolId : String)
  | putPool (poolId : String) (props : PoolProps) (ifMatch : Option IfMatch)
  | deletePool (poolId : String) (ifMatch : IfMatch)
  | deletePolicy (apiId : String)
  | putBackend (backendId : String) (contract : BackendContract)
  | deleteBackend (backendId : String)

@[reducible] def Call.Answer : Call → Type
  | .getPool _ => PoolReply
  | .putPool _ _ _ => ℕ
  | .deletePool _ _ => ℕ
  | _ => Unit

abbrev poolsApi : Interface PyErr := ⟨Call, Call.Answer⟩

abbrev Handler (α : Type) := Prog.Raising poolsApi α

def ask (o : Call) : Handler o.Answer := @Prog.ask _ poolsApi o

/-- The provisioner of one deployment, each of whose methods is one call. -/
def client (backendBase : String) : PoolClient poolsApi where
  backendBase := backendBase
  armToken := ask .armToken
  getPool id := ask (.getPool id)
  putPool id props im := ask (.putPool id props im)
  deletePool id im := ask (.deletePool id im)
  deletePolicy id := ask (.deletePolicy id)
  putBackend id contract := ask (.putBackend id contract)
  deleteBackend id := ask (.deleteBackend id)

/-! ## Membership -/

/-- The service stands for the backend of an account: the code takes it for a member of that
account. -/
def Lists (p : Provider) (a : AccountId) (s : Service) : Prop :=
  isMember (suffixOf (backendId p a)) s = true

instance (p : Provider) (a : AccountId) (s : Service) : Decidable (Lists p a s) :=
  inferInstanceAs (Decidable (_ = _))

lemma lists_iff {p : Provider} {a : AccountId} {s : Service} :
    Lists p a s ↔ suffixOf (backendId p a) <:+ lower (s.id.getD "") := by
  rw [Lists, isMember, List.isSuffixOf_iff_suffix]

@[simp] lemma lower_append (s t : String) : lower (s ++ t) = lower s ++ lower t := by
  rw [lower, String.toList_append, List.map_append]
  rfl

/-- What follows the last slash of a path is determined by the path. -/
lemma eq_of_slash_suffix {n n' path : List Char} (hn : '/' ∉ n) (hn' : '/' ∉ n')
    (h : '/' :: n <:+ path) (h' : '/' :: n' <:+ path) : n = n' := by
  rcases List.suffix_or_suffix_of_suffix h h' with hs | hs
  · rcases List.suffix_cons_iff.1 hs with heq | hs
    · exact (List.cons.inj heq).2
    · exact absurd (hs.subset List.mem_cons_self) hn'
  · rcases List.suffix_cons_iff.1 hs with heq | hs
    · exact (List.cons.inj heq).2.symm
    · exact absurd (hs.subset List.mem_cons_self) hn

/-- Hexadecimal digits are no slashes, and lower-casing leaves them alone; so the end of an id is
found again. -/
lemma hex_toLower : ∀ c ∈ "0123456789abcdef".toList, c ≠ '/' ∧ c.toLower = c := by
  have hall : "0123456789abcdef".toList.all (fun c => decide (c ≠ '/' ∧ c.toLower = c)) = true := by
    decide
  intro c hc
  exact of_decide_eq_true (List.all_eq_true.1 hall c hc)

lemma AccountId.lower_hex (a : AccountId) : lower a.hex = a.hex.toList := by
  have hmap : a.hex.toList.map Char.toLower = a.hex.toList.map (fun c => c) :=
    List.map_congr_left (fun c hc => (hex_toLower c (a.hex_digits c hc)).2)
  rw [lower, hmap, List.map_id']

/-- The lower-cased backend id: the provider's part, which is the same for all accounts, and the
digits. -/
lemma lower_backendId (p : Provider) (a : AccountId) :
    lower (backendId p a) = lower ("llm-" ++ p.name ++ "-gha_") ++ a.hex.toList := by
  have hdash : lower "-gha_" = lower "-" ++ lower "gha_" := by decide
  rw [backendId, AccountId.id, ← a.lower_hex]
  simp only [lower_append, hdash, List.append_assoc]

lemma slash_notMem_backendId (p : Provider) (a : AccountId) : '/' ∉ lower (backendId p a) := by
  rw [lower_backendId, List.mem_append, not_or]
  refine ⟨?_, fun h => (hex_toLower '/' (a.hex_digits _ h)).1 rfl⟩
  cases p <;> decide

lemma lower_backendId_injective {p : Provider} {a b : AccountId}
    (h : lower (backendId p a) = lower (backendId p b)) : a = b := by
  rw [lower_backendId, lower_backendId] at h
  have hhex : a.hex = b.hex := String.toList_injective (List.append_cancel_left h)
  cases a
  cases b
  cases hhex
  rfl

lemma suffixOf_eq (b : String) : suffixOf b = "/backends".toList ++ '/' :: lower b := by
  rw [suffixOf, lower_append]
  rfl

lemma slash_suffix_of_lists {p : Provider} {a : AccountId} {s : Service} (h : Lists p a s) :
    '/' :: lower (backendId p a) <:+ lower (s.id.getD "") := by
  rw [lists_iff, suffixOf_eq] at h
  exact (List.suffix_append _ _).trans h

/-- A member belongs to one account only, since the ids of accounts are of one length. -/
lemma eq_of_lists {p : Provider} {a b : AccountId} {s : Service} (ha : Lists p a s)
    (hb : Lists p b s) : a = b :=
  lower_backendId_injective (eq_of_slash_suffix (slash_notMem_backendId p a)
    (slash_notMem_backendId p b) (slash_suffix_of_lists ha) (slash_suffix_of_lists hb))

/-- The service an account is added with belongs to it, whatever the base of the URLs is. -/
lemma lists_member (backendBase : String) (p : Provider) (a : AccountId) :
    Lists p a (member backendBase (backendId p a)) := by
  rw [lists_iff, member, Option.getD_some, String.append_assoc, lower_append]
  exact List.suffix_append _ _

/-! ## Counting members -/

/-- The members of a pool; there are none where there is no pool. -/
def services (v : Option PoolProps) : List Service := (v.map PoolProps.services).getD []

@[simp] lemma services_some (props : PoolProps) : services (some props) = props.services := rfl

@[simp] lemma services_none : services none = [] := rfl

/-- How often an account is listed in a pool. -/
def listed (p : Provider) (a : AccountId) (ss : List Service) : ℕ :=
  ss.countP (isMember (suffixOf (backendId p a)))

lemma listed_append (p : Provider) (a : AccountId) (ss ss' : List Service) :
    listed p a (ss ++ ss') = listed p a ss + listed p a ss' :=
  List.countP_append

lemma listed_member_self (backendBase : String) (p : Provider) (a : AccountId) :
    listed p a [member backendBase (backendId p a)] = 1 := by
  rw [listed, List.countP_singleton]
  exact if_pos (lists_member backendBase p a)

lemma listed_member_of_ne (backendBase : String) (p : Provider) {a b : AccountId} (h : a ≠ b) :
    listed p b [member backendBase (backendId p a)] = 0 := by
  rw [listed, List.countP_singleton]
  exact if_neg (fun hb => h (eq_of_lists (lists_member backendBase p a) hb))

/-- The members that are kept when an account leaves, in their order. -/
def others (p : Provider) (a : AccountId) (ss : List Service) : List Service :=
  ss.filter (fun s => ! isMember (suffixOf (backendId p a)) s)

lemma listed_others_self (p : Provider) (a : AccountId) (ss : List Service) :
    listed p a (others p a ss) = 0 := by
  rw [listed, List.countP_eq_zero]
  intro s hs
  simpa using (List.mem_filter.1 hs).2

lemma listed_others_of_ne (p : Provider) {a b : AccountId} (h : a ≠ b) (ss : List Service) :
    listed p b (others p a ss) = listed p b ss := by
  rw [listed, others, List.countP_filter]
  refine List.countP_congr (fun s _ => ?_)
  have hexcl : Lists p b s → isMember (suffixOf (backendId p a)) s = false := by
    intro hb
    by_contra ha
    exact h (eq_of_lists (by simpa [Lists] using ha) hb)
  simp only [Bool.and_eq_true, Bool.not_eq_true']
  exact ⟨fun hs => hs.1, fun hs => ⟨hs, hexcl hs⟩⟩

lemma listed_eq_zero_of_length {p : Provider} {a : AccountId} {ss : List Service}
    (h : (others p a ss).length = ss.length) : listed p a ss = 0 := by
  have hall := List.filter_sublist.eq_of_length h
  rw [listed, List.countP_eq_zero]
  intro s hs
  have hmem : s ∈ others p a ss := by
    rw [others, hall]
    exact hs
  simpa using (List.mem_filter.1 hmem).2

/-! ## How the management API spells the ids -/

/-- What the management API makes of the service ids it stores: the last two segments of the path
stay, up to upper and lower case. -/
structure Spelling where
  respell : String → String
  keeps : ∀ id n, "/backends".toList ++ '/' :: n <:+ lower (respell id) ↔
    "/backends".toList ++ '/' :: n <:+ lower id

/-- What the API stores of a document: the ids of the members are spelt in its own way. -/
def Spelling.store (sp : Spelling) (props : PoolProps) : PoolProps :=
  { props with services := props.services.map (fun s => { s with id := s.id.map sp.respell }) }

/-- Respelling an id keeps the account it belongs to, since its end stays the same. -/
lemma lists_respell (sp : Spelling) {p : Provider} {a : AccountId} (s : Service) :
    Lists p a { s with id := s.id.map sp.respell } ↔ Lists p a s := by
  rw [lists_iff, lists_iff, suffixOf_eq]
  cases s.id with
  | none => exact Iff.rfl
  | some id => exact sp.keeps id _

lemma listed_store (sp : Spelling) (p : Provider) (a : AccountId) (props : PoolProps) :
    listed p a (sp.store props).services = listed p a props.services := by
  rw [listed, Spelling.store, List.countP_map]
  exact List.countP_congr (fun s _ => lists_respell sp s)

def arm : String := "https://management.azure.com"

/-- The API stores the ids as relative paths, without the host in front. -/
def relative (id : String) : String :=
  if arm.toList.isPrefixOf id.toList then String.ofList (id.toList.drop arm.toList.length) else id

/-- The host is no part of the last two segments, so that cutting it off leaves the end as it is. -/
lemma suffix_of_suffix_arm {n rest : List Char}
    (h : "/backends".toList ++ '/' :: n <:+ lower arm ++ rest) :
    "/backends".toList ++ '/' :: n <:+ rest := by
  rcases List.suffix_or_suffix_of_suffix h (List.suffix_append (lower arm) rest) with hs | hs
  · exact hs
  · obtain ⟨u, hu⟩ := hs
    obtain ⟨t, ht⟩ := h
    rw [← hu, ← List.append_assoc] at ht
    have htail : u ∈ (lower arm).tails :=
      (List.mem_tails u _).2 ⟨t, List.append_cancel_right ht⟩
    have hhead : u.take 2 <+: ['/', 'b'] := by
      have htake : u.take 2 <+: (u ++ rest).take 2 := (List.prefix_append u rest).take 2
      rw [hu] at htake
      exact htake
    have hnone : ∀ u ∈ (lower arm).tails, u.take 2 <+: ['/', 'b'] → u = [] := by decide
    rw [hnone u htail hhead, List.nil_append] at hu
    rw [hu]

def relativeIds : Spelling where
  respell := relative
  keeps := by
    intro id n
    unfold relative
    split_ifs with harm
    · obtain ⟨rest, hrest⟩ := List.isPrefixOf_iff_prefix.1 harm
      have hrespell : lower (String.ofList (id.toList.drop arm.toList.length)) =
          rest.map Char.toLower := by
        rw [← hrest, List.drop_left, lower, String.toList_ofList]
      have hid : lower id = lower arm ++ rest.map Char.toLower := by
        rw [lower, ← hrest, List.map_append]
        rfl
      rw [hrespell, hid]
      exact ⟨fun h => h.trans (List.suffix_append _ _), suffix_of_suffix_arm⟩
    · exact Iff.rfl

end Pools
end TokenFoundry
