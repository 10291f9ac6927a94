import TokenFoundry.Api.Keys

/-!
# What a failed creation leaves behind

Creating a key writes to the gateway, to the vault, to the limits map and to the database, in this
order.  Where the limits cannot be published, the subscription and the secret are taken back; the
entry of the map is not, and the other failures take nothing back.

Any call of the request may fail, before its effect or after it; only the two calls that take
something back succeed.  `atomic_iff` says after which failures everything is as it was.
-/

set_option autoImplicit false

namespace TokenFoundry
namespace KeyAtomicity

open Prog.Raising (exec ends ends_bind ends_mono ends_then ends_ask ends_tryCatch)
open Keys (Tenant Project VirtualKey keysApi Handler ask client createKey subscriptionKeyName)
open KeyLimits

/-! ## The four systems -/

/-- The four systems that a creation writes to, with the tables that it reads: the rows of the
database, the subscriptions and the named value of the gateway, and the secrets of the vault. -/
structure Systems where
  projects : String → Option Project
  tenants : String → Option Tenant
  rows : List VirtualKey
  subscriptions : String → Option String
  secrets : String → Option String
  named : Option NvText

/-- The limits map, which is empty where the named value does not exist. -/
def Systems.map (s : Systems) : LimitsMap := (s.named.map NvText.parsed).getD ∅

/-- What has become of a call: answered, refused, or done without an answer. -/
inductive Fate
  | answered
  | refused
  | lost
  deriving DecidableEq

/-- The systems, with the calls that have been made.  The condition of the result speaks of these
calls only. -/
structure World where
  systems : Systems
  log : List (Keys.Call × Fate)

/-- What a request meets: the digits of the new id, the key of the subscription, the reference of
the secret, and which calls raise what, and whether after their effect. -/
structure Outcomes where
  hex : String
  primaryKey : Option String
  ref : String
  fails : ℕ → Option ({e : PyErr // e ≠ .resourceNotFound} × Bool)

/-- The calls of a creation, as the systems serve them. -/
def answer (o : Outcomes) (s : Systems) : (c : keysApi.Call) → keysApi.Reply c × Systems
  | .getProject id => (.ok (s.projects id), s)
  | .getTenant id => (.ok (s.tenants id), s)
  | .newId => (.ok o.hex, s)
  | .createSubscription id _ =>
      (.ok (), { s with subscriptions := Function.update s.subscriptions id (some "active") })
  | .subscriptionSecret _ => (.ok o.primaryKey, s)
  | .setSecret name value =>
      (.ok o.ref, { s with secrets := Function.update s.secrets name (some value) })
  | .getNamedValue => (match s.named with
      | some text => .ok ⟨text, none⟩
      | none => .error .resourceNotFound, s)
  | .putNamedValue m _ => (.ok (), { s with named := some (.limits m) })
  | .deleteSubscription id =>
      (if (s.subscriptions id).isNone then .error .resourceNotFound else .ok (),
        { s with subscriptions := Function.update s.subscriptions id none })
  | .deleteSecret name => (.ok (), { s with secrets := Function.update s.secrets name none })
  | .insertKey vk =>
      if s.rows.any (·.id = vk.id) then (.error .integrity, s)
      else (.ok (), { s with rows := s.rows ++ [vk] })
  | .refreshKey id => (match s.rows.find? (·.id = id) with
      | some vk => .ok vk
      | none => .error .invalidRequest, s)
  | _ => (.error .external, s)

/-- The calls that take something back.  They are assumed to be answered, since a creation whose
rollback fails can promise nothing. -/
def compensating : Keys.Call → Bool
  | .deleteSubscription _ => true
  | .deleteSecret _ => true
  | _ => false

/-- A call that has had its effect, whether its answer arrives or is lost. -/
def World.next (o : Outcomes) (w : World) (c : Keys.Call) (fate : Fate) : World :=
  ⟨(answer o w.systems c).2, w.log ++ [(c, fate)]⟩

def World.refused (w : World) (c : Keys.Call) : World := ⟨w.systems, w.log ++ [(c, .refused)]⟩

/-- Any call may fail but those that take something back. -/
def served (o : Outcomes) (c : keysApi.Call) (w : World) : keysApi.Reply c × World :=
  match if compensating c then none else o.fails w.log.length with
  | none => ((answer o w.systems c).1, w.next o c .answered)
  | some (e, true) => (.error e, w.next o c .lost)
  | some (e, false) => (.error e, w.refused c)

/-! ## What the log says -/

/-- The subscription has been created, possibly without the creation having been answered. -/
def made : Keys.Call × Fate → Bool
  | (.createSubscription _ _, .refused) => false
  | (.createSubscription _ _, _) => true
  | _ => false

/-- The vault has answered that the secret is stored; only then is the secret taken back. -/
def stored : Keys.Call × Fate → Bool
  | (.setSecret _ _, .answered) => true
  | _ => false

/-- The row has been sent, and behind this call nothing is taken back. -/
def inserting : Keys.Call × Fate → Bool
  | (.insertKey _, _) => true
  | _ => false

/-- The map has been written, and is another one than before the request. -/
def Changing (before : LimitsMap) : Keys.Call × Fate → Prop
  | (.putNamedValue m _, fate) => fate ≠ .refused ∧ m ≠ before
  | _ => False

/-- The request has failed at the limits, before the map was changed. -/
structure AtLimits (s : Systems) (log : List (Keys.Call × Fate)) : Prop where
  stored : ∃ e ∈ log, stored e = true
  inserting : ∀ e ∈ log, inserting e = false
  changing : ∀ e ∈ log, ¬ Changing s.map e

/-- The request has failed where nothing is left behind: before the subscription was created, or at
the limits, with the secret stored and the map as it was. -/
def Clean (s : Systems) (log : List (Keys.Call × Fate)) : Prop :=
  (∀ e ∈ log, made e = false) ∨ AtLimits s log

/-- The subscriptions, the secrets, the map and the rows are as they were. -/
structure Unchanged (s s' : Systems) : Prop where
  rows : s'.rows = s.rows
  subscriptions : s'.subscriptions = s.subscriptions
  secrets : s'.secrets = s.secrets
  map : s'.map = s.map

/-- Nothing is known under a new id, in none of the systems. -/
structure Fresh (s : Systems) (keyId : String) : Prop where
  subscription : s.subscriptions keyId = none
  secret : s.secrets (subscriptionKeyName keyId) = none
  entry : keyId ∉ s.map
  row : ∀ vk ∈ s.rows, vk.id ≠ keyId

/-- The failure is judged right: the systems are unchanged if and only if the calls say so. -/
def Judged (s : Systems) (w : World) : Prop := Unchanged s w.systems ↔ Clean s w.log

/-! ## The rule of a call -/

section Calls

variable {o : Outcomes} {w : World}

/-- The rule for one call: it is answered, or it raises with its effect or without.  The
compensating calls are spared the last two cases. -/
lemma ends_call {c : Keys.Call} {Q : c.Answer → World → Prop} {X : PyErr → World → Prop}
    (hanswer : ∀ a, (answer o w.systems c).1 = .ok a → Q a (w.next o c .answered))
    (hraise : ∀ e, (answer o w.systems c).1 = .error e → X e (w.next o c .answered))
    (hlost : compensating c = false → ∀ e, e ≠ .resourceNotFound → X e (w.next o c .lost))
    (hrefused : compensating c = false → ∀ e, e ≠ .resourceNotFound → X e (w.refused c)) :
    ends (served o) (ask c) Q X w := by
  refine ends_ask (E := keysApi) (o := c) (fun a ha => ?_) (fun e he => ?_)
  · unfold served at ha ⊢
    cases hfails : if compensating c then none else o.fails w.log.length with
    | none =>
        rw [hfails] at ha
        exact hanswer a ha
    | some failure =>
        obtain ⟨e, took⟩ := failure
        rw [hfails] at ha
        cases took <;> cases ha
  · unfold served at he ⊢
    cases hfails : if compensating c then none else o.fails w.log.length with
    | none =>
        rw [hfails] at he
        exact hraise e he
    | some failure =>
        obtain ⟨⟨e', hne⟩, took⟩ := failure
        have hc : compensating c = false := by
          by_contra hc
          rw [if_pos (by simpa using hc)] at hfails
          cases hfails
        rw [hfails] at he
        cases took with
        | true =>
            cases he
            exact hlost hc e' hne
        | false =>
            cases he
            exact hrefused hc e' hne

end Calls

/-! ## The stages of a creation -/

/-- A call that is none of those that the verdict asks for. -/
structure Plain (s : Systems) (e : Keys.Call × Fate) : Prop where
  made : made e = false
  stored : stored e = false
  inserting : inserting e = false
  changing : ¬ Changing s.map e

/-- The subscription is not created yet, and no call has changed anything. -/
structure Before (s : Systems) (w : World) : Prop where
  systems : w.systems = s
  plain : ∀ e ∈ w.log, Plain s e

/-- The subscription is there, and the secret is not.  A failure at this point leaves the
subscription behind. -/
structure Created (s : Systems) (keyId : String) (w : World) : Prop where
  systems : w.systems =
    { s with subscriptions := Function.update s.subscriptions keyId (some "active") }
  made : ∃ e ∈ w.log, made e = true
  rest : ∀ e ∈ w.log, stored e = false ∧ inserting e = false ∧ ¬ Changing s.map e

/-- The secret is stored, the row is not sent, and the log tells whether the map is another one. -/
structure Issued (s : Systems) (keyId : String) (w : World) : Prop where
  rows : w.systems.rows = s.rows
  made : ∃ e ∈ w.log, made e = true
  stored : ∃ e ∈ w.log, stored e = true
  inserting : ∀ e ∈ w.log, inserting e = false
  map : (w.systems.map = s.map ∧ ∀ e ∈ w.log, ¬ Changing s.map e) ∨
    (keyId ∈ w.systems.map ∧ ∃ e ∈ w.log, Changing s.map e)

/-- The subscription and the secret are there, which is what the rollback of the limits has to
remove. -/
structure Held (s : Systems) (keyId : String) (w : World) : Prop where
  subscriptions : w.systems.subscriptions = Function.update s.subscriptions keyId (some "active")
  secrets : ∃ value, w.systems.secrets =
    Function.update s.secrets (subscriptionKeyName keyId) (some value)

/-- The subscription is there, and will not be taken back. -/
structure Spoiled (s : Systems) (keyId : String) (w : World) : Prop where
  subscription : w.systems.subscriptions keyId ≠ none
  made : ∃ e ∈ w.log, made e = true
  late : (∀ e ∈ w.log, stored e = false) ∨ ∃ e ∈ w.log, inserting e = true

section Stages

variable {o : Outcomes} {s : Systems} {keyId : String} {w : World}

lemma Before.judged (h : Before s w) : Judged s w := by
  unfold Judged
  rw [h.systems]
  exact ⟨fun _ => .inl fun e he => (h.plain e he).made, fun _ => ⟨rfl, rfl, rfl, rfl⟩⟩

/-- Where the subscription stays behind, so does a trace in the log. -/
lemma Spoiled.judged (hfresh : Fresh s keyId) (h : Spoiled s keyId w) : Judged s w := by
  have hchanged : ¬ Unchanged s w.systems := fun hsame => by
    apply h.subscription
    rw [hsame.subscriptions]
    exact hfresh.subscription
  have hunclean : ¬ Clean s w.log := by
    rintro (hnone | hlimits)
    · obtain ⟨e, he, hmade⟩ := h.made
      rw [hnone e he] at hmade
      cases hmade
    · rcases h.late with hstored | ⟨e, he, hinserting⟩
      · obtain ⟨e, he, hyes⟩ := hlimits.stored
        rw [hstored e he] at hyes
        cases hyes
      · rw [hlimits.inserting e he] at hinserting
        cases hinserting
  exact ⟨fun h => absurd h hchanged, fun h => absurd h hunclean⟩

lemma Created.spoiled (h : Created s keyId w) : Spoiled s keyId w := by
  refine ⟨?_, h.made, .inl fun e he => (h.rest e he).1⟩
  rw [h.systems]
  simp

/-- Where the subscription and the secret are taken back, the map decides. -/
lemma Issued.judged (hfresh : Fresh s keyId) (h : Issued s keyId w)
    (hsubscriptions : w.systems.subscriptions = s.subscriptions)
    (hsecrets : w.systems.secrets = s.secrets) : Judged s w := by
  rcases h.map with ⟨hmap, hnone⟩ | ⟨hentry, e, he, hchanging⟩
  · exact ⟨fun _ => .inr ⟨h.stored, h.inserting, hnone⟩,
      fun _ => ⟨h.rows, hsubscriptions, hsecrets, hmap⟩⟩
  · have hchanged : ¬ Unchanged s w.systems := fun hsame => by
      rw [hsame.map] at hentry
      exact hfresh.entry hentry
    have hunclean : ¬ Clean s w.log := by
      rintro (hnone | hlimits)
      · obtain ⟨e', he', hmade⟩ := h.made
        rw [hnone e' he'] at hmade
        cases hmade
      · exact hlimits.changing e he hchanging
    exact ⟨fun h => absurd h hchanged, fun h => absurd h hunclean⟩

lemma Before.append (h : Before s w) {e : Keys.Call × Fate} (he : Plain s e) :
    Before s ⟨w.systems, w.log ++ [e]⟩ := by
  refine ⟨h.systems, fun e' he' => ?_⟩
  rcases List.mem_append.1 he' with he' | he'
  · exact h.plain e' he'
  · rw [List.mem_singleton.1 he']
    exact he

lemma Created.append (h : Created s keyId w) {e : Keys.Call × Fate} (he : Plain s e) :
    Created s keyId ⟨w.systems, w.log ++ [e]⟩ := by
  obtain ⟨e₀, he₀, hmade⟩ := h.made
  refine ⟨h.systems, ⟨e₀, List.mem_append_left _ he₀, hmade⟩, fun e' he' => ?_⟩
  rcases List.mem_append.1 he' with he' | he'
  · exact h.rest e' he'
  · rw [List.mem_singleton.1 he']
    exact ⟨he.stored, he.inserting, he.changing⟩

/-- A call that is not about the rows or the map. -/
lemma Issued.append (h : Issued s keyId w) {e : Keys.Call × Fate} (he : Plain s e)
    {systems : Systems} (hrows : systems.rows = w.systems.rows)
    (hmap : systems.map = w.systems.map) : Issued s keyId ⟨systems, w.log ++ [e]⟩ := by
  obtain ⟨e₀, he₀, hmade⟩ := h.made
  obtain ⟨e₁, he₁, hstored⟩ := h.stored
  refine ⟨hrows.trans h.rows, ⟨e₀, List.mem_append_left _ he₀, hmade⟩,
    ⟨e₁, List.mem_append_left _ he₁, hstored⟩, fun e' he' => ?_, ?_⟩
  · rcases List.mem_append.1 he' with he' | he'
    · exact h.inserting e' he'
    · rw [List.mem_singleton.1 he']
      exact he.inserting
  · rcases h.map with ⟨hsame, hnone⟩ | ⟨hentry, e₂, he₂, hchanging⟩
    · refine .inl ⟨hmap.trans hsame, fun e' he' => ?_⟩
      rcases List.mem_append.1 he' with he' | he'
      · exact hnone e' he'
      · rw [List.mem_singleton.1 he']
        exact he.changing
    · exact .inr ⟨by rw [hmap]; exact hentry, e₂, List.mem_append_left _ he₂, hchanging⟩

/-- A write that puts the key into the map.  Its entry is not taken back, whatever comes later. -/
lemma Issued.write (hfresh : Fresh s keyId) (h : Issued s keyId w) {m : LimitsMap} {im : IfMatch}
    {fate : Fate} (hfate : fate ≠ .refused) (hm : keyId ∈ m) :
    Issued s keyId (w.next o (.putNamedValue m im) fate) := by
  obtain ⟨e₀, he₀, hmade⟩ := h.made
  obtain ⟨e₁, he₁, hstored⟩ := h.stored
  have hchanging : Changing s.map (.putNamedValue m im, fate) :=
    ⟨hfate, fun hsame => hfresh.entry (hsame ▸ hm)⟩
  refine ⟨h.rows, ⟨e₀, List.mem_append_left _ he₀, hmade⟩,
    ⟨e₁, List.mem_append_left _ he₁, hstored⟩, fun e' he' => ?_,
    .inr ⟨hm, _, List.mem_append_right _ (List.mem_singleton_self _), hchanging⟩⟩
  rcases List.mem_append.1 he' with he' | he'
  · exact h.inserting e' he'
  · rw [List.mem_singleton.1 he']
    rfl

end Stages

/-! ## Publishing the limits -/

section Publishing

variable {o : Outcomes} {s : Systems} {keyId : String} {w : World}

/-- The loop on the named value keeps what its reads and its writes keep. -/
lemma ends_loop {merge : LimitsMap → Except PyErr (Option LimitsMap)} {P : World → Prop}
    (hread : ∀ w fate, P w → P ⟨w.systems, w.log ++ [(.getNamedValue, fate)]⟩)
    (hrefused : ∀ w m im, P w → P (w.refused (.putNamedValue m im)))
    (hwrite : ∀ w m im fate, P w → merge w.systems.map = .ok (some m) → fate ≠ .refused →
      P (w.next o (.putNamedValue m im) fate)) (hw : P w) :
    ends (served o) (readMergeWrite client merge 3) (fun _ => P) (fun _ => P) w := by
  refine ends_readMergeWrite P (fun m w => P w ∧ m = w.systems.map) (fun w hw => ?_)
    (fun m e w h _ => h.1) (fun m w h _ => h.1) (fun m im m' w h hm => ?_) (by decide) hw
  · refine ends_call (c := .getNamedValue) (fun nv hnv => ?_) (fun e he => ?_) (fun _ e hne => ?_)
      (fun _ e hne => ?_)
    · refine ⟨hread w .answered hw, ?_⟩
      simp only [answer] at hnv
      cases hnamed : w.systems.named with
      | none =>
          rw [hnamed] at hnv
          cases hnv
      | some text =>
          rw [hnamed] at hnv
          cases hnv
          simp [World.next, answer, Systems.map, hnamed]
    · simp only [answer] at he
      cases hnamed : w.systems.named with
      | none =>
          rw [hnamed] at he
          cases he
          rw [if_pos rfl]
          exact ⟨hread w .answered hw, by simp [World.next, answer, Systems.map, hnamed]⟩
      | some text =>
          rw [hnamed] at he
          cases he
    · rw [if_neg hne]
      exact hread w .lost hw
    · rw [if_neg hne]
      exact hread w .refused hw
  · obtain ⟨hP, rfl⟩ := h
    exact ends_call (c := .putNamedValue m' im) (fun _ _ => hwrite w m' im _ hP hm (by simp))
      (fun e he => nomatch he) (fun _ e _ => ⟨hwrite w m' im _ hP hm (by simp),
        hwrite w m' im _ hP hm (by simp)⟩) (fun _ e _ => ⟨hrefused w m' im hP, hrefused w m' im hP⟩)

/-- The entry of a new key, before its audit flag. -/
def limitEntry (body : VirtualKeyCreate) : Entry where
  t := body.tokensPerMinute
  qt := (body.tokenQuotaTier.map TokenQuotaTier.value).filter (fun q => q ≠ "none")
  p := body.tokenQuotaPeriod.map TokenQuotaPeriod.value
  a := none

/-- Publishing goes on; a key without limits has not changed the map. -/
structure Publishing (s : Systems) (keyId : String) (limited : Prop) (w : World) : Prop where
  held : Held s keyId w
  issued : Issued s keyId w
  same : ¬ limited → w.systems.map = s.map ∧ ∀ e ∈ w.log, ¬ Changing s.map e

lemma mem_of_lookup {m : LimitsMap} {e : Entry} (h : m.lookup keyId = some e) : keyId ∈ m := by
  rw [← Finmap.lookup_isSome, h]
  rfl

/-- The reads, and the writes that are refused, leave the systems as they are and add a call that
decides nothing. -/
lemma Publishing.append {limited : Prop} (h : Publishing s keyId limited w)
    {e : Keys.Call × Fate} (he : Plain s e) :
    Publishing s keyId limited ⟨w.systems, w.log ++ [e]⟩ := by
  refine ⟨⟨h.held.subscriptions, h.held.secrets⟩, h.issued.append he rfl rfl, fun hnot => ?_⟩
  refine ⟨(h.same hnot).1, fun e' he' => ?_⟩
  rcases List.mem_append.1 he' with he' | he'
  · exact (h.same hnot).2 e' he'
  · rw [List.mem_singleton.1 he']
    exact he.changing

lemma plain_read (fate : Fate) : Plain s (.getNamedValue, fate) := ⟨rfl, rfl, rfl, id⟩

lemma plain_refused (m : LimitsMap) (im : IfMatch) : Plain s (.putNamedValue m im, .refused) :=
  ⟨rfl, rfl, rfl, fun h => h.1 rfl⟩

/-- A write that puts the key into the map; it is the first thing that is left behind. -/
lemma Publishing.write {limited : Prop} (hfresh : Fresh s keyId) (hlimited : limited)
    (h : Publishing s keyId limited w) {m : LimitsMap} {im : IfMatch} {fate : Fate}
    (hfate : fate ≠ .refused) (hm : keyId ∈ m) :
    Publishing s keyId limited (w.next o (.putNamedValue m im) fate) :=
  ⟨⟨h.held.subscriptions, h.held.secrets⟩, h.issued.write hfresh hfate hm,
    fun hnot => absurd hlimited hnot⟩

/-- A write that leaves the map as it is, as it happens for a key without limits. -/
lemma Publishing.rewrite {limited : Prop} (hnot : ¬ limited) (h : Publishing s keyId limited w)
    {m : LimitsMap} {im : IfMatch} {fate : Fate} (hm : m = s.map) :
    Publishing s keyId limited (w.next o (.putNamedValue m im) fate) := by
  obtain ⟨hmap, hnone⟩ := h.same hnot
  have hplain : Plain s (.putNamedValue m im, fate) := ⟨rfl, rfl, rfl, fun hc => hc.2 hm⟩
  have hwritten : (w.next o (.putNamedValue m im) fate).systems.map = s.map := hm
  refine ⟨⟨h.held.subscriptions, h.held.secrets⟩,
    h.issued.append hplain rfl (hwritten.trans hmap.symm), fun _ => ⟨hwritten, fun e he => ?_⟩⟩
  rcases List.mem_append.1 he with he | he
  · exact hnone e he
  · rw [List.mem_singleton.1 he]
    exact hplain.changing

/-- The first loop: a key with limits gets into the map, and a key without any leaves it. -/
lemma ends_upsert (hfresh : Fresh s keyId) (body : VirtualKeyCreate)
    (h : Publishing s keyId (limitEntry body ≠ .empty) w) :
    ends (served o) (upsertKeyLimits client keyId body.tokensPerMinute
        (body.tokenQuotaTier.map TokenQuotaTier.value)
        (body.tokenQuotaPeriod.map TokenQuotaPeriod.value))
      (fun _ => Publishing s keyId (limitEntry body ≠ .empty))
      (fun _ => Publishing s keyId (limitEntry body ≠ .empty)) w := by
  refine ends_loop (fun w fate h => h.append (plain_read fate))
    (fun w m im h => h.append (plain_refused m im)) (fun w m im fate h hmerge hfate => ?_) h
  unfold upsertMerge at hmerge
  cases hout : mergeKeyLimit w.systems.map keyId body.tokensPerMinute
      (body.tokenQuotaTier.map TokenQuotaTier.value)
      (body.tokenQuotaPeriod.map TokenQuotaPeriod.value) with
  | error e =>
      rw [hout] at hmerge
      cases hmerge
  | ok out =>
      rw [hout] at hmerge
      cases hmerge
      obtain ⟨hstore, -⟩ := mergeKeyLimit_eq_ok hout
      -- With limits the write puts the entry of the key in; without any it writes the map back as
      -- it was.
      by_cases hlimited : limitEntry body ≠ .empty
      · refine h.write hfresh hlimited hfate ?_
        set entry : Entry := ⟨body.tokensPerMinute,
          (body.tokenQuotaTier.map TokenQuotaTier.value).filter (fun q => q ≠ "none"),
          body.tokenQuotaPeriod.map TokenQuotaPeriod.value,
          (((w.systems.map.lookup keyId).getD .empty).a).filter (fun n => n ≠ 0)⟩ with hentry
        have hne : entry ≠ .empty := by
          intro hempty
          rw [hentry] at hempty
          simp only [Entry.empty, Entry.mk.injEq] at hempty
          obtain ⟨ht, hqt, hp, -⟩ := hempty
          apply hlimited
          unfold limitEntry
          rw [ht, hqt, hp]
          rfl
        have hlookup : m.lookup keyId = some entry := by
          rw [hstore, lookup_store, if_pos rfl, if_neg hne]
        exact mem_of_lookup hlookup
      · obtain ⟨hmap, -⟩ := h.same hlimited
        have habsent : s.map.lookup keyId = none := Finmap.lookup_eq_none.2 hfresh.entry
        refine h.rewrite hlimited ?_
        rw [hstore, hmap, habsent]
        refine store_self ?_
        rw [habsent]
        refine (if_pos ?_).symm
        exact not_not.1 hlimited

/-- The second loop: the flag gets into the map in any case. -/
lemma ends_audit (hfresh : Fresh s keyId) (h : Publishing s keyId True w) :
    ends (served o) (setAuditFlag client [keyId] true) (fun _ => Publishing s keyId True)
      (fun _ => Publishing s keyId True) w := by
  unfold setAuditFlag
  rw [if_neg (by simp)]
  refine ends_loop (fun w fate h => h.append (plain_read fate))
    (fun w m im h => h.append (plain_refused m im)) (fun w m im fate h hmerge hfate => ?_) h
  refine h.write hfresh trivial hfate ?_
  have hflag : (([keyId].foldl (flagEntry true) w.systems.map).lookup keyId).bind Entry.a =
      some 1 :=
    flag_foldl_flagEntry (List.mem_singleton_self keyId) w.systems.map
  rw [← auditMerge_eq_ok hmerge] at hflag
  obtain ⟨e, he, -⟩ := Option.bind_eq_some_iff.1 hflag
  exact mem_of_lookup he

/-- What is taken back when the limits cannot be published. -/
lemma ends_takeBack (hfresh : Fresh s keyId) {limited : Prop} (h : Publishing s keyId limited w)
    (e : PyErr) {Q : Unit → World → Prop} :
    ends (served o) (do
        Keys.swallow (Keys.deleteSubscription keyId)
        Keys.swallow (ask (.deleteSecret (subscriptionKeyName keyId)))
        throw e : Handler Unit) Q (fun _ => Judged s) w := by
  obtain ⟨value, hsecrets⟩ := h.held.secrets
  set w₁ : World := w.next o (.deleteSubscription keyId) .answered with hw₁
  set w₂ : World := w₁.next o (.deleteSecret (subscriptionKeyName keyId)) .answered with hw₂
  have hjudged : Judged s w₂ := by
    have hissued : Issued s keyId w₂ := by
      have hplain₁ : Plain s (.deleteSubscription keyId, .answered) := ⟨rfl, rfl, rfl, id⟩
      have hplain₂ : Plain s (.deleteSecret (subscriptionKeyName keyId), .answered) :=
        ⟨rfl, rfl, rfl, id⟩
      exact (h.issued.append hplain₁ rfl rfl).append hplain₂ rfl rfl
    refine hissued.judged hfresh ?_ ?_
    · show Function.update w.systems.subscriptions keyId none = s.subscriptions
      rw [h.held.subscriptions, Function.update_idem, ← hfresh.subscription,
        Function.update_eq_self]
    · show Function.update w.systems.secrets (subscriptionKeyName keyId) none = s.secrets
      rw [hsecrets, Function.update_idem, ← hfresh.secret, Function.update_eq_self]
  -- Neither call of the compensation can end it, since what each of them raises is swallowed.
  have hfirst : ends (served o) (Keys.swallow (Keys.deleteSubscription keyId)) (fun _ => (· = w₁))
      (fun _ _ => False) w := by
    unfold Keys.swallow Keys.deleteSubscription
    refine (ends_tryCatch _ _).2 ((ends_tryCatch _ _).2 ?_)
    refine ends_call (c := .deleteSubscription keyId) (fun _ _ => rfl) (fun e he => ?_)
      (fun hc => nomatch hc) (fun hc => nomatch hc)
    cases e <;> exact rfl
  have hsecond : ends (served o) (Keys.swallow (ask (.deleteSecret (subscriptionKeyName keyId))))
      (fun _ => (· = w₂)) (fun _ _ => False) w₁ := by
    unfold Keys.swallow
    refine (ends_tryCatch _ _).2 ?_
    exact ends_call (c := .deleteSecret (subscriptionKeyName keyId)) (fun _ _ => rfl)
      (fun e he => nomatch he) (fun hc => nomatch hc) (fun hc => nomatch hc)
  refine (ends_bind _ _).2 (ends_mono (fun _ w' hw' => ?_) (fun _ _ h => h.elim) hfirst)
  rw [hw']
  refine (ends_bind _ _).2 (ends_mono (fun _ w' hw' => ?_) (fun _ _ h => h.elim) hsecond)
  rw [hw']
  exact hjudged

/-- Publishing either goes through, or is judged right.  Where it raises, the subscription and the
secret are taken back, and the entry is there if a write has had its effect. -/
lemma ends_publishLimits (hfresh : Fresh s keyId) (body : VirtualKeyCreate) (auditEnabled : Bool)
    (h : Publishing s keyId (limitEntry body ≠ .empty) w) :
    ends (served o) (Keys.publishLimits keyId body auditEnabled)
      (fun _ => Publishing s keyId True) (fun _ => Judged s) w := by
  unfold Keys.publishLimits
  have hany : ∀ {limited : Prop} {w : World}, Publishing s keyId limited w →
      Publishing s keyId True w := fun h => ⟨h.held, h.issued, fun hnot => absurd trivial hnot⟩
  have hloops : ends (served o) (do
      upsertKeyLimits client keyId body.tokensPerMinute
        (body.tokenQuotaTier.map TokenQuotaTier.value)
        (body.tokenQuotaPeriod.map TokenQuotaPeriod.value)
      if auditEnabled then
        setAuditFlag client [keyId] true) (fun _ => Publishing s keyId True)
      (fun _ => Publishing s keyId True) w := by
    refine (ends_bind _ _).2 (ends_mono (fun _ w' h' => ?_) (fun _ _ h => hany h)
      (ends_upsert hfresh body h))
    split_ifs
    · exact ends_audit hfresh (hany h')
    · exact hany h'
  exact (ends_tryCatch _ _).2 (ends_mono (fun _ _ h => h)
    (fun e w' h' => ends_takeBack hfresh h' _) hloops)

end Publishing

/-! ## The request -/

section Creation

variable {o : Outcomes} {s : Systems} {keyId : String} {w : World}

/-- A call before the subscription is created: it changes no system, so the failure is judged by the
empty list of changes. -/
lemma ends_before {c : Keys.Call} (hkeeps : ∀ s, (answer o s c).2 = s)
    (hplain : ∀ fate, Plain s (c, fate)) (h : Before s w) :
    ends (served o) (ask c) (fun a w' => (answer o s c).1 = .ok a ∧ Before s w')
      (fun _ => Before s) w := by
  have hnext : ∀ fate, Before s (w.next o c fate) := by
    intro fate
    have hsame : w.next o c fate = ⟨w.systems, w.log ++ [(c, fate)]⟩ := by
      unfold World.next
      rw [hkeeps]
    rw [hsame]
    exact h.append (hplain fate)
  exact ends_call (fun a ha => ⟨h.systems ▸ ha, hnext _⟩) (fun _ _ => hnext _)
    (fun _ _ _ => hnext _) (fun _ _ _ => h.append (hplain _))

/-- The subscription is created and its key is read; where the read fails the subscription stays
behind. -/
lemma ends_createSubscription (hfresh : Fresh s keyId) (displayName : String) (h : Before s w) :
    ends (served o) (Keys.createSubscription keyId displayName) (fun _ => Created s keyId)
      (fun _ => Judged s) w := by
  have hmade : ∀ fate, fate ≠ .refused →
      Created s keyId (w.next o (.createSubscription keyId displayName) fate) := by
    intro fate hfate
    refine ⟨?_, ⟨_, List.mem_append_right _ (List.mem_singleton_self _), ?_⟩, fun e he => ?_⟩
    · simp [World.next, answer, h.systems]
    · cases fate
      · rfl
      · exact absurd rfl hfate
      · rfl
    · rcases List.mem_append.1 he with he | he
      · have hplain := h.plain e he
        exact ⟨hplain.stored, hplain.inserting, hplain.changing⟩
      · rw [List.mem_singleton.1 he]
        exact ⟨rfl, rfl, id⟩
  have hread : ∀ w', Created s keyId w' → ends (served o) (ask (.subscriptionSecret keyId))
      (fun _ => Created s keyId) (fun _ => Judged s) w' := by
    intro w' h'
    have hnext : ∀ fate, Created s keyId (w'.next o (.subscriptionSecret keyId) fate) :=
      fun fate => h'.append ⟨rfl, rfl, rfl, id⟩
    exact ends_call (c := .subscriptionSecret keyId) (fun _ _ => hnext _)
      (fun _ _ => (hnext _).spoiled.judged hfresh) (fun _ _ _ => (hnext _).spoiled.judged hfresh)
      (fun _ _ _ => (h'.append ⟨rfl, rfl, rfl, id⟩).spoiled.judged hfresh)
  unfold Keys.createSubscription
  refine (ends_bind _ _).2 (ends_mono (fun _ w' h' => ?_) (fun _ _ h => h)
    (ends_call (c := .createSubscription keyId displayName) (Q := fun _ => Created s keyId)
      (X := fun _ => Judged s) (fun _ _ => hmade _ (by simp)) (fun e he => nomatch he)
      (fun _ _ _ => (hmade _ (by simp)).spoiled.judged hfresh) (fun _ _ _ => ?_)))
  · exact ends_then (hread w' h') (fun _ _ h => h)
  · exact (h.append ⟨rfl, rfl, rfl, id⟩).judged

/-- The secret is stored.  Where it is not, the subscription has been created and is not taken
back. -/
lemma ends_setSecret (hfresh : Fresh s keyId) (value : String) (limited : Prop)
    (h : Created s keyId w) :
    ends (served o) (ask (.setSecret (subscriptionKeyName keyId) value))
      (fun _ => Publishing s keyId limited) (fun _ => Judged s) w := by
  obtain ⟨e₀, he₀, hmade⟩ := h.made
  have hspoiled : ∀ (systems : Systems) fate, fate ≠ .answered →
      systems.subscriptions = w.systems.subscriptions → Spoiled s keyId
        ⟨systems, w.log ++ [(.setSecret (subscriptionKeyName keyId) value, fate)]⟩ := by
    intro systems fate hfate hsame
    refine ⟨?_, ⟨e₀, List.mem_append_left _ he₀, hmade⟩, .inl fun e he => ?_⟩
    · show systems.subscriptions keyId ≠ none
      rw [hsame]
      exact h.spoiled.subscription
    · rcases List.mem_append.1 he with he | he
      · exact (h.rest e he).1
      · rw [List.mem_singleton.1 he]
        cases fate
        · exact absurd rfl hfate
        · rfl
        · rfl
  refine ends_call (c := .setSecret (subscriptionKeyName keyId) value) (fun _ _ => ?_)
    (fun e he => nomatch he)
    (fun _ _ _ => (hspoiled (answer o w.systems _).2 .lost (by simp) rfl).judged hfresh)
    (fun _ _ _ => (hspoiled w.systems .refused (by simp) rfl).judged hfresh)
  have hmap : (w.next o (.setSecret (subscriptionKeyName keyId) value) .answered).systems.map =
      s.map := by
    show w.systems.map = s.map
    rw [h.systems]
    rfl
  have hnone : ∀ e ∈ w.log ++
      [(Keys.Call.setSecret (subscriptionKeyName keyId) value, Fate.answered)],
      inserting e = false ∧ ¬ Changing s.map e := by
    intro e he
    rcases List.mem_append.1 he with he | he
    · exact (h.rest e he).2
    · rw [List.mem_singleton.1 he]
      exact ⟨rfl, id⟩
  refine ⟨⟨?_, value, ?_⟩, ⟨?_, ⟨e₀, List.mem_append_left _ he₀, hmade⟩,
    ⟨_, List.mem_append_right _ (List.mem_singleton_self _), rfl⟩, fun e he => (hnone e he).1,
    .inl ⟨hmap, fun e he => (hnone e he).2⟩⟩, fun _ => ⟨hmap, fun e he => (hnone e he).2⟩⟩
  · simp [World.next, answer, h.systems]
  · simp [World.next, answer, h.systems]
  · simp [World.next, answer, h.systems]

/-- Once the row is sent, nothing is taken back: a failure is one that leaves the subscription
behind, whether the row is there or not. -/
lemma ends_insertKey (hfresh : Fresh s keyId) (vk : VirtualKey) (h : Publishing s keyId True w) :
    ends (served o) (ask (.insertKey vk)) (fun _ => Spoiled s keyId) (fun _ => Judged s) w := by
  obtain ⟨e₀, he₀, hmade⟩ := h.issued.made
  have hsubscription : w.systems.subscriptions keyId ≠ none := by
    rw [h.held.subscriptions]
    simp
  have hsent : ∀ (systems : Systems) fate, systems.subscriptions = w.systems.subscriptions →
      Spoiled s keyId ⟨systems, w.log ++ [(.insertKey vk, fate)]⟩ := by
    intro systems fate hsame
    refine ⟨?_, ⟨e₀, List.mem_append_left _ he₀, hmade⟩,
      .inr ⟨_, List.mem_append_right _ (List.mem_singleton_self _), rfl⟩⟩
    show systems.subscriptions keyId ≠ none
    rw [hsame]
    exact hsubscription
  have hrows : (answer o w.systems (.insertKey vk)).2.subscriptions = w.systems.subscriptions := by
    simp only [answer]
    split_ifs <;> rfl
  exact ends_call (c := .insertKey vk) (fun _ _ => hsent _ _ hrows)
    (fun _ _ => (hsent _ _ hrows).judged hfresh) (fun _ _ _ => (hsent _ .lost hrows).judged hfresh)
    (fun _ _ _ => (hsent w.systems .refused rfl).judged hfresh)

lemma ends_refreshKey (hfresh : Fresh s keyId) (h : Spoiled s keyId w) :
    ends (served o) (ask (.refreshKey keyId)) (fun _ _ => True) (fun _ => Judged s) w := by
  obtain ⟨e₁, he₁, hmade⟩ := h.made
  have hread : ∀ fate, Spoiled s keyId ⟨w.systems, w.log ++ [(.refreshKey keyId, fate)]⟩ := by
    intro fate
    refine ⟨h.subscription, ⟨e₁, List.mem_append_left _ he₁, hmade⟩, ?_⟩
    rcases h.late with hnone | ⟨e, he, hinserting⟩
    · refine .inl fun e he => ?_
      rcases List.mem_append.1 he with he | he
      · exact hnone e he
      · rw [List.mem_singleton.1 he]
        rfl
    · exact .inr ⟨e, List.mem_append_left _ he, hinserting⟩
  exact ends_call (c := .refreshKey keyId) (fun _ _ => trivial)
    (fun _ _ => (hread .answered).judged hfresh) (fun _ _ _ => (hread .lost).judged hfresh)
    (fun _ _ _ => (hread .refused).judged hfresh)

/-- A creation that fails is judged right.  The steps follow each other as the code has them, each
with its own lemma above. -/
lemma ends_createKey (body : VirtualKeyCreate) (hfresh : Fresh s ("vk_" ++ o.hex)) :
    ends (served o) (createKey body) (fun _ _ => True) (fun _ => Judged s) ⟨s, []⟩ := by
  have hbegin : Before s ⟨s, []⟩ := ⟨rfl, fun e he => nomatch he⟩
  have hjudged : ∀ (e : PyErr) w', Before s w' → Judged s w' := fun _ _ h => h.judged
  unfold createKey
  refine (ends_bind _ _).2 (ends_mono (fun project w₁ h₁ => ?_) hjudged
    (ends_before (c := .getProject body.projectId) (fun _ => rfl) (fun _ => ⟨rfl, rfl, rfl, id⟩)
      hbegin))
  cases project with
  | none => exact h₁.2.judged
  | some project =>
      refine (ends_bind _ _).2 (ends_mono (fun tenant w₂ h₂ => ?_) hjudged
        (ends_before (c := .getTenant project.tenantId) (fun _ => rfl)
          (fun _ => ⟨rfl, rfl, rfl, id⟩) h₁.2))
      cases tenant with
      | none => exact h₂.2.judged
      | some tenant =>
          dsimp only
          by_cases hproducts : tenant.apimProductIds = []
          · rw [if_pos hproducts]
            exact h₂.2.judged
          rw [if_neg hproducts]
          refine (ends_bind _ _).2 (ends_mono (fun hex w₃ h₃ => ?_) hjudged
            (ends_before (c := .newId) (fun _ => rfl) (fun _ => ⟨rfl, rfl, rfl, id⟩) h₂.2))
          obtain ⟨hhex, h₃⟩ := h₃
          obtain rfl : o.hex = hex := Except.ok.inj hhex
          refine ends_then (ends_createSubscription hfresh _ h₃) (fun keyValue w₄ h₄ => ?_)
          refine ends_then (ends_setSecret hfresh keyValue (limitEntry body ≠ .empty) h₄)
            (fun kvRef w₅ h₅ => ?_)
          refine ends_then (ends_publishLimits hfresh body tenant.auditEnabled h₅)
            (fun _ w₆ h₆ => ?_)
          refine ends_then (ends_insertKey hfresh _ h₆) (fun _ w₇ h₇ => ?_)
          exact ends_then (ends_refreshKey hfresh h₇) (fun _ _ _ => trivial)

/-- A creation that returns no key leaves everything as it was. -/
def Atomic (o : Outcomes) (body : VirtualKeyCreate) (s : Systems) : Prop :=
  ∀ e w, exec (served o) (createKey body) ⟨s, []⟩ = (.error e, w) → Unchanged s w.systems

/-- A creation that returns no key has failed where nothing is left behind. -/
def FailsClean (o : Outcomes) (body : VirtualKeyCreate) (s : Systems) : Prop :=
  ∀ e w, exec (served o) (createKey body) ⟨s, []⟩ = (.error e, w) → Clean s w.log

/-- **When the creation of a key is atomic**: if it fails, it fails before it has created the
subscription, or at the limits before the map was changed. -/
theorem atomic_iff (o : Outcomes) (body : VirtualKeyCreate) (s : Systems)
    (hfresh : Fresh s ("vk_" ++ o.hex)) : Atomic o body s ↔ FailsClean o body s := by
  obtain ⟨r, w, hexec, -, hjudged⟩ := Prog.Raising.exec_of_ends
    (ends_createKey (o := o) body hfresh)
  unfold Atomic FailsClean
  rw [hexec]
  constructor
  · rintro h e w' ⟨⟩
    exact (hjudged e rfl).1 (h e w rfl)
  · rintro h e w' ⟨⟩
    exact (hjudged e rfl).2 (h e w rfl)

end Creation

/-! ## Two failures -/

/-- A tenant with one project, and no keys; nothing is known under any id. -/
def noKeys : Systems where
  projects id := if id = "p" then some ⟨"p", "t", "project"⟩ else none
  tenants id := if id = "t" then some ⟨"t", "tenant", .resell, ["starter"], false⟩ else none
  rows := []
  subscriptions _ := none
  secrets _ := none
  named := none

lemma noKeys_fresh (keyId : String) : Fresh noKeys keyId :=
  ⟨rfl, rfl, Finmap.notMem_empty, fun _ h => nomatch h⟩

/-- A key with one limit, so that its entry has to be published. -/
def oneLimit : VirtualKeyCreate where
  projectId := "p"
  tokensPerMinute := some 1000
  tokenQuotaTier := none
  tokenQuotaPeriod := none
  tpm_bounds := by
    rintro n ⟨⟩
    decide
  quota_pair := rfl

/-- One call is refused, and all the others are answered. -/
def failing (call : ℕ) : Outcomes where
  hex := "0"
  primaryKey := some "key"
  ref := "reference"
  fails n := if n = call then some (⟨.external, by decide⟩, false) else none

/-- The creation that meets the failure, from the systems without keys. -/
def failedRun (call : ℕ) : Except PyErr (VirtualKey × String) × World :=
  exec (served (failing call)) (createKey oneLimit) ⟨noKeys, []⟩

/-- The calls that are answered before the limits are read. -/
def beforeLimits : List (Keys.Call × Fate) :=
  [(.getProject "p", .answered), (.getTenant "t", .answered), (.newId, .answered),
    (.createSubscription "vk_0" "tenant/project/vk_0", .answered),
    (.subscriptionSecret "vk_0", .answered), (.setSecret "vk-0" "key", .answered)]

/-- The read of the limits map fails: the subscription and the secret are taken back. -/
theorem atomic_at_limits : Atomic (failing 6) oneLimit noKeys := by
  refine (atomic_iff (failing 6) oneLimit noKeys (noKeys_fresh _)).2 ?_
  intro e w hexec
  have hlog : (failedRun 6).2.log = beforeLimits ++
      [(.getNamedValue, .refused), (.deleteSubscription "vk_0", .answered),
        (.deleteSecret "vk-0", .answered)] := by rfl
  have hw : (failedRun 6).2 = w := congrArg Prod.snd hexec
  rw [hw] at hlog
  refine .inr ⟨?_, ?_, ?_⟩ <;> simp [hlog, beforeLimits, stored, inserting, Changing]

/-- The commit of the row fails: the subscription stays, active and without a row. -/
theorem leaves_subscription :
    ¬ ∀ (o : Outcomes) (body : VirtualKeyCreate) (s : Systems), Fresh s ("vk_" ++ o.hex) →
      Atomic o body s := by
  intro h
  have hfails : (failedRun 8).1 = .error .external := by rfl
  have hstays : (failedRun 8).2.systems.subscriptions "vk_0" = some "active" := by rfl
  have hsame : Unchanged noKeys (failedRun 8).2.systems :=
    h (failing 8) oneLimit noKeys (noKeys_fresh _) .external _ (Prod.ext hfails rfl)
  rw [hsame.subscriptions] at hstays
  cases hstays

end KeyAtomicity
end TokenFoundry
