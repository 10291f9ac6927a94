import TokenFoundry.Services.BudgetEnforcer
import TokenFoundry.Properties.KeyLedger

/-!
# A suspended key is suspended at the gateway

`suspend_key` and `add_spend` switch a subscription off first and record it afterwards.  Whatever
call fails in between, the database only says `SUSPENDED` of keys whose subscription is off
(`suspended_off`), in every state and not only between requests.  And an execution of `add_spend`
that returns for a `BLOCK` budget whose spend has reached the limit leaves no key in its scope that
has a subscription and is not suspended (`add_spend_suspends`): the loop skips a key that is marked
already, which by the invariant is off.
-/

set_option autoImplicit false

namespace TokenFoundry
namespace Suspension

open Keys (VirtualKey keysApi client withDb)
open KeyLedger (Ledger Pick)
open BudgetEnforcer (Budget budgetsApi enforcerApi)

variable {K : Type}

/-! ## The world -/

/-- The keys, and the budgets; the enforcer reads both and suspends keys. -/
structure Books (K : Type) where
  ledger : Ledger
  budgets : String → Option (Budget K)

/-- The key is one of those the budget is about. -/
def inScope (w : Ledger) (scope : BudgetScope) (targetId : String) (k : VirtualKey) : Bool :=
  match scope with
  | .key => k.id = targetId
  | .project => k.projectId = targetId
  | .tenant => (w.projects k.projectId).any (fun p => p.tenantId = targetId)

/-- The rows with these ids are suspended, and the gateway is not asked. -/
def suspendRows (w : Ledger) (ids : List String) : Ledger :=
  { w with keys := w.keys.map (fun k => if k.id ∈ ids then { k with status := .suspended } else k) }

/-- How the services answer: the calls on the keys as in the ledger, and the two queries of the
enforcer on both tables. -/
def serve (w : Books K) :
    (o : (enforcerApi K).Call) → Pick → Option ((enforcerApi K).Reply o × Books K)
  | .inl o, p => (KeyLedger.serve w.ledger o p).map (fun s => (s.1, { w with ledger := s.2 }))
  | .inr (.keysInScope scope targetId), _ =>
      some (.ok (w.ledger.keys.filter (inScope w.ledger scope targetId)), w)
  | .inr (.commitSpend id spent ids), _ =>
      match w.budgets id with
      | none => some (.error .staleData, w)
      | some budget => some (.ok (), {
          ledger := suspendRows w.ledger ids
          budgets := Function.update w.budgets id (some { budget with spentUsd := some spent }) })

def mayFail : (enforcerApi K).Call → PyErr → Bool
  | .inl o, e => KeyLedger.mayFail o e
  | .inr _, _ => true

def env (K : Type) : Env (enforcerApi K) Unit (Books K) :=
  .faulty (fun _ => serve) mayFail mayFail (fun _ _ => False)

lemma env_drift (w w' : Books K) : ¬ (env K).drift w w' := id

/-! ## Requests -/

inductive Request (K : Type)
  | key (q : KeyLedger.Request)
  | spend (budget : Budget K) (amountUsd : K)

/-- The program of a request, on the keys or on the spend of a budget. -/
def Request.handler [PyFloat K] : Request K → Prog.Raising (enforcerApi K) Unit
  | .key q => q.handler.inl (budgetsApi K)
  | .spend budget amountUsd => do let _ ← BudgetEnforcer.addSpend budget amountUsd

/-! ## The invariant -/

/-- The subscription is suspended or absent, so that the gateway refuses its key. -/
def Off (s : String) (w : Ledger) : Prop :=
  w.subscriptions s = none ∨ w.subscriptions s = some "suspended"

/-- The subscription of the key is suspended or absent; a key without one is off in any case. -/
def KeyOff (w : Ledger) (k : VirtualKey) : Prop := ∀ s ∈ k.subscription, Off s w

/-- Suspended in the database, off at the gateway.  The converse may fail, when a suspension stops
half way. -/
structure Inv (w : Ledger) : Prop where
  wellFormed : w.WellFormed
  off : ∀ k ∈ w.keys, k.status = .suspended → KeyOff w k

/-- The call switches no subscription of a suspended key on, and marks no key that is on. -/
def Harmless (w : Ledger) : Keys.Call → Prop
  | .createSubscription id _ => ∀ k ∈ w.keys, k.subscription ≠ some id
  | .setSubscriptionState _ state => state = "suspended"
  | .insertKey vk => vk.status ≠ .suspended
  | .commitKeyStatus id status => status = .suspended → ∀ k ∈ w.keys, k.id = id → KeyOff w k
  | _ => True

section Calls

variable {w w' : Ledger} {o : Keys.Call} {p : Pick} {r : keysApi.Reply o}

lemma Off.setSubscription {s id : String} {state : Option String} (h : Off s w)
    (hstate : state = none ∨ state = some "suspended") : Off s (w.setSubscription id state) := by
  by_cases hid : s = id
  · simpa [Off, Ledger.setSubscription, hid] using hstate
  · simpa [Off, Ledger.setSubscription, hid] using h

lemma KeyOff.setSubscription {k : VirtualKey} (h : KeyOff w k) {id : String} {state : Option String}
    (hstate : state = none ∨ state = some "suspended") : KeyOff (w.setSubscription id state) k :=
  fun s hs => (h s hs).setSubscription hstate

lemma inv_suspendRows (h : Inv w) {ids : List String}
    (hids : ∀ k ∈ w.keys, k.id ∈ ids → KeyOff w k) : Inv (suspendRows w ids) := by
  have hrow : ∀ k ∈ (suspendRows w ids).keys, ∃ k₀ ∈ w.keys, k.id = k₀.id ∧
      k.subscription = k₀.subscription ∧ (k.status = .suspended → KeyOff w k₀) := by
    intro k hk
    obtain ⟨k₀, hk₀, rfl⟩ := List.mem_map.1 hk
    split_ifs with hid
    · exact ⟨k₀, hk₀, rfl, rfl, fun _ => hids k₀ hk₀ hid⟩
    · exact ⟨k₀, hk₀, rfl, rfl, h.off k₀ hk₀⟩
  refine ⟨⟨?_, fun k hk => ?_, fun k hk s hs => ?_⟩, fun k hk hstatus s hs => ?_⟩
  · have hmap : (suspendRows w ids).keys.map VirtualKey.id =
        w.keys.map VirtualKey.id := by
      simp only [suspendRows, List.map_map]
      refine List.map_congr_left (fun k _ => ?_)
      simp only [Function.comp_apply]
      split_ifs <;> rfl
    rw [hmap]
    exact h.wellFormed.ids
  · obtain ⟨k₀, hk₀, hid, -⟩ := hrow k hk
    exact hid ▸ h.wellFormed.used k₀ hk₀
  · obtain ⟨k₀, hk₀, -, hsub, -⟩ := hrow k hk
    exact h.wellFormed.subs k₀ hk₀ s (hsub ▸ hs)
  · obtain ⟨k₀, hk₀, -, hsub, hoff⟩ := hrow k hk
    exact hoff hstatus s (hsub ▸ hs)

lemma harmless_of_reads (ho : KeyLedger.Reads o) : Harmless w o := by
  cases o with
  | createSubscription id name => exact ho.elim
  | setSubscriptionState id state => exact ho.elim
  | insertKey vk => exact ho.elim
  | commitKeyStatus id status => exact ho.elim
  | _ => trivial

/-- Harmless calls keep the invariant: those that switch no suspended key on, and mark none that is
on. -/
lemma serve_inv (h : Inv w) (ho : Harmless w o) (hd : KeyLedger.Drawn w o)
    (hs : KeyLedger.serve w o p = some (r, w')) : Inv w' := by
  have hwf : w'.WellFormed := KeyLedger.serve_wellFormed h.wellFormed hd hs
  by_cases hr : KeyLedger.Reads o
  · rw [KeyLedger.serve_reads hr hs]
    exact h
  cases o with
  | insertKey vk =>
      simp only [KeyLedger.serve] at hs
      split_ifs at hs
      · cases hs
        exact h
      · cases hs
        refine ⟨hwf, fun k hk hstatus => ?_⟩
        rcases List.mem_append.1 hk with hk | hk
        · exact h.off k hk hstatus
        -- The new row is not suspended, as the call is harmless.
        · exact absurd (List.mem_singleton.1 hk ▸ hstatus) ho
  | commitKeyStatus id status =>
      simp only [KeyLedger.serve] at hs
      split_ifs at hs
      · cases hs
        exact h
      · cases hs
        refine ⟨hwf, fun k hk hstatus s hs => ?_⟩
        obtain ⟨k₀, hk₀, -, hsub, rfl | ⟨hid, hnew⟩⟩ := KeyLedger.mem_setStatus hk
        · exact h.off k hk₀ hstatus s hs
        -- A key is marked as suspended only once its subscription is off.
        · exact ho (hnew ▸ hstatus) k₀ hk₀ hid s (hsub ▸ hs)
  | deleteKey id =>
      cases hs
      exact ⟨hwf, fun k hk => h.off k (List.mem_of_mem_filter hk)⟩
  | newId =>
      simp only [KeyLedger.serve] at hs
      split_ifs at hs
      cases hs
      exact ⟨hwf, h.off⟩
  | createSubscription id name =>
      cases hs
      refine ⟨hwf, fun k hk hstatus s hs => ?_⟩
      -- Nor is a subscription created, and with it switched on, that a suspended key has.
      have hne : s ≠ id := by
        rintro rfl
        exact ho k hk hs
      simpa [Off, Ledger.setSubscription, hne] using h.off k hk hstatus s hs
  | setSubscriptionState id state =>
      cases hs
      exact ⟨hwf, fun k hk hstatus =>
        (h.off k hk hstatus).setSubscription (.inr (congrArg some ho))⟩
  | deleteSubscription id =>
      cases hs
      exact ⟨hwf, fun k hk hstatus => (h.off k hk hstatus).setSubscription (.inl rfl)⟩
  | putNamedValue m im =>
      simp only [KeyLedger.serve] at hs
      split_ifs at hs
      · cases hs
        exact h
      · cases hs
        exact ⟨hwf, h.off⟩
  | _ => exact absurd trivial hr

end Calls

/-! ## The rules for a request -/

/-- Requests that run alone, and keep the invariant at every call. -/
def rules (K : Type) : Discipline (env K) := .alone env_drift (fun w => Inv w.ledger)

section Rules

variable {w : Books K}

/-- A program on the keys may run here. -/
abbrev Ok {α : Type} (p : Keys.Handler α) (Q : α → Ledger → Prop) (X : PyErr → Ledger → Prop)
    (w : Books K) : Prop :=
  (rules K).left.wpE (anyStep : StepCond (enforcerApi K) Unit (Books K)).left () p
    (fun a w => Q a w.ledger) (fun e w => X e w.ledger) w

/-- A harmless call is served, or it is refused, or its answer is lost. -/
lemma ok_ask {o : Keys.Call} {Q : o.Answer → Ledger → Prop} {X : PyErr → Ledger → Prop}
    (ho : Harmless w.ledger o) (hd : KeyLedger.Drawn w.ledger o)
    (hserved : ∀ p r w', Inv w.ledger → KeyLedger.serve w.ledger o p = some (r, w') →
      (∀ a, r = .ok a → Q a w') ∧ (∀ e, r = .error e → X e w') ∧
        ∀ e, e ≠ .resourceNotFound → X e w')
    (hrefused : ∀ e, e ≠ .resourceNotFound → X e w.ledger) :
    Ok (Keys.ask o) Q X w := by
  refine Discipline.alone_ask (env K).left env_drift (fun hw x r w' ha _ => ?_)
  have hmay : ∀ e, mayFail (K := K) (.inl o) e = true → e ≠ .resourceNotFound := by
    intro e he
    simpa [mayFail, KeyLedger.mayFail] using he
  rcases Env.faulty_act ha with ⟨p, r₀, hs, hr⟩ | ⟨rfl, e, he, rfl⟩
  · obtain ⟨⟨r₁, w₁⟩, hs₁, heq⟩ := Option.map_eq_some_iff.1 hs
    cases heq
    obtain ⟨hQ, hX, hlost⟩ := hserved p r₁ w₁ hw hs₁
    rcases hr with rfl | ⟨e, he, rfl⟩
    · exact ⟨serve_inv hw ho hd hs₁, hQ, hX⟩
    · refine ⟨serve_inv hw ho hd hs₁, ?_, ?_⟩
      · rintro a ⟨⟩
      · rintro e' ⟨⟩
        exact hlost e (hmay e he)
  · refine ⟨hw, ?_, ?_⟩
    · rintro a ⟨⟩
    · rintro e' ⟨⟩
      exact hrefused e (hmay e he)

/-- A call that writes nothing; it may answer, and it may raise in the way of its service. -/
lemma ok_read {o : Keys.Call} {Q : o.Answer → Ledger → Prop} {X : PyErr → Ledger → Prop}
    (ho : KeyLedger.Reads o)
    (hQ : ∀ p a, KeyLedger.serve w.ledger o p = some (.ok a, w.ledger) → Q a w.ledger)
    (hX : ∀ p e, KeyLedger.serve w.ledger o p = some (.error e, w.ledger) → X e w.ledger)
    (hfail : ∀ e, e ≠ .resourceNotFound → X e w.ledger) : Ok (Keys.ask o) Q X w := by
  refine ok_ask (harmless_of_reads ho) ho.drawn (fun p r w' _ hs => ?_) hfail
  have hsame := KeyLedger.serve_reads ho hs
  subst hsame
  refine ⟨?_, ?_, hfail⟩
  · rintro a rfl
    exact hQ p a hs
  · rintro e rfl
    exact hX p e hs

/-- What no call of a service undoes, so that it holds from the call that establishes it to the end
of the request. -/
def Stable (P : Ledger → Prop) : Prop :=
  ∀ w (o : Keys.Call) p r w', KeyLedger.serve w o p = some (r, w') → P w → P w'

lemma stable_true : Stable (fun _ => True) := fun _ _ _ _ _ _ _ => trivial

lemma stable_used (id : String) : Stable (fun w => id ∈ w.usedIds) :=
  fun _ _ _ _ _ h hid => KeyLedger.serve_used h hid

/-- The program may run wherever `P` holds, and keeps it. -/
abbrev Keeps (K : Type) (P : Ledger → Prop) {α : Type} (p : Keys.Handler α) : Prop :=
  (rules K).left.Steady (anyStep : StepCond (enforcerApi K) Unit (Books K)).left ()
    (fun w => P w.ledger) p

variable {P : Ledger → Prop}

lemma keeps_ask (hP : Stable P) {o : Keys.Call} (ho : ∀ w, P w → Harmless w o)
    (hd : ∀ w, P w → KeyLedger.Drawn w o) : Keeps K P (Keys.ask o) := by
  intro w hw
  refine ok_ask (Q := fun _ => P) (X := fun _ => P) (ho _ hw) (hd _ hw) (fun p r w' _ hs => ?_)
    (fun _ _ => hw)
  have hw' : P w' := hP _ o p r w' hs hw
  exact ⟨fun _ _ => hw', fun _ _ => hw', fun _ _ => hw'⟩

lemma keeps_swallow {p : Keys.Handler Unit} (hp : Keeps K P p) : Keeps K P (Keys.swallow p) :=
  Discipline.Steady.tryCatch hp (fun _ => Discipline.Steady.pure ())

lemma keeps_deleteSubscription (hP : Stable P) (id : String) :
    Keeps K P (Keys.deleteSubscription id) := by
  refine Discipline.Steady.tryCatch (keeps_ask hP (fun _ _ => trivial) (fun _ _ => trivial))
    (fun e => ?_)
  cases e
  case resourceNotFound => exact Discipline.Steady.pure ()
  all_goals exact Discipline.Steady.throw _

lemma keeps_readMergeWrite (hP : Stable P)
    (merge : KeyLimits.LimitsMap → Except PyErr (Option KeyLimits.LimitsMap)) :
    Keeps K P (KeyLimits.readMergeWrite client merge 3) := by
  intro w hw
  refine KeyLimits.wpE_readMergeWrite (fun w => P w.ledger) (fun _ _ w => P w.ledger) ?_ ?_ ?_ ?_
    (by decide) hw
  · intro w hw
    refine Discipline.wpE_mono (fun _ _ h => h) (fun e w h => ?_)
      (keeps_ask hP (o := .getNamedValue) (fun _ _ => trivial) (fun _ _ => trivial) w hw)
    split_ifs <;> exact h
  · exact fun _ _ _ _ hw _ => hw
  · exact fun _ _ _ hw _ => hw
  · intro m tag m' w hw _
    exact Discipline.wpE_mono (fun _ _ h => h) (fun _ w h => ⟨h, fun _ => h⟩)
      (keeps_ask hP (o := .putNamedValue m' (tag.elim .any .tag)) (fun _ _ => trivial)
        (fun _ _ => trivial) w hw)

lemma keeps_publishLimits (hP : Stable P) (id : String) (body : VirtualKeyCreate) (audit : Bool) :
    Keeps K P (Keys.publishLimits id body audit) := by
  refine Discipline.Steady.tryCatch ?_ (fun exc => ?_)
  · refine Discipline.Steady.bind (keeps_readMergeWrite hP _) (fun _ => ?_)
    refine Discipline.Steady.ite ?_ (Discipline.Steady.pure ())
    refine Discipline.Steady.ite (Discipline.Steady.pure ()) (keeps_readMergeWrite hP _)
  · refine Discipline.Steady.bind (keeps_swallow (keeps_deleteSubscription hP id)) (fun _ => ?_)
    refine Discipline.Steady.bind (keeps_swallow (keeps_ask hP (fun _ _ => trivial)
      (fun _ _ => trivial))) (fun _ => ?_)
    exact Discipline.Steady.throw _

lemma keeps_withDb {α : Type} (hP : Stable P) {p : Keys.Handler α} (hp : Keeps K P p) :
    Keeps K P (withDb p) := by
  have hclose : Keeps K P (Keys.ask .close) :=
    keeps_ask hP (fun _ _ => trivial) (fun _ _ => trivial)
  intro w hw
  exact Discipline.wpE_tryFinally (Discipline.wpE_mono (fun _ w hw => hclose w hw)
    (fun _ w hw => hclose w hw) (hp w hw))

/-- Any program of a request: nothing is claimed of its end but the invariant. -/
abbrev Free (K : Type) {α : Type} (p : Keys.Handler α) : Prop := Keeps K (fun _ => True) p

/-- An id that was drawn for a key that is not there yet. -/
structure Fresh (id : String) (w : Ledger) : Prop where
  used : id ∈ w.usedIds
  free : ∀ k ∈ w.keys, k.subscription ≠ some id

lemma ok_newId : Ok (Keys.ask .newId) (fun hex => Fresh ("vk_" ++ hex)) (fun _ _ => True) w := by
  refine ok_ask trivial trivial (fun p r w' hw hs => ?_) (fun _ _ => trivial)
  simp only [KeyLedger.serve] at hs
  split_ifs at hs with hnew
  cases hs
  refine ⟨?_, fun _ _ => trivial, fun _ _ => trivial⟩
  rintro hex ⟨⟩
  exact ⟨List.mem_cons_self, fun k hk hsub => (not_or.1 hnew).1 (hw.wellFormed.subs k hk _ hsub)⟩

/-- What `create_key` does once it has an id: the subscription is that of no row. -/
lemma ok_issue {α : Type} {id name : String} {rest : String → Keys.Handler α}
    (hrest : ∀ value, Keeps K (fun w => id ∈ w.usedIds) (rest value)) (hw : Fresh id w.ledger) :
    Ok (Keys.createSubscription id name >>= rest) (fun _ _ => True) (fun _ _ => True) w := by
  have hcreate : Ok (Keys.ask (.createSubscription id name)) (fun _ w => id ∈ w.usedIds)
      (fun _ _ => True) w := by
    refine ok_ask hw.free trivial (fun p r w' _ hs => ?_) (fun _ _ => trivial)
    exact ⟨fun _ _ => KeyLedger.serve_used hs hw.used, fun _ _ => trivial, fun _ _ => trivial⟩
  have hsecret : Keeps K (fun w => id ∈ w.usedIds) (Keys.ask (.subscriptionSecret id)) :=
    keeps_ask (stable_used id) (fun _ _ => trivial) (fun _ _ => trivial)
  have hboth : Ok (Keys.createSubscription id name) (fun _ w => id ∈ w.usedIds) (fun _ _ => True)
      w := by
    refine Discipline.wpE_then hcreate (fun _ w hused => ?_)
    exact (Discipline.wpE_bind _ _).2 (Discipline.wpE_mono (fun _ _ hused => hused)
      (fun _ _ _ => trivial) (hsecret w hused))
  refine Discipline.wpE_then hboth (fun value w hused => ?_)
  exact Discipline.wpE_mono (fun _ _ _ => trivial) (fun _ _ _ => trivial) (hrest value w hused)

/-- `create_key`: the subscription that it switches on is a new one, and belongs to no suspended
row. -/
lemma free_createKey (body : VirtualKeyCreate) : Free K (Keys.createKey body) := by
  unfold Keys.createKey
  refine Discipline.Steady.bind (keeps_ask stable_true (fun _ _ => trivial) (fun _ _ => trivial))
    (fun project => ?_)
  cases project with
  | none => exact Discipline.Steady.throw _
  | some project =>
      refine Discipline.Steady.bind (keeps_ask stable_true (fun _ _ => trivial)
        (fun _ _ => trivial)) (fun tenant => ?_)
      cases tenant with
      | none => exact Discipline.Steady.throw _
      | some tenant =>
          intro w _
          refine Discipline.wpE_guard (fun _ => trivial) (fun _ => ?_)
          refine (Discipline.wpE_bind _ _).2 (Discipline.wpE_mono (fun hex w hfresh => ?_)
            (fun _ _ _ => trivial) ok_newId)
          refine ok_issue (fun value => ?_) hfresh
          have hstable := stable_used ("vk_" ++ hex)
          refine Discipline.Steady.bind (keeps_ask hstable (fun _ _ => trivial)
            (fun _ _ => trivial)) (fun kvRef => ?_)
          refine Discipline.Steady.bind (keeps_publishLimits hstable _ _ _) (fun _ => ?_)
          refine Discipline.Steady.bind (keeps_ask hstable (fun _ _ => nofun)
            (fun w hused => ⟨hused, fun s hs => ?_⟩)) (fun _ => ?_)
          · obtain ⟨hsub, -⟩ := Option.filter_eq_some_iff.1 hs
            exact Option.some.inj hsub ▸ hused
          · exact Discipline.Steady.bind (keeps_ask hstable (fun _ _ => trivial)
              (fun _ _ => trivial)) (fun row => Discipline.Steady.pure _)

/-- `delete_key`, which only switches off and removes. -/
lemma free_deleteKey (id : String) : Free K (Keys.deleteKey id) := by
  unfold Keys.deleteKey
  have hask : ∀ o : Keys.Call, (∀ w, Harmless w o) → (∀ w, KeyLedger.Drawn w o) →
      Free K (Keys.ask o) :=
    fun o ho hd => keeps_ask stable_true (fun w _ => ho w) (fun w _ => hd w)
  have hrow : Free K (do
      Keys.swallow (Keys.ask (.deleteSecret (Keys.subscriptionKeyName id)))
      Keys.ask (.deleteKey id)) :=
    Discipline.Steady.bind (keeps_swallow (hask (.deleteSecret _) (fun _ => trivial)
      (fun _ => trivial))) (fun _ => hask (.deleteKey id) (fun _ => trivial) (fun _ => trivial))
  refine Discipline.Steady.bind (hask (.getKey id) (fun _ => trivial) (fun _ => trivial))
    (fun row => ?_)
  cases row with
  | none => exact Discipline.Steady.throw _
  | some vk =>
      dsimp only
      cases vk.subscription with
      | none => exact hrow
      | some s =>
          refine Discipline.Steady.bind (keeps_swallow (keeps_deleteSubscription stable_true s))
            (fun _ => ?_)
          exact Discipline.Steady.bind (keeps_swallow (keeps_readMergeWrite stable_true _))
            (fun _ => hrow)

/-- The same rows, whatever the gateway says; the scopes of the budgets depend on nothing else. -/
def SameRows (l w : Ledger) : Prop := w.keys = l.keys ∧ w.projects = l.projects

/-- Once `set_subscription_state` has answered, the subscription is off, like those before. -/
lemma ok_suspend {l : Ledger} (subscription : String) (offs : List String)
    (hrows : SameRows l w.ledger) (hoffs : ∀ s ∈ offs, Off s w.ledger) :
    Ok (Keys.setSubscriptionState subscription "suspended")
      (fun _ w => SameRows l w ∧ ∀ s ∈ subscription :: offs, Off s w) (fun _ _ => True) w := by
  set I : Ledger → Prop := fun w => SameRows l w ∧ ∀ s ∈ offs, Off s w with hI
  have hw : I w.ledger := ⟨hrows, hoffs⟩
  have hget : Ok (Keys.ask (.getSubscription subscription)) (fun _ => I)
      (fun e w => I w ∧ (e = .resourceNotFound → Off subscription w)) w := by
    refine ok_read trivial (fun _ _ _ => hw) (fun p e hs => ⟨hw, ?_⟩)
      (fun e he => ⟨hw, fun h => absurd h he⟩)
    rintro rfl
    by_cases hsub : (w.ledger.subscriptions subscription).isSome = true
    · simp [KeyLedger.serve, hsub] at hs
    · exact .inl (by simpa using hsub)
  have hset : ∀ w : Books K, I w.ledger →
      Ok (Keys.ask (.setSubscriptionState subscription "suspended"))
        (fun _ w => SameRows l w ∧ ∀ s ∈ subscription :: offs, Off s w) (fun _ _ => True) w := by
    intro w hw
    refine ok_ask rfl trivial (fun p r w' _ hs => ?_) (fun _ _ => trivial)
    cases hs
    refine ⟨fun _ _ => ⟨hw.1, fun s hs => ?_⟩, fun _ _ => trivial, fun _ _ => trivial⟩
    rcases List.mem_cons.1 hs with rfl | hs
    · exact .inr (by simp [Ledger.setSubscription])
    · exact (hw.2 s hs).setSubscription (.inr rfl)
  unfold Keys.setSubscriptionState
  refine (Discipline.wpE_bind _ _).2 ?_
  -- What the look at the subscription finds.
  refine Discipline.wpE_mono (fun found w hw => ?_) (fun _ _ h => h)
    (?_ : Ok _ (fun found w => I w ∧ (found = false → Off subscription w)) (fun _ _ => True) w)
  · cases found with
    | true => exact hset w hw.1
    | false => exact ⟨hw.1.1, List.forall_mem_cons.2 ⟨hw.2 rfl, hw.1.2⟩⟩
  · refine (Discipline.wpE_tryCatch _ _).2 ((Discipline.wpE_bind _ _).2 ?_)
    refine Discipline.wpE_mono (fun _ w hw => ⟨hw, Bool.noConfusion⟩) (fun e w hw => ?_) hget
    cases e
    case resourceNotFound => exact ⟨hw.1, fun _ => hw.2 rfl⟩
    all_goals trivial

/-- `suspend_key`: the row is marked only after the gateway has switched the subscription off. -/
lemma free_suspendKey (id : String) : Free K (Keys.suspendKey id) := by
  have hcommit : ∀ w : Books K, (∀ k ∈ w.ledger.keys, k.id = id → KeyOff w.ledger k) →
      Ok (do
        Keys.ask (.commitKeyStatus id .suspended)
        Keys.ask (.refreshKey id)) (fun _ _ => True) (fun _ _ => True) w := by
    intro w hoff
    have hrow : Ok (Keys.ask (.commitKeyStatus id .suspended)) (fun _ _ => True) (fun _ _ => True)
        w :=
      ok_ask (fun _ => hoff) trivial
        (fun _ _ _ _ _ => ⟨fun _ _ => trivial, fun _ _ => trivial, fun _ _ => trivial⟩)
        (fun _ _ => trivial)
    refine Discipline.wpE_then hrow (fun _ w _ => ?_)
    exact keeps_ask (o := .refreshKey id) stable_true (fun _ _ => trivial) (fun _ _ => trivial) w
      trivial
  intro w _
  have hget : Ok (Keys.ask (.getKey id)) (fun row l => Inv l ∧ row = l.findKey id)
      (fun _ _ => True) w := by
    refine ok_ask trivial trivial (fun p r w' hw hs => ?_) (fun _ _ => trivial)
    cases hs
    refine ⟨?_, fun _ _ => trivial, fun _ _ => trivial⟩
    rintro row ⟨⟩
    exact ⟨hw, rfl⟩
  unfold Keys.suspendKey
  refine Discipline.wpE_then hget (fun row w hrow => ?_)
  obtain ⟨hw, hrow⟩ := hrow
  cases row with
  | none => trivial
  | some vk =>
      obtain ⟨-, -, hunique⟩ := KeyLedger.findKey_unique hw.wellFormed hrow.symm
      dsimp only
      cases hsub : vk.subscription with
      | none =>
          refine hcommit w (fun k hk hid s hs => ?_)
          simp [hunique k hk hid, hsub] at hs
      | some subscription =>
          refine Discipline.wpE_then (ok_suspend (l := w.ledger) subscription [] ⟨rfl, rfl⟩ (by
            simp)) (fun _ w' h => ?_)
          refine hcommit w' (fun k hk hid s hs => ?_)
          have hsame : k.subscription = some subscription := by
            rw [hunique k (h.1.1 ▸ hk) hid, hsub]
          exact h.2 s (by simp_all)

/-- Every request on the keys keeps the invariant, by its own lemma above. -/
lemma free_request (q : KeyLedger.Request) : Free K q.handler := by
  cases q with
  | create body =>
      exact keeps_withDb stable_true (Discipline.Steady.bind (free_createKey body)
        (fun _ => Discipline.Steady.pure ()))
  | suspend id =>
      exact keeps_withDb stable_true (Discipline.Steady.bind (free_suspendKey id)
        (fun _ => Discipline.Steady.pure ()))
  | delete id => exact keeps_withDb stable_true (free_deleteKey id)

/-! ## The enforcer -/

/-- A program of the enforcer may run here. -/
abbrev Enforces {α : Type} (p : BudgetEnforcer.Handler K α) (Q : α → Ledger → Prop) (w : Books K) :
    Prop :=
  (rules K).wpE anyStep () p (fun a w => Q a w.ledger) (fun _ _ => True) w

/-- The loop: a key that it passes is suspended, or marked after its subscription went off. -/
lemma enforces_suspendKeys {l : Ledger} {keys : List VirtualKey} (offs : List String)
    (hrows : SameRows l w.ledger) (hoffs : ∀ s ∈ offs, Off s w.ledger) :
    Enforces (BudgetEnforcer.suspendKeys keys) (fun marked w =>
      SameRows l w ∧ (∀ s ∈ offs, Off s w) ∧
      (∀ k ∈ keys, k.subscription ≠ none → k.status = .suspended ∨ k.id ∈ marked) ∧
      ∀ id ∈ marked, ∃ k ∈ keys, k.id = id ∧ KeyOff w k) w := by
  induction keys generalizing w offs with
  | nil => exact ⟨hrows, hoffs, by simp, by simp⟩
  | cons key keys ih =>
      -- A key that is passed over adds nothing to the marks.
      have hskip : (key.subscription ≠ none → key.status = .suspended) →
          Enforces (BudgetEnforcer.suspendKeys keys) (fun marked w =>
            SameRows l w ∧ (∀ s ∈ offs, Off s w) ∧
            (∀ k ∈ key :: keys, k.subscription ≠ none → k.status = .suspended ∨ k.id ∈ marked) ∧
            ∀ id ∈ marked, ∃ k ∈ key :: keys, k.id = id ∧ KeyOff w k) w := by
        intro hkey
        refine Discipline.wpE_mono (fun marked w h => ?_) (fun _ _ h => h) (ih offs hrows hoffs)
        obtain ⟨hrows', hoffs', hpassed, hmarked⟩ := h
        refine ⟨hrows', hoffs', fun k hk hsub => ?_, fun id hid => ?_⟩
        · rcases List.mem_cons.1 hk with rfl | hk
          · exact .inl (hkey hsub)
          · exact hpassed k hk hsub
        · obtain ⟨k, hk, hkid⟩ := hmarked id hid
          exact ⟨k, List.mem_cons_of_mem _ hk, hkid⟩
      unfold BudgetEnforcer.suspendKeys
      cases hsub : key.subscription with
      | none => exact hskip (absurd hsub)
      | some subscription =>
          dsimp only
          split_ifs with hstatus
          · exact hskip (fun _ => hstatus)
          · refine (Discipline.wpE_bind _ _).2 (Discipline.wpE_inl.2 ?_)
            refine Discipline.wpE_mono (fun _ w h => ?_) (fun _ _ h => h)
              (ok_suspend subscription offs hrows hoffs)
            refine Discipline.wpE_then (ih _ h.1 h.2) (fun marked w h => ?_)
            obtain ⟨hrows', hoffs', hpassed, hmarked⟩ := h
            refine ⟨hrows', fun s hs => hoffs' s (List.mem_cons_of_mem _ hs), fun k hk hsub => ?_,
              fun id hid => ?_⟩
            · rcases List.mem_cons.1 hk with rfl | hk
              · exact .inr List.mem_cons_self
              · exact (hpassed k hk hsub).imp_right (List.mem_cons_of_mem _)
            · rcases List.mem_cons.1 hid with rfl | hid
              · refine ⟨key, List.mem_cons_self, rfl, fun s hs => ?_⟩
                obtain rfl : subscription = s := Option.some.inj (hsub.symm.trans hs)
                exact hoffs' _ List.mem_cons_self
              · obtain ⟨k, hk, hkid⟩ := hmarked id hid
                exact ⟨k, List.mem_cons_of_mem _ hk, hkid⟩

lemma enforces_keysInScope {scope : BudgetScope} {targetId : String} :
    Enforces (BudgetEnforcer.ask (.keysInScope scope targetId : BudgetEnforcer.Call K))
      (fun keys w => Inv w ∧ keys = w.keys.filter (inScope w scope targetId)) w := by
  refine Discipline.alone_ask (env K) env_drift (fun hw x r w' ha _ => ?_)
  rcases Env.faulty_act ha with ⟨p, r₀, hs, hr⟩ | ⟨rfl, e, he, rfl⟩
  · cases hs
    refine ⟨hw, ?_, fun _ _ => trivial⟩
    rcases hr with rfl | ⟨e, he, rfl⟩
    · rintro keys ⟨⟩
      exact ⟨hw, rfl⟩
    · rintro keys ⟨⟩
  · refine ⟨hw, ?_, fun _ _ => trivial⟩
    rintro keys ⟨⟩

/-- The commit: what it marks has to be off, which the loop before has established key by key. -/
lemma enforces_commitSpend {id : String} {spent : K} {ids : List String} {enforced : Bool}
    (hids : ∀ k ∈ w.ledger.keys, k.id ∈ ids → KeyOff w.ledger k) {Q : Ledger → Prop}
    (hQ : Q (suspendRows w.ledger ids)) :
    Enforces (do
      BudgetEnforcer.ask (.commitSpend id spent ids)
      return enforced) (fun _ => Q) w := by
  suffices hcommit : Enforces (BudgetEnforcer.ask (.commitSpend id spent ids)) (fun _ => Q) w from
    (Discipline.wpE_bind _ _).2 hcommit
  refine Discipline.alone_ask (env K) env_drift (fun hw x r w' ha _ => ?_)
  rcases Env.faulty_act ha with ⟨p, r₀, hs, hr⟩ | ⟨rfl, e, he, rfl⟩
  · simp only [serve] at hs
    split at hs
    · cases hs
      refine ⟨hw, ?_, fun _ _ => trivial⟩
      rcases hr with rfl | ⟨e, he, rfl⟩ <;> rintro a ⟨⟩
    · cases hs
      exact ⟨inv_suspendRows hw hids, fun _ _ => hQ, fun _ _ => trivial⟩
  · refine ⟨hw, ?_, fun _ _ => trivial⟩
    rintro a ⟨⟩

/-- No key in the scope has a subscription without being suspended. -/
def Enforced (scope : BudgetScope) (targetId : String) (w : Ledger) : Prop :=
  ∀ k ∈ w.keys, inScope w scope targetId k = true → k.subscription ≠ none → k.status = .suspended

/-- Marking rows changes no scope, so after it every key of the scope is suspended. -/
lemma enforced_suspendRows {l : Ledger} {scope : BudgetScope} {targetId : String}
    {ids : List String} (h : ∀ k ∈ l.keys, inScope l scope targetId k = true →
      k.subscription ≠ none → k.status = .suspended ∨ k.id ∈ ids) :
    Enforced scope targetId (suspendRows l ids) := by
  intro k hk hscope hsub
  obtain ⟨k₀, hk₀, rfl⟩ := List.mem_map.1 hk
  split_ifs at hscope hsub ⊢ with hid
  · rfl
  · exact (h k₀ hk₀ (by simpa [inScope, suspendRows] using hscope) hsub).resolve_right hid

variable [PyFloat K]

/-- The budget blocks, and the spend has reached its limit. -/
def Exceeded (budget : Budget K) (amountUsd : K) : Prop :=
  budget.action = .block ∧
    PyFloat.le budget.limitUsd (PyFloat.add budget.spent amountUsd) = true

/-- `add_spend`: where the budget is exceeded and the call returns, every key of its scope is
suspended. -/
lemma enforces_addSpend (budget : Budget K) (amountUsd : K) :
    Enforces (BudgetEnforcer.addSpend budget amountUsd) (fun _ w =>
      Exceeded budget amountUsd → Enforced budget.scope budget.targetId w) w := by
  unfold BudgetEnforcer.addSpend
  dsimp only
  split_ifs with hlt haction
  · refine enforces_commitSpend ?_ (fun h => ?_)
    · simp
    · simp [BudgetEnforcer.lt, h.2] at hlt
  · refine enforces_commitSpend ?_ (fun h => ?_)
    · simp
    · simp [h.1] at haction
  · refine Discipline.wpE_then enforces_keysInScope (fun keys w h => ?_)
    obtain ⟨hw, rfl⟩ := h
    refine Discipline.wpE_then (enforces_suspendKeys (l := w.ledger) [] ⟨rfl, rfl⟩ (by simp)) (fun
      marked w' h => ?_)
    obtain ⟨hrows, -, hpassed, hmarked⟩ := h
    refine enforces_commitSpend
      (Q := fun w => Exceeded budget amountUsd → Enforced budget.scope budget.targetId w)
      (fun k hk hid => ?_) (fun _ => ?_)
    · obtain ⟨k₀, hk₀, hid₀, hoff⟩ := hmarked k.id hid
      have hsame : k₀ = k := List.inj_on_of_nodup_map hw.wellFormed.ids
        (List.mem_of_mem_filter hk₀) (hrows.1 ▸ hk) hid₀
      exact hsame ▸ hoff
    · refine enforced_suspendRows (fun k hk hscope hsub => ?_)
      have hscope' : inScope w.ledger budget.scope budget.targetId k = true := by
        simpa only [inScope, hrows.2] using hscope
      exact hpassed k (List.mem_filter.2 ⟨hrows.1 ▸ hk, hscope'⟩) hsub

end Rules

/-! ## Every sequence of requests -/

section Runs

variable [PyFloat K]

/-- The requests, one after the other. -/
abbrev Run : Turn (enforcerApi K) (Books K) (Except PyErr Unit) →
    Turn (enforcerApi K) (Books K) (Except PyErr Unit) → Prop :=
  Turn.Reaches (env K) anyStep (fun q : Request K => q.handler.run) (fun _ _ => True)

/-- No request is in progress, as before the first one. -/
def idle (w : Books K) : Turn (enforcerApi K) (Books K) (Except PyErr Unit) := ⟨w, .done (.ok ())⟩

lemma inv_of_run {w : Books K} (hw : Inv w.ledger)
    {t : Turn (enforcerApi K) (Books K) (Except PyErr Unit)} (h : Run (idle w) t) :
    Inv t.world.ledger := by
  have hreq : ∀ (q : Request K) w, (rules K).inv w → True → True →
      (rules K).wp anyStep () q.handler.run (fun _ _ => True) w := by
    intro q w _ _ _
    cases q with
    | key q =>
        refine Discipline.wp_inl.2 (Discipline.wp_mono (fun _ _ _ => trivial)
          (free_request q w trivial))
    | spend budget amountUsd =>
        have hspend : Enforces (Request.spend budget amountUsd).handler (fun _ _ => True) w :=
          Discipline.wpE_then (enforces_addSpend budget amountUsd) (fun _ _ _ => trivial)
        exact Discipline.wp_mono (fun _ _ _ => trivial) hspend
  exact (Turn.sound (t := idle w) (J := fun _ => True) hreq hw ⟨_, rfl⟩ trivial h).1

/-- **Suspended means off.**  In every state of every sequence of requests a key that the database
calls suspended has its subscription suspended or absent; and once `add_spend` has answered for a
blocking budget whose spend has reached its limit, every key in the scope that has a subscription
is suspended, in the database and at the gateway. -/
theorem suspended_off {w : Books K} (hw : Inv w.ledger)
    {t : Turn (enforcerApi K) (Books K) (Except PyErr Unit)} (h : Run (idle w) t) :
    (∀ k ∈ t.world.ledger.keys, k.status = .suspended → KeyOff t.world.ledger k) ∧
    (t.Idle → ∀ (budget : Budget K) (amountUsd : K) (w' : Books K), Exceeded budget amountUsd →
      Turn.Answers (env K) anyStep (Request.spend budget amountUsd).handler.run t.world
        (.ok ()) w' →
      ∀ k ∈ w'.ledger.keys, inScope w'.ledger budget.scope budget.targetId k = true →
        k.subscription ≠ none → k.status = .suspended ∧ KeyOff w'.ledger k) := by
  have hinv : Inv t.world.ledger := inv_of_run hw h
  refine ⟨hinv.off, fun _ budget amountUsd w' hexceeded hanswers k hk hscope hsub => ?_⟩
  have hspend : Enforces (Request.spend budget amountUsd).handler
      (fun _ => Enforced budget.scope budget.targetId) t.world :=
    Discipline.wpE_then (enforces_addSpend budget amountUsd) (fun _ _ h => h hexceeded)
  obtain ⟨hinv', henforced⟩ := Turn.answers_sound (D := rules K) hinv hspend hanswers
  have hsuspended : k.status = .suspended := henforced k hk hscope hsub
  exact ⟨hsuspended, hinv'.off k hk hsuspended⟩

end Runs

section Example

/-- The budget of a tenant: ten dollars, eight of them spent, so that three more exceed it. -/
def tenantBudget : Budget ℚ := ⟨"bd_1", .tenant, "tn_1", 10, some 8, .block⟩

/-- The tenant has one active key, with an active subscription. -/
def acme : Books ℚ where
  ledger :=
    { tenants := fun _ => none
      projects := fun id => if id = "pj_1" then some ⟨"pj_1", "tn_1", "search"⟩ else none
      keys := [⟨"vk_a1", "pj_1", some "vk_a1", none, none, none, none, .active⟩]
      subscriptions := fun id => if id = "vk_a1" then some "active" else none
      named := ⟨some (.limits ∅), []⟩
      usedIds := ["vk_a1"] }
  budgets id := if id = "bd_1" then some tenantBudget else none

lemma acme_inv : Inv acme.ledger := by
  refine ⟨⟨by decide, by decide, by decide⟩, fun k hk hstatus => ?_⟩
  rw [List.mem_singleton.1 hk] at hstatus
  cases hstatus

/-- A call that is served, with a service that has an answer to give. -/
def ok : Fate Pick PyErr := .served ⟨"", true⟩

/-- The answer of the gateway is lost, and the request fails.  The next one finds the key active
in the database, and suspends it. -/
theorem suspended_off_retried :
    ∃ t, Run (idle acme) t ∧ t.world.ledger.subscriptions "vk_a1" = some "suspended" ∧
      (∃ k ∈ t.world.ledger.keys, k.id = "vk_a1" ∧ k.status = .active) ∧
      ∃ w', Turn.Answers (env ℚ) anyStep (Request.spend tenantBudget 3).handler.run t.world
        (.ok ()) w' ∧
      ∃ k ∈ w'.ledger.keys, k.id = "vk_a1" ∧ k.status = .suspended ∧ KeyOff w'.ledger k := by
  obtain ⟨t, hrun, hidle, hlost, hactive, hserve⟩ := Turn.reaches_of_play (env ℚ) anyStep
    (fun q : Request ℚ => q.handler.run) (fun _ _ => True) (idle acme)
    [.inl (.spend tenantBudget 3), .inr ok, .inr ok, .inr (.lost ⟨"", true⟩ .external)]
    (fun t => t.Idle ∧ t.world.ledger.subscriptions "vk_a1" = some "suspended" ∧
      (∃ k ∈ t.world.ledger.keys, k.id = "vk_a1" ∧ k.status = .active) ∧
      (Turn.serveAll (env ℚ) anyStep (Request.spend tenantBudget 3).handler.run t.world
        [ok, ok, ok, ok]).any (fun r => r.1.isOk && decide (∃ k ∈ r.2.ledger.keys,
          k.id = "vk_a1" ∧ inScope r.2.ledger .tenant "tn_1" k = true ∧ k.subscription ≠ none)) =
            true) (by decide +kernel)
  obtain ⟨⟨r, w'⟩, hserve, hkey⟩ := (Option.any_eq_true _ _).1 hserve
  cases r with
  | error e => simp [Except.isOk, Except.toBool] at hkey
  | ok answer =>
      obtain ⟨k, hk, hid, hscope, hsub⟩ := of_decide_eq_true (Bool.and_eq_true_iff.1 hkey).2
      have hanswers := Turn.answers_of_serveAll hserve
      obtain ⟨hstatus, hoff⟩ := (suspended_off acme_inv hrun).2 hidle tenantBudget 3 w'
        ⟨rfl, by decide +kernel⟩ hanswers k hk hscope hsub
      exact ⟨t, hrun, hlost, hactive, w', hanswers, k, hk, hid, hstatus, hoff⟩

end Example

end Suspension
end TokenFoundry
