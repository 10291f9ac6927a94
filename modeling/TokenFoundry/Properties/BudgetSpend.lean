import TokenFoundry.Properties.Suspension
import Mathlib.Algebra.BigOperators.Group.Finset.Basic
import Mathlib.Data.Fintype.Basic
import Mathlib.Tactic.Ring

/-!
# What is added to a budget

Each call of `add_spend` has a database session of its own.  The session reads the row of the
budget when the caller loads it, and writes the sum back in the commit at the end; a value that is
not changed is not written.  So the spend of a call is lost when another call has committed in
between, and when a call to the gateway fails before the commit.

In a run in which neither happens the row holds the initial spend and the amounts of the calls that
have committed, in every state (`Inv`); a call that has ended has committed, or its amount is zero.
-/

set_option autoImplicit false

namespace TokenFoundry
namespace BudgetSpend

open Keys (VirtualKey keysApi)
open KeyLedger (Ledger Pick)
open BudgetEnforcer (Budget enforcerApi)
open scoped BigOperators

/-! ## The world -/

/-- What the caller of `add_spend` does before: the session reads the row of the budget. -/
inductive LoadCall
  /-- `db.get(Budget, …)`. -/
  | loadBudget

@[reducible] def LoadCall.Answer : LoadCall → Type
  | .loadBudget => Budget ℚ

abbrev loadApi : Interface PyErr := ⟨LoadCall, LoadCall.Answer⟩

abbrev spendApi : Interface PyErr := (enforcerApi ℚ).sum loadApi

/-- The keys and the budget, with what each session has read and which calls have committed. -/
structure Till (ι : Type) where
  ledger : Ledger
  row : Budget ℚ
  /-- The spend as each session has read it. -/
  loaded : ι → Option ℚ
  /-- The calls that have committed. -/
  committed : Finset ι

section World

variable {ι : Type} [DecidableEq ι]

/-- The commit of a session: the spend is written if it is not the one that was read. -/
def Till.commit (w : Till ι) (i : ι) (spent : ℚ) (ids : List String) : Till ι where
  ledger := Suspension.suspendRows w.ledger ids
  row := if w.loaded i = some spent then w.row else { w.row with spentUsd := some spent }
  loaded := w.loaded
  committed := insert i w.committed

/-- How the services answer: the calls on keys as in their own world, and those on the budget by its
row. -/
def serve (i : ι) (w : Till ι) : (o : spendApi.Call) → Pick → Option (spendApi.Reply o × Till ι)
  | .inl (.inl o), p =>
      (KeyLedger.serve w.ledger o p).map (fun s => (s.1, { w with ledger := s.2 }))
  | .inl (.inr (.keysInScope scope targetId)), _ =>
      some (.ok (w.ledger.keys.filter (Suspension.inScope w.ledger scope targetId)), w)
  | .inl (.inr (.commitSpend _ spent ids)), _ => some (.ok (), w.commit i spent ids)
  | .inr .loadBudget, _ =>
      some (.ok w.row, { w with loaded := Function.update w.loaded i w.row.spentUsd })

/-- The calls to the gateway may fail, those on the database do not. -/
def mayFail : spendApi.Call → PyErr → Bool
  | .inl (.inl (.getSubscription _)), e => decide (e ≠ .resourceNotFound)
  | .inl (.inl (.setSubscriptionState _ _)), _ => true
  | _, _ => false

def env (ι : Type) [DecidableEq ι] : Env spendApi ι (Till ι) :=
  .faulty serve mayFail mayFail (fun _ _ => False)

/-- A session loads the budget and adds to it, as the caller of the enforcer does. -/
def spend (amountUsd : ℚ) : Prog.Raising spendApi Bool := do
  let budget : Budget ℚ ← @Prog.ask _ spendApi (.inr .loadBudget)
  (BudgetEnforcer.addSpend budget amountUsd).inl loadApi

/-- The amount in a field of a row, where an empty one is zero. -/
def amountOf (spentUsd : Option ℚ) : ℚ := spentUsd.getD 0

/-- The error of an answer, if it is one. -/
def failure {α : Type} : Except PyErr α → Option PyErr
  | .ok _ => none
  | .error e => some e

/-- No call to the gateway fails while an amount is at stake, and a commit that writes finds the
spend that its session has read. -/
def Undisturbed (amount : ι → ℚ) : StepCond spendApi ι (Till ι)
  | i, _, .inl (.inl (.getSubscription _)), r =>
      ∀ e ∈ failure r, e = .resourceNotFound ∨ amount i = 0
  | i, _, .inl (.inl (.setSubscriptionState _ _)), r => ∀ e ∈ failure r, amount i = 0
  | i, w, .inl (.inr (.commitSpend _ spent _)), _ =>
      w.loaded i = some spent ∨ amountOf w.row.spentUsd = amountOf (w.loaded i)
  | _, _, _, _ => True

instance (amount : ι → ℚ) (i : ι) (w : Till ι) (o : spendApi.Call) (r : spendApi.Reply o) :
    Decidable (Undisturbed amount i w o r) := by
  unfold Undisturbed
  split <;> infer_instance

/-- All sessions before their first call, each with the amount that it is to add. -/
def start (amount : ι → ℚ) (ledger : Ledger) (row : Budget ℚ) :
    Config spendApi ι (Till ι) (Except PyErr Bool) :=
  ⟨⟨ledger, row, fun _ => none, ∅⟩, fun i => (spend (amount i)).run⟩

end World

/-! ## The invariant -/

section Invariant

variable {ι : Type} [DecidableEq ι] (amount : ι → ℚ) (initial : ℚ)

/-- The row holds what has been committed: what was there at first, and the amounts of the calls
that have committed. -/
def Inv (w : Till ι) : Prop :=
  amountOf w.row.spentUsd = initial + ∑ i ∈ w.committed, amount i

/-- The steps of the others: they change neither what the session has read nor whether it has
committed. -/
def Rely (i : ι) (w w' : Till ι) : Prop :=
  w'.loaded i = w.loaded i ∧ (i ∈ w'.committed ↔ i ∈ w.committed)

omit [DecidableEq ι] in
lemma Rely.refl (i : ι) (w : Till ι) : Rely i w w := ⟨rfl, Iff.rfl⟩

omit [DecidableEq ι] in
lemma Rely.trans {i : ι} {w₁ w₂ w₃ : Till ι} (h : Rely i w₁ w₂) (h' : Rely i w₂ w₃) :
    Rely i w₁ w₃ := ⟨h'.1.trans h.1, h'.2.trans h.2⟩

def discipline : Discipline (env ι) where
  inv := Inv amount initial
  rely := Rely
  busy _ _ := True
  rely_refl := Rely.refl
  rely_trans _ := Rely.trans
  drift_inv _ h := h.elim
  drift_rely _ _ h := h.elim

/-- A session that has read a spend and has not committed. -/
structure Open (i : ι) (spentUsd : Option ℚ) (w : Till ι) : Prop where
  loaded : w.loaded i = spentUsd
  pending : i ∉ w.committed

variable {amount initial} {i : ι} {w : Till ι} {spentUsd : Option ℚ}

omit [DecidableEq ι] in
lemma Open.rely {w' : Till ι} (h : Open i spentUsd w) (hR : Rely i w w') : Open i spentUsd w' :=
  ⟨hR.1.trans h.loaded, fun hi => h.pending (hR.2.1 hi)⟩

omit [DecidableEq ι] in
/-- A call that changes neither the budget nor the sessions. -/
lemma rely_ledger (w : Till ι) (l : Ledger) (j : ι) : Rely j w { w with ledger := l } :=
  ⟨rfl, Iff.rfl⟩

/-- **Step.**  A commit that finds what its session has read adds its amount. -/
lemma inv_commit {spent : ℚ} {ids : List String} (hinv : Inv amount initial w)
    (hopen : Open i spentUsd w) (hspent : spent = amountOf spentUsd + amount i)
    (hok : w.loaded i = some spent ∨ amountOf w.row.spentUsd = amountOf (w.loaded i)) :
    Inv amount initial (w.commit i spent ids) := by
  unfold Inv Till.commit at *
  rw [Finset.sum_insert hopen.pending]
  rw [hopen.loaded] at hok ⊢
  dsimp only
  split_ifs with hsame
  · have hzero : amount i = 0 := by
      rw [hsame] at hspent
      simpa [amountOf] using hspent
    rw [hinv, hzero, zero_add]
  · have hread := hok.resolve_left hsame
    show spent = _
    rw [hspent, ← hread, hinv]
    ring

lemma rely_commit {j : ι} (hj : j ≠ i) (spent : ℚ) (ids : List String) :
    Rely j w (w.commit i spent ids) := by
  refine ⟨rfl, ?_⟩
  simp [Till.commit, hj]

end Invariant

/-! ## A call of `add_spend` -/

section Calls

variable {ι : Type} [DecidableEq ι] {amount : ι → ℚ} {initial : ℚ} {i : ι} {w : Till ι}
  {spentUsd : Option ℚ}

/-- A program on the keys may run here. -/
abbrev OnKeys (amount : ι → ℚ) (initial : ℚ) (i : ι) {α : Type} (p : Keys.Handler α)
    (Q : α → Till ι → Prop) (X : PyErr → Till ι → Prop) (w : Till ι) : Prop :=
  (discipline amount initial).left.left.wpE (Undisturbed amount).left.left i p Q X w

/-- A program of the enforcer may run here; it raises only where nothing is at stake. -/
abbrev Spends (amount : ι → ℚ) (initial : ℚ) (i : ι) {α : Type}
    (p : BudgetEnforcer.Handler ℚ α) (Q : α → Till ι → Prop) (w : Till ι) : Prop :=
  (discipline amount initial).left.wpE (Undisturbed amount).left i p Q (fun _ _ => amount i = 0) w

lemma onKeys_ask {o : Keys.Call} {X : PyErr → Till ι → Prop} (hopen : Open i spentUsd w)
    (hX : ∀ w e, Open i spentUsd w → Undisturbed amount i w (.inl (.inl o)) (.error e) →
      ∀ w', Open i spentUsd w' → X e w') :
    OnKeys amount initial i (Keys.ask o) (fun _ w => Open i spentUsd w) X w := by
  refine Discipline.wpE_ask (fun w₁ hR hI => ⟨trivial, fun x r w₂ ha hok => ?_⟩)
  have hopen₁ := hopen.rely hR
  have hsame : ∃ l, w₂ = { w₁ with ledger := l } := by
    rcases Env.faulty_act ha with ⟨p, r₀, hs, -⟩ | ⟨rfl, -⟩
    · obtain ⟨⟨r₁, l⟩, -, heq⟩ := Option.map_eq_some_iff.1 hs
      cases heq
      exact ⟨l, rfl⟩
    · exact ⟨w₂.ledger, rfl⟩
  obtain ⟨l, rfl⟩ := hsame
  have hopen₂ : Open i spentUsd { w₁ with ledger := l } := hopen₁.rely (rely_ledger w₁ l i)
  refine ⟨hI, fun j _ => rely_ledger w₁ l j, fun _ _ => hopen₂, ?_⟩
  rintro e rfl
  exact hX w₁ e hopen₁ hok _ hopen₂

/-- `set_subscription_state`, which is about the keys and leaves the budget alone. -/
lemma onKeys_setSubscriptionState (subscription state : String) (hopen : Open i spentUsd w) :
    OnKeys amount initial i (Keys.setSubscriptionState subscription state)
      (fun _ w => Open i spentUsd w) (fun _ _ => amount i = 0) w := by
  unfold Keys.setSubscriptionState
  refine Discipline.wpE_then ?_ (fun found w (hopen : Open i spentUsd w) => ?_)
  · refine (Discipline.wpE_tryCatch _ _).2 ((Discipline.wpE_bind _ _).2 ?_)
    refine onKeys_ask hopen (fun _ e _ hok w hopen => ?_)
    have hfail : e = .resourceNotFound ∨ amount i = 0 := hok e rfl
    cases e
    case resourceNotFound => exact hopen
    all_goals exact hfail.resolve_left (by nofun)
  · cases found with
    | false => exact hopen
    | true => exact onKeys_ask hopen (fun _ e _ hok _ _ => hok e rfl)

/-- The loop over the keys keeps the session as it is. -/
lemma spends_suspendKeys (keys : List VirtualKey) (hopen : Open i spentUsd w) :
    Spends amount initial i (BudgetEnforcer.suspendKeys keys) (fun _ w => Open i spentUsd w) w := by
  induction keys generalizing w with
  | nil => exact hopen
  | cons key keys ih =>
      unfold BudgetEnforcer.suspendKeys
      cases key.subscription with
      | none => exact ih hopen
      | some subscription =>
          dsimp only
          split_ifs
          · exact ih hopen
          · have hstate : OnKeys amount initial i
              (Keys.setSubscriptionState subscription "suspended")
                (fun _ w => Open i spentUsd w) (fun _ _ => amount i = 0) w :=
              onKeys_setSubscriptionState subscription "suspended" hopen
            refine Discipline.wpE_then (Discipline.wpE_inl.2 hstate) (fun _ w hopen => ?_)
            exact Discipline.wpE_then (ih hopen) (fun _ _ hopen => hopen)

lemma spends_keysInScope {scope : BudgetScope} {targetId : String} (hopen : Open i spentUsd w) :
    Spends amount initial i (BudgetEnforcer.ask (.keysInScope scope targetId))
      (fun _ w => Open i spentUsd w) w := by
  refine Discipline.wpE_ask (fun w₁ hR hI => ⟨trivial, fun x r w₂ ha _ => ?_⟩)
  rcases Env.faulty_act ha with ⟨p, r₀, hs, hr⟩ | ⟨rfl, e, he, rfl⟩
  · cases hs
    rcases hr with rfl | ⟨e, he, rfl⟩
    · exact ⟨hI, fun j _ => Rely.refl j _, fun _ _ => hopen.rely hR, nofun⟩
    · cases he
  · cases he

/-- The commit: the amount of the call has been added. -/
lemma spends_commitSpend {id : String} {spent : ℚ} {ids : List String} {enforced : Bool}
    (hopen : Open i spentUsd w) (hspent : spent = amountOf spentUsd + amount i) :
    Spends amount initial i (do
      BudgetEnforcer.ask (.commitSpend id spent ids)
      return enforced) (fun _ w => i ∈ w.committed) w := by
  suffices hcommit : Spends amount initial i (BudgetEnforcer.ask (.commitSpend id spent ids))
      (fun _ w => i ∈ w.committed) w from (Discipline.wpE_bind _ _).2 hcommit
  refine Discipline.wpE_ask (fun w₁ hR hI => ⟨trivial, fun x r w₂ ha hok => ?_⟩)
  rcases Env.faulty_act ha with ⟨p, r₀, hs, hr⟩ | ⟨rfl, e, he, rfl⟩
  · cases hs
    rcases hr with rfl | ⟨e, he, rfl⟩
    · exact ⟨inv_commit hI (hopen.rely hR) hspent hok, fun j hj => rely_commit hj spent ids,
        fun _ _ => Finset.mem_insert_self i _, nofun⟩
    · cases he
  · cases he

lemma spent_eq (budget : Budget ℚ) : budget.spent = amountOf budget.spentUsd := by
  unfold BudgetEnforcer.Budget.spent amountOf
  cases budget.spentUsd with
  | none => exact Nat.cast_zero
  | some x =>
      by_cases hx : x = 0
      · simp [PyFloat.isZero, PyFloat.lit, hx]
      · simp [PyFloat.isZero, hx]

/-- `add_spend`, with a budget that the session has read: when it returns, its amount is in the
row. -/
lemma spends_addSpend (budget : Budget ℚ) (hopen : Open i budget.spentUsd w) :
    Spends amount initial i (BudgetEnforcer.addSpend budget (amount i))
      (fun _ w => i ∈ w.committed) w := by
  have hspent : PyFloat.add budget.spent (amount i) = amountOf budget.spentUsd + amount i := by
    rw [spent_eq]
    rfl
  unfold BudgetEnforcer.addSpend
  dsimp only
  split_ifs
  · exact spends_commitSpend hopen hspent
  · exact spends_commitSpend hopen hspent
  · refine Discipline.wpE_then (spends_keysInScope hopen) (fun keys w hopen => ?_)
    refine Discipline.wpE_then (spends_suspendKeys keys hopen) (fun marked w hopen => ?_)
    exact spends_commitSpend hopen hspent

/-- A call that has ended: it has committed, or nothing was at stake. -/
def Ended (amount : ι → ℚ) (i : ι) : Except PyErr Bool → Till ι → Prop
  | .ok _, w => i ∈ w.committed
  | .error _, _ => amount i = 0

/-- **Run.**  A session that reads and adds, while the others do the same. -/
lemma spend_wp (hpending : i ∉ w.committed) :
    (discipline amount initial).wp (Undisturbed amount) i (spend (amount i)).run (Ended amount i)
      w := by
  suffices hspend : (discipline amount initial).wpE (Undisturbed amount) i (spend (amount i))
      (fun _ w => i ∈ w.committed) (fun _ _ => amount i = 0) w by
    refine Discipline.wp_mono (fun r w h => ?_) hspend
    cases r <;> exact h
  have hload : (discipline amount initial).wpE (Undisturbed amount) i
      (@Prog.ask _ spendApi (.inr .loadBudget)) (fun budget w => Open i budget.spentUsd w)
      (fun _ _ => amount i = 0) w := by
    refine Discipline.wpE_ask (fun w₁ hR hI => ⟨trivial, fun x r w₂ ha _ => ?_⟩)
    rcases Env.faulty_act ha with ⟨p, r₀, hs, hr⟩ | ⟨rfl, e, he, rfl⟩
    · cases hs
      rcases hr with rfl | ⟨e, he, rfl⟩
      · refine ⟨hI, fun j hj => ⟨Function.update_of_ne hj _ _, Iff.rfl⟩, ?_, nofun⟩
        rintro budget ⟨⟩
        exact ⟨Function.update_self i _ _, fun hi => hpending (hR.2.1 hi)⟩
      · cases he
    · cases he
  refine Discipline.wpE_then hload (fun budget w hopen => ?_)
  exact Discipline.wpE_inl.2 (spends_addSpend budget hopen)

end Calls

/-! ## All runs -/

section Runs

variable {ι : Type} [DecidableEq ι] [Fintype ι]

/-- **No spend is lost** in a run in which no commit finds another spend than its session has read,
and no call to the gateway fails while an amount is at stake. -/
theorem spend_kept (amount : ι → ℚ) (ledger : Ledger) (row : Budget ℚ)
    {c : Config spendApi ι (Till ι) (Except PyErr Bool)}
    (h : Reaches (env ι) (Undisturbed amount) (start amount ledger row) c)
    (hended : ∀ i, ∃ r, c.Returned i r) :
    amountOf c.world.row.spentUsd = amountOf row.spentUsd + ∑ i, amount i := by
  have hstable : ∀ i r,
      (discipline amount (amountOf row.spentUsd)).Stable i (Ended amount i r) := by
    intro i r w w' hR _ hw
    cases r with
    | ok b => exact hR.2.2 hw
    | error e => exact hw
  have hstart : Inv amount (amountOf row.spentUsd) (start amount ledger row).world := by
    simp [Inv, start]
  have hsound := Discipline.sound hstable hstart
    (fun i => spend_wp (i := i) (Finset.notMem_empty i)) h
  have hinv : Inv amount (amountOf row.spentUsd) c.world := hsound.1
  rw [hinv]
  congr 1
  refine Finset.sum_subset (Finset.subset_univ _) (fun i _ hi => ?_)
  obtain ⟨r, hr⟩ := hended i
  have hpost := hsound.2 i
  rw [show c.prog i = .done r from hr] at hpost
  cases r with
  | ok b => exact absurd hpost hi
  | error e => exact hpost

end Runs

section Example

/-- One key, and a budget for it. -/
def shelf : Ledger :=
  { tenants := fun _ => none
    projects := fun _ => none
    keys := [⟨"vk_a1", "pj_1", some "vk_a1", none, none, none, none, .active⟩]
    subscriptions := fun id => if id = "vk_a1" then some "active" else none
    named := ⟨some (.limits ∅), []⟩
    usedIds := ["vk_a1"] }

def keyBudget : Budget ℚ := ⟨"bd_1", .key, "vk_a1", 10, some 8, .block⟩

def ok : Fate Pick PyErr := .served ⟨"", true⟩

/-- Two sessions read the same spend, and the second commit overwrites the first one; and a call
whose suspension fails is not recorded. -/
theorem spend_lost :
    (∃ c, Reaches (env Bool) anyStep (start (fun _ => 1) shelf keyBudget) c ∧
      (∀ i, ∃ r, c.Returned i r) ∧
      amountOf c.world.row.spentUsd ≠ amountOf keyBudget.spentUsd + ∑ _i : Bool, 1) ∧
    ∃ c, Reaches (env Unit) anyStep (start (fun _ => 3) shelf keyBudget) c ∧
      (∀ i, ∃ r, c.Returned i r) ∧
      amountOf c.world.row.spentUsd ≠ amountOf keyBudget.spentUsd + ∑ _i : Unit, 3 := by
  constructor
  · obtain ⟨c, hrun, hended, hspent⟩ := Config.reaches_of_play (env Bool) anyStep
      (start (fun _ => 1) shelf keyBudget) [(true, ok), (false, ok), (true, ok), (false, ok)]
      (fun c => (∀ i, c.Returned i (.ok false)) ∧ amountOf c.world.row.spentUsd = 9)
      (by decide +kernel)
    refine ⟨c, hrun, fun i => ⟨_, hended i⟩, ?_⟩
    rw [hspent]
    decide +kernel
  · obtain ⟨c, hrun, hended, hspent⟩ := Config.reaches_of_play (env Unit) anyStep
      (start (fun _ => 3) shelf keyBudget)
      [((), ok), ((), ok), ((), ok), ((), .refused .external)]
      (fun c => (∀ i, c.Returned i (.error .external)) ∧ amountOf c.world.row.spentUsd = 8)
      (by decide +kernel)
    refine ⟨c, hrun, fun i => ⟨_, hended i⟩, ?_⟩
    rw [hspent]
    decide +kernel

/-- Two sessions, one after the other; the second one suspends the key. -/
theorem spend_kept_twice :
    ∃ c, Reaches (env Bool) (Undisturbed (fun _ => 1)) (start (fun _ => 1) shelf keyBudget) c ∧
      amountOf c.world.row.spentUsd = 8 + ∑ _i : Bool, 1 := by
  obtain ⟨c, hrun, htrue, hfalse⟩ := Config.reaches_of_play (env Bool) (Undisturbed (fun _ => 1))
    (start (fun _ => 1) shelf keyBudget) [(true, ok), (true, ok), (false, ok), (false, ok),
      (false, ok), (false, ok), (false, ok)]
    (fun c => c.Returned true (.ok false) ∧ c.Returned false (.ok true)) (by decide +kernel)
  refine ⟨c, hrun, spend_kept (fun _ => 1) shelf keyBudget hrun (fun i => ?_)⟩
  cases i
  · exact ⟨_, hfalse⟩
  · exact ⟨_, htrue⟩

end Example

end BudgetSpend
end TokenFoundry
