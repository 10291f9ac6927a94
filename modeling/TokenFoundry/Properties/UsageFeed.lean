import Mathlib.Data.List.Basic
import TokenFoundry.Hub.Eventhub

/-!
# The tasks of the usage feed

What runs beside each other in a hub: requests that emit, the drain loop, the drain step of
`aclose`, the callback of the producer, and `aclose` itself.

Which records the producer has, which ones a drain step holds, and how often one has been handed
over is nothing the module knows.  It is kept in a ledger beside the state of the module: every call
changes the module in one way, and a ledger as its `Ledger` says.
-/

set_option autoImplicit false

namespace TokenFoundry
namespace Eventhub

/-! ## Tasks -/

/-- What a task runs: a new record, a step of the queue, a call back of the producer, or the end of
the process. -/
inductive Job (Record : Type)
  | emit (record : Record)
  | drainRound
  /-- The drain step of `aclose`. -/
  | finalDrain
  /-- The producer calls back. -/
  | callback
  | aclose

/-- The program of a task, as the module has it. -/
def Job.program {ι Record : Type} (dumps : Record → Option String) : Job Record → Task ι Unit
  | .emit record => Eventhub.emit dumps record
  | .drainRound => Eventhub.drainRound
  | .finalDrain => drainOnce
  | .callback => do
      let _ ← ask .onError
  | .aclose => Eventhub.aclose

/-- A drain step, which holds events while it runs. -/
def Job.drains {Record : Type} : Job Record → Bool
  | .drainRound => true
  | .finalDrain => true
  | _ => false

/-- An `emit` or a drain step: the tasks that may have a record in their hands. -/
def Job.works {Record : Type} : Job Record → Bool
  | .emit _ => true
  | job => job.drains

/-! ## Attempts that can be delayed -/

/-- There is no further attempt, or its delay can be computed. -/
def Retriable (st : Settings) (attempts : ℤ) : Prop :=
  st.retryMaxAttempts < attempts ∨ attempts ≤ 1024

instance (st : Settings) (attempts : ℤ) : Decidable (Retriable st attempts) :=
  inferInstanceAs (Decidable (_ ∨ _))

lemma retriable_one (st : Settings) : Retriable st 1 := .inr (by decide)

section Requeue

variable {ι : Type} {st : Settings}

/-- The delay can be computed up to the largest power that a float can hold. -/
lemma delay_eq_some (st : Settings) {attempts : ℤ} (h : attempts ≤ 1024) (jitter : ℚ) :
    ∃ seconds, delay st attempts jitter = some seconds := by
  unfold delay backoffSeconds
  rw [if_neg (by omega)]
  exact ⟨_, rfl⟩

/-- An attempt that can be delayed is parked or given up. -/
lemma requeue_ok {attempts : ℤ} (h : Retriable st attempts) (t : Reading) (origin : Option ι)
    (body : String) (hub : Hub ι) : (requeue st t origin body attempts hub).1 = .ok () := by
  unfold requeue
  split_ifs with hmax
  · rfl
  · obtain ⟨seconds, hdelay⟩ := delay_eq_some st (h.resolve_left hmax) t.jitter
    simp only [hdelay]

end Requeue

/-! ## The world -/

/-- What the outside picks: whether a construction succeeds, the clock, and a failed batch. -/
structure Pick (β : Type) where
  built : Bool
  clock : ℕ → Reading
  batch : β

/-- What a ledger notes of the records.  The notes are beside the module: no answer depends on them,
so that any ledger can be kept of one system. -/
structure Ledger (ι σ β : Type) where
  /-- The producer has taken a new record. -/
  sent : ι → String → σ → σ
  /-- A new record that the producer has refused is parked. -/
  refused : ι → σ → σ
  /-- A drain step takes the due events out of the queue. -/
  begun : ι → List (Pending ι) → σ → σ
  /-- The producer has taken an event again. -/
  resent : ι → Pending ι → σ → σ
  /-- An event that the producer has refused again is parked. -/
  parked : ι → Pending ι → σ → σ
  /-- The producer hands a batch back, if it is one that it may hand back. -/
  handBack : β → σ → Option (Batch ι × σ)

/-- The module, and a ledger of what its tasks do. -/
structure World (ι σ : Type) where
  hub : Hub ι
  ledger : σ

section Outside

variable {ι σ β : Type}

/-- The module changes, and the ledger does not. -/
def World.setHub (w : World ι σ) (h : Hub ι) : World ι σ := { w with hub := h }

/-- How the calls are answered: the module's globals change as the code changes them, and the ledger
notes where the records go. -/
def serve (L : Ledger ι σ β) (st : Settings) (i : ι) (w : World ι σ) :
    (o : Call ι) → Pick β → Option ((hubApi ι).Reply o × World ι σ)
  | .failSerialize, _ => some (.ok (), w.setHub { w.hub with
      failedSerialize := w.hub.failedSerialize + 1, lost := some i :: w.hub.lost })
  | .getProducer, x =>
      let found := Eventhub.getProducer st x.built w.hub
      some (.ok ⟨found.1, found.2.initFailed⟩, w.setHub found.2)
  | .failInit, _ => some (.ok (), w.setHub { w.hub with
      failedInit := w.hub.failedInit + 1, lost := some i :: w.hub.lost })
  | .send body, _ => some (.ok (), { w with ledger := L.sent i body w.ledger })
  | .failEnqueue body, x =>
      let ended := requeue st (x.clock 0) (some i) body 1
        { w.hub with failedEnqueue := w.hub.failedEnqueue + 1 }
      some (ended.1, ⟨ended.2, L.refused i w.ledger⟩)
  | .drainBegin, x =>
      let begun := Eventhub.drainBegin st x.built (x.clock 0).now w.hub
      some (.ok begun.1, ⟨begun.2, L.begun i begun.1 w.ledger⟩)
  | .countRetried, _ => some (.ok (), w.setHub { w.hub with retried := w.hub.retried + 1 })
  | .resend item, _ => some (.ok (), { w with ledger := L.resent i item w.ledger })
  | .failRetry item, x =>
      let ended := requeue st (x.clock 0) item.origin item.body (item.attempts + 1)
        { w.hub with failedRetry := w.hub.failedRetry + 1 }
      some (ended.1, ⟨ended.2, L.parked i item w.ledger⟩)
  | .maybeReinit, x =>
      some (.ok (), w.setHub (Eventhub.maybeReinit st x.built (x.clock 0).now w.hub))
  | .onError, x => (L.handBack x.batch w.ledger).map (fun s =>
      (.ok s.1, ⟨(onError st x.clock w.hub s.1).2, s.2⟩))
  | .cancelDrainer, _ => some (.ok (), w)
  | .makeAllDue, _ =>
      if w.hub.producer ∧ ¬ w.hub.retryQ.isEmpty then
        some (.ok true, w.setHub { w.hub with
          retryQ := w.hub.retryQ.map (fun item => { item with nextAt := 0 }) })
      else some (.ok false, w)
  | .waitForDrain, _ => some (.ok (), w)
  | .takeClients, _ => some (.ok w.hub.producer, w.setHub { w.hub with
      producer := false, initFailed := false, disabled := false })
  | .close _, _ => some (.ok (), w)
  | .loseRest, _ => some (.ok (), w.setHub { w.hub with
      retryQ := [], lost := w.hub.lost ++ w.hub.retryQ.map Pending.origin })

/-- The delay of the attempt that follows can be computed; otherwise the record is dropped. -/
def Call.Affordable (st : Settings) : Call ι → Prop
  | .failRetry item => Retriable st (item.attempts + 1)
  | _ => True

/-- A call that is served raises only where a delay cannot be computed. -/
lemma serve_ok {L : Ledger ι σ β} {st : Settings} {i : ι} {w w' : World ι σ} {o : Call ι}
    (ho : o.Affordable st) {x : Pick β} {r : (hubApi ι).Reply o}
    (hs : serve L st i w o x = some (r, w')) : ∃ b, r = .ok b := by
  unfold serve at hs
  cases o with
  | failEnqueue body =>
      cases hs
      exact ⟨(), requeue_ok (retriable_one st) _ _ _ _⟩
  | failRetry item =>
      cases hs
      exact ⟨(), requeue_ok ho _ _ _ _⟩
  | onError =>
      obtain ⟨s, -, heq⟩ := Option.map_eq_some_iff.1 hs
      cases heq
      exact ⟨_, rfl⟩
  | makeAllDue =>
      dsimp only at hs
      split_ifs at hs
      · cases hs
        exact ⟨_, rfl⟩
      · cases hs
        exact ⟨_, rfl⟩
  | _ =>
      cases hs
      exact ⟨_, rfl⟩

/-- The tasks, before any of them has run. -/
def start {Record : Type} (dumps : Record → Option String) (jobs : ι → Job Record)
    (w : World ι σ) : Config (hubApi ι) ι (World ι σ) (Except HubErr Unit) :=
  ⟨w, fun i => ((jobs i).program dumps).run⟩

/-- Tasks that rely on each other, in a world that nobody else moves. -/
def tasks {env : Env (hubApi ι) ι (World ι σ)} (hdrift : ∀ w w', ¬ env.drift w w')
    (inv : World ι σ → Prop) (rely : ι → World ι σ → World ι σ → Prop)
    (hrefl : ∀ i w, rely i w w)
    (htrans : ∀ {i w₁ w₂ w₃}, rely i w₁ w₂ → rely i w₂ w₃ → rely i w₁ w₃) : Discipline env where
  inv := inv
  rely := rely
  busy _ _ := True
  rely_refl := hrefl
  rely_trans _ _ _ _ := htrans
  drift_inv _ h := absurd h (hdrift _ _)
  drift_rely _ _ h := absurd h (hdrift _ _)

end Outside

/-! ## What a task holds -/

section Holdings

variable {ι α : Type} [DecidableEq ι]

/-- What a task holds, of all that is held. -/
def own (held : List (ι × α)) (i : ι) : List α := (held.filter (fun e => e.1 = i)).map (·.2)

variable {held : List (ι × α)} {i j : ι} {a : α}

lemma mem_own : a ∈ own held i ↔ (i, a) ∈ held := by
  simp [own]

/-- The task takes more, and the others hold what they held. -/
lemma own_append (as : List α) : own (held ++ as.map (fun a => (i, a))) i = own held i ++ as := by
  simp [own, List.filter_map, Function.comp_def]

lemma own_append_of_ne (hj : j ≠ i) (as : List α) :
    own (held ++ as.map (fun a => (i, a))) j = own held j := by
  simp [own, List.filter_map, Function.comp_def, Ne.symm hj]

variable [BEq (ι × α)] [LawfulBEq (ι × α)]

/-- The task lets go of something; what is left is the rest of what it held. -/
lemma own_erase (hmem : (i, a) ∈ held) : (own held i).Perm (a :: own (held.erase (i, a)) i) := by
  have hperm := ((List.perm_cons_erase hmem).filter (fun e => decide (e.1 = i))).map (·.2)
  simpa [own] using hperm

lemma own_erase_of_ne (hj : j ≠ i) : (own (held.erase (i, a)) j).Perm (own held j) := by
  by_cases hmem : (i, a) ∈ held
  · have hperm := ((List.perm_cons_erase hmem).filter (fun e => decide (e.1 = j))).map (·.2)
    simpa [own, Ne.symm hj] using hperm.symm
  · rw [List.erase_of_not_mem hmem]

end Holdings

/-! ## Rules for the tasks -/

section Rules

variable {ι W : Type} {env : Env (hubApi ι) ι W} {D : Discipline env}
variable {cond : StepCond (hubApi ι) ι W} {i : ι}

/-- The rule for `except Exception`: the handler runs after an exception, and a cancellation goes
on. -/
lemma wpE_catchException {p handler : Task ι Unit} {Q : Unit → W → Prop} {X : HubErr → W → Prop}
    {w : W} (h : D.wpE cond i p Q (fun e w => (e = .exception → D.wpE cond i handler Q X w) ∧
      (e = .cancelled → X .cancelled w)) w) :
    D.wpE cond i (catchException p handler) Q X w := by
  refine (Discipline.wpE_tryCatch _ _).2
    (Discipline.wpE_mono (fun _ _ hq => hq) (fun e w he => ?_) h)
  cases e with
  | exception => exact he.1 rfl
  | cancelled => exact he.2 rfl

/-- The calls of `aclose`, which belong to no record. -/
def Call.closes : Call ι → Bool
  | .cancelDrainer => true
  | .makeAllDue => true
  | .waitForDrain => true
  | .takeClients => true
  | .close _ => true
  | .loseRest => true
  | _ => false

lemma steady_catchException {P : W → Prop} {p : Task ι Unit} (hp : D.Steady cond i P p) :
    D.Steady cond i P (catchException p (return ())) := by
  refine Discipline.Steady.tryCatch hp (fun e => ?_)
  cases e with
  | exception => exact Discipline.Steady.pure ()
  | cancelled => exact Discipline.Steady.throw HubErr.cancelled

/-- `aclose` keeps what its calls keep, whatever the ledger is. -/
lemma steady_aclose {P : W → Prop}
    (hask : ∀ o : Call ι, o.closes = true → D.Steady cond i P (ask o)) :
    D.Steady cond i P Eventhub.aclose := by
  have hend : D.Steady cond i P (do
      if ← ask .takeClients then
        catchException (ask (.close .producer)) (return ())
        catchException (ask (.close .credential)) (return ())
      ask .loseRest) := by
    refine Discipline.Steady.bind (hask _ rfl) (fun taken => ?_)
    cases taken with
    | true =>
        refine Discipline.Steady.bind (steady_catchException (hask _ rfl)) (fun _ => ?_)
        exact Discipline.Steady.bind (steady_catchException (hask _ rfl)) (fun _ => hask _ rfl)
    | false => exact hask _ rfl
  refine Discipline.Steady.bind (hask _ rfl) (fun _ => ?_)
  refine Discipline.Steady.bind (hask _ rfl) (fun due => ?_)
  cases due with
  | true => exact Discipline.Steady.bind (steady_catchException (hask _ rfl)) (fun _ => hend)
  | false => exact hend

end Rules

end Eventhub
end TokenFoundry
