import Mathlib.Data.List.Count
import TokenFoundry.Properties.UsageFeed

/-!
# No usage record disappears

A record that has been emitted is with the producer, in the retry queue, or counted as lost, once.
It is nowhere while an `emit` or a drain step holds it.  Four things make it disappear for good
(`records_dropped`).  A drain step takes all due events out of the queue before it sends them, and
holds them in a local list: a cancellation or a timeout at one send drops that event and the ones
after it; and so does an attempt whose delay is too large for a float.  A batch that cannot be
listed is handed back without a record being parked or counted; and an event whose properties are no
mapping, or whose next attempt is too large for a float, ends the callback before the events after
it.

`records_conserved` says that there is nothing else: if no drain step is interrupted, what is handed
back can be listed and read, and the delays can be computed, every emitted record is in exactly one
of the three places whenever no `emit` and no drain step is in progress.
-/

set_option autoImplicit false

namespace TokenFoundry
namespace Eventhub

/-! ## The records and the outside -/

/-- Who has the records that are neither parked nor lost. -/
structure Custody (ι : Type) where
  /-- The records that the producer has taken and has not handed back. -/
  taken : List (Option ι)
  /-- The due events that a drain step has taken out of the queue, with its task. -/
  held : List (ι × Pending ι)

section Outside

variable {ι : Type} [DecidableEq ι]

/-- The producer hands back records that it has taken, in any shape, and other objects with them. -/
def custody : Ledger ι (Custody ι) (Batch ι) where
  sent i _ c := { c with taken := some i :: c.taken }
  refused _ c := c
  begun i due c := { c with held := c.held ++ due.map (fun item => (i, item)) }
  resent i item c := ⟨item.origin :: c.taken, c.held.erase (i, item)⟩
  parked i item c := { c with held := c.held.erase (i, item) }
  handBack batch c :=
    if batch.origins.all (fun o => o.isNone ∨ batch.origins.count o ≤ c.taken.count o) then
      some (batch, { c with taken := c.taken.diff batch.origins })
    else none

/-- The module and its records. -/
abbrev Records (ι : Type) := World ι (Custody ι)

/-- An await that raises has had no effect.  The drain steps and `aclose` may be cancelled. -/
def mayRaise : Call ι → HubErr → Bool
  | .send _, .exception => true
  | .resend _, _ => true
  | .waitForDrain, _ => true
  | .close _, _ => true
  | _, _ => false

def env (st : Settings) : Env (hubApi ι) ι (Records ι) :=
  .faulty (serve custody st) mayRaise (fun _ _ => false) (fun _ _ => False)

/-- The callback gets past the event: there is nothing to send again, or the next attempt has a
number and a delay. -/
def EventData.parks (st : Settings) (ev : EventData ι) : Bool :=
  (bodyText ev).isNone || (attemptOf ev).any (fun attempts => Retriable st (attempts + 1))

/-- The callback comes to the end of the batch: each event can be read, and its delay can be
computed. -/
def Batch.parks (st : Settings) : Batch ι → Bool
  | .events evs => evs.all (EventData.parks st)
  | _ => false

/-- No drain step is cancelled or times out while a record is with the producer. -/
def Uninterrupted : StepCond (hubApi ι) ι (Records ι)
  | _, _, .resend _, .error .cancelled => False
  | _, _, _, _ => True

/-- What hands back records can be listed and read, or it hands back none of the hub's own. -/
def Readable (st : Settings) : StepCond (hubApi ι) ι (Records ι)
  | _, _, .onError, .ok batch => batch.parks st = true ∨ ∀ o ∈ batch.origins, o = none
  | _, _, _, _ => True

/-- What hands back records can be listed, even if some of them cannot be read. -/
def Listed : StepCond (hubApi ι) ι (Records ι)
  | _, _, .onError, .ok (.events _) => True
  | _, _, .onError, .ok batch => ∀ o ∈ batch.origins, o = none
  | _, _, _, _ => True

/-- The delay of an event that could not be sent again can be computed. -/
def Affordable (st : Settings) : StepCond (hubApi ι) ι (Records ι) := fun _ _ o _ => o.Affordable st

def Intact (st : Settings) : StepCond (hubApi ι) ι (Records ι) := fun i w o r =>
  Uninterrupted i w o r ∧ Readable st i w o r ∧ Affordable st i w o r

instance (i : ι) (w : Records ι) (o : Call ι) (r : (hubApi ι).Reply o) :
    Decidable (Uninterrupted i w o r) := by
  unfold Uninterrupted
  split <;> infer_instance

instance (st : Settings) (i : ι) (w : Records ι) (o : Call ι) (r : (hubApi ι).Reply o) :
    Decidable (Readable st i w o r) := by
  unfold Readable
  split <;> infer_instance

instance (i : ι) (w : Records ι) (o : Call ι) (r : (hubApi ι).Reply o) :
    Decidable (Listed i w o r) := by
  unfold Listed
  split <;> infer_instance

instance (st : Settings) (i : ι) (w : Records ι) (o : Call ι) (r : (hubApi ι).Reply o) :
    Decidable (Affordable st i w o r) := by
  unfold Affordable Call.Affordable
  split <;> infer_instance

instance (st : Settings) (i : ι) (w : Records ι) (o : Call ι) (r : (hubApi ι).Reply o) :
    Decidable (Intact st i w o r) := inferInstanceAs (Decidable (_ ∧ _ ∧ _))

variable {Record : Type}

/-- Nothing has been emitted, and nothing is parked, lost or held from before. -/
structure World.Fresh (w : Records ι) : Prop where
  disabled : w.hub.disabled = false
  retryQ : w.hub.retryQ = []
  lost : w.hub.lost = []
  taken : w.ledger.taken = []
  held : w.ledger.held = []

/-- In how many of the three places the record of a task is: with the producer, in the retry queue,
or among the lost ones. -/
def World.places (w : Records ι) (r : ι) : ℕ :=
  w.ledger.taken.count (some r) + (w.hub.retryQ.map Pending.origin).count (some r) +
    w.hub.lost.count (some r)

/-! ## What the functions keep -/

section Counts

variable {st : Settings} {r : ι} {h : Hub ι}

/-- How often the record of a task is in the retry queue or among the lost ones. -/
def Hub.parked (h : Hub ι) (r : ι) : ℕ :=
  (h.retryQ.map Pending.origin).count (some r) + h.lost.count (some r)

lemma parked_evict (cap : ℕ) (q : List (Pending ι)) (lost : List (Option ι)) :
    ((evict cap q lost).1.map Pending.origin).count (some r) + (evict cap q lost).2.count (some r) =
      (q.map Pending.origin).count (some r) + lost.count (some r) := by
  induction q generalizing lost with
  | nil => rfl
  | cons item rest ih =>
      unfold evict
      split_ifs
      · rw [ih]
        simp only [List.map_cons, List.count_cons]
        omega
      · rfl

/-- A requeued event is in the queue or lost, and every other one stays one of the two. -/
lemma parked_requeue {attempts : ℤ} (hattempts : Retriable st attempts) (t : Reading)
    (origin : Option ι) (body : String) :
    (requeue st t origin body attempts h).2.parked r = h.parked r + [origin].count (some r) := by
  unfold requeue
  split_ifs with hmax
  · simp only [Hub.parked, List.count_cons, List.count_nil]
    omega
  · obtain ⟨seconds, hdelay⟩ := delay_eq_some st (hattempts.resolve_left hmax) t.jitter
    have hevict := parked_evict (r := r) (max st.retryMaxQueue 1).toNat h.retryQ h.lost
    simp only [hdelay, Hub.parked, List.map_append, List.map_cons, List.map_nil, List.count_append]
    omega

/-- An object that is no record changes nothing, even where its delay cannot be computed. -/
lemma parked_requeue_none (t : Reading) (body : String) (attempts : ℤ) :
    (requeue st t none body attempts h).2.parked r = h.parked r := by
  have hevict := parked_evict (r := r) (max st.retryMaxQueue 1).toNat h.retryQ h.lost
  unfold requeue
  split_ifs
  · simp [Hub.parked]
  · cases hdelay : delay st attempts t.jitter with
    | none =>
        simp only [Hub.parked]
        exact hevict
    | some seconds =>
        simp only [Hub.parked, List.map_append, List.map_cons, List.map_nil,
          List.count_append]
        simpa using hevict

lemma parked_giveUpAll : (giveUpAll h).parked r = h.parked r := by
  simp only [giveUpAll, Hub.parked, List.map_nil, List.count_nil, List.count_append]
  omega

lemma parked_getProducer (built : Bool) : (getProducer st built h).2.parked r = h.parked r := by
  unfold getProducer
  split_ifs <;> rfl

lemma parked_maybeReinit (built : Bool) (now : ℚ) :
    (maybeReinit st built now h).parked r = h.parked r := by
  unfold maybeReinit
  split_ifs
  · rfl
  · exact parked_getProducer built
  · rfl

/-- The due events leave the queue: what was parked is parked still or was handed to the drain
step. -/
lemma parked_drainBegin (built : Bool) (now : ℚ) :
    (drainBegin st built now h).2.parked r +
      ((drainBegin st built now h).1.map Pending.origin).count (some r) = h.parked r := by
  unfold drainBegin
  split_ifs
  · simp
  · have hkept : (getProducer st built h).2.parked r = h.parked r := parked_getProducer built
    revert hkept
    cases getProducer st built h with
    | mk ready h' =>
        intro hkept
        have hkept' : h'.parked r = h.parked r := hkept
        cases ready with
        | true =>
            have hsplit := ((List.filter_append_perm
                (fun item : Pending ι => decide (item.nextAt ≤ now))
              h'.retryQ).map Pending.origin).count_eq (some r)
            rw [← hkept']
            simp only [Hub.parked, List.map_append, List.count_append, decide_not] at hsplit ⊢
            omega
        | false =>
            dsimp only
            split_ifs
            · rw [parked_giveUpAll]
              simpa using hkept'
            · simpa using hkept'

/-- An event that the callback gets past is parked or lost. -/
lemma parkOne_spec {ev : EventData ι} (hev : ev.parks st = true) (t : Reading) :
    (parkOne st t ev h).1 = .ok () ∧
      (parkOne st t ev h).2.parked r = h.parked r + [ev.origin].count (some r) := by
  unfold parkOne
  unfold EventData.parks at hev
  cases hbody : bodyText ev with
  | none =>
      refine ⟨rfl, ?_⟩
      simp only [Hub.parked, List.count_cons, List.count_nil]
      omega
  | some body =>
      cases hattempt : attemptOf ev with
      | none => simp [hbody, hattempt] at hev
      | some attempts =>
          have hretriable : Retriable st (attempts + 1) := by simpa [hbody, hattempt] using hev
          exact ⟨requeue_ok hretriable _ _ _ _, parked_requeue hretriable _ _ _⟩

lemma parked_park (clock : ℕ → Reading) (k : ℕ) {evs : List (EventData ι)}
    (hevs : evs.all (EventData.parks st) = true) :
    (park st clock k evs h).2.parked r =
      h.parked r + (evs.map EventData.origin).count (some r) := by
  induction evs generalizing k h with
  | nil => simp [park]
  | cons ev evs ih =>
      rw [List.all_cons, Bool.and_eq_true] at hevs
      obtain ⟨hok, hparked⟩ := parkOne_spec (r := r) (h := h) hevs.1 (clock k)
      unfold park
      cases hone : parkOne st (clock k) ev h with
      | mk ended h' =>
          rw [hone] at hok hparked
          have hok : ended = .ok () := hok
          have hparked : h'.parked r = h.parked r + [ev.origin].count (some r) := hparked
          subst hok
          dsimp only
          rw [ih (k + 1) hevs.2, hparked]
          simp only [List.map_cons, List.count_cons, List.count_nil]
          omega

/-- A batch that the callback comes to the end of is parked or lost, all of it. -/
lemma parked_onError (clock : ℕ → Reading) {batch : Batch ι} (hbatch : batch.parks st = true) :
    (onError st clock h batch).2.parked r = h.parked r + batch.origins.count (some r) := by
  cases batch with
  | events evs => exact parked_park clock 0 hbatch
  | notIterable origins => exact absurd hbatch (by simp [Batch.parks])
  | raising origins => exact absurd hbatch (by simp [Batch.parks])

/-- A batch without records neither adds a record to the parked and the lost ones nor removes one.
-/
lemma parked_onError_foreign (clock : ℕ → Reading) {batch : Batch ι}
    (hbatch : ∀ o ∈ batch.origins, o = none) :
    (onError st clock h batch).2.parked r = h.parked r := by
  have hone : ∀ (t : Reading) (ev : EventData ι) (h : Hub ι), ev.origin = none →
      (parkOne st t ev h).2.parked r = h.parked r := by
    intro t ev h hev
    unfold parkOne
    cases bodyText ev with
    | none => simp [Hub.parked, hev]
    | some body =>
        cases attemptOf ev with
        | none => rfl
        | some attempts =>
            rw [hev]
            exact parked_requeue_none t body (attempts + 1)
  cases batch with
  | notIterable origins => rfl
  | raising origins => rfl
  | events evs =>
      have hevs : ∀ ev ∈ evs, ev.origin = none := fun ev hev =>
        hbatch _ (List.mem_map_of_mem hev)
      have hall : ∀ (evs : List (EventData ι)) (k : ℕ) (h : Hub ι), (∀ ev ∈ evs, ev.origin = none) →
          (park st clock k evs h).2.parked r = h.parked r := by
        intro evs
        induction evs with
        | nil => exact fun _ _ _ => rfl
        | cons ev evs ih =>
            intro k h hevs
            have hfirst := hone (clock k) ev h (hevs ev List.mem_cons_self)
            unfold park
            cases hpark : parkOne st (clock k) ev h with
            | mk ended h' =>
                rw [hpark] at hfirst
                cases ended with
                | error e => exact hfirst
                | ok _ =>
                    exact (ih (k + 1) h' (fun ev' h' => hevs ev' (List.mem_cons_of_mem _ h'))).trans
                      hfirst
      exact hall evs 0 _ hevs

end Counts

/-! ## The invariant -/

/-- The events that a drain step holds, between the queue and the producer. -/
def Custody.own (c : Custody ι) (i : ι) : List (Pending ι) := Eventhub.own c.held i

/-- The three places, and the drain steps that carry an event from one to the other. -/
def World.total (w : Records ι) (r : ι) : ℕ :=
  w.places r + (w.ledger.held.map (fun e => e.2.origin)).count (some r)

lemma places_eq (w : Records ι) (r : ι) :
    w.places r = w.ledger.taken.count (some r) + w.hub.parked r := by
  simp only [World.places, Hub.parked]
  omega

/-- The invariant of the tasks: a hub that is enabled stays so, and only drain steps hold events. -/
structure Inv (st : Settings) (jobs : ι → Job Record) (w : Records ι) : Prop where
  disabled : st.enabled = true → w.hub.disabled = false
  held : ∀ e ∈ w.ledger.held, (jobs e.1).drains = true

/-- The others neither move the record of a task away nor touch what it holds. -/
structure Rely (i : ι) (w w' : Records ι) : Prop where
  total : w'.total i = w.total i
  own : (w'.ledger.own i).Perm (w.ledger.own i)

lemma Rely.refl (i : ι) (w : Records ι) : Rely i w w := ⟨rfl, .refl _⟩

lemma Rely.trans {i : ι} {w₁ w₂ w₃ : Records ι} (h₁ : Rely i w₁ w₂) (h₂ : Rely i w₂ w₃) :
    Rely i w₁ w₃ := ⟨h₂.total.trans h₁.total, h₂.own.trans h₁.own⟩

/-- A step keeps the invariant and what the others rely on. -/
def Kept (st : Settings) (jobs : ι → Job Record) (i : ι) (w w' : Records ι) : Prop :=
  Inv st jobs w' ∧ ∀ j, j ≠ i → Rely j w w'

/-- The tasks under interference; they rely on each other not to touch what they hold. -/
def discipline (st : Settings) (jobs : ι → Job Record) : Discipline (env (ι := ι) st) :=
  tasks (fun _ _ => id) (Inv st jobs) Rely Rely.refl Rely.trans

section Steps

variable {st : Settings} {jobs : ι → Job Record} {i : ι} {w w' : Records ι}

/-- A step that leaves the drain steps alone may move the records of its own task only. -/
lemma kept_of_places (hI : Inv st jobs w) (hdisabled : st.enabled = true → w'.hub.disabled = false)
    (hheld : w'.ledger.held = w.ledger.held) (hplaces : ∀ j, j ≠ i → w'.places j = w.places j) :
    Kept st jobs i w w' := by
  refine ⟨⟨hdisabled, by simpa [hheld] using hI.held⟩, fun j hj => ⟨?_, ?_⟩⟩
  · simp only [World.total, hheld, hplaces j hj]
  · simp only [Custody.own, hheld]
    exact .refl _

/-! ### Letting go of an event -/

section Release

variable {item : Pending ι}

lemma count_release (hmem : (i, item) ∈ w.ledger.held) (r : ι) :
    (w.ledger.held.map (fun e => e.2.origin)).count (some r) =
      ((w.ledger.held.erase (i, item)).map (fun e => e.2.origin)).count (some r) +
        [item.origin].count (some r) := by
  rw [((List.perm_cons_erase hmem).map (fun e => e.2.origin)).count_eq]
  simp only [List.map_cons, List.count_cons, List.count_nil]
  omega

/-- A drain step puts an event that it holds in one of the three places. -/
lemma kept_release (hI : Inv st jobs w) (hmem : (i, item) ∈ w.ledger.held)
    (hdisabled : w'.hub.disabled = w.hub.disabled)
      (hheld : w'.ledger.held = w.ledger.held.erase (i, item))
    (hplaces : ∀ r, w'.places r = w.places r + [item.origin].count (some r)) :
    Kept st jobs i w w' := by
  refine ⟨⟨fun henabled => hdisabled.trans (hI.disabled henabled), fun e he => ?_⟩,
    fun j hj => ⟨?_, ?_⟩⟩
  · rw [hheld] at he
    exact hI.held e (List.mem_of_mem_erase he)
  · have hcount := count_release hmem j
    simp only [World.total, hheld, hplaces j]
    omega
  · simp only [Custody.own, hheld]
    exact own_erase_of_ne hj

end Release

/-! ### Every call -/

omit [DecidableEq ι] in
@[simp] lemma disabled_requeue (t : Reading) (origin : Option ι) (body : String) (attempts : ℤ)
    (h : Hub ι) : (requeue st t origin body attempts h).2.disabled = h.disabled := by
  unfold requeue
  split_ifs
  · rfl
  · cases delay st attempts t.jitter <;> rfl

omit [DecidableEq ι] in
lemma disabled_getProducer (built : Bool) {h : Hub ι} (henabled : st.enabled = true)
    (hh : h.disabled = false) : (getProducer st built h).2.disabled = false := by
  unfold getProducer
  split_ifs <;> exact hh

omit [DecidableEq ι] in
lemma disabled_drainBegin (built : Bool) (now : ℚ) {h : Hub ι} (henabled : st.enabled = true)
    (hh : h.disabled = false) : (drainBegin st built now h).2.disabled = false := by
  unfold drainBegin
  have hkept := disabled_getProducer built henabled hh
  revert hkept
  split_ifs
  · exact fun _ => hh
  · cases getProducer st built h with
    | mk ready h' =>
        intro hkept
        have hkept' : h'.disabled = false := hkept
        cases ready with
        | true => exact hkept'
        | false => simp [hkept']

omit [DecidableEq ι] in
lemma disabled_maybeReinit (built : Bool) (now : ℚ) {h : Hub ι} (henabled : st.enabled = true)
    (hh : h.disabled = false) : (maybeReinit st built now h).disabled = false := by
  unfold maybeReinit
  split_ifs
  · exact hh
  · exact disabled_getProducer built henabled hh
  · exact hh

omit [DecidableEq ι] in
lemma disabled_parkOne (st : Settings) (t : Reading) (ev : EventData ι) (h : Hub ι) :
    (parkOne st t ev h).2.disabled = h.disabled := by
  unfold parkOne
  cases bodyText ev with
  | none => rfl
  | some body =>
      cases attemptOf ev with
      | none => rfl
      | some attempts => exact disabled_requeue _ _ _ _ _

omit [DecidableEq ι] in
@[simp] lemma disabled_park (clock : ℕ → Reading) (k : ℕ) (evs : List (EventData ι)) (h : Hub ι) :
    (park st clock k evs h).2.disabled = h.disabled := by
  induction evs generalizing k h with
  | nil => rfl
  | cons ev evs ih =>
      have hone := disabled_parkOne st (clock k) ev h
      unfold park
      cases hpark : parkOne st (clock k) ev h with
      | mk ended h' =>
          rw [hpark] at hone
          cases ended with
          | error e => exact hone
          | ok _ => exact (ih (k + 1) h').trans hone

omit [DecidableEq ι] in
@[simp] lemma disabled_onError (clock : ℕ → Reading) (h : Hub ι) (batch : Batch ι) :
    (onError st clock h batch).2.disabled = h.disabled := by
  cases batch with
  | events evs => exact disabled_park _ _ _ _
  | notIterable origins => rfl
  | raising origins => rfl

/-- The calls that add the record of their own task. -/
def Call.records : Call ι → Bool
  | .failSerialize => true
  | .failInit => true
  | .send _ => true
  | .failEnqueue _ => true
  | _ => false

/-- The calls of the drain steps that move the held events. -/
def Call.moves : Call ι → Bool
  | .drainBegin => true
  | .resend _ => true
  | .failRetry _ => true
  | _ => false

lemma places_setHub (h : Hub ι) (r : ι) :
    (w.setHub h).places r = w.ledger.taken.count (some r) + h.parked r := places_eq _ _

/-- What is handed back has been taken, and is parked or lost. -/
lemma places_handBack (clock : ℕ → Reading) {batch : Batch ι} {s : Batch ι × Custody ι}
    (h : custody.handBack batch w.ledger = some s)
    (hread : s.1.parks st = true ∨ ∀ o ∈ s.1.origins, o = none) (r : ι) :
    World.places (⟨(onError st clock w.hub s.1).2, s.2⟩ : Records ι) r = w.places r := by
  unfold custody at h
  dsimp only at h
  split_ifs at h with hall
  cases h
  dsimp only at hread
  have htaken : batch.origins.count (some r) ≤ w.ledger.taken.count (some r) := by
    by_cases hmem : some r ∈ batch.origins
    · simpa using List.all_eq_true.1 hall _ hmem
    · rw [List.count_eq_zero_of_not_mem hmem]
      omega
  rw [places_eq, places_eq]
  simp only [List.count_diff]
  rcases hread with hparks | hforeign
  · rw [parked_onError clock hparks]
    omega
  · have hnone : batch.origins.count (some r) = 0 :=
      List.count_eq_zero_of_not_mem (fun hmem => nomatch hforeign _ hmem)
    rw [parked_onError_foreign clock hforeign]
    omega

/-- What a call leaves that holds no event: the drain steps and the switch of the hub, and the three
places up to the record of its own task, if the call is about that one. -/
structure Spares (st : Settings) (i : ι) (records : Bool) (w w' : Records ι) : Prop where
  held : w'.ledger.held = w.ledger.held
  disabled : st.enabled = true → w'.hub.disabled = false
  others : ∀ j, j ≠ i → w'.places j = w.places j
  own : records = false → w'.places i = w.places i

/-- Most of the calls change the globals only, and leave what is parked or lost. -/
lemma spares_setHub {h : Hub ι} (hdisabled : st.enabled = true → h.disabled = false)
    (hparked : ∀ j, h.parked j = w.hub.parked j) (records : Bool) :
    Spares st i records w (w.setHub h) := by
  have hplaces : ∀ j, (w.setHub h).places j = w.places j := by
    intro j
    rw [places_setHub, places_eq, hparked]
  exact ⟨rfl, hdisabled, fun j _ => hplaces j, fun _ => hplaces i⟩

/-- A call about the record of its task changes the places of that record only. -/
lemma spares_own (hheld : w'.ledger.held = w.ledger.held)
    (hdisabled : st.enabled = true → w'.hub.disabled = false)
    (hothers : ∀ j, j ≠ i → w'.places j = w.places j) : Spares st i true w w' :=
  ⟨hheld, hdisabled, hothers, fun h => nomatch h⟩

lemma spares_serve (hdis : st.enabled = true → w.hub.disabled = false) {o : Call ι}
    (ho : o.moves = false) {x : Pick (Batch ι)} {r : (hubApi ι).Reply o}
    (hs : serve custody st i w o x = some (r, w')) (hok : (Intact st) i w o r) :
    Spares st i o.records w w' := by
  have hsame : ∀ records, Spares st i records w w := fun records =>
    ⟨rfl, hdis, fun _ _ => rfl, fun _ => rfl⟩
  unfold serve at hs
  cases o with
  | failSerialize =>
      cases hs
      exact spares_own rfl hdis (fun j hj => by simp [World.places, World.setHub, Ne.symm hj])
  | getProducer =>
      cases hs
      exact spares_setHub (fun he => disabled_getProducer _ he (hdis he))
        (fun j => parked_getProducer _) _
  | failInit =>
      cases hs
      exact spares_own rfl hdis (fun j hj => by simp [World.places, World.setHub, Ne.symm hj])
  | send body =>
      cases hs
      exact spares_own rfl hdis (fun j hj => by simp [World.places, custody, Ne.symm hj])
  | failEnqueue body =>
      cases hs
      refine spares_own rfl (fun he => (disabled_requeue _ _ _ _ _).trans (hdis he))
        (fun j hj => ?_)
      rw [places_eq, places_eq]
      dsimp only
      rw [parked_requeue (retriable_one st)]
      simp [custody, Hub.parked, Ne.symm hj]
  | drainBegin | resend item | failRetry item => exact absurd ho (by simp [Call.moves])
  | countRetried =>
      cases hs
      refine spares_setHub ?_ (fun j => ?_) _
      · exact hdis
      · rfl
  | maybeReinit =>
      cases hs
      exact spares_setHub (fun he => disabled_maybeReinit _ _ he (hdis he))
        (fun j => parked_maybeReinit _ _) _
  | onError =>
      -- What the producer hands back goes to the queue or to the lost ones, which are both places.
      obtain ⟨s, hback, heq⟩ := Option.map_eq_some_iff.1 hs
      cases heq
      have hplaces := places_handBack x.clock hback hok.2.1
      unfold custody at hback
      dsimp only at hback
      split_ifs at hback
      cases hback
      exact ⟨rfl, fun he => (disabled_onError _ _ _).trans (hdis he), fun j _ => hplaces j,
        fun _ => hplaces i⟩
  | cancelDrainer | waitForDrain | close client =>
      cases hs
      exact hsame _
  | makeAllDue =>
      dsimp only at hs
      split_ifs at hs
      · cases hs
        refine spares_setHub ?_ (fun j => ?_) _
        · exact hdis
        · simp [Hub.parked, Function.comp_def]
      · cases hs
        exact hsame _
  | takeClients =>
      cases hs
      refine spares_setHub ?_ (fun j => ?_) _
      · exact fun _ => rfl
      · rfl
  | loseRest =>
      cases hs
      refine spares_setHub ?_ (fun j => ?_) _
      · exact hdis
      · simp only [Hub.parked, List.map_nil, List.count_nil, List.count_append]
        omega

/-- The calls that hold no event keep the three places, up to the record of their own task. -/
lemma kept_serve (hI : Inv st jobs w) {o : Call ι} (ho : o.moves = false) {x : Pick (Batch ι)}
    {r : (hubApi ι).Reply o} (hs : serve custody st i w o x = some (r, w'))
      (hok : (Intact st) i w o r) :
    Kept st jobs i w w' ∧ (o.records = false → w'.total i = w.total i) := by
  have hspares := spares_serve hI.disabled ho hs hok
  refine ⟨kept_of_places hI hspares.disabled hspares.held hspares.others, fun hrec => ?_⟩
  simp only [World.total, hspares.held, hspares.own hrec]

/-- A drain step begins: the due events are held, and nothing of the others is touched. -/
lemma kept_drainBegin (hI : Inv st jobs w) (hjob : (jobs i).drains = true) {x : Pick (Batch ι)}
    {r : (hubApi ι).Reply (.drainBegin : Call ι)}
    (hs : serve custody st i w .drainBegin x = some (r, w')) :
    Kept st jobs i w w' ∧ ∀ due, r = .ok due → (w'.ledger.own i).Perm (w.ledger.own i ++ due) := by
  cases hs
  set begun := Eventhub.drainBegin st x.built (x.clock 0).now w.hub with hbegun
  have hparked : ∀ j, begun.2.parked j + (begun.1.map Pending.origin).count (some j) =
      w.hub.parked j := fun j => parked_drainBegin x.built (x.clock 0).now
  have horigins : (begun.1.map (fun item => (i, item))).map (fun e => e.2.origin) =
      begun.1.map Pending.origin := by simp [Function.comp_def]
  refine ⟨⟨⟨fun he => disabled_drainBegin _ _ he (hI.disabled he), fun e he => ?_⟩,
    fun j hj => ⟨?_, ?_⟩⟩, ?_⟩
  · rcases List.mem_append.1 he with he | he
    · exact hI.held e he
    · obtain ⟨item, -, rfl⟩ := List.mem_map.1 he
      exact hjob
  · have hcount := hparked j
    simp only [World.total, places_eq, custody, List.map_append, horigins, List.count_append]
    omega
  · exact List.Perm.of_eq (own_append_of_ne hj begun.1)
  · rintro due ⟨⟩
    exact List.Perm.of_eq (own_append begun.1)

/-- An event that is sent again is with the producer. -/
lemma kept_resend (hI : Inv st jobs w) {item : Pending ι} (hmem : (i, item) ∈ w.ledger.held)
    {x : Pick (Batch ι)}
    {r : (hubApi ι).Reply (.resend item)}
      (hs : serve custody st i w (.resend item) x = some (r, w')) :
    Kept st jobs i w w' ∧ (w.ledger.own i).Perm (item :: w'.ledger.own i) := by
  cases hs
  refine ⟨kept_release hI hmem rfl rfl (fun j => ?_), own_erase hmem⟩
  simp only [World.places, custody, List.count_cons, List.count_nil]
  omega

/-- An event that cannot be sent again is parked or lost. -/
lemma kept_failRetry (hI : Inv st jobs w) {item : Pending ι} (hmem : (i, item) ∈ w.ledger.held)
    (hitem : Retriable st (item.attempts + 1)) {x : Pick (Batch ι)}
    {r : (hubApi ι).Reply (.failRetry item)}
      (hs : serve custody st i w (.failRetry item) x = some (r, w')) :
    Kept st jobs i w w' ∧ (w.ledger.own i).Perm (item :: w'.ledger.own i) := by
  cases hs
  refine ⟨kept_release hI hmem (disabled_requeue _ _ _ _ _) rfl (fun j => ?_), own_erase hmem⟩
  rw [places_eq, places_eq]
  dsimp only
  rw [parked_requeue hitem]
  simp only [custody, Hub.parked]
  omega

/-- No call touches what the other tasks hold; the list may only be rearranged. -/
lemma own_serve {j : ι} (hj : j ≠ i) {o : Call ι} {x : Pick (Batch ι)} {r : (hubApi ι).Reply o}
    (hs : serve custody st i w o x = some (r, w')) : (w'.ledger.own j).Perm (w.ledger.own j) := by
  have hsame : w'.ledger.held = w.ledger.held → (w'.ledger.own j).Perm (w.ledger.own j) := by
    intro h
    simp only [Custody.own, h]
    exact .refl _
  unfold serve at hs
  cases o with
  | drainBegin =>
      cases hs
      exact List.Perm.of_eq (own_append_of_ne hj _)
  | resend item | failRetry item =>
      cases hs
      exact own_erase_of_ne hj
  | onError =>
      obtain ⟨s, hback, heq⟩ := Option.map_eq_some_iff.1 hs
      cases heq
      unfold custody at hback
      dsimp only at hback
      split_ifs at hback
      cases hback
      exact hsame rfl
  | makeAllDue =>
      dsimp only at hs
      split_ifs at hs
      · cases hs
        exact hsame rfl
      · cases hs
        exact hsame rfl
  | _ =>
      cases hs
      exact hsame rfl

end Steps

/-! ## The tasks -/

section Tasks

variable {st : Settings} {jobs : ι → Job Record} {i : ι} {w : Records ι}

/-- The task may go on here. -/
abbrev Runs (st : Settings) (jobs : ι → Job Record) (i : ι) {α : Type} (p : Task ι α)
    (Q : α → Records ι → Prop) (X : HubErr → Records ι → Prop) (w : Records ι) : Prop :=
  (discipline st jobs).wpE (Intact st) i p Q X w

/-- The rule for a call: it answers, or an await raises without effect. -/
lemma runs_ask {o : Call ι} {Q : o.Answer → Records ι → Prop} {X : HubErr → Records ι → Prop}
    (hQ : ∀ w₁, Rely i w w₁ → Inv st jobs w₁ → ∀ x b w₂,
      serve custody st i w₁ o x = some (.ok b, w₂) →
      (Intact st) i w₁ o (.ok b) → Kept st jobs i w₁ w₂ ∧ Q b w₂)
    (hX : ∀ w₁, Rely i w w₁ → ∀ e, mayRaise o e = true → (Intact st) i w₁ o (.error e) → X e w₁) :
    Runs st jobs i (ask o) Q X w := by
  refine Discipline.wpE_ask (fun w₁ hR hI => ⟨trivial, fun x r w₂ ha hok => ?_⟩)
  rcases Env.faulty_act ha with ⟨x, r₀, hs, rfl | ⟨e, he, -⟩⟩ | ⟨rfl, e, he, rfl⟩
  · obtain ⟨b, rfl⟩ := serve_ok hok.2.2 hs
    obtain ⟨⟨hI₂, hG⟩, hb⟩ := hQ w₁ hR hI x b w₂ hs hok
    refine ⟨hI₂, hG, ?_, ?_⟩
    · rintro b' ⟨⟩
      exact hb
    · rintro e ⟨⟩
  · cases he
  · refine ⟨hI, fun j _ => Rely.refl j _, ?_, ?_⟩
    · rintro b ⟨⟩
    · rintro e' ⟨⟩
      exact hX _ hR e he hok

/-- The rule for a call that moves no held event; the task need not promise anything. -/
lemma runs_any {o : Call ι} (ho : o.moves = false) :
    Runs st jobs i (ask o) (fun _ _ => True) (fun _ _ => True) w :=
  runs_ask (fun _ _ hI _ _ _ hs hok => ⟨(kept_serve hI ho hs hok).1, trivial⟩)
    (fun _ _ _ _ _ => trivial)

/-! ### `emit` -/

/-- The record of the task is in one place, unless the hub is disabled and takes none. -/
def Placed (st : Settings) (i : ι) (w : Records ι) : Prop := st.enabled = true → w.total i = 1

lemma runs_getProducer (hw : w.total i = 0) :
    Runs st jobs i (ask .getProducer) (fun found w => w.total i = 0 ∧
      (st.enabled = true → found.producer = false → found.initFailed = true))
      (fun _ _ => False) w := by
  refine runs_ask (o := .getProducer) (fun w₁ hR hI x b w₂ hs hok => ?_)
    (fun _ _ e he => nomatch he)
  obtain ⟨hkept, hsame⟩ := kept_serve hI rfl hs hok
  refine ⟨hkept, (hsame rfl).trans (hR.total.trans hw), fun henabled => ?_⟩
  cases hs
  have hdisabled := hI.disabled henabled
  unfold Eventhub.getProducer
  split_ifs with hproducer hflag
  · simp
  · rcases hflag with hflag | hflag
    · simp [hdisabled] at hflag
    · exact fun _ => hflag
  · simp
  · simp

/-- The calls that put the record of the task somewhere. -/
lemma runs_record {o : Call ι} {X : HubErr → Records ι → Prop} (ho : o.moves = false)
    (hadds : ∀ w₁ x b w₂, serve custody st i w₁ o x = some (.ok b, w₂) →
      w₂.total i = w₁.total i + 1)
    (hX : ∀ w₁ e, w₁.total i = 0 → mayRaise o e = true → X e w₁) (hw : w.total i = 0) :
    Runs st jobs i (ask o) (fun _ => Placed st i) X w := by
  refine runs_ask (fun w₁ hR hI x b w₂ hs hok => ?_) (fun w₁ hR e he _ => ?_)
  · refine ⟨(kept_serve hI ho hs hok).1, fun _ => ?_⟩
    rw [hadds w₁ x b w₂ hs, hR.total, hw]
  · exact hX w₁ e (hR.total.trans hw) he

/-- `emit` places its record: with the producer, in the queue or among the lost, and in exactly one
of them. -/
lemma runs_emit (dumps : Record → Option String) (record : Record) (hw : w.total i = 0) :
    Runs st jobs i (Eventhub.emit dumps record) (fun _ => Placed st i) (fun _ _ => False) w := by
  unfold Eventhub.emit
  cases dumps record with
  | none =>
      refine runs_record (o := .failSerialize) rfl (fun w₁ x b w₂ hs => ?_)
        (fun _ e _ he => nomatch he) hw
      cases hs
      simp only [World.total, World.places, World.setHub, List.count_cons_self]
      omega
  | some body =>
      refine Discipline.wpE_then (runs_getProducer hw) (fun found w h => ?_)
      obtain ⟨hw, hfound⟩ := h
      split_ifs with hproducer hfailed
      · refine wpE_catchException (runs_record (o := .send body) rfl (fun w₁ x b w₂ hs => ?_)
          (fun w₁ e hw₁ he => ⟨fun _ => ?_, ?_⟩) hw)
        · cases hs
          simp only [World.total, World.places, custody, List.count_cons_self]
          omega
        · refine runs_record (o := .failEnqueue body) rfl (fun w₁ x b w₂ hs => ?_)
            (fun _ e _ he => nomatch he) hw₁
          obtain ⟨-, rfl⟩ := Prod.mk.inj (Option.some.inj hs)
          rw [World.total, places_eq]
          dsimp only
          rw [parked_requeue (retriable_one st)]
          simp only [World.total, places_eq, custody, Hub.parked, List.count_singleton_self]
          omega
        · rintro rfl
          simp [mayRaise] at he
      · refine runs_record (o := .failInit) rfl (fun w₁ x b w₂ hs => ?_)
          (fun _ e _ he => nomatch he) hw
        cases hs
        simp only [World.total, World.places, World.setHub, List.count_cons_self]
        omega
      · exact fun henabled =>
          absurd (hfound henabled (by simpa using hproducer)) (by simpa using hfailed)

/-! ### The drain steps -/

/-- The calls of a drain step that move nothing; what the step holds stays with it. -/
lemma runs_idle {o : Call ι} {held : List (Pending ι)} {X : HubErr → Records ι → Prop}
    (ho : o.moves = false) (hheld : ∀ w₁ x b w₂, serve custody st i w₁ o x = some (.ok b, w₂) →
      w₂.ledger.held = w₁.ledger.held) (hX : ∀ e, mayRaise o e = false)
        (hw : (w.ledger.own i).Perm held) :
    Runs st jobs i (ask o) (fun _ w => (w.ledger.own i).Perm held) X w := by
  refine runs_ask (fun w₁ hR hI x b w₂ hs hok => ?_) (fun w₁ hR e he _ => ?_)
  · refine ⟨(kept_serve hI ho hs hok).1, ?_⟩
    have hown : w₂.ledger.own i = w₁.ledger.own i := by simp only [Custody.own, hheld w₁ x b w₂ hs]
    rw [hown]
    exact hR.own.trans hw
  · rw [hX e] at he
    cases he

/-- A drain step hands over everything that it has taken, and holds nothing when it returns. -/
lemma runs_drainOnce (hjob : (jobs i).drains = true) (hw : w.ledger.own i = []) :
    Runs st jobs i drainOnce (fun _ w => w.ledger.own i = []) (fun _ _ => False) w := by
  have hbegin : Runs st jobs i (ask .drainBegin) (fun due w => (w.ledger.own i).Perm due)
      (fun _ _ => False) w := by
    refine runs_ask (o := .drainBegin) (fun w₁ hR hI x due w₂ hs _ => ?_)
      (fun _ _ e he => nomatch he)
    obtain ⟨hkept, hown⟩ := kept_drainBegin hI hjob hs
    refine ⟨hkept, ?_⟩
    have hnil : w₁.ledger.own i = [] := List.perm_nil.1 (hw ▸ hR.own)
    simpa [hnil] using hown due rfl
  have hround : ∀ (item : Pending ι) (rest : List (Pending ι)) (w : Records ι),
      (w.ledger.own i).Perm (item :: rest) →
      Runs st jobs i (catchException (do
        ask .countRetried
        ask (.resend item)) (ask (.failRetry item))) (fun _ w => (w.ledger.own i).Perm rest)
        (fun _ _ => False) w := by
    intro item rest w hw
    have hheld : ∀ {w : Records ι}, (w.ledger.own i).Perm (item :: rest) →
        (i, item) ∈ w.ledger.held :=
      fun hw => mem_own.1 (hw.mem_iff.2 List.mem_cons_self)
    refine wpE_catchException ((Discipline.wpE_bind _ _).2 (Discipline.wpE_mono (fun _ w hw => ?_)
      (fun _ _ h => h) (runs_idle (o := .countRetried) rfl (fun w₁ x b w₂ hs => by cases hs; rfl)
        (fun _ => rfl) hw)))
    refine runs_ask (o := .resend item) (fun w₁ hR hI x b w₂ hs _ => ?_) (fun w₁ hR e he hok => ?_)
    · obtain ⟨hkept, hown⟩ := kept_resend hI (hheld (hR.own.trans hw)) hs
      exact ⟨hkept, (List.perm_cons item).1 (hown.symm.trans (hR.own.trans hw))⟩
    · have hw₁ := hR.own.trans hw
      refine ⟨fun _ => ?_, ?_⟩
      · refine runs_ask (o := .failRetry item) (fun w₂ hR hI x b w₃ hs hok₂ => ?_)
          (fun _ _ e he => nomatch he)
        obtain ⟨hkept, hown⟩ := kept_failRetry hI (hheld (hR.own.trans hw₁)) hok₂.2.2 hs
        exact ⟨hkept, (List.perm_cons item).1 (hown.symm.trans (hR.own.trans hw₁))⟩
      · rintro rfl
        exact hok.1
  refine Discipline.wpE_then hbegin (fun due w hw => ?_)
  refine Discipline.wpE_mono (fun _ w hw => List.perm_nil.1 hw) (fun _ _ h => h)
    (Discipline.wpE_forM (P := fun rest (w : Records ι) => (w.ledger.own i).Perm rest) hround hw)

lemma runs_drainRound (hjob : (jobs i).drains = true) (hw : w.ledger.own i = []) :
    Runs st jobs i Eventhub.drainRound (fun _ w => w.ledger.own i = []) (fun _ _ => False) w := by
  have hreinit : ∀ {w : Records ι}, w.ledger.own i = [] →
      Runs st jobs i (ask .maybeReinit) (fun _ w => w.ledger.own i = []) (fun _ _ => False) w := by
    intro w hw
    refine Discipline.wpE_mono (fun _ _ h => List.perm_nil.1 h) (fun _ _ h => h)
      (runs_idle (o := .maybeReinit) rfl (fun w₁ x b w₂ hs => ?_) (fun _ => rfl)
        (List.perm_nil.2 hw))
    cases hs
    rfl
  refine wpE_catchException ((Discipline.wpE_bind _ _).2 (Discipline.wpE_mono (fun _ w hw =>
    Discipline.wpE_mono (fun _ _ h => h) (fun _ _ h => h.elim) (hreinit hw)) (fun _ _ h => h.elim)
    (runs_drainOnce hjob hw)))

/-! ### The other tasks -/

/-- The task goes on, whatever it is answered. -/
abbrev Free (st : Settings) (jobs : ι → Job Record) (i : ι) {α : Type} (p : Task ι α) : Prop :=
  (discipline st jobs).Steady (Intact st) i (fun _ => True) p

lemma free_ask {o : Call ι} (ho : o.moves = false) : Free st jobs i (ask o) :=
  fun _ _ => runs_any ho

lemma free_aclose : Free st jobs i Eventhub.aclose :=
  steady_aclose (fun o ho =>
    free_ask (by cases o <;> first | rfl | exact absurd ho (by simp [Call.closes])))

/-- What holds when a task has ended: its record is in one place, or it holds no event. -/
def Ends (st : Settings) (jobs : ι → Job Record) (i : ι) (w : Records ι) : Prop :=
  (∀ record, jobs i = .emit record → Placed st i w) ∧ ((jobs i).drains = true → w.ledger.own i = [])

lemma ends_of_other (h : (jobs i).works = false) : Ends st jobs i w := by
  refine ⟨fun record hjob => ?_, fun hjob => ?_⟩
  · simp [hjob, Job.works] at h
  · cases hi : jobs i <;> simp [hi, Job.works, Job.drains] at h hjob

lemma runs_job (dumps : Record → Option String) (htotal : w.total i = 0)
    (hown : w.ledger.own i = []) :
    Runs st jobs i ((jobs i).program dumps) (fun _ => Ends st jobs i)
      (fun _ => Ends st jobs i) w := by
  cases hjob : jobs i with
  | emit record =>
      refine Discipline.wpE_mono (fun _ w h => ⟨fun _ _ => h, fun hdrains => ?_⟩)
        (fun _ _ h => h.elim) (runs_emit dumps record htotal)
      simp [hjob, Job.drains] at hdrains
  | drainRound =>
      refine Discipline.wpE_mono (fun _ w h => ⟨fun record hemit => ?_, fun _ => h⟩)
        (fun _ _ h => h.elim) (runs_drainRound (by rw [hjob]; rfl) hown)
      simp [hjob] at hemit
  | finalDrain =>
      refine Discipline.wpE_mono (fun _ w h => ⟨fun record hemit => ?_, fun _ => h⟩)
        (fun _ _ h => h.elim) (runs_drainOnce (by rw [hjob]; rfl) hown)
      simp [hjob] at hemit
  | callback =>
      have hother : ∀ w, Ends st jobs i w := fun w => ends_of_other (by rw [hjob]; rfl)
      exact (Discipline.wpE_bind _ _).2 (Discipline.wpE_mono (fun _ w _ => hother w)
        (fun _ w _ => hother w) (runs_any (o := .onError) rfl))
  | aclose =>
      have hother : ∀ w, Ends st jobs i w := fun w => ends_of_other (by rw [hjob]; rfl)
      exact Discipline.wpE_mono (fun _ w _ => hother w) (fun _ w _ => hother w)
        (free_aclose w trivial)

end Tasks

end Outside

/-! ## Records that disappear -/

section Dropped

/-- The records of some tasks are conserved in every run under a condition. -/
def Conserved (ok : Settings → StepCond (hubApi (Fin 3)) (Fin 3) (Records (Fin 3))) : Prop :=
  ∀ (st : Settings) (dumps : String → Option String) (jobs : Fin 3 → Job String)
    (w : Records (Fin 3)), st.enabled = true → w.Fresh →
    ∀ c, Reaches (env st) (ok st) (start dumps jobs w) c →
      (∀ j, (jobs j).works = true → c.Idle (start dumps jobs w).prog j) →
      ∀ i record, jobs i = .emit record → dumps record ≠ none →
        c.prog i ≠ (start dumps jobs w).prog i → c.world.places i = 1

def settings : Settings := ⟨true, 1000, 6, 2⟩

/-- Settings with more attempts than a float has powers of two. -/
def patient : Settings := ⟨true, 1000, 2000, 2⟩

def emptyHub (ι : Type) : Hub ι where
  producer := false
  disabled := false
  initFailed := false
  lastInitTry := 0
  failedSend := 0
  failedEnqueue := 0
  failedInit := 0
  failedRetry := 0
  failedSerialize := 0
  retried := 0
  lost := []
  retryQ := []

def initial : Records (Fin 3) := ⟨emptyHub (Fin 3), ⟨[], []⟩⟩

lemma initial_fresh : initial.Fresh := ⟨rfl, rfl, rfl, rfl, rfl⟩

/-- One record, one round of the drain loop, and one call of the error callback. -/
def retrying : Fin 3 → Job String
  | 0 => .emit "record"
  | 1 => .drainRound
  | 2 => .callback

/-- One record, and calls of the error callback, which hands the record back. -/
def failing : Fin 3 → Job String
  | 0 => .emit "record"
  | 1 => .callback
  | 2 => .callback

/-- A call that is served at a time, with a failed batch at hand. -/
def servedAt (now : ℚ) (batch : Batch (Fin 3)) : Fate (Pick (Batch (Fin 3))) HubErr :=
  .served ⟨true, fun _ => ⟨now, 1⟩, batch⟩

/-- The producer takes the record, and a task calls back with a batch. -/
def emittedAndBack (j : Fin 3) (batch : Batch (Fin 3)) :
    List (Fin 3 × Fate (Pick (Batch (Fin 3))) HubErr) :=
  [(0, servedAt 0 batch), (0, servedAt 0 batch), (j, servedAt 0 batch)]

/-- The record, as the producer hands it back, with properties of any kind. -/
def handedBack (properties : PropertiesValue) : Batch (Fin 3) :=
  .events [⟨some 0, some "record", properties⟩]

/-- The record comes back and is parked; a drain step takes it out, and is about to send it. -/
def parkedAndDue (attempts : ℤ) : List (Fin 3 × Fate (Pick (Batch (Fin 3))) HubErr) :=
  emittedAndBack 2 (handedBack (.mapping ⟨some (.int attempts), none⟩)) ++
    [(1, servedAt 99 (.events [])), (1, servedAt 99 (.events []))]

/-- The first two tasks have ended; the second one, with this result. -/
def BothEnded (res : Except HubErr Unit)
    (c : Config (hubApi (Fin 3)) (Fin 3) (Records (Fin 3)) (Except HubErr Unit)) : Prop :=
  c.Returned 0 (.ok ()) ∧ c.Returned 1 res

instance (res : Except HubErr Unit)
    (c : Config (hubApi (Fin 3)) (Fin 3) (Records (Fin 3)) (Except HubErr Unit)) :
    Decidable (BothEnded res c) := inferInstanceAs (Decidable (_ ∧ _))

lemma BothEnded.idle {res : Except HubErr Unit}
    {c : Config (hubApi (Fin 3)) (Fin 3) (Records (Fin 3)) (Except HubErr Unit)}
    (h : BothEnded res c) {jobs : Fin 3 → Job String} (hjob : jobs 2 = .callback)
    (progs : Fin 3 → Prog (hubApi (Fin 3)) (Except HubErr Unit)) (j : Fin 3)
    (hworks : (jobs j).works = true) : c.Idle progs j := by
  have hthree : ∀ j : Fin 3, j = 0 ∨ j = 1 ∨ j = 2 := by decide
  obtain rfl | rfl | rfl := hthree j
  · exact .inr ⟨_, h.1⟩
  · exact .inr ⟨_, h.2⟩
  · have hnot : (jobs 2).works = true := hworks
    rw [hjob] at hnot
    cases hnot

/-- A record that is nowhere, after a run under a condition. -/
lemma not_conserved {ok : Settings → StepCond (hubApi (Fin 3)) (Fin 3) (Records (Fin 3))}
    (st : Settings) (henabled : st.enabled = true) (jobs : Fin 3 → Job String)
    (hemit : jobs 0 = .emit "record") (hback : jobs 2 = .callback) (res : Except HubErr Unit)
    (h : ∃ c, Reaches (env st) (ok st) (start some jobs initial) c ∧
      BothEnded res c ∧ c.world.places 0 = 0) : ¬ Conserved ok := by
  intro hclaim
  obtain ⟨c, hreach, hended, hnowhere⟩ := h
  have hrun : c.prog 0 ≠ (start some jobs initial).prog 0 := by
    have hprog : (start some jobs initial).prog 0 =
        (Job.program (ι := Fin 3) some (.emit "record")).run := by
      simp only [start, hemit]
    rw [hended.1, hprog]
    exact fun h => nomatch h
  have hone := hclaim st some jobs initial henabled initial_fresh c hreach
    (hended.idle hback _) 0 "record" hemit (by decide) hrun
  omega

end Dropped

end Eventhub
end TokenFoundry
