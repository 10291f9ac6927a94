import TokenFoundry.Properties.UsageRecords
import Mathlib.Algebra.Order.BigOperators.Group.List
import Mathlib.Algebra.Order.Group.Multiset
import Mathlib.Data.Multiset.Filter
import Mathlib.Tactic.Abel

/-!
# No record is sent for ever

A record that is sent again carries the number of its attempts, in the retry queue as a field and at
the producer as a property of the event.  The callback reads the property, and the queue refuses a
record with too many attempts.

Here the ledger beside the state of the module keeps what the producer has been given, with its
properties, and how often each record has been handed over.  Every place in which a copy of a record
can be says how often that was.  There is never more than one copy, and what it says is true
(`Tallied`); the queue keeps to its bounds (`Hub.Bounded`).  `retries_bounded` follows, in every
state that any tasks can reach.
-/

set_option autoImplicit false

namespace TokenFoundry
namespace Eventhub

/-! ## Copies -/

section Copies

variable {ι : Type}

/-- A copy of a record that has been handed over so often; another object counts for nothing. -/
def copy (origin : Option ι) (handed : ℤ) : Multiset (ι × ℤ) :=
  match origin with
  | some r => {(r, handed)}
  | none => 0

/-- What an event with the producer says: its property counts the attempts before it.  An event that
the callback cannot read is not sent again. -/
def EventData.copy (ev : EventData ι) : Multiset (ι × ℤ) :=
  match attemptOf ev with
  | some attempts => Eventhub.copy ev.origin (attempts + 1)
  | none => 0

def Pending.copy (item : Pending ι) : Multiset (ι × ℤ) := Eventhub.copy item.origin item.attempts

/-- The copies in the retry queue: each with its record, and how often that has been handed over. -/
def Hub.copies (h : Hub ι) : Multiset (ι × ℤ) := (h.retryQ.map Pending.copy).sum

/-- There is one copy of a record at most, and it says how often the record has been handed over. -/
def Tallied [DecidableEq ι] (copies : Multiset (ι × ℤ)) (handed : ι → ℕ) : Prop :=
  ∀ r, copies.filter (fun e => e.1 = r) ≤ {(r, (handed r : ℤ))}

/-- A record is handed over another time; nothing changes for an event without one. -/
def handOver [DecidableEq ι] (origin : Option ι) (handed : ι → ℕ) (r : ι) : ℕ :=
  handed r + if origin = some r then 1 else 0

variable [DecidableEq ι] {copies copies' rest : Multiset (ι × ℤ)} {handed : ι → ℕ}

lemma Tallied.mono (h : Tallied copies handed) (hle : copies' ≤ copies) : Tallied copies' handed :=
  fun r => (Multiset.filter_le_filter _ hle).trans (h r)

lemma filter_copy (origin : Option ι) (n : ℤ) (r : ι) :
    (copy origin n).filter (fun e => e.1 = r) = if origin = some r then {(r, n)} else 0 := by
  cases origin with
  | none => simp [copy]
  | some r' =>
      by_cases h : r' = r
      · subst h
        simp [copy, Multiset.filter_singleton]
      · simp [copy, Multiset.filter_singleton, h]

/-- The only copy of a record that there is knows its number. -/
lemma Tallied.eq_handed {r : ι} {n : ℤ} (h : Tallied (copy (some r) n + rest) handed) :
    n = handed r ∧ rest.filter (fun e => e.1 = r) = 0 := by
  have hr := h r
  rw [Multiset.filter_add, filter_copy, if_pos rfl] at hr
  have hcard := Multiset.card_le_card hr
  rw [Multiset.card_add, Multiset.card_singleton, Multiset.card_singleton] at hcard
  have hrest : rest.filter (fun e => e.1 = r) = 0 := Multiset.card_eq_zero.1 (by omega)
  refine ⟨?_, hrest⟩
  have hsame : ((r, n) : ι × ℤ) = (r, (handed r : ℤ)) := by simpa [hrest] using hr
  exact congrArg Prod.snd hsame

/-- A copy is handed over once more, and its number and the tally grow together. -/
lemma Tallied.again {origin : Option ι} {n : ℤ} (h : Tallied (copy origin n + rest) handed) :
    Tallied (copy origin (n + 1) + rest) (handOver origin handed) := by
  intro r
  rw [Multiset.filter_add, filter_copy]
  by_cases horigin : origin = some r
  · subst horigin
    obtain ⟨hn, hrest⟩ := h.eq_handed
    simp [hrest, hn, handOver]
  · have hr := h r
    rw [Multiset.filter_add, filter_copy, if_neg horigin] at hr
    simpa [horigin, handOver] using hr

/-- A record of which there is no copy is handed over for the first time. -/
lemma Tallied.first {r : ι} (h : Tallied copies handed)
    (hnone : copies.filter (fun e => e.1 = r) = 0) (hzero : handed r = 0) :
    Tallied (copy (some r) 1 + copies) (handOver (some r) handed) := by
  have hunborn : Tallied (copy (some r) 0 + copies) handed := by
    intro r'
    rw [Multiset.filter_add, filter_copy]
    by_cases hr : r' = r
    · subst hr
      simp [hnone, hzero]
    · simpa [Ne.symm hr] using h r'
  exact hunborn.again

end Copies

/-! ## What the functions keep -/

section Functions

variable {ι : Type} {st : Settings}

/-- The capacity of the retry queue, which is at least one. -/
def Settings.capacity (st : Settings) : ℕ := (max st.retryMaxQueue 1).toNat

/-- The retry queue has its size, and no record in it has had too many attempts. -/
structure Hub.Bounded (st : Settings) (h : Hub ι) : Prop where
  length : h.retryQ.length ≤ st.capacity
  attempts : ∀ item ∈ h.retryQ, item.attempts ≤ st.retryMaxAttempts

lemma Settings.capacity_pos (st : Settings) : 0 < st.capacity := by
  unfold Settings.capacity
  omega

/-- A part of the queue is bounded as the queue is. -/
lemma Hub.Bounded.of_sublist {h h' : Hub ι} (hb : h.Bounded st)
    (hsub : h'.retryQ.Sublist h.retryQ) : h'.Bounded st :=
  ⟨hsub.length_le.trans hb.length, fun item hitem => hb.attempts item (hsub.subset hitem)⟩

lemma copies_of_sublist {h h' : Hub ι} (hsub : h'.retryQ.Sublist h.retryQ) :
    h'.copies ≤ h.copies := (hsub.map Pending.copy).sum_le_sum (fun _ _ => Multiset.zero_le _)

/-- What makes room is at the front of the queue. -/
lemma evict_suffix (cap : ℕ) (hcap : 0 < cap) (q : List (Pending ι)) (lost : List (Option ι)) :
    (evict cap q lost).1 <:+ q ∧ (evict cap q lost).1.length < cap := by
  induction q generalizing lost with
  | nil => exact ⟨List.suffix_refl [], hcap⟩
  | cons item rest ih =>
      unfold evict
      split_ifs with hfull
      · exact ⟨(ih _).1.trans (List.suffix_cons item rest), (ih _).2⟩
      · exact ⟨List.suffix_refl _, not_le.1 hfull⟩

/-- A requeued record keeps to the bounds, whatever it is, and whether or not its delay can be
computed. -/
lemma bounded_requeue (t : Reading) (origin : Option ι) (body : String) (attempts : ℤ) {h : Hub ι}
    (hb : h.Bounded st) : (requeue st t origin body attempts h).2.Bounded st ∧
      (requeue st t origin body attempts h).2.copies ≤ copy origin attempts + h.copies := by
  unfold requeue
  split_ifs with hattempts
  · exact ⟨hb.of_sublist (List.Sublist.refl _), Multiset.le_add_left _ _⟩
  · obtain ⟨hsuffix, hlength⟩ := evict_suffix st.capacity st.capacity_pos h.retryQ h.lost
    have hkept : ((evict st.capacity h.retryQ h.lost).1.map Pending.copy).sum ≤ h.copies :=
      (hsuffix.sublist.map Pending.copy).sum_le_sum (fun _ _ => Multiset.zero_le _)
    cases delay st attempts t.jitter with
    | none =>
        -- Room has been made for the record, and it is not there.
        exact ⟨hb.of_sublist hsuffix.sublist, hkept.trans (Multiset.le_add_left _ _)⟩
    | some seconds =>
        refine ⟨⟨?_, ?_⟩, ?_⟩
        · change (_ ++ [_]).length ≤ _
          rw [List.length_append]
          exact hlength
        · intro item hitem
          rcases List.mem_append.1 hitem with hold | hnew
          · exact hb.attempts item (hsuffix.subset hold)
          · rw [List.mem_singleton.1 hnew]
            exact not_lt.1 hattempts
        · change (List.map Pending.copy (_ ++ [_])).sum ≤ _
          rw [List.map_append, List.sum_append, add_comm]
          exact add_le_add (by simp [Pending.copy]) hkept

lemma bounded_parkOne (t : Reading) (ev : EventData ι) {h : Hub ι} (hb : h.Bounded st) :
    (parkOne st t ev h).2.Bounded st ∧ (parkOne st t ev h).2.copies ≤ ev.copy + h.copies := by
  unfold parkOne EventData.copy
  cases bodyText ev with
  | none => exact ⟨hb.of_sublist (List.Sublist.refl _), Multiset.le_add_left _ _⟩
  | some body =>
      cases attemptOf ev with
      | none => exact ⟨hb, Multiset.le_add_left _ _⟩
      | some attempts => exact bounded_requeue t ev.origin body (attempts + 1) hb

lemma bounded_park (clock : ℕ → Reading) (k : ℕ) (evs : List (EventData ι)) {h : Hub ι}
    (hb : h.Bounded st) : (park st clock k evs h).2.Bounded st ∧
      (park st clock k evs h).2.copies ≤ (evs.map EventData.copy).sum + h.copies := by
  induction evs generalizing k h with
  | nil => exact ⟨hb, by simp [park]⟩
  | cons ev evs ih =>
      obtain ⟨hone, hcopies⟩ := bounded_parkOne (clock k) ev hb
      have hsum : (evs.map EventData.copy).sum + (parkOne st (clock k) ev h).2.copies ≤
          ((ev :: evs).map EventData.copy).sum + h.copies := by
        calc (evs.map EventData.copy).sum + (parkOne st (clock k) ev h).2.copies
            ≤ (evs.map EventData.copy).sum + (ev.copy + h.copies) := add_le_add le_rfl hcopies
          _ = ((ev :: evs).map EventData.copy).sum + h.copies := by
              rw [List.map_cons, List.sum_cons, add_left_comm, add_assoc]
      unfold park
      cases hpark : parkOne st (clock k) ev h with
      | mk ended h' =>
          rw [hpark] at hone hsum
          cases ended with
          | ok _ =>
              obtain ⟨hall, hrest⟩ := ih (k + 1) hone
              exact ⟨hall, hrest.trans hsum⟩
          | error e => exact ⟨hone, le_trans (Multiset.le_add_left _ _) hsum⟩

/-- The copies in a batch that can be listed; another one is not parked. -/
def Batch.copies : Batch ι → Multiset (ι × ℤ)
  | .events evs => (evs.map EventData.copy).sum
  | .notIterable _ => 0
  | .raising _ => 0

/-- The callback parks no more than it is handed, and nothing that has had its last attempt. -/
lemma bounded_onError (clock : ℕ → Reading) (batch : Batch ι) {h : Hub ι} (hb : h.Bounded st) :
    (onError st clock h batch).2.Bounded st ∧
      (onError st clock h batch).2.copies ≤ batch.copies + h.copies := by
  have hsame : ∀ h' : Hub ι, h'.retryQ = h.retryQ → h'.Bounded st ∧ h'.copies = h.copies := by
    intro h' hq
    exact ⟨hb.of_sublist (hq ▸ List.Sublist.refl _),
      congrArg (fun q => (q.map Pending.copy).sum) hq⟩
  cases batch with
  | events evs =>
      obtain ⟨hb', hcopies⟩ := hsame { h with failedSend := h.failedSend + max evs.length 1 } rfl
      have hpark := bounded_park clock 0 evs hb'
      rw [hcopies] at hpark
      exact hpark
  | notIterable origins =>
      exact ⟨(hsame { h with failedSend := h.failedSend + 1 } rfl).1, Multiset.le_add_left _ _⟩
  | raising origins => exact ⟨hb, Multiset.le_add_left _ _⟩

lemma retryQ_getProducer (built : Bool) (h : Hub ι) :
    (getProducer st built h).2.retryQ = h.retryQ := by
  unfold getProducer
  split_ifs <;> rfl

lemma retryQ_maybeReinit (built : Bool) (now : ℚ) (h : Hub ι) :
    (maybeReinit st built now h).retryQ = h.retryQ := by
  unfold maybeReinit
  split_ifs
  · rfl
  · exact retryQ_getProducer built _
  · rfl

/-- The due items leave the queue, and none of them has had more attempts than are allowed. -/
lemma drainBegin_spec (built : Bool) (now : ℚ) {h : Hub ι} (hb : h.Bounded st) :
    (drainBegin st built now h).2.Bounded st ∧
      (∀ item ∈ (drainBegin st built now h).1, item.attempts ≤ st.retryMaxAttempts) ∧
      ((drainBegin st built now h).1.map Pending.copy).sum + (drainBegin st built now h).2.copies ≤
        h.copies := by
  unfold drainBegin
  split_ifs
  · exact ⟨hb, by simp, by simp⟩
  · have hq : (getProducer st built h).2.retryQ = h.retryQ := retryQ_getProducer built h
    revert hq
    cases getProducer st built h with
    | mk ready h' =>
        intro hq
        have hq' : h'.retryQ = h.retryQ := hq
        cases ready with
        | true =>
            refine ⟨hb.of_sublist ?_, fun item hitem => ?_, ?_⟩
            · rw [← hq']
              exact List.filter_sublist
            · refine hb.attempts item ?_
              rw [← hq']
              exact List.mem_of_mem_filter hitem
            · have hperm := List.filter_append_perm
                (fun item : Pending ι => decide (item.nextAt ≤ now)) h'.retryQ
              have hsplit := (hperm.map Pending.copy).sum_eq
              rw [List.map_append, List.sum_append, hq'] at hsplit
              simp only [Hub.copies, decide_not, hq']
              exact le_of_eq hsplit
        | false =>
            dsimp only
            split_ifs
            · exact ⟨hb.of_sublist (List.nil_sublist _), by simp, Multiset.zero_le _⟩
            · exact ⟨hb.of_sublist (hq' ▸ List.Sublist.refl _), by simp, by simp [Hub.copies, hq']⟩

end Functions

/-! ## The tasks and their outside -/

/-- What the producer and the tasks have, and how often each record has been handed over. -/
structure Handings (ι : Type) where
  /-- The events that the producer has taken and has not handed back. -/
  given : List (EventData ι)
  /-- What a task holds that is to be sent, or to be parked: the record, and how often it has been
  handed over. -/
  held : List (ι × Option ι × ℤ)
  /-- How often the record of a task has been handed to the producer. -/
  handed : ι → ℕ

/-- The module, and how often each record has been handed over. -/
abbrev Feed (ι : Type) := World ι (Handings ι)

/-- An object in a failed batch: an event of this module, or something foreign. -/
inductive Returned (ι : Type)
  /-- An event that the producer has been given.  A property comes back under its name or, from the
  wire, under the bytes of it; the body is what can be read of it. -/
  | own (ev : EventData ι) (wire : Bool) (body : Option String)
  | foreign (body : Option String) (properties : PropertiesValue)

/-- What the batch is: a list, or something that cannot be gone through. -/
inductive Shape
  | list
  | notIterable
  | raising

section Outside

variable {ι : Type}

/-- The properties of an event that has been on the wire. -/
def PropertiesValue.onWire : PropertiesValue → PropertiesValue
  | .mapping props => .mapping ⟨none, props.text⟩
  | props => props

/-- The event as the callback gets it, with its properties under their names or as bytes. -/
def Returned.event : Returned ι → EventData ι
  | .own ev wire body => ⟨ev.origin, body, if wire then ev.properties.onWire else ev.properties⟩
  | .foreign body properties => ⟨none, body, properties⟩

/-- The event as it was given to the producer, if it was. -/
def Returned.given : Returned ι → Option (EventData ι)
  | .own ev _ _ => some ev
  | .foreign _ _ => none

def Shape.batch (returned : List (Returned ι)) : Shape → Batch ι
  | .list => .events (returned.map Returned.event)
  | .notIterable => .notIterable (returned.map (fun x => x.event.origin))
  | .raising => .raising (returned.map (fun x => x.event.origin))

variable [DecidableEq ι]

namespace Handings

/-- The producer has been given an event, which is one more handing over of its record. -/
def give (l : Handings ι) (ev : EventData ι) : Handings ι :=
  { l with given := ev :: l.given, handed := handOver ev.origin l.handed }

/-- A send that raises has been a try, and counts as a handing over. -/
def attempt (l : Handings ι) (origin : Option ι) : Handings ι :=
  { l with handed := handOver origin l.handed }

/-- A task lets go of what it holds. -/
def release (l : Handings ι) (i : ι) (e : Option ι × ℤ) : Handings ι :=
  { l with held := l.held.erase (i, e) }

def hold (l : Handings ι) (i : ι) (es : List (Option ι × ℤ)) : Handings ι :=
  { l with held := l.held ++ es.map (fun e => (i, e)) }

end Handings

/-- The producer hands back events that it has been given, and other objects with them. -/
def handings : Ledger ι (Handings ι) (List (Returned ι) × Shape) where
  sent i body l := l.give (makeEvent (some i) body 0)
  refused i l := l.release i (some i, 1)
  begun i due l := l.hold i (due.map (fun item => (item.origin, item.attempts)))
  resent i item l := (l.release i (item.origin, item.attempts)).give
    (makeEvent item.origin item.body item.attempts)
  parked i item l := l.release i (item.origin, item.attempts + 1)
  handBack x l :=
    let given := x.1.filterMap Returned.given
    if ∀ ev ∈ given, given.count ev ≤ l.given.count ev then
      some (x.2.batch x.1, { l with given := l.given.diff given })
    else none

namespace Feed

/-- An await raises.  After a send that raises the task holds the record still; a send that is
cancelled leaves nobody with it. -/
def raised (i : ι) (w : Feed ι) : Call ι → HubErr → Option (Feed ι)
  | .send _, .exception => some ⟨w.hub, (w.ledger.attempt (some i)).hold i [(some i, 1)]⟩
  | .send _, .cancelled => some ⟨w.hub, w.ledger.attempt (some i)⟩
  | .resend item, .exception => some ⟨w.hub, ((w.ledger.attempt item.origin).release i
      (item.origin, item.attempts)).hold i [(item.origin, item.attempts + 1)]⟩
  | .resend item, .cancelled => some ⟨w.hub, (w.ledger.attempt item.origin).release i
      (item.origin, item.attempts)⟩
  | .waitForDrain, _ => some w
  | .close _, _ => some w
  | _, _ => none

/-- A send may be cancelled when the producer has taken the event. -/
def mayLose : Call ι → HubErr → Bool
  | .send _, .cancelled => true
  | .resend _, .cancelled => true
  | _, _ => false

def env (st : Settings) : Env (hubApi ι) ι (Feed ι) where
  Choice := Fate (Pick (List (Returned ι) × Shape)) HubErr
  act i w o
    | .served x => serve handings st i w o x
    | .refused e => (raised i w o e).map (fun w' => (.error e, w'))
    | .lost x e =>
        if mayLose o e then (serve handings st i w o x).map (fun s => (.error e, s.2)) else none
  drift _ _ := False

/-- Nothing has been emitted, so that nothing has been handed over. -/
structure Fresh (w : Feed ι) : Prop where
  retryQ : w.hub.retryQ = []
  given : w.ledger.given = []
  held : w.ledger.held = []
  handed : ∀ i, w.ledger.handed i = 0

end Feed

end Outside

/-! ## The invariant -/

namespace Handings

variable {ι : Type} [DecidableEq ι]

/-- What the producer has, and what the tasks hold. -/
def copies (l : Handings ι) : Multiset (ι × ℤ) :=
  (l.given.map EventData.copy).sum + (l.held.map (fun e => copy e.2.1 e.2.2)).sum

/-- What a task holds, of all that is held. -/
def own (l : Handings ι) (i : ι) : List (Option ι × ℤ) := Eventhub.own l.held i

end Handings

namespace Feed

section Invariant

variable {ι : Type} [DecidableEq ι]

/-- All the copies that there are. -/
def copies (w : Feed ι) : Multiset (ι × ℤ) := w.hub.copies + w.ledger.copies

/-- An event of this module, with the number of its attempts as its only property. -/
def Made (ev : EventData ι) : Prop :=
  ∃ origin body attempts, ev = makeEvent origin body attempts

/-- The invariant of the retries: every copy in the system bears the number of times its record was
handed over, and no number is above the limit. -/
structure Inv (st : Settings) (w : Feed ι) : Prop where
  made : ∀ ev ∈ w.ledger.given, Made ev
  tallied : Tallied w.copies w.ledger.handed
  hub : w.hub.Bounded st
  handed : ∀ r, (w.ledger.handed r : ℤ) ≤ 1 + max st.retryMaxAttempts 0

/-- The record of a task has not been handed over. -/
structure Unborn (i : ι) (w : Feed ι) : Prop where
  handed : w.ledger.handed i = 0
  copies : w.copies.filter (fun e => e.1 = i) = 0

/-- The others neither touch what a task holds nor bring its record about. -/
structure Rely (i : ι) (w w' : Feed ι) : Prop where
  own : (w'.ledger.own i).Perm (w.ledger.own i)
  unborn : Unborn i w → Unborn i w'

lemma Rely.refl (i : ι) (w : Feed ι) : Rely i w w := ⟨.refl _, id⟩

lemma Rely.trans {i : ι} {w₁ w₂ w₃ : Feed ι} (h₁ : Rely i w₁ w₂) (h₂ : Rely i w₂ w₃) :
    Rely i w₁ w₃ := ⟨h₂.own.trans h₁.own, fun h => h₂.unborn (h₁.unborn h)⟩

/-- A step keeps the invariant and what the others rely on. -/
def Kept (st : Settings) (i : ι) (w w' : Feed ι) : Prop :=
  Inv st w' ∧ ∀ j, j ≠ i → Rely j w w'

/-- The tasks under interference, with this invariant. -/
def discipline (st : Settings) : Discipline (env (ι := ι) st) :=
  tasks (fun _ _ => id) (Inv st) Rely Rely.refl Rely.trans

end Invariant

/-! ### Three kinds of steps -/

section Steps

variable {ι : Type} [DecidableEq ι] {st : Settings} {i : ι} {w w' : Feed ι}

lemma Unborn.of_copies {j : ι} (h : Unborn j w) (hcopies : w'.copies ≤ w.copies)
    (hhanded : w'.ledger.handed = w.ledger.handed) : Unborn j w' := by
  refine ⟨by rw [hhanded]; exact h.handed, ?_⟩
  have hle := Multiset.filter_le_filter (fun e => e.1 = j) hcopies
  rw [h.copies] at hle
  exact Multiset.le_zero.1 hle

/-- Copies are moved or dropped, and none is made; then the invariant stays. -/
lemma kept_of_copies (hI : Inv st w) (hmade : ∀ ev ∈ w'.ledger.given, Made ev)
    (hcopies : w'.copies ≤ w.copies) (hhanded : w'.ledger.handed = w.ledger.handed)
    (hb : w'.hub.Bounded st) (hown : ∀ j, j ≠ i → (w'.ledger.own j).Perm (w.ledger.own j)) :
    Kept st i w w' := by
  refine ⟨⟨hmade, ?_, hb, ?_⟩, fun j hj => ⟨hown j hj, fun h => h.of_copies hcopies hhanded⟩⟩
  · rw [hhanded]
    exact hI.tallied.mono hcopies
  · rw [hhanded]
    exact hI.handed

/-- A copy is handed over once more, with its number raised by one; then the invariant stays. -/
lemma kept_of_again (hI : Inv st w) (hmade : ∀ ev ∈ w'.ledger.given, Made ev) {origin : Option ι}
    {n : ℤ}
    {rest : Multiset (ι × ℤ)} (hcopies : w.copies = copy origin n + rest)
    (hcopies' : w'.copies ≤ copy origin (n + 1) + rest)
    (hn : n ≤ st.retryMaxAttempts) (hhanded : w'.ledger.handed = handOver origin w.ledger.handed)
    (hb : w'.hub.Bounded st) (hown : ∀ j, j ≠ i → (w'.ledger.own j).Perm (w.ledger.own j)) :
    Kept st i w w' := by
  have htallied := hI.tallied
  rw [hcopies] at htallied
  refine ⟨⟨hmade, ?_, hb, fun r => ?_⟩, fun j hj => ⟨hown j hj, fun h => ?_⟩⟩
  · rw [hhanded]
    exact htallied.again.mono hcopies'
  · rw [hhanded]
    by_cases horigin : origin = some r
    · subst horigin
      have hhanded := htallied.eq_handed.1
      simp only [handOver, if_pos]
      push_cast
      omega
    · simpa [handOver, horigin] using hI.handed r
  · by_cases horigin : origin = some j
    · subst horigin
      have hnone := h.copies
      rw [hcopies, Multiset.filter_add, filter_copy, if_pos rfl] at hnone
      simp at hnone
    · have hnone := h.copies
      have hle := Multiset.filter_le_filter (fun e => e.1 = j) hcopies'
      rw [hcopies, Multiset.filter_add, filter_copy, if_neg horigin] at hnone
      rw [Multiset.filter_add, filter_copy, if_neg horigin, hnone] at hle
      refine ⟨?_, Multiset.le_zero.1 hle⟩
      rw [hhanded]
      simpa [handOver, horigin] using h.handed

/-- The record of the task is handed over for the first time. -/
lemma kept_of_first (hI : Inv st w) (hmade : ∀ ev ∈ w'.ledger.given, Made ev) (hunborn : Unborn i w)
    (hcopies' : w'.copies ≤ copy (some i) 1 + w.copies)
    (hhanded : w'.ledger.handed = handOver (some i) w.ledger.handed) (hb : w'.hub.Bounded st)
    (hown : ∀ j, j ≠ i → (w'.ledger.own j).Perm (w.ledger.own j)) : Kept st i w w' := by
  refine ⟨⟨hmade, ?_, hb, fun r => ?_⟩, fun j hj => ⟨hown j hj, fun h => ?_⟩⟩
  · rw [hhanded]
    exact (hI.tallied.first hunborn.copies hunborn.handed).mono hcopies'
  · rw [hhanded]
    by_cases hr : i = r
    · subst hr
      simp only [handOver, if_pos, hunborn.handed]
      push_cast
      omega
    · simpa [handOver, hr] using hI.handed r
  · have hnone : some i ≠ some j := fun h => hj (Option.some.inj h).symm
    have hle := Multiset.filter_le_filter (fun e => e.1 = j) hcopies'
    rw [Multiset.filter_add, filter_copy, if_neg hnone, h.copies] at hle
    refine ⟨?_, Multiset.le_zero.1 hle⟩
    rw [hhanded]
    simpa [handOver, hnone] using h.handed

/-! ### Holding and letting go -/

lemma copies_release {l : Handings ι} {e : Option ι × ℤ} (hmem : (i, e) ∈ l.held) :
    l.copies = copy e.1 e.2 + (l.release i e).copies := by
  have hperm := (List.perm_cons_erase hmem).map (fun e : ι × Option ι × ℤ => copy e.2.1 e.2.2)
  have hheld := hperm.sum_eq
  rw [List.map_cons, List.sum_cons] at hheld
  simp only [Handings.copies, Handings.release, hheld]
  abel

omit [DecidableEq ι] in
lemma copies_hold (l : Handings ι) (es : List (Option ι × ℤ)) :
    (l.hold i es).copies = (es.map (fun e => copy e.1 e.2)).sum + l.copies := by
  simp only [Handings.copies, Handings.hold, List.map_append, List.sum_append, List.map_map,
    Function.comp_def]
  abel

/-- Nobody else is concerned when a task lets go of something. -/
lemma own_release_of_ne (l : Handings ι) (e : Option ι × ℤ) {j : ι} (hj : j ≠ i) :
    ((l.release i e).own j).Perm (l.own j) := own_erase_of_ne hj

/-- All the copies but the one that the task lets go of. -/
lemma copies_eq_release {e : Option ι × ℤ} (hmem : (i, e) ∈ w.ledger.held) :
    w.copies = copy e.1 e.2 + (w.hub.copies + (w.ledger.release i e).copies) := by
  rw [copies, copies_release hmem, add_left_comm]

lemma copies_give (l : Handings ι) (ev : EventData ι) :
    (l.give ev).copies = ev.copy + l.copies := by
  simp only [Handings.copies, Handings.give, List.map_cons, List.sum_cons]
  abel

omit [DecidableEq ι] in
lemma copy_makeEvent (origin : Option ι) (body : String) (attempts : ℤ) :
    (makeEvent origin body attempts).copy = copy origin (attempts + 1) := by
  unfold EventData.copy makeEvent attemptOf
  by_cases h : attempts = 0
  · simp [h]
  · simp [h]

/-! ### Every call -/

omit [DecidableEq ι] in
/-- An event that has been given and comes back says what it said. -/
lemma copy_event {x : Returned ι} {ev : EventData ι} (hgiven : x.given = some ev)
    (hmade : Made ev) : x.event.copy = ev.copy := by
  cases x with
  | foreign body properties => exact absurd hgiven (by simp [Returned.given])
  | own ev' wire body =>
      cases hgiven
      obtain ⟨origin, body', attempts, rfl⟩ := hmade
      unfold EventData.copy Returned.event makeEvent attemptOf
      by_cases hattempts : attempts = 0
      · cases wire <;> simp [hattempts, PropertiesValue.onWire]
      · cases wire <;> simp [hattempts, PropertiesValue.onWire]

omit [DecidableEq ι] in
/-- A batch holds no more copies than the given events that are in it. -/
lemma copies_batch (shape : Shape) {returned : List (Returned ι)}
    (hmade : ∀ ev ∈ returned.filterMap Returned.given, Made ev) :
    (shape.batch returned).copies ≤
      ((returned.filterMap Returned.given).map EventData.copy).sum := by
  cases shape with
  | notIterable => exact Multiset.zero_le _
  | raising => exact Multiset.zero_le _
  | list =>
      change ((returned.map Returned.event).map EventData.copy).sum ≤ _
      induction returned with
      | nil => exact le_rfl
      | cons x returned ih =>
          rw [List.map_cons, List.map_cons, List.sum_cons]
          cases hgiven : x.given with
          | none =>
              rw [List.filterMap_cons_none hgiven] at hmade ⊢
              have hforeign : x.event.copy = 0 := by
                cases x with
                | own ev wire body => exact absurd hgiven (by simp [Returned.given])
                | foreign body properties =>
                    unfold EventData.copy Returned.event
                    split <;> rfl
              rw [hforeign, zero_add]
              exact ih hmade
          | some ev =>
              rw [List.filterMap_cons_some hgiven] at hmade ⊢
              rw [copy_event hgiven (hmade ev List.mem_cons_self), List.map_cons, List.sum_cons]
              exact add_le_add le_rfl (ih (fun ev' h => hmade ev' (List.mem_cons_of_mem _ h)))

/-- The calls by which no task comes to hold anything, or lets go of anything. -/
def plain : Call ι → Bool
  | .send _ => false
  | .failEnqueue _ => false
  | .drainBegin => false
  | .resend _ => false
  | .failRetry _ => false
  | _ => true

/-- Nothing that the tasks hold has changed, and no copy has come about. -/
structure Calm (st : Settings) (w w' : Feed ι) : Prop where
  held : w'.ledger.held = w.ledger.held
  handed : w'.ledger.handed = w.ledger.handed
  copies : w'.copies ≤ w.copies
  hub : w'.hub.Bounded st
  made : ∀ ev ∈ w'.ledger.given, Made ev

lemma Calm.kept (hI : Inv st w) (h : Calm st w w') : Kept st i w w' := by
  refine kept_of_copies hI h.made h.copies h.handed h.hub (fun j _ => ?_)
  simp only [Handings.own, h.held]
  exact .refl _

omit [DecidableEq ι] in
/-- A part of the queue is left, so that no copy has been added. -/
lemma calm_setHub (hb : w.hub.Bounded st) (hmade : ∀ ev ∈ w.ledger.given, Made ev) {h : Hub ι}
    (hsub : h.retryQ.Sublist w.hub.retryQ) : Calm st w (w.setHub h) :=
  ⟨rfl, rfl, add_le_add (copies_of_sublist hsub) le_rfl, hb.of_sublist hsub, hmade⟩

/-- What is handed back is parked or lost, with the number it had. -/
lemma calm_handBack (hI : Inv st w) {x : List (Returned ι) × Shape} (clock : ℕ → Reading)
    {s : Batch ι × Handings ι} (h : handings.handBack x w.ledger = some s) :
    Calm st w ⟨(onError st clock w.hub s.1).2, s.2⟩ := by
  unfold handings at h
  dsimp only at h
  split_ifs at h with hcount
  cases h
  set mine := x.1.filterMap Returned.given with hmine
  have hmade : ∀ ev ∈ mine, Made ev := by
    intro ev hev
    have hpos : 0 < w.ledger.given.count ev :=
      (List.count_pos_iff.2 hev).trans_le (hcount ev hev)
    exact hI.made ev (List.count_pos_iff.1 hpos)
  have hperm := ((List.subperm_append_diff_self_of_count_le hcount).map EventData.copy).sum_eq
  rw [List.map_append, List.sum_append] at hperm
  obtain ⟨hb, hparked⟩ := bounded_onError clock (x.2.batch x.1) hI.hub
  refine ⟨rfl, rfl, ?_, hb, fun ev hev => hI.made ev (List.diff_subset _ _ hev)⟩
  have hhub : (onError st clock w.hub (x.2.batch x.1)).2.copies ≤
      (mine.map EventData.copy).sum + w.hub.copies :=
    hparked.trans (add_le_add (copies_batch x.2 hmade) le_rfl)
  refine (add_le_add hhub le_rfl).trans (le_of_eq ?_)
  simp only [copies, Handings.copies, ← hperm]
  abel

lemma calm_makeAllDue (hI : Inv st w) : Calm st w (w.setHub { w.hub with
    retryQ := w.hub.retryQ.map (fun item => { item with nextAt := 0 }) }) := by
  refine ⟨rfl, rfl, le_of_eq ?_, ⟨?_, ?_⟩, hI.made⟩
  · simp only [copies, World.setHub, Hub.copies, List.map_map]
    rfl
  · simpa [World.setHub] using hI.hub.length
  · intro item hitem
    obtain ⟨item', hitem', rfl⟩ := List.mem_map.1 hitem
    exact hI.hub.attempts item' hitem'

lemma calm_serve (hI : Inv st w) {o : Call ι} (ho : plain o = true)
    {x : Pick (List (Returned ι) × Shape)} {r : (hubApi ι).Reply o}
    (hs : serve handings st i w o x = some (r, w')) : Calm st w w' := by
  have hsame : ∀ h : Hub ι, h.retryQ = w.hub.retryQ → Calm st w (w.setHub h) := fun h hq =>
    calm_setHub hI.hub hI.made (hq ▸ List.Sublist.refl _)
  have hrefl : Calm st w w := ⟨rfl, rfl, le_rfl, hI.hub, hI.made⟩
  -- A call that does not hand a record over leaves the queue as it is, empties it, or adds what has
  -- come back.
  unfold serve at hs
  cases o with
  | send body | failEnqueue body | drainBegin | resend item | failRetry item =>
      exact absurd ho (by simp [plain])
  | failSerialize | failInit | countRetried | takeClients =>
      cases hs
      exact hsame _ rfl
  | getProducer =>
      cases hs
      exact hsame _ (retryQ_getProducer _ _)
  | maybeReinit =>
      cases hs
      exact hsame _ (retryQ_maybeReinit _ _ _)
  | onError =>
      obtain ⟨s, hback, heq⟩ := Option.map_eq_some_iff.1 hs
      cases heq
      exact calm_handBack hI x.clock hback
  | cancelDrainer | waitForDrain | close client =>
      cases hs
      exact hrefl
  | makeAllDue =>
      dsimp only at hs
      split_ifs at hs
      · cases hs
        exact calm_makeAllDue hI
      · cases hs
        exact hrefl
  | loseRest =>
      cases hs
      exact calm_setHub hI.hub hI.made (List.nil_sublist _)

/-- The due records are held by the drain step, with the numbers that they had in the queue. -/
lemma kept_drainBegin (hI : Inv st w) {x : Pick (List (Returned ι) × Shape)}
    {r : (hubApi ι).Reply (.drainBegin : Call ι)}
    (hs : serve handings st i w .drainBegin x = some (r, w')) :
    Kept st i w w' ∧ ∀ due, r = .ok due →
      w'.ledger.own i = w.ledger.own i ++ due.map (fun item => (item.origin, item.attempts)) ∧
      ∀ item ∈ due, item.attempts ≤ st.retryMaxAttempts := by
  cases hs
  set begun := Eventhub.drainBegin st x.built (x.clock 0).now w.hub with hbegun
  obtain ⟨hb, hattempts, hcopies⟩ := drainBegin_spec x.built (x.clock 0).now hI.hub
  rw [← hbegun] at hb hattempts hcopies
  refine ⟨kept_of_copies hI hI.made ?_ rfl hb (fun j hj => ?_), ?_⟩
  · have hheld : (begun.1.map (fun item => (item.origin, item.attempts))).map
        (fun e => copy e.1 e.2) = begun.1.map Pending.copy := by
      rw [List.map_map]
      rfl
    change begun.2.copies + (w.ledger.hold i _).copies ≤ _
    rw [copies_hold, hheld, ← add_assoc, add_comm begun.2.copies]
    exact add_le_add hcopies le_rfl
  · change (Eventhub.own (w.ledger.held ++ _) j).Perm _
    rw [own_append_of_ne hj]
    exact .refl _
  · rintro due ⟨⟩
    exact ⟨own_append _, hattempts⟩

/-- A new record is handed over for the first time. -/
lemma kept_send (hI : Inv st w) (hunborn : Unborn i w) (body : String) :
    Kept st i w ⟨w.hub, w.ledger.give (makeEvent (some i) body 0)⟩ := by
  refine kept_of_first hI ?_ hunborn ?_ rfl hI.hub (fun j _ => .refl _)
  · intro ev hev
    rcases List.mem_cons.1 hev with rfl | hev
    · exact ⟨some i, body, 0, rfl⟩
    · exact hI.made ev hev
  · change w.hub.copies + _ ≤ copy (some i) 1 + (w.hub.copies + w.ledger.copies)
    rw [copies_give, copy_makeEvent, add_left_comm]
    exact le_rfl

/-- A record that the producer has refused is parked or lost. -/
lemma kept_park (hI : Inv st w) {e : Option ι × ℤ} (hmem : (i, e) ∈ w.ledger.held) {h : Hub ι}
    (hq : h.retryQ = w.hub.retryQ) (t : Reading) (body : String) :
    Kept st i w ⟨(requeue st t e.1 body e.2 h).2, w.ledger.release i e⟩ := by
  have hb : h.Bounded st := hI.hub.of_sublist (hq ▸ List.Sublist.refl _)
  have hsame : h.copies = w.hub.copies := congrArg (fun q => (q.map Pending.copy).sum) hq
  obtain ⟨hb', hcopies⟩ := bounded_requeue t e.1 body e.2 hb
  refine kept_of_copies hI hI.made ?_ rfl hb' (fun j hj => own_release_of_ne w.ledger e hj)
  rw [hsame] at hcopies
  refine (add_le_add hcopies le_rfl).trans (le_of_eq ?_)
  rw [copies_eq_release hmem, add_assoc]

/-- A record is handed over once more, and is with the producer. -/
lemma kept_resend (hI : Inv st w) {item : Pending ι}
    (hmem : (i, item.origin, item.attempts) ∈ w.ledger.held)
    (hattempts : item.attempts ≤ st.retryMaxAttempts) : Kept st i w
      ⟨w.hub, (w.ledger.release i (item.origin, item.attempts)).give
        (makeEvent item.origin item.body item.attempts)⟩ := by
  refine kept_of_again hI ?_ (copies_eq_release hmem) ?_ hattempts rfl hI.hub
    (fun j hj => own_release_of_ne w.ledger _ hj)
  · intro ev hev
    rcases List.mem_cons.1 hev with rfl | hev
    · exact ⟨item.origin, item.body, item.attempts, rfl⟩
    · exact hI.made ev hev
  · change w.hub.copies + _ ≤ _
    rw [copies_give, copy_makeEvent, add_left_comm]

/-- The first send of a record raises, and the record is held to be parked. -/
lemma kept_raised_send (hI : Inv st w) (hunborn : Unborn i w) {body : String} {e : HubErr}
    (hr : raised i w (.send body) e = some w') : Kept st i w w' := by
  cases e with
  | exception =>
      cases hr
      refine kept_of_first hI hI.made hunborn ?_ rfl hI.hub (fun j hj => ?_)
      · change w.hub.copies + _ ≤ copy (some i) 1 + (w.hub.copies + w.ledger.copies)
        rw [copies_hold, List.map_singleton, List.sum_singleton, add_left_comm]
        exact le_rfl
      · exact List.Perm.of_eq (own_append_of_ne hj _)
  | cancelled =>
      cases hr
      exact kept_of_first hI hI.made hunborn (Multiset.le_add_left _ _) rfl hI.hub
        (fun j _ => .refl _)

/-- Another send of a record raises, and the record is held with one more attempt. -/
lemma kept_raised_resend (hI : Inv st w) {item : Pending ι}
    (hmem : (i, item.origin, item.attempts) ∈ w.ledger.held)
    (hattempts : item.attempts ≤ st.retryMaxAttempts) {e : HubErr}
    (hr : raised i w (.resend item) e = some w') : Kept st i w w' := by
  cases e with
  | exception =>
      cases hr
      refine kept_of_again hI hI.made (copies_eq_release hmem) ?_ hattempts rfl hI.hub
        (fun j hj => (List.Perm.of_eq (own_append_of_ne hj _)).trans
          (own_release_of_ne (w.ledger.attempt item.origin) _ hj))
      change w.hub.copies + _ ≤ _
      rw [copies_hold, List.map_singleton, List.sum_singleton, add_left_comm]
      exact le_rfl
  | cancelled =>
      cases hr
      exact kept_of_again hI hI.made (copies_eq_release hmem) (Multiset.le_add_left _ _) hattempts
        rfl hI.hub (fun j hj => own_release_of_ne (w.ledger.attempt item.origin) _ hj)

end Steps

/-! ## The tasks -/

section Tasks

variable {ι : Type} [DecidableEq ι] {st : Settings} {i : ι} {w : Feed ι}

/-- The task may go on here. -/
abbrev Runs (st : Settings) (i : ι) {α : Type} (p : Task ι α) (Q : α → Feed ι → Prop)
    (X : HubErr → Feed ι → Prop) (w : Feed ι) : Prop :=
  (discipline st).wpE anyStep i p Q X w

/-- The task goes on, whatever it is answered. -/
abbrev Free (st : Settings) (i : ι) {α : Type} (p : Task ι α) : Prop :=
  (discipline st).Steady anyStep i (fun _ => True) p

/-- The rule for a call: it is served, and may raise where its delay cannot be computed; or it is
cancelled when it has been served; or it raises. -/
lemma runs_served {o : Call ι} {Q : o.Answer → Feed ι → Prop} {X : HubErr → Feed ι → Prop}
    (hQ : ∀ w₁, Rely i w w₁ → Inv st w₁ → ∀ x r w₂, serve handings st i w₁ o x = some (r, w₂) →
      Kept st i w₁ w₂ ∧ (∀ b, r = .ok b → Q b w₂) ∧
        ∀ e, r = .error e ∨ mayLose o e = true → X e w₂)
    (hX : ∀ w₁, Rely i w w₁ → Inv st w₁ → ∀ e w₂, raised i w₁ o e = some w₂ →
      Kept st i w₁ w₂ ∧ X e w₂) : Runs st i (ask o) Q X w := by
  refine Discipline.wpE_ask (fun w₁ hR hI => ⟨trivial, fun f r w₂ ha _ => ?_⟩)
  cases f with
  | served x =>
      have hs : serve handings st i w₁ o x = some (r, w₂) := ha
      obtain ⟨⟨hI₂, hG⟩, hb, he⟩ := hQ w₁ hR hI x r w₂ hs
      exact ⟨hI₂, hG, hb, fun e hr => he e (.inl hr)⟩
  | refused e =>
      obtain ⟨w', hr, heq⟩ := Option.map_eq_some_iff.1 ha
      cases heq
      obtain ⟨⟨hI₂, hG⟩, he⟩ := hX w₁ hR hI e _ hr
      refine ⟨hI₂, hG, ?_, ?_⟩
      · rintro b ⟨⟩
      · rintro e' ⟨⟩
        exact he
  | lost x e =>
      simp only [env] at ha
      split_ifs at ha with hlose
      obtain ⟨⟨r₀, w'⟩, hs, heq⟩ := Option.map_eq_some_iff.1 ha
      cases heq
      obtain ⟨⟨hI₂, hG⟩, -, he⟩ := hQ w₁ hR hI x r₀ _ hs
      refine ⟨hI₂, hG, ?_, ?_⟩
      · rintro b' ⟨⟩
      · rintro e' ⟨⟩
        exact he e (.inr hlose)

/-- A call whose delay can be computed raises only at an await. -/
lemma runs_ask {o : Call ι} {Q : o.Answer → Feed ι → Prop} {X : HubErr → Feed ι → Prop}
    (ho : o.Affordable st)
    (hQ : ∀ w₁, Rely i w w₁ → Inv st w₁ → ∀ x b w₂, serve handings st i w₁ o x = some (.ok b, w₂) →
      Kept st i w₁ w₂ ∧ Q b w₂ ∧ ∀ e, mayLose o e = true → X e w₂)
    (hX : ∀ w₁, Rely i w w₁ → Inv st w₁ → ∀ e w₂, raised i w₁ o e = some w₂ →
      Kept st i w₁ w₂ ∧ X e w₂) : Runs st i (ask o) Q X w := by
  refine runs_served (fun w₁ hR hI x r w₂ hs => ?_) hX
  obtain ⟨b, rfl⟩ := serve_ok ho hs
  obtain ⟨hkept, hb, he⟩ := hQ w₁ hR hI x b w₂ hs
  refine ⟨hkept, ?_, ?_⟩
  · rintro b' ⟨⟩
    exact hb
  · rintro e (⟨⟨⟩⟩ | hlose)
    exact he e hlose

omit [DecidableEq ι] in
/-- What the calls that hold nothing do when they raise. -/
lemma mayLose_plain {o : Call ι} (ho : plain o = true) (e : HubErr) : mayLose o e = false := by
  cases o <;> first | rfl | exact absurd ho (by simp [plain])

lemma raised_plain {o : Call ι} (ho : plain o = true) {e : HubErr} {w' : Feed ι}
    (hr : raised i w o e = some w') : w' = w := by
  unfold raised at hr
  cases o with
  | send body | resend item => exact absurd ho (by simp [plain])
  | waitForDrain | close client => exact (Option.some.inj hr).symm
  | _ => cases hr

omit [DecidableEq ι] in
lemma affordable_plain {o : Call ι} (ho : plain o = true) : o.Affordable st := by
  cases o <;> trivial

lemma Calm.own {w' : Feed ι} (h : Calm st w w') : w'.ledger.own i = w.ledger.own i := by
  simp only [Handings.own, h.held]

/-- The rule for a call by which the task comes to hold nothing. -/
lemma runs_plain {o : Call ι} (ho : plain o = true) {P : Feed ι → Prop}
    (hcalm : ∀ w₁ w₂, Calm st w₁ w₂ → P w₁ → P w₂) (hrely : ∀ w₁, Rely i w w₁ → P w → P w₁)
    (hw : P w) : Runs st i (ask o) (fun _ => P) (fun _ => P) w := by
  refine runs_ask (affordable_plain ho) (fun w₁ hR hI x b w₂ hs => ?_)
    (fun w₁ hR hI e w₂ hr => ?_)
  · have h := calm_serve hI ho hs
    exact ⟨h.kept hI, hcalm w₁ w₂ h (hrely w₁ hR hw), fun e he => absurd he (by
      simp [mayLose_plain ho])⟩
  · rw [raised_plain ho hr]
    exact ⟨⟨hI, fun j _ => Rely.refl j _⟩, hrely w₁ hR hw⟩

lemma free_ask {o : Call ι} (ho : plain o = true) : Free st i (ask o) := fun _ _ =>
  runs_plain ho (fun _ _ _ _ => trivial) (fun _ _ _ => trivial) trivial

/-! ### `emit` -/

/-- The record has not been handed over, and the task holds nothing. -/
def Before (i : ι) (w : Feed ι) : Prop := Unborn i w ∧ w.ledger.own i = []

lemma Before.rely {w' : Feed ι} (h : Before i w) (hR : Rely i w w') : Before i w' :=
  ⟨hR.unborn h.1, List.perm_nil.1 (h.2 ▸ hR.own)⟩

lemma Before.calm {w' : Feed ι} (h : Before i w) (hcalm : Calm st w w') : Before i w' :=
  ⟨h.1.of_copies hcalm.copies hcalm.handed, hcalm.own.trans h.2⟩

lemma runs_before {o : Call ι} (ho : plain o = true) (hw : Before i w) :
    Runs st i (ask o) (fun _ => Before i) (fun _ => Before i) w :=
  runs_plain ho (fun _ _ hcalm h => h.calm hcalm) (fun _ hR h => h.rely hR) hw

lemma runs_emit {Record : Type} (dumps : Record → Option String) (record : Record)
    (hw : Before i w) :
    Runs st i (Eventhub.emit dumps record) (fun _ _ => True) (fun _ _ => True) w := by
  unfold Eventhub.emit
  cases dumps record with
  | none => exact free_ask rfl w trivial
  | some body =>
      refine (Discipline.wpE_bind _ _).2 (Discipline.wpE_mono (fun found w hw => ?_)
        (fun _ _ _ => trivial) (runs_before (o := .getProducer) rfl hw))
      split_ifs
      · refine wpE_catchException (runs_ask (o := .send body) trivial (fun w₁ hR hI x b w₂ hs => ?_)
          (fun w₁ hR hI e w₂ hr => ?_))
        · cases hs
          exact ⟨kept_send hI (hw.rely hR).1 body, trivial, fun e he => ⟨fun hexc => by
            subst hexc
            simp [mayLose] at he, fun _ => trivial⟩⟩
        · refine ⟨kept_raised_send hI (hw.rely hR).1 hr, fun hexc => ?_, fun _ => trivial⟩
          subst hexc
          cases hr
          refine runs_ask (o := .failEnqueue body) trivial (fun w₂ hR₂ hI₂ x b w₃ hs => ?_)
            (fun _ _ _ e _ hr => nomatch hr)
          have hmem : (i, some i, 1) ∈ w₂.ledger.held := by
            refine mem_own.1 (hR₂.own.mem_iff.2 (mem_own.2 ?_))
            exact List.mem_append_right _ (List.mem_singleton_self _)
          obtain ⟨-, rfl⟩ := Prod.mk.inj (Option.some.inj hs)
          exact ⟨kept_park (h := { w₂.hub with failedEnqueue := w₂.hub.failedEnqueue + 1 }) hI₂ hmem
            rfl (x.clock 0) body, trivial, fun e he => nomatch he⟩
      · exact free_ask rfl w trivial
      · trivial

/-! ### The drain steps -/

/-- What is left of a drain step: these items, none of which has had too many attempts. -/
def Left (st : Settings) (i : ι) (items : List (Pending ι)) (w : Feed ι) : Prop :=
  (w.ledger.own i).Perm (items.map (fun item => (item.origin, item.attempts))) ∧
    ∀ item ∈ items, item.attempts ≤ st.retryMaxAttempts

lemma runs_drainOnce (hw : w.ledger.own i = []) :
    Runs st i drainOnce (fun _ _ => True) (fun _ _ => True) w := by
  have hbegin : Runs st i (ask .drainBegin) (Left st i) (fun _ _ => True) w := by
    refine runs_ask (o := .drainBegin) trivial (fun w₁ hR hI x due w₂ hs => ?_)
      (fun _ _ _ e _ hr => nomatch hr)
    obtain ⟨hkept, hdue⟩ := kept_drainBegin hI hs
    obtain ⟨hown, hattempts⟩ := hdue due rfl
    have hnil : w₁.ledger.own i = [] := List.perm_nil.1 (hw ▸ hR.own)
    refine ⟨hkept, ⟨?_, hattempts⟩, fun _ _ => trivial⟩
    rw [hown, hnil]
    exact .refl _
  -- One round sends the first record and leaves the rest in the local list.
  have hround : ∀ (item : Pending ι) (rest : List (Pending ι)) (w : Feed ι),
      Left st i (item :: rest) w → Runs st i (catchException (do
        ask .countRetried
        ask (.resend item)) (ask (.failRetry item))) (fun _ => Left st i rest)
        (fun _ _ => True) w := by
    intro item rest w hw
    have hrest : ∀ item' ∈ rest, item'.attempts ≤ st.retryMaxAttempts := fun item' h =>
      hw.2 item' (List.mem_cons_of_mem item h)
    have hcount : Runs st i (ask .countRetried) (fun _ => Left st i (item :: rest))
        (fun _ _ => False) w := by
      refine runs_ask (o := .countRetried) trivial (fun w₁ hR hI x b w₂ hs => ?_)
        (fun _ _ _ e _ hr => nomatch hr)
      have hcalm := calm_serve hI rfl hs
      exact ⟨hcalm.kept hI, ⟨hcalm.own ▸ hR.own.trans hw.1, hw.2⟩, fun e he => nomatch he⟩
    have hheld : ∀ {w : Feed ι}, Left st i (item :: rest) w →
        (i, item.origin, item.attempts) ∈ w.ledger.held := fun h =>
      mem_own.1 (h.1.mem_iff.2 List.mem_cons_self)
    refine wpE_catchException ((Discipline.wpE_bind _ _).2 (Discipline.wpE_mono (fun _ w hw => ?_)
      (fun _ _ h => h.elim) hcount))
    -- Once the first record has left the hands, the others are what is still held.
    have hgone : ∀ {w : Feed ι}, Left st i (item :: rest) w → (Eventhub.own (w.ledger.held.erase
        (i, item.origin, item.attempts)) i).Perm
        (rest.map (fun item => (item.origin, item.attempts))) := fun h =>
      (List.perm_cons _).1 ((own_erase (hheld h)).symm.trans h.1)
    refine runs_ask (o := .resend item) trivial (fun w₁ hR hI x b w₂ hs => ?_)
      (fun w₁ hR hI e w₂ hr => ?_)
    · have hleft : Left st i (item :: rest) w₁ := ⟨hR.own.trans hw.1, hw.2⟩
      cases hs
      refine ⟨kept_resend hI (hheld hleft) (hw.2 item List.mem_cons_self),
        ⟨hgone hleft, hrest⟩, fun e he => ⟨fun hexc => ?_, fun _ => trivial⟩⟩
      -- A failure that `except Exception` catches: the record comes back with one more attempt.
      subst hexc
      simp [mayLose] at he
    · have hleft : Left st i (item :: rest) w₁ := ⟨hR.own.trans hw.1, hw.2⟩
      refine ⟨kept_raised_resend hI (hheld hleft) (hw.2 item List.mem_cons_self) hr,
        fun hexc => ?_, fun _ => trivial⟩
      subst hexc
      have hown : (w₂.ledger.own i).Perm ((item.origin, item.attempts + 1) ::
          rest.map (fun item => (item.origin, item.attempts))) := by
        cases hr
        refine (List.Perm.of_eq (own_append _)).trans (List.perm_append_comm.trans ?_)
        exact (hgone hleft).cons _
      -- Where the delay cannot be computed, the record is dropped and the step ends.
      refine runs_served (o := .failRetry item) (fun w₃ hR₃ hI₃ x r w₄ hs => ?_)
        (fun _ _ _ e _ hr => nomatch hr)
      have hown₃ := hR₃.own.trans hown
      have hmem : (i, item.origin, item.attempts + 1) ∈ w₃.ledger.held :=
        mem_own.1 (hown₃.mem_iff.2 List.mem_cons_self)
      obtain ⟨-, rfl⟩ := Prod.mk.inj (Option.some.inj hs)
      refine ⟨kept_park (h := { w₃.hub with failedRetry := w₃.hub.failedRetry + 1 }) hI₃ hmem rfl
        (x.clock 0) item.body, fun _ _ => ⟨?_, hrest⟩, fun _ _ => trivial⟩
      exact (List.perm_cons _).1 ((own_erase hmem).symm.trans hown₃)
  refine Discipline.wpE_then hbegin (fun due w hw => ?_)
  exact Discipline.wpE_mono (fun _ _ _ => trivial) (fun _ _ _ => trivial)
    (Discipline.wpE_forM (P := Left st i) hround hw)

/-! ### All tasks -/

lemma free_aclose : Free st i Eventhub.aclose :=
  steady_aclose (fun o ho =>
    free_ask (by cases o <;> first | rfl | exact absurd ho (by simp [Call.closes])))

lemma runs_job {Record : Type} (dumps : Record → Option String) (job : Job Record)
    (hw : Before i w) :
    Runs st i (job.program dumps) (fun _ _ => True) (fun _ _ => True) w := by
  cases job with
  | emit record => exact runs_emit dumps record hw
  | drainRound =>
      refine wpE_catchException ((Discipline.wpE_bind _ _).2 (Discipline.wpE_mono
        (fun _ w _ => Discipline.wpE_mono (fun _ _ h => h) (fun _ _ _ => ⟨fun _ => trivial,
          fun _ => trivial⟩) (free_ask (o := .maybeReinit) rfl w trivial))
        (fun _ _ _ => ⟨fun _ => trivial, fun _ => trivial⟩) (runs_drainOnce hw.2)))
  | finalDrain => exact runs_drainOnce hw.2
  | callback =>
      have hfree : Free st i (do
          let _ ← ask .onError : Task ι Unit) :=
        Discipline.Steady.bind (free_ask (o := .onError) rfl) (fun _ => Discipline.Steady.pure ())
      exact hfree w trivial
  | aclose => exact free_aclose w trivial

end Tasks

end Feed

/-- **Bounded retries.**  Whatever is emitted, handed back and drained, in any order, the record of
a task is handed to the producer once and as often again as the limit of attempts allows, and the
retry queue does not outgrow its size. -/
theorem retries_bounded {ι Record : Type} [DecidableEq ι] (st : Settings)
    (dumps : Record → Option String) (jobs : ι → Job Record) {w : Feed ι} (hw : w.Fresh)
    {c : Config (hubApi ι) ι (Feed ι) (Except HubErr Unit)}
    (h : Reaches (Feed.env st) anyStep (start dumps jobs w) c) :
    (∀ i, (c.world.ledger.handed i : ℤ) ≤ 1 + max st.retryMaxAttempts 0) ∧
      (c.world.hub.retryQ.length : ℤ) ≤ max st.retryMaxQueue 1 := by
  have hcopies : w.copies = 0 := by
    simp [Feed.copies, Handings.copies, Hub.copies, hw.given, hw.held, hw.retryQ]
  have hinv : Feed.Inv st w := by
    refine ⟨by simp [hw.given], fun r => ?_, ⟨by simp [hw.retryQ], by simp [hw.retryQ]⟩,
      fun r => ?_⟩
    · rw [hcopies]
      exact Multiset.zero_le _
    · rw [hw.handed r]
      push_cast
      omega
  have hbefore : ∀ i, Feed.Before i w := fun i =>
    ⟨⟨hw.handed i, by rw [hcopies]; rfl⟩, by simp [Handings.own, Eventhub.own, hw.held]⟩
  have hprog : ∀ i, (Feed.discipline st).wp anyStep i ((start dumps jobs w).prog i)
      (fun _ _ => True) w := by
    refine fun i => Discipline.wp_mono (fun r w' _ => trivial)
      (Feed.runs_job dumps (jobs i) (hbefore i))
  obtain ⟨hI, -⟩ := Discipline.sound (c := start dumps jobs w)
    (fun _ _ _ _ _ _ _ => trivial) hinv hprog h
  refine ⟨hI.handed, ?_⟩
  have hlength := hI.hub.length
  unfold Settings.capacity at hlength
  omega

section Example

def emptyFeed : Feed (Fin 3) := ⟨emptyHub (Fin 3), ⟨[], [], fun _ => 0⟩⟩

/-- One record, one call of the error callback, and one round of the drain loop. -/
def rejecting : Fin 3 → Job String
  | 0 => .emit "record"
  | 1 => .callback
  | 2 => .drainRound

/-- A call that is served at a time, with the first event of a record in the failed batch. -/
def rejectedAt (i : Fin 3) (now : ℚ) : Fate (Pick (List (Returned (Fin 3)) × Shape)) HubErr :=
  .served ⟨true, fun _ => ⟨now, 1⟩,
    ([.own (makeEvent (some i) "record" 0) true (some "record")], .list)⟩

/-- A record comes back and is sent again: with one retry allowed, two handings over are reached. -/
theorem retries_bounded_rejected :
    ∃ c, Reaches (Feed.env settings) anyStep (start some rejecting emptyFeed) c ∧
      c.world.ledger.handed 0 = 2 ∧ (2 : ℤ) ≤ 1 + max settings.retryMaxAttempts 0 := by
  obtain ⟨c, hreach, hhanded⟩ := Config.reaches_of_play (Feed.env settings) anyStep
    (start some rejecting emptyFeed)
    [(0, rejectedAt 0 0), (0, rejectedAt 0 0), (1, rejectedAt 0 0), (2, rejectedAt 0 3),
      (2, rejectedAt 0 3),
      (2, rejectedAt 0 3)] (fun c => c.world.ledger.handed 0 = 2) (by decide +kernel)
  have hbound := (retries_bounded settings some rejecting ⟨rfl, rfl, rfl, fun _ => rfl⟩ hreach).1 0
  rw [hhanded] at hbound
  exact ⟨c, hreach, hhanded, by exact_mod_cast hbound⟩

end Example

end Eventhub
end TokenFoundry
