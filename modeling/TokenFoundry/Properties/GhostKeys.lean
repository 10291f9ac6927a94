import TokenFoundry.Properties.KeyLedger

/-!
# Ghost keys

Issuing a key creates its subscription first and its row last, and deleting it removes the row
whether or not the subscription could be deleted.  So a subscription can stay active without a
row: `delete_key` swallows the failure of the gateway by design (`ghost_key`), and a creation that
fails between the subscription and the row leaves the subscription behind, unless it fails at the
limits, where it is cleaned up.

`no_ghost_keys` is about one subscription at a time.  If none of the calls that create or delete it,
read or store its secret, or insert its row fails (`Attended`), then a deletion that has answered
has switched it off for good, and between requests it is active only if a row has it, with the
entry in the limits map that the row asks for.  The calls about all other keys may fail.
-/

set_option autoImplicit false

namespace TokenFoundry
namespace KeyLedger

open Keys (VirtualKey keysApi Handler client ask withDb)
open KeyLimits

/-! ## One subscription -/

/-- The subscription accepts traffic; a suspended one is still there, but the gateway refuses its
key. -/
def Active (s : String) (w : Ledger) : Prop := w.subscriptions s = some "active"

instance (s : String) (w : Ledger) : Decidable (Active s w) := inferInstanceAs (Decidable (_ = _))

/-- The limits of a key, as the entry carries them. -/
def Entry.IsOf (e : Entry) (tpm : Option ℤ) (tier : Option TokenQuotaTier)
    (period : Option TokenQuotaPeriod) : Prop :=
  e.t = tpm ∧ e.qt = (tier.map TokenQuotaTier.value).filter (fun q => q ≠ "none") ∧
    e.p = period.map TokenQuotaPeriod.value

/-- The key was issued with limits, so that an entry in the limits map belongs to it. -/
def Limited (tpm : Option ℤ) (tier : Option TokenQuotaTier) : Prop :=
  tpm.isSome = true ∨ hasTier tier = true

/-- If there are limits, the map has the entry for them. -/
def Published (m : LimitsMap) (s : String) (tpm : Option ℤ) (tier : Option TokenQuotaTier)
    (period : Option TokenQuotaPeriod) : Prop :=
  Limited tpm tier → ∃ e, m.lookup s = some e ∧ Entry.IsOf e tpm tier period

/-- The subscription has a row, with the limits that the row asks for. -/
def Attributed (s : String) (w : Ledger) : Prop :=
  ∃ k ∈ w.keys, k.subscription = some s ∧
    Published w.map s k.tokensPerMinute k.tokenQuotaTier k.tokenQuotaPeriod

/-- The subscription is no ghost: if the program created it and it is active, it has a row. -/
def NoGhost (s : String) (w : Ledger) : Prop := s ∈ w.usedIds → Active s w → Attributed s w

/-- The subscription was created once and is switched off.  No request switches it on again, since
the ids are drawn fresh. -/
def Dead (s : String) (w : Ledger) : Prop := s ∈ w.usedIds ∧ ¬ Active s w

lemma Dead.noGhost {s : String} {w : Ledger} (h : Dead s w) : NoGhost s w :=
  fun _ hact => absurd hact h.2

/-- The call has failed; that there is nothing is no failure. -/
def failed {α : Type} : Except PyErr α → Bool
  | .ok _ => false
  | .error e => decide (e ≠ .resourceNotFound)

/-- None of the calls that make or unmake this subscription fails. -/
def Attended (s : String) : StepCond keysApi Unit Ledger
  | _, _, .createSubscription id _, r => id = s → failed r = false
  | _, _, .subscriptionSecret id, r => id = s → failed r = false
  | _, _, .setSecret name _, r => name = Keys.subscriptionKeyName s → failed r = false
  | _, _, .insertKey vk, r => vk.id = s → failed r = false
  | _, _, .deleteSubscription id, r => id = s → failed r = false
  | _, _, _, _ => True

instance (s : String) (i : Unit) (w : Ledger) (o : Keys.Call) (r : keysApi.Reply o) :
    Decidable (Attended s i w o r) := by
  unfold Attended
  split <;> infer_instance

/-! ## Calls about other subscriptions -/

/-- The call does not concern this subscription, or at most switches it off. -/
def Elsewhere (s : String) (w : Ledger) : Keys.Call → Prop
  | .createSubscription id _ => id ≠ s
  | .setSubscriptionState _ state => state ≠ "active"
  | .deleteKey id => ∀ k ∈ w.keys, k.id = id → k.subscription ≠ some s
  | .putNamedValue m _ => m.lookup s = w.map.lookup s
  | _ => True

/-- What the calls about other subscriptions keep; a property of one subscription is `Local` if the
requests about the others cannot break it. -/
def Local (s : String) (P : Ledger → Prop) : Prop :=
  ∀ w o p r w', Elsewhere s w o → serve w o p = some (r, w') → P w → P w'

lemma map_write (w : Ledger) (m : LimitsMap) :
    Ledger.map { w with named := w.named.write () (some (.limits m)) } = m := rfl

lemma Attributed.write {s : String} {w : Ledger} {m : LimitsMap} (h : Attributed s w)
    (hm : m.lookup s = w.map.lookup s) :
    Attributed s { w with named := w.named.write () (some (.limits m)) } := by
  obtain ⟨k, hk, hsub, hpub⟩ := h
  refine ⟨k, hk, hsub, fun hlim => ?_⟩
  obtain ⟨e, he, hof⟩ := hpub hlim
  exact ⟨e, by rw [map_write, hm, he], hof⟩

lemma used_local (s x : String) : Local s (fun w => x ∈ w.usedIds) :=
  fun _ _ _ _ _ _ h hx => serve_used h hx

/-- No call but its creation switches a subscription on.  The two hypotheses exclude its creation
and the update that reactivates it. -/
lemma inactive_keeps {s : String} {w w' : Ledger} {o : Keys.Call} {p : Pick} {r : keysApi.Reply o}
    (hcreate : ∀ id name, o = .createSubscription id name → id ≠ s)
    (hset : ∀ id state, o = .setSubscriptionState id state → state ≠ "active")
    (h : serve w o p = some (r, w')) (hw : ¬ Active s w) : ¬ Active s w' := by
  by_cases hr : Reads o
  · rw [serve_reads hr h]
    exact hw
  cases o with
  | insertKey vk =>
      simp only [serve] at h
      split_ifs at h <;> cases h <;> exact hw
  | commitKeyStatus id status =>
      simp only [serve] at h
      split_ifs at h <;> cases h <;> exact hw
  | newId =>
      simp only [serve] at h
      split_ifs at h
      cases h
      exact hw
  | putNamedValue m im =>
      simp only [serve] at h
      split_ifs at h <;> cases h <;> exact hw
  | deleteKey id =>
      cases h
      exact hw
  | createSubscription id name =>
      cases h
      simpa [Active, Ledger.setSubscription, (hcreate id name rfl).symm] using hw
  | setSubscriptionState id state =>
      cases h
      by_cases hs : s = id
      · simp [Active, Ledger.setSubscription, hs, hset id state rfl]
      · simpa [Active, Ledger.setSubscription, hs] using hw
  | deleteSubscription id =>
      cases h
      by_cases hs : s = id
      · simp [Active, Ledger.setSubscription, hs]
      · simpa [Active, Ledger.setSubscription, hs] using hw
  | _ => exact absurd trivial hr

lemma dead_local (s : String) : Local s (Dead s) := by
  intro w o p r w' ho h hw
  refine ⟨used_local s s w o p r w' ho h hw.1, inactive_keeps ?_ ?_ h hw.2⟩
  · rintro id name rfl
    exact ho
  · rintro id state rfl
    exact ho

/-- Requests about other subscriptions make no ghost of this one: its row, its entry of the map and
its state belong to it alone. -/
lemma noGhost_local (s : String) : Local s (NoGhost s) := by
  intro w o p r w' ho h hw hused hact
  by_cases hr : Reads o
  · rw [serve_reads hr h] at hused hact ⊢
    exact hw hused hact
  -- A call that switches nothing on finds the subscription active already.
  have hbefore : Active s w := by
    by_contra hnot
    refine inactive_keeps ?_ ?_ h hnot hact
    · rintro id name rfl
      exact ho
    · rintro id state rfl
      exact ho
  cases o with
  | insertKey vk =>
      simp only [serve] at h
      split_ifs at h
      · cases h
        exact hw hused hbefore
      · cases h
        obtain ⟨k, hk, hrest⟩ := hw hused hbefore
        exact ⟨k, List.mem_append_left _ hk, hrest⟩
  | commitKeyStatus id status =>
      simp only [serve] at h
      split_ifs at h
      · cases h
        exact hw hused hbefore
      · cases h
        obtain ⟨k, hk, hsub, hpub⟩ := hw hused hbefore
        refine ⟨_, List.mem_map_of_mem hk, ?_⟩
        split_ifs
        · exact ⟨hsub, hpub⟩
        · exact ⟨hsub, hpub⟩
  | deleteKey id =>
      cases h
      obtain ⟨k, hk, hsub, hpub⟩ := hw hused hbefore
      -- The row that goes is another one, since this subscription is deleted only where it is off.
      have hid : k.id ≠ id := fun hid => ho k hk hid hsub
      exact ⟨k, List.mem_filter.2 ⟨hk, by simpa using hid⟩, hsub, hpub⟩
  | newId =>
      simp only [serve] at h
      split_ifs at h with hfresh
      cases h
      rcases List.mem_cons.1 hused with rfl | hused
      -- A drawn id is fresh, so there is no active subscription of that name.
      · exact absurd (by simp [show w.subscriptions _ = some "active" from hbefore])
          (not_or.1 hfresh).2
      · exact hw hused hbefore
  | putNamedValue m im =>
      simp only [serve] at h
      split_ifs at h
      · cases h
        exact hw hused hbefore
      · cases h
        exact (hw hused hbefore).write ho
  | createSubscription id name =>
      cases h
      exact hw hused hbefore
  | setSubscriptionState id state =>
      cases h
      exact hw hused hbefore
  | deleteSubscription id =>
      cases h
      exact hw hused hbefore
  | _ => exact absurd trivial hr

/-! ## The rules for a request -/

/-- Requests that run alone on well-formed tables: nothing interferes between the calls of a
request, so only the tables have to stay well-formed. -/
def rules : Discipline env := .alone env_drift Ledger.WellFormed

section Rules

variable {s : String} {w : Ledger} {P : Ledger → Prop}

/-- The program may run here, as long as the subscription is attended. -/
abbrev Ok (s : String) {α : Type} (p : Handler α) (Q : α → Ledger → Prop)
    (X : PyErr → Ledger → Prop) (w : Ledger) : Prop :=
  rules.wpE (Attended s) () p Q X w

/-- A call is served, or it is refused, or its answer is lost. -/
lemma ok_ask {o : Keys.Call} {Q : o.Answer → Ledger → Prop} {X : PyErr → Ledger → Prop}
    (hd : Drawn w o)
    (hserved : ∀ p r w', w.WellFormed → serve w o p = some (r, w') → Attended s () w o r →
      (∀ a, r = .ok a → Q a w') ∧ ∀ e, r = .error e → X e w')
    (hlost : ∀ p r w' e, w.WellFormed → serve w o p = some (r, w') → e ≠ .resourceNotFound →
      Attended s () w o (.error e) → X e w')
    (hrefused : ∀ e, e ≠ .resourceNotFound → Attended s () w o (.error e) → X e w) :
    Ok s (ask o) Q X w := by
  refine Discipline.alone_ask env env_drift (fun hw x r w' ha hok => ?_)
  rcases Env.faulty_act ha with ⟨p, r₀, hs, rfl | ⟨e, he, rfl⟩⟩ | ⟨rfl, e, he, rfl⟩
  · exact ⟨serve_wellFormed hw hd hs, hserved p r w' hw hs hok⟩
  · have hne : e ≠ .resourceNotFound := by simpa [mayFail] using he
    refine ⟨serve_wellFormed hw hd hs, ?_, ?_⟩
    · rintro a ⟨⟩
    · rintro e' ⟨⟩
      exact hlost p r₀ w' e hw hs hne hok
  · have hne : e ≠ .resourceNotFound := by simpa [mayFail] using he
    refine ⟨hw, ?_, ?_⟩
    · rintro a ⟨⟩
    · rintro e' ⟨⟩
      exact hrefused e hne hok

/-- A call that writes nothing; its postcondition has to hold in the world as it is. -/
lemma ok_read {o : Keys.Call} {Q : o.Answer → Ledger → Prop} {X : PyErr → Ledger → Prop}
    (ho : Reads o) (hQ : ∀ p a, w.WellFormed → serve w o p = some (.ok a, w) → Q a w)
    (hX : ∀ e, Attended s () w o (.error e) → X e w) : Ok s (ask o) Q X w := by
  refine ok_ask ho.drawn (fun p r w' hw hs hok => ?_) (fun p r w' e hw hs _ hok => ?_)
    (fun e _ hok => hX e hok)
  · have hsame := serve_reads ho hs
    subst hsame
    refine ⟨?_, ?_⟩
    · rintro a rfl
      exact hQ p a hw hs
    · rintro e rfl
      exact hX e hok
  · rw [serve_reads ho hs]
    exact hX e hok

/-- A call that keeps a fact, whatever becomes of it. -/
lemma ok_keep {o : Keys.Call} (hd : Drawn w o)
    (h : ∀ p r w', serve w o p = some (r, w') → P w') (hw : P w) :
    Ok s (ask o) (fun _ => P) (fun _ => P) w :=
  ok_ask hd (fun p r w' _ hs _ => ⟨fun _ _ => h p r w' hs, fun _ _ => h p r w' hs⟩)
    (fun p r w' _ _ hs _ _ => h p r w' hs) (fun _ _ _ => hw)

/-- A call about another subscription keeps what is `Local` to this one, whether it succeeds or
fails. -/
lemma ok_elsewhere {o : Keys.Call} (hP : Local s P) (hd : Drawn w o) (ho : Elsewhere s w o)
    (hw : P w) : Ok s (ask o) (fun _ => P) (fun _ => P) w :=
  ok_keep hd (fun p r w' hs => hP w o p r w' ho hs hw) hw

/-- A loop on the named value: `P` holds until it has written, `Q` afterwards. -/
lemma ok_loop {merge : LimitsMap → Except PyErr (Option LimitsMap)} {Q : Unit → Ledger → Prop}
    (hnoop : ∀ w, P w → merge w.map = .ok none → Q () w)
    (hput : ∀ w m, P w → merge w.map = .ok (some m) →
      P { w with named := w.named.write () (some (.limits m)) } ∧
      Q () { w with named := w.named.write () (some (.limits m)) })
    (hw : P w) : Ok s (readMergeWrite client merge 3) Q (fun _ => P) w := by
  refine wpE_readMergeWrite P (fun m _ w => P w ∧ m = w.map) ?_ ?_ ?_ ?_ (by decide) hw
  -- The read: the map that is merged is the map of this moment.
  · intro w hw
    refine ok_ask trivial (fun p r w' _ hs _ => ?_) (fun p r w' e _ hs hne _ => ?_)
      (fun e hne _ => ?_)
    · obtain ⟨hr, rfl⟩ := Prod.mk.inj (Option.some.inj hs)
      constructor
      · rintro nv rfl
        cases hv : w.named.value with
        | none => simp [hv] at hr
        | some text =>
            rw [hv] at hr
            cases hr
            exact ⟨hw, by simp [Ledger.map, hv]⟩
      · rintro e rfl
        cases hv : w.named.value with
        | none =>
            rw [hv] at hr
            cases hr
            rw [if_pos rfl]
            exact ⟨hw, by simp [Ledger.map, hv]⟩
        | some text => simp [hv] at hr
    · rw [if_neg hne, serve_reads (o := .getNamedValue) trivial hs]
      exact hw
    · rw [if_neg hne]
      exact hw
  · rintro m tag e w ⟨hw, -⟩ -
    exact hw
  · rintro m tag w ⟨hw, rfl⟩ hm
    exact hnoop w hw hm
  · rintro m tag m' w ⟨hw, rfl⟩ hm
    -- A write that another one has overtaken is refused by its ETag, and one that fails may have
    -- taken effect; `P` covers both.
    obtain ⟨hP, hQ⟩ := hput w m' hw hm
    refine ok_ask trivial (fun p r w' _ hs _ => ?_) (fun p r w' e _ hs _ _ => ?_)
      (fun e _ _ => ⟨hw, fun _ => hw⟩)
    · simp only [serve] at hs
      split_ifs at hs
      · cases hs
        refine ⟨?_, fun e _ => ⟨hw, fun _ => hw⟩⟩
        rintro a ⟨⟩
      · cases hs
        refine ⟨fun a _ => hQ, ?_⟩
        rintro e ⟨⟩
    · simp only [serve] at hs
      split_ifs at hs
      · cases hs
        exact ⟨hw, fun _ => hw⟩
      · cases hs
        exact ⟨hP, fun _ => hP⟩

lemma ok_swallow {p : Handler Unit} {X : PyErr → Ledger → Prop}
    (h : Ok s p (fun _ => P) (fun _ => P) w) : Ok s (Keys.swallow p) (fun _ => P) X w := by
  unfold Keys.swallow
  exact (Discipline.wpE_tryCatch _ _).2 h

/-- Closing the session keeps what the request has established, on the way out of a return and of an
exception alike. -/
lemma ok_withDb {α : Type} {p : Handler α} {Q : α → Ledger → Prop} (hQ : ∀ a w, Q a w → P w)
    (h : Ok s p Q (fun _ => P) w) : Ok s (withDb p) Q (fun _ => P) w := by
  refine Discipline.wpE_tryFinally (Discipline.wpE_mono (fun a w ha => ?_) (fun e w he => ?_) h)
  · exact ok_read trivial (fun _ _ _ _ => ha) (fun _ _ => hQ a w ha)
  · exact ok_read trivial (fun _ _ _ _ => he) (fun _ _ => he)

lemma ok_deleteSubscription {id : String} (h : P (w.setSubscription id none)) (hw : P w) :
    Ok s (Keys.deleteSubscription id) (fun _ => P) (fun _ => P) w := by
  unfold Keys.deleteSubscription
  refine (Discipline.wpE_tryCatch _ _).2 (Discipline.wpE_mono (fun _ _ h => h) (fun e w hw => ?_)
    (ok_keep trivial (fun p r w' hs => ?_) hw))
  · cases e <;> exact hw
  · cases hs
    exact h

/-- The deletion of the attended subscription.  If it succeeds the subscription is gone, and the
postcondition has to hold without it. -/
lemma ok_deleteOwn {X : PyErr → Ledger → Prop} (h : P (w.setSubscription s none)) :
    Ok s (Keys.deleteSubscription s) (fun _ => P) X w := by
  unfold Keys.deleteSubscription
  refine (Discipline.wpE_tryCatch _ _).2 (ok_ask trivial (fun p r w' _ hs hok => ?_)
    (fun p r w' e _ hs hne hok => ?_) (fun e hne hok => ?_))
  · cases hs
    refine ⟨fun _ _ => h, fun e he => ?_⟩
    have hnone : e = .resourceNotFound := by
      by_contra hne
      have hfailed := hok rfl
      rw [he] at hfailed
      simp [failed, hne] at hfailed
    subst hnone
    exact h
  · exact absurd (hok rfl) (by simp [failed, hne])
  · exact absurd (hok rfl) (by simp [failed, hne])

/-- A call that the condition lets not fail: only its success has to be considered, and the
exceptional postcondition is free. -/
lemma ok_sure {o : Keys.Call} {Q : o.Answer → Ledger → Prop} {X : PyErr → Ledger → Prop}
    (hd : Drawn w o) (hsure : ∀ r, Attended s () w o r → failed r = false)
    (hQ : ∀ p r w', serve w o p = some (r, w') → failed r = false → ∃ a, r = .ok a ∧ Q a w') :
    Ok s (ask o) Q X w := by
  have hnone : ∀ e, e ≠ .resourceNotFound → ¬ Attended s () w o (.error e) := by
    intro e hne hok
    have hfalse := hsure _ hok
    simp [failed, hne] at hfalse
  refine ok_ask hd (fun p r w' _ hs hok => ?_)
    (fun p r w' e _ _ hne hok => absurd hok (hnone e hne))
    (fun e hne hok => absurd hok (hnone e hne))
  obtain ⟨a, rfl, ha⟩ := hQ p r w' hs (hsure r hok)
  refine ⟨?_, ?_⟩
  · rintro b ⟨⟩
    exact ha
  · rintro e ⟨⟩

end Rules

/-! ## Requests about other subscriptions -/

section Others

variable {s id : String} {w : Ledger} {P : Ledger → Prop}

lemma ok_loop_elsewhere {merge : LimitsMap → Except PyErr (Option LimitsMap)} (hP : Local s P)
    (hm : ∀ m m', merge m = .ok (some m') → m'.lookup s = m.lookup s) (hw : P w) :
    Ok s (readMergeWrite client merge 3) (fun _ => P) (fun _ => P) w := by
  refine ok_loop (fun w hw _ => hw) (fun w m hw hmerge => ?_) hw
  have hkept : P { w with named := w.named.write () (some (.limits m)) } :=
    hP w (.putNamedValue m .any) ⟨"", false⟩ (.ok ()) _ (hm _ _ hmerge) rfl hw
  exact ⟨hkept, hkept⟩

lemma ok_delete_elsewhere (hP : Local s P) (hw : P w) :
    Ok s (Keys.deleteSubscription id) (fun _ => P) (fun _ => P) w :=
  ok_deleteSubscription (hP w (.deleteSubscription id) ⟨"", false⟩ _ _ trivial rfl hw) hw

lemma ok_deleteSecret (hP : Local s P) (hw : P w) {name : String} :
    Ok s (ask (.deleteSecret name)) (fun _ => P) (fun _ => P) w :=
  ok_elsewhere hP trivial trivial hw

lemma ok_publish_elsewhere {body : VirtualKeyCreate} {audit : Bool} (hP : Local s P)
    (hne : s ≠ id) (hw : P w) :
    Ok s (Keys.publishLimits id body audit) (fun _ => P) (fun _ => P) w := by
  unfold Keys.publishLimits
  refine (Discipline.wpE_tryCatch _ _).2 ?_
  have hcomp : ∀ (exc : PyErr) w, P w → Ok s (do
      Keys.swallow (Keys.deleteSubscription id)
      Keys.swallow (ask (.deleteSecret (Keys.subscriptionKeyName id)))
      throw (.http 502 ("failed to apply key limits: " ++ exc.text)) : Handler Unit)
      (fun _ => P) (fun _ => P) w := by
    intro exc w hw
    refine Discipline.wpE_then (ok_swallow (ok_delete_elsewhere hP hw)) (fun _ w hw => ?_)
    exact (Discipline.wpE_bind _ _).2 (ok_swallow (ok_deleteSecret hP hw))
  refine (Discipline.wpE_bind _ _).2 (Discipline.wpE_mono (fun _ w hw => ?_) hcomp
    (ok_loop_elsewhere hP (fun m m' hm => (lookup_upsertMerge hm).1 s hne) hw))
  split_ifs
  · unfold setAuditFlag
    rw [if_neg (by simp)]
    refine Discipline.wpE_mono (fun _ _ h => h) hcomp (ok_loop_elsewhere hP (fun m m' hm => ?_) hw)
    rw [← Option.getD_some (a := m') (b := m), auditMerge_eq_ok hm,
      lookup_foldl_flagEntry_of_notMem (by simpa using hne)]
  · exact hw

lemma ok_suspendKey {keyId : String} (hP : Local s P) (hw : P w) :
    Ok s (Keys.suspendKey keyId) (fun _ => P) (fun _ => P) w := by
  unfold Keys.suspendKey
  refine (Discipline.wpE_bind _ _).2 (ok_read trivial (fun p row _ _ => ?_) (fun _ _ => hw))
  cases row with
  | none => exact hw
  | some vk =>
      have hstatus : ∀ w, P w → Ok s (do
          ask (.commitKeyStatus keyId .suspended)
          ask (.refreshKey keyId)) (fun _ => P) (fun _ => P) w := by
        intro w hw
        refine Discipline.wpE_then (ok_elsewhere hP trivial trivial hw) (fun _ w hw => ?_)
        exact ok_elsewhere hP trivial trivial hw
      dsimp only
      cases vk.subscription with
      | none => exact hstatus w hw
      | some id =>
          refine Discipline.wpE_then ?_ (fun _ w hw => hstatus w hw)
          unfold Keys.setSubscriptionState
          refine (Discipline.wpE_bind _ _).2 ((Discipline.wpE_tryCatch _ _).2
            ((Discipline.wpE_bind _ _).2 (ok_read trivial (fun _ _ _ _ => ?_) (fun e _ => ?_))))
          · exact ok_elsewhere hP trivial (by simp [Elsewhere]) hw
          · cases e <;> exact hw

end Others

/-! ## The creation of the subscription -/

section Creation

variable {s : String} {w : Ledger} {X : PyErr → Ledger → Prop}

/-- The entry that is written for a key with limits is not dropped as empty. -/
lemma published_upsert {m m' : LimitsMap} {tpm : Option ℤ} {tier : Option TokenQuotaTier}
    {period : Option TokenQuotaPeriod}
    (h : upsertMerge s tpm (tier.map TokenQuotaTier.value) (period.map TokenQuotaPeriod.value) m =
      .ok (some m')) : Published m' s tpm tier period := by
  intro hlim
  unfold upsertMerge at h
  cases hm : mergeKeyLimit m s tpm (tier.map TokenQuotaTier.value)
      (period.map TokenQuotaPeriod.value) with
  | error e =>
      rw [hm] at h
      cases h
  | ok out =>
      rw [hm] at h
      cases h
      obtain ⟨rfl, -⟩ := mergeKeyLimit_eq_ok hm
      rw [lookup_store, if_pos rfl, if_neg]
      · exact ⟨_, rfl, rfl, rfl, rfl⟩
      · intro hempty
        rcases hlim with htpm | htier
        · simp only [Entry.empty, Entry.mk.injEq] at hempty
          simp [hempty.1] at htpm
        · simp only [Entry.empty, Entry.mk.injEq] at hempty
          cases tier with
          | none => simp [hasTier] at htier
          | some t => cases t <;> simp_all [hasTier, TokenQuotaTier.value]

/-- Setting the audit flag leaves the limits of the entry alone. -/
lemma published_flag {m : LimitsMap} {tpm : Option ℤ} {tier : Option TokenQuotaTier}
    {period : Option TokenQuotaPeriod} (h : Published m s tpm tier period) :
    Published ([s].foldl (flagEntry true) m) s tpm tier period := by
  intro hlim
  obtain ⟨e, he, ht, hqt, hp⟩ := h hlim
  refine ⟨{ e with a := some 1 }, ?_, ht, hqt, hp⟩
  simp only [List.foldl_cons, List.foldl_nil, flagEntry, he]
  rw [lookup_store, if_pos rfl, if_neg]
  · rfl
  · simp [Entry.empty]

lemma ok_createOwn {name : String} (hused : s ∈ w.usedIds) :
    Ok s (Keys.createSubscription s name) (fun _ w => s ∈ w.usedIds) X w := by
  unfold Keys.createSubscription
  have hcreated : Ok s (ask (.createSubscription s name))
      (fun _ w => s ∈ w.usedIds ∧ (w.subscriptions s).isSome = true) X w := by
    refine ok_sure trivial (fun r hok => hok rfl) (fun p r w' hs _ => ?_)
    cases hs
    exact ⟨(), rfl, hused, by simp [Ledger.setSubscription]⟩
  refine Discipline.wpE_then hcreated (fun _ w hw => ?_)
  refine (Discipline.wpE_bind _ _).2 (ok_sure trivial (fun r hok => hok rfl)
    (fun p r w' hs _ => ?_))
  cases hs
  rw [if_pos hw.2]
  exact ⟨_, rfl, hw.1⟩

/-- The limits are published, or the subscription is deleted again. -/
lemma ok_publishOwn {body : VirtualKeyCreate} {audit : Bool} (hused : s ∈ w.usedIds) :
    Ok s (Keys.publishLimits s body audit)
      (fun _ w => s ∈ w.usedIds ∧
        Published w.map s body.tokensPerMinute body.tokenQuotaTier body.tokenQuotaPeriod)
      (fun _ => NoGhost s) w := by
  unfold Keys.publishLimits
  refine (Discipline.wpE_tryCatch _ _).2 ?_
  have hcomp : ∀ (exc : PyErr) w, s ∈ w.usedIds → Ok s (do
      Keys.swallow (Keys.deleteSubscription s)
      Keys.swallow (ask (.deleteSecret (Keys.subscriptionKeyName s)))
      throw (.http 502 ("failed to apply key limits: " ++ exc.text)) : Handler Unit)
      (fun _ w => s ∈ w.usedIds ∧
        Published w.map s body.tokensPerMinute body.tokenQuotaTier body.tokenQuotaPeriod)
      (fun _ => NoGhost s) w := by
    intro exc w hused
    have hdead : Dead s (w.setSubscription s none) :=
      ⟨hused, by simp [Active, Ledger.setSubscription]⟩
    refine Discipline.wpE_then (ok_swallow (P := Dead s) (ok_deleteOwn hdead)) (fun _ w hw => ?_)
    exact Discipline.wpE_then (ok_swallow (ok_deleteSecret (dead_local s) hw))
      (fun _ w hw => hw.noGhost)
  have hupsert : Ok s (upsertKeyLimits client s body.tokensPerMinute
      (body.tokenQuotaTier.map TokenQuotaTier.value)
      (body.tokenQuotaPeriod.map TokenQuotaPeriod.value))
      (fun _ w => s ∈ w.usedIds ∧
        Published w.map s body.tokensPerMinute body.tokenQuotaTier body.tokenQuotaPeriod)
      (fun _ w => s ∈ w.usedIds) w :=
    ok_loop (P := fun w => s ∈ w.usedIds) (fun w _ hm => absurd hm upsertMerge_ne_none)
      (fun w m hused hm => ⟨hused, hused, published_upsert hm⟩) hused
  refine (Discipline.wpE_bind _ _).2 (Discipline.wpE_mono (fun _ w hw => ?_) hcomp hupsert)
  split_ifs
  · unfold setAuditFlag
    rw [if_neg (by simp)]
    refine Discipline.wpE_mono (fun _ _ h => h) (fun exc w h => hcomp exc w h.1)
      (ok_loop (fun w hw _ => hw) (fun w m hw hm => ?_) hw)
    have hout := auditMerge_eq_ok hm
    rw [Option.getD_some] at hout
    have hpub : s ∈ w.usedIds ∧
        Published m s body.tokensPerMinute body.tokenQuotaTier body.tokenQuotaPeriod :=
      ⟨hw.1, hout ▸ published_flag hw.2⟩
    exact ⟨hpub, hpub⟩
  · exact hw

/-- The row is inserted, and the subscription is attributed: with the limits published before,
nothing is missing and no ghost is left. -/
lemma ok_insertOwn {vk : VirtualKey} (hid : vk.id = s) (hsub : vk.subscription = some s)
    (hused : s ∈ w.usedIds)
    (hpub : Published w.map s vk.tokensPerMinute vk.tokenQuotaTier vk.tokenQuotaPeriod) :
    Ok s (ask (.insertKey vk)) (fun _ => NoGhost s) X w := by
  have hd : Drawn w (.insertKey vk) := by
    refine ⟨hid ▸ hused, fun s' hs' => ?_⟩
    obtain rfl : s = s' := Option.some.inj (hsub.symm.trans hs')
    exact hused
  refine ok_sure hd (fun r hok => hok hid) (fun p r w' hs hr => ?_)
  simp only [serve] at hs
  split_ifs at hs
  · cases hs
    simp [failed] at hr
  · cases hs
    exact ⟨(), rfl, fun _ _ => ⟨vk, List.mem_append_right _ (List.mem_singleton.2 rfl), hsub, hpub⟩⟩

end Creation

/-! ## The three requests -/

section Handlers

variable {s : String} {w : Ledger} {P : Ledger → Prop}

/-- The draw of an id.  Where it is this very subscription that is drawn, it was in no use before,
and `hown` gives `P` back from `NoGhost`. -/
lemma ok_newId (hP : Local s P)
    (hown : ∀ w, P w → s ∉ w.usedIds → ∀ w', NoGhost s w' → P w') (hw : P w) :
    Ok s (ask .newId) (fun hex w' => P w' ∧ "vk_" ++ hex ∈ w'.usedIds ∧
      ("vk_" ++ hex = s → ∀ w', NoGhost s w' → P w')) (fun _ => P) w := by
  refine ok_ask trivial (fun p r w' _ hs _ => ?_) (fun p r w' e _ hs _ _ => ?_) (fun _ _ _ => hw)
  · have hkept : P w' := hP w .newId p r w' trivial hs hw
    simp only [serve] at hs
    split_ifs at hs with hfresh
    cases hs
    refine ⟨?_, fun _ _ => hkept⟩
    rintro hex ⟨⟩
    refine ⟨hkept, List.mem_cons_self, ?_⟩
    rintro rfl
    exact hown w hw (not_or.1 hfresh).1
  · exact hP w .newId p r w' trivial hs hw

/-- The creation of another subscription, and the read of its key, are not about this one. -/
lemma ok_createSubscription_elsewhere (hP : Local s P) {id name : String} (hid : id ≠ s)
    (hw : P w) : Ok s (Keys.createSubscription id name) (fun _ => P) (fun _ => P) w := by
  unfold Keys.createSubscription
  refine Discipline.wpE_then (ok_elsewhere hP trivial hid hw) (fun _ w hw => ?_)
  exact (Discipline.wpE_bind _ _).2 (ok_elsewhere hP trivial trivial hw)

/-- Either the new key is another one, or it is the creation of this subscription. -/
lemma ok_createKey {body : VirtualKeyCreate} (hP : Local s P)
    (hown : ∀ w, P w → s ∉ w.usedIds → ∀ w', NoGhost s w' → P w') (hw : P w) :
    Ok s (Keys.createKey body) (fun _ => P) (fun _ => P) w := by
  unfold Keys.createKey
  refine (Discipline.wpE_bind _ _).2 (ok_read trivial (fun p row _ _ => ?_) (fun _ _ => hw))
  cases row with
  | none => exact hw
  | some project =>
      refine (Discipline.wpE_bind _ _).2 (ok_read trivial (fun p row _ _ => ?_) (fun _ _ => hw))
      cases row with
      | none => exact hw
      | some tenant =>
          refine Discipline.wpE_guard (fun _ => hw) (fun _ => ?_)
          refine Discipline.wpE_then (ok_newId hP hown hw) (fun (hex : String) w hw => ?_)
          obtain ⟨hw, hused, hfresh⟩ := hw
          have hsub : (some ("vk_" ++ hex)).filter (fun s => s ≠ "") = some ("vk_" ++ hex) := by
            simp
          by_cases hs : s = "vk_" ++ hex
          -- The request that creates this subscription: it publishes the secret and the limits
          -- before the row, and switches nothing on earlier.
          · have hback := hfresh hs.symm
            rw [← hs] at hused hsub ⊢
            refine Discipline.wpE_mono (fun _ w hw => hback w hw) (fun _ w hw => hback w hw) ?_
            refine Discipline.wpE_then (ok_createOwn hused) (fun keyValue w hused => ?_)
            have hsecret : Ok s (ask (.setSecret (Keys.subscriptionKeyName s) keyValue))
                (fun _ w => s ∈ w.usedIds) (fun _ => NoGhost s) w := by
              refine ok_sure trivial (fun r hok => hok rfl) (fun p r w' hs _ => ?_)
              cases hs
              exact ⟨_, rfl, hused⟩
            refine Discipline.wpE_then hsecret (fun kvRef w hused => ?_)
            refine Discipline.wpE_then (ok_publishOwn hused) (fun _ w hw => ?_)
            refine Discipline.wpE_then (ok_insertOwn rfl hsub hw.1 hw.2) (fun _ w hw => ?_)
            exact (Discipline.wpE_bind _ _).2 (ok_elsewhere (noGhost_local s) trivial trivial hw)
          -- A request for another subscription: none of its calls is about this one.
          · have hlocal : Local s (fun w => P w ∧ "vk_" ++ hex ∈ w.usedIds) :=
              fun w o p r w' ho h hw => ⟨hP w o p r w' ho h hw.1,
                used_local s _ w o p r w' ho h hw.2⟩
            have hne : "vk_" ++ hex ≠ s := fun h => hs h.symm
            refine Discipline.wpE_mono (fun _ w hw => hw.1) (fun _ w hw => hw.1) (?_ :
              Ok s _ (fun _ w => P w ∧ "vk_" ++ hex ∈ w.usedIds)
                (fun _ w => P w ∧ "vk_" ++ hex ∈ w.usedIds) w)
            refine Discipline.wpE_then (ok_createSubscription_elsewhere hlocal hne ⟨hw, hused⟩)
              (fun keyValue w hw => ?_)
            refine Discipline.wpE_then (ok_elsewhere hlocal trivial trivial hw)
              (fun kvRef w hw => ?_)
            refine Discipline.wpE_then (ok_publish_elsewhere hlocal hs hw) (fun _ w hw => ?_)
            have hd : ∀ vk : VirtualKey, vk.id = "vk_" ++ hex →
                vk.subscription = some ("vk_" ++ hex) → Drawn w (.insertKey vk) := by
              rintro vk hid hvk
              refine ⟨hid ▸ hw.2, fun x hx => ?_⟩
              obtain rfl : "vk_" ++ hex = x := Option.some.inj (hvk.symm.trans hx)
              exact hw.2
            refine Discipline.wpE_then (ok_elsewhere hlocal (hd _ rfl hsub) trivial hw)
              (fun _ w hw => ?_)
            exact (Discipline.wpE_bind _ _).2 (ok_elsewhere hlocal trivial trivial hw)

/-- The end of a deletion: the secret and the row go. -/
lemma ok_removeRow {R S : Ledger → Prop} {name id : String}
    (hdelete : ∀ w, R w → S { w with keys := w.keys.filter (fun k => k.id ≠ id) })
    (hkeep : ∀ w, R w → S w) (hw : R w) : Ok s (do
      Keys.swallow (ask (.deleteSecret name))
      ask (.deleteKey id)) (fun _ => S) (fun _ => S) w := by
  have hsecret : Ok s (ask (.deleteSecret name)) (fun _ => R) (fun _ => R) w :=
    ok_read trivial (fun _ _ _ _ => hw) (fun _ _ => hw)
  refine Discipline.wpE_then (ok_swallow hsecret) (fun _ w hw => ?_)
  refine ok_ask trivial (fun p r w' _ hs _ => ?_) (fun p r w' e _ hs _ _ => ?_)
    (fun _ _ _ => hkeep w hw)
  · cases hs
    exact ⟨fun _ _ => hdelete w hw, fun _ _ => hdelete w hw⟩
  · cases hs
    exact hdelete w hw

/-- The key of the subscription is deleted: whatever follows, the subscription is off. -/
lemma ok_deleteKey_own {id : String} {vk : VirtualKey} (hfind : w.findKey id = some vk)
    (hsub : vk.subscription = some s) (hdead : ∀ w, Dead s w → P w) (hw : P w) :
    Ok s (Keys.deleteKey id) (fun _ => Dead s) (fun _ => P) w := by
  unfold Keys.deleteKey
  refine (Discipline.wpE_bind _ _).2 (ok_read trivial (fun p row hwf hs => ?_) (fun _ _ => hw))
  cases hs
  rw [hfind]
  dsimp only
  rw [hsub]
  have hused : s ∈ w.usedIds := hwf.subs vk (findKey_unique hwf hfind).1 s hsub
  have hoff : Dead s (w.setSubscription s none) :=
    ⟨hused, by simp [Active, Ledger.setSubscription]⟩
  refine Discipline.wpE_mono (fun _ w hw => hw) (fun _ w hw => hdead w hw) ?_
  refine Discipline.wpE_then (ok_swallow (P := Dead s) (ok_deleteOwn hoff)) (fun _ w hw => ?_)
  refine Discipline.wpE_then (ok_swallow (P := Dead s) (ok_loop (fun _ hw _ => hw)
    (fun w m hw _ => ⟨hw, hw⟩) hw)) (fun _ w hw => ?_)
  exact ok_removeRow (fun w hw => hw) (fun w hw => hw) hw

/-- A key that does not have the subscription is deleted. -/
lemma ok_deleteKey_other {id : String} (hP : Local s P)
    (hother : ∀ k ∈ w.keys, k.id = id → k.subscription ≠ some s) (hw : P w) :
    Ok s (Keys.deleteKey id) (fun _ => P) (fun _ => P) w := by
  unfold Keys.deleteKey
  refine (Discipline.wpE_bind _ _).2 (ok_read trivial (fun p row hwf hs => ?_) (fun _ _ => hw))
  cases hs
  cases hfind : w.findKey id with
  | none => exact hw
  | some vk =>
      set R : Ledger → Prop := fun w =>
        P w ∧ ∀ k ∈ w.keys, k.id = id → k.subscription ≠ some s with hR
      have hvk : vk.subscription ≠ some s :=
        hother vk (findKey_unique hwf hfind).1 (findKey_unique hwf hfind).2.1
      have hrow : ∀ w, R w → Ok s (do
          Keys.swallow (ask (.deleteSecret (Keys.subscriptionKeyName id)))
          ask (.deleteKey id)) (fun _ => P) (fun _ => P) w := by
        intro w hw
        refine ok_removeRow (R := R) (fun w hw => ?_) (fun w hw => hw.1) hw
        exact hP w (.deleteKey id) ⟨"", false⟩ (.ok ()) _ hw.2 rfl hw.1
      dsimp only
      cases hsub : vk.subscription with
      | none => exact hrow w ⟨hw, hother⟩
      | some s' =>
          have hne : s ≠ s' := fun h => hvk (h ▸ hsub)
          have hdelete : Ok s (Keys.deleteSubscription s') (fun _ => R) (fun _ => R) w := by
            refine ok_deleteSubscription ⟨?_, hother⟩ ⟨hw, hother⟩
            exact hP w (.deleteSubscription s') ⟨"", false⟩ _ _ trivial rfl hw
          have hlimits : ∀ w, R w →
              Ok s (removeKeyLimits client s') (fun _ => R) (fun _ => R) w := by
            intro w hw
            refine ok_loop (fun _ hw _ => hw) (fun w m hw hm => ?_) hw
            have hm' : m.lookup s = w.map.lookup s := by
              rw [removeMerge_eq_ok hm, removeKeyLimit, Finmap.lookup_erase_ne hne]
            have hkept : R { w with named := w.named.write () (some (.limits m)) } :=
              ⟨hP w (.putNamedValue m .any) ⟨"", false⟩ (.ok ()) _ hm' rfl hw.1, hw.2⟩
            exact ⟨hkept, hkept⟩
          refine Discipline.wpE_then (ok_swallow hdelete) (fun _ w hw => ?_)
          exact Discipline.wpE_then (ok_swallow (hlimits w hw)) (fun _ w hw => hrow w hw)

lemma ok_deleteKey {id : String} (hwf : w.WellFormed) (hP : Local s P)
    (hdead : ∀ w, Dead s w → P w) (hw : P w) :
    Ok s (Keys.deleteKey id) (fun _ => P) (fun _ => P) w := by
  by_cases hother : ∀ k ∈ w.keys, k.id = id → k.subscription ≠ some s
  · exact ok_deleteKey_other hP hother hw
  · push Not at hother
    obtain ⟨k, hk, rfl, hsub⟩ := hother
    have hfind : w.findKey k.id = some k := by
      cases hfound : w.findKey k.id with
      | none => exact absurd (List.mem_map_of_mem hk) (findKey_none (by simp [hfound]))
      | some vk => rw [(findKey_unique hwf hfound).2.2 k hk rfl]
    exact Discipline.wpE_mono (fun _ w hw => hdead w hw) (fun _ _ h => h)
      (ok_deleteKey_own hfind hsub hdead hw)

/-- Every request keeps what is local and what the end of the subscription brings about. -/
lemma ok_request (q : Request) (hwf : w.WellFormed) (hP : Local s P)
    (hown : ∀ w, P w → s ∉ w.usedIds → ∀ w', NoGhost s w' → P w')
    (hdead : ∀ w, Dead s w → P w) (hw : P w) :
    Ok s q.handler (fun _ => P) (fun _ => P) w := by
  cases q with
  | create body =>
      exact ok_withDb (fun _ _ h => h) ((Discipline.wpE_bind _ _).2 (ok_createKey hP hown hw))
  | suspend id =>
      exact ok_withDb (fun _ _ h => h) ((Discipline.wpE_bind _ _).2 (ok_suspendKey hP hw))
  | delete id => exact ok_withDb (fun _ _ h => h) (ok_deleteKey hwf hP hdead hw)

end Handlers

/-! ## Every sequence of requests -/

/-- The requests, one after the other. -/
abbrev Run (ok : StepCond keysApi Unit Ledger) :
    Turn keysApi Ledger (Except PyErr Unit) → Turn keysApi Ledger (Except PyErr Unit) → Prop :=
  Turn.Reaches env ok (fun q : Request => q.handler.run) (fun _ _ => True)

/-- A property that every request keeps holds between requests.  Requests about other subscriptions
keep it because it is `Local`; the creation and the deletion of this one are the two remaining
cases. -/
lemma holds_between {s : String} {P : Ledger → Prop} (hP : Local s P)
    (hown : ∀ w, P w → s ∉ w.usedIds → ∀ w', NoGhost s w' → P w')
    (hdead : ∀ w, Dead s w → P w) {w : Ledger} (hwf : w.WellFormed) (hw : P w)
    {t : Turn keysApi Ledger (Except PyErr Unit)} (h : Run (Attended s) (idle w) t) :
    t.world.WellFormed ∧ (t.Idle → P t.world) := by
  have hreq : ∀ (q : Request) w, rules.inv w → P w → True →
      rules.wp (Attended s) () q.handler.run (fun _ => P) w := by
    refine fun q w hwf hw _ => Discipline.wp_mono (fun r w hr => ?_)
      (ok_request q hwf hP hown hdead hw)
    cases r <;> exact hr
  exact ⟨(Turn.sound (t := idle w) hreq hwf ⟨_, rfl⟩ hw h).1,
    fun hidle => Turn.sound_idle (t := idle w) hreq hwf ⟨_, rfl⟩ hw h hidle⟩

lemma dead_between {s : String} {w : Ledger} (hwf : w.WellFormed) (hw : Dead s w)
    {t : Turn keysApi Ledger (Except PyErr Unit)} (h : Run (Attended s) (idle w) t)
    (hidle : t.Idle) : ¬ Active s t.world :=
  ((holds_between (dead_local s) (fun _ hw hnot => absurd hw.1 hnot) (fun _ h => h) hwf hw h).2
    hidle).2

/-- **No ghost keys.**  While none of the calls that make or unmake a subscription fails, it is
active between requests only if a row has it, with the limits that the row asks for; and a deletion
of its key that has answered has switched it off for good. -/
theorem no_ghost_keys (s : String) {w : Ledger} (hwf : w.WellFormed) (hw : NoGhost s w)
    {t : Turn keysApi Ledger (Except PyErr Unit)} (h : Run (Attended s) (idle w) t)
    (hidle : t.Idle) :
    NoGhost s t.world ∧
    ∀ id vk w', t.world.findKey id = some vk → vk.subscription = some s →
      Turn.Answers env (Attended s) (Request.delete id).handler.run t.world (.ok ()) w' →
      ¬ Active s w' ∧ ∀ t', Run (Attended s) (idle w') t' → t'.Idle → ¬ Active s t'.world := by
  obtain ⟨hwf', hbetween⟩ := holds_between (noGhost_local s) (fun _ _ _ _ h => h)
    (fun _ h => h.noGhost) hwf hw h
  refine ⟨hbetween hidle, fun id vk w' hfind hsub hanswers => ?_⟩
  have hdelete : Ok s (Request.delete id).handler (fun _ => Dead s) (fun _ => NoGhost s) t.world :=
    ok_withDb (fun _ _ h => h.noGhost)
      (ok_deleteKey_own hfind hsub (fun _ h => h.noGhost) (hbetween hidle))
  obtain ⟨hwf'', hdead⟩ := Turn.answers_sound (D := rules) hwf' hdelete hanswers
  exact ⟨hdead.2, fun t' h' hidle' => dead_between hwf'' hdead h' hidle'⟩

/-! ## A key whose subscription cannot be deleted -/

section Ghost

/-- A tenant with a product and a project, and no keys. -/
def acme : Ledger where
  tenants id := if id = "tn_1" then some ⟨"tn_1", "acme", .internal, ["product"], false⟩ else none
  projects id := if id = "pj_1" then some ⟨"pj_1", "tn_1", "search"⟩ else none
  keys := []
  subscriptions _ := none
  named := ⟨some (.limits ∅), []⟩
  usedIds := []

lemma acme_wellFormed : acme.WellFormed := ⟨by decide, by decide, nofun⟩

lemma acme_noGhost (s : String) : NoGhost s acme := nofun

/-- A call that is served, with the drawn id where it draws one. -/
def ok : Fate Pick PyErr := .served ⟨"a1", true⟩

lemma issue_tpm_bounds : ∀ n ∈ some (100 : ℤ), 0 < n ∧ n ≤ 100000000 := by decide

lemma issue_quota_pair : hasTier none = (none : Option TokenQuotaPeriod).isSome := rfl

def issue : Request := .create ⟨"pj_1", some 100, none, none, issue_tpm_bounds, issue_quota_pair⟩

/-- The key is issued: project, tenant, id, subscription and its key, secret, limits, row. -/
def issued : List (Request ⊕ Fate Pick PyErr) := .inl issue :: List.replicate 11 (.inr ok)

/-- The deletion of a key, with what becomes of the deletion of its subscription. -/
def deletion (subscription : Fate Pick PyErr) : List (Fate Pick PyErr) :=
  [ok, subscription, ok, ok, ok, ok, ok]

/-- The key that was issued is no ghost, and its subscription is off once it is deleted. -/
theorem no_ghost_keys_issued :
    ∃ t w', Run (Attended "vk_a1") (idle acme) t ∧ Active "vk_a1" t.world ∧
      Attributed "vk_a1" t.world ∧
      Turn.Answers env (Attended "vk_a1") (Request.delete "vk_a1").handler.run t.world (.ok ()) w' ∧
      ¬ Active "vk_a1" w' := by
  obtain ⟨t, hrun, hidle, hused, hactive, hrow, hserved⟩ := Turn.reaches_of_play env
    (Attended "vk_a1") (fun q : Request => q.handler.run) (fun _ _ => True) (idle acme) issued
    (fun t => t.Idle ∧ "vk_a1" ∈ t.world.usedIds ∧ Active "vk_a1" t.world ∧
      (t.world.findKey "vk_a1").any (fun vk => vk.subscription = some "vk_a1") = true ∧
      (Turn.serveAll env (Attended "vk_a1") (Request.delete "vk_a1").handler.run t.world
        (deletion ok)).any (fun r => r.1.isOk) = true) (by decide +kernel)
  obtain ⟨hnone, hoff⟩ := no_ghost_keys "vk_a1" acme_wellFormed (acme_noGhost _) hrun hidle
  obtain ⟨vk, hfind, hsub⟩ := (Option.any_eq_true _ _).1 hrow
  obtain ⟨⟨r, w'⟩, hserve, hok⟩ := (Option.any_eq_true _ _).1 hserved
  cases r with
  | error e => cases hok
  | ok answer =>
      have hanswers := Turn.answers_of_serveAll hserve
      exact ⟨t, w', hrun, hactive, hnone hused hactive, hanswers,
        (hoff "vk_a1" vk w' hfind (by simpa using hsub) hanswers).1⟩

/-- The gateway refuses to delete the subscription.  The deletion of the key answers, the row is
gone, and the subscription is active. -/
theorem ghost_key :
    (¬ ∀ (s : String) (w : Ledger), w.WellFormed → NoGhost s w →
      ∀ t, Run anyStep (idle w) t → t.Idle → NoGhost s t.world) ∧
    (¬ ∀ (s : String) (w : Ledger), w.WellFormed → NoGhost s w →
      ∀ t, Run anyStep (idle w) t → t.Idle → ∀ id vk w', t.world.findKey id = some vk →
        vk.subscription = some s →
        Turn.Answers env anyStep (Request.delete id).handler.run t.world (.ok ()) w' →
        ¬ Active s w') := by
  constructor
  · intro hclaim
    obtain ⟨t, hrun, hidle, hused, hactive, hnone⟩ := Turn.reaches_of_play env anyStep
      (fun q : Request => q.handler.run) (fun _ _ => True) (idle acme)
      (issued ++ .inl (.delete "vk_a1") :: (deletion (.refused .external)).map .inr)
      (fun t => t.Idle ∧ "vk_a1" ∈ t.world.usedIds ∧ Active "vk_a1" t.world ∧
        t.world.keys.isEmpty = true) (by decide +kernel)
    obtain ⟨k, hk, -⟩ := hclaim "vk_a1" acme acme_wellFormed (acme_noGhost _) t hrun hidle hused
      hactive
    rw [List.isEmpty_iff.1 hnone] at hk
    cases hk
  · intro hclaim
    obtain ⟨t, hrun, hidle, hrow, hanswers⟩ := Turn.reaches_of_play env anyStep
      (fun q : Request => q.handler.run) (fun _ _ => True) (idle acme) issued
      (fun t => t.Idle ∧ (t.world.findKey "vk_a1").any
          (fun vk => vk.subscription = some "vk_a1") = true ∧
        (Turn.serveAll env anyStep (Request.delete "vk_a1").handler.run t.world
          (deletion (.refused .external))).any (fun r => r.1.isOk && decide (Active "vk_a1" r.2)) =
            true) (by decide +kernel)
    obtain ⟨vk, hfind, hsub⟩ := (Option.any_eq_true _ _).1 hrow
    obtain ⟨⟨r, w'⟩, hserve, hactive⟩ := (Option.any_eq_true _ _).1 hanswers
    cases r with
    | error e => simp [Except.isOk, Except.toBool] at hactive
    | ok answer =>
        refine hclaim "vk_a1" acme acme_wellFormed (acme_noGhost _) t hrun hidle "vk_a1" vk w' hfind
          (by simpa using hsub) (Turn.answers_of_serveAll hserve) ?_
        simpa [Except.isOk, Except.toBool] using hactive

end Ghost

end KeyLedger
end TokenFoundry
