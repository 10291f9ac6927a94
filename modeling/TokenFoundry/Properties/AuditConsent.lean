import TokenFoundry.Properties.AuditWorld

/-!
# When the gateway and the tenant row agree on auditing

A tenant's consent to auditing is stored twice: in the tenant row, and as the flag `a` of each
of its keys in the limits map.  `create_key` and `update_tenant` each read what the other one
writes, and nothing keeps them apart.  A key that is created while its tenant's flag is being
switched keeps the old flag (`consent_disagrees`).

`consent_agrees` says that these races are all there is.  In every run in which

* a key row is committed only while its tenant's `audit_enabled` is still what the request has
  read and no request is between listing that tenant's keys and recording the new flag,
* a request lists a tenant's keys only while no other request is in that stretch for the tenant,
* an unconditional write of the named value finds the version its client has read,

the two agree for every key of every tenant whenever no request is in progress.
-/

set_option autoImplicit false

namespace TokenFoundry
namespace Keys

open KeyLimits

variable {ι : Type}

/-- The races are avoided: see the head of this module. -/
def Undisturbed (projects : String → Option Project) : StepCond keysApi ι (World ι)
  | i, w, .insertKey vk, _ =>
      ∀ t ∈ owner projects vk, (w.session i).loaded = (w.tenants t).map Tenant.auditEnabled ∧
        ∀ j, (w.session j).pushing ≠ some t
  | i, w, .listSubscriptions t, _ => ∀ j, j ≠ i → (w.session j).pushing ≠ some t
  | i, w, .putNamedValue _ .any, _ => (w.session i).seen = w.named.version
  | _, _, _, _ => True

instance [Fintype ι] [DecidableEq ι] (projects : String → Option Project) (i : ι) (w : World ι)
    (o : Call)
    (r : keysApi.Reply o) : Decidable (Undisturbed projects i w o r) :=
  match o with
  | .insertKey vk => inferInstanceAs (Decidable (∀ t ∈ owner projects vk, _ ∧ _))
  | .listSubscriptions _ => inferInstanceAs (Decidable (∀ _, _))
  | .putNamedValue _ .any => inferInstanceAs (Decidable (_ = _))
  | .putNamedValue _ (.tag _) | .getProject _ | .getTenant _ | .getKey _ | .commitKeyStatus _ _
  | .deleteKey _ | .refreshKey _ | .commitTenant _ _ | .refreshTenant _ | .close | .newId
  | .createSubscription _ _ | .subscriptionSecret _ | .getSubscription _
  | .setSubscriptionState _ _ | .deleteSubscription _ | .setSecret _ _ | .deleteSecret _
  | .getNamedValue => isTrue trivial

/-! ## The rules for calls -/

section Rules

variable [DecidableEq ι] {projects : String → Option Project} {i : ι} {w : World ι} {α : Type}

abbrev Safe (projects : String → Option Project) (i : ι) (p : Handler α)
    (Q : α → World ι → Prop) (X : PyErr → World ι → Prop) (w : World ι) : Prop :=
  (discipline projects).wpE (Undisturbed projects) i p Q X w

/-- The rule for a call: the step has to keep the invariant and what the others rely on, and its
answer decides which postcondition is owed. -/
lemma safe_ask {o : Call} {Q : o.Answer → World ι → Prop} {X : PyErr → World ι → Prop}
    (h : ∀ w₁, Rely projects i w w₁ → Inv projects w₁ → ∀ p r w₂,
      serve projects i w₁ o p = some (r, w₂) → Undisturbed projects i w₁ o r →
      Kept projects i w₁ w₂ ∧ (∀ a, r = .ok a → Q a w₂) ∧ (∀ e, r = .error e → X e w₂)) :
    Safe projects i (ask o) Q X w := by
  refine Discipline.wpE_ask (fun w₁ hR hI => ⟨trivial, fun p r w₂ ha hok => ?_⟩)
  obtain ⟨⟨hI₂, hG⟩, hQ, hX⟩ := h w₁ hR hI p r w₂ ha hok
  exact ⟨hI₂, hG, hQ, hX⟩

/-- A fact that survives the steps of the others, so that it may be carried over a call. -/
def Lasting (projects : String → Option Project) (i : ι) (P : World ι → Prop) : Prop :=
  ∀ w w', Rely projects i w w' → P w → P w'

/-- A call that changes nothing in this world keeps every fact that lasts. -/
lemma safe_same {o : Call} {P : World ι → Prop} (hP : Lasting projects i P)
    (ho : ∀ (w : World ι) p r w', serve projects i w o p = some (r, w') → w' = w) (hw : P w) :
    Safe projects i (ask o) (fun _ w => P w) (fun _ w => P w) w := by
  refine safe_ask (fun w₁ hR hI p r w₂ hs _ => ?_)
  have hw₂ := ho w₁ p r w₂ hs
  subst hw₂
  have hP₁ := hP w w₂ hR hw
  exact ⟨⟨hI, fun j _ => Rely.refl j _⟩, fun _ _ => hP₁, fun _ _ => hP₁⟩

/-- What a request knows between its read and its write of the named value. -/
def SeenMap (projects : String → Option Project) (i : ι) (P : World ι → Prop) (m : LimitsMap)
    (tag : Option ℕ) (w : World ι) : Prop :=
  Inv projects w ∧ P w ∧ m = w.map ∧ (w.session i).seen = w.named.version ∧
    ∀ t ∈ tag, t = w.named.version

/-- The read of the loop: what is seen is the map of this moment, and the session notes its
version. -/
lemma safe_getSeen {P : World ι → Prop} (hstable : Lasting projects i P)
    (hseen : ∀ w n, P w → P (w.note i (fun s => { s with seen := n }))) (hP : P w) :
    Safe projects i client.get (fun nv w => SeenMap projects i P nv.value.parsed nv.eTag w)
      (fun e w => if e = .resourceNotFound then SeenMap projects i P ∅ none w else P w) w := by
  refine safe_ask (fun w₁ hR hI p r w₂ hs _ => ?_)
  obtain ⟨hr, rfl⟩ := Prod.mk.inj (Option.some.inj hs)
  have hkept : Kept projects i w₁
      (w₁.note i (fun s => { s with seen := w₁.named.version })) :=
    note_kept hI _ rfl rfl rfl (fun _ h => h)
  have hseenMap : ∀ tag : Option ℕ, (∀ t ∈ tag, t = w₁.named.version) →
      SeenMap projects i P w₁.map tag
        (w₁.note i (fun s => { s with seen := w₁.named.version })) :=
    fun tag htag => ⟨hkept.1, hseen w₁ _ (hstable w w₁ hR hP), rfl,
      by rw [note_session_self]; rfl, htag⟩
  refine ⟨hkept, ?_, ?_⟩
  · rintro nv rfl
    cases hv : w₁.named.value with
    | none => simp [hv] at hr
    | some text =>
        rw [hv] at hr
        cases hr
        have hmap : w₁.map = text.parsed := by simp [World.map, hv]
        rw [← hmap]
        refine hseenMap _ (fun t ht => ?_)
        split_ifs at ht
        · exact (Option.some.inj ht).symm
        · cases ht
  · rintro e rfl
    cases hv : w₁.named.value with
    | none =>
        rw [hv] at hr
        cases hr
        have hmap : w₁.map = ∅ := by simp [World.map, hv]
        rw [if_pos rfl, ← hmap]
        exact hseenMap none (by simp)
    | some text => simp [hv] at hr

/-- The write of the loop: one that lands finds the map that was read. -/
lemma safe_putSeen {P : World ι → Prop} {Q : Unit → World ι → Prop} {F : String → Prop}
    {m m' : LimitsMap} {tag : Option ℕ} (hstable : Lasting projects i P)
    (hfree : ∀ w, Inv projects w → P w → Free projects i F w)
    (hfoot : ∀ s, ¬ F s → m'.lookup s = m.lookup s)
    (hput : ∀ w, Inv projects w → P w → w.map = m →
      Q () { w with named := w.named.write i (some (.limits m')) })
    (hw : SeenMap projects i P m tag w) :
    Safe projects i (client.put m' (tag.elim .any .tag)) Q
      (fun e w => P w ∧ (e = .httpResponse 412 → P w)) w := by
  obtain ⟨-, hP, rfl, hver, htag⟩ := hw
  refine safe_ask (fun w₁ hR hI p r w₂ hs hok => ?_)
  have hP₁ := hstable w w₁ hR hP
  have hland : w.named.version = w₁.named.version →
      Kept projects i w₁ { w₁ with named := w₁.named.write i (some (.limits m')) } ∧
        Q () { w₁ with named := w₁.named.write i (some (.limits m')) } := by
    intro hcur
    have hmap : w.map = w₁.map := by
      rw [World.map, World.map, hR.grows.named.eq_of_version hcur]
    rw [hmap] at hfoot
    exact ⟨put_kept hI (hfree w₁ hI hP₁) hfoot, hput w₁ hI hP₁ hmap.symm⟩
  -- Without an ETag the write goes through whatever is there, so the step condition is needed;
  -- with one the service itself compares.
  cases tag with
  | none =>
      obtain ⟨rfl, rfl⟩ := Prod.mk.inj (Option.some.inj hs)
      have hcur : w.named.version = w₁.named.version := by
        rw [← hver, ← hR.session]
        exact hok
      obtain ⟨hK, hQ⟩ := hland hcur
      exact ⟨hK, fun _ _ => hQ, by simp⟩
  | some t =>
      simp only [Option.elim, serve] at hs
      split_ifs at hs with hcur
      · cases hs
        obtain ⟨hK, hQ⟩ := hland (by rw [← htag t rfl, hcur.2])
        exact ⟨hK, fun _ _ => hQ, by simp⟩
      · cases hs
        exact ⟨⟨hI, fun j _ => Rely.refl j _⟩, by simp, fun _ _ => ⟨hP₁, fun _ => hP₁⟩⟩

/-- The rule for a loop on the named value that writes free subscriptions only. -/
lemma safe_loop {merge : LimitsMap → Except PyErr (Option LimitsMap)} {P : World ι → Prop}
    {Q : Unit → World ι → Prop} {F : String → Prop}
    (hstable : Lasting projects i P)
    (hseen : ∀ w n, P w → P (w.note i (fun s => { s with seen := n })))
    (hfree : ∀ w, Inv projects w → P w → Free projects i F w)
    (hfoot : ∀ m m', merge m = .ok (some m') → ∀ s, ¬ F s → m'.lookup s = m.lookup s)
    (hnoop : ∀ w, Inv projects w → P w → merge w.map = .ok none → Q () w)
    (hput : ∀ w m', Inv projects w → P w → merge w.map = .ok (some m') →
      Q () { w with named := w.named.write i (some (.limits m')) })
    (hP : P w) :
    Safe projects i (readMergeWrite client merge 3) Q (fun _ w => P w) w := by
  refine wpE_readMergeWrite P (SeenMap projects i P) ?_ ?_ ?_ ?_ (by decide) hP
  · exact fun w hP => safe_getSeen hstable hseen hP
  · rintro m tag e w ⟨-, hP, -⟩ -
    exact hP
  · rintro m tag w ⟨hI, hP, rfl, -⟩ hm
    exact hnoop w hI hP hm
  · intro m tag m' w hw hm
    exact safe_putSeen hstable hfree (hfoot m m' hm)
      (fun w hI hP hmap => hput w m' hI hP (hmap ▸ hm)) hw

/-! ## What the requests know on their way -/

/-- The id belongs to a row there is or was, and every row with this subscription is in `S`. -/
def Known (S : VirtualKey → Prop) (s : String) (w : World ι) : Prop :=
  s ∈ w.usedIds ∧ ¬ Drawn w s ∧ ∀ k ∈ w.keys, k.subscription = some s → S k

omit [DecidableEq ι] in
lemma Known.keep {S : VirtualKey → Prop} {s : String} {w w' : World ι} (h : Known S s w)
    (hg : Grows w w') : Known S s w' := by
  have hnot : ∀ s', Drawn w s' ∨ s' ∉ w.usedIds → s' ≠ s := by
    rintro s' (hs' | hs') rfl
    · exact h.2.1 hs'
    · exact hs' h.1
  refine ⟨hg.used h.1, fun hd => ?_, fun k hk hs => ?_⟩
  · exact hnot s (hg.drawn s hd) rfl
  · rcases hg.rows k hk with hk | ⟨s', -, hsub, hs'⟩
    · exact h.2.2 k hk hs
    · exact absurd (Option.some.inj (hsub.symm.trans hs)) (hnot s' hs')

/-- The key was deleted: its id has been used, nobody is drawing it, and no row has it. -/
def Gone (id : String) (w : World ι) : Prop :=
  id ∈ w.usedIds ∧ ¬ Drawn w id ∧ ∀ k ∈ w.keys, k.id ≠ id

omit [DecidableEq ι] in
lemma Gone.keep {id : String} {w w' : World ι} (h : Gone id w) (hg : Grows w w') : Gone id w' := by
  have hnot : ∀ s', Drawn w s' ∨ s' ∉ w.usedIds → s' ≠ id := by
    rintro s' (hs' | hs') rfl
    · exact h.2.1 hs'
    · exact hs' h.1
  refine ⟨hg.used h.1, fun hd => hnot id (hg.drawn id hd) rfl, fun k hk => ?_⟩
  rcases hg.rows k hk with hk | ⟨s', hid, -, hs'⟩
  · exact h.2.2 k hk
  · rw [hid]
    exact hnot s' hs'

/-- The session may be closed: the switch is settled and the deletion is done. -/
def Closable (projects : String → Option Project) (i : ι) (w : World ι) : Prop :=
  (∀ t, (w.session i).pushing = some t → ∀ row, w.tenants t = some row →
    ∀ s, Live projects w t s → (Flagged w.map s ↔ row.auditEnabled = true)) ∧
  ∀ id, (w.session i).deleting = some id → Gone id w

/-- The request has neither a switch nor a deletion in progress. -/
def Quiet (i : ι) (w : World ι) : Prop :=
  (w.session i).pushing = none ∧ (w.session i).deleting = none

omit [DecidableEq ι] in
lemma Quiet.closable (h : Quiet i w) : Closable projects i w := by
  refine ⟨fun t ht => ?_, fun id hid => ?_⟩
  · rw [h.1] at ht
    cases ht
  · rw [h.2] at hid
    cases hid

omit [DecidableEq ι] in
lemma quiet_lasting : Lasting projects i (Quiet i) := by
  intro w w' hR h
  rw [Quiet, hR.session]
  exact h

omit [DecidableEq ι] in
lemma closable_lasting : Lasting projects i (Closable projects i) := by
  intro w w' hR h
  refine ⟨fun t ht row' hrow' s hs => ?_, fun id hid => ?_⟩
  · rw [hR.session] at ht
    obtain ⟨haud, hlive⟩ := hR.pushing t ht
    obtain ⟨hs, hlook⟩ := hlive s hs
    rw [hrow'] at haud
    obtain ⟨row, hrow, hsame⟩ := Option.map_eq_some_iff.1 haud.symm
    rw [Flagged, hlook, ← hsame]
    exact h.1 t ht row hrow s hs
  · rw [hR.session] at hid
    exact (h.2 id hid).keep hR.grows

/-- A handler that leaves its session closable is safe inside `get_db`. -/
lemma safe_withDb {α : Type} {p : Handler α}
    (h : Safe projects i p (fun _ w => Closable projects i w)
      (fun _ w => Closable projects i w) w) :
    Safe projects i (withDb p) (fun _ w => w.session i = .closed)
      (fun _ w => w.session i = .closed) w := by
  have hclose : ∀ w, Closable projects i w →
      Safe projects i (ask .close) (fun _ w => w.session i = .closed)
        (fun _ w => w.session i = .closed) w := by
    intro w hw
    refine safe_ask (fun w₁ hR hI p r w₂ hs _ => ?_)
    cases hs
    have hw₁ := closable_lasting w w₁ hR hw
    exact ⟨close_kept hI hw₁.1 (fun id hid => (hw₁.2 id hid).2.2), by simp, by simp⟩
  refine Discipline.wpE_tryFinally ?_
  exact Discipline.wpE_mono (fun _ w hw => hclose w hw) (fun _ w hw => hclose w hw) h

lemma safe_swallow {p : Handler Unit} {P : World ι → Prop} {X : PyErr → World ι → Prop}
    (h : Safe projects i p (fun _ w => P w) (fun _ w => P w) w) :
    Safe projects i (swallow p) (fun _ w => P w) X w := by
  exact (Discipline.wpE_tryCatch _ _).2 h

lemma safe_deleteSubscription {P : World ι → Prop} (hP : Lasting projects i P) (s : String)
    (hw : P w) :
    Safe projects i (deleteSubscription s) (fun _ w => P w) (fun _ w => P w) w := by
  unfold deleteSubscription
  refine (Discipline.wpE_tryCatch _ _).2 ?_
  refine Discipline.wpE_mono (fun _ _ h => h) (fun e w h => ?_)
    (safe_same hP (fun w p r w' hs => ?_) hw)
  · cases e <;> exact h
  · cases hs
    rfl

lemma safe_createSubscription {P : World ι → Prop} (hP : Lasting projects i P)
    (s display : String) (hw : P w) :
    Safe projects i (createSubscription s display) (fun _ w => P w) (fun _ w => P w) w := by
  unfold createSubscription
  refine (Discipline.wpE_bind _ _).2 ?_
  refine Discipline.wpE_mono (fun _ w h => ?_) (fun _ _ h => h)
    (safe_same hP (fun w p r w' hs => ?_) hw)
  · refine (Discipline.wpE_bind _ _).2 ?_
    refine Discipline.wpE_mono (fun _ _ h => h) (fun _ _ h => h)
      (safe_same hP (fun w p r w' hs => ?_) h)
    cases hs
    rfl
  · cases hs
    rfl

/-! ## Creating a key -/

/-- The request has drawn `s` for a tenant it loaded with this audit flag, and the entry of `s`
carries the flag `a`. -/
structure Creating (i : ι) (s : String) (audit : Bool) (a : Option ℤ) (w : World ι) : Prop where
  quiet : Quiet i w
  drawn : (w.session i).drawn = some s
  loaded : (w.session i).loaded = some audit
  flag : (w.map.lookup s).bind Entry.a = a

omit [DecidableEq ι] in
lemma creating_lasting {s : String} {audit : Bool} {a : Option ℤ} :
    Lasting projects i (Creating i s audit a) := by
  intro w w' hR h
  refine ⟨quiet_lasting w w' hR h.quiet, by rw [hR.session, h.drawn], by rw [hR.session, h.loaded],
    ?_⟩
  rw [hR.drawn s h.drawn]
  exact h.flag

lemma Creating.seen {s : String} {audit : Bool} {a : Option ℤ} (h : Creating i s audit a w)
    (n : ℕ) : Creating i s audit a (w.note i (fun σ => { σ with seen := n })) := by
  obtain ⟨⟨hp, hd⟩, hdrawn, hloaded, hflag⟩ := h
  refine ⟨⟨?_, ?_⟩, ?_, ?_, hflag⟩
  · rw [note_session_self]
    exact hp
  · rw [note_session_self]
    exact hd
  · rw [note_session_self]
    exact hdrawn
  · rw [note_session_self]
    exact hloaded

omit [DecidableEq ι] in
lemma Creating.free {s : String} {audit : Bool} {a : Option ℤ} (h : Creating i s audit a w)
    (hI : Inv projects w) : Free projects i (fun s' => s' = s) w := by
  refine ⟨?_, ?_, ?_⟩
  · rintro s' rfl
    exact hI.used_drawn _ ⟨i, h.drawn⟩
  · rintro j hj s' rfl hs
    exact hj (hI.drawn_inj j i _ hs h.drawn)
  · rintro t s' rfl ⟨k, hk, hs, -⟩
    exact absurd hs (hI.drawn_row _ ⟨i, h.drawn⟩ k hk).2

/-- The limits of a fresh key carry no audit flag. -/
lemma safe_upsert {s : String} {audit : Bool} {tpm : Option ℤ} {tier period : Option String}
    (hw : Creating i s audit none w) :
    Safe projects i (upsertKeyLimits client s tpm tier period)
      (fun _ w => Creating i s audit none w) (fun _ w => Creating i s audit none w) w := by
  unfold upsertKeyLimits
  refine safe_loop creating_lasting (fun w n h => h.seen n) (fun w hI h => h.free hI) ?_ ?_ ?_ hw
  · intro m m' hm s' hs'
    exact (lookup_upsertMerge hm).1 s' hs'
  · intro w _ _ hm
    exact absurd hm upsertMerge_ne_none
  · intro w m' _ h hm
    refine ⟨h.quiet, h.drawn, h.loaded, ?_⟩
    change (m'.lookup s).bind Entry.a = none
    rw [(lookup_upsertMerge hm).2, h.flag]
    rfl

/-- Under an audited tenant the fresh key inherits the flag. -/
lemma safe_inherit {s : String} {audit : Bool} (hw : Creating i s audit none w) :
    Safe projects i (setAuditFlag client [s] true)
      (fun _ w => Creating i s audit (some 1) w) (fun _ w => Creating i s audit none w) w := by
  unfold setAuditFlag
  rw [if_neg (by simp)]
  refine safe_loop creating_lasting (fun w n h => h.seen n) (fun w hI h => h.free hI) ?_ ?_ ?_ hw
  · intro m m' hm s' hs'
    have hout := auditMerge_eq_ok hm
    rw [Option.getD_some] at hout
    rw [hout, lookup_foldl_flagEntry_of_notMem (by simpa using hs')]
  · intro w _ h hm
    have hout := auditMerge_eq_ok hm
    rw [Option.getD_none] at hout
    refine ⟨h.quiet, h.drawn, h.loaded, ?_⟩
    rw [hout, flag_foldl_flagEntry (by simp), if_pos rfl]
  · intro w m' _ h hm
    have hout := auditMerge_eq_ok hm
    rw [Option.getD_some] at hout
    refine ⟨h.quiet, h.drawn, h.loaded, ?_⟩
    change (m'.lookup s).bind Entry.a = some 1
    rw [hout, flag_foldl_flagEntry (by simp), if_pos rfl]

lemma safe_publishLimits {s : String} {audit : Bool} {body : VirtualKeyCreate}
    (hw : Creating i s audit none w) :
    Safe projects i (publishLimits s body audit)
      (fun _ w => Creating i s audit (if audit then some 1 else none) w)
      (fun _ w => Quiet i w) w := by
  unfold publishLimits
  refine (Discipline.wpE_tryCatch _ _).2 ?_
  -- Whatever fails, the compensation leaves the session quiet.
  have hcomp : ∀ w, Quiet i w → ∀ exc : PyErr, Safe projects i (do
      swallow (deleteSubscription s)
      swallow (ask (.deleteSecret (subscriptionKeyName s)))
      throw (.http 502 ("failed to apply key limits: " ++ exc.text)) : Handler Unit)
      (fun _ w => Creating i s audit (if audit then some 1 else none) w)
      (fun _ w => Quiet i w) w := by
    intro w hq exc
    refine (Discipline.wpE_bind _ _).2 ?_
    refine Discipline.wpE_mono (fun _ w hq => ?_) (fun _ _ h => h)
      (safe_swallow (safe_deleteSubscription quiet_lasting s hq))
    refine (Discipline.wpE_bind _ _).2 ?_
    refine Discipline.wpE_mono (fun _ _ hq => hq) (fun _ _ h => h)
      (safe_swallow (safe_same quiet_lasting (fun w p r w' hs => ?_) hq))
    cases hs
    rfl
  refine (Discipline.wpE_bind _ _).2 ?_
  refine Discipline.wpE_mono (fun _ w hw => ?_) (fun exc w hw => hcomp w hw.quiet exc)
    (safe_upsert hw)
  cases audit with
  | false => exact hw
  | true =>
      exact Discipline.wpE_mono (fun _ _ h => h) (fun exc w h => hcomp w h.quiet exc)
        (safe_inherit hw)

/-- A drawn id has no entry in the limits map yet. -/
lemma safe_draw {audit : Bool} (hq : Quiet i w) (hl : (w.session i).loaded = some audit) :
    Safe projects i (ask .newId) (fun hex w => Creating i ("vk_" ++ hex) audit none w)
      (fun _ w => Quiet i w) w := by
  refine safe_ask (fun w₁ hR hI p r w₂ hs _ => ?_)
  have hq₁ := quiet_lasting w w₁ hR hq
  simp only [serve] at hs
  split_ifs at hs with hid
  obtain ⟨rfl, rfl⟩ := Prod.mk.inj (Option.some.inj hs)
  refine ⟨draw_kept hI hid, fun hex hhex => ?_, by simp⟩
  cases hhex
  have hfresh : w₁.map.lookup ("vk_" ++ p.value) = none :=
    Finmap.lookup_eq_none.2 (fun hmem => hid (hI.used_map _ hmem))
  refine ⟨⟨?_, ?_⟩, ?_, ?_, ?_⟩
  · dsimp only
    rw [note_session_self]
    exact hq₁.1
  · dsimp only
    rw [note_session_self]
    exact hq₁.2
  · dsimp only
    rw [note_session_self]
  · dsimp only
    rw [note_session_self]
    exact hR.session ▸ hl
  · change (w₁.map.lookup ("vk_" ++ p.value)).bind Entry.a = none
    rw [hfresh]
    rfl

/-- The row is committed with the flag the tenant has at that moment. -/
lemma safe_insert {audit : Bool} {vk : VirtualKey} (hsub : vk.subscription = some vk.id)
    (hw : Creating i vk.id audit (if audit then some 1 else none) w) :
    Safe projects i (ask (.insertKey vk)) (fun _ w => Quiet i w) (fun _ w => Quiet i w) w := by
  refine safe_ask (fun w₁ hR hI p r w₂ hs hok => ?_)
  cases hs
  have hw₁ := creating_lasting w w₁ hR hw
  have hflag : ∀ t ∈ owner projects vk, ∀ row, w₁.tenants t = some row →
      (Flagged w₁.map vk.id ↔ row.auditEnabled = true) := by
    intro t ht row hrow
    have hsame := (hok t ht).1
    rw [hw₁.loaded, hrow] at hsame
    have haudit : audit = row.auditEnabled := Option.some.inj hsame
    rw [Flagged, hw₁.flag, haudit]
    cases row.auditEnabled <;> simp
  refine ⟨insert_kept hI hw₁.drawn hsub (fun t ht => (hok t ht).2) hflag, fun _ _ => ?_, by simp⟩
  refine ⟨?_, ?_⟩
  · dsimp only
    rw [note_session_self]
    exact hw₁.quiet.1
  · dsimp only
    rw [note_session_self]
    exact hw₁.quiet.2

lemma refreshKey_same {id : String} (w : World ι) (p : Pick) (r : keysApi.Reply (.refreshKey id))
    (w' : World ι) (hs : serve projects i w (.refreshKey id) p = some (r, w')) : w' = w := by
  cases hs
  rfl

lemma safe_createKey {body : VirtualKeyCreate} (hw : Quiet i w) :
    Safe projects i (createKey body) (fun _ w => Quiet i w) (fun _ w => Quiet i w) w := by
  unfold createKey
  -- The project row.
  refine (Discipline.wpE_bind _ _).2 (safe_ask (fun w₁ hR hI p r w₂ hs _ => ?_))
  cases hs
  have hw₁ := quiet_lasting w w₁ hR hw
  have hq₂ : Quiet i (w₁.note i (fun σ => σ)) := by
    rw [Quiet, note_session_self]
    exact hw₁
  refine ⟨note_kept hI _ rfl rfl rfl (fun _ h => h), fun found hfound => ?_, by simp⟩
  cases hfound
  cases hproject : projects body.projectId with
  | none => exact hq₂
  | some project =>
      -- The tenant row and its audit flag.
      refine (Discipline.wpE_bind _ _).2 (safe_ask (fun w₃ hR hI p r w₄ hs _ => ?_))
      cases hs
      have hq₃ := quiet_lasting _ w₃ hR hq₂
      have hq₄ : Quiet i (w₃.note i (fun σ =>
          { σ with loaded := (w₃.tenants project.tenantId).map Tenant.auditEnabled })) := by
        rw [Quiet, note_session_self]
        exact hq₃
      refine ⟨note_kept hI _ rfl rfl rfl (fun _ h => h), fun found hfound => ?_, by simp⟩
      cases hfound
      cases htenant : w₃.tenants project.tenantId with
      | none =>
          rw [htenant] at hq₄
          exact hq₄
      | some tenant =>
          rw [htenant] at hq₄
          set w₄ := w₃.note i (fun σ => { σ with loaded := some tenant.auditEnabled }) with hw₄
          have hl₄ : (w₄.session i).loaded = some tenant.auditEnabled := by
            rw [hw₄, note_session_self]
          change Quiet i w₄ at hq₄
          -- From here on the request has an id, and the others leave the entry of the id alone.
          refine Discipline.wpE_guard (fun _ => hq₄) (fun _ => ?_)
          refine (Discipline.wpE_bind _ _).2 ?_
          refine Discipline.wpE_mono (fun hex w hw => ?_) (fun _ _ h => h) (safe_draw hq₄ hl₄)
          refine (Discipline.wpE_bind _ _).2 ?_
          refine Discipline.wpE_mono (fun keyValue w hw => ?_) (fun _ _ h => h.quiet)
            (safe_createSubscription creating_lasting _ _ hw)
          refine (Discipline.wpE_bind _ _).2 ?_
          refine Discipline.wpE_mono (fun kvRef w hw => ?_) (fun _ _ h => h.quiet)
            (safe_same creating_lasting (fun w p r w' hs => by cases hs; rfl) hw)
          refine (Discipline.wpE_bind _ _).2 ?_
          refine Discipline.wpE_mono (fun _ w hw => ?_) (fun _ _ h => h) (safe_publishLimits hw)
          refine (Discipline.wpE_bind _ _).2 ?_
          -- The row goes in last; it is here that the flag of the tenant is compared.
          have hsub : (some ("vk_" ++ hex)).filter (fun s => s ≠ "") = some ("vk_" ++ hex) := by
            simp
          refine Discipline.wpE_mono (fun _ w hw => ?_) (fun _ _ h => h) (safe_insert hsub hw)
          refine (Discipline.wpE_bind _ _).2 ?_
          exact Discipline.wpE_mono (fun _ _ h => h) (fun _ _ h => h)
            (safe_same quiet_lasting refreshKey_same hw)

/-! ## Deleting a key -/

/-- The request is deleting the key `id`: the session says so, and nobody is drawing the id. -/
structure Deleting (i : ι) (id : String) (w : World ι) : Prop where
  pushing : (w.session i).pushing = none
  deleting : (w.session i).deleting = some id
  used : id ∈ w.usedIds
  drawn : ¬ Drawn w id

omit [DecidableEq ι] in
lemma deleting_lasting {id : String} : Lasting projects i (Deleting i id) := by
  intro w w' hR h
  refine ⟨by rw [hR.session, h.pushing], by rw [hR.session, h.deleting], hR.grows.used h.used,
    fun hd => ?_⟩
  rcases hR.grows.drawn id hd with hd | hd
  · exact h.drawn hd
  · exact hd h.used

/-- Every row with the subscription is the one being deleted. -/
def DeletingSub (i : ι) (id s : String) (w : World ι) : Prop :=
  Deleting i id w ∧ Known (fun k => k.id = id) s w

omit [DecidableEq ι] in
lemma deletingSub_lasting {id s : String} : Lasting projects i (DeletingSub i id s) :=
  fun w w' hR h => ⟨deleting_lasting w w' hR h.1, h.2.keep hR.grows⟩

omit [DecidableEq ι] in
lemma DeletingSub.of_same {id s : String} {w w' : World ι} (h : DeletingSub i id s w)
    (hD : ∀ j, (w'.session j).drawn = (w.session j).drawn)
    (hp : (w'.session i).pushing = (w.session i).pushing)
    (hd : (w'.session i).deleting = (w.session i).deleting)
    (hused : w'.usedIds = w.usedIds) (hkeys : w'.keys = w.keys) : DeletingSub i id s w' := by
  obtain ⟨⟨hp₀, hd₀, hu₀, hn₀⟩, hs, hns, hk⟩ := h
  have hDrawn : ∀ s, Drawn w' s ↔ Drawn w s := by
    intro s
    simp only [Drawn, hD]
  exact ⟨⟨hp.trans hp₀, hd.trans hd₀, hused ▸ hu₀, fun h => hn₀ ((hDrawn id).1 h)⟩,
    hused ▸ hs, fun h => hns ((hDrawn s).1 h), hkeys ▸ hk⟩

lemma safe_removeLimits {id s : String} (hw : DeletingSub i id s w) :
    Safe projects i (removeKeyLimits client s) (fun _ w => DeletingSub i id s w)
      (fun _ w => DeletingSub i id s w) w := by
  unfold removeKeyLimits
  refine safe_loop (F := fun s' => s' = s) deletingSub_lasting ?_ ?_ ?_ (fun w _ h _ => h) ?_ hw
  · intro w n h
    refine h.of_same (note_field _ Session.drawn rfl) ?_ ?_ rfl rfl
    · rw [note_session_self]
    · rw [note_session_self]
  · intro w hI h
    refine ⟨?_, ?_, ?_⟩
    · rintro s' rfl
      exact h.2.1
    · rintro j - s' rfl hd
      exact h.2.2.1 ⟨j, hd⟩
    · rintro t s' rfl ⟨k, hk, hs, -, hdel⟩
      exact absurd h.1.deleting ((h.2.2.2 k hk hs) ▸ hdel i)
  · intro m m' hm s' hs'
    rw [removeMerge_eq_ok hm, removeKeyLimit, Finmap.lookup_erase_ne hs']
  · intro w m' _ h _
    exact h.of_same (fun _ => rfl) rfl rfl rfl rfl

omit [DecidableEq ι] in
lemma deleting_closable (id : String) (h : Deleting i id w) (hk : ∀ k ∈ w.keys, k.id ≠ id) :
    Closable projects i w := by
  refine ⟨fun t ht => ?_, fun id' hid' => ?_⟩
  · rw [h.pushing] at ht
    cases ht
  · rw [h.deleting] at hid'
    cases hid'
    exact ⟨h.used, h.drawn, hk⟩

/-- The last part of a deletion: the secret and the row. -/
lemma safe_deleteRow {keyId : String} (hw : Deleting i keyId w) :
    Safe projects i (do
        swallow (ask (.deleteSecret (subscriptionKeyName keyId)))
        ask (.deleteKey keyId) : Handler Unit)
      (fun _ w => Closable projects i w) (fun _ w => Closable projects i w) w := by
  refine (Discipline.wpE_bind _ _).2 ?_
  refine Discipline.wpE_mono (fun _ w hw => ?_) (fun _ _ h => h)
    (safe_swallow (safe_same deleting_lasting (fun w p r w' hs => by cases hs; rfl) hw))
  refine safe_ask (fun w₁ hR hI p r w₂ hs _ => ?_)
  cases hs
  have hw₁ := deleting_lasting w w₁ hR hw
  refine ⟨delete_kept hI keyId, fun _ _ => ?_, by simp⟩
  refine deleting_closable keyId ⟨?_, ?_, hw₁.used, fun hd => hw₁.drawn ?_⟩ ?_
  · dsimp only
    rw [note_session_self]
    exact hw₁.pushing
  · dsimp only
    rw [note_session_self]
    exact hw₁.deleting
  · obtain ⟨j, hj⟩ := hd
    exact ⟨j, (note_field (w := w₁) (i := i) (fun s => s) Session.drawn rfl j).symm.trans hj⟩
  · intro k hk
    simpa using (List.mem_filter.1 hk).2

lemma safe_deleteKey {keyId : String} (hw : Quiet i w) :
    Safe projects i (deleteKey keyId) (fun _ w => Closable projects i w)
      (fun _ w => Closable projects i w) w := by
  unfold deleteKey
  refine (Discipline.wpE_bind _ _).2 (safe_ask (fun w₁ hR hI p r w₂ hs _ => ?_))
  cases hs
  have hq₁ := quiet_lasting w w₁ hR hw
  refine ⟨note_kept hI _ rfl rfl rfl (fun id hid => ?_), fun found hfound => ?_, by simp⟩
  · rw [hq₁.2] at hid
    cases hid
  · cases hfound
    have hsess := note_session_self (w := w₁) (i := i)
      (fun s => { s with deleting := (w₁.findKey keyId).map VirtualKey.id })
    set w₂ := w₁.note i (fun s => { s with deleting := (w₁.findKey keyId).map VirtualKey.id })
      with hw₂
    have hpush : (w₂.session i).pushing = none := by
      rw [hsess]
      exact hq₁.1
    have hdel : (w₂.session i).deleting = (w₁.findKey keyId).map VirtualKey.id := by rw [hsess]
    cases hfind : w₁.findKey keyId with
    | none =>
        rw [hfind] at hdel
        exact Quiet.closable ⟨hpush, hdel⟩
    | some vk =>
        have hmem : vk ∈ w₁.keys := List.mem_of_find?_eq_some hfind
        have hid : vk.id = keyId := by simpa using List.find?_some hfind
        have hD : ∀ s, Drawn w₂ s ↔ Drawn w₁ s := by
          intro s
          simp only [Drawn, note_field (w := w₁) (i := i)
            (fun s => { s with deleting := (w₁.findKey keyId).map VirtualKey.id })
            Session.drawn rfl, hw₂]
        -- From the read on the request is the one that deletes this key, and nobody who is drawing
        -- an id has drawn this one.
        have hdeleting : Deleting i keyId w₂ := by
          refine ⟨hpush, by rw [hdel, hfind, Option.map_some, hid], hid ▸ hI.used_ids vk hmem,
            fun hd => ?_⟩
          exact (hI.drawn_row keyId ((hD keyId).1 hd) vk hmem).1 hid
        dsimp only
        cases hsub : vk.subscription with
        | none => exact safe_deleteRow hdeleting
        | some s =>
            -- The entry of the subscription can go, for no other key has it.
            have hknown : Known (fun k => k.id = keyId) s w₂ := by
              refine ⟨hI.used_subs vk hmem s hsub, fun hd => ?_, fun k hk hs => ?_⟩
              · exact (hI.drawn_row s ((hD s).1 hd) vk hmem).2 hsub
              · rw [hI.subs_inj k hk vk hmem s hs hsub]
                exact hid
            refine (Discipline.wpE_bind _ _).2 ?_
            refine Discipline.wpE_mono (fun _ w hw => ?_) (fun _ _ h => h)
              (safe_swallow (safe_deleteSubscription deletingSub_lasting s ⟨hdeleting, hknown⟩))
            refine (Discipline.wpE_bind _ _).2 ?_
            exact Discipline.wpE_mono (fun _ w hw => safe_deleteRow hw.1) (fun _ _ h => h)
              (safe_swallow (safe_removeLimits hw))

/-! ## Switching a tenant -/

/-- The request has listed the tenant's keys and has not pushed their flags: the list covers
them, and they still agree with the row. -/
structure Switching (projects : String → Option Project) (i : ι) (t : String)
    (subIds : List String) (w : World ι) : Prop where
  pushing : (w.session i).pushing = some t
  deleting : (w.session i).deleting = none
  known : ∀ s ∈ subIds, Known (fun k => owner projects k = some t) s w
  covers : ∀ s, Live projects w t s → s ∈ subIds
  agree : ∀ row, w.tenants t = some row → ∀ s, Live projects w t s →
    (Flagged w.map s ↔ row.auditEnabled = true)

/-- The request has pushed the flag of the tenant's keys and has not recorded it. -/
structure Switched (projects : String → Option Project) (i : ι) (t : String) (enabled : Bool)
    (w : World ι) : Prop where
  pushing : (w.session i).pushing = some t
  deleting : (w.session i).deleting = none
  flags : ∀ s, Live projects w t s → (Flagged w.map s ↔ enabled = true)

omit [DecidableEq ι] in
lemma Switching.closable {t : String} {subIds : List String}
    (h : Switching projects i t subIds w) : Closable projects i w := by
  refine ⟨fun t' ht' => ?_, fun id hid => ?_⟩
  · rw [h.pushing] at ht'
    cases ht'
    exact h.agree
  · rw [h.deleting] at hid
    cases hid

omit [DecidableEq ι] in
lemma switching_lasting {t : String} {subIds : List String} :
    Lasting projects i (Switching projects i t subIds) := by
  intro w w' hR h
  have hlive := (hR.pushing t h.pushing).2
  refine ⟨by rw [hR.session, h.pushing], by rw [hR.session, h.deleting],
    fun s hs => (h.known s hs).keep hR.grows, fun s hs => h.covers s (hlive s hs).1, ?_⟩
  have hclosable := (closable_lasting w w' hR h.closable).1 t
  exact hclosable (by rw [hR.session, h.pushing])

omit [DecidableEq ι] in
lemma switched_lasting {t : String} {enabled : Bool} :
    Lasting projects i (Switched projects i t enabled) := by
  intro w w' hR h
  refine ⟨by rw [hR.session, h.pushing], by rw [hR.session, h.deleting], fun s hs => ?_⟩
  obtain ⟨hs, hlook⟩ := (hR.pushing t h.pushing).2 s hs
  rw [Flagged, hlook]
  exact h.flags s hs

/-- Opening the switch: the listed subscriptions are those of the tenant's keys. -/
lemma safe_list {t : String} (hw : Quiet i w) :
    Safe projects i (ask (.listSubscriptions t))
      (fun subIds w => Switching projects i t subIds w) (fun _ w => Quiet i w) w := by
  refine safe_ask (fun w₁ hR hI p r w₂ hs hok => ?_)
  cases hs
  have hq₁ := quiet_lasting w w₁ hR hw
  refine ⟨list_kept hI hq₁.1 hok, fun subIds hsub => ?_, by simp⟩
  cases hsub
  set w₂ := w₁.note i (fun s => { s with pushing := some t }) with hw₂
  have hDrawn : ∀ s, Drawn w₂ s ↔ Drawn w₁ s := by
    intro s
    simp only [Drawn, hw₂, note_field (w := w₁) (i := i) (fun s => { s with pushing := some t })
      Session.drawn rfl]
  have hLive : ∀ s, Live projects w₂ t s ↔ Live projects w₁ t s := by
    intro s
    simp only [Live, hw₂, note_field (w := w₁) (i := i) (fun s => { s with pushing := some t })
      Session.deleting rfl]
    rfl
  have hmem : ∀ s, s ∈ w₁.subscriptionsOf projects t ↔
      ∃ k ∈ w₁.keys, owner projects k = some t ∧ k.subscription = some s := by
    intro s
    simp [World.subscriptionsOf, and_assoc]
  have hfree : ∀ j, (w₁.session j).pushing ≠ some t := by
    intro j
    by_cases hji : j = i
    · rw [hji, hq₁.1]
      simp
    · exact hok j hji
  refine ⟨?_, ?_, fun s hs => ?_, fun s hs => ?_, fun row hrow s hs => ?_⟩
  · rw [hw₂, note_session_self]
  · rw [hw₂, note_session_self]
    exact hq₁.2
  · obtain ⟨k, hk, hown, hsub⟩ := (hmem s).1 hs
    refine ⟨hI.used_subs k hk s hsub, fun hd => ?_, fun k' hk' hsub' => ?_⟩
    · exact (hI.drawn_row s ((hDrawn s).1 hd) k hk).2 hsub
    · rw [hI.subs_inj k' hk' k hk s hsub' hsub]
      exact hown
  · obtain ⟨k, hk, hsub, hown, -⟩ := (hLive s).1 hs
    exact (hmem s).2 ⟨k, hk, hown, hsub⟩
  · exact hI.agree t row hrow hfree s ((hLive s).1 hs)

/-- Reading the named value changes no session but in the version it has seen. -/
lemma Switching.seen {t : String} {subIds : List String} (h : Switching projects i t subIds w)
    (n : ℕ) : Switching projects i t subIds (w.note i (fun s => { s with seen := n })) := by
  set w' := w.note i (fun s => { s with seen := n }) with hw'
  have hD : ∀ j, (w'.session j).drawn = (w.session j).drawn := note_field _ Session.drawn rfl
  have hX : ∀ j, (w'.session j).deleting = (w.session j).deleting :=
    note_field _ Session.deleting rfl
  have hLive : ∀ s, Live projects w' t s ↔ Live projects w t s := by
    intro s
    simp only [Live, hX]
    rfl
  refine ⟨?_, ?_, fun s hs => ?_, fun s hs => h.covers s ((hLive s).1 hs),
    fun row hrow s hs => h.agree row hrow s ((hLive s).1 hs)⟩
  · rw [hw', note_session_self]
    exact h.pushing
  · rw [hX]
    exact h.deleting
  · obtain ⟨hused, hnd, hrows⟩ := h.known s hs
    refine ⟨hused, fun hd => hnd ?_, hrows⟩
    simpa only [Drawn, hD] using hd

/-- Pushing the flag: when the write has gone through, the entries of all subscriptions that were
listed have it. -/
lemma safe_push {t : String} {subIds : List String} {enabled : Bool}
    (hw : Switching projects i t subIds w) :
    Safe projects i (setAuditFlag client subIds enabled)
      (fun _ w => Switched projects i t enabled w)
      (fun _ w => Switching projects i t subIds w) w := by
  unfold setAuditFlag
  split_ifs with hempty
  · refine ⟨hw.pushing, hw.deleting, fun s hs => ?_⟩
    have hmem := hw.covers s hs
    rw [hempty] at hmem
    cases hmem
  · have hflag : ∀ m : LimitsMap, ∀ s ∈ subIds,
        (Flagged (subIds.foldl (flagEntry enabled) m) s ↔ enabled = true) := by
      intro m s hs
      rw [Flagged, flag_foldl_flagEntry hs]
      cases enabled <;> simp
    refine safe_loop (F := fun s => s ∈ subIds) switching_lasting ?_ ?_ ?_ ?_ ?_ hw
    · exact fun w n h => h.seen n
    · intro w hI h
      refine ⟨fun s hs => (h.known s hs).1, ?_, ?_⟩
      · rintro j - s hs hd
        exact (h.known s hs).2.1 ⟨j, hd⟩
      · rintro t' s hs ⟨k, hk, hsub, hown, -⟩
        have hown' := (h.known s hs).2.2 k hk hsub
        rw [h.pushing, ← hown', hown]
    · intro m m' hm s hs
      have hout := auditMerge_eq_ok hm
      rw [Option.getD_some] at hout
      rw [hout, lookup_foldl_flagEntry_of_notMem hs]
    · intro w _ h hm
      have hout := auditMerge_eq_ok hm
      rw [Option.getD_none] at hout
      refine ⟨h.pushing, h.deleting, fun s hs => ?_⟩
      rw [hout]
      exact hflag w.map s (h.covers s hs)
    · intro w m' _ h hm
      have hout := auditMerge_eq_ok hm
      rw [Option.getD_some] at hout
      refine ⟨h.pushing, h.deleting, fun s hs => ?_⟩
      change Flagged m' s ↔ enabled = true
      rw [hout]
      exact hflag w.map s (h.covers s hs)

lemma safe_applyAuditFlag {t : Tenant} {enabled : Bool} (hw : Quiet i w) :
    Safe projects i (applyAuditFlag t enabled)
      (fun _ w => Switched projects i t.id enabled w)
      (fun _ w => Closable projects i w) w := by
  unfold applyAuditFlag
  refine (Discipline.wpE_bind _ _).2 ?_
  refine Discipline.wpE_mono (fun subIds w hw => ?_) (fun _ _ h => h.closable) (safe_list hw)
  refine (Discipline.wpE_tryCatch _ _).2 ?_
  exact Discipline.wpE_mono (fun _ _ h => h) (fun _ _ h => h.closable) (safe_push hw)

/-- Recording the row ends the switch.  Either the flag was pushed and the row is given the same
one, or the row's flag is left alone. -/
lemma safe_commit {id : String} {ch : TenantChanges}
    (hw : (∃ enabled, Switched projects i id enabled w ∧ ch.auditEnabled = some enabled) ∨
      (Quiet i w ∧ ch.auditEnabled = none)) :
    Safe projects i (ask (.commitTenant id ch)) (fun _ w => Quiet i w)
      (fun _ w => Closable projects i w) w := by
  refine safe_ask (fun w₁ hR hI p r w₂ hs _ => ?_)
  have hdel : (w₁.session i).deleting = none := by
    rw [hR.session]
    rcases hw with ⟨_, h, -⟩ | ⟨h, -⟩
    · exact h.deleting
    · exact h.2
  cases hrow : w₁.tenants id with
  -- The tenant has gone in the meantime: the flag was never recorded, and the request closes.
  | none =>
      simp only [serve, hrow] at hs
      cases hs
      refine ⟨⟨hI, fun j _ => Rely.refl j _⟩, by simp, fun _ _ => ⟨fun t ht row ht' => ?_, ?_⟩⟩
      · rw [hR.session] at ht
        rcases hw with ⟨_, h, -⟩ | ⟨h, -⟩
        · rw [h.pushing] at ht
          cases ht
          rw [hrow] at ht'
          cases ht'
        · rw [h.1] at ht
          cases ht
      · rw [hdel]
        simp
  | some row =>
      simp only [serve, hrow] at hs
      cases hs
      refine ⟨commit_kept hI hrow ?_, fun _ _ => ⟨?_, ?_⟩, by simp⟩
      · rcases hw with ⟨enabled, h, hch⟩ | ⟨h, hch⟩
        -- The named value has the flag for every key of the tenant, so that the row may say so too.
        · have h₁ := switched_lasting w w₁ hR h
          refine .inl ⟨h₁.pushing, fun s hs => ?_⟩
          rw [h₁.flags s hs, TenantChanges.apply, hch]
          rfl
        · refine .inr ⟨(quiet_lasting w w₁ hR h).1, ?_⟩
          rw [TenantChanges.apply, hch]
          rfl
      · dsimp only
        rw [note_session_self]
      · dsimp only
        rw [note_session_self]
        exact hdel

lemma refreshTenant_same {id : String} (w : World ι) (p : Pick)
    (r : keysApi.Reply (.refreshTenant id)) (w' : World ι)
    (hs : serve projects i w (.refreshTenant id) p = some (r, w')) : w' = w := by
  cases hs
  rfl

lemma safe_updateTenant {tenantId : String} {body : TenantUpdate} (hw : Quiet i w) :
    Safe projects i (updateTenant tenantId body) (fun _ w => Closable projects i w)
      (fun _ w => Closable projects i w) w := by
  unfold updateTenant
  refine (Discipline.wpE_bind _ _).2 (safe_ask (fun w₁ hR hI p r w₂ hs _ => ?_))
  cases hs
  have hq₁ := quiet_lasting w w₁ hR hw
  have hq₂ : Quiet i (w₁.note i (fun s =>
      { s with loaded := (w₁.tenants tenantId).map Tenant.auditEnabled })) := by
    rw [Quiet, note_session_self]
    exact hq₁
  refine ⟨note_kept hI _ rfl rfl rfl (fun _ h => h), fun found hfound => ?_, by simp⟩
  cases hfound
  cases hrow : w₁.tenants tenantId with
  | none =>
      rw [hrow] at hq₂
      exact hq₂.closable
  | some tenant =>
      have hid : tenant.id = tenantId := hI.tenant_id tenantId tenant hrow
      rw [hrow] at hq₂
      set w₂ := w₁.note i (fun s => { s with loaded := some tenant.auditEnabled }) with hw₂
      change Quiet i w₂ at hq₂
      -- Whatever happened to the flag, the commit and the refresh close the switch.
      have hrest : ∀ w : World ι,
          ((∃ enabled, Switched projects i tenantId enabled w ∧
              assigned tenant.auditEnabled body.auditEnabled = some enabled) ∨
            (Quiet i w ∧ assigned tenant.auditEnabled body.auditEnabled = none)) →
          Safe projects i (do
              ask (.commitTenant tenantId
                { name := assigned tenant.name body.name
                  mode := assigned tenant.mode body.mode
                  auditEnabled := assigned tenant.auditEnabled body.auditEnabled })
              ask (.refreshTenant tenantId) : Handler Tenant)
            (fun _ w => Closable projects i w) (fun _ w => Closable projects i w) w := by
        intro w hw
        refine (Discipline.wpE_bind _ _).2 ?_
        refine Discipline.wpE_mono (fun _ w hw => ?_) (fun _ _ h => h) (safe_commit hw)
        exact Discipline.wpE_mono (fun _ _ h => h.closable) (fun _ _ h => h.closable)
          (safe_same quiet_lasting refreshTenant_same hw)
      dsimp only
      -- Without a new value of the flag the named value is not touched.
      cases haud : assigned tenant.auditEnabled body.auditEnabled with
      | none =>
          rw [haud] at hrest
          exact hrest w₂ (.inr ⟨hq₂, rfl⟩)
      | some enabled =>
          rw [haud] at hrest
          refine (Discipline.wpE_bind _ _).2 ?_
          refine Discipline.wpE_mono (fun _ w hw => ?_) (fun _ _ h => h)
            (safe_applyAuditFlag hq₂)
          rw [hid] at hw
          exact hrest w (.inl ⟨enabled, hw, rfl⟩)

/-- Every request leaves its session closed, whatever it was and however it ends. -/
lemma safe_request (req : Request) (hw : w.session i = .closed) :
    Safe projects i req.handler (fun _ w => w.session i = .closed)
      (fun _ w => w.session i = .closed) w := by
  have hq : Quiet i w := by
    rw [Quiet, hw]
    exact ⟨rfl, rfl⟩
  cases req with
  | create body =>
      refine safe_withDb ((Discipline.wpE_bind _ _).2 ?_)
      exact Discipline.wpE_mono (fun _ _ h => h.closable) (fun _ _ h => h.closable)
        (safe_createKey hq)
  | update t body =>
      refine safe_withDb ((Discipline.wpE_bind _ _).2 ?_)
      exact Discipline.wpE_mono (fun _ _ h => h) (fun _ _ h => h) (safe_updateTenant hq)
  | delete keyId => exact safe_withDb (safe_deleteKey hq)

end Rules

/-! ## Agreement -/

/-- The gateway stamps a tenant's keys for auditing exactly if the tenant's row says so. -/
def Agree (projects : String → Option Project) (w : World ι) : Prop :=
  ∀ t row, w.tenants t = some row → ∀ k ∈ w.keys, owner projects k = some t →
    ∀ s ∈ k.subscription, (Flagged w.map s ↔ row.auditEnabled = true)

/-- Nobody is connected, the rows are under their ids, no two keys share a subscription, and the
limits map agrees with the rows. -/
structure World.WellFormed (projects : String → Option Project) (w : World ι) : Prop where
  closed : ∀ i, w.session i = .closed
  tenant_id : ∀ t row, w.tenants t = some row → row.id = t
  subs_inj : ∀ k ∈ w.keys, ∀ k' ∈ w.keys, ∀ s, k.subscription = some s →
    k'.subscription = some s → k = k'
  used_ids : ∀ k ∈ w.keys, k.id ∈ w.usedIds
  used_subs : ∀ k ∈ w.keys, ∀ s ∈ k.subscription, s ∈ w.usedIds
  used_map : ∀ s ∈ w.map, s ∈ w.usedIds
  agree : Agree projects w

lemma World.WellFormed.inv {projects : String → Option Project} {w : World ι}
    (h : w.WellFormed projects) : Inv projects w where
  tenant_id := h.tenant_id
  subs_inj := h.subs_inj
  used_ids := h.used_ids
  used_subs := h.used_subs
  used_map := h.used_map
  used_drawn := by
    rintro s ⟨j, hj⟩
    rw [h.closed] at hj
    cases hj
  drawn_row := by
    rintro s ⟨j, hj⟩
    rw [h.closed] at hj
    cases hj
  drawn_inj := by
    intro i j s hi
    rw [h.closed] at hi
    cases hi
  pushing_inj := by
    intro i j t hi
    rw [h.closed] at hi
    cases hi
  idle := fun i _ => h.closed i
  agree := by
    rintro t row ht - s ⟨k, hk, hs, hown, -⟩
    exact h.agree t row ht k hk hown s hs

def start (reqs : ι → Request) (w : World ι) : Config keysApi ι (World ι) (Except PyErr Unit) :=
  ⟨w, fun i => (reqs i).handler.run⟩

variable [DecidableEq ι]

/-- A request touches no session but its own, so that what a session says of a request is the
request's doing. -/
lemma serve_session {projects : String → Option Project} {i j : ι} (hij : j ≠ i) {w w' : World ι}
    {o : Call} {p : Pick} {r : keysApi.Reply o} (h : serve projects j w o p = some (r, w')) :
    w'.session i = w.session i := by
  have hne : ∀ σ, Function.update w.session j σ i = w.session i := fun σ =>
    Function.update_of_ne (Ne.symm hij) _ _
  unfold serve at h
  split at h <;> try (first | split at h | split_ifs at h)
  all_goals first
    | (cases h; exact hne _)
    | (cases h; rfl)
    | cases h

/-- When no request is in progress every session is closed. -/
lemma closed_of_quiescent {projects : String → Option Project} {reqs : ι → Request}
    {w : World ι} (hw : w.WellFormed projects)
    {c : Config keysApi ι (World ι) (Except PyErr Unit)}
    (h : Reaches (env projects ι) (Undisturbed projects) (start reqs w) c)
    (hq : c.Quiescent (start reqs w).prog) (i : ι) : c.world.session i = .closed := by
  have hsafe : ∀ i, (discipline projects).wp (Undisturbed projects) i ((start reqs w).prog i)
      (fun _ w => w.session i = .closed) w := by
    intro i
    refine Discipline.wp_mono (fun r w hr => ?_) (safe_request (reqs i) (hw.closed i))
    cases r <;> exact hr
  have hstable : ∀ i (_ : Except PyErr Unit),
      (discipline projects).Stable i (fun (w : World ι) => w.session i = .closed) := by
    intro i _ w w' hR _ hc
    rw [← hc]
    exact hR.session
  rcases hq i with hsame | ⟨a, ha⟩
  · refine Reaches.untouched (P := fun w => w.session i = .closed) ?_ ?_ h (hw.closed i) hsame
    · intro j w o x r w' hj ha hc
      rw [serve_session hj ha, hc]
    · exact fun _ _ hd _ => hd.elim
  · exact Discipline.returned_of_sound (c := start reqs w) hstable hw.inv hsafe h ha

/-- **Consent agreement.**  In a run that avoids the races, the gateway and the rows agree
whenever no request is in progress. -/
theorem consent_agrees {projects : String → Option Project} {reqs : ι → Request} {w : World ι}
    (hw : w.WellFormed projects) {c : Config keysApi ι (World ι) (Except PyErr Unit)}
    (h : Reaches (env projects ι) (Undisturbed projects) (start reqs w) c)
    (hq : c.Quiescent (start reqs w).prog) : Agree projects c.world := by
  have hsafe : ∀ i, (discipline projects).wp (Undisturbed projects) i ((start reqs w).prog i)
      (fun _ _ => True) w := fun i =>
    Discipline.wp_mono (fun _ _ _ => trivial) (safe_request (reqs i) (hw.closed i))
  have hstable : ∀ i (_ : Except PyErr Unit),
      (discipline projects).Stable i (fun _ : World ι => True) := fun _ _ _ _ _ _ _ => trivial
  have hI : Inv projects c.world :=
    (Discipline.sound (c := start reqs w) hstable hw.inv hsafe h).1
  have hclosed := closed_of_quiescent hw h hq
  intro t row ht k hk hown s hs
  refine hI.agree t row ht (fun j => ?_) s ⟨k, hk, hs, hown, fun j => ?_⟩
  · rw [hclosed j]
    simp [Session.closed]
  · rw [hclosed j]
    simp [Session.closed]

/-! ## The race between issuing a key and switching the tenant on -/

section Race

def acme : Tenant := ⟨"tnt_1", "acme", .internal, ["product"], false⟩

def acmeProjects (id : String) : Option Project :=
  if id = "prj_1" then some ⟨"prj_1", "tnt_1", "search"⟩ else none

/-- One tenant without keys, auditing off, and an empty limits map. -/
def acmeWorld : World (Fin 2) where
  tenants := fun id => if id = "tnt_1" then some acme else none
  keys := []
  named := ⟨some (.limits ∅), []⟩
  usedIds := []
  session := fun _ => .closed

/-- One request issues a key for the tenant, the other one switches auditing on. -/
def issueAndSwitch : Fin 2 → Request
  | 0 => .create ⟨"prj_1", some 100, none, none, by decide, by decide⟩
  | 1 => .update "tnt_1" ⟨none, none, some true⟩

lemma acmeWorld_wellFormed : acmeWorld.WellFormed acmeProjects where
  closed := fun _ => rfl
  tenant_id := by
    intro t row ht
    simp only [acmeWorld] at ht
    split_ifs at ht with h
    cases ht
    exact h.symm
  subs_inj := by simp [acmeWorld]
  used_ids := by simp [acmeWorld]
  used_subs := by simp [acmeWorld]
  used_map := by
    intro s hs
    have hempty : acmeWorld.map = ∅ := rfl
    rw [hempty] at hs
    exact absurd hs Finmap.notMem_empty
  agree := by
    rintro t row - k hk
    simp [acmeWorld] at hk

/-- The subscriptions of the keys whose rows were committed. -/
def issued (w : World (Fin 2)) : List String := w.keys.filterMap VirtualKey.subscription

/-- Every read of the named value carries its ETag, and the drawn id is `a1`. -/
def schedule (turns : List (Fin 2)) : List (Fin 2 × Pick) := turns.map (fun i => (i, ⟨"a1", true⟩))

/-- One request after the other: the key inherits the flag. -/
theorem consent_agrees_inTurn :
    ∃ c, Reaches (env acmeProjects (Fin 2)) (Undisturbed acmeProjects)
        (start issueAndSwitch acmeWorld) c ∧
      issued c.world = ["vk_a1"] ∧ Agree acmeProjects c.world := by
  obtain ⟨c, hreach, hkeys, hdone⟩ := Config.reaches_of_play (env acmeProjects (Fin 2))
    (Undisturbed acmeProjects) (start issueAndSwitch acmeWorld)
    (schedule (List.replicate 5 1 ++ List.replicate 13 0))
    (fun c => issued c.world = ["vk_a1"] ∧ ∀ i, c.Returned i (.ok ())) (by decide)
  exact ⟨c, hreach, hkeys, consent_agrees acmeWorld_wellFormed hreach
    (fun i => .inr ⟨_, hdone i⟩)⟩

/-- The key is issued while the tenant is switched on, and keeps its prompts out of the
archive. -/
theorem consent_disagrees :
    ¬ ∀ (projects : String → Option Project) (reqs : Fin 2 → Request) (w : World (Fin 2)),
      w.WellFormed projects → ∀ c, Reaches (env projects (Fin 2)) anyStep (start reqs w) c →
        c.Quiescent (start reqs w).prog → Agree projects c.world := by
  intro hclaim
  obtain ⟨c, hreach, ⟨vk, hvk, hown, hsub, hflag⟩, haudit, hdone⟩ :=
    Config.reaches_of_play (env acmeProjects (Fin 2)) anyStep (start issueAndSwitch acmeWorld)
      (schedule (List.replicate 2 0 ++ List.replicate 5 1 ++ List.replicate 9 0))
      (fun c => (∃ vk ∈ c.world.keys, owner acmeProjects vk = some "tnt_1" ∧
          vk.subscription = some "vk_a1" ∧ ¬ Flagged c.world.map "vk_a1") ∧
        c.world.tenants "tnt_1" = some { acme with auditEnabled := true } ∧
        ∀ i, c.Returned i (.ok ())) (by decide)
  refine hflag ((hclaim acmeProjects issueAndSwitch acmeWorld acmeWorld_wellFormed c hreach
    (fun i => .inr ⟨_, hdone i⟩) "tnt_1" _ haudit vk hvk hown "vk_a1" hsub).2 rfl)

end Race

end Keys
end TokenFoundry
