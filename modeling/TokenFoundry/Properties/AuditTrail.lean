import TokenFoundry.Framework.Splitting
import TokenFoundry.Hub.AuditArchive

/-!
# What the archive holds

The name of a blob is made of its day, its tenant and its request, so that the blobs of a tenant are
those below one prefix for each day.  `archive_isolated` says that nothing else can come to lie
there: a header cannot forge a way out of its segment.

An archive is bounded and does not fail silently: at most 64 uploads are in flight, and an exchange
whose upload has ended is in the container under the name that its usage record carries, or has been
counted.  `archive_accounted` says so of every run: any number of exchanges, their uploads
interleaved in any way, failing before or after they have taken effect, and the module closed and
opened in between.
-/

set_option autoImplicit false

namespace TokenFoundry
namespace Audit

open JsonText (FloatText)

/-! ## Names -/

section Names

lemma segment_safe (value : String) : ∀ c ∈ segment value, isSafe c = true := by
  intro c hc
  obtain ⟨d, -, rfl⟩ := List.mem_map.1 hc
  by_cases hsafe : isSafe d = true
  · rw [if_pos hsafe]
    exact hsafe
  · rw [if_neg hsafe]
    rfl

lemma isSpace_of_isSafe {c : Char} (h : isSafe c = true) : Server.isSpace c = false := by
  have hranges : (((decide (c.val ≥ 65 ∧ c.val ≤ 90) ||
      (decide (c.val ≥ 97) && decide (c.val ≤ 122))) ||
        (decide (c.val ≥ 48) && decide (c.val ≤ 57))) || c == '_' || c == '-') = true := h
  have hbound : 45 ≤ c.toNat ∧ c.toNat ≤ 122 := by
    simp only [Bool.or_eq_true, Bool.and_eq_true, decide_eq_true_eq, beq_iff_eq, ge_iff_le,
      UInt32.le_iff_toNat_le] at hranges
    have hval : c.toNat = c.val.toNat := rfl
    rcases hranges with (((h | h) | h) | rfl) | rfl
    all_goals first | (simp at h; omega) | decide
  simp only [Server.isSpace, decide_eq_false_iff_not]
  omega

lemma dropWhile_tame {cs : Text} (h : ∀ c ∈ cs, isSafe c = true) :
    cs.dropWhile Server.isSpace = cs := by
  cases cs with
  | nil => rfl
  | cons c cs => rw [List.dropWhile_cons, isSpace_of_isSafe (h c List.mem_cons_self)]; rfl

/-- A value that goes into a name as it is. -/
def Tame (value : String) : Prop := value ≠ "" ∧ ∀ c ∈ value.toList, isSafe c = true

lemma segment_tame {value : String} (h : Tame value) : segment value = value.toList := by
  obtain ⟨hne, hsafe⟩ := h
  have hstrip : Server.strip value.toList = value.toList := by
    rw [Server.strip, dropWhile_tame hsafe, dropWhile_tame (by simpa using hsafe),
      List.reverse_reverse]
  have hnil : value.toList ≠ [] := by simpa using hne
  simp only [segment, if_neg hne, hstrip, if_neg hnil]
  calc _ = value.toList.map id := List.map_congr_left (fun c hc => by rw [if_pos (hsafe c hc)]; rfl)
    _ = value.toList := List.map_id _

lemma slash_notMem_segment (value : String) : '/' ∉ segment value :=
  fun h => absurd (segment_safe value _ h) (by decide)

/-- The day of a name: two times have the same folder if and only if they are of one day. -/
lemma dayPath_inj {t t' : Datetime} : dayPath t = dayPath t' ↔ t.days = t'.days := by
  have hparts : dayPath t = dayPath t' ↔ IsoText.pad 4 t.year = IsoText.pad 4 t'.year ∧
      IsoText.pad 2 t.month = IsoText.pad 2 t'.month ∧
        IsoText.pad 2 t.day = IsoText.pad 2 t'.day := by
    unfold dayPath
    rw [List.append_eq_append_iff_of_size_eq_left (by simp only [IsoText.pad_length]),
      List.cons_inj_right,
      List.append_eq_append_iff_of_size_eq_left (by simp only [IsoText.pad_length]),
      List.cons_inj_right]
  rw [hparts, ← Datetime.dateText_inj]
  unfold Datetime.dateText
  rw [List.append_eq_append_iff_of_size_eq_left (by simp only [IsoText.pad_length]),
    List.cons_inj_right,
    List.append_eq_append_iff_of_size_eq_left (by simp only [IsoText.pad_length]),
    List.cons_inj_right]

lemma splitOn_of_notMem {cs : Text} (h : '/' ∉ cs) : Splitting.splitOn ['/'] cs = [cs] :=
  Splitting.splitOn_of_none (Splitting.findSep_single_none.2 h)

lemma splitOn_pad (width n : ℕ) :
    Splitting.splitOn ['/'] (IsoText.pad width n) = [IsoText.pad width n] :=
  splitOn_of_notMem (IsoText.notMem_pad rfl width n)

/-- A name has five parts: year, month, day, tenant and request. -/
lemma splitOn_blobPath (t : Datetime) (subscription : Option String) (requestId : String) :
    Splitting.splitOn ['/'] (blobPath t subscription requestId) =
      [IsoText.pad 4 t.year, IsoText.pad 2 t.month, IsoText.pad 2 t.day,
        segment (subscription.getD ""), segment requestId ++ ".json.gz".toList] := by
  have hlast : '/' ∉ segment requestId ++ ".json.gz".toList := by
    rw [List.mem_append, not_or]
    exact ⟨slash_notMem_segment requestId, by decide⟩
  unfold blobPath dayPath
  simp only [List.append_assoc, List.cons_append, Splitting.splitOn_append]
  rw [splitOn_pad, splitOn_pad, splitOn_pad, splitOn_of_notMem (slash_notMem_segment _),
    splitOn_of_notMem hlast]
  rfl

/-- Two exchanges share a name exactly if they share its day and both segments. -/
theorem blobPath_inj {t t' : Datetime} {subscription subscription' : Option String}
    {requestId requestId' : String} :
    blobPath t subscription requestId = blobPath t' subscription' requestId' ↔
      t.days = t'.days ∧ segment (subscription.getD "") = segment (subscription'.getD "") ∧
        segment requestId = segment requestId' := by
  constructor
  · intro h
    have hparts := congrArg (Splitting.splitOn ['/']) h
    rw [splitOn_blobPath, splitOn_blobPath] at hparts
    simp only [List.cons.injEq, and_true] at hparts
    obtain ⟨hyear, hmonth, hday, hwho, hwhich⟩ := hparts
    refine ⟨?_, hwho, List.append_cancel_right hwhich⟩
    rw [← dayPath_inj, dayPath, dayPath, hyear, hmonth, hday]
  · rintro ⟨hdays, hwho, hwhich⟩
    rw [blobPath, blobPath, dayPath_inj.2 hdays, hwho, hwhich]

/-- The prefix of a tenant's blobs of a day, by which they are listed. -/
def tenantPrefix (day : Datetime) (tenant : Text) : Text := dayPath day ++ '/' :: (tenant ++ ['/'])

lemma prefix_iff {day t : Datetime} {tenant : Text} (htenant : '/' ∉ tenant)
    {subscription : Option String} {requestId : String} :
    tenantPrefix day tenant <+: blobPath t subscription requestId ↔
      t.days = day.days ∧ segment (subscription.getD "") = tenant := by
  constructor
  · rintro ⟨rest, h⟩
    have hparts := congrArg (Splitting.splitOn ['/']) h
    rw [splitOn_blobPath] at hparts
    unfold tenantPrefix dayPath at hparts
    simp only [List.append_assoc, List.cons_append, List.nil_append, Splitting.splitOn_append]
      at hparts
    rw [splitOn_pad, splitOn_pad, splitOn_pad, splitOn_of_notMem htenant] at hparts
    simp only [List.cons_append, List.nil_append, List.cons.injEq] at hparts
    obtain ⟨hyear, hmonth, hday, hwho, -⟩ := hparts
    refine ⟨?_, hwho.symm⟩
    rw [← dayPath_inj, dayPath, dayPath, hyear, hmonth, hday]
  · rintro ⟨hdays, rfl⟩
    refine ⟨segment requestId ++ ".json.gz".toList, ?_⟩
    rw [tenantPrefix, blobPath, dayPath_inj.2 hdays]
    simp

end Names

/-- The tenant of an exchange, as it stands in a name. -/
def Exchange.owner {K : Type} (x : Exchange K) : Text := segment (x.subscription.getD "")

/-! ## The archive and its outside -/

section Outside

variable {K ι : Type} [DecidableEq ι]

/-- What a task runs: the archiving of an exchange, or the end of the process. -/
inductive Job (K : Type)
  | exchange (x : Exchange K)
  | aclose

def Job.program : Job K → Task K (Option Text)
  | .exchange x => archiveExchange x
  | .aclose => Audit.aclose

/-- The module and the storage account behind it. -/
structure World (ι : Type) where
  archive : Archive ι
  /-- The container: its blobs, with the newest of a name in front. -/
  blobs : List (Text × Bytes)

/-- The outside decides whether a payload and its task, and a client, can be made. -/
structure Pick where
  scheduled : Bool
  built : Bool

/-- How the calls are answered: the module's globals change as the code changes them, and an upload
puts its blob into the container. -/
def serve (st : Settings K) (i : ι) (w : World ι) :
    (o : Call K) → Pick → Option ((auditApi K).Reply o × World ι)
  | .submit x, p =>
      let submitted := submit st p.scheduled i x w.archive
      some (.ok submitted.1, { w with archive := submitted.2 })
  | .getClient, p =>
      let found := getClient st p.built w.archive
      some (.ok found.1, { w with archive := found.2 })
  | .uploadBlob name data, _ => some (.ok (), { w with blobs := (name, data) :: w.blobs })
  | .drop, _ => some (.ok (), { w with
      archive := { w.archive with dropped := i :: w.archive.dropped } })
  | .discard, _ => some (.ok (), { w with
      archive := { w.archive with inflight := w.archive.inflight.erase i } })
  | .gather, _ => some (.ok (), w)
  | .takeClients, _ => some (.ok w.archive.client, { w with
      archive := { w.archive with client := false, initFailed := false } })
  | .close, _ => some (.ok (), w)

/-- The awaits on the storage account may raise; the other points cannot. -/
def mayRaise : Call K → Raised → Bool
  | .uploadBlob _ _, _ => true
  | .close, _ => true
  | _, _ => false

/-- An upload may have taken effect all the same, when the answer was lost. -/
def mayLose : Call K → Raised → Bool
  | .uploadBlob _ _, _ => true
  | _, _ => false

def env (st : Settings K) : Env (auditApi K) ι (World ι) :=
  .faulty (serve st) mayRaise mayLose (fun _ _ => False)

/-- The tasks, before any of them has run. -/
def start (jobs : ι → Job K) (w : World ι) :
    Config (auditApi K) ι (World ι) (Except Raised (Option Text)) :=
  ⟨w, fun i => (jobs i).program.run⟩

/-! ## The invariant -/

/-- The uploads in flight are bounded, and every blob is one of those that were there before, or the
payload of an exchange of its name. -/
structure Inv (st : Settings K) (jobs : ι → Job K) (old : List (Text × Bytes)) (w : World ι) :
    Prop where
  bounded : w.archive.inflight.length ≤ maxInflight
  named : ∀ e ∈ w.blobs, e ∈ old ∨ ∃ i x, jobs i = .exchange x ∧ e = (x.path, x.payload st)

/-- The others neither count the exchange of a task nor touch its upload, and delete no blob. -/
structure Rely (i : ι) (w w' : World ι) : Prop where
  dropped : w'.archive.dropped.count i = w.archive.dropped.count i
  inflight : w'.archive.inflight.count i = w.archive.inflight.count i
  names : w.blobs.map Prod.fst ⊆ w'.blobs.map Prod.fst

lemma Rely.refl (i : ι) (w : World ι) : Rely i w w := ⟨rfl, rfl, fun _ h => h⟩

lemma Rely.trans {i : ι} {w₁ w₂ w₃ : World ι} (h₁ : Rely i w₁ w₂) (h₂ : Rely i w₂ w₃) :
    Rely i w₁ w₃ :=
  ⟨h₂.dropped.trans h₁.dropped, h₂.inflight.trans h₁.inflight, fun _ h => h₂.names (h₁.names h)⟩

/-- The tasks under interference: what holds of the module throughout, and what each task may rely
on. -/
def discipline (st : Settings K) (jobs : ι → Job K) (old : List (Text × Bytes)) :
    Discipline (env (ι := ι) st) where
  inv := Inv st jobs old
  rely := Rely
  busy _ _ := True
  rely_refl := Rely.refl
  rely_trans _ _ _ _ := Rely.trans
  drift_inv _ h := h.elim
  drift_rely _ _ h := h.elim

/-! ## Every call -/

section Steps

variable {st : Settings K} {jobs : ι → Job K} {old : List (Text × Bytes)} {i : ι} {w w' : World ι}

/-- A step keeps the invariant and what the others rely on. -/
def Kept (st : Settings K) (jobs : ι → Job K) (old : List (Text × Bytes)) (i : ι)
    (w w' : World ι) : Prop :=
  Inv st jobs old w' ∧ ∀ j, j ≠ i → Rely j w w'

/-- The task of an exchange is here: so often it has been counted, and so often is it in flight. -/
structure Stands (i : ι) (counted flying : ℕ) (w : World ι) : Prop where
  dropped : w.archive.dropped.count i = counted
  inflight : w.archive.inflight.count i = flying

lemma Stands.rely {counted flying : ℕ} (h : Stands i counted flying w) (hr : Rely i w w') :
    Stands i counted flying w' := ⟨hr.dropped.trans h.dropped, hr.inflight.trans h.inflight⟩

/-- A step that leaves the lists alone keeps the invariant, and where every exchange stands. -/
lemma kept_same (w' : World ι) (hI : Inv st jobs old w)
    (hdropped : w'.archive.dropped = w.archive.dropped)
    (hinflight : w'.archive.inflight = w.archive.inflight) (hblobs : w'.blobs = w.blobs) :
    Kept st jobs old i w w' ∧ ∀ counted flying, Stands i counted flying w →
      Stands i counted flying w' := by
  refine ⟨⟨⟨hinflight ▸ hI.bounded, hblobs ▸ hI.named⟩, fun j _ => ?_⟩, fun c n h => ?_⟩
  · exact ⟨by rw [hdropped], by rw [hinflight], by rw [hblobs]; exact fun _ h => h⟩
  · exact ⟨hdropped ▸ h.dropped, hinflight ▸ h.inflight⟩

/-- An exchange is counted as dropped, once more than before. -/
lemma kept_count (w' : World ι) (hI : Inv st jobs old w)
    (hdropped : w'.archive.dropped = i :: w.archive.dropped)
    (hinflight : w'.archive.inflight = w.archive.inflight) (hblobs : w'.blobs = w.blobs) :
    Kept st jobs old i w w' ∧ ∀ counted flying, Stands i counted flying w →
      Stands i (counted + 1) flying w' := by
  refine ⟨⟨⟨hinflight ▸ hI.bounded, hblobs ▸ hI.named⟩, fun j hj => ?_⟩, fun c n h => ?_⟩
  · refine ⟨?_, by rw [hinflight], by rw [hblobs]; exact fun _ h => h⟩
    rw [hdropped, List.count_cons_of_ne (Ne.symm hj)]
  · refine ⟨?_, hinflight ▸ h.inflight⟩
    rw [hdropped, List.count_cons_self, h.dropped]

/-- What `submit` does for an exchange that has not been seen. -/
lemma submit_spec (hI : Inv st jobs old w) (x : Exchange K) (scheduled : Bool) :
    Kept st jobs old i w { w with archive := (submit st scheduled i x w.archive).2 } ∧
      (Stands i 0 0 w →
        (submit st scheduled i x w.archive).1 = none ∧ st.enabled = false ∧
            Stands i 0 0 { w with archive := (submit st scheduled i x w.archive).2 } ∨
          (submit st scheduled i x w.archive).1 = none ∧
            Stands i 1 0 { w with archive := (submit st scheduled i x w.archive).2 } ∨
          (submit st scheduled i x w.archive).1 = some (x.path, x.payload st) ∧
            Stands i 0 1 { w with archive := (submit st scheduled i x w.archive).2 }) := by
  unfold submit
  split_ifs with henabled hfull hscheduled
  · obtain ⟨hkept, hstands⟩ := kept_same (i := i) w hI rfl rfl rfl
    exact ⟨hkept, fun h => .inl ⟨rfl, by simpa using henabled, h⟩⟩
  · obtain ⟨hkept, hstands⟩ := kept_count (i := i)
      { w with archive := { w.archive with dropped := i :: w.archive.dropped } } hI rfl rfl rfl
    exact ⟨hkept, fun h => .inr (.inl ⟨rfl, hstands 0 0 h⟩)⟩
  · refine ⟨⟨⟨?_, hI.named⟩, fun j hj => ⟨rfl, ?_, fun _ h => h⟩⟩, fun h => ?_⟩
    · rw [List.length_cons]
      omega
    · exact List.count_cons_of_ne (Ne.symm hj)
    · refine .inr (.inr ⟨rfl, h.dropped, ?_⟩)
      rw [List.count_cons_self, h.inflight]
  · obtain ⟨hkept, hstands⟩ := kept_count (i := i)
      { w with archive := { w.archive with dropped := i :: w.archive.dropped } } hI rfl rfl rfl
    exact ⟨hkept, fun h => .inr (.inl ⟨rfl, hstands 0 0 h⟩)⟩

omit [DecidableEq ι] in
lemma getClient_lists (st : Settings K) (built : Bool) (a : Archive ι) :
    (getClient st built a).2.dropped = a.dropped ∧
      (getClient st built a).2.inflight = a.inflight := by
  unfold getClient
  split_ifs <;> exact ⟨rfl, rfl⟩

/-- A blob is put into the container by the task of its exchange. -/
lemma kept_upload (hI : Inv st jobs old w) {x : Exchange K} (hjob : jobs i = .exchange x) :
    Kept st jobs old i w { w with blobs := (x.path, x.payload st) :: w.blobs } := by
  refine ⟨⟨hI.bounded, fun e he => ?_⟩, fun j _ => ⟨rfl, rfl, fun name hname => ?_⟩⟩
  · rcases List.mem_cons.1 he with rfl | he
    · exact .inr ⟨i, x, hjob, rfl⟩
    · exact hI.named e he
  · exact List.mem_cons_of_mem _ hname

/-- The upload of an exchange leaves the set, and with it the flight of the exchange ends. -/
lemma kept_discard (hI : Inv st jobs old w) :
    Kept st jobs old i w { w with
      archive := { w.archive with inflight := w.archive.inflight.erase i } } ∧
    ∀ counted, Stands i counted 1 w → Stands i counted 0 { w with
      archive := { w.archive with inflight := w.archive.inflight.erase i } } := by
  refine ⟨⟨⟨?_, hI.named⟩, fun j hj => ⟨rfl, ?_, fun _ h => h⟩⟩, fun c h => ⟨h.dropped, ?_⟩⟩
  · exact (List.length_erase_le).trans hI.bounded
  · exact List.count_erase_of_ne hj
  · have hcount := List.count_erase_self (a := i) (l := w.archive.inflight)
    rw [h.inflight] at hcount
    exact hcount

end Steps

/-! ## The tasks -/

section Tasks

variable {st : Settings K} {jobs : ι → Job K} {old : List (Text × Bytes)} {i : ι} {w : World ι}

/-- The task may go on here. -/
abbrev Runs (st : Settings K) (jobs : ι → Job K) (old : List (Text × Bytes)) (i : ι) {α : Type}
    (p : Task K α)
    (Q : α → World ι → Prop) (X : Raised → World ι → Prop) (w : World ι) : Prop :=
  (discipline st jobs old).wpE anyStep i p Q X w

/-- The rule for a call: it answers, or an await raises without effect, or after it. -/
lemma runs_ask {o : Call K} {Q : o.Answer → World ι → Prop} {X : Raised → World ι → Prop}
    (hQ : ∀ w₁, Rely i w w₁ → Inv st jobs old w₁ → ∀ p b w₂, serve st i w₁ o p = some (.ok b, w₂) →
      Kept st jobs old i w₁ w₂ ∧ Q b w₂ ∧ ∀ e, mayLose o e = true → X e w₂)
    (hX : ∀ w₁, Rely i w w₁ → ∀ e, mayRaise o e = true → X e w₁) :
    Runs st jobs old i (ask o) Q X w := by
  refine Discipline.wpE_ask (fun w₁ hR hI => ⟨trivial, fun x r w₂ hact _ => ?_⟩)
  rcases Env.faulty_act hact with ⟨p, r₀, hserve, hr⟩ | ⟨rfl, e, he, rfl⟩
  · obtain ⟨b, rfl⟩ : ∃ b, r₀ = .ok b := by
      cases o <;> cases hserve <;> exact ⟨_, rfl⟩
    obtain ⟨hkept, hb, hlost⟩ := hQ w₁ hR hI p b w₂ hserve
    refine ⟨hkept.1, hkept.2, fun a ha => ?_, fun e he => ?_⟩
    · rcases hr with rfl | ⟨e, -, rfl⟩
      · cases ha
        exact hb
      · cases ha
    · rcases hr with rfl | ⟨e', hl, rfl⟩
      · cases he
      · cases he
        exact hlost e hl
  · refine ⟨hI, fun j _ => Rely.refl j _, fun a ha => ?_, fun e' he' => ?_⟩
    · cases ha
    · cases he'
      exact hX _ hR e he

/-- A payload is counted, whatever has become of its flight. -/
lemma runs_drop {counted flying : ℕ} (h : Stands i counted flying w) :
    Runs st jobs old i (ask .drop) (fun _ w => Stands i (counted + 1) flying w) (fun _ _ => False)
      w := by
  refine runs_ask (fun w₁ hR hI p b w₂ hserve => ?_) (fun w₁ hR e he => by cases he)
  cases hserve
  obtain ⟨hkept, hstands⟩ := kept_count (i := i)
    { w₁ with archive := { w₁.archive with dropped := i :: w₁.archive.dropped } } hI rfl rfl rfl
  exact ⟨hkept, hstands _ _ (h.rely hR), fun e he => by cases he⟩

/-- What the upload of an exchange comes to: its payload is counted, or its blob is there. -/
def Uploaded (x : Exchange K) (i : ι) (flying : ℕ) (w : World ι) : Prop :=
  Stands i 1 flying w ∨ Stands i 0 flying w ∧ x.path ∈ w.blobs.map Prod.fst

lemma Uploaded.rely {x : Exchange K} {flying : ℕ} {w' : World ι} (h : Uploaded x i flying w)
    (hr : Rely i w w') : Uploaded x i flying w' :=
  h.imp (fun h => h.rely hr) (fun h => ⟨h.1.rely hr, hr.names h.2⟩)

lemma runs_getClient {flying : Nat} (h : Stands i 0 flying w) :
    Runs st jobs old i (ask .getClient) (fun _ w => Stands i 0 flying w) (fun _ _ => False) w := by
  refine runs_ask (fun w₁ hR hI p b w₂ hserve => ?_) (fun w₁ hR e he => by cases he)
  cases hserve
  obtain ⟨hdropped, hinflight⟩ := getClient_lists st p.built w₁.archive
  obtain ⟨hkept, hstands⟩ := kept_same (i := i)
    { w₁ with archive := (getClient st p.built w₁.archive).2 } hI hdropped hinflight rfl
  exact ⟨hkept, hstands _ _ (h.rely hR), fun e he => by cases he⟩

lemma runs_upload {x : Exchange K} (hjob : jobs i = .exchange x) (h : Stands i 0 1 w) :
    Runs st jobs old i (upload x.path (x.payload st)) (fun _ w => Uploaded x i 1 w)
      (fun _ _ => False) w := by
  unfold upload
  refine (Discipline.wpE_tryCatch _ _).2 ?_
  -- What raises has left the exchange uncounted, and is caught.
  have hcaught : ∀ (e : Raised) (w : World ι), Stands i 0 1 w →
      Runs st jobs old i (ask .drop) (fun _ w => Uploaded x i 1 w) (fun _ _ => False) w :=
    fun e w hw => Discipline.wpE_mono (fun _ _ h => .inl h) (fun _ _ h => h) (runs_drop hw)
  have hready : Runs st jobs old i (ask .getClient) (fun _ w => Stands i 0 1 w)
      (fun _ w => Stands i 0 1 w) w :=
    Discipline.wpE_mono (fun _ _ h => h) (fun _ _ h => h.elim) (runs_getClient h)
  refine Discipline.wpE_mono (fun _ _ h => h) hcaught
    (Discipline.wpE_then hready (fun ready w hw => ?_))
  cases ready with
  | false =>
      exact Discipline.wpE_mono (fun _ _ h => .inl h) (fun _ _ h => h.elim) (runs_drop hw)
  | true =>
      refine runs_ask (fun w₁ hR hI p b w₂ hserve => ?_) (fun w₁ hR e _ => hw.rely hR)
      cases hserve
      have hstands : Stands i 0 1 { w₁ with blobs := (x.path, x.payload st) :: w₁.blobs } :=
        ⟨(hw.rely hR).dropped, (hw.rely hR).inflight⟩
      exact ⟨kept_upload hI hjob, .inr ⟨hstands, List.mem_cons_self⟩, fun _ _ => hstands⟩

/-- What becomes of an exchange: nothing where there is no archive; otherwise it is counted, with a
name or without one, or its blob is there. -/
inductive Outcome (st : Settings K) (x : Exchange K) (i : ι) (w : World ι) : Option Text → Prop
  | disabled : st.enabled = false → Stands i 0 0 w → Outcome st x i w none
  | refused : Stands i 1 0 w → Outcome st x i w none
  | counted : Stands i 1 0 w → Outcome st x i w (some x.path)
  | archived : Stands i 0 0 w → x.path ∈ w.blobs.map Prod.fst → Outcome st x i w (some x.path)

lemma Outcome.rely {x : Exchange K} {name : Option Text} {w' : World ι}
    (h : Outcome st x i w name) (hr : Rely i w w') : Outcome st x i w' name := by
  cases h with
  | disabled henabled h => exact .disabled henabled (h.rely hr)
  | refused h => exact .refused (h.rely hr)
  | counted h => exact .counted (h.rely hr)
  | archived h hmem => exact .archived (h.rely hr) (hr.names hmem)

/-- What `submit` leaves: nothing to upload, or the upload of the exchange in flight. -/
def Submitted (st : Settings K) (x : Exchange K) (i : ι) (submitted : Option (Text × Bytes))
    (w : World ι) : Prop :=
  submitted = none ∧ (st.enabled = false ∧ Stands i 0 0 w ∨ Stands i 1 0 w) ∨
    submitted = some (x.path, x.payload st) ∧ Stands i 0 1 w

lemma runs_submit (x : Exchange K) (h : Stands i 0 0 w) :
    Runs st jobs old i (ask (.submit x)) (fun submitted w => Submitted st x i submitted w)
      (fun _ _ => False) w := by
  refine runs_ask (fun w₁ hR hI p b w₂ hserve => ?_) (fun w₁ hR e he => by cases he)
  cases hserve
  obtain ⟨hkept, hcases⟩ := submit_spec (i := i) hI x p.scheduled
  refine ⟨hkept, ?_, fun e he => by cases he⟩
  rcases hcases (h.rely hR) with ⟨hnone, henabled, hs⟩ | ⟨hnone, hs⟩ | ⟨hsome, hs⟩
  · exact .inl ⟨hnone, .inl ⟨henabled, hs⟩⟩
  · exact .inl ⟨hnone, .inr hs⟩
  · exact .inr ⟨hsome, hs⟩

lemma runs_discard {x : Exchange K} (h : Uploaded x i 1 w) :
    Runs st jobs old i (ask .discard) (fun _ w => Uploaded x i 0 w) (fun _ _ => False) w := by
  refine runs_ask (fun w₁ hR hI p b w₂ hserve => ?_) (fun w₁ hR e he => by cases he)
  cases hserve
  obtain ⟨hkept, hstands⟩ := kept_discard (i := i) hI
  refine ⟨hkept, ?_, fun e he => by cases he⟩
  exact (h.rely hR).imp (hstands 1) (fun h => ⟨hstands 0 h.1, h.2⟩)

lemma runs_exchange {x : Exchange K} (hjob : jobs i = .exchange x) (h : Stands i 0 0 w) :
    Runs st jobs old i (archiveExchange x) (fun name w => Outcome st x i w name)
      (fun _ _ => False) w := by
  unfold archiveExchange
  refine Discipline.wpE_then (runs_submit x h) (fun submitted w hw => ?_)
  rcases hw with ⟨rfl, ⟨henabled, hs⟩ | hs⟩ | ⟨rfl, hs⟩
  · exact .disabled henabled hs
  · exact .refused hs
  · refine Discipline.wpE_then (runs_upload hjob hs) (fun _ w hw => ?_)
    refine Discipline.wpE_then (runs_discard hw) (fun _ w hw => ?_)
    rcases hw with hw | ⟨hw, hmem⟩
    · exact .counted hw
    · exact .archived hw hmem

/-- The calls of `aclose`, which concern no exchange. -/
lemma runs_idle {o : Call K} {w : World ι} (ho : ∀ w₁ p (b : o.Answer) w₂,
    serve st i w₁ o p = some (.ok b, w₂) → w₂.archive.dropped = w₁.archive.dropped ∧
      w₂.archive.inflight = w₁.archive.inflight ∧ w₂.blobs = w₁.blobs) :
    Runs st jobs old i (ask o) (fun _ _ => True) (fun _ _ => True) w := by
  refine runs_ask (fun w₁ hR hI p b w₂ hserve => ?_) (fun _ _ _ _ => trivial)
  obtain ⟨hdropped, hinflight, hblobs⟩ := ho w₁ p b w₂ hserve
  exact ⟨(kept_same w₂ hI hdropped hinflight hblobs).1, trivial, fun _ _ => trivial⟩

lemma runs_aclose : Runs st jobs old i (aclose : Task K _) (fun _ _ => True)
    (fun _ _ => True) w := by
  have hclose : ∀ w, Runs st jobs old i (tryCatch (ask .close) (fun _ => return ()) : Task K Unit)
      (fun _ _ => True) (fun _ _ => True) w := by
    intro w
    refine (Discipline.wpE_tryCatch _ _).2 ?_
    exact runs_idle (by rintro w₁ p b w₂ ⟨⟩; exact ⟨rfl, rfl, rfl⟩)
  unfold aclose
  refine Discipline.wpE_then
    (runs_idle (by rintro w₁ p b w₂ ⟨⟩; exact ⟨rfl, rfl, rfl⟩)) (fun _ w _ => ?_)
  refine Discipline.wpE_then
    (runs_idle (by rintro w₁ p b w₂ ⟨⟩; exact ⟨rfl, rfl, rfl⟩)) (fun opened w _ => ?_)
  cases opened with
  | false => trivial
  | true =>
      refine Discipline.wpE_then (hclose w) (fun _ w _ => ?_)
      exact Discipline.wpE_then (hclose w) (fun _ _ _ => trivial)

end Tasks

/-! ## Runs -/

/-- The hub has just been started; the container may have blobs from before. -/
structure World.Idle (w : World ι) : Prop where
  dropped : w.archive.dropped = []
  inflight : w.archive.inflight = []

/-- Nothing has been archived yet, and nothing is on its way. -/
structure World.Fresh (w : World ι) : Prop extends World.Idle w where
  blobs : w.blobs = []

/-- What a task that has ended has left behind: where its exchange is, by the name it has
returned. -/
def Left (st : Settings K) (jobs : ι → Job K) (i : ι) (r : Except Raised (Option Text))
    (w : World ι) : Prop :=
  ∀ x, jobs i = .exchange x → ∃ name, r = .ok name ∧ Outcome st x i w name

section Runs

variable {st : Settings K} {jobs : ι → Job K} {old : List (Text × Bytes)} {w : World ι}

lemma wp_program (h : w.Idle) (i : ι) :
    (discipline st jobs old).wp anyStep i (jobs i).program.run (Left st jobs i) w := by
  have hstands : Stands i 0 0 w := ⟨by simp [h.dropped], by simp [h.inflight]⟩
  cases hjob : jobs i with
  | exchange x =>
      refine Discipline.wp_mono (fun r w hr => ?_) (runs_exchange hjob hstands)
      intro x' hx'
      rw [hjob] at hx'
      cases hx'
      cases r with
      | ok name => exact ⟨name, rfl, hr⟩
      | error e => exact hr.elim
  | aclose =>
      have hclosed : Runs st jobs old i (aclose : Task K _) (fun _ _ => True) (fun _ _ => True) w :=
        runs_aclose
      refine Discipline.wp_mono (fun r w hr => ?_) hclosed
      intro x' hx'
      rw [hjob] at hx'
      cases hx'

lemma left_stable (i : ι) (r : Except Raised (Option Text)) :
    (discipline st jobs old).Stable i (Left st jobs i r) := by
  intro w w' hr hI hleft x hx
  obtain ⟨name, hname, houtcome⟩ := hleft x hx
  exact ⟨name, hname, houtcome.rely hr⟩

lemma inv_start (h : w.Idle) : (discipline st jobs w.blobs).inv (start jobs w).world :=
  ⟨by simp [start, h.inflight], fun _ he => .inl he⟩

lemma inv_reached (hw : w.Idle)
    {c : Config (auditApi K) ι (World ι) (Except Raised (Option Text))}
    (h : Reaches (env st) anyStep (start jobs w) c) : Inv st jobs w.blobs c.world :=
  (Discipline.sound left_stable (inv_start hw) (wp_program hw) h).1

/-- **No exchange is lost silently.**  In every run of any exchanges and shutdowns, whatever the
container held before and whatever the storage account does: at most 64 uploads are in flight, and
an exchange whose upload has ended either has a blob in the container under the name that `submit`
has given it, or has been counted, once; where the archive is enabled there is no third case. -/
theorem archive_accounted (st : Settings K) (jobs : ι → Job K) (w : World ι) (hw : w.Idle)
    {c : Config (auditApi K) ι (World ι) (Except Raised (Option Text))}
    (h : Reaches (env st) anyStep (start jobs w) c) :
    c.world.archive.inflight.length ≤ maxInflight ∧
      ∀ i x r, jobs i = .exchange x → c.Returned i r →
        ∃ name, r = .ok name ∧ Outcome st x i c.world name := by
  refine ⟨(inv_reached hw h).bounded, fun i x r hjob hr => ?_⟩
  exact Discipline.returned_of_sound left_stable (inv_start hw) (wp_program hw) h hr x hjob

/-- **Below the prefix of a tenant lies what is the tenant's.**  In every run, every blob is the
payload of an exchange, and it is below the prefix of a day and a tenant if and only if the exchange
is of that day and that tenant. -/
theorem archive_isolated (st : Settings K) (jobs : ι → Job K) (w : World ι) (hw : w.Fresh)
    {c : Config (auditApi K) ι (World ι) (Except Raised (Option Text))}
    (h : Reaches (env st) anyStep (start jobs w) c) :
    ∀ e ∈ c.world.blobs, ∃ i x, jobs i = .exchange x ∧ e.2 = x.payload st ∧
      (Tame (x.subscription.getD "") → x.owner = (x.subscription.getD "").toList) ∧
        ∀ day tenant, Tame tenant → (tenantPrefix day tenant.toList <+: e.1 ↔
          x.moment.days = day.days ∧ x.owner = tenant.toList) := by
  intro e he
  obtain hold | ⟨i, x, hjob, rfl⟩ := (inv_reached hw.toIdle h).named e he
  · rw [hw.blobs] at hold
    exact absurd hold List.not_mem_nil
  refine ⟨i, x, hjob, rfl, segment_tame, fun day tenant htenant => prefix_iff ?_⟩
  rw [← segment_tame htenant]
  exact slash_notMem_segment tenant

end Runs

end Outside

/-! ## A run -/

/-- An exchange of a tenant, on the first of September 2026. -/
def audited (requestId : String) : Exchange ℚ where
  requestId := requestId
  moment := ⟨63923817600000000, by decide⟩
  subscription := some "acme-1"
  apiId := none
  endUser := none
  model := .str "gpt-4o"
  endpoint := "messages"
  streamed := false
  status := 200
  request := .value .null
  response := .value .null

def archiving : Settings ℚ := ⟨true, 1000, FloatText.fractions, id⟩

def twoExchanges : Bool → Job ℚ
  | false => .exchange (audited "r1")
  | true => .exchange (audited "r/2")

def emptyArchive : World Bool := ⟨⟨false, false, [], []⟩, []⟩

lemma emptyArchive_fresh : emptyArchive.Fresh := ⟨⟨rfl, rfl⟩, rfl⟩

/-- An archive with a blob from before. -/
def usedArchive : World Bool :=
  ⟨⟨false, false, [], []⟩, [("2026/08/31/acme-1/r0.json.gz".toList, [])]⟩

/-- Both exchanges are submitted; the upload of the first one raises, and is counted. -/
def oneUpload : List (Bool × Fate Pick Raised) :=
  [(false, .served ⟨true, true⟩), (true, .served ⟨true, true⟩), (false, .served ⟨true, true⟩),
    (true, .served ⟨true, true⟩), (false, .refused .exception), (true, .served ⟨true, true⟩),
    (false, .served ⟨true, true⟩), (false, .served ⟨true, true⟩), (true, .served ⟨true, true⟩)]

/-- One exchange has been counted, and the blob of the other one is there. -/
theorem archive_accounted_oneUpload :
    ∃ c, Reaches (env archiving) anyStep (start twoExchanges usedArchive) c ∧
      (∃ name, Outcome archiving (audited "r1") false c.world name ∧ Stands false 1 0 c.world) ∧
        ∃ name, Outcome archiving (audited "r/2") true c.world name ∧ Stands true 0 0 c.world := by
  obtain ⟨c, hreach, hone, htwo, hcounted, hstored⟩ := Config.reaches_of_play (env archiving)
    anyStep (start twoExchanges usedArchive) oneUpload
    (fun c => c.Returned false (.ok (some (audited "r1").path)) ∧
      c.Returned true (.ok (some (audited "r/2").path)) ∧
        c.world.archive.dropped = [false] ∧ c.world.archive.inflight = []) (by decide +kernel)
  obtain ⟨-, hleft⟩ := archive_accounted archiving twoExchanges usedArchive ⟨rfl, rfl⟩
    hreach
  obtain ⟨name, -, houtcome⟩ := hleft false _ _ rfl hone
  obtain ⟨name', -, houtcome'⟩ := hleft true _ _ rfl htwo
  refine ⟨c, hreach, ⟨name, houtcome, ?_⟩, name', houtcome', ?_⟩
  · exact ⟨by rw [hcounted]; rfl, by rw [hstored]; rfl⟩
  · exact ⟨by rw [hcounted]; rfl, by rw [hstored]; rfl⟩

/-- The request id that looks like a path stays below the prefix of its tenant. -/
theorem archive_isolated_oneUpload :
    ∃ c, Reaches (env archiving) anyStep (start twoExchanges emptyArchive) c ∧
      c.world.blobs.map Prod.fst = ["2026/09/01/acme-1/r_2.json.gz".toList] ∧
      ∀ e ∈ c.world.blobs, ∃ i x, twoExchanges i = .exchange x ∧ e.2 = x.payload archiving := by
  obtain ⟨c, hreach, hnames⟩ := Config.reaches_of_play (env archiving) anyStep
    (start twoExchanges emptyArchive) oneUpload
    (fun c => c.world.blobs.map Prod.fst = ["2026/09/01/acme-1/r_2.json.gz".toList])
    (by decide +kernel)
  refine ⟨c, hreach, hnames, fun e he => ?_⟩
  obtain ⟨i, x, hjob, hpayload, -⟩ := archive_isolated archiving twoExchanges emptyArchive
    emptyArchive_fresh hreach e he
  exact ⟨i, x, hjob, hpayload⟩

end Audit
end TokenFoundry
