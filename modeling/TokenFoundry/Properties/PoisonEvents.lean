import TokenFoundry.Services.UsageCaptureImport

/-!
# Poison events

An event that `event_to_document` cannot convert raises, and the exception ends the loop over the
blobs: neither the rest of its blob nor the blobs behind it are imported, in this run and in every
later one.  The name of the model alone is enough, because it is looked up in a dictionary
(`poisoned`).

`convertible` is what an event needs.  `imports_all` says that a run to which everything outside
answers imports all of its blobs, and moves the watermark to the last one, exactly when each of
their events with a request id has it.
-/

set_option autoImplicit false

namespace TokenFoundry
namespace UsageCaptureImport

open Prog.Raising (exec)
open UsageIngest (Document)

variable {K : Type} [PyFloat K]

/-! ## What can be converted -/

/-- Upstream's own split of the tokens is there, so that the usage block of the event is not
read. -/
def ownSplit (event : Dict K) : Bool :=
  match Billing.tokensFromCopilotUsage (Json.get event "copilot_usage") with
  | .ok tokens => tokens.any
  | .error _ => false

/-- The counts of the hub that stand in for upstream's split. -/
def hubCounts : List String := ["input_tokens", "output_tokens", "cached_tokens"]

/-- A count that is a number can be made an integer. -/
def countable (event : Dict K) (field : String) : Bool :=
  Billing.converts (Billing.count (Json.get event field))

/-- Every field can be converted: the time lies in the years of `datetime`, the counts and the price
are finite and not too large, and the model can be looked up. -/
def convertible (event : Dict K) : Bool :=
  Billing.converts (ownTime (Json.get event "ts")) &&
  Billing.countable (Json.get event "copilot_usage") &&
  (ownSplit event || hubCounts.all (countable event)) &&
  (modelOf event).hashable &&
  Billing.priceable (Json.get event "copilot_usage") &&
  countable event "status" && countable event "total_tokens"

lemma isOk_getD {α : Type} (n : Option (Except Failure α)) (a : α) :
    (n.getD (.ok a)).isOk = Billing.converts n := by
  cases n <;> rfl

lemma isOk_bind {α β : Type} (x : Except Failure α) (f : α → Except Failure β) :
    (x >>= f).isOk = match x with
      | .ok a => (f a).isOk
      | .error _ => false := by
  cases x <;> rfl

lemma int_isOk (event : Dict K) (field : String) :
    (int (Json.get event field)).isOk = countable event field := isOk_getD _ _

lemma markupOf_isOk (markups : Markups K) (model : Json K) :
    (markupOf markups model).isOk = model.hashable := by
  cases model <;> rfl

lemma tokensOf_isOk (event : Dict K) :
    (tokensOf event).isOk = (Billing.countable (Json.get event "copilot_usage") &&
      (ownSplit event || hubCounts.all (countable event))) := by
  have hok := Billing.tokensFromCopilotUsage_isOk (Json.get event "copilot_usage")
  unfold tokensOf ownSplit
  rw [isOk_bind, ← hok]
  cases Billing.tokensFromCopilotUsage (Json.get event "copilot_usage") with
  | error f => rfl
  | ok tokens =>
      dsimp only
      split_ifs with hany
      · simp only [hany]
        rfl
      · simp only [hubCounts, List.all_cons, List.all_nil, ← int_isOk, isOk_bind]
        simp only [Bool.not_eq_true] at hany
        simp only [hany]
        cases int (Json.get event "input_tokens") <;> cases int (Json.get event "output_tokens") <;>
          cases int (Json.get event "cached_tokens") <;> rfl

/-- An event is converted exactly when it can be, whatever the markups and the clock say. -/
lemma compute_isOk (event : Dict K) (markups : Markups K) (now : Datetime) :
    (compute event markups now).isOk = convertible event := by
  have hts : (parseTs (Json.get event "ts") now).isOk =
      Billing.converts (ownTime (Json.get event "ts")) := isOk_getD _ _
  have hparts : convertible event = ((parseTs (Json.get event "ts") now).isOk &&
      ((tokensOf event).isOk && ((markupOf markups (modelOf event)).isOk &&
        (Billing.priceable (Json.get event "copilot_usage") &&
          ((int (Json.get event "status")).isOk &&
            (int (Json.get event "total_tokens")).isOk))))) := by
    rw [hts, tokensOf_isOk, markupOf_isOk, int_isOk, int_isOk]
    simp only [convertible, Bool.and_assoc]
  rw [hparts]
  unfold compute
  cases parseTs (Json.get event "ts") now with
  | error f => rfl
  | ok ts =>
    cases tokensOf event with
    | error f => rfl
    | ok tokens =>
      cases markupOf markups (modelOf event) with
      | error f => rfl
      | ok markup =>
        change (Billing.costFromCopilotUsage (Json.get event "copilot_usage") markup >>= _).isOk =
          (true && (true && (true && (Billing.priceable (Json.get event "copilot_usage") && _))))
        rw [← Billing.costFromCopilotUsage_isOk _ markup]
        cases Billing.costFromCopilotUsage (Json.get event "copilot_usage") markup with
        | error f => rfl
        | ok cost =>
          cases int (Json.get event "status") with
          | error f => rfl
          | ok status => cases int (Json.get event "total_tokens") <;> rfl

lemma eventToDocument_isOk (py : Runtime K) {event : Dict K} (h : keyed event = true)
    (markups : Markups K) (now : Datetime) :
    (eventToDocument py event markups now).isOk = convertible event := by
  rw [eventToDocument_of_keyed py h, ← compute_isOk event markups now]
  cases compute event markups now <;> rfl

/-- What is not keyed is skipped, and what is convertible has a document. -/
lemma eventToDocument_ok (py : Runtime K) {event : Dict K}
    (h : keyed event = true → convertible event = true) (markups : Markups K) (now : Datetime) :
    ∃ doc, eventToDocument py event markups now = .ok doc ∧ (keyed event = true → doc ≠ none) := by
  cases hkeyed : keyed event with
  | false => exact ⟨none, eventToDocument_of_not_keyed py hkeyed markups now, fun h => nomatch h⟩
  | true =>
      have hok := compute_isOk event markups now
      rw [h hkeyed] at hok
      rw [eventToDocument_of_keyed py hkeyed]
      cases hc : compute event markups now with
      | error f =>
          rw [hc] at hok
          cases hok
      | ok c => exact ⟨some (document py event c), rfl, by simp⟩

/-! ## A run to which everything answers -/

/-- What is outside of a run: the stored position, the markups, the blobs with their contents, the
clock, and the documents. -/
structure Outside (K : Type) where
  position : Option String
  markups : List (String × Option K)
  blobs : List Blob
  content : String → List (AvroRecord K)
  /-- The readings of the clock to come. -/
  clock : ℕ → Datetime
  /-- The documents that have been upserted. -/
  upserts : List (Document K)

omit [PyFloat K] in
/-- Every call succeeds; only the upserts, the position and the clock move. -/
def answer : (o : Call K) → Outside K → (importApi K).Reply o × Outside K
  | .openSession, w => (.ok (), w)
  | .closeSession, w => (.ok (), w)
  | .getPosition, w => (.ok w.position, w)
  | .readMarkups, w => (.ok w.markups, w)
  | .listBlobs, w => (.ok w.blobs, w)
  | .download name, w => (.ok (w.content name), w)
  | .now, w => (.ok (w.clock 0), { w with clock := fun n => w.clock (n + 1) })
  | .upsert doc, w => (.ok (), { w with upserts := w.upserts ++ [doc] })
  | .putPosition _ position, w => (.ok (), { w with position := some position })
  | .rollback, w => (.ok (), w)

/-- The blobs that a run selects: those after the stored position less the overlap, up to the
cap. -/
def Outside.selected (w : Outside K) : List Blob :=
  match sinceOf (parsePosition w.position) with
  | .error _ => []
  | .ok since =>
      match pendingBlobs since w.blobs with
      | .error _ => []
      | .ok pending => pending

/-- The event has been converted and upserted, with the clock as it stood at that moment. -/
def Outside.Imported (py : Runtime K) (markups : Markups K) (w : Outside K) (event : Dict K) :
    Prop :=
  ∃ now doc, eventToDocument py event markups now = .ok (some doc) ∧ doc ∈ w.upserts

omit [PyFloat K] in
/-- The stored position names this time or a later one. -/
def Outside.Past (w : Outside K) (d : Datetime) : Prop :=
  ∃ s offset, parsePosition w.position = some s ∧ s.offset = some offset ∧
    (d.ticks : ℤ) ≤ s.clock.ticks - offset

/-- The import goes on: documents are added, and nothing else changes but the clock. -/
structure Grows (w w' : Outside K) : Prop where
  position : w'.position = w.position
  content : w'.content = w.content
  upserts : w.upserts ⊆ w'.upserts

omit [PyFloat K] in
lemma Grows.refl (w : Outside K) : Grows w w := ⟨rfl, rfl, List.Subset.refl _⟩

omit [PyFloat K] in
lemma Grows.trans {w₁ w₂ w₃ : Outside K} (h₁ : Grows w₁ w₂) (h₂ : Grows w₂ w₃) : Grows w₁ w₃ :=
  ⟨h₂.position.trans h₁.position, h₂.content.trans h₁.content,
    List.Subset.trans h₁.upserts h₂.upserts⟩

section Runs

variable {py : Runtime K} {markups : Markups K}

lemma Outside.Imported.grows {w w' : Outside K} {event : Dict K}
    (h : w.Imported py markups event) (hg : Grows w w') : w'.Imported py markups event := by
  obtain ⟨now, doc, hdoc, hmem⟩ := h
  exact ⟨now, doc, hdoc, hg.upserts hmem⟩

/-- One event of a run: if it has a key it is imported, and nothing that was imported before is
lost. -/
lemma exec_importEvent (w : Outside K) {event : Dict K}
    (h : keyed event = true → convertible event = true) :
    ∃ written w', exec answer (importEvent py markups event) w = (.ok written, w') ∧ Grows w w' ∧
      (keyed event = true → w'.Imported py markups event) := by
  obtain ⟨doc, hdoc, hsome⟩ := eventToDocument_ok py h markups (w.clock 0)
  set w₁ : Outside K := { w with clock := fun n => w.clock (n + 1) } with hw₁
  have hnow : exec answer (ask .now : Task K _) w = (.ok (w.clock 0), w₁) := rfl
  unfold importEvent
  rw [Prog.Raising.exec_bind_ok _ hnow, hdoc]
  cases doc with
  | none => exact ⟨false, w₁, rfl, ⟨rfl, rfl, List.Subset.refl _⟩, fun hk => absurd rfl (hsome hk)⟩
  | some doc =>
      refine ⟨true, { w₁ with upserts := w₁.upserts ++ [doc] }, rfl,
        ⟨rfl, rfl, List.subset_append_left _ _⟩, fun _ => ?_⟩
      exact ⟨w.clock 0, doc, hdoc, by simp⟩

omit [PyFloat K] in
lemma exec_attempt_ok {α : Type} {p : Task K α} {w w' : Outside K} {a : α}
    (h : exec answer p w = (.ok a, w')) : exec answer (attempt p) w = (.ok (some a), w') := by
  rw [exec_attempt, h]
  rfl

/-- The events of a blob are imported one after the other.  The induction is on the events; what is
imported stays so, since the outside only grows. -/
lemma exec_importEvents (py : Runtime K) (markups : Markups K) (w : Outside K)
    {events : List (Dict K)} (stats : Stats)
    (h : ∀ event ∈ events, keyed event = true → convertible event = true) :
    ∃ stats' w', exec answer (importEvents py markups events stats) w = (.ok (stats', true), w') ∧
      Grows w w' ∧ ∀ event ∈ events, keyed event = true → w'.Imported py markups event := by
  induction events generalizing w stats with
  | nil => exact ⟨stats, w, rfl, Grows.refl w, by simp⟩
  | cons event events ih =>
      obtain ⟨written, w₁, hone, hgrows₁, himported⟩ :=
        exec_importEvent w (h event List.mem_cons_self)
      unfold importEvents
      rw [Prog.Raising.exec_bind_ok _ (exec_attempt_ok hone)]
      have hrest : ∀ event ∈ events, keyed event = true → convertible event = true :=
        fun e he => h e (List.mem_cons_of_mem event he)
      have hgo : ∀ stats : Stats, ∃ stats' w',
          exec answer (importEvents py markups events stats) w₁ = (.ok (stats', true), w') ∧
          Grows w w' ∧ ∀ e ∈ event :: events, keyed e = true → w'.Imported py markups e := by
        intro stats
        obtain ⟨stats', w', hexec, hgrows, hall⟩ := ih w₁ stats hrest
        refine ⟨stats', w', hexec, hgrows₁.trans hgrows, fun e he hk => ?_⟩
        rcases List.mem_cons.1 he with rfl | he
        · exact (himported hk).grows hgrows
        · exact hall e he hk
      cases written with
      | true => exact hgo _
      | false => exact hgo _

/-- The events of a blob can be converted, as far as they have a request id. -/
def Clean (w : Outside K) (blob : Blob) : Prop :=
  ∀ event ∈ decodeAvro (w.content blob.name), keyed event = true → convertible event = true

/-- The events of a blob have been imported, apart from those without a key. -/
def Outside.Done (py : Runtime K) (markups : Markups K) (w : Outside K) (blob : Blob) : Prop :=
  ∀ event ∈ decodeAvro (w.content blob.name), keyed event = true → w.Imported py markups event

lemma Outside.Done.grows {w w' : Outside K} {blob : Blob} (h : w.Done py markups blob)
    (hg : Grows w w') :
    w'.Done py markups blob := by
  intro event he hk
  rw [hg.content] at he
  exact (h event he hk).grows hg

omit [PyFloat K] in
/-- The run, or the watermark that it has begun with, is past this time. -/
def Reached (watermark : Option Stamp) (reached : Option Datetime) (d : Datetime) : Prop :=
  match reached with
  | some r => d.ticks ≤ r.ticks
  | none => ∃ s offset, watermark = some s ∧ s.offset = some offset ∧
      (d.ticks : ℤ) ≤ s.clock.ticks - offset

/-- A watermark that blobs can be compared with.  Python raises where one of two times has a time
zone and the other has none. -/
def Comparable (watermark : Option Stamp) : Prop := ∀ s ∈ watermark, s.offset ≠ none

/-- Whether a blob advances the run; either way the run is past it, and past what it was. -/
lemma advances_ok {watermark : Option Stamp} (hw : Comparable watermark)
    (reached : Option Datetime) (d : Datetime) :
    (advances watermark reached d = .ok true ∧
      ∀ d', Reached watermark reached d' → Reached watermark (some d) d') ∨
    (advances watermark reached d = .ok false ∧ Reached watermark reached d) := by
  cases reached with
  | some r =>
      by_cases hlt : r.ticks < d.ticks
      · refine .inl ⟨by simp [advances, hlt]; rfl, fun d' hd' => ?_⟩
        simp only [Reached] at hd' ⊢
        omega
      · refine .inr ⟨by simp [advances, hlt]; rfl, ?_⟩
        simp only [Reached]
        omega
  | none =>
      cases watermark with
      | none =>
          refine .inl ⟨rfl, fun d' hd' => ?_⟩
          obtain ⟨s, offset, hnone, -⟩ := hd'
          cases hnone
      | some s =>
          obtain ⟨offset, hoffset⟩ := Option.ne_none_iff_exists'.1 (hw s rfl)
          by_cases hlt : (s.clock.ticks : ℤ) - offset < d.ticks
          · refine .inl ⟨by simp [advances, newer, hoffset, hlt]; rfl, fun d' hd' => ?_⟩
            obtain ⟨s', offset', hs', hoffset', hle⟩ := hd'
            cases hs'
            rw [hoffset] at hoffset'
            cases hoffset'
            simp only [Reached]
            omega
          · refine .inr ⟨by simp [advances, newer, hoffset, hlt]; rfl, s, offset, rfl, hoffset, ?_⟩
            omega

/-- The blobs of a run: all of them are imported, and the position reaches the last of them. -/
lemma exec_importBlobs (py : Runtime K) (markups : Markups K) (w : Outside K)
    {watermark : Option Stamp} (hw : Comparable watermark)
    {blobs : List Blob} (run : Run) (h : ∀ blob ∈ blobs, Clean w blob) :
    ∃ run' w', exec answer (importBlobs py watermark markups blobs run) w = (.ok run', w') ∧
      Grows w w' ∧ (∀ blob ∈ blobs, w'.Done py markups blob) ∧
      (∀ blob ∈ blobs, Reached watermark run'.reached blob.lastModified) ∧
      ∀ d, Reached watermark run.reached d → Reached watermark run'.reached d := by
  induction blobs generalizing w run with
  | nil => exact ⟨run, w, rfl, Grows.refl w, by simp, by simp, fun _ => id⟩
  | cons blob blobs ih =>
      have hdownload : exec answer (attempt (ask (.download blob.name))) w =
          (.ok (some (w.content blob.name)), w) := exec_attempt_ok rfl
      obtain ⟨stats, w₁, hevents, hgrows₁, himported⟩ :=
        exec_importEvents py markups w { run.stats with
          blobs := run.stats.blobs + 1
          events := run.stats.events + (decodeAvro (w.content blob.name)).length }
          (h blob List.mem_cons_self)
      have hdone : w₁.Done py markups blob := by
        intro event he hk
        rw [hgrows₁.content] at he
        exact himported event he hk
      -- An upsert changes no blob, so what is clean stays clean.
      have hclean : ∀ b ∈ blobs, Clean w₁ b := by
        intro b hb event he hk
        rw [hgrows₁.content] at he
        exact h b (List.mem_cons_of_mem blob hb) event he hk
      unfold importBlobs
      rw [Prog.Raising.exec_bind_ok _ hdownload]
      dsimp only
      rw [Prog.Raising.exec_bind_ok _ hevents]
      simp only [if_true]
      -- The induction goes on from whatever position is reached, as long as it is past this blob
      -- and past what was reached before.
      have hgo : ∀ run₁ : Run, Reached watermark run₁.reached blob.lastModified →
          (∀ d, Reached watermark run.reached d → Reached watermark run₁.reached d) →
          ∃ run' w', exec answer (importBlobs py watermark markups blobs run₁) w₁ = (.ok run', w') ∧
            Grows w w' ∧ (∀ b ∈ blob :: blobs, w'.Done py markups b) ∧
            (∀ b ∈ blob :: blobs, Reached watermark run'.reached b.lastModified) ∧
            ∀ d, Reached watermark run.reached d → Reached watermark run'.reached d := by
        intro run₁ hblob hlater
        obtain ⟨run', w', hexec, hgrows, hall, hreached, hkeeps⟩ := ih w₁ run₁ hclean
        refine ⟨run', w', hexec, hgrows₁.trans hgrows, fun b hb => ?_, fun b hb => ?_,
          fun d hd => hkeeps d (hlater d hd)⟩
        · rcases List.mem_cons.1 hb with rfl | hb
          · exact hdone.grows hgrows
          · exact hall b hb
        · rcases List.mem_cons.1 hb with rfl | hb
          · exact hkeeps _ hblob
          · exact hreached b hb
      rcases advances_ok hw run.reached blob.lastModified with ⟨hadv, hkeeps⟩ | ⟨hadv, hpast⟩
      · rw [hadv]
        exact hgo ⟨stats, some blob.lastModified⟩ (Nat.le_refl _) hkeeps
      · rw [hadv]
        exact hgo { run with stats := stats } hpast (fun _ => id)

/-! ### `run_once` -/

omit [PyFloat K] in
lemma parsePosition_isoformat (d : Datetime) :
    parsePosition (some d.isoformat) = some ⟨d, some 0⟩ := by
  have hparse := d.fromIsoformat_isoformat
  have hne : d.isoformat ≠ "" := by
    intro hempty
    have hnone : fromIsoformat "" = none := by decide
    rw [hempty, hnone] at hparse
    cases hparse
  simp only [parsePosition, if_neg hne, hparse]

omit [PyFloat K] in
lemma exec_writeWatermark (d : Datetime) (w : Outside K) :
    exec answer (writeWatermark d) w = (.ok (), { w with position := some d.isoformat }) := rfl

omit [PyFloat K] in
/-- A run that selects a blob can compare it with its watermark. -/
lemma comparable_of_selected {watermark since : Option Stamp}
    (hsince : sinceOf watermark = .ok since) {blobs pending : List Blob}
    (hpending : pendingBlobs since blobs = .ok pending) (hne : pending ≠ []) :
    Comparable watermark := by
  intro s hs hnaive
  have hshift : ∃ clock, since = some ⟨clock, none⟩ := by
    rw [Option.mem_def.1 hs] at hsince
    unfold sinceOf at hsince
    dsimp only at hsince
    split at hsince
    · cases hsince
    · next clock _ =>
      cases hsince
      exact ⟨clock, by rw [← hnaive]⟩
  obtain ⟨clock, rfl⟩ := hshift
  cases blobs with
  | nil =>
      cases hpending
      exact hne (by simp)
  | cons b blobs => cases hpending

/-- A run is what it does with its blobs, and the watermark it writes. -/
lemma exec_runOnce {w w' : Outside K} {since : Option Stamp}
    (hsince : sinceOf (parsePosition w.position) = .ok since) {pending : List Blob}
    (hpending : pendingBlobs since w.blobs = .ok pending) {run : Run}
    (hblobs : exec answer (importBlobs py (parsePosition w.position) (markupsOfRows w.markups)
      pending ⟨⟨0, 0, 0, 0⟩, none⟩) w = (.ok run, w')) :
    (exec answer (runOnce py true) w).2 = match run.reached with
      | none => w'
      | some position => { w' with position := some position.isoformat } := by
  have hlisted : exec answer (listPending since) w = (.ok pending, w) := by
    have hlist : exec answer (ask .listBlobs : Task K _) w = (.ok w.blobs, w) := rfl
    unfold listPending
    rw [Prog.Raising.exec_bind_ok _ hlist, hpending]
    rfl
  have hread : exec answer (readWatermark : Task K _) w = (.ok (parsePosition w.position), w) := rfl
  have hmarkups : exec answer (routeMarkups : Task K _) w = (.ok (markupsOfRows w.markups), w) :=
    rfl
  have hlift : exec answer (lift (.ok since) : Task K _) w = (.ok since, w) := rfl
  unfold runOnce
  simp only [Bool.not_true, Bool.false_eq_true, if_false]
  rw [Prog.Raising.exec_bind_ok _ hread, hsince,
    Prog.Raising.exec_bind_ok _ hlift, Prog.Raising.exec_bind_ok _ hmarkups,
    Prog.Raising.exec_bind_ok _ (exec_attempt_ok hlisted), Option.getD_some,
    Prog.Raising.exec_bind_ok _ hblobs]
  cases run.reached with
  | none => rfl
  | some position =>
      change (exec answer (writeWatermark position >>= fun _ => return run.stats) w').2 = _
      rw [Prog.Raising.exec_bind_ok _ (exec_writeWatermark position w')]
      rfl

/-- What is outside once a run has ended; the documents are those of the run. -/
def Outside.after (py : Runtime K) (w : Outside K) : Outside K :=
  (exec answer (runOnce py true) { w with upserts := [] }).2

/-- Every event with a request id of the selected blobs is imported, and the watermark is moved to
the last of these blobs at least. -/
def Outside.ImportsAll (py : Runtime K) (w : Outside K) : Prop :=
  (∀ blob ∈ w.selected, ∀ event ∈ decodeAvro (w.content blob.name), keyed event = true →
    (w.after py).Imported py (markupsOfRows w.markups) event) ∧
  ∀ last ∈ w.selected.getLast?, (w.after py).Past last.lastModified

/-- **What stops the import.**  A run to which everything answers imports every event of its blobs,
and moves the watermark past them, if and only if each of their events with a request id can be
converted. -/
theorem imports_all (py : Runtime K) (w : Outside K) :
    w.ImportsAll py ↔
      ∀ blob ∈ w.selected, ∀ event ∈ decodeAvro (w.content blob.name), keyed event = true →
        convertible event = true := by
  constructor
  -- What has been imported has been converted.
  · rintro ⟨himported, -⟩ blob hblob event he hk
    obtain ⟨now, doc, hdoc, -⟩ := himported blob hblob event he hk
    rw [← eventToDocument_isOk py hk (markupsOfRows w.markups) now, hdoc]
    rfl
  · intro hclean
    by_cases hempty : w.selected = []
    · simp [Outside.ImportsAll, hempty]
    -- A run that selects anything has read its position and listed its blobs.
    · obtain ⟨since, pending, hsince, hpending, hselected⟩ : ∃ since pending,
          sinceOf (parsePosition w.position) = .ok since ∧
            pendingBlobs since w.blobs = .ok pending ∧
            w.selected = pending := by
        unfold Outside.selected at hempty ⊢
        cases hs : sinceOf (parsePosition w.position) with
        | error f => simp [hs] at hempty
        | ok since =>
            cases hp : pendingBlobs since w.blobs with
            | error f => simp [hs, hp] at hempty
            | ok pending => exact ⟨since, pending, rfl, hp, by simp [hp]⟩
      unfold Outside.ImportsAll Outside.after
      rw [hselected] at hclean hempty ⊢
      set begun : Outside K := { w with upserts := [] } with hbegun
      have hcomparable := comparable_of_selected hsince hpending hempty
      obtain ⟨run, w₁, hblobs, hgrows, hdone, hreached, -⟩ :=
        exec_importBlobs py (markupsOfRows w.markups) begun hcomparable ⟨⟨0, 0, 0, 0⟩, none⟩ hclean
      have hrun : (exec answer (runOnce py true) begun).2 = match run.reached with
          | none => w₁
          | some position => { w₁ with position := some position.isoformat } :=
        exec_runOnce (w := begun) hsince hpending hblobs
      have himported : ∀ blob ∈ pending, ∀ event ∈ decodeAvro (w.content blob.name),
          keyed event = true → w₁.Imported py (markupsOfRows w.markups) event := by
        intro blob hblob event he hk
        rw [← hgrows.content] at he
        exact hdone blob hblob event he hk
      rw [hrun]
      -- No new position means that the one which was read is past the blobs already.
      cases hreach : run.reached with
      | none =>
          refine ⟨himported, fun last hlast => ?_⟩
          have hpast := hreached last (List.mem_of_getLast? hlast)
          rw [hreach] at hpast
          obtain ⟨s, offset, hs, hoffset, hle⟩ := hpast
          exact ⟨s, offset, by simpa only [hgrows.position] using hs, hoffset, hle⟩
      | some position =>
          refine ⟨himported, fun last hlast => ?_⟩
          have hpast := hreached last (List.mem_of_getLast? hlast)
          rw [hreach] at hpast
          refine ⟨⟨position, some 0⟩, 0, parsePosition_isoformat position, rfl, ?_⟩
          simp only [Reached] at hpast
          simp only [sub_zero]
          exact_mod_cast hpast

end Runs

/-- A call whose model is not a text, so that looking its price up raises. -/
def poison : Dict Float := [("request_id", .str "r1"), ("model", .list [.str "gpt-4o"])]

/-- The poison is in the first of two blobs; the run gives the first one up and never comes to the
second. -/
def poisoned : Outside Float where
  position := none
  markups := []
  blobs := [⟨"17.avro", ⟨17, by decide⟩⟩, ⟨"18.avro", ⟨18, by decide⟩⟩]
  content name :=
    if name = "17.avro" then [.body (.dict poison)] else [.body (.dict [("request_id", .str "r2")])]
  clock _ := ⟨19, by decide⟩
  upserts := []

/-- Nothing is imported, from neither blob, and the watermark stays where it is, so that the next
run begins with the poison again. -/
theorem poisoned_stops :
    ((poisoned.after .strict).upserts = [] ∧ (poisoned.after .strict).position = none) ∧
      ¬ ∀ (py : Runtime Float) (w : Outside Float), w.ImportsAll py := by
  constructor
  · constructor
    · exact List.isEmpty_iff.1 (by decide +kernel)
    · decide +kernel
  · intro h
    have hselected : poisoned.selected = poisoned.blobs := by decide +kernel
    have hconvertible := (imports_all .strict poisoned).1 (h .strict poisoned)
    rw [hselected] at hconvertible
    have hpoison := hconvertible _ List.mem_cons_self poison List.mem_cons_self (by decide +kernel)
    exact absurd hpoison (by decide +kernel)

end UsageCaptureImport
end TokenFoundry
