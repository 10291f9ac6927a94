import TokenFoundry.Properties.BlobWatermark

/-!
# The progress of the import

A run reads again what the overlap of the watermark holds, oldest first, and stops at its cap.  With
as many blobs in the overlap as the cap allows, the run never comes to a blob that is newer than the
watermark; it leaves the watermark where it is, and every later run does the same.

`progress_iff` says that this, and a watermark from which the overlap cannot be subtracted, are all
that stops a run in which everything outside answers and every event is converted.
-/

set_option autoImplicit false

namespace TokenFoundry
namespace UsageCaptureImport

open Prog.Raising (exec)
open Watermark (wantedBlobs_eq)

variable {K : Type} [PyFloat K]

/-! ## What a run can reach -/

section AnyAnswers

variable {W : Type} (h : (o : Call K) → W → (importApi K).Reply o × W) (py : Runtime K)
variable (markups : Markups K)

/-- The loop over the events does not raise: whatever the conversion of an event or its upsert
raises is caught, and ends the loop. -/
lemma exec_importEvents_total (events : List (Dict K)) (stats : Stats) (w : W) :
    ∃ r w', exec h (importEvents py markups events stats) w = (.ok r, w') := by
  induction events generalizing stats w with
  | nil => exact ⟨_, w, rfl⟩
  | cons event events ih =>
      unfold importEvents
      rw [Prog.Raising.exec_bind_ok _ (exec_attempt h _ w)]
      cases (exec h (importEvent py markups event) w).1.toOption with
      | none => exact ⟨_, _, rfl⟩
      | some written =>
          cases written with
          | true => exact ih _ _
          | false => exact ih _ _

/-- Neither does the loop over the blobs; it gets ahead of where it has begun only by a blob that is
newer. -/
lemma exec_importBlobs_total (watermark : Option Stamp) (blobs : List Blob) (run : Run) (w : W) :
    ∃ run' w', exec h (importBlobs py watermark markups blobs run) w = (.ok run', w') ∧
      ((∀ b ∈ blobs, advances watermark run.reached b.lastModified ≠ .ok true) →
        run'.reached = run.reached) := by
  induction blobs generalizing run w with
  | nil => exact ⟨run, w, rfl, fun _ => rfl⟩
  | cons blob blobs ih =>
      unfold importBlobs
      rw [Prog.Raising.exec_bind_ok _ (exec_attempt h _ w)]
      cases (exec h (ask (.download blob.name)) w).1.toOption with
      | none => exact ⟨run, _, rfl, fun _ => rfl⟩
      | some records =>
          dsimp only
          obtain ⟨⟨stats, finished⟩, w₁, hevents⟩ := exec_importEvents_total h py markups
            (decodeAvro records) { run.stats with
              blobs := run.stats.blobs + 1
              events := run.stats.events + (decodeAvro records).length }
            (exec h (ask (.download blob.name)) w).2
          rw [Prog.Raising.exec_bind_ok _ hevents]
          cases finished with
          | false => exact ⟨_, w₁, rfl, fun _ => rfl⟩
          | true =>
              simp only [if_true]
              cases hadv : advances watermark run.reached blob.lastModified with
              | error f => exact ⟨_, w₁, rfl, fun _ => rfl⟩
              | ok moves =>
                  cases moves with
                  | true =>
                      obtain ⟨run', w', hexec, -⟩ := ih ⟨stats, some blob.lastModified⟩ w₁
                      exact ⟨run', w', hexec,
                        fun hnot => absurd hadv (hnot blob List.mem_cons_self)⟩
                  | false =>
                      obtain ⟨run', w', hexec, hsame⟩ := ih { run with stats := stats } w₁
                      exact ⟨run', w', hexec, fun hnot =>
                        hsame (fun b hb => hnot b (List.mem_cons_of_mem blob hb))⟩

end AnyAnswers

/-! ## What the cap lets through -/

/-- In a list in which nothing early comes behind something late, the first entries hold a late one
if there is one and not too many are early. -/
lemma exists_mem_take_iff {α : Type} (late : α → Prop) [DecidablePred late] {l : List α}
    (hsorted : l.Pairwise (fun a b => late a → late b)) (n : ℕ) :
    (∃ a ∈ l.take n, late a) ↔ (∃ a ∈ l, late a) ∧ l.countP (fun a => ¬ late a) < n := by
  induction l generalizing n with
  | nil => simp
  | cons a l ih =>
      obtain ⟨hfirst, hrest⟩ := List.pairwise_cons.1 hsorted
      cases n with
      | zero => simp
      | succ n =>
          rw [List.take_succ_cons]
          by_cases ha : late a
          · have hnone : l.countP (fun a => ¬ late a) = 0 :=
              List.countP_eq_zero.2 (by simpa using fun b hb => hfirst b hb ha)
            simp only [List.exists_mem_cons_iff, ha, true_or, true_and]
            rw [List.countP_cons_of_neg (by simpa using ha), hnone]
            simp
          · have hcount : (a :: l).countP (fun a => ¬ late a) =
                l.countP (fun a => ¬ late a) + 1 :=
              List.countP_cons_of_pos (by simpa using ha)
            rw [hcount, Nat.succ_lt_succ_iff]
            simp only [List.exists_mem_cons_iff, ha, false_or]
            exact ih hrest n

/-- The instant that a stamp names; a stamp without a time zone is read as UTC. -/
def instantOf (s : Stamp) : ℤ := s.clock.ticks - s.offset.getD 0

/-- A blob that the watermark is past, and that the overlap makes a run read again. -/
def heldBack (s : Stamp) (b : Blob) : Bool :=
  decide (instantOf s - overlap < b.lastModified.ticks ∧ (b.lastModified.ticks : ℤ) ≤ instantOf s)

omit [PyFloat K] in
/-- A run selects a blob that is newer than its watermark, if there is one and the cap is not spent
on older ones. -/
lemma exists_newer_iff {s : Stamp} {offset : ℤ} (hoffset : s.offset = some offset)
    {since : Option Stamp} (hsince : sinceOf (some s) = .ok since) {blobs pending : List Blob}
    (hpending : pendingBlobs since blobs = .ok pending)
    (hnew : ∃ b ∈ blobs, instantOf s < b.lastModified.ticks) :
    (∃ b ∈ pending, instantOf s < b.lastModified.ticks) ↔
      blobs.countP (heldBack s) < maxBlobsPerRun := by
  obtain ⟨kept, hkept, h⟩ := Outcomes.bind_eq_ok.1 hpending
  cases h
  obtain ⟨clock, hclock, rfl⟩ : ∃ clock : Datetime, (clock.ticks : ℤ) = s.clock.ticks - overlap ∧
      since = some ⟨clock, some offset⟩ := by
    unfold sinceOf at hsince
    dsimp only at hsince
    split at hsince
    · cases hsince
    · next clock hshift =>
      cases hsince
      exact ⟨clock, by simpa [sub_eq_add_neg] using Datetime.shift_eq_some.1 hshift,
        by rw [hoffset]⟩
  have hwanted : ∀ b : Blob, wanted (some ⟨clock, some offset⟩) b = .ok true ↔
      instantOf s - overlap < b.lastModified.ticks := by
    intro b
    have hinstant : instantOf s - overlap = clock.ticks - offset := by
      simp only [instantOf, hoffset, Option.getD_some]
      omega
    rw [hinstant]
    show Except.ok (decide ((clock.ticks : ℤ) - offset < b.lastModified.ticks)) = Except.ok true ↔ _
    simp
  -- In the order of their times, what is newer than the watermark comes last, so that the cap takes
  -- it last.
  have hsorted := (List.pairwise_insertionSort Blob.NotLater kept).imp
    (S := fun a b => instantOf s < a.lastModified.ticks → instantOf s < b.lastModified.ticks)
    (fun hle hlate => by simp only [Blob.NotLater] at hle; omega)
  have hkept' := wantedBlobs_eq hkept
  have hexists : ∃ b ∈ kept.insertionSort Blob.NotLater, instantOf s < b.lastModified.ticks := by
    obtain ⟨b, hb, hlate⟩ := hnew
    refine ⟨b, (List.mem_insertionSort Blob.NotLater).2 ?_, hlate⟩
    rw [hkept']
    refine List.mem_filter.2 ⟨hb, decide_eq_true ((hwanted b).2 ?_)⟩
    simp only [overlap]
    omega
  have hcount : (kept.insertionSort Blob.NotLater).countP
      (fun b => ¬ instantOf s < b.lastModified.ticks) = blobs.countP (heldBack s) := by
    rw [(List.perm_insertionSort Blob.NotLater kept).countP_eq, hkept', List.countP_filter]
    refine List.countP_congr (fun b _ => ?_)
    simp only [hwanted, heldBack, Bool.and_eq_true, decide_eq_true_eq]
    omega
  rw [exists_mem_take_iff (fun b : Blob => instantOf s < b.lastModified.ticks) hsorted, hcount]
  exact and_iff_right hexists

omit [PyFloat K] in
lemma wantedBlobs_total (clock : Datetime) (offset : ℤ) (blobs : List Blob) :
    ∃ kept, wantedBlobs (some ⟨clock, some offset⟩) blobs = .ok kept := by
  induction blobs with
  | nil => exact ⟨[], rfl⟩
  | cons b blobs ih =>
      obtain ⟨rest, hrest⟩ := ih
      unfold wantedBlobs
      rw [hrest]
      exact ⟨_, rfl⟩

omit [PyFloat K] in
/-- The overlap can be subtracted from a watermark, or is too long for it. -/
lemma sinceOf_cases (s : Stamp) :
    (overlap ≤ s.clock.ticks ∧ ∃ clock : Datetime,
      sinceOf (some s) = .ok (some { s with clock := clock })) ∨
      (¬ overlap ≤ s.clock.ticks ∧ sinceOf (some s) = .error .overflow) := by
  have hrange := s.clock.inRange
  unfold sinceOf
  dsimp only
  cases hshift : s.clock.shift (-overlap) with
  | some clock =>
      have hticks := Datetime.shift_eq_some.1 hshift
      exact .inl ⟨by omega, clock, rfl⟩
  | none =>
      refine .inr ⟨fun hle => ?_, rfl⟩
      simp only [overlap] at hle
      have hsome : s.clock.shift (-overlap) = some ⟨s.clock.ticks - 600000000, by omega⟩ := by
        rw [Datetime.shift_eq_some]
        simp only [overlap]
        omega
      rw [hshift] at hsome
      cases hsome

/-! ## A run from a stored watermark -/

/-- The stored watermark is later than this one, and it has a time zone. -/
def Outside.Advanced (s : Stamp) (w : Outside K) : Prop :=
  ∃ s', parsePosition w.position = some s' ∧ s'.offset.isSome ∧ instantOf s < instantOf s'

omit [PyFloat K] in
lemma not_advanced {s : Stamp} {w : Outside K} (hs : parsePosition w.position = some s) :
    ¬ w.Advanced s := by
  rintro ⟨s', hs', -, hlt⟩
  cases hs.symm.trans hs'
  exact lt_irrefl _ hlt

omit [PyFloat K] in
/-- Only from a watermark with an offset is anything newer. -/
lemma offset_of_newer {d : Datetime} {s : Stamp} (hd : newer d s = .ok true) :
    ∃ offset, s.offset = some offset := by
  unfold newer at hd
  cases hoffset : s.offset with
  | none =>
      rw [hoffset] at hd
      cases hd
  | some offset => exact ⟨offset, rfl⟩

omit [PyFloat K] in
lemma newer_iff {s : Stamp} {offset : ℤ} (hoffset : s.offset = some offset) (d : Datetime) :
    newer d s = .ok true ↔ instantOf s < d.ticks := by
  unfold newer instantOf
  rw [hoffset]
  show Except.ok (decide _) = Except.ok true ↔ _
  simp

/-- A run that cannot subtract the overlap raises before it does anything. -/
lemma runOnce_of_overflow (py : Runtime K) (w : Outside K) {s : Stamp}
    (hs : parsePosition w.position = some s) (hsince : sinceOf (some s) = .error .overflow) :
    (exec answer (runOnce py true) w).2 = w := by
  have hread : exec answer (readWatermark : Task K _) w = (.ok (parsePosition w.position), w) := rfl
  unfold runOnce
  simp only [Bool.not_true, Bool.false_eq_true, if_false]
  rw [Prog.Raising.exec_bind_ok _ hread, hs, hsince]
  rfl

/-- A run in which nothing fails moves the watermark on if and only if it has selected a blob that
is newer. -/
lemma advanced_iff_selected (py : Runtime K) (w : Outside K) {s : Stamp} {offset : ℤ}
    (hs : parsePosition w.position = some s) (hoffset : s.offset = some offset)
    {since : Option Stamp} (hsince : sinceOf (some s) = .ok since) {pending : List Blob}
    (hpending : pendingBlobs since w.blobs = .ok pending) (hclean : ∀ b ∈ pending, Clean w b) :
    (exec answer (runOnce py true) w).2.Advanced s ↔
      ∃ b ∈ pending, instantOf s < b.lastModified.ticks := by
  have hcomparable : Comparable (parsePosition w.position) := by
    intro s' hs'
    rw [hs] at hs'
    cases hs'
    rw [hoffset]
    exact Option.some_ne_none offset
  obtain ⟨run, w', hblobs, hgrows, -, hreached, -⟩ :=
    exec_importBlobs py (markupsOfRows w.markups) w hcomparable ⟨⟨0, 0, 0, 0⟩, none⟩ hclean
  have hposition : parsePosition w'.position = some s := by rw [hgrows.position, hs]
  rw [exec_runOnce (by rw [hs]; exact hsince) hpending hblobs]
  constructor
  · intro hadvanced
    by_contra hnone
    obtain ⟨run', w'', hblobs', hstays⟩ := exec_importBlobs_total answer py
      (markupsOfRows w.markups) (parsePosition w.position) pending ⟨⟨0, 0, 0, 0⟩, none⟩ w
    cases hblobs.symm.trans hblobs'
    -- Nothing that was selected is newer, and so the loop has never moved the position.
    have hreach : run.reached = none := by
      refine hstays (fun b hb hadv => hnone ⟨b, hb, ?_⟩)
      rw [hs] at hadv
      exact (newer_iff hoffset b.lastModified).1 hadv
    rw [hreach] at hadvanced
    exact not_advanced hposition hadvanced
  · rintro ⟨b, hb, hlate⟩
    have hpast := hreached b hb
    cases hreach : run.reached with
    | none =>
        rw [hreach] at hpast
        obtain ⟨s', offset', hs', hoffset', hle⟩ := hpast
        cases hs.symm.trans hs'
        simp only [instantOf, hoffset', Option.getD_some] at hlate
        omega
    | some r =>
        rw [hreach] at hpast
        refine ⟨⟨r, some 0⟩, parsePosition_isoformat r, rfl, ?_⟩
        simp only [Reached] at hpast
        show instantOf s < (r.ticks : ℤ) - 0
        omega

/-- **The import makes progress**, when nothing fails and a blob is newer than the watermark, if and
only if the overlap can be subtracted from the watermark and holds fewer blobs than the cap. -/
theorem progress_iff (py : Runtime K) (w : Outside K) (s : Stamp)
    (hs : parsePosition w.position = some s) (hclean : ∀ b ∈ w.selected, Clean w b)
    (hnew : ∃ b ∈ w.blobs, newer b.lastModified s = .ok true) :
    (exec answer (runOnce py true) w).2.Advanced s ↔
      overlap ≤ s.clock.ticks ∧ w.blobs.countP (heldBack s) < maxBlobsPerRun := by
  obtain ⟨offset, hoffset⟩ : ∃ offset, s.offset = some offset :=
    let ⟨_, _, hb⟩ := hnew
    offset_of_newer hb
  rcases sinceOf_cases s with ⟨hfits, clock, hsince⟩ | ⟨hfits, hsince⟩
  · rw [and_iff_right hfits]
    rw [hoffset] at hsince
    obtain ⟨kept, hkept⟩ := wantedBlobs_total clock offset w.blobs
    set pending := (kept.insertionSort Blob.NotLater).take maxBlobsPerRun with hpendingDef
    have hpending : pendingBlobs (some ⟨clock, some offset⟩) w.blobs = .ok pending := by
      rw [pendingBlobs, hkept]
      rfl
    have hselected : w.selected = pending := by
      unfold Outside.selected
      rw [hs, hsince]
      simp only [hpending]
    rw [advanced_iff_selected py w hs hoffset hsince hpending (hselected ▸ hclean)]
    exact exists_newer_iff hoffset hsince hpending (by simpa only [newer_iff hoffset] using hnew)
  · refine ⟨fun hadvanced => ?_, fun h => absurd h.1 hfits⟩
    rw [runOnce_of_overflow py w hs hsince] at hadvanced
    exact absurd hadvanced (not_advanced hs)

/-- The time of a watermark, and the next second, are within the range of Python's `datetime`. -/
lemma captured_inRange : 63918592200000000 < ticksLimit := by decide

def captured : Datetime := ⟨63918592200000000, captured_inRange⟩

def nextSecond : Datetime := ⟨63918592201000000, by decide⟩

/-- As many blobs as the watermark's time has, and a newer one; none of them holds an event. -/
def backlog (held : ℕ) : Outside ℚ where
  position := some captured.isoformat
  markups := []
  blobs := (List.range held).map (fun n => ⟨toString n, captured⟩) ++ [⟨"newer", nextSecond⟩]
  content _ := []
  clock _ := nextSecond
  upserts := []

lemma countP_backlog (held : ℕ) :
    (backlog held).blobs.countP (heldBack ⟨captured, some 0⟩) = held := by
  have hold : ∀ name : String, heldBack ⟨captured, some 0⟩ ⟨name, captured⟩ = true :=
    fun _ => by simp [heldBack, instantOf, overlap]
  have hnew : heldBack ⟨captured, some 0⟩ ⟨"newer", nextSecond⟩ = false := by decide
  have hall : ((List.range held).map (fun n => Blob.mk (toString n) captured)).countP
      (heldBack ⟨captured, some 0⟩) = held := by
    rw [List.countP_eq_length.2, List.length_map, List.length_range]
    intro b hb
    obtain ⟨n, -, rfl⟩ := List.mem_map.1 hb
    exact hold (toString n)
  unfold backlog
  rw [List.countP_append, hall, List.countP_singleton, if_neg (by simp [hnew]), Nat.add_zero]

lemma backlog_spec (held : ℕ) :
    parsePosition (backlog held).position = some ⟨captured, some 0⟩ ∧
      (∀ b ∈ (backlog held).selected, Clean (backlog held) b) ∧
      ∃ b ∈ (backlog held).blobs, newer b.lastModified ⟨captured, some 0⟩ = .ok true := by
  refine ⟨parsePosition_isoformat captured, fun b _ event he => ?_, ⟨"newer", nextSecond⟩, ?_, rfl⟩
  · cases he
  · exact List.mem_append_right _ (List.mem_singleton_self _)

/-- One blob in the overlap does not stop the import. -/
theorem progress_past_one :
    (exec answer (runOnce .strict true) (backlog 1)).2.Advanced ⟨captured, some 0⟩ := by
  obtain ⟨hposition, hclean, hnew⟩ := backlog_spec 1
  refine (progress_iff .strict (backlog 1) ⟨captured, some 0⟩ hposition hclean hnew).2 ?_
  rw [countP_backlog]
  decide

/-- Five hundred blobs within the overlap hide the newer one, and the run stores no later
watermark. -/
theorem stuck_behind_overlap :
    ¬ ∀ (py : Runtime ℚ) (w : Outside ℚ) (s : Stamp), parsePosition w.position = some s →
      (∀ b ∈ w.selected, Clean w b) → (∃ b ∈ w.blobs, newer b.lastModified s = .ok true) →
        (exec answer (runOnce py true) w).2.Advanced s := by
  intro h
  obtain ⟨hposition, hclean, hnew⟩ := backlog_spec 500
  have hadvanced := h .strict (backlog 500) ⟨captured, some 0⟩ hposition hclean hnew
  have hfew := ((progress_iff .strict (backlog 500) ⟨captured, some 0⟩ hposition hclean hnew).1
    hadvanced).2
  rw [countP_backlog] at hfew
  exact absurd hfew (by decide)

end UsageCaptureImport
end TokenFoundry
