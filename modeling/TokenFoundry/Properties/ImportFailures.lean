import TokenFoundry.Properties.ImportProgress

/-!
# A failing import

Any of the calls of a run may raise.  The `try` of `run_once` guards the loops, and what a blob has
to be imported for is done before the watermark moves past it.  The sessions of the database are
opened outside of any guard, and closed in a `finally`; the position is read under a guard for two
exceptions only; the overlap is subtracted under none.

The watermark is a time, and several blobs may have it.  A run that stops between two blobs of one
time stores that time for the first of them, and the second is not imported.

`survives_iff` names the calls that a run does not survive, and the blobs that it must not stop at.
-/

set_option autoImplicit false

namespace TokenFoundry
namespace UsageCaptureImport

open Prog.Raising (exec)
open UsageIngest (Document)

variable {K : Type} [PyFloat K]

/-! ## Runs of which calls fail -/

/-- The calls that may raise, by what they do.  The calls of a kind are counted, and the failures of
a run are given by kind and number. -/
inductive Kind
  | opening
  | closing
  | position
  | markups
  | listing
  | download
  | upsert
  | storing
  | rollback
  deriving DecidableEq

def Call.kind : Call K → Option Kind
  | .openSession => some .opening
  | .closeSession => some .closing
  | .getPosition => some .position
  | .readMarkups => some .markups
  | .listBlobs => some .listing
  | .download _ => some .download
  | .now => none
  | .upsert _ => some .upsert
  | .putPosition _ _ => some .storing
  | .rollback => some .rollback

/-- Which calls of a run raise, counted for every kind from zero: what they raise, and whether they
have had their effect. -/
abbrev Failures := Kind → ℕ → Option (Fault × Bool)

/-- What is outside of a run, with the number of calls that have been made. -/
structure Trial (K : Type) where
  outside : Outside K
  made : Kind → ℕ

omit [PyFloat K] in
/-- A call that may fail: where `fails` has an exception for the call of that number, the call
raises it, with its effect or without. -/
def tried (fails : Failures) (o : Call K) (w : Trial K) : (importApi K).Reply o × Trial K :=
  match o.kind with
  | none => ((answer o w.outside).1, { w with outside := (answer o w.outside).2 })
  | some kind =>
      let made := Function.update w.made kind (w.made kind + 1)
      match fails kind (w.made kind) with
      | none => ((answer o w.outside).1, ⟨(answer o w.outside).2, made⟩)
      | some (e, true) => (.error e, ⟨(answer o w.outside).2, made⟩)
      | some (e, false) => (.error e, ⟨w.outside, made⟩)

/-- A call of a kind has been made, and the outside is as it was. -/
def Trial.counted (w : Trial K) (kind : Kind) : Trial K :=
  { w with made := Function.update w.made kind (w.made kind + 1) }

omit [PyFloat K] in
@[simp] lemma counted_outside (w : Trial K) (kind : Kind) : (w.counted kind).outside = w.outside :=
  rfl

omit [PyFloat K] in
@[simp] lemma counted_made (w : Trial K) (kind kind' : Kind) :
    (w.counted kind).made kind' = if kind' = kind then w.made kind + 1 else w.made kind' := by
  simp only [Trial.counted, Function.update_apply]

section Sessions

variable (fails : Failures) (w : Trial K)

omit [PyFloat K] in
/-- A call that changes nothing but the count; it answers, or raises what `fails` has for it. -/
lemma tried_quiet {o : Call K} {kind : Kind} (hkind : o.kind = some kind)
    (hquiet : (answer o w.outside).2 = w.outside) :
    tried fails o w = (match fails kind (w.made kind) with
      | none => (answer o w.outside).1
      | some f => .error f.1, w.counted kind) := by
  unfold tried
  simp only [hkind]
  cases hfails : fails kind (w.made kind) with
  | none => simp only [hquiet, Trial.counted]
  | some f =>
      obtain ⟨e, took⟩ := f
      cases took with
      | true => simp only [hquiet, Trial.counted]
      | false => rfl

omit [PyFloat K] in
/-- A session around a program raises if it cannot be opened or closed, and otherwise does what the
program does. -/
lemma exec_withSession {α : Type} {p : Task K α} {r : Except Fault α} {w' : Trial K}
    (hp : exec (tried fails) p (w.counted .opening) = (r, w'))
    (hmade : w'.made .closing = w.made .closing) :
    (fails .opening (w.made .opening) = none ∧ fails .closing (w.made .closing) = none ∧
      exec (tried fails) (withSession p) w = (r, w'.counted .closing)) ∨
    (¬ (fails .opening (w.made .opening) = none ∧ fails .closing (w.made .closing) = none) ∧
      ∃ e w'', exec (tried fails) (withSession p) w = (.error e, w'')) := by
  have hopen : exec (tried fails) (ask .openSession : Task K _) w = _ :=
    tried_quiet fails w (o := .openSession) rfl rfl
  have hclose : exec (tried fails) (ask .closeSession : Task K _) w' = _ :=
    tried_quiet fails w' (o := .closeSession) rfl rfl
  rw [hmade] at hclose
  unfold withSession
  cases hopening : fails .opening (w.made .opening) with
  | some f =>
      rw [hopening] at hopen
      exact .inr ⟨by simp, f.1, _, Prog.Raising.exec_bind_error _ hopen⟩
  | none =>
      rw [hopening] at hopen
      rw [Prog.Raising.exec_bind_ok _ hopen, Prog.Raising.exec_tryFinally, hp]
      simp only [hclose]
      cases hclosed : fails .closing (w.made .closing) with
      | some f => exact .inr ⟨by simp, f.1, _, rfl⟩
      | none => exact .inl ⟨trivial, rfl, rfl⟩

end Sessions

/-! ## Before the loops -/

section Phases

variable (fails : Failures) (w : Outside K)

/-- The start of a run, where no call has been made yet. -/
def Outside.trial : Trial K := ⟨w, fun _ => 0⟩

omit [PyFloat K] in
/-- The position that a run works with; a read that raises what the code catches gives none. -/
def readPosition : Option Stamp :=
  if (fails .position 0).isSome then none else parsePosition w.position

/-- The watermark can be read: its session can be opened and closed, and reading it raises nothing
but the two exceptions that are caught. -/
structure Reads : Prop where
  opening : fails .opening 0 = none
  closing : fails .closing 0 = none
  position : ∀ f ∈ fails .position 0, unparseable f.1 = true

omit [PyFloat K] in
/-- The read of the watermark: it returns the position of the run, or something raises that nothing
guards, a session or a read that fails in another way than by its text. -/
lemma exec_readWatermark :
    (Reads fails ∧ exec (tried fails) readWatermark w.trial = (.ok (readPosition fails w),
      ((w.trial.counted .opening).counted .position).counted .closing)) ∨
    (¬ Reads fails ∧ ∃ e w', exec (tried fails) readWatermark w.trial = (.error e, w')) := by
  set w₁ := w.trial.counted .opening with hw₁
  have hask : exec (tried fails) (ask .getPosition : Task K _) w₁ = _ :=
    tried_quiet fails w₁ (o := .getPosition) rfl rfl
  have hzero : w₁.made .position = 0 := rfl
  rw [hzero] at hask
  have hinner : exec (tried fails) (tryCatch (do
        let row ← ask .getPosition
        return parsePosition row)
      (fun e => if unparseable e then return none else throw e) : Task K (Option Stamp)) w₁ =
      (match fails .position 0 with
        | none => .ok (parsePosition w.position)
        | some f => if unparseable f.1 then .ok none else .error f.1, w₁.counted .position) := by
    rw [Prog.Raising.exec_tryCatch]
    cases hfails : fails .position 0 with
    | none =>
        rw [hfails] at hask
        rw [Prog.Raising.exec_bind_ok _ hask]
        rfl
    | some f =>
        rw [hfails] at hask
        rw [Prog.Raising.exec_bind_error _ hask]
        dsimp only
        split_ifs <;> rfl
  rcases exec_withSession fails w.trial hinner (by simp [hw₁]) with
    ⟨hopening, hclosing, hexec⟩ | ⟨hnot, hraises⟩
  · unfold readWatermark
    rw [hexec]
    cases hfails : fails .position 0 with
    | none => exact .inl ⟨⟨hopening, hclosing, by simp [hfails]⟩, by simp [readPosition, hfails]⟩
    | some f =>
        cases hf : unparseable f.1 with
        | true =>
            exact .inl ⟨⟨hopening, hclosing, by simp [hfails, hf]⟩,
              by simp [readPosition, hfails, hf]⟩
        | false =>
            refine .inr ⟨fun h => ?_, f.1, (w₁.counted .position).counted .closing, by simp [hf]⟩
            have hcaught := h.position f hfails
            rw [hf] at hcaught
            cases hcaught
  · exact .inr ⟨fun h => hnot ⟨h.opening, h.closing⟩, hraises⟩

/-- The markups can be read, or what cannot be read is caught. -/
lemma exec_routeMarkups (w : Trial K) (hopened : w.made .opening = 1)
    (hclosed : w.made .closing = 1) :
    (fails .opening 1 = none ∧ fails .closing 1 = none ∧
      ∃ markups, exec (tried fails) routeMarkups w =
        (.ok markups, ((w.counted .opening).counted .markups).counted .closing)) ∨
    (¬ (fails .opening 1 = none ∧ fails .closing 1 = none) ∧
      ∃ e w', exec (tried fails) routeMarkups w = (.error e, w')) := by
  set w₁ := w.counted .opening with hw₁
  have hask : exec (tried fails) (ask .readMarkups : Task K _) w₁ = _ :=
    tried_quiet fails w₁ (o := .readMarkups) rfl rfl
  have hinner : ∃ markups, exec (tried fails) (tryCatch (do
        let rows ← ask .readMarkups
        return markupsOfRows rows)
      (fun _ => return []) : Task K (Markups K)) w₁ = (.ok markups, w₁.counted .markups) := by
    rw [Prog.Raising.exec_tryCatch]
    cases hfails : fails .markups (w₁.made .markups) with
    | none =>
        rw [hfails] at hask
        rw [Prog.Raising.exec_bind_ok _ hask]
        exact ⟨_, rfl⟩
    | some f =>
        rw [hfails] at hask
        rw [Prog.Raising.exec_bind_error _ hask]
        exact ⟨[], rfl⟩
  obtain ⟨markups, hmarkups⟩ := hinner
  rcases exec_withSession fails w hmarkups (by simp [hw₁]) with
    ⟨hopening, hclosing, hexec⟩ | ⟨hnot, hraises⟩
  · rw [hopened] at hopening
    rw [hclosed] at hclosing
    exact .inl ⟨hopening, hclosing, markups, hexec⟩
  · rw [hopened, hclosed] at hnot
    exact .inr ⟨hnot, hraises⟩

/-- The listing, once the overlap has been subtracted; it is empty where the listing fails. -/
def listed (since : Option Stamp) : List Blob :=
  if (fails .listing 0).isSome then [] else (pendingBlobs since w.blobs).toOption.getD []

omit [PyFloat K] in
lemma exec_listPending (since : Option Stamp) (t : Trial K) (ht : t.outside = w)
    (hlisting : t.made .listing = 0) :
    ∃ pending, exec (tried fails) (attempt (listPending since)) t =
      (.ok pending, t.counted .listing) ∧
      pending.getD [] = listed fails w since := by
  have hask : exec (tried fails) (ask .listBlobs : Task K _) t = _ :=
    tried_quiet fails t (o := .listBlobs) rfl rfl
  rw [hlisting] at hask
  rw [exec_attempt]
  unfold listPending listed
  cases hfails : fails .listing 0 with
  | some f =>
      rw [hfails] at hask
      rw [Prog.Raising.exec_bind_error _ hask]
      exact ⟨none, rfl, by simp⟩
  | none =>
      rw [hfails] at hask
      rw [Prog.Raising.exec_bind_ok _ hask]
      have hblobs : t.outside.blobs = w.blobs := by rw [ht]
      cases hpending : pendingBlobs since w.blobs with
      | error f => exact ⟨none, by simp only [hblobs, hpending]; rfl, rfl⟩
      | ok pending => exact ⟨some pending, by simp only [hblobs, hpending]; rfl, rfl⟩

end Phases

/-! ## The loops -/

/-- The number of upserts after some events, from the `n`-th one on, if none of the events stops the
loop. -/
def landEvents (fails : Failures) : ℕ → List (Dict K) → Option ℕ
  | n, [] => some n
  | n, event :: events =>
      if ! keyed event then landEvents fails n events
      else if convertible event && (fails .upsert n).isNone then landEvents fails (n + 1) events
      else none

lemma landEvents_cons (fails : Failures) (n : ℕ) (event : Dict K) (events : List (Dict K)) :
    landEvents fails n (event :: events) =
      (landEvents fails n [event]).bind (fun n => landEvents fails n events) := by
  simp only [landEvents]
  split_ifs <;> rfl

/-- The first blobs of a list, as far as none of them stops the loop: from the `i`-th download and
the `n`-th upsert on. -/
def landed (fails : Failures) (content : String → List (AvroRecord K)) :
    ℕ → ℕ → List Blob → List Blob
  | _, _, [] => []
  | i, n, blob :: blobs =>
      if (fails .download i).isSome then []
      else match landEvents fails n (decodeAvro (content blob.name)) with
        | none => []
        | some n => blob :: landed fails content (i + 1) n blobs

/-- The event has been converted, and its document upserted if it has one. -/
def Outside.Handled (py : Runtime K) (w : Outside K) (event : Dict K) : Prop :=
  ∃ markups now doc, eventToDocument py event markups now = .ok doc ∧ ∀ d ∈ doc, d ∈ w.upserts

/-- Every event of a blob has been handled: it was upserted, or it is one that the run leaves
out. -/
def Outside.Landed (py : Runtime K) (w : Outside K) (blob : Blob) : Prop :=
  ∀ event ∈ decodeAvro (w.content blob.name), w.Handled py event

lemma Outside.Handled.grows {py : Runtime K} {w w' : Outside K} {event : Dict K}
    (h : w.Handled py event) (hg : Grows w w') : w'.Handled py event := by
  obtain ⟨markups, now, doc, hdoc, hmem⟩ := h
  exact ⟨markups, now, doc, hdoc, fun d hd => hg.upserts (hmem d hd)⟩

lemma Outside.Landed.grows {py : Runtime K} {w w' : Outside K} {blob : Blob}
    (h : w.Landed py blob) (hg : Grows w w') : w'.Landed py blob := by
  intro event he
  rw [hg.content] at he
  exact (h event he).grows hg

/-- The number of events of a blob, as the reader of Avro yields them. -/
def eventsOf (content : String → List (AvroRecord K)) (blob : Blob) : ℕ :=
  (decodeAvro (content blob.name)).length

/-- The number of events of some blobs, for the statistics of a run. -/
def eventsIn (content : String → List (AvroRecord K)) (blobs : List Blob) : ℕ :=
  (blobs.map (eventsOf content)).sum

/-- The events that the counters say have been dealt with. -/
def Stats.done (stats : Stats) : ℕ := stats.written + stats.skipped

/-- The counters of the loop over the blobs count the blobs that land and all their events.  They do
not count the first blob that is left, or not all of its events. -/
structure Counted (content : String → List (AvroRecord K)) (landed left : List Blob)
    (before after : Stats) : Prop where
  blobs : before.blobs + landed.length ≤ after.blobs
  events : before.done + eventsIn content landed ≤ after.done
  left : ∀ b ∈ left.head?, after.blobs < before.blobs + landed.length + 1 ∨
    after.done < before.done + eventsIn content landed + eventsOf content b

omit [PyFloat K] in
lemma Counted.refl (content : String → List (AvroRecord K)) (stats : Stats) :
    Counted content [] [] stats stats :=
  ⟨le_rfl, le_rfl, by simp⟩

omit [PyFloat K] in
/-- A blob lands before the others: it counts once among the blobs, and with all its events. -/
lemma Counted.cons {content : String → List (AvroRecord K)} {blob : Blob} {landed left : List Blob}
    {before between after : Stats} (hblobs : between.blobs = before.blobs + 1)
    (hdone : between.done = before.done + eventsOf content blob)
    (h : Counted content landed left between after) :
    Counted content (blob :: landed) left before after := by
  obtain ⟨hb, he, hl⟩ := h
  have hevents : eventsIn content (blob :: landed) =
      eventsOf content blob + eventsIn content landed := by
    simp [eventsIn]
  have hlength : (blob :: landed).length = landed.length + 1 := rfl
  refine ⟨by omega, by omega, fun b hmem => ?_⟩
  rcases hl b hmem with hl | hl
  · left; omega
  · right; omega

/-- The loops make no calls of other kinds, so that the numbers of those calls are the same before
and after. -/
def Trial.SameBut (kinds : List Kind) (t t' : Trial K) : Prop :=
  ∀ kind, kind ∉ kinds → t'.made kind = t.made kind

section Loops

variable (fails : Failures) (py : Runtime K) (markups : Markups K)

omit [PyFloat K] in
/-- An upsert, and what is left of one that fails. -/
lemma tried_upsert (doc : Document K) (t : Trial K) :
    ∃ r t', tried fails (.upsert doc) t = (r, t') ∧ Grows t.outside t'.outside ∧
      t.SameBut [.upsert] t' ∧
      ((fails .upsert (t.made .upsert) = none ∧ t'.made .upsert = t.made .upsert + 1 ∧
          r = .ok () ∧ doc ∈ t'.outside.upserts) ∨
        ((fails .upsert (t.made .upsert)).isSome ∧ ∃ e, r = .error e)) := by
  have hgrows : Grows t.outside { t.outside with upserts := t.outside.upserts ++ [doc] } :=
    ⟨rfl, rfl, List.subset_append_left _ _⟩
  have hmade : ∀ outside : Outside K, t.SameBut [.upsert]
      ⟨outside, Function.update t.made .upsert (t.made .upsert + 1)⟩ := fun _ kind hkind =>
    Function.update_of_ne (by simpa using hkind) _ _
  unfold tried
  simp only [Call.kind]
  cases hfails : fails .upsert (t.made .upsert) with
  | none =>
      exact ⟨_, _, rfl, hgrows, hmade _, .inl ⟨rfl, by simp, rfl, by simp [answer]⟩⟩
  | some f =>
      obtain ⟨e, took⟩ := f
      cases took with
      | true => exact ⟨_, _, rfl, hgrows, hmade _, .inr ⟨rfl, e, rfl⟩⟩
      | false => exact ⟨_, _, rfl, Grows.refl _, hmade _, .inr ⟨rfl, e, rfl⟩⟩

/-- One event.  Its upsert takes the next number, and the event is handled if no exception waits
under it; only the outside and this count change. -/
lemma exec_tried_importEvent (event : Dict K) (t : Trial K) :
    ∃ r t', exec (tried fails) (importEvent py markups event) t = (r, t') ∧
      Grows t.outside t'.outside ∧ t.SameBut [.upsert] t' ∧
      ((∃ n, landEvents fails (t.made .upsert) [event] = some n ∧ t'.made .upsert = n ∧
          (∃ written, r = .ok written) ∧ t'.outside.Handled py event) ∨
        (landEvents fails (t.made .upsert) [event] = none ∧ ∃ e, r = .error e)) := by
  set now := t.outside.clock 0 with hnowDef
  set t₁ : Trial K := { t with
    outside := { t.outside with clock := fun n => t.outside.clock (n + 1) } } with ht₁
  have hnow : exec (tried fails) (ask .now : Task K _) t = (.ok now, t₁) := rfl
  have hgrows₁ : Grows t.outside t₁.outside := ⟨rfl, rfl, List.Subset.refl _⟩
  unfold importEvent
  rw [Prog.Raising.exec_bind_ok _ hnow]
  cases hkeyed : keyed event with
  | false =>
      have hdoc := eventToDocument_of_not_keyed py hkeyed markups now
      rw [hdoc]
      exact ⟨.ok false, t₁, rfl, hgrows₁, fun _ _ => rfl, .inl ⟨t.made .upsert,
        by simp [landEvents, hkeyed], rfl, ⟨false, rfl⟩, markups, now, none, hdoc, by simp⟩⟩
  | true =>
      have hok := eventToDocument_isOk py hkeyed markups now
      cases hconvertible : convertible event with
      | false =>
          rw [hconvertible] at hok
          cases hdoc : eventToDocument py event markups now with
          | ok doc =>
              rw [hdoc] at hok
              cases hok
          | error f =>
              exact ⟨.error (.code f), t₁, rfl, hgrows₁, fun _ _ => rfl,
                .inr ⟨by simp [landEvents, hkeyed, hconvertible], _, rfl⟩⟩
      | true =>
          obtain ⟨doc, hdoc, hsome⟩ := eventToDocument_ok py (fun _ => hconvertible) markups now
          obtain ⟨d, rfl⟩ := Option.ne_none_iff_exists'.1 (hsome hkeyed)
          rw [hdoc]
          obtain ⟨r, t', hupsert, hgrows, hsame, hcases⟩ := tried_upsert fails d t₁
          rcases hcases with ⟨hnone, hmade, rfl, hmem⟩ | ⟨hsome, e, rfl⟩
          · refine ⟨.ok true, t', ?_, hgrows₁.trans hgrows, hsame,
              .inl ⟨_, ?_, hmade, ⟨true, rfl⟩, ?_⟩⟩
            · exact Prog.Raising.exec_bind_ok (p := ask (.upsert d)) _ hupsert
            · simp [landEvents, hkeyed, hconvertible,
                show fails .upsert (t.made .upsert) = none from hnone,
                ht₁]
            · exact ⟨markups, now, some d, hdoc, by simpa using hmem⟩
          · refine ⟨.error e, t', ?_, hgrows₁.trans hgrows, hsame, .inr ⟨?_, e, rfl⟩⟩
            · exact Prog.Raising.exec_bind_error (p := ask (.upsert d)) _ hupsert
            · have hsome : (fails .upsert (t.made .upsert)).isSome := hsome
              simp [landEvents, hkeyed, hconvertible, Option.isSome_iff_ne_none.1 hsome]

/-- The loop over the events comes to its end if they all land; otherwise one of them is counted
neither as written nor as skipped. -/
lemma exec_tried_importEvents (events : List (Dict K)) (stats : Stats) (t : Trial K) :
    ∃ stats' finished t',
      exec (tried fails) (importEvents py markups events stats) t = (.ok (stats', finished), t') ∧
      Grows t.outside t'.outside ∧ t.SameBut [.upsert] t' ∧ stats'.blobs = stats.blobs ∧
      ((∃ n, landEvents fails (t.made .upsert) events = some n ∧ t'.made .upsert = n ∧
          finished = true ∧ stats'.done = stats.done + events.length ∧
          ∀ event ∈ events, t'.outside.Handled py event) ∨
        (landEvents fails (t.made .upsert) events = none ∧ finished = false ∧
          stats.done ≤ stats'.done ∧ stats'.done < stats.done + events.length)) := by
  induction events generalizing stats t with
  | nil =>
      exact ⟨stats, true, t, rfl, Grows.refl _, fun _ _ => rfl, rfl,
        .inl ⟨_, rfl, rfl, rfl, rfl, by simp⟩⟩
  | cons event events ih =>
      obtain ⟨r, t₁, hone, hgrows₁, hsame₁, hcases⟩ :=
        exec_tried_importEvent fails py markups event t
      have hattempt := exec_attempt (tried fails) (importEvent py markups event) t
      rw [hone] at hattempt
      unfold importEvents
      rw [Prog.Raising.exec_bind_ok _ hattempt, landEvents_cons]
      rcases hcases with ⟨n, hland, hmade, ⟨written, rfl⟩, hhandled⟩ | ⟨hnone, e, rfl⟩
      · -- Written or skipped, the event is counted, and the loop goes on with the others.
        have hgo : ∀ stats₁ : Stats, stats₁.blobs = stats.blobs → stats₁.done = stats.done + 1 →
            ∃ stats' finished t',
              exec (tried fails) (importEvents py markups events stats₁) t₁ =
                (.ok (stats', finished), t') ∧
              Grows t.outside t'.outside ∧ t.SameBut [.upsert] t' ∧ stats'.blobs = stats.blobs ∧
              ((∃ n, (landEvents fails (t.made .upsert) [event]).bind
                  (fun n => landEvents fails n events) = some n ∧ t'.made .upsert = n ∧
                  finished = true ∧ stats'.done = stats.done + (event :: events).length ∧
                  ∀ e ∈ event :: events, t'.outside.Handled py e) ∨
                ((landEvents fails (t.made .upsert) [event]).bind
                  (fun n => landEvents fails n events) = none ∧ finished = false ∧
                  stats.done ≤ stats'.done ∧
                  stats'.done < stats.done + (event :: events).length)) := by
          intro stats₁ hblobs₁ hdone₁
          obtain ⟨stats', finished, t', hexec, hgrows, hsame, hblobs, hcases⟩ := ih stats₁ t₁
          have hlength : (event :: events).length = events.length + 1 := rfl
          rw [hmade] at hcases
          refine ⟨stats', finished, t', hexec, hgrows₁.trans hgrows, fun kind hkind => ?_,
            hblobs.trans hblobs₁, ?_⟩
          · rw [hsame kind hkind, hsame₁ kind hkind]
          · rw [hland, Option.bind_some]
            rcases hcases with ⟨n', hland', hmade', hfinished, hdone, hall⟩ |
              ⟨hland', hfinished, hge, hlt⟩
            · refine .inl ⟨n', hland', hmade', hfinished, by omega, fun e he => ?_⟩
              rcases List.mem_cons.1 he with rfl | he
              · exact hhandled.grows hgrows
              · exact hall e he
            · exact .inr ⟨hland', hfinished, by omega, by omega⟩
        cases written with
        | true => exact hgo _ rfl (by simp only [Stats.done]; omega)
        | false => exact hgo _ rfl (by simp only [Stats.done]; omega)
      -- An upsert has raised: the loop ends, and this event and those after it are not counted.
      · exact ⟨stats, false, t₁, rfl, hgrows₁, hsame₁, rfl,
          .inr ⟨by rw [hnone]; rfl, rfl, le_rfl, by simp⟩⟩

omit [PyFloat K] in
/-- A blob is read, or stops the loop; in both cases one download is counted and the outside is as
it was. -/
lemma exec_tried_download (name : String) (t : Trial K) :
    ∃ records t', exec (tried fails) (attempt (ask (.download name))) t = (.ok records, t') ∧
      t'.outside = t.outside ∧ t.SameBut [.download] t' ∧ t'.made .download = t.made .download + 1 ∧
      ((fails .download (t.made .download) = none ∧ records = some (t.outside.content name)) ∨
        ((fails .download (t.made .download)).isSome ∧ records = none)) := by
  have hask : exec (tried fails) (ask (.download name) : Task K _) t = _ :=
    tried_quiet fails t (o := .download name) rfl rfl
  have hsame : t.SameBut [.download] (t.counted .download) := by
    intro kind hkind
    simp only [List.mem_singleton] at hkind
    simp [hkind]
  rw [exec_attempt, hask]
  cases hfails : fails .download (t.made .download) with
  | none => exact ⟨_, _, rfl, rfl, hsame, by simp, .inl ⟨rfl, rfl⟩⟩
  | some f => exact ⟨_, _, rfl, rfl, hsame, by simp, .inr ⟨rfl, rfl⟩⟩

/-- What the loop over the blobs has reached: the time of one that has landed, and of none that is
earlier than another. -/
structure Moved (watermark : Option Stamp) (before : Option Datetime) (landed : List Blob)
    (after : Option Datetime) : Prop where
  isSome : after.isSome ↔
    before.isSome ∨ ∃ b ∈ landed, advances watermark none b.lastModified = .ok true
  source : ∀ d ∈ after, d ∈ before ∨ ∃ b ∈ landed, b.lastModified = d
  before : ∀ d ∈ after, ∀ r ∈ before, r.ticks ≤ d.ticks
  latest : ∀ d ∈ after, ∀ b ∈ landed,
    advances watermark none b.lastModified = .ok true → b.lastModified.ticks ≤ d.ticks

omit [PyFloat K] in
lemma Trial.SameBut.trans {kinds : List Kind} {t t' t'' : Trial K} (h : t.SameBut kinds t')
    (h' : t'.SameBut kinds t'') : t.SameBut kinds t'' :=
  fun kind hkind => (h' kind hkind).trans (h kind hkind)

omit [PyFloat K] in
lemma Trial.SameBut.mono {kinds more : List Kind} {t t' : Trial K} (h : t.SameBut kinds t')
    (hmore : kinds ⊆ more) : t.SameBut more t' :=
  fun kind hkind => h kind (fun hmem => hkind (hmore hmem))

lemma Moved.refl (watermark : Option Stamp) (reached : Option Datetime) :
    Moved watermark reached [] reached where
  isSome := by simp
  source _ hd := .inl hd
  before d hd r hr := (Option.mem_unique hr hd) ▸ le_rfl
  latest := by simp

lemma Moved.trans {watermark : Option Stamp} {a b c : Option Datetime} {xs ys : List Blob}
    (h : Moved watermark a xs b) (h' : Moved watermark b ys c) :
      Moved watermark a (xs ++ ys) c where
  isSome := by
    rw [h'.isSome, h.isSome]
    simp only [List.mem_append, or_and_right, exists_or, or_assoc]
  source d hd := by
    rcases h'.source d hd with hd | ⟨blob, hblob, hd⟩
    · exact (h.source d hd).imp_right
        (fun ⟨blob, hblob, hd⟩ => ⟨blob, List.mem_append_left ys hblob, hd⟩)
    · exact .inr ⟨blob, List.mem_append_right xs hblob, hd⟩
  before d hd r hr := by
    obtain ⟨m, hm⟩ := Option.isSome_iff_exists.1 (h.isSome.2 (.inl (Option.isSome_of_mem hr)))
    exact (h.before m hm r hr).trans (h'.before d hd m hm)
  latest d hd blob hblob hadvances := by
    rcases List.mem_append.1 hblob with hblob | hblob
    · -- The position has moved at this blob or before it, and only forward since.
      obtain ⟨m, hm⟩ := Option.isSome_iff_exists.1 (h.isSome.2 (.inr ⟨blob, hblob, hadvances⟩))
      exact (h.latest m hm blob hblob hadvances).trans (h'.before d hd m hm)
    · exact h'.latest d hd blob hblob hadvances

/-- The position after a blob that lands: it moves to the blob's stamp if that is later, and a
watermark with a time zone can always be compared. -/
lemma moved_blob {watermark : Option Stamp} (hcomparable : Comparable watermark)
    (reached : Option Datetime) (blob : Blob) :
    ∃ forward, advances watermark reached blob.lastModified = .ok forward ∧
      Moved watermark reached [blob] (if forward then some blob.lastModified else reached) := by
  have hsome : ∀ r, advances watermark (some r) blob.lastModified =
      .ok (decide (r.ticks < blob.lastModified.ticks)) := fun _ => rfl
  rcases advances_ok hcomparable reached blob.lastModified with ⟨hadv, -⟩ | ⟨hadv, -⟩
  · refine ⟨true, hadv, ?_⟩
    cases reached with
    | some r =>
        have hlt : r.ticks < blob.lastModified.ticks := by simpa [hsome] using hadv
        exact ⟨by simp, by simp, by simpa using hlt.le, by simp⟩
    | none => exact ⟨by simp [hadv], by simp, by simp, by simp⟩
  · refine ⟨false, hadv, ?_⟩
    cases reached with
    | some r =>
        have hle : blob.lastModified.ticks ≤ r.ticks := by simpa [hsome] using hadv
        exact ⟨by simp, by simp, by simp, by simpa using fun _ => hle⟩
    | none => exact ⟨by simp [hadv], by simp, by simp, by simp⟩

/-- No blob that has landed is later than the position: one that is not newer than the watermark is
earlier than those that are. -/
lemma Moved.notLater {watermark : Option Stamp} {landed : List Blob} {reached : Option Datetime}
    (h : Moved watermark none landed reached) {d : Datetime} (hd : d ∈ reached) {b : Blob}
    (hb : b ∈ landed) : b.lastModified.ticks ≤ d.ticks := by
  cases watermark with
  | none => exact h.latest d hd b hb rfl
  | some s =>
      obtain ⟨b₁, hb₁, hnewer₁⟩ := (h.isSome.1 (Option.isSome_of_mem hd)).resolve_left (by simp)
      have hle := h.latest d hd b₁ hb₁ hnewer₁
      cases hoffset : s.offset with
      | none =>
          rw [show advances (some s) none b₁.lastModified = .error .type by
            simp only [advances, newer, hoffset]; rfl] at hnewer₁
          cases hnewer₁
      | some offset =>
          have hnewer : ∀ e, advances (some s) none e =
              .ok (decide ((s.clock.ticks : ℤ) - offset < e.ticks)) := by
            intro e
            simp only [advances, newer, hoffset]
            rfl
          rw [hnewer] at hnewer₁
          simp only [Except.ok.injEq, decide_eq_true_eq] at hnewer₁
          by_cases hlater : (s.clock.ticks : ℤ) - offset < b.lastModified.ticks
          · exact h.latest d hd b hb (by rw [hnewer, decide_eq_true hlater])
          · omega

/-- A round of the loop over the blobs: the blob lands and the loop goes on, or it ends.  A blob
that does not land has not been read, or an event of it has not been counted. -/
lemma exec_tried_importBlob {watermark : Option Stamp} (hcomparable : Comparable watermark)
    (blob : Blob) (blobs : List Blob) (run : Run) (t : Trial K) :
    (∃ run₁ t₁, exec (tried fails) (importBlobs py watermark markups (blob :: blobs) run) t =
          exec (tried fails) (importBlobs py watermark markups blobs run₁) t₁ ∧
        Grows t.outside t₁.outside ∧ t.SameBut [.download, .upsert] t₁ ∧
        t₁.outside.Landed py blob ∧ Moved watermark run.reached [blob] run₁.reached ∧
        run₁.stats.blobs = run.stats.blobs + 1 ∧
        run₁.stats.done = run.stats.done + eventsOf t.outside.content blob ∧
        landed fails t.outside.content (t.made .download) (t.made .upsert) (blob :: blobs) =
          blob :: landed fails t₁.outside.content (t₁.made .download) (t₁.made .upsert) blobs) ∨
      (∃ run₁ t₁, exec (tried fails) (importBlobs py watermark markups (blob :: blobs) run) t =
          (.ok run₁, t₁) ∧
        Grows t.outside t₁.outside ∧ t.SameBut [.download, .upsert] t₁ ∧
        run₁.reached = run.reached ∧
        Counted t.outside.content [] (blob :: blobs) run.stats run₁.stats ∧
        landed fails t.outside.content (t.made .download) (t.made .upsert) (blob :: blobs) =
          []) := by
  obtain ⟨records, t₁, hread, houtside, hsame₁, hcount, hcases⟩ :=
    exec_tried_download fails blob.name t
  have hgrows₁ : Grows t.outside t₁.outside := by
    rw [houtside]
    exact Grows.refl _
  have hsame₁' : t.SameBut [.download, .upsert] t₁ := hsame₁.mono (by simp)
  rw [importBlobs, Prog.Raising.exec_bind_ok _ hread]
  rcases hcases with ⟨hnone, rfl⟩ | ⟨hsome, rfl⟩
  · dsimp only
    obtain ⟨stats, finished, t₂, hevents, hgrows₂, hsame₂, hblobs, hcases⟩ :=
      exec_tried_importEvents fails py markups (decodeAvro (t.outside.content blob.name))
        { run.stats with
        blobs := run.stats.blobs + 1
        events := run.stats.events + (decodeAvro (t.outside.content blob.name)).length } t₁
    have hgrows : Grows t.outside t₂.outside := hgrows₁.trans hgrows₂
    have hsame : t.SameBut [.download, .upsert] t₂ := hsame₁'.trans (hsame₂.mono (by simp))
    have hupserts : t₁.made .upsert = t.made .upsert := hsame₁ .upsert (by simp)
    rw [hupserts] at hcases
    rw [Prog.Raising.exec_bind_ok _ hevents]
    rcases hcases with ⟨n, hland, hmade, rfl, hdone, hhandled⟩ | ⟨hland, rfl, hge, hlt⟩
    · left
      have hdownloads : t₂.made .download = t.made .download + 1 := by
        rw [hsame₂ .download (by simp), hcount]
      have hlanded : landed fails t.outside.content (t.made .download) (t.made .upsert)
          (blob :: blobs) = blob ::
            landed fails t₂.outside.content (t₂.made .download) (t₂.made .upsert) blobs := by
        simp [landed, hnone, hland, hdownloads, hmade, hgrows.content]
      have hblob : t₂.outside.Landed py blob := by
        intro event he
        rw [hgrows.content] at he
        exact hhandled event he
      -- The position moves unless it is later than this blob already.
      obtain ⟨forward, hadvances, hmoved⟩ := moved_blob hcomparable run.reached blob
      simp only [if_true]
      rw [hadvances]
      cases forward with
      | true =>
          exact ⟨⟨stats, some blob.lastModified⟩, t₂, rfl, hgrows, hsame, hblob, hmoved, hblobs,
            hdone,
            hlanded⟩
      | false =>
          exact ⟨{ run with stats := stats }, t₂, rfl, hgrows, hsame, hblob, hmoved, hblobs, hdone,
            hlanded⟩
    · -- The blob has been read, but not all of its events have been written or skipped.
      have hcounted : Counted t.outside.content [] (blob :: blobs) run.stats stats :=
        ⟨by simp [hblobs], hge, fun b hb => by
          obtain rfl : blob = b := by simpa using hb
          exact .inr hlt⟩
      exact .inr ⟨_, t₂, rfl, hgrows, hsame, rfl, hcounted, by simp [landed, hnone, hland]⟩
  · -- The blob has not been read.
    have hcounted : Counted t.outside.content [] (blob :: blobs) run.stats run.stats :=
      ⟨le_rfl, le_rfl, fun _ _ => .inl (Nat.lt_succ_self _)⟩
    exact .inr ⟨run, t₁, rfl, hgrows₁, hsame₁', rfl, hcounted, by simp [landed, hsome]⟩

/-- The loop over the blobs lands the first of them, and counts them. -/
lemma exec_tried_importBlobs {watermark : Option Stamp} (blobs : List Blob)
    (hw : blobs ≠ [] → Comparable watermark) (run : Run) (t : Trial K) :
    ∃ run' t', exec (tried fails) (importBlobs py watermark markups blobs run) t = (.ok run', t') ∧
      Grows t.outside t'.outside ∧ t.SameBut [.download, .upsert] t' ∧
      (∀ b ∈ landed fails t.outside.content (t.made .download) (t.made .upsert) blobs,
        t'.outside.Landed py b) ∧
      Moved watermark run.reached
        (landed fails t.outside.content (t.made .download) (t.made .upsert) blobs) run'.reached ∧
      ∃ left, blobs = landed fails t.outside.content (t.made .download) (t.made .upsert) blobs ++
        left ∧
        Counted t.outside.content
          (landed fails t.outside.content (t.made .download) (t.made .upsert) blobs) left run.stats
          run'.stats := by
  induction blobs generalizing run t with
  | nil =>
      exact ⟨run, t, rfl, Grows.refl _, fun _ _ => rfl, by simp [landed], Moved.refl _ _, [], rfl,
        Counted.refl _ _⟩
  | cons blob blobs ih =>
      have hcomparable : Comparable watermark := hw (List.cons_ne_nil _ _)
      rcases exec_tried_importBlob fails py markups hcomparable blob blobs run t with
        ⟨run₁, t₁, hround, hgrows₁, hsame₁, hblob, hmoved₁, hblobs, hdone, hlanded⟩ |
        ⟨run₁, t₁, hround, hgrows₁, hsame₁, hreached, hcounted, hlanded⟩
      · obtain ⟨run', t', hexec, hgrows, hsame, hall, hmoved, left, hsplit, hcounted⟩ :=
          ih (fun _ => hcomparable) run₁ t₁
        have hcontent : t₁.outside.content = t.outside.content := hgrows₁.content
        rw [hround, hlanded]
        refine ⟨run', t', hexec, hgrows₁.trans hgrows, hsame₁.trans hsame, fun b hb => ?_,
          hmoved₁.trans hmoved, left, congrArg (blob :: ·) hsplit, ?_⟩
        · rcases List.mem_cons.1 hb with rfl | hb
          · exact hblob.grows hgrows
          · exact hall b hb
        · rw [← hcontent] at hdone ⊢
          exact Counted.cons hblobs hdone hcounted
      · rw [hround, hlanded]
        refine ⟨run₁, t₁, rfl, hgrows₁, hsame₁, by simp, ?_, blob :: blobs, rfl, hcounted⟩
        rw [hreached]
        exact Moved.refl _ _

end Loops

/-! ## After the loops -/

section Writing

variable (fails : Failures)

/-- The watermark can be written, or what cannot be written is rolled back. -/
structure Writes : Prop where
  opening : fails .opening 2 = none
  closing : fails .closing 2 = none
  rollback : (fails .position 1).isSome ∨ (fails .storing 0).isSome → fails .rollback 0 = none

/-- The new watermark is there after the write: its row could be read, and the commit was answered,
or failed after it had had its effect. -/
def Takes : Prop :=
  fails .position 1 = none ∧ ∀ f ∈ fails .storing 0, f.2 = true

omit [PyFloat K] in
/-- What the write leaves: the new position if the write takes effect, and otherwise the position as
it was. -/
def Written (d : Datetime) (t t' : Trial K) : Prop :=
  (¬ Takes fails ∧ t'.outside = t.outside) ∨
    (Takes fails ∧ t'.outside = { t.outside with position := some d.isoformat })

/-- What has failed in the guarded part can be rolled back, if something has. -/
def Rolls : Prop :=
  (fails .position 1).isSome ∨ (fails .storing 0).isSome → fails .rollback 0 = none

/-- How the guarded part of the write ends: the position is written or it is not, no session has
been closed, and what has failed is rolled back, or the rollback raises. -/
structure Settles (d : Datetime) (t : Trial K) (r : Except Fault Unit) (t' : Trial K) : Prop where
  closing : t'.made .closing = t.made .closing
  written : Written fails d t t'
  ended : Rolls fails ∧ r = .ok () ∨ ¬ Rolls fails ∧ ∃ e, r = .error e

omit [PyFloat K] in
/-- What has failed is rolled back; the world is then as the failure has left it. -/
lemma exec_tried_rollback {d : Datetime} {t t₁ : Trial K} (hzero : t₁.made .rollback = 0)
    (hclosing : t₁.made .closing = t.made .closing) (hwritten : Written fails d t t₁)
    (hfailed : (fails .position 1).isSome ∨ (fails .storing 0).isSome) :
    ∃ r t', exec (tried fails) (ask .rollback : Task K _) t₁ = (r, t') ∧
      Settles fails d t r t' := by
  have hroll : exec (tried fails) (ask .rollback : Task K _) t₁ = _ :=
    tried_quiet fails t₁ (o := .rollback) rfl rfl
  rw [hzero] at hroll
  refine ⟨_, _, hroll, by simpa using hclosing, hwritten, ?_⟩
  cases hfails : fails .rollback 0 with
  | none => exact .inl ⟨fun _ => hfails, rfl⟩
  | some f => exact .inr ⟨fun h => Option.some_ne_none f (hfails.symm.trans (h hfailed)), f.1, rfl⟩

omit [PyFloat K] in
/-- The position is put; a put that raises may have taken effect all the same. -/
lemma exec_tried_putPosition (absent : Bool) (position : String) (t : Trial K)
    (hstoring : t.made .storing = 0) :
    exec (tried fails) (ask (.putPosition absent position) : Task K _) t =
      match fails .storing 0 with
      | none => (.ok (), ⟨{ t.outside with position := some position },
          Function.update t.made .storing 1⟩)
      | some (e, took) => (.error e,
          ⟨if took then { t.outside with position := some position } else t.outside,
            Function.update t.made .storing 1⟩) := by
  show tried fails (.putPosition absent position) t = _
  unfold tried
  simp only [Call.kind, hstoring]
  cases fails .storing 0 with
  | none => rfl
  | some f =>
      obtain ⟨e, took⟩ := f
      cases took <;> rfl

omit [PyFloat K] in
/-- The guarded part of the write: the row is looked for, and the position is put. -/
lemma exec_tried_store (d : Datetime) (t : Trial K) (hposition : t.made .position = 1)
    (hstoring : t.made .storing = 0) (hrollback : t.made .rollback = 0) :
    ∃ r t', exec (tried fails) (tryCatch (do
        let row ← ask .getPosition
        ask (.putPosition row.isNone d.isoformat))
      (fun _ => ask .rollback) : Task K Unit) t = (r, t') ∧ Settles fails d t r t' := by
  have hget : exec (tried fails) (ask .getPosition : Task K _) t = _ :=
    tried_quiet fails t (o := .getPosition) rfl rfl
  rw [hposition] at hget
  rw [Prog.Raising.exec_tryCatch]
  cases hread : fails .position 1 with
  | some f =>
      rw [hread] at hget
      rw [Prog.Raising.exec_bind_error _ hget]
      have hkept : ¬ Takes fails := fun h => by simp [Takes, hread] at h
      exact exec_tried_rollback fails (by simpa using hrollback) (by simp) (.inl ⟨hkept, rfl⟩)
        (.inl (by simp [hread]))
  | none =>
      rw [hread] at hget
      rw [Prog.Raising.exec_bind_ok _ hget,
        exec_tried_putPosition fails _ _ _ (by simpa using hstoring)]
      cases hstore : fails .storing 0 with
      | none =>
          have htakes : Takes fails := ⟨hread, by simp [hstore]⟩
          exact ⟨.ok (), _, rfl, by simp, .inr ⟨htakes, rfl⟩,
            .inl ⟨fun h => by simp [hread, hstore] at h, rfl⟩⟩
      | some f =>
          obtain ⟨e, took⟩ := f
          -- The position moves only where the failed put has taken effect.
          have hwritten : Written fails d t
              ⟨if took then { t.outside with position := some d.isoformat } else t.outside,
                Function.update (t.counted .position).made .storing 1⟩ := by
            cases took with
            | true => exact .inr ⟨⟨hread, by simp [hstore]⟩, rfl⟩
            | false => exact .inl ⟨fun h => by simp [Takes, hstore] at h, rfl⟩
          exact exec_tried_rollback fails (by simpa using hrollback) (by simp) hwritten
            (.inr (by simp [hstore]))

omit [PyFloat K] in
lemma exec_tried_writeWatermark (d : Datetime) (t : Trial K) (hopening : t.made .opening = 2)
    (hclosing : t.made .closing = 2) (hposition : t.made .position = 1)
    (hstoring : t.made .storing = 0) (hrollback : t.made .rollback = 0) :
    (Writes fails ∧ ∃ t', exec (tried fails) (writeWatermark d) t = (.ok (), t') ∧
      Written fails d t t') ∨
    (¬ Writes fails ∧ ∃ e t', exec (tried fails) (writeWatermark d) t = (.error e, t')) := by
  obtain ⟨r, t', hinner, hmade, houtside, hr⟩ := exec_tried_store fails d (t.counted .opening)
    (by simpa using hposition) (by simpa using hstoring) (by simpa using hrollback)
  have hsession := exec_withSession fails t hinner (by simpa using hmade)
  rw [hopening, hclosing] at hsession
  rcases hsession with ⟨hopens, hcloses, hexec⟩ | ⟨hnot, hraises⟩
  · rcases hr with ⟨hrolls, rfl⟩ | ⟨hrolls, e, rfl⟩
    · exact .inl ⟨⟨hopens, hcloses, hrolls⟩, _, hexec, houtside⟩
    · exact .inr ⟨fun h => hrolls h.rollback, e, _, hexec⟩
  · exact .inr ⟨fun h => hnot ⟨h.opening, h.closing⟩, hraises⟩

end Writing

/-! ## The whole run -/

section Survival

variable (fails : Failures) (w : Outside K)

omit [PyFloat K] in
/-- The blobs that a run selects, from the position that it has read. -/
def chosen : List Blob :=
  match sinceOf (readPosition fails w) with
  | .ok since => listed fails w since
  | .error _ => []

/-- The blobs that land: the first of the selected ones, up to the first download or upsert that
fails. -/
def finished : List Blob := landed fails w.content 0 0 (chosen fails w)

/-- The blobs that are selected and do not land: the one that stops the loop, and those after it. -/
def left : List Blob := (chosen fails w).drop (finished fails w).length

/-- A blob that lands is newer than the watermark, so that there is one to store. -/
def Stores : Prop :=
  ∃ b ∈ finished fails w, advances (readPosition fails w) none b.lastModified = .ok true

/-- Nothing fails that is not guarded: the sessions in which the run reads, the subtraction of the
overlap, and the session of the write where there is one. -/
structure Guarded : Prop where
  reads : Reads fails
  fits : (sinceOf (readPosition fails w)).isOk = true
  markups : fails .opening 1 = none ∧ fails .closing 1 = none
  writes : Stores fails w → Writes fails

/-- Where another watermark than before is stored, the time of the last blob that lands, no blob of
that time is left. -/
def Untied : Prop :=
  Stores fails w → Takes fails → ∀ last ∈ finished fails w,
    (∀ b ∈ finished fails w, Blob.NotLater b last) → w.position ≠ some last.lastModified.isoformat →
    ∀ b ∈ left fails w, ¬ Blob.NotLater b last

/-- The selected blobs up to the time of one of them. -/
def upTo (last : Blob) : List Blob :=
  (chosen fails w).filter (fun b => decide (Blob.NotLater b last))

/-- The stored watermark is the time of a selected blob, and all the selected blobs up to that time
have been imported: the documents of their events are there, and the counters of the run count each
of these blobs, and each of their events as written or skipped. -/
structure Landmark (py : Runtime K) (stats : Stats) (t : Trial K) (last : Blob) : Prop where
  chosen : last ∈ chosen fails w
  position : t.outside.position = some last.lastModified.isoformat
  handled : ∀ b ∈ upTo fails w last, ∀ event ∈ decodeAvro (w.content b.name),
    t.outside.Handled py event
  blobs : (upTo fails w last).length ≤ stats.blobs
  events : eventsIn w.content (upTo fails w last) ≤ stats.done

/-- A run returns its counters; if it stores a new watermark, it has imported every selected blob up
to it. -/
def Survives (py : Runtime K) (configured : Bool) : Prop :=
  ∃ stats t, exec (tried fails) (runOnce py configured) (Outside.trial { w with upserts := [] }) =
      (.ok stats, t) ∧
    (t.outside.position ≠ w.position → ∃ last, Landmark fails w py stats t last)

omit [PyFloat K] in
/-- A run that selects something can compare it, since the listing has compared the blobs with the
same watermark. -/
lemma comparable_of_listed {watermark since : Option Stamp} (hsince : sinceOf watermark = .ok since)
    (hne : listed fails w since ≠ []) : Comparable watermark := by
  unfold listed at hne
  split_ifs at hne with hfails
  · exact absurd rfl hne
  · cases hpending : pendingBlobs since w.blobs with
    | error f =>
        rw [hpending] at hne
        exact absurd rfl hne
    | ok pending =>
        rw [hpending] at hne
        exact comparable_of_selected hsince hpending hne

omit [PyFloat K] in
lemma chosen_sorted : (chosen fails w).Pairwise Blob.NotLater := by
  unfold chosen
  cases sinceOf (readPosition fails w) with
  | error f => exact List.Pairwise.nil
  | ok since =>
      dsimp only
      unfold listed
      split_ifs
      · exact List.Pairwise.nil
      · cases hpending : pendingBlobs since w.blobs with
        | error f => exact List.Pairwise.nil
        | ok pending =>
            obtain ⟨kept, -, h⟩ := Outcomes.bind_eq_ok.1 hpending
            cases h
            exact (List.pairwise_insertionSort Blob.NotLater kept).sublist (List.take_sublist _ _)

lemma landed_prefix (content : String → List (AvroRecord K)) (i n : ℕ) (blobs : List Blob) :
    landed fails content i n blobs <+: blobs := by
  induction blobs generalizing i n with
  | nil => exact List.prefix_rfl
  | cons b blobs ih =>
      unfold landed
      split_ifs
      · exact List.nil_prefix
      · cases landEvents fails n (decodeAvro (content b.name)) with
        | none => exact List.nil_prefix
        | some n => exact (List.prefix_cons_inj b).2 (ih (i + 1) n)

/-- What lands comes first, and what is left after it. -/
lemma chosen_split : chosen fails w = finished fails w ++ left fails w := by
  obtain ⟨rest, hrest⟩ := landed_prefix fails w.content 0 0 (chosen fails w)
  have hrest : finished fails w ++ rest = chosen fails w := hrest
  rw [left, ← hrest, List.drop_left]

/-- What a run leaves that has stored the time of a blob. -/
structure Stored (py : Runtime K) (stats : Stats) (t : Trial K) (last : Blob) : Prop where
  landed : last ∈ finished fails w
  latest : ∀ b ∈ finished fails w, Blob.NotLater b last
  position : t.outside.position = some last.lastModified.isoformat
  handled : ∀ b ∈ finished fails w, ∀ event ∈ decodeAvro (w.content b.name),
    t.outside.Handled py event
  counted : Counted w.content (finished fails w) (left fails w) ⟨0, 0, 0, 0⟩ stats

/-- The stored time is a landmark if no blob of that time is left: the counters of the run cannot
account for the blob that has stopped it. -/
lemma Stored.landmark_iff {py : Runtime K} {stats : Stats} {t : Trial K} {last : Blob}
    (h : Stored fails w py stats t last) :
    (∃ last, Landmark fails w py stats t last) ↔ ∀ b ∈ left fails w, ¬ Blob.NotLater b last := by
  have himported : (finished fails w).filter (fun b => decide (Blob.NotLater b last)) =
      finished fails w := List.filter_eq_self.2 (fun b hb => decide_eq_true (h.latest b hb))
  constructor
  -- A blob of that time that is left would count among the blobs up to it, and the run has counted
  -- no more than it has finished, but for the one that stopped it.
  · rintro ⟨last', hlandmark⟩ b hb hle
    have hsame : last'.lastModified = last.lastModified := by
      have hposition := hlandmark.position
      rw [h.position, Option.some.injEq] at hposition
      exact (Datetime.isoformat_inj hposition).symm
    cases hleft : left fails w with
    | nil =>
        rw [hleft] at hb
        cases hb
    | cons stopper rest =>
        -- The blob that has stopped the run is not later than the one of its time that was found.
        have hstopper : Blob.NotLater stopper last := by
          have hsorted := chosen_sorted fails w
          rw [chosen_split, hleft] at hsorted
          have hrest := (List.pairwise_cons.1 (List.pairwise_append.1 hsorted).2.1).1
          rw [hleft] at hb
          rcases List.mem_cons.1 hb with rfl | hb
          · exact hle
          · exact (hrest b hb).trans hle
        have hupTo : upTo fails w last' = finished fails w ++
            stopper :: rest.filter (fun b => decide (Blob.NotLater b last)) := by
          have hnot : ∀ b, Blob.NotLater b last' ↔ Blob.NotLater b last := fun b => by
            simp only [Blob.NotLater, hsame]
          simp only [upTo, hnot]
          rw [chosen_split, hleft, List.filter_append, himported,
            List.filter_cons_of_pos (by simpa using hstopper)]
        have hblobs := hlandmark.blobs
        have hevents := hlandmark.events
        rw [hupTo] at hblobs hevents
        simp only [List.length_append, List.length_cons] at hblobs
        simp only [eventsIn, List.map_append, List.map_cons, List.sum_append,
          List.sum_cons] at hevents
        have hcounted := h.counted.left stopper (by simp [hleft])
        simp only [Stats.done, eventsIn] at hcounted hevents
        omega
  -- Without such a blob, the blobs up to the stored time are those that were finished.
  · intro huntied
    have hupTo : upTo fails w last = finished fails w := by
      have hleft : (left fails w).filter (fun b => decide (Blob.NotLater b last)) = [] :=
        List.filter_eq_nil_iff.2 (fun b hb => by simpa using huntied b hb)
      rw [upTo, chosen_split, List.filter_append, himported, hleft, List.append_nil]
    have hblobs := h.counted.blobs
    have hevents := h.counted.events
    refine ⟨last, ?_, h.position, ?_, ?_, ?_⟩
    · rw [chosen_split]
      exact List.mem_append_left _ h.landed
    · rw [hupTo]
      exact h.handled
    · rw [hupTo]
      omega
    · rw [hupTo]
      simp only [Stats.done] at hevents ⊢
      omega

/-- What a run leaves that returns: no new position where none is stored, and otherwise the position
of the last blob that landed. -/
def Ended (py : Runtime K) (stats : Stats) (t : Trial K) : Prop :=
  (¬ (Stores fails w ∧ Takes fails) ∧ t.outside.position = w.position) ∨
    (Stores fails w ∧ Takes fails ∧ ∃ last, Stored fails w py stats t last)

/-- A run that returns has imported what it should where no blob is left of the time it stores. -/
lemma Ended.landmark_iff {py : Runtime K} {stats : Stats} {t : Trial K}
    (h : Ended fails w py stats t) :
    (t.outside.position ≠ w.position → ∃ last, Landmark fails w py stats t last) ↔
      Untied fails w := by
  rcases h with ⟨hnot, hposition⟩ | ⟨hstores, htakes, last, hreached⟩
  · exact ⟨fun _ hstores htakes => absurd ⟨hstores, htakes⟩ hnot, fun _ hne => absurd hposition hne⟩
  · constructor
    · intro hlandmark hstores htakes last' hlast' hlatest' hnew b hb hle
      -- Of two blobs that are both the latest to land, one has the time of the other.
      have hticks : last'.lastModified.ticks = last.lastModified.ticks :=
        Nat.le_antisymm (hreached.latest last' hlast') (hlatest' last hreached.landed)
      have hsame : last'.lastModified = last.lastModified := Datetime.ext hticks
      have hmoved : t.outside.position ≠ w.position := by
        rw [hreached.position, ← hsame]
        exact fun h => hnew h.symm
      refine (hreached.landmark_iff fails w).1 (hlandmark hmoved) b hb ?_
      simpa only [Blob.NotLater, hsame] using hle
    · intro huntied hmoved
      rw [hreached.position] at hmoved
      exact (hreached.landmark_iff fails w).2
        (huntied hstores htakes last hreached.landed hreached.latest (fun h => hmoved h.symm))

/-- The loops, and what comes after them.  The counts say that the run has opened and closed two
sessions before, and that the other calls start at zero. -/
lemma exec_tried_rest (py : Runtime K) {since : Option Stamp}
    (hsince : sinceOf (readPosition fails w) = .ok since) (markups : Markups K) (t : Trial K)
    (houtside : t.outside = { w with upserts := [] }) (hopening : t.made .opening = 2)
    (hclosing : t.made .closing = 2) (hposition : t.made .position = 1)
    (hzero : ∀ kind ∈ [Kind.listing, .download, .upsert, .storing, .rollback], t.made kind = 0) :
    ((Stores fails w → Writes fails) ∧ ∃ stats t', exec (tried fails) (do
        let pending ← attempt (listPending since)
        let run ← importBlobs py (readPosition fails w) markups (pending.getD [])
          ⟨⟨0, 0, 0, 0⟩, none⟩
        match run.reached with
        | none => return run.stats
        | some position =>
            writeWatermark position
            return run.stats) t = (.ok stats, t') ∧ Ended fails w py stats t') ∨
    (¬ (Stores fails w → Writes fails) ∧ ∃ e t', exec (tried fails) (do
        let pending ← attempt (listPending since)
        let run ← importBlobs py (readPosition fails w) markups (pending.getD [])
          ⟨⟨0, 0, 0, 0⟩, none⟩
        match run.reached with
        | none => return run.stats
        | some position =>
            writeWatermark position
            return run.stats) t = (.error e, t')) := by
  have hchosen : chosen fails w = listed fails w since := by
    unfold chosen
    rw [hsince]
  obtain ⟨pending, hlist, hpending⟩ :=
    exec_listPending fails { w with upserts := [] } since t houtside (hzero .listing (by simp))
  -- The run works through the blobs that the model of the selection names, or through none.
  have hlisted : pending.getD [] = chosen fails w := hpending.trans hchosen.symm
  obtain ⟨run, t₁, hrun, hgrows, hsame, hlanded, hmoved, rest, hsplit, hcounted⟩ :=
    exec_tried_importBlobs fails py markups (chosen fails w)
      (fun hne => comparable_of_listed fails w hsince (hchosen ▸ hne)) ⟨⟨0, 0, 0, 0⟩, none⟩
      (t.counted .listing)
  simp only [counted_outside, counted_made, houtside, reduceCtorEq, if_false,
    hzero .download (by simp), hzero .upsert (by simp)] at hlanded hmoved hsplit hcounted hgrows
  have hcontent : t₁.outside.content = w.content := hgrows.content
  have himported : landed fails w.content 0 0 (chosen fails w) = finished fails w := rfl
  rw [himported] at hlanded hmoved hsplit hcounted
  -- What the loop has left over is what the failures leave over: the list is cut in the same place.
  have hleft : rest = left fails w :=
    List.append_cancel_left (hsplit.symm.trans (chosen_split fails w))
  rw [hleft] at hcounted
  rw [Prog.Raising.exec_bind_ok _ hlist, hlisted, Prog.Raising.exec_bind_ok _ hrun]
  cases hreached : run.reached with
  | none =>
      rw [hreached] at hmoved
      -- No blob has been finished, so nothing is stored.
      have hnone : ¬ Stores fails w := fun h => by simpa using hmoved.isSome.2 (.inr h)
      exact .inl ⟨fun h => absurd h hnone, run.stats, t₁, rfl,
        .inl ⟨fun h => hnone h.1, hgrows.position⟩⟩
  | some d =>
      rw [hreached] at hmoved
      have hstores : Stores fails w := (hmoved.isSome.1 rfl).resolve_left (by simp)
      have hmade : ∀ kind, kind ∉ [Kind.download, .upsert] → kind ≠ .listing →
          t₁.made kind = t.made kind := by
        intro kind hkind hlisting
        rw [hsame kind hkind]
        simp [hlisting]
      -- The session that writes is the third one to be opened; its calls have not been made before,
      -- so that the failures of the first of each count.
      have hwrite := exec_tried_writeWatermark fails d t₁
        (by rw [hmade _ (by simp) (by simp), hopening])
        (by rw [hmade _ (by simp) (by simp), hclosing])
        (by rw [hmade _ (by simp) (by simp), hposition])
        (by rw [hmade _ (by simp) (by simp), hzero .storing (by simp)])
        (by rw [hmade _ (by simp) (by simp), hzero .rollback (by simp)])
      rcases hwrite with ⟨hwrites, t', hexec, hwritten⟩ | ⟨hnot, e, t', hexec⟩
      · refine .inl ⟨fun _ => hwrites, run.stats, t', Prog.Raising.exec_bind_ok _ hexec, ?_⟩
        rcases hwritten with ⟨hkept, houtside'⟩ | ⟨htakes, houtside'⟩
        · refine .inl ⟨fun h => hkept h.2, ?_⟩
          rw [houtside']
          exact hgrows.position
        · -- The position is the time of a blob that has landed, and of none that is earlier.
          obtain ⟨last, hlast, rfl⟩ := (hmoved.source d rfl).resolve_left (by simp)
          refine .inr ⟨hstores, htakes, last, hlast, fun b hb => hmoved.notLater rfl hb, ?_,
            fun b hb event he => ?_, hcounted⟩
          · rw [houtside']
          · rw [houtside']
            rw [← hcontent] at he
            exact hlanded b hb event he
      · exact .inr ⟨fun h => hnot (h hstores), e, t', Prog.Raising.exec_bind_error _ hexec⟩

/-- The whole run: it returns and leaves what `Ended` says, or something has failed that is not
guarded, and then it raises. -/
lemma exec_tried_runOnce (py : Runtime K) :
    (Guarded fails w ∧ ∃ stats t,
      exec (tried fails) (runOnce py true) (Outside.trial { w with upserts := [] }) =
        (.ok stats, t) ∧
        Ended fails w py stats t) ∨
    (¬ Guarded fails w ∧ ∃ e t,
      exec (tried fails) (runOnce py true) (Outside.trial { w with upserts := [] }) =
        (.error e, t)) := by
  set begun : Trial K := Outside.trial { w with upserts := [] } with hbegun
  unfold runOnce
  simp only [Bool.not_true, Bool.false_eq_true, if_false]
  rcases exec_readWatermark fails { w with upserts := [] } with
    ⟨hreads, hread⟩ | ⟨hreads, e, t, hread⟩
  · set t₁ := ((begun.counted .opening).counted .position).counted .closing with ht₁
    have hread : exec (tried fails) readWatermark begun = (.ok (readPosition fails w), t₁) := hread
    rw [Prog.Raising.exec_bind_ok _ hread]
    cases hsince : sinceOf (readPosition fails w) with
    | error f =>
        refine .inr ⟨fun h => ?_, .code f, t₁, rfl⟩
        have hfits := h.fits
        rw [hsince] at hfits
        cases hfits
    | ok since =>
        have hlift : exec (tried fails) (lift (.ok since) : Task K _) t₁ = (.ok since, t₁) := rfl
        rw [Prog.Raising.exec_bind_ok _ hlift]
        rcases exec_routeMarkups fails t₁ (by simp [ht₁, hbegun, Outside.trial])
          (by simp [ht₁, hbegun, Outside.trial]) with
          ⟨hopens, hcloses, markups, hmarkups⟩ | ⟨hnot, e, t, hmarkups⟩
        · rw [Prog.Raising.exec_bind_ok _ hmarkups]
          have hmade : ∀ kind, begun.made kind = 0 := fun _ => rfl
          rcases exec_tried_rest fails w py hsince markups
            (((t₁.counted .opening).counted .markups).counted .closing) rfl
            (by simp [ht₁, hmade]) (by simp [ht₁, hmade]) (by simp [ht₁, hmade])
            (by simp [ht₁, hmade]) with ⟨hwrites, hok⟩ | ⟨hnot, hraises⟩
          · exact .inl ⟨⟨hreads, by rw [hsince]; rfl, ⟨hopens, hcloses⟩, hwrites⟩, hok⟩
          · exact .inr ⟨fun h => hnot h.writes, hraises⟩
        · exact .inr ⟨fun h => hnot h.markups, e, t, Prog.Raising.exec_bind_error _ hmarkups⟩
  · exact .inr ⟨fun h => hreads h.reads, e, t, Prog.Raising.exec_bind_error _ hread⟩

/-- **What a run survives**: any failures but those of the calls that nothing guards, any watermark
from which the overlap can be subtracted, and any stop but one between two blobs of the time that it
stores. -/
theorem survives_iff (py : Runtime K) (configured : Bool) :
    Survives fails w py configured ↔ (configured = true → Guarded fails w ∧ Untied fails w) := by
  cases configured with
  | false =>
      refine ⟨fun _ h => absurd h Bool.false_ne_true, fun _ => ?_⟩
      exact ⟨⟨0, 0, 0, 0⟩, _, rfl, fun h => absurd rfl h⟩
  | true =>
      rcases exec_tried_runOnce fails w py with
        ⟨hguarded, stats, t, hreturns, hended⟩ | ⟨hnot, e, t, hraises⟩
      · constructor
        · rintro ⟨stats', t', hok, hlandmark⟩ -
          rw [hreturns, Prod.mk.injEq, Except.ok.injEq] at hok
          obtain ⟨rfl, rfl⟩ := hok
          exact ⟨hguarded, (hended.landmark_iff fails w).1 hlandmark⟩
        · intro h
          exact ⟨stats, t, hreturns, (hended.landmark_iff fails w).2 (h rfl).2⟩
      · refine ⟨fun ⟨stats, t', hok, _⟩ => ?_, fun h => absurd (h rfl).1 hnot⟩
        cases hraises.symm.trans hok

end Survival

/-- The `n`-th call of a kind fails, and no other one. -/
def onlyNth (kind : Kind) (n : ℕ) : Failures := fun kind' n' =>
  if kind' = kind ∧ n' = n then some (.external, false) else none

/-- A control plane without a watermark, and two blobs of one time. -/
def twinImport : Outside ℚ where
  position := none
  markups := []
  blobs := [⟨"first", nextSecond⟩, ⟨"second", nextSecond⟩]
  content _ := []
  clock _ := nextSecond
  upserts := []

/-- A run does not survive that its first session cannot be opened; and one that stops between two
blobs of one time has not imported all the blobs up to the time that it stores. -/
theorem raises_without_session :
    ¬ (∀ (fails : Failures) (w : Outside ℚ) (py : Runtime ℚ) (configured : Bool),
      Survives fails w py configured) ∧
    ¬ Survives (onlyNth .opening 0) twinImport .strict true ∧
    ¬ Survives (onlyNth .download 1) twinImport .strict true := by
  have hopening : ¬ Survives (onlyNth .opening 0) twinImport .strict true := fun h => by
    have hguarded := ((survives_iff _ _ _ _).1 h rfl).1
    exact absurd hguarded.reads.opening (by simp [onlyNth])
  refine ⟨fun h => hopening (h _ _ _ _), hopening, fun h => ?_⟩
  -- The first blob lands; the second, of the same time, is left.
  have himported : finished (onlyNth .download 1) twinImport = [⟨"first", nextSecond⟩] := by decide
  have hleft : left (onlyNth .download 1) twinImport = [⟨"second", nextSecond⟩] := by decide
  have hstores : Stores (onlyNth .download 1) twinImport :=
    ⟨⟨"first", nextSecond⟩, by simp [himported], rfl⟩
  have htakes : Takes (onlyNth .download 1) := ⟨rfl, fun f hf => by cases hf⟩
  exact ((survives_iff _ _ _ _).1 h rfl).2 hstores htakes ⟨"first", nextSecond⟩
    (by simp [himported])
    (by simp [himported]) (by simp [twinImport]) ⟨"second", nextSecond⟩ (by simp [hleft]) le_rfl

end UsageCaptureImport
end TokenFoundry
