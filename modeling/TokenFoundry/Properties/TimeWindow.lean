import TokenFoundry.Framework.IsoOrder
import TokenFoundry.Properties.ImportProgress
import TokenFoundry.Properties.Reimport
import TokenFoundry.Api.Usage

/-!
# Windows of time are compared as texts

The usage store selects the documents of a window by comparing texts: the `ts` of a document with
the start of the window.  Both are written by `isoformat`, in UTC, and the event itself may name its
instant with any offset, or none, and with or without a fraction.

`window_sound` says that the comparison is one of instants, and that the month in the partition key
is the UTC month of the instant.
-/

set_option autoImplicit false

namespace TokenFoundry
namespace UsageCaptureImport

open UsageIngest (Document)
open Usage (windowSince maxWindowHours ticksPerHour)

variable {K : Type} [PyFloat K]

/-- The `ts` of an event is a text that names this instant. -/
def Names (event : Dict K) (n : ℤ) : Prop :=
  ∃ value s, Json.get event "ts" = .str value ∧ fromIsoformat (zuluAsOffset value) = some s ∧
    instantOf s = n

/-- The year and the month of an instant, in UTC. -/
def utcMonth (n : ℤ) : Option (ℕ × ℕ) := (Datetime.ofTicks n).map (fun t => (t.year, t.month))

omit [PyFloat K] in
/-- The time that is parsed is the instant that is named, whatever its offset. -/
lemma ownTime_of_names {event : Dict K} {t : Datetime} (h : Names event t.ticks) :
    ownTime (Json.get event "ts") = some (.ok t) := by
  obtain ⟨value, ⟨clock, offset⟩, hvalue, hparse, hinstant⟩ := h
  rw [hvalue, ownTime, hparse]
  simp only [instantOf] at hinstant
  cases offset with
  | none =>
      have hclock : clock = t := by
        cases clock
        cases t
        simpa using hinstant
      rw [hclock]
  | some offset =>
      have hshift : clock.shift (-offset) = some t := by
        rw [Datetime.shift_eq_some, ← hinstant]
        simp [sub_eq_add_neg]
      simp only [hshift]

/-- What a document says of the time of its event. -/
lemma document_time (py : Runtime K) {event : Dict K} {markups : Markups K} {now t : Datetime}
    {doc : Document K} (h : eventToDocument py event markups now = .ok (some doc))
    (ht : ownTime (Json.get event "ts") = some (.ok t)) :
    Json.get doc "ts" = .str t.isoformat ∧
      Json.get doc "pk" = .str ((subscriptionOf event).text py ++ "_" ++ t.yearMonth) := by
  cases hkeyed : keyed event with
  | false =>
      rw [eventToDocument_of_not_keyed py hkeyed] at h
      cases h
  | true =>
      rw [eventToDocument_of_keyed py hkeyed] at h
      cases hc : compute event markups now with
      | error f =>
          rw [hc] at h
          cases h
      | ok c =>
          rw [hc] at h
          cases h
          have hts := (compute_ok hc).1
          rw [parseTs, ht, Option.getD_some] at hts
          cases hts
          exact ⟨rfl, rfl⟩

/-- The instant at which a window starts: some hours before the clock, within the bounds that the
endpoints set. -/
def windowStart (hours : ℤ) (clock : Datetime) : ℤ :=
  clock.ticks - min (max hours 1) maxWindowHours * ticksPerHour

omit [PyFloat K] in
/-- A window whose start is a time has a start, and its text names it. -/
lemma windowSince_eq_ok {hours : ℤ} {clock : Datetime} (h : 0 ≤ windowStart hours clock) :
    ∃ start : Datetime, windowSince (some hours) clock = .ok (some start.isoformat) ∧
      (start.ticks : ℤ) = windowStart hours clock := by
  have hlimit : windowStart hours clock < ticksLimit := by
    have hclock := clock.inRange
    simp only [windowStart, maxWindowHours, ticksPerHour]
    omega
  have hstart : ((windowStart hours clock).toNat : ℤ) = windowStart hours clock :=
    Int.toNat_of_nonneg h
  refine ⟨⟨(windowStart hours clock).toNat, by omega⟩, ?_, hstart⟩
  have hshift : clock.shift (-(min (max hours 1) maxWindowHours * ticksPerHour)) =
      some ⟨(windowStart hours clock).toNat, by omega⟩ := by
    rw [Datetime.shift_eq_some, hstart, windowStart, sub_eq_add_neg]
  unfold windowSince
  simp only [hshift]
  rfl

lemma exists_ticks {n : ℤ} (h : 0 ≤ n ∧ n < ticksLimit) : ∃ t : Datetime, (t.ticks : ℤ) = n :=
  ⟨⟨n.toNat, by omega⟩, Int.toNat_of_nonneg h.1⟩

/-- **Windows of time are sound.**  Every window whose start is a time has a text for it, and the
text that is stored for an event is at or after that text if and only if the instant of the event is
at or after the start.  Two events are filed under one month if and only if their instants lie in
one month of UTC. -/
theorem window_sound (py : Runtime K) {event event' : Dict K} {markups markups' : Markups K}
    {now now' : Datetime} {doc doc' : Document K}
    (h : eventToDocument py event markups now = .ok (some doc))
    (h' : eventToDocument py event' markups' now' = .ok (some doc')) {n n' : ℤ}
    (hn : Names event n) (hn' : Names event' n') (hrange : 0 ≤ n ∧ n < ticksLimit)
    (hrange' : 0 ≤ n' ∧ n' < ticksLimit) :
    (∃ ts, Json.get doc "ts" = .str ts ∧
      ∀ hours clock, 0 ≤ windowStart hours clock →
        ∃ since, windowSince (some hours) clock = .ok (some since) ∧
          (since ≤ ts ↔ windowStart hours clock ≤ n)) ∧
    ∃ month month',
      Json.get doc "pk" = .str ((subscriptionOf event).text py ++ "_" ++ month) ∧
      Json.get doc' "pk" = .str ((subscriptionOf event').text py ++ "_" ++ month') ∧
      (month = month' ↔ utcMonth n = utcMonth n') := by
  obtain ⟨t, rfl⟩ := exists_ticks hrange
  obtain ⟨t', rfl⟩ := exists_ticks hrange'
  obtain ⟨hts, hpk⟩ := document_time py h (ownTime_of_names hn)
  obtain ⟨-, hpk'⟩ := document_time py h' (ownTime_of_names hn')
  refine ⟨⟨t.isoformat, hts, fun hours clock hstart => ?_⟩,
    t.yearMonth, t'.yearMonth, hpk, hpk', ?_⟩
  · -- Both texts are written by `isoformat`, whose order is that of the instants.
    obtain ⟨start, hsince, hticks⟩ := windowSince_eq_ok hstart
    refine ⟨start.isoformat, hsince, ?_⟩
    rw [Datetime.isoformat_le_iff, ← hticks]
    exact Int.ofNat_le.symm
  · have hmonth : ∀ d : Datetime, utcMonth d.ticks = some (d.year, d.month) := by
      intro d
      unfold utcMonth
      rw [Datetime.ofTicks_eq_some.2 rfl, Option.map_some]
    rw [Datetime.yearMonth_inj, hmonth, hmonth]
    simp

/-- Midnight between 2026 and 2027, in UTC, where every field of a date changes. -/
def midnight : Datetime := ⟨63934358400000000, by decide⟩

/-- A call half an hour before, named by a clock that is an hour ahead. -/
def newYearsEve : Dict ℚ :=
  [("request_id", .str "r1"), ("subscription", .str "k1"), ("ts", .str "2027-01-01T00:30:00+01:00")]

/-- A call half a second after it, whose time ends in a fraction and a `Z`. -/
def newYear : Dict ℚ :=
  [("request_id", .str "r2"), ("subscription", .str "k1"), ("ts", .str "2027-01-01T00:00:00.500Z")]

/-- One in the morning of that day, when the window is asked for. -/
def oneHourLater : Datetime := ⟨63934362000000000, by decide⟩

/-- The two calls are filed under different months, and a window of an hour that is opened at one in
the morning leaves the first one out. -/
theorem window_sound_newYear :
    ∃ doc doc' : Document ℚ, eventToDocument .strict newYearsEve [] midnight = .ok (some doc) ∧
      eventToDocument .strict newYear [] midnight = .ok (some doc') ∧
      (∃ ts since, Json.get doc "ts" = .str ts ∧
        windowSince (some 1) oneHourLater = .ok (some since) ∧ ¬ since ≤ ts) ∧
      ∃ month month', Json.get doc "pk" = .str ("k1" ++ "_" ++ month) ∧
        Json.get doc' "pk" = .str ("k1" ++ "_" ++ month') ∧ month ≠ month' := by
  have hdocument : ∀ event : Dict ℚ,
      (eventToDocument .strict event [] midnight).toOption.join.isSome = true →
        ∃ doc, eventToDocument .strict event [] midnight = .ok (some doc) := by
    intro event h
    cases hrun : eventToDocument .strict event [] midnight with
    | error f => simp [hrun, Except.toOption] at h
    | ok doc =>
        cases doc with
        | none => simp [hrun, Except.toOption] at h
        | some doc => exact ⟨doc, rfl⟩
  obtain ⟨doc, hdoc⟩ := hdocument newYearsEve (by decide +kernel)
  obtain ⟨doc', hdoc'⟩ := hdocument newYear (by decide +kernel)
  have heve : Names newYearsEve 63934356600000000 :=
    ⟨_, ⟨⟨63934360200000000, by decide⟩, some 3600000000⟩, rfl, by decide +kernel,
      by decide +kernel⟩
  have hnew : Names newYear 63934358400500000 :=
    ⟨_, ⟨⟨63934358400500000, by decide⟩, some 0⟩, rfl, by decide +kernel, by decide +kernel⟩
  obtain ⟨⟨ts, hts, hwindow⟩, month, month', hpk, hpk', hiff⟩ :=
    window_sound .strict hdoc hdoc' heve hnew (by decide) (by decide)
  obtain ⟨since, hsince, hle⟩ := hwindow 1 oneHourLater (by decide)
  refine ⟨doc, doc', hdoc, hdoc', ⟨ts, since, hts, hsince, fun h => ?_⟩,
    month, month', hpk, hpk', fun heq => ?_⟩
  · exact absurd (hle.1 h) (by decide)
  · exact absurd (hiff.1 heq) (by decide +kernel)

end UsageCaptureImport
end TokenFoundry
