import Mathlib.Algebra.GroupWithZero.Nat
import Mathlib.Tactic.Common
import Mathlib.Data.Int.Notation
import Mathlib.Data.Nat.Notation
import Mathlib.Data.List.TakeDrop

/-!
# Dates and times

Python's `datetime` on the proleptic Gregorian calendar.  A `Datetime` is a number of
microseconds since the start of year 1, inside the years that `datetime` can represent.  A
`Stamp` is a reading of a clock with the offset of the clock from UTC, if that is known.

`fromIsoformat` accepts the texts that `datetime.fromisoformat` accepts since Python 3.11, and
`Datetime.isoformat` writes a UTC time.  `fromIsoformat_isoformat` says that the one reads back
what the other wrote.
-/

set_option autoImplicit false

namespace TokenFoundry

/-! ## The calendar -/

namespace Calendar

/-- Every fourth year, but of the full centuries only every fourth. -/
def isLeap (year : ℕ) : Bool :=
  decide (year % 4 = 0 ∧ (year % 100 ≠ 0 ∨ year % 400 = 0))

/-- The length of a month, from January as the first one. -/
def daysInMonth (leap : Bool) : ℕ → ℕ
  | 2 => if leap then 29 else 28
  | 4 | 6 | 9 | 11 => 30
  | _ => 31

/-- The days of the year before the first of this month. -/
def daysBeforeMonth (leap : Bool) (month : ℕ) : ℕ :=
  ((List.range' 1 (month - 1)).map (daysInMonth leap)).sum

def daysInYear (leap : Bool) : ℕ := if leap then 366 else 365

/-- The days from the start of year 1 to the start of this one. -/
def daysBeforeYear (year : ℕ) : ℕ :=
  (year - 1) * 365 + (year - 1) / 4 - (year - 1) / 100 + (year - 1) / 400

/-- The days from the first of January of year 1 to this day; the fields are not checked here. -/
def ordinal (year month day : ℕ) : ℕ :=
  daysBeforeYear year + daysBeforeMonth (isLeap year) month + (day - 1)

/-- The year in which the day with this ordinal lies.  The cycles of 400, 100 and 4 years are taken
off one after the other; the last day of a cycle is in the last year of it. -/
def yearOf (n : ℕ) : ℕ :=
  let in400 := n % 146097
  let centuries := min 3 (in400 / 36524)
  let in100 := in400 - centuries * 36524
  let in4 := in100 % 1461
  400 * (n / 146097) + 100 * centuries + 4 * (in100 / 1461) + min 3 (in4 / 365) + 1

/-- The months that begin on this day of the year or before. -/
def monthOf (leap : Bool) (dayOfYear : ℕ) : ℕ :=
  (List.range' 1 12).countP (fun m => decide (daysBeforeMonth leap m ≤ dayOfYear))

/-- Every day lies in one of 400, 100, 4 and 1 years: `b` and `d` are the last ones of their cycle
where those have a day more. -/
lemma exists_cycles (n : ℕ) : ∃ a b c d r, yearOf n = 400 * a + 100 * b + 4 * c + d + 1 ∧
    n = 146097 * a + 36524 * b + 1461 * c + 365 * d + r ∧ b ≤ 3 ∧ c ≤ 24 ∧ d ≤ 3 ∧ r ≤ 365 ∧
    (r = 365 → d = 3 ∧ (c = 24 → b = 3)) := by
  obtain ⟨b, hb⟩ : ∃ b, b = min 3 (n % 146097 / 36524) := ⟨_, rfl⟩
  obtain ⟨m, hm⟩ : ∃ m, m = n % 146097 - b * 36524 := ⟨_, rfl⟩
  obtain ⟨d, hd⟩ : ∃ d, d = min 3 (m % 1461 / 365) := ⟨_, rfl⟩
  have hbm : b ≤ 3 ∧ m ≤ 36524 ∧ n % 146097 = 36524 * b + m ∧ (m = 36524 → b = 3) := by omega
  have hdm : d ≤ 3 ∧ m % 1461 - 365 * d ≤ 365 ∧ 365 * d ≤ m % 1461 ∧
      (m % 1461 - 365 * d = 365 → d = 3) := by omega
  refine ⟨n / 146097, b, m / 1461, d, m % 1461 - 365 * d, ?_, by omega, by omega, by omega,
    by omega, by omega, fun hr => ⟨by omega, fun hc => by omega⟩⟩
  rw [yearOf, hd, hm, hb]

lemma daysBeforeYear_cycles {a b c d : ℕ} (hb : b ≤ 3) (hc : c ≤ 24) (hd : d ≤ 3) :
    daysBeforeYear (400 * a + 100 * b + 4 * c + d + 1) =
      146097 * a + 36524 * b + 1461 * c + 365 * d := by
  have h4 : (400 * a + 100 * b + 4 * c + d) / 4 = 100 * a + 25 * b + c := by omega
  have h100 : (400 * a + 100 * b + 4 * c + d) / 100 = 4 * a + b := by omega
  have h400 : (400 * a + 100 * b + 4 * c + d) / 400 = a := by omega
  rw [daysBeforeYear, Nat.add_sub_cancel, h4, h100, h400]
  omega

lemma isLeap_cycles {a b c d : ℕ} (hc : c ≤ 24) (hd : d = 3) (h : c = 24 → b = 3) :
    isLeap (400 * a + 100 * b + 4 * c + d + 1) = true := by
  rw [isLeap, decide_eq_true_eq]
  omega

/-- A day lies in its year: not before the first day of it, and before the first day of the next. -/
lemma yearOf_spec (n : ℕ) :
    daysBeforeYear (yearOf n) ≤ n ∧
      n < daysBeforeYear (yearOf n) + daysInYear (isLeap (yearOf n)) := by
  obtain ⟨a, b, c, d, r, hy, hn, hb, hc, hd, hr, hlast⟩ := exists_cycles n
  have hdays : 365 ≤ daysInYear (isLeap (yearOf n)) := by
    unfold daysInYear
    split_ifs <;> omega
  have hleap : r = 365 → daysInYear (isLeap (yearOf n)) = 366 := by
    intro h
    rw [hy, isLeap_cycles hc (hlast h).1 (hlast h).2]
    rfl
  rw [hy, daysBeforeYear_cycles hb hc hd, ← hy]
  omega

lemma yearOf_pos (n : ℕ) : 1 ≤ yearOf n := Nat.succ_pos _

lemma yearOf_le {n : ℕ} (h : n < 3652059) : yearOf n ≤ 9999 := by
  obtain ⟨a, b, c, d, r, hy, hn, hb, hc, hd, hr, hlast⟩ := exists_cycles n
  omega

lemma monthOf_spec (leap : Bool) :
    ∀ d < daysInYear leap, (1 ≤ monthOf leap d ∧ monthOf leap d ≤ 12) ∧
      daysBeforeMonth leap (monthOf leap d) ≤ d ∧
      d < daysBeforeMonth leap (monthOf leap d) + daysInMonth leap (monthOf leap d) := by
  cases leap <;> decide +kernel

/-- The day of the month, from one, of the day with this ordinal. -/
def dayOf (n : ℕ) : ℕ :=
  let year := yearOf n
  let dayOfYear := n - daysBeforeYear year
  dayOfYear - daysBeforeMonth (isLeap year) (monthOf (isLeap year) dayOfYear) + 1

/-- The month, from one, of the day with this ordinal. -/
def monthOfOrdinal (n : ℕ) : ℕ := monthOf (isLeap (yearOf n)) (n - daysBeforeYear (yearOf n))

/-- A day is found again from its year, month and day. -/
lemma ordinal_of (n : ℕ) : ordinal (yearOf n) (monthOfOrdinal n) (dayOf n) = n := by
  have hy := yearOf_spec n
  have hm := monthOf_spec (isLeap (yearOf n)) (n - daysBeforeYear (yearOf n)) (by omega)
  simp only [ordinal, monthOfOrdinal, dayOf]
  omega

lemma monthOfOrdinal_mem (n : ℕ) : 1 ≤ monthOfOrdinal n ∧ monthOfOrdinal n ≤ 12 := by
  have hy := yearOf_spec n
  exact (monthOf_spec (isLeap (yearOf n)) (n - daysBeforeYear (yearOf n)) (by omega)).1

lemma dayOf_mem (n : ℕ) :
    1 ≤ dayOf n ∧ dayOf n ≤ daysInMonth (isLeap (yearOf n)) (monthOfOrdinal n) := by
  have hy := yearOf_spec n
  have hm := monthOf_spec (isLeap (yearOf n)) (n - daysBeforeYear (yearOf n)) (by omega)
  simp only [monthOfOrdinal, dayOf]
  omega

end Calendar

/-! ## Times -/

/-- The microseconds of a day; leap seconds are not counted. -/
def ticksPerDay : ℕ := 86400000000

/-- The end of year 9999, the last that `datetime` can represent. -/
def ticksLimit : ℕ := 3652059 * ticksPerDay

lemma ticksLimit_pos : 0 < ticksLimit := by decide

/-- A time of the years 1 to 9999, in microseconds since the start of year 1. -/
@[ext]
structure Datetime where
  ticks : ℕ
  inRange : ticks < ticksLimit
  deriving DecidableEq

namespace Datetime

open Calendar

/-- The time with this number of microseconds, if it is inside the years that `datetime` has. -/
def ofTicks (t : ℤ) : Option Datetime :=
  if h : 0 ≤ t ∧ t < ticksLimit then some ⟨t.toNat, by omega⟩ else none

/-- A time moved by some microseconds; `none` where `datetime` raises `OverflowError`. -/
def shift (d : Datetime) (by' : ℤ) : Option Datetime := ofTicks (d.ticks + by')

/-- The whole days of a time, which are the ordinal of its day. -/
def days (d : Datetime) : ℕ := d.ticks / ticksPerDay

def year (d : Datetime) : ℕ := yearOf d.days

def month (d : Datetime) : ℕ := monthOfOrdinal d.days

def day (d : Datetime) : ℕ := dayOf d.days

def hour (d : Datetime) : ℕ := d.ticks % ticksPerDay / 3600000000

def minute (d : Datetime) : ℕ := d.ticks % 3600000000 / 60000000

def second (d : Datetime) : ℕ := d.ticks % 60000000 / 1000000

def microsecond (d : Datetime) : ℕ := d.ticks % 1000000

/-- `datetime(year, month, …)`; `none` where the constructor raises `ValueError`.  Each field is
inside its range, and the day inside its month. -/
def ofFields (year month day hour minute second microsecond : ℕ) : Option Datetime :=
  if (1 ≤ year ∧ year ≤ 9999) ∧ (1 ≤ month ∧ month ≤ 12) ∧
      (1 ≤ day ∧ day ≤ daysInMonth (isLeap year) month) ∧ hour < 24 ∧ minute < 60 ∧
      second < 60 ∧ microsecond < 1000000 then
    ofTicks (ordinal year month day * ticksPerDay + hour * 3600000000 + minute * 60000000 +
      second * 1000000 + microsecond)
  else none

lemma ofTicks_eq_some {t : ℤ} {d : Datetime} : ofTicks t = some d ↔ (d.ticks : ℤ) = t := by
  have hd := d.inRange
  unfold ofTicks
  constructor
  · intro h
    split_ifs at h with ht
    cases h
    simp only
    omega
  · intro h
    rw [dif_pos (by omega)]
    simp only [Option.some.injEq]
    cases d
    simp only [Datetime.mk.injEq] at h ⊢
    omega

lemma shift_eq_some {d d' : Datetime} {n : ℤ} :
    d.shift n = some d' ↔ (d'.ticks : ℤ) = d.ticks + n := ofTicks_eq_some

lemma shift_zero (d : Datetime) : d.shift 0 = some d := shift_eq_some.2 (by simp)

/-- The fields of a time are those of a date and a time of day. -/
lemma valid (d : Datetime) : (1 ≤ d.year ∧ d.year ≤ 9999) ∧ (1 ≤ d.month ∧ d.month ≤ 12) ∧
    (1 ≤ d.day ∧ d.day ≤ daysInMonth (isLeap d.year) d.month) ∧ d.hour < 24 ∧ d.minute < 60 ∧
    d.second < 60 ∧ d.microsecond < 1000000 := by
  have hlt := d.inRange
  simp only [ticksLimit, ticksPerDay] at hlt
  have hdays : d.days < 3652059 := by
    simp only [days, ticksPerDay]
    omega
  refine ⟨⟨yearOf_pos _, yearOf_le hdays⟩, monthOfOrdinal_mem _, dayOf_mem _, ?_⟩
  simp only [hour, minute, second, microsecond, ticksPerDay]
  omega

/-- A time is found again from its fields, so that a reader of texts has only to find those. -/
lemma ofFields_fields (d : Datetime) :
    ofFields d.year d.month d.day d.hour d.minute d.second d.microsecond = some d := by
  rw [ofFields, if_pos d.valid, ofTicks_eq_some]
  have hord : ordinal d.year d.month d.day = d.days := ordinal_of d.days
  rw [hord]
  simp only [days, hour, minute, second, microsecond, ticksPerDay]
  omega

end Datetime

/-! ## Texts -/

namespace IsoText

open Calendar

/-- The last decimal digit of a number, as a character. -/
def digit (n : ℕ) : Char := Char.ofNat (48 + n % 10)

/-- The last `width` decimal digits of a number, with zeros in front where it has fewer. -/
def pad : ℕ → ℕ → List Char
  | 0, _ => []
  | width + 1, n => pad width (n / 10) ++ [digit n]

def isDigit (c : Char) : Bool := '0' ≤ c && c ≤ '9'

/-- The number that some ASCII digits denote; `none` if there is another character among them. -/
def number (cs : List Char) : Option ℕ :=
  cs.foldl (fun acc c => acc.bind (fun n => if isDigit c then some (10 * n + (c.toNat - 48))
    else none)) (some 0)

lemma isDigit_digit (n : ℕ) : isDigit (digit n) = true := by
  have hdigit : ∀ k < 10, isDigit (Char.ofNat (48 + k)) = true := by decide
  exact hdigit _ (Nat.mod_lt _ (by decide))

lemma toNat_digit (n : ℕ) : (digit n).toNat = 48 + n % 10 := by
  have hdigit : ∀ k < 10, (Char.ofNat (48 + k)).toNat = 48 + k := by decide
  exact hdigit _ (Nat.mod_lt _ (by decide))

lemma ne_of_isDigit {c c' : Char} (h : isDigit c = true) (h' : isDigit c' = false) : c ≠ c' := by
  rintro rfl
  rw [h] at h'
  cases h'

lemma digit_ne {n : ℕ} {c : Char} (h : isDigit c = false) : digit n ≠ c :=
  ne_of_isDigit (isDigit_digit n) h

lemma pad_length (width n : ℕ) : (pad width n).length = width := by
  induction width generalizing n with
  | zero => rfl
  | succ width ih => simp [pad, ih]

lemma number_append (cs : List Char) (n : ℕ) :
    number (cs ++ [digit n]) = (number cs).map (fun m => 10 * m + n % 10) := by
  rw [number, List.foldl_append, ← number]
  cases number cs <;> simp [isDigit_digit, toNat_digit]

/-- The digits of a number denote it, as far as they go. -/
lemma number_pad (width n : ℕ) : number (pad width n) = some (n % 10 ^ width) := by
  induction width generalizing n with
  | zero => simp [pad, number, Nat.mod_one]
  | succ width ih =>
      rw [pad, number_append, ih, Option.map_some, Nat.pow_succ', Nat.mod_mul, Nat.add_comm]

lemma number_pad_of_lt {width n : ℕ} (h : n < 10 ^ width) : number (pad width n) = some n := by
  rw [number_pad, Nat.mod_eq_of_lt h]

lemma mem_pad {width n : ℕ} {c : Char} (h : c ∈ pad width n) : isDigit c = true := by
  induction width generalizing n with
  | zero => cases h
  | succ width ih =>
      rcases List.mem_append.1 h with h | h
      · exact ih h
      · rw [List.mem_singleton.1 h]
        exact isDigit_digit n

/-- No separator stands in a padded number, nor any other character that is no digit. -/
lemma notMem_pad {c : Char} (hc : isDigit c = false) (width n : ℕ) : c ∉ pad width n :=
  fun h => Bool.false_ne_true (hc.symm.trans (mem_pad h))

/-! ### Reading -/

/-- The date of a day in an ISO week: week 1 is the one with the first Thursday, and Monday is day
1. -/
def weekDate (year week day : ℕ) : Option (ℕ × ℕ × ℕ) :=
  let first := daysBeforeYear year
  -- A year has 53 weeks when it begins on a Thursday, or is a leap year and begins on a Wednesday.
  let weeks := if first % 7 = 3 ∨ (first % 7 = 2 ∧ isLeap year = true) then 53 else 52
  let monday := if first % 7 ≤ 3 then first - first % 7 else first - first % 7 + 7
  if (1 ≤ year ∧ year ≤ 9999) ∧ (1 ≤ week ∧ week ≤ weeks) ∧ (1 ≤ day ∧ day ≤ 7) then
    let n := monday + (week - 1) * 7 + (day - 1)
    some (yearOf n, monthOfOrdinal n, dayOf n)
  else none

/-- `YYYY-MM-DD`, `YYYYMMDD`, `YYYY-Www-D`, `YYYYWwwD`, and the week dates without a day. -/
def date : List Char → Option (ℕ × ℕ × ℕ)
  | [a, b, c, d, '-', 'W', e, f] => do weekDate (← number [a, b, c, d]) (← number [e, f]) 1
  | [a, b, c, d, '-', 'W', e, f, '-', g] => do
      weekDate (← number [a, b, c, d]) (← number [e, f]) (← number [g])
  | [a, b, c, d, 'W', e, f] => do weekDate (← number [a, b, c, d]) (← number [e, f]) 1
  | [a, b, c, d, 'W', e, f, g] => do
      weekDate (← number [a, b, c, d]) (← number [e, f]) (← number [g])
  | [a, b, c, d, '-', e, f, '-', g, h] => do
      return (← number [a, b, c, d], ← number [e, f], ← number [g, h])
  | [a, b, c, d, e, f, g, h] => do
      return (← number [a, b, c, d], ← number [e, f], ← number [g, h])
  | _ => none

lemma date_dashed {a b c d e f g h : Char} (he : e ≠ 'W') :
    date [a, b, c, d, '-', e, f, '-', g, h] =
      (do return (← number [a, b, c, d], ← number [e, f], ← number [g, h])) := by
  unfold date
  split
  case h_7 hdash _ => exact (hdash a b c d e f g h rfl).elim
  all_goals simp_all

/-- The character that ends a text in the interpreter's own buffer.  Its readers run up to this
character, so that a text that holds one ends there for them too. -/
def nul : Char := Char.ofNat 0

/-- The digits after the second, as microseconds.  Six of them count and the others are passed over;
`stop` comes after the last of them.  The flag says whether the reader has met the end of the text:
it is left to the callers to look at it. -/
def fraction (stop : Char) (cs : List Char) : Option (ℕ × Bool) :=
  (number (cs.take 6)).map (fun n =>
    (n * 10 ^ (6 - (cs.take 6).length), ((cs.drop 6).dropWhile isDigit).headD stop == nul))

/-- The loop of `parse_hh_mm_ss_ff`, with the number of rounds that are left: the fields of two
digits, and the fraction that ends them.  The character after the first field decides whether the
fields are separated; a colon after the third one, and a decimal mark after any of them, begins the
fraction.  Where at most one character is left after a field, it is not looked at here. -/
def fields (stop : Char) : ℕ → Option Bool → List Char → Option (List ℕ × ℕ × Bool)
  | 0, _, cs => (fraction stop cs).map (fun r => ([], r))
  | n + 1, colons, a :: b :: cs =>
      (number [a, b]).bind (fun field =>
        let c := cs.headD stop
        let separated := colons.getD (c == ':')
        let rest :=
          if cs.length ≤ 1 then
            -- A character of several bytes is taken for the middle of the text.
            if c.toNat < 128 then some ([], 0, c == nul) else none
          else if separated && c == ':' then fields stop n (some separated) cs.tail
          else if c == '.' || c == ',' then (fraction stop cs.tail).map (fun r => ([], r))
          else if separated then none
          else fields stop n (some separated) cs
        rest.map (fun r => (field :: r.1, r.2)))
  | _, _, _ => none

/-- `parse_hh_mm_ss_ff`: `HH[:?MM[:?SS[.f…]]]`, before `stop`. -/
def clock (stop : Char) (cs : List Char) : Option ((ℕ × ℕ × ℕ × ℕ) × Bool) :=
  (fields stop 3 none cs).map (fun r =>
    ((r.1.getD 0 0, r.1.getD 1 0, r.1.getD 2 0, r.2.1), r.2.2))

/-- An offset from UTC; it is less than a day.  One of less than a second is none. -/
def offset (sign : ℤ) : ℕ × ℕ × ℕ × ℕ → Option (Option ℤ)
  | (h, m, s, us) =>
      let seconds := (h * 60 + m) * 60 + s
      let ticks := seconds * 1000000 + us
      if seconds = 0 then some (some 0)
      else if ticks < ticksPerDay then some (some (sign * ticks)) else none

/-- `Z`, an offset, or nothing; `ended` says whether the time has been read up to its end, which
matters only where nothing follows it. -/
def zone (ended : Bool) : List Char → Option (Option ℤ)
  | [] => if ended then some none else none
  | 'Z' :: cs => if cs.headD nul = nul then some (some 0) else none
  | '+' :: cs => (clock nul cs).bind (fun r => if r.2 then offset 1 r.1 else none)
  | '-' :: cs => (clock nul cs).bind (fun r => if r.2 then offset (-1) r.1 else none)
  | _ => none

lemma fraction_pad {n : ℕ} (h : n < 10 ^ 6) (stop : Char) :
    fraction stop (pad 6 n) = some (n, stop == nul) := by
  have hlength := pad_length 6 n
  rw [fraction, List.take_of_length_le (Nat.le_of_eq hlength), number_pad_of_lt h, hlength,
    List.drop_of_length_le (Nat.le_of_eq hlength)]
  simp

section Fields

variable {n : ℕ} (h : n < 10 ^ 2) {stop : Char} {rounds : ℕ} {colons : Option Bool}
include h

lemma fields_last : fields stop (rounds + 1) colons (pad 2 n) =
    if stop.toNat < 128 then some ([n], 0, stop == nul) else none := by
  have hfield : number [digit (n / 10), digit n] = some n := number_pad_of_lt h
  change (number [digit (n / 10), digit n]).bind _ = _
  rw [hfield, Option.bind_some]
  by_cases hstop : stop.toNat < 128
  · simp [hstop]
  · simp [hstop]

/-- A field of two digits before a colon: the reader goes on, and expects colons from here on. -/
lemma fields_colon {cs : List Char} (hcs : cs ≠ []) (hcolons : colons ≠ some false) :
    fields stop (rounds + 1) colons (pad 2 n ++ ':' :: cs) =
      (fields stop rounds (some true) cs).map (fun r => (n :: r.1, r.2)) := by
  have hfield : number [digit (n / 10), digit n] = some n := number_pad_of_lt h
  have hseparated : colons.getD true = true := by
    rcases colons with - | - | -
    · rfl
    · exact absurd rfl hcolons
    · rfl
  obtain ⟨c, cs, rfl⟩ := List.exists_cons_of_ne_nil hcs
  change (number [digit (n / 10), digit n]).bind _ = _
  rw [hfield, Option.bind_some]
  simp [hseparated]

/-- A field of two digits before a decimal mark: what follows are the digits of the fraction. -/
lemma fields_mark {cs : List Char} (hcs : cs ≠ []) :
    fields stop (rounds + 1) colons (pad 2 n ++ '.' :: cs) =
      (fraction stop cs).map (fun r => ([n], r)) := by
  have hfield : number [digit (n / 10), digit n] = some n := number_pad_of_lt h
  obtain ⟨c, cs, rfl⟩ := List.exists_cons_of_ne_nil hcs
  change (number [digit (n / 10), digit n]).bind _ = _
  rw [hfield, Option.bind_some]
  simp [Function.comp_def]

end Fields

/-- Where the date ends. -/
def separator (cs : List Char) : Option ℕ :=
  if cs.length < 7 then none
  else if cs.length = 7 then some 7
  else if cs[4]? = some '-' then
    if cs[5]? = some 'W' then
      if cs[8]? = some '-' then
        if cs.length = 9 then none
        else if (cs[10]?).any isDigit then some 8 else some 10
      else some 8
    else some 10
  else if cs[4]? = some 'W' then
    let digits := ((cs.drop 7).takeWhile isDigit).length
    if digits < 2 then some (7 + digits) else if digits % 2 = 1 then some 7 else some 8
  else some 8

end IsoText

/-- A reading of a clock with the offset of the clock from UTC, if it is known. -/
structure Stamp where
  clock : Datetime
  offset : Option ℤ
  deriving DecidableEq

open IsoText in
/-- `datetime.fromisoformat`; `none` where it raises `ValueError`.  The date ends at a place that
depends on its form, one character of any kind comes after it, and the rest is a time. -/
def fromIsoformat (text : String) : Option Stamp := do
  let cs := text.toList
  let sep ← separator cs
  let (year, month, day) ← date (cs.take sep)
  match cs.drop sep with
  | [] => return ⟨← Datetime.ofFields year month day 0 0 0 0, none⟩
  | _ :: rest =>
      let parts := rest.span (fun c => c ≠ '+' && c ≠ '-' && c ≠ 'Z')
      let ((hour, minute, second, microsecond), ended) ← clock (parts.2.headD nul) parts.1
      let offset ← zone ended parts.2
      return ⟨← Datetime.ofFields year month day hour minute second microsecond, offset⟩

/-! ### Writing -/

namespace Datetime

open IsoText Calendar

/-- The digits after the second, which `isoformat` leaves out where there are none. -/
def fractionText (d : Datetime) : List Char :=
  if d.microsecond = 0 then [] else '.' :: pad 6 d.microsecond

/-- The date as `isoformat` writes it, with four digits for the year. -/
def dateText (d : Datetime) : List Char :=
  pad 4 d.year ++ '-' :: (pad 2 d.month ++ '-' :: pad 2 d.day)

/-- The time of day as `isoformat` writes it. -/
def timeText (d : Datetime) : List Char :=
  pad 2 d.hour ++ ':' :: (pad 2 d.minute ++ ':' :: (pad 2 d.second ++ d.fractionText))

/-- `isoformat` of a time in UTC, which ends with the offset `+00:00`. -/
def isoformat (d : Datetime) : String :=
  String.ofList (d.dateText ++ 'T' :: (d.timeText ++ "+00:00".toList))

/-- `f"{d:%Y%m}"`: the month that is part of a document's identity, with four digits for the
year. -/
def yearMonth (d : Datetime) : String := String.ofList (pad 4 d.year ++ pad 2 d.month)

lemma fields_lt (d : Datetime) : d.year < 10 ^ 4 ∧ d.month < 10 ^ 2 ∧ d.day < 10 ^ 2 ∧
    d.hour < 10 ^ 2 ∧ d.minute < 10 ^ 2 ∧ d.second < 10 ^ 2 ∧ d.microsecond < 10 ^ 6 := by
  have hvalid := d.valid
  have hmonth : daysInMonth (isLeap d.year) d.month ≤ 31 := by
    unfold daysInMonth
    split <;> first | omega | (split_ifs <;> omega)
  omega

lemma clock_timeText (d : Datetime) {stop : Char} (hstop : stop.toNat < 128) :
    clock stop d.timeText = some ((d.hour, d.minute, d.second, d.microsecond), stop == nul) := by
  obtain ⟨-, -, -, hh, hm, hs, hus⟩ := d.fields_lt
  have hseconds : fields stop 1 (some true) (pad 2 d.second ++ d.fractionText) =
      some ([d.second], d.microsecond, stop == nul) := by
    unfold fractionText
    split_ifs with hzero
    · rw [List.append_nil, fields_last hs, if_pos hstop, hzero]
    · rw [fields_mark hs (by simp [pad]), fraction_pad hus]
      rfl
  rw [clock, timeText, fields_colon hh (by simp [pad]) (by decide),
    fields_colon hm (by simp [pad]) (by decide), hseconds]
  rfl

lemma date_dateText (d : Datetime) : date d.dateText = some (d.year, d.month, d.day) := by
  obtain ⟨hy, hm, hd, -⟩ := d.fields_lt
  have hdate : date d.dateText =
      (do return (← number (pad 4 d.year), ← number (pad 2 d.month), ← number (pad 2 d.day))) :=
    date_dashed (digit_ne (by decide))
  rw [hdate, number_pad_of_lt hy, number_pad_of_lt hm, number_pad_of_lt hd]
  rfl

/-- A day is known by its text, since the fields of a date determine it. -/
lemma dateText_inj {d e : Datetime} : d.dateText = e.dateText ↔ d.days = e.days := by
  constructor
  · intro h
    have hdate := (date_dateText d).symm.trans ((congrArg date h).trans (date_dateText e))
    simp only [Option.some.injEq, Prod.mk.injEq] at hdate
    obtain ⟨hy, hm, hd⟩ := hdate
    have hordinal : ordinal d.year d.month d.day = ordinal e.year e.month e.day := by
      rw [hy, hm, hd]
    exact (ordinal_of d.days).symm.trans (hordinal.trans (ordinal_of e.days))
  · intro h
    simp only [dateText, year, month, day, h]

/-- The text of a time up to the hour, by which the rows of one hour are found. -/
def hourText (d : Datetime) : List Char := d.dateText ++ 'T' :: pad 2 d.hour

/-- An hour is known by its text: two times have the same one if and only if they lie in the same
hour. -/
lemma hourText_inj {d e : Datetime} :
    d.hourText = e.hourText ↔ d.ticks / 3600000000 = e.ticks / 3600000000 := by
  have hfields : d.ticks / 3600000000 = e.ticks / 3600000000 ↔
      d.days = e.days ∧ d.hour = e.hour := by
    simp only [days, hour, ticksPerDay]
    omega
  have hlength : d.dateText.length = e.dateText.length := by simp [dateText, pad_length]
  rw [hfields, hourText, hourText, List.append_eq_append_iff_of_size_eq_left hlength, dateText_inj,
    List.cons_inj_right]
  constructor
  · rintro ⟨hdays, hhour⟩
    have hnumber := congrArg number hhour
    rw [number_pad_of_lt d.fields_lt.2.2.2.1, number_pad_of_lt e.fields_lt.2.2.2.1] at hnumber
    exact ⟨hdays, Option.some.inj hnumber⟩
  · rintro ⟨hdays, hhour⟩
    exact ⟨hdays, by rw [hhour]⟩

/-- The writing of a time begins with its day, and with its hour. -/
lemma take_isoformat (d : Datetime) :
    d.isoformat.toList.take 10 = d.dateText ∧ d.isoformat.toList.take 13 = d.hourText := by
  have htext : d.isoformat.toList =
      d.hourText ++ ':' :: (pad 2 d.minute ++ ':' :: (pad 2 d.second ++ d.fractionText)) ++
        "+00:00".toList := by
    rw [isoformat, String.toList_ofList, hourText, timeText]
    simp
  have hdate : d.dateText.length = 10 := by simp [dateText, pad_length]
  have hhour : d.hourText.length = 13 := by simp [hourText, hdate, pad_length]
  rw [htext, List.append_assoc]
  constructor
  · rw [List.take_append_of_le_length (by omega), hourText, List.take_left' hdate]
  · rw [List.take_left' hhour]

/-- The writing of a UTC time is read back as that time with the offset zero. -/
lemma fromIsoformat_isoformat (d : Datetime) : fromIsoformat d.isoformat = some ⟨d, some 0⟩ := by
  have hcs : d.isoformat.toList = d.dateText ++ 'T' :: (d.timeText ++ "+00:00".toList) :=
    String.toList_ofList
  have hlen : d.dateText.length = 10 := by simp [dateText, pad_length]
  have hsep : separator d.isoformat.toList = some 10 := by
    rw [hcs]
    have hW : digit (d.month / 10) ≠ 'W' := digit_ne (by decide)
    simp [separator, dateText, pad, hW]
  -- The zone begins at the first sign, and there is none in the time of day.
  have hspan : (d.timeText ++ "+00:00".toList).span (fun c => c ≠ '+' && c ≠ '-' && c ≠ 'Z') =
      (d.timeText, "+00:00".toList) := by
    have hall : ∀ c ∈ d.timeText, (c ≠ '+' && c ≠ '-' && c ≠ 'Z') = true := by
      intro c hc
      have hcases : isDigit c = true ∨ c = ':' ∨ c = '.' := by
        simp only [timeText, fractionText, List.mem_append, List.mem_cons] at hc
        rcases hc with hc | hc | hc | hc | hc | hc
        · exact .inl (mem_pad hc)
        · exact .inr (.inl hc)
        · exact .inl (mem_pad hc)
        · exact .inr (.inl hc)
        · exact .inl (mem_pad hc)
        · split_ifs at hc
          · cases hc
          · rcases List.mem_cons.1 hc with hc | hc
            · exact .inr (.inr hc)
            · exact .inl (mem_pad hc)
      rcases hcases with hd | rfl | rfl
      · simp [ne_of_isDigit hd (by decide : isDigit '+' = false),
          ne_of_isDigit hd (by decide : isDigit '-' = false),
          ne_of_isDigit hd (by decide : isDigit 'Z' = false)]
      · decide
      · decide
    rw [List.span_eq_takeWhile_dropWhile, List.takeWhile_append_of_pos hall,
      List.dropWhile_append_of_pos hall]
    simp
  have htake : d.isoformat.toList.take 10 = d.dateText := by
    rw [hcs, List.take_append_of_le_length (Nat.le_of_eq hlen.symm),
      List.take_of_length_le (Nat.le_of_eq hlen)]
  have hdrop : d.isoformat.toList.drop 10 = 'T' :: (d.timeText ++ "+00:00".toList) := by
    rw [hcs, List.drop_append, hlen, List.drop_of_length_le (Nat.le_of_eq hlen)]
    rfl
  have hclock : clock ("+00:00".toList.headD nul) d.timeText =
      some ((d.hour, d.minute, d.second, d.microsecond), false) := clock_timeText d (by decide)
  have hzone : zone false "+00:00".toList = some (some 0) := by decide
  unfold fromIsoformat
  simp only [hsep, Option.bind_eq_bind, Option.bind_some, htake, date_dateText, hdrop, hspan,
    hclock, hzone, ofFields_fields]
  rfl

/-- Two times that are written in one way are one time. -/
lemma isoformat_inj {d e : Datetime} (h : d.isoformat = e.isoformat) : d = e := by
  have hread := fromIsoformat_isoformat d
  rw [h, fromIsoformat_isoformat e] at hread
  simpa using hread.symm

end Datetime

end TokenFoundry
