import Mathlib.Data.List.Lex
import Mathlib.Data.String.Basic
import TokenFoundry.Framework.Datetime

/-!
# The order of the texts of times

The texts that `Datetime.isoformat` writes differ in length: the fraction of a second is left out
where it is zero.  They are ordered as the times are nevertheless (`isoformat_lt_iff`), since every
field before the fraction has a fixed width, and the `+` of the offset comes before the `.` of a
fraction.
-/

set_option autoImplicit false

namespace TokenFoundry

/-! ## Texts of equal width -/

section Lex

variable {α : Type} [LinearOrder α]

/-- A difference in the first parts decides, if those are of one length. -/
lemma append_lt_append_of_lt {a b : List α} (h : a < b) (hlen : a.length = b.length)
    (x y : List α) : a ++ x < b ++ y := by
  induction a generalizing b with
  | nil =>
      cases b with
      | nil => exact absurd h (lt_irrefl _)
      | cons c b => cases hlen
  | cons d a ih =>
      cases b with
      | nil => cases hlen
      | cons c b =>
          rw [List.cons_append, List.cons_append, List.cons_lt_cons_iff]
          rcases List.cons_lt_cons_iff.1 h with hlt | ⟨rfl, hlt⟩
          · exact .inl hlt
          · exact .inr ⟨rfl, ih hlt (Nat.succ.inj hlen)⟩

lemma append_lt_append_left {x y : List α} (h : x < y) (a : List α) : a ++ x < a ++ y :=
  List.append_left_lt h

lemma cons_lt_cons_of_lt {x y : List α} (h : x < y) (c : α) : c :: x < c :: y :=
  List.cons_lt_cons_iff.2 (.inr ⟨rfl, h⟩)

end Lex

namespace IsoText

lemma digit_lt {m n : ℕ} (h : m % 10 < n % 10) : digit m < digit n := by
  rw [Char.lt_def, UInt32.lt_iff_toNat_lt]
  have hm := toNat_digit m
  have hn := toNat_digit n
  simp only [Char.toNat] at hm hn
  omega

/-- The digits of two numbers are ordered as the numbers, as long as the larger one fits into the
width. -/
lemma pad_lt {width m n : ℕ} (hn : n < 10 ^ width) (h : m < n) : pad width m < pad width n := by
  induction width generalizing m n with
  | zero =>
      simp only [Nat.pow_zero, Nat.lt_one_iff] at hn
      omega
  | succ width ih =>
      rw [Nat.pow_succ'] at hn
      have hle : m / 10 ≤ n / 10 := Nat.div_le_div_right h.le
      unfold pad
      rcases hle.lt_or_eq with hlt | heq
      · refine append_lt_append_of_lt (ih ?_ hlt) ?_ _ _
        · omega
        · rw [pad_length, pad_length]
      · rw [heq]
        refine append_lt_append_left (List.cons_lt_cons_iff.2 (.inl (digit_lt ?_))) _
        omega

end IsoText

/-! ## The calendar -/

namespace Calendar

lemma daysBeforeYear_succ {y : ℕ} (hy : 1 ≤ y) :
    daysBeforeYear (y + 1) = daysBeforeYear y + daysInYear (isLeap y) := by
  obtain ⟨z, rfl⟩ := Nat.exists_eq_add_of_le' hy
  have hle : z / 100 ≤ z / 4 := Nat.div_le_div_left (by decide) (by decide)
  have h4 : (z + 1) / 4 = z / 4 + if (z + 1) % 4 = 0 then 1 else 0 := by split_ifs <;> omega
  have h100 : (z + 1) / 100 = z / 100 + if (z + 1) % 100 = 0 then 1 else 0 := by
    split_ifs <;> omega
  have h400 : (z + 1) / 400 = z / 400 + if (z + 1) % 400 = 0 then 1 else 0 := by
    split_ifs <;> omega
  have hdvd : (z + 1) % 100 = 0 → (z + 1) % 4 = 0 := by omega
  have hdvd' : (z + 1) % 400 = 0 → (z + 1) % 100 = 0 := by omega
  unfold daysBeforeYear daysInYear isLeap
  simp only [Nat.add_sub_cancel, h4, h100, h400, decide_eq_true_eq]
  by_cases h : (z + 1) % 4 = 0
  · by_cases h' : (z + 1) % 100 = 0
    · by_cases h'' : (z + 1) % 400 = 0
      · simp only [h, h', h'', if_true, ne_eq, not_true, or_true, and_self]
        omega
      · simp only [h, h', h'', if_true, if_false, ne_eq, not_true, or_false, and_false]
        omega
    · have h'' : (z + 1) % 400 ≠ 0 := fun hz => h' (hdvd' hz)
      simp only [h, h', h'', if_true, if_false, ne_eq, not_false_eq_true, true_or, and_self]
      omega
  · have h' : (z + 1) % 100 ≠ 0 := fun hz => h (hdvd hz)
    have h'' : (z + 1) % 400 ≠ 0 := fun hz => h' (hdvd' hz)
    simp only [h, h', h'', if_false, false_and]
    omega

lemma daysBeforeYear_mono {y z : ℕ} (hy : 1 ≤ y) (h : y ≤ z) :
    daysBeforeYear y ≤ daysBeforeYear z := by
  induction z, h using Nat.le_induction with
  | base => exact le_rfl
  | succ z hz ih =>
      rw [daysBeforeYear_succ (hy.trans hz)]
      exact ih.trans (Nat.le_add_right _ _)

/-- A later day lies in no earlier year, as the years begin one after the other. -/
lemma yearOf_mono {m n : ℕ} (h : m ≤ n) : yearOf m ≤ yearOf n := by
  by_contra hlt
  have hm := yearOf_spec m
  have hn := yearOf_spec n
  have hstep := daysBeforeYear_mono (y := yearOf n + 1) (by omega) (Nat.lt_of_not_le hlt)
  rw [daysBeforeYear_succ (yearOf_pos n)] at hstep
  omega

lemma monthOf_mono (leap : Bool) {m n : ℕ} (h : m ≤ n) : monthOf leap m ≤ monthOf leap n := by
  refine List.countP_mono_left (fun k _ hk => ?_)
  rw [decide_eq_true_eq] at hk ⊢
  exact hk.trans h

/-- Of two days, the earlier one has the earlier year, month or day. -/
lemma fields_of_lt {m n : ℕ} (h : m < n) :
    yearOf m < yearOf n ∨ yearOf m = yearOf n ∧
      (monthOfOrdinal m < monthOfOrdinal n ∨ monthOfOrdinal m = monthOfOrdinal n ∧
        dayOf m < dayOf n) := by
  rcases (yearOf_mono h.le).lt_or_eq with hy | hy
  · exact .inl hy
  · have hm := (yearOf_spec m).1
    have hn := (yearOf_spec n).1
    have hmonth : monthOfOrdinal m ≤ monthOfOrdinal n := by
      unfold monthOfOrdinal
      rw [hy]
      exact monthOf_mono _ (Nat.sub_le_sub_right h.le _)
    refine .inr ⟨hy, hmonth.lt_or_eq.imp_right (fun hmo => ⟨hmo, ?_⟩)⟩
    have hm' := monthOf_spec (isLeap (yearOf m)) (m - daysBeforeYear (yearOf m)) (by
      have := yearOf_spec m
      omega)
    have hn' := monthOf_spec (isLeap (yearOf n)) (n - daysBeforeYear (yearOf n)) (by
      have := yearOf_spec n
      omega)
    simp only [monthOfOrdinal, dayOf] at hmo ⊢
    rw [hy] at hm hm' hmo ⊢
    rw [hmo] at hm' ⊢
    omega

end Calendar

/-! ## Times -/

namespace Datetime

open IsoText Calendar

lemma dateText_lt {d e : Datetime} (h : d.days < e.days) : d.dateText < e.dateText := by
  obtain ⟨hy, hm, hd, -⟩ := e.fields_lt
  have hlen : ∀ (w m n : ℕ), (pad w m).length = (pad w n).length := fun w m n => by
    rw [pad_length, pad_length]
  unfold dateText
  rcases fields_of_lt h with hlt | ⟨hyear, hlt | ⟨hmonth, hlt⟩⟩
  · exact append_lt_append_of_lt (pad_lt hy hlt) (hlen _ _ _) _ _
  · rw [show d.year = e.year from hyear]
    refine append_lt_append_left (cons_lt_cons_of_lt ?_ _) _
    exact append_lt_append_of_lt (pad_lt hm hlt) (hlen _ _ _) _ _
  · rw [show d.year = e.year from hyear, show d.month = e.month from hmonth]
    refine append_lt_append_left (cons_lt_cons_of_lt ?_ _) _
    refine append_lt_append_left (cons_lt_cons_of_lt ?_ _) _
    exact pad_lt hd hlt

/-- The fraction of a second, before the offset: where it is left out, the text goes on with `+`,
and `+` comes before `.`. -/
lemma fractionText_lt {d e : Datetime} (h : d.microsecond < e.microsecond) (offset : List Char) :
    d.fractionText ++ '+' :: offset < e.fractionText ++ '+' :: offset := by
  obtain ⟨-, -, -, -, -, -, hu⟩ := e.fields_lt
  unfold fractionText
  rw [if_neg (by omega : e.microsecond ≠ 0)]
  split_ifs with hzero
  · exact List.cons_lt_cons_iff.2 (.inl (by decide))
  · refine cons_lt_cons_of_lt ?_ _
    exact append_lt_append_of_lt (pad_lt hu h) (by rw [pad_length, pad_length]) _ _

lemma timeText_lt {d e : Datetime} (hdays : d.days = e.days) (h : d.ticks < e.ticks)
    (offset : List Char) : d.timeText ++ '+' :: offset < e.timeText ++ '+' :: offset := by
  obtain ⟨-, -, -, hh, hm, hs, -⟩ := e.fields_lt
  have hfields : d.hour < e.hour ∨ d.hour = e.hour ∧ (d.minute < e.minute ∨ d.minute = e.minute ∧
      (d.second < e.second ∨ d.second = e.second ∧ d.microsecond < e.microsecond)) := by
    simp only [days, hour, minute, second, microsecond, ticksPerDay] at hdays ⊢
    omega
  have hlen : ∀ (m n : ℕ), (pad 2 m).length = (pad 2 n).length := fun m n => by
    rw [pad_length, pad_length]
  simp only [timeText, List.append_assoc, List.cons_append]
  rcases hfields with hlt | ⟨hhour, hlt | ⟨hminute, hlt | ⟨hsecond, hlt⟩⟩⟩
  · exact append_lt_append_of_lt (pad_lt hh hlt) (hlen _ _) _ _
  · rw [hhour]
    refine append_lt_append_left (cons_lt_cons_of_lt ?_ _) _
    exact append_lt_append_of_lt (pad_lt hm hlt) (hlen _ _) _ _
  · rw [hhour, hminute]
    refine append_lt_append_left (cons_lt_cons_of_lt ?_ _) _
    refine append_lt_append_left (cons_lt_cons_of_lt ?_ _) _
    exact append_lt_append_of_lt (pad_lt hs hlt) (hlen _ _) _ _
  · rw [hhour, hminute, hsecond]
    refine append_lt_append_left (cons_lt_cons_of_lt ?_ _) _
    refine append_lt_append_left (cons_lt_cons_of_lt ?_ _) _
    exact append_lt_append_left (fractionText_lt hlt offset) _

lemma isoformat_lt {d e : Datetime} (h : d.ticks < e.ticks) : d.isoformat < e.isoformat := by
  have hle : d.days ≤ e.days := Nat.div_le_div_right h.le
  rw [String.lt_iff_toList_lt]
  simp only [isoformat, String.toList_ofList]
  rcases hle.lt_or_eq with hlt | heq
  · refine append_lt_append_of_lt (dateText_lt hlt) ?_ _ _
    simp only [dateText, List.length_append, List.length_cons, pad_length]
  · rw [dateText_inj.2 heq]
    exact append_lt_append_left (cons_lt_cons_of_lt (timeText_lt heq h _) _) _

/-- **Texts are ordered as their times.**  A query compares texts, and it is this that makes its
answer one about times; it takes years of four digits and the same offset. -/
lemma isoformat_le_iff {d e : Datetime} : d.isoformat ≤ e.isoformat ↔ d.ticks ≤ e.ticks := by
  constructor
  · intro h
    by_contra hlt
    exact absurd h (not_le.2 (isoformat_lt (Nat.lt_of_not_le hlt)))
  · intro h
    rcases h.lt_or_eq with hlt | heq
    · exact (isoformat_lt hlt).le
    · have hsame : d = e := by
        cases d
        cases e
        simpa using heq
      rw [hsame]

/-- A month is known by its text: the year and the number of the month can be read off it. -/
lemma yearMonth_inj {d e : Datetime} :
    d.yearMonth = e.yearMonth ↔ d.year = e.year ∧ d.month = e.month := by
  have hlen : (pad 4 d.year).length = (pad 4 e.year).length := by rw [pad_length, pad_length]
  constructor
  · intro h
    have htext := congrArg String.toList h
    simp only [yearMonth, String.toList_ofList] at htext
    obtain ⟨hyear, hmonth⟩ := List.append_inj htext hlen
    have hy := congrArg number hyear
    have hm := congrArg number hmonth
    rw [number_pad_of_lt d.fields_lt.1, number_pad_of_lt e.fields_lt.1] at hy
    rw [number_pad_of_lt d.fields_lt.2.1, number_pad_of_lt e.fields_lt.2.1] at hm
    exact ⟨Option.some.inj hy, Option.some.inj hm⟩
  · rintro ⟨hy, hm⟩
    rw [yearMonth, yearMonth, hy, hm]

end Datetime

end TokenFoundry
