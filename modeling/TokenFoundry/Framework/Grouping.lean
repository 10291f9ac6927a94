import Mathlib.Algebra.BigOperators.Group.List.Basic
import Mathlib.Algebra.Order.BigOperators.Group.List
import Mathlib.Data.Finset.Card
import Mathlib.Data.List.Induction
import Mathlib.Data.List.Sort

/-!
# Grouping a list

A loop that keeps one running value for each label, in a dictionary that remembers the order in
which the labels came.  The value of a label is what the loop over its own items alone computes
(`lookup_group`), so that any additive measure of the values splits over the labels (`sum_group`).
-/

set_option autoImplicit false

namespace TokenFoundry
namespace Grouping

variable {α β κ M : Type} [DecidableEq κ]

/-! ## One entry -/

/-- Change the value of a key; a new key comes last and starts from `fresh`. -/
def adjust (fresh : β) (f : β → β) (k : κ) : List (κ × β) → List (κ × β)
  | [] => [(k, f fresh)]
  | (other, b) :: rest =>
      if other = k then (other, f b) :: rest else (other, b) :: adjust fresh f k rest

variable {fresh : β} {f : β → β}

lemma map_fst_adjust (k : κ) (entries : List (κ × β)) :
    (adjust fresh f k entries).map Prod.fst =
      if k ∈ entries.map Prod.fst then entries.map Prod.fst else entries.map Prod.fst ++ [k] := by
  induction entries with
  | nil => rfl
  | cons entry rest ih =>
      obtain ⟨other, b⟩ := entry
      unfold adjust
      by_cases hother : other = k
      · simp [hother]
      · rw [if_neg hother, List.map_cons, ih, List.map_cons]
        by_cases hmem : k ∈ rest.map Prod.fst
        · rw [if_pos hmem, if_pos (List.mem_cons_of_mem other hmem)]
        · rw [if_neg hmem, if_neg (by simp [hmem, Ne.symm hother]), List.cons_append]

lemma mem_keys_adjust {k k' : κ} {entries : List (κ × β)} :
    k' ∈ (adjust fresh f k entries).map Prod.fst ↔ k' = k ∨ k' ∈ entries.map Prod.fst := by
  rw [map_fst_adjust]
  split_ifs with h
  · exact ⟨.inr, fun h' => h'.elim (fun heq => heq ▸ h) id⟩
  · rw [List.mem_append, List.mem_singleton, or_comm]

lemma nodup_adjust {k : κ} {entries : List (κ × β)} (h : (entries.map Prod.fst).Nodup) :
    ((adjust fresh f k entries).map Prod.fst).Nodup := by
  rw [map_fst_adjust]
  split_ifs with hk
  · exact h
  · refine List.nodup_append.2 ⟨h, List.nodup_singleton k, ?_⟩
    rintro a ha b hb rfl
    exact hk (List.mem_singleton.1 hb ▸ ha)

lemma lookup_adjust (k k' : κ) (entries : List (κ × β)) :
    (adjust fresh f k entries).lookup k' =
      if k' = k then some (f ((entries.lookup k).getD fresh)) else entries.lookup k' := by
  induction entries with
  | nil =>
      by_cases hk : k' = k
      · simp [adjust, hk]
      · simp [adjust, hk, List.lookup_cons, beq_eq_false_iff_ne.2 hk]
  | cons entry rest ih =>
      obtain ⟨other, b⟩ := entry
      unfold adjust
      by_cases hother : other = k
      · subst hother
        by_cases hk : k' = other
        · simp [hk]
        · simp [hk, List.lookup_cons, beq_eq_false_iff_ne.2 hk]
      · rw [if_neg hother, List.lookup_cons, ih, List.lookup_cons,
          beq_eq_false_iff_ne.2 (Ne.symm hother)]
        by_cases hk : k' = k
        · subst hk
          simp [beq_eq_false_iff_ne.2 (Ne.symm hother)]
        · rw [if_neg hk, if_neg hk, List.lookup_cons]

/-- A measure that the change raises by `δ`, wherever it starts. -/
lemma sum_adjust [AddCommMonoid M] {μ : β → M} {δ : M} (hfresh : μ fresh = 0)
    (hf : ∀ b, μ (f b) = μ b + δ) (k : κ) (entries : List (κ × β)) :
    ((adjust fresh f k entries).map (fun e => μ e.2)).sum =
      (entries.map (fun e => μ e.2)).sum + δ := by
  induction entries with
  | nil => simp [adjust, hf, hfresh]
  | cons entry rest ih =>
      obtain ⟨other, b⟩ := entry
      unfold adjust
      split_ifs with hother
      · rw [List.map_cons, List.sum_cons, List.map_cons, List.sum_cons, hf, add_right_comm]
      · rw [List.map_cons, List.sum_cons, ih, List.map_cons, List.sum_cons, add_assoc]

/-! ## All items -/

/-- The loop: every item changes the value of its label, which is `fresh` before the first of
them. -/
def group (fresh : β) (step : β → α → β) (label : α → κ) (items : List α) : List (κ × β) :=
  items.foldl (fun entries a => adjust fresh (step · a) (label a) entries) []

variable {step : β → α → β} {label : α → κ}

lemma group_concat (items : List α) (a : α) :
    group fresh step label (items ++ [a]) =
      adjust fresh (step · a) (label a) (group fresh step label items) := by
  simp [group]

lemma nodup_group (items : List α) : ((group fresh step label items).map Prod.fst).Nodup := by
  induction items using List.reverseRecOn with
  | nil => simp [group]
  | append_singleton items a ih =>
      rw [group_concat]
      exact nodup_adjust ih

lemma mem_keys_group {k : κ} {items : List α} :
    k ∈ (group fresh step label items).map Prod.fst ↔ ∃ a ∈ items, label a = k := by
  induction items using List.reverseRecOn with
  | nil => simp [group]
  | append_singleton items a ih =>
      rw [group_concat, mem_keys_adjust, ih]
      constructor
      · rintro (rfl | ⟨b, hb, rfl⟩)
        · exact ⟨a, by simp, rfl⟩
        · exact ⟨b, by simp [hb], rfl⟩
      · rintro ⟨b, hb, rfl⟩
        rcases List.mem_append.1 hb with hb | hb
        · exact .inr ⟨b, hb, rfl⟩
        · rw [List.mem_singleton.1 hb]
          exact .inl rfl

/-- There are as many entries as labels among the items. -/
lemma length_group (items : List α) :
    (group fresh step label items).length = (items.map label).toFinset.card := by
  have hkeys : ((group fresh step label items).map Prod.fst).toFinset =
      (items.map label).toFinset := by
    ext k
    rw [List.mem_toFinset, List.mem_toFinset, mem_keys_group, List.mem_map]
  rw [← hkeys, List.toFinset_card_of_nodup (nodup_group items), List.length_map]

/-- **The value of a label** is what its own items give. -/
lemma lookup_group (k : κ) (items : List α) :
    (group fresh step label items).lookup k =
      if ∃ a ∈ items, label a = k then
        some ((items.filter (fun a => label a = k)).foldl step fresh)
      else none := by
  induction items using List.reverseRecOn with
  | nil => simp [group]
  | append_singleton items a ih =>
      rw [group_concat, lookup_adjust, List.filter_append, List.foldl_append]
      by_cases hk : label a = k
      · subst hk
        rw [if_pos rfl, if_pos ⟨a, by simp, rfl⟩, ih]
        split_ifs with hsome
        · simp
        · have hnone : items.filter (fun b => decide (label b = label a)) = [] := by
            refine List.filter_eq_nil_iff.2 (fun b hb => ?_)
            simpa using fun heq => hsome ⟨b, hb, heq⟩
          simp [hnone]
      · rw [if_neg (Ne.symm hk), ih]
        have hsame : (∃ b ∈ items ++ [a], label b = k) ↔ ∃ b ∈ items, label b = k := by
          simp [or_and_right, exists_or, hk]
        simp only [hsame, List.filter_cons, hk, decide_false, Bool.false_eq_true, if_false,
          List.filter_nil, List.foldl_nil]

/-- A key has the value of its entry, where no key has two. -/
lemma lookup_of_mem {k : κ} {b : β} {entries : List (κ × β)} (hnodup : (entries.map Prod.fst).Nodup)
    (h : (k, b) ∈ entries) : entries.lookup k = some b := by
  induction entries with
  | nil => cases h
  | cons entry rest ih =>
      rcases List.mem_cons.1 h with rfl | hrest
      · simp
      · have hne : k ≠ entry.1 := by
          rintro rfl
          exact (List.nodup_cons.1 hnodup).1 (List.mem_map.2 ⟨_, hrest, rfl⟩)
        rw [List.lookup_cons, beq_eq_false_iff_ne.2 hne]
        exact ih (List.nodup_cons.1 hnodup).2 hrest

/-- The entry of a label is the loop over the items of that label alone, in their order. -/
lemma value_of_mem_group {k : κ} {b : β} {items : List α}
    (h : (k, b) ∈ group fresh step label items) :
    b = (items.filter (fun a => label a = k)).foldl step fresh := by
  have hkey : ∃ a ∈ items, label a = k := mem_keys_group.1 (List.mem_map.2 ⟨(k, b), h, rfl⟩)
  have hvalue := lookup_of_mem (nodup_group items) h
  rw [lookup_group, if_pos hkey] at hvalue
  exact (Option.some.inj hvalue).symm

/-- An additive measure of one loop over all items: it is the sum of what each item adds. -/
lemma measure_foldl [AddCommMonoid M] {μ : β → M} {δ : α → M}
    (hstep : ∀ b a, μ (step b a) = μ b + δ a) (b : β) (items : List α) :
    μ (items.foldl step b) = μ b + (items.map δ).sum := by
  induction items generalizing b with
  | nil => simp
  | cons a items ih => rw [List.foldl_cons, ih, hstep, List.map_cons, List.sum_cons, add_assoc]

/-- **The labels partition the items**: their values add up to that of all items. -/
lemma sum_group [AddCommMonoid M] {μ : β → M} {δ : α → M} (hfresh : μ fresh = 0)
    (hstep : ∀ b a, μ (step b a) = μ b + δ a) (items : List α) :
    ((group fresh step label items).map (fun e => μ e.2)).sum = μ (items.foldl step fresh) := by
  rw [measure_foldl hstep, hfresh, zero_add]
  induction items using List.reverseRecOn with
  | nil => simp [group]
  | append_singleton items a ih =>
      rw [group_concat, sum_adjust hfresh (fun b => hstep b a), ih, List.map_append,
        List.sum_append, List.map_singleton, List.sum_singleton]

lemma sum_filter_lt_succ [AddCommMonoid M] {δ : α → M} (index : α → ℕ) (items : List α) (n : ℕ) :
    ((items.filter (fun a => index a < n + 1)).map δ).sum =
      ((items.filter (fun a => index a < n)).map δ).sum +
        ((items.filter (fun a => index a = n)).map δ).sum := by
  induction items with
  | nil => simp
  | cons a items ih =>
      rcases lt_trichotomy (index a) n with hlt | heq | hgt
      · have hsucc : index a < n + 1 := by omega
        simp only [List.filter_cons, decide_eq_true hsucc, decide_eq_true hlt,
          decide_eq_false hlt.ne, if_true, Bool.false_eq_true, if_false, List.map_cons,
          List.sum_cons, ih, add_assoc]
      · have hsucc : index a < n + 1 := by omega
        have hlt : ¬ index a < n := by omega
        simp only [List.filter_cons, decide_eq_true hsucc, decide_eq_false hlt,
          decide_eq_true heq, if_true, Bool.false_eq_true, if_false, List.map_cons,
          List.sum_cons, ih, add_left_comm]
      · have hsucc : ¬ index a < n + 1 := by omega
        simp only [List.filter_cons, decide_eq_false hsucc, decide_eq_false hgt.not_gt,
          decide_eq_false hgt.ne', Bool.false_eq_true, if_false, ih]

/-- The items with an index below a bound are those with each of the indices. -/
lemma sum_range_fibers [AddCommMonoid M] {δ : α → M} (index : α → ℕ) (items : List α) (n : ℕ) :
    ((List.range n).map (fun i => ((items.filter (fun a => index a = i)).map δ).sum)).sum =
      ((items.filter (fun a => index a < n)).map δ).sum := by
  induction n with
  | zero => simp
  | succ n ih =>
      rw [List.range_succ, List.map_append, List.sum_append, ih, List.map_singleton,
        List.sum_singleton, sum_filter_lt_succ]

/-! ## The largest entries -/

omit [DecidableEq κ] in
/-- The head of a sorted list: the entries, some of them, and none better left out. -/
lemma take_mergeSort (le : β → β → Bool) (htrans : ∀ a b c, le a b → le b c → le a c)
    (htotal : ∀ a b, le a b || le b a) (n : ℕ) (entries : List β) :
    ∃ rest, ((entries.mergeSort le).take n ++ rest).Perm entries ∧
      (∀ b ∈ (entries.mergeSort le).take n, ∀ c ∈ rest, le b c) ∧
      ((entries.mergeSort le).take n).length = min n entries.length := by
  refine ⟨(entries.mergeSort le).drop n, ?_, ?_, ?_⟩
  · rw [List.take_append_drop]
    exact List.mergeSort_perm entries le
  · have hsorted := List.pairwise_mergeSort htrans htotal entries
    rw [← List.take_append_drop n (entries.mergeSort le)] at hsorted
    exact (List.pairwise_append.1 hsorted).2.2
  · rw [List.length_take, (List.mergeSort_perm entries le).length_eq]

end Grouping
end TokenFoundry
