import Mathlib.Data.List.Infix
import Mathlib.Tactic.Common

/-!
# Splitting at a separator

`xs.split(sep, 1)`, `xs.split(sep)`, and the loop that takes every piece off a buffer that ends with
a separator.  A buffer that is filled in steps and emptied after each of them gives the same pieces
as one that is filled at once.
-/

set_option autoImplicit false

namespace TokenFoundry
namespace Splitting

variable {α : Type} [DecidableEq α]

/-- What stands before the first separator, and what stands after it. -/
def findSep (sep : List α) : List α → Option (List α × List α)
  | [] => none
  | x :: xs =>
      if sep <+: x :: xs then some ([], (x :: xs).drop sep.length)
      else (findSep sep xs).map (fun r => (x :: r.1, r.2))

/-- The pieces that end with a separator, and the rest; at most as many as the first argument
says. -/
def takePieces (sep : List α) : ℕ → List α → List (List α) × List α
  | 0, xs => ([], xs)
  | n + 1, xs =>
      match findSep sep xs with
      | none => ([], xs)
      | some (piece, rest) =>
          (piece :: (takePieces sep n rest).1, (takePieces sep n rest).2)

/-- All pieces that end with a separator, and the rest, in which there is none. -/
def pieces (sep xs : List α) : List (List α) × List α := takePieces sep xs.length xs

/-- `xs.split(sep)`: the rest after the last separator is a piece like the others. -/
def splitOn (sep xs : List α) : List (List α) := (pieces sep xs).1 ++ [(pieces sep xs).2]

example : splitOn [0] [1, 0, 0, 2] = [[1], [], [2]] := by decide

/-! ## The first separator -/

lemma findSep_eq {sep xs a r : List α} (h : findSep sep xs = some (a, r)) :
    xs = a ++ sep ++ r := by
  induction xs generalizing a r with
  | nil => simp [findSep] at h
  | cons x xs ih =>
      rw [findSep] at h
      split_ifs at h with hsep
      · obtain ⟨t, ht⟩ := hsep
        simp only [Option.some.injEq, Prod.mk.injEq] at h
        obtain ⟨rfl, rfl⟩ := h
        rw [← ht]
        simp
      · obtain ⟨⟨a', r'⟩, hfind, hpair⟩ := Option.map_eq_some_iff.1 h
        simp only [Prod.mk.injEq] at hpair
        obtain ⟨rfl, rfl⟩ := hpair
        rw [ih hfind]
        simp

/-- The first separator of a list is the first one of every extension of it. -/
lemma findSep_append {sep xs a r : List α} (h : findSep sep xs = some (a, r)) (ys : List α) :
    findSep sep (xs ++ ys) = some (a, r ++ ys) := by
  induction xs generalizing a r with
  | nil => simp [findSep] at h
  | cons x xs ih =>
      rw [List.cons_append, findSep]
      rw [findSep] at h
      split_ifs at h with hsep
      · have hlength := hsep.length_le
        rw [if_pos (by simpa using hsep.trans (List.prefix_append (x :: xs) ys))]
        simp only [Option.some.injEq, Prod.mk.injEq] at h
        obtain ⟨rfl, rfl⟩ := h
        rw [← List.cons_append, List.drop_append_of_le_length hlength]
      · obtain ⟨⟨a', r'⟩, hfind, hpair⟩ := Option.map_eq_some_iff.1 h
        simp only [Prod.mk.injEq] at hpair
        obtain ⟨rfl, rfl⟩ := hpair
        -- The separator is no longer than the rest, in which it occurs.
        have hlong := congrArg List.length (findSep_eq hfind)
        simp only [List.length_append] at hlong
        have hsep' : ¬ sep <+: x :: (xs ++ ys) := by
          intro hsep'
          refine hsep (List.prefix_of_prefix_length_le hsep' ?_ ?_)
          · exact List.prefix_append (x :: xs) ys
          · simp only [List.length_cons]
            omega
        rw [if_neg hsep', ih hfind]
        rfl

/-- A separator that appears when a list grows has an element in what is added. -/
lemma exists_mem_of_findSep {sep xs ys : List α} {r : List α × List α} (hsep : sep ≠ [])
    (hnone : findSep sep xs = none) (hsome : findSep sep (xs ++ ys) = some r) :
    ∃ a ∈ sep, a ∈ ys := by
  induction xs generalizing r with
  | nil =>
      obtain ⟨a, ha⟩ := List.exists_mem_of_ne_nil sep hsep
      refine ⟨a, ha, ?_⟩
      rw [show ys = _ from findSep_eq hsome]
      simp [ha]
  | cons x xs ih =>
      rw [findSep] at hnone
      split_ifs at hnone with hprefix
      rw [List.cons_append, findSep] at hsome
      split_ifs at hsome with hprefix'
      · rw [← List.cons_append] at hprefix'
        rcases List.prefix_or_prefix_of_prefix hprefix' (List.prefix_append (x :: xs) ys) with
          h | ⟨t, rfl⟩
        · exact absurd h hprefix
        · have ht : t <+: ys := (List.prefix_append_right_inj (x :: xs)).1 hprefix'
          have hne : t ≠ [] := by
            rintro rfl
            exact hprefix (by simp)
          obtain ⟨a, ha⟩ := List.exists_mem_of_ne_nil t hne
          exact ⟨a, List.mem_append_right _ ha, ht.subset ha⟩
      · obtain ⟨r', hr', -⟩ := Option.map_eq_some_iff.1 hsome
        exact ih (Option.map_eq_none_iff.1 hnone) hr'

/-! ## All pieces -/

lemma takePieces_of_le {sep : List α} (hsep : sep ≠ []) {n : ℕ} {xs : List α}
    (hn : xs.length ≤ n) : takePieces sep n xs = pieces sep xs := by
  have hpos := List.length_pos_iff.2 hsep
  have hboth : ∀ n m : ℕ, ∀ xs : List α, xs.length ≤ n → xs.length ≤ m →
      takePieces sep n xs = takePieces sep m xs := by
    intro n
    induction n with
    | zero =>
        intro m xs hn hm
        obtain rfl : xs = [] := List.length_eq_zero_iff.1 (by omega)
        cases m <;> rfl
    | succ n ih =>
        intro m xs hn hm
        cases m with
        | zero =>
            obtain rfl : xs = [] := List.length_eq_zero_iff.1 (by omega)
            rfl
        | succ m =>
            cases hfind : findSep sep xs with
            | none => simp only [takePieces, hfind]
            | some r =>
                have hlength := congrArg List.length (findSep_eq hfind)
                simp only [List.length_append] at hlength
                simp only [takePieces, hfind, ih m r.2 (by omega) (by omega)]
  exact hboth n xs.length xs hn le_rfl

lemma pieces_of_none {sep xs : List α} (h : findSep sep xs = none) : pieces sep xs = ([], xs) := by
  cases xs with
  | nil => rfl
  | cons x xs =>
      unfold pieces
      rw [List.length_cons, takePieces, h]

lemma pieces_of_some {sep xs a r : List α} (hsep : sep ≠ []) (h : findSep sep xs = some (a, r)) :
    pieces sep xs = (a :: (pieces sep r).1, (pieces sep r).2) := by
  have hpos := List.length_pos_iff.2 hsep
  have hlength := congrArg List.length (findSep_eq h)
  simp only [List.length_append] at hlength
  cases xs with
  | nil => simp [findSep] at h
  | cons x xs =>
      simp only [List.length_cons] at hlength
      unfold pieces
      rw [List.length_cons, takePieces, h]
      simp only [takePieces_of_le hsep (by omega : r.length ≤ xs.length), pieces]

/-- Pieces are taken off one after the other: an induction that follows the search for the next
separator. -/
theorem pieces_induction {sep : List α} (hsep : sep ≠ []) {motive : List α → Prop}
    (none : ∀ xs, findSep sep xs = none → motive xs)
    (some : ∀ xs a r, findSep sep xs = some (a, r) → motive r → motive xs) (xs : List α) :
    motive xs := by
  have hpos := List.length_pos_iff.2 hsep
  induction hn : xs.length using Nat.strong_induction_on generalizing xs with
  | _ n ih =>
      cases hfind : findSep sep xs with
      | none => exact none xs hfind
      | some r =>
          have hlength := congrArg List.length (findSep_eq hfind)
          simp only [List.length_append] at hlength
          exact some xs r.1 r.2 hfind (ih r.2.length (by omega) r.2 rfl)

/-- A buffer from which the pieces have been taken can be filled again. -/
theorem pieces_append {sep : List α} (hsep : sep ≠ []) (xs ys : List α) :
    pieces sep (xs ++ ys) =
      ((pieces sep xs).1 ++ (pieces sep ((pieces sep xs).2 ++ ys)).1,
        (pieces sep ((pieces sep xs).2 ++ ys)).2) := by
  induction xs using pieces_induction hsep with
  | none xs h => simp [pieces_of_none h]
  | some xs a r h ih => simp [pieces_of_some hsep h, pieces_of_some hsep (findSep_append h ys), ih]

/-- No separator is left in the rest, so that a search in it alone finds nothing. -/
lemma findSep_rest {sep : List α} (hsep : sep ≠ []) (xs : List α) :
    findSep sep (pieces sep xs).2 = none := by
  induction xs using pieces_induction hsep with
  | none xs h => simpa [pieces_of_none h] using h
  | some xs a r h ih => simpa [pieces_of_some hsep h] using ih

/-- What the separator does not begin with may be passed over. -/
lemma findSep_append_of_notMem {a : α} {sep xs : List α} (h : a ∉ xs) (ys : List α) :
    findSep (a :: sep) (xs ++ ys) = (findSep (a :: sep) ys).map (fun r => (xs ++ r.1, r.2)) := by
  induction xs with
  | nil => simp
  | cons x xs ih =>
      rw [List.mem_cons, not_or] at h
      have hprefix : ¬ a :: sep <+: x :: (xs ++ ys) :=
        fun hprefix => h.1 (List.cons_prefix_cons.1 hprefix).1
      rw [List.cons_append, findSep, if_neg hprefix, ih h.2, Option.map_map]
      rfl

/-- A separator stands at the beginning, and the piece before it is empty. -/
lemma findSep_self {sep : List α} (hsep : sep ≠ []) (ys : List α) :
    findSep sep (sep ++ ys) = some ([], ys) := by
  cases sep with
  | nil => exact absurd rfl hsep
  | cons a sep =>
      rw [List.cons_append, findSep, if_pos ⟨ys, rfl⟩, ← List.cons_append, List.drop_left]

/-! ## A separator of one element -/

lemma findSep_single_none {a : α} {xs : List α} : findSep [a] xs = none ↔ a ∉ xs := by
  induction xs with
  | nil => simp [findSep]
  | cons x xs ih =>
      rw [findSep]
      by_cases h : a = x
      · simp [h]
      · simp [h, ih]

lemma findSep_single_some {a : α} {xs : List α} (h : a ∉ xs) (ys : List α) :
    findSep [a] (xs ++ a :: ys) = some (xs, ys) := by
  induction xs with
  | nil => simp [findSep]
  | cons x xs ih =>
      rw [List.mem_cons, not_or] at h
      rw [List.cons_append, findSep, if_neg (by simpa using h.1), ih h.2]
      rfl

lemma not_mem_of_findSep {a : α} {xs b r : List α} (h : findSep [a] xs = some (b, r)) : a ∉ b := by
  induction xs generalizing b r with
  | nil => simp [findSep] at h
  | cons x xs ih =>
      rw [findSep] at h
      split_ifs at h with hsep
      · simp only [Option.some.injEq, Prod.mk.injEq] at h
        simp [← h.1]
      · obtain ⟨⟨b', r'⟩, hfind, hpair⟩ := Option.map_eq_some_iff.1 h
        simp only [Prod.mk.injEq] at hpair
        rw [← hpair.1, List.mem_cons, not_or]
        exact ⟨by simpa using hsep, ih hfind⟩

lemma splitOn_of_none {sep xs : List α} (h : findSep sep xs = none) : splitOn sep xs = [xs] := by
  rw [splitOn, pieces_of_none h]
  rfl

lemma splitOn_of_some {sep xs a r : List α} (hsep : sep ≠ []) (h : findSep sep xs = some (a, r)) :
    splitOn sep xs = a :: splitOn sep r := by
  rw [splitOn, pieces_of_some hsep h]
  rfl

lemma splitOn_append (a : α) (xs ys : List α) :
    splitOn [a] (xs ++ a :: ys) = splitOn [a] xs ++ splitOn [a] ys := by
  have hsep : [a] ≠ [] := List.cons_ne_nil a []
  induction xs using pieces_induction hsep with
  | none xs h =>
      rw [splitOn_of_none h,
        splitOn_of_some hsep (findSep_single_some (findSep_single_none.1 h) ys)]
      rfl
  | some xs b r h ih =>
      rw [splitOn_of_some hsep h, splitOn_of_some hsep (findSep_append h (a :: ys)), ih]
      rfl

/-- A piece does not hold the separator, where that is a single element. -/
lemma not_mem_of_mem_splitOn {a : α} {xs piece : List α} (h : piece ∈ splitOn [a] xs) :
    a ∉ piece := by
  have hsep : [a] ≠ [] := List.cons_ne_nil a []
  induction xs using pieces_induction hsep with
  | none xs hnone =>
      rw [splitOn_of_none hnone, List.mem_singleton] at h
      rw [h]
      exact findSep_single_none.1 hnone
  | some xs b r hsome ih =>
      rw [splitOn_of_some hsep hsome, List.mem_cons] at h
      rcases h with rfl | h
      · exact not_mem_of_findSep hsome
      · exact ih h

lemma splitOn_ne_nil (sep xs : List α) : splitOn sep xs ≠ [] := by simp [splitOn]

omit [DecidableEq α] in
lemma intercalate_cons (a : α) (part : List α) {parts : List (List α)} (h : parts ≠ []) :
    [a].intercalate (part :: parts) = part ++ a :: [a].intercalate parts := by
  cases parts with
  | nil => exact absurd rfl h
  | cons part' parts => simp [List.intercalate]

/-- Joining undoes splitting: the pieces with the separator between them are the list. -/
lemma intercalate_splitOn (a : α) (xs : List α) : [a].intercalate (splitOn [a] xs) = xs := by
  have hsep : [a] ≠ [] := List.cons_ne_nil a []
  induction xs using pieces_induction hsep with
  | none xs h =>
      rw [splitOn_of_none h]
      simp [List.intercalate]
  | some xs b r h ih =>
      rw [splitOn_of_some hsep h, intercalate_cons a b (splitOn_ne_nil [a] r), ih, findSep_eq h]
      simp

/-- The pieces of what has been joined are those of its parts. -/
lemma splitOn_intercalate (a : α) {parts : List (List α)} (h : parts ≠ []) :
    splitOn [a] ([a].intercalate parts) = parts.flatMap (splitOn [a]) := by
  induction parts with
  | nil => exact absurd rfl h
  | cons part parts ih =>
      by_cases hparts : parts = []
      · subst hparts
        simp [List.intercalate]
      · rw [intercalate_cons a part hparts, splitOn_append, ih hparts]
        rfl

end Splitting
end TokenFoundry
