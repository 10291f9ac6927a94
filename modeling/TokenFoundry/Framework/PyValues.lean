import Mathlib.Data.Rat.Cast.Order
import Mathlib.Algebra.Order.Ring.Rat
import Mathlib.Tactic.Common
import TokenFoundry.Framework.Outcomes

/-!
# Python values

What `json.loads` builds, and the conversions between Python's numbers.  An integer has any
size.  The floats are those of a number system `PyFloat`: IEEE 754 doubles, for which Lean's
`Float` is used (its operations have a logical definition, so a rounded result can be computed),
or the rationals, in which a program computes exactly.

`int` of a float and `float` of an integer are the places at which a number can raise.
-/

set_option autoImplicit false

namespace TokenFoundry

/-! ## Numbers -/

/-- How a conversion fails, by the exception that Python raises for it. -/
inductive Failure
  /-- `ValueError`. -/
  | value
  /-- `OverflowError`. -/
  | overflow
  /-- `TypeError`. -/
  | type
  /-- `AttributeError`. -/
  | attribute
  deriving DecidableEq

/-- A loop that never fails on the items it is given computes the plain fold. -/
lemma foldlM_ok {α σ : Type} {body : σ → α → Except Failure σ} {f : σ → α → σ} {items : List α}
    (h : ∀ a ∈ items, ∀ s, body s a = .ok (f s a)) (s : σ) :
    items.foldlM body s = .ok (items.foldl f s) := by
  induction items generalizing s with
  | nil => rfl
  | cons a items ih =>
      rw [List.foldlM_cons, h a List.mem_cons_self]
      exact ih (fun b hb => h b (List.mem_cons_of_mem a hb)) (f s a)

lemma mapM_ok {α β : Type} {body : α → Except Failure β} {f : α → β} {items : List α}
    (h : ∀ a ∈ items, body a = .ok (f a)) : items.mapM body = .ok (items.map f) := by
  induction items with
  | nil => rfl
  | cons a items ih =>
      rw [List.mapM_cons, h a List.mem_cons_self, ih (fun b hb => h b (List.mem_cons_of_mem a hb))]
      rfl

/-- A system of floats, as far as the programs use one.  The rationals are an instance, for
statements about amounts, and so are the floats of the machine. -/
class PyFloat (K : Type) where
  /-- A natural number that is a literal of the program. -/
  lit : ℕ → K
  add : K → K → K
  mul : K → K → K
  div : K → K → K
  /-- `x == 0`. -/
  isZero : K → Bool
  /-- `x <= y`. -/
  le : K → K → Bool
  /-- `int(x)`: the fraction is cut off. -/
  truncate : K → Except Failure ℤ
  /-- `float(n)`. -/
  ofInt : ℤ → Except Failure K
  /-- `round(x, places)`. -/
  round : K → ℕ → K

/-- The natural number nearest to a fraction, the even one of two. -/
def nearest (num den : ℕ) : ℕ :=
  let q := num / den
  let r := num % den
  if 2 * r < den then q else if den < 2 * r then q + 1 else q + q % 2

lemma nearest_mul (n : ℕ) {den : ℕ} (h : 0 < den) : nearest (n * den) den = n := by
  simp [nearest, Nat.mul_div_cancel _ h, h]

namespace Binary64

open Float.Model

/-- `int(x)`: the fraction is cut off, and what is not a finite number raises. -/
def truncate (x : Float) : Except Failure ℤ :=
  match x.toModel.unpack with
  | .notANumber => .error .value
  | .infinity _ => .error .overflow
  | .zero _ => .ok 0
  | .finite sign mantissa exponent _ => .ok (UnpackedFloat.roundToInt sign mantissa exponent)

/-- `round(x, places)`: the nearest decimal, and the double nearest to that. -/
def round (x : Float) (places : ℕ) : Float :=
  match x.toModel.unpack with
  | .finite sign mantissa exponent _ =>
      let scaled := mantissa * 10 ^ places
      let decimal := match exponent with
        | .ofNat e => scaled * 2 ^ e
        | .negSucc e => nearest scaled (2 ^ (e + 1))
      match sign with
      | .positive => Float.ofScientific decimal true places
      | .negative => - Float.ofScientific decimal true places
  | _ => x

end Binary64

instance : PyFloat Float where
  lit n := Float.ofNat n
  add x y := x + y
  mul x y := x * y
  div x y := x / y
  isZero x := x == 0
  le x y := x ≤ y
  truncate := Binary64.truncate
  ofInt n := if (Float.ofInt n).isInf then .error .overflow else .ok (Float.ofInt n)
  round := Binary64.round

/-- Exact arithmetic; what the program rounds on purpose is still rounded. -/
instance : PyFloat ℚ where
  lit n := n
  add x y := x + y
  mul x y := x * y
  div x y := x / y
  isZero x := decide (x = 0)
  le x y := decide (x ≤ y)
  truncate x := .ok (x.num.sign * (x.num.natAbs / x.den : ℕ))
  ofInt n := .ok n
  round x places :=
    x.num.sign * (nearest (x.num.natAbs * 10 ^ places) x.den : ℕ) / 10 ^ places

example : PyFloat.round (2.675 : Float) 2 = 2.67 := by decide +kernel

/-! ## Values -/

/-- A JSON document as Python holds it.  A dictionary is the list of its entries in the order of
insertion. -/
inductive Json (K : Type)
  | null
  | bool (b : Bool)
  | int (n : ℤ)
  | float (x : K)
  | str (s : String)
  | list (xs : List (Json K))
  | dict (fields : List (String × Json K))

/-- The entries of a dictionary; the first one of a key counts. -/
abbrev Dict (K : Type) := List (String × Json K)

/-- What the interpreter makes of values that the program does not expect. -/
structure Runtime (K : Type) where
  /-- `str(v)` of a value that is not a text. -/
  repr : Json K → String
  /-- `int(s)`. -/
  intOfText : String → Except Failure ℤ
  /-- `float(s)`. -/
  floatOfText : String → Except Failure K

/-- An interpreter for documents without such values: no text is a number, and other documents are
not written out. -/
def Runtime.strict {K : Type} : Runtime K :=
  ⟨fun _ => "", fun _ => .error .value, fun _ => .error .value⟩

namespace Json

variable {K : Type} [PyFloat K]

/-- `d.get(key)`, which is `None` for a key that is missing. -/
def get (d : Dict K) (key : String) : Json K := (d.lookup key).getD .null

/-- `d.get(key, default)`: the default stands for a missing key and not for `None`. -/
def getD (d : Dict K) (key : String) (default : Json K) : Json K := (d.lookup key).getD default

/-- `key in d`, whatever the value is. -/
def has (d : Dict K) (key : String) : Bool := (d.lookup key).isSome

/-- `bool(v)`: what is empty, zero or `None` is false. -/
def truthy : Json K → Bool
  | .null => false
  | .bool b => b
  | .int n => decide (n ≠ 0)
  | .float x => ! PyFloat.isZero x
  | .str s => decide (s ≠ "")
  | .list xs => ! xs.isEmpty
  | .dict fields => ! fields.isEmpty

/-- `v or default`: the default stands for every value that is false. -/
def orElse (v default : Json K) : Json K := if v.truthy then v else default

omit [PyFloat K] in
/-- A dictionary cannot be looked up under a list or a dictionary. -/
def hashable : Json K → Bool
  | .list _ => false
  | .dict _ => false
  | _ => true

/-- `str(v)`: a text is itself, and anything else is as the interpreter writes it. -/
def text (py : Runtime K) : Json K → String
  | .str s => s
  | v => py.repr v

/-- `d[key] = v`: an entry that is there keeps its place, and a new one goes to the end. -/
def setItem (d : Dict K) (key : String) (v : Json K) : Dict K :=
  if has d key then d.map (fun e => if e.1 = key then (key, v) else e) else d ++ [(key, v)]

omit [PyFloat K] in
/-- The dictionary that a document is; anything else has no `get`, and looking it up raises. -/
def asDict : Json K → Except Failure (Dict K)
  | .dict fields => .ok fields
  | _ => .error .attribute

omit [PyFloat K] in
/-- The number that a document is, if it is one; `True` and `False` are integers. -/
def number : Json K → Option (ℤ ⊕ K)
  | .bool b => some (.inl b.toNat)
  | .int n => some (.inl n)
  | .float x => some (.inr x)
  | _ => none

/-- `v + w`.  Numbers are added, texts and lists are appended, and anything else raises. -/
def add (v w : Json K) : Except Failure (Json K) :=
  match v.number, w.number with
  | some (.inl m), some (.inl n) => .ok (.int (m + n))
  | some (.inl m), some (.inr y) => (PyFloat.ofInt m).map (fun x => .float (PyFloat.add x y))
  | some (.inr x), some (.inl n) => (PyFloat.ofInt n).map (fun y => .float (PyFloat.add x y))
  | some (.inr x), some (.inr y) => .ok (.float (PyFloat.add x y))
  | _, _ =>
      match v, w with
      | .str s, .str t => .ok (.str (s ++ t))
      | .list xs, .list ys => .ok (.list (xs ++ ys))
      | _, _ => .error .type

/-- `int(v)`: a float loses its fraction, and a text has to be the writing of an integer. -/
def toInt (py : Runtime K) : Json K → Except Failure ℤ
  | .bool b => .ok b.toNat
  | .int n => .ok n
  | .float x => PyFloat.truncate x
  | .str s => py.intOfText s
  | .null | .list _ | .dict _ => .error .type

/-- `float(v)`: an integer may be too large for one, and a text has to be the writing of a
number. -/
def toFloat (py : Runtime K) : Json K → Except Failure K
  | .bool b => PyFloat.ofInt b.toNat
  | .int n => PyFloat.ofInt n
  | .float x => .ok x
  | .str s => py.floatOfText s
  | .null | .list _ | .dict _ => .error .type

omit [PyFloat K] in
lemma lookup_setItem (d : Dict K) (key : String) (v : Json K) (k : String) :
    (setItem d key v).lookup k = if k = key then some v else d.lookup k := by
  have hreplace : ∀ d : Dict K, (d.map (fun e => if e.1 = key then (key, v) else e)).lookup k =
      if k = key then (d.lookup key).map (fun _ => v) else d.lookup k := by
    intro d
    induction d with
    | nil => simp
    | cons e d ih =>
        rw [List.map_cons, List.lookup_cons, List.lookup_cons, List.lookup_cons, ih]
        by_cases hk : k = key
        · subst hk
          by_cases he : e.1 = k
          · simp [he]
          · have hbeq : (k == e.1) = false := beq_eq_false_iff_ne.2 (Ne.symm he)
            simp [he, hbeq]
        · by_cases he : e.1 = key
          · have hbeq : (k == key) = false := beq_eq_false_iff_ne.2 hk
            simp [he, hk, hbeq]
          · simp [he, hk]
  unfold setItem has
  split_ifs with hhas hk hk
  · rw [hreplace, if_pos hk]
    obtain ⟨w, hw⟩ := Option.isSome_iff_exists.1 hhas
    rw [hw]
    rfl
  · rw [hreplace, if_neg hk]
  · have hnone : d.lookup k = none := by
      rw [hk]
      exact Option.not_isSome_iff_eq_none.1 hhas
    rw [List.lookup_append, hnone, hk]
    simp
  · have hbeq : (k == key) = false := beq_eq_false_iff_ne.2 hk
    rw [List.lookup_append, List.lookup_cons, hbeq]
    simp

omit [PyFloat K] in
lemma get_setItem (d : Dict K) (key : String) (v : Json K) (k : String) :
    get (setItem d key v) k = if k = key then v else get d k := by
  rw [get, lookup_setItem]
  split_ifs <;> rfl

lemma orElse_of_truthy {v : Json K} (h : v.truthy = true) (default : Json K) :
    v.orElse default = v := if_pos h

lemma orElse_of_falsy {v : Json K} (h : v.truthy = false) (default : Json K) :
    v.orElse default = default := if_neg (by simp [h])

end Json

end TokenFoundry
