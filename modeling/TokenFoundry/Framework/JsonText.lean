import TokenFoundry.Framework.PyValues
import Mathlib.Data.List.Induction

/-!
# JSON texts

`json.dumps` and `json.loads` of Python.  A writer is compact or not, and escapes all characters
beyond ASCII or none.  How a float is written and read is a parameter, `FloatText`, with the one
property that the interpreter promises: a float that is written is read back.

`loads_dumps` says that a value is read back from its text.  A lone surrogate, which a text here
cannot hold, is read as U+FFFD; the limits of the interpreter on the depth of a document and on the
digits of an integer are left out.
-/

set_option autoImplicit false

namespace TokenFoundry
namespace JsonText

/-! ## Numbers -/

def isDigit (c : Char) : Bool := c.isDigit

/-- The characters of which numbers are made; a number ends with the last of them. -/
def isNumeric (c : Char) : Bool :=
  c.isDigit || c == '-' || c == '+' || c == '.' || c == 'e' || c == 'E'

/-- The digits of an integer; a zero in front stands alone. -/
def isInteger (ds : List Char) : Bool :=
  ! ds.isEmpty && ds.all isDigit && (ds.head? != some '0' || ds.length == 1)

/-- Nothing, or an exponent: the letter, a sign that may be left out, and at least one digit. -/
def isExponent : List Char → Bool
  | [] => true
  | c :: cs =>
      (c == 'e' || c == 'E') &&
      let ds := match cs with
        | '+' :: ds => ds
        | '-' :: ds => ds
        | ds => ds
      ! ds.isEmpty && ds.all isDigit

/-- Nothing, a fraction, an exponent, or both, in this order. -/
def isFraction : List Char → Bool
  | '.' :: cs => ! (cs.takeWhile isDigit).isEmpty && isExponent (cs.dropWhile isDigit)
  | cs => isExponent cs

/-- A number, as the scanner of `json` finds it: the value of an integer, and of a float only that
it is one. -/
inductive Number
  | int (n : ℤ)
  | float

/-- A number without its sign: an integer part, which has no leading zero, and what may follow
it. -/
def magnitude (cs : List Char) : Option Number :=
  let ds := cs.takeWhile isDigit
  let rest := cs.dropWhile isDigit
  if isInteger ds then
    if rest.isEmpty then some (.int (Nat.ofDigitChars 10 ds 0))
    else if isFraction rest then some .float else none
  else none

/-- A number with its sign, which only a minus can be. -/
def number : List Char → Option Number
  | '-' :: cs =>
      match magnitude cs with
      | some (.int n) => some (.int (-n))
      | r => r
  | cs => magnitude cs

/-- The names of the floats that are not finite; `json` reads them, although they are no JSON. -/
def notFinite : List (List Char) := ["NaN".toList, "Infinity".toList, "-Infinity".toList]

/-- A token that is read as a float: the name of one that is not finite, or a number with a fraction
or an exponent. -/
def IsFloat (t : List Char) : Prop :=
  t ∈ notFinite ∨ t.all isNumeric = true ∧ number t = some .float

/-- How floats are written (`float.__repr__`) and read (`float`).  A float is written as a token
that is read as a float, and reading it gives the float back. -/
structure FloatText (K : Type) where
  repr : K → List Char
  parse : List Char → K
  isFloat : ∀ x, IsFloat (repr x)
  parse_repr : ∀ x, parse (repr x) = x

/-- The decimal digits of an integer, with its sign in front. -/
def intText : ℤ → List Char
  | .ofNat n => Nat.toDigits 10 n
  | .negSucc n => '-' :: Nat.toDigits 10 (n + 1)

/-! ## Strings -/

def hexDigit (n : ℕ) : Char := if n < 10 then Char.ofNat (48 + n) else Char.ofNat (87 + n)

def hexValue (c : Char) : Option ℕ :=
  if '0' ≤ c ∧ c ≤ '9' then some (c.toNat - 48)
  else if 'a' ≤ c ∧ c ≤ 'f' then some (c.toNat - 87)
  else if 'A' ≤ c ∧ c ≤ 'F' then some (c.toNat - 55)
  else none

/-- `\uXXXX`: a code unit of four hexadecimal digits, in small letters. -/
def unicodeEscape (n : ℕ) : List Char :=
  ['\\', 'u', hexDigit (n / 4096 % 16), hexDigit (n / 256 % 16), hexDigit (n / 16 % 16),
    hexDigit (n % 16)]

/-- A character in a string; with `ascii`, no character beyond ASCII is written. -/
def escape (ascii : Bool) (c : Char) : List Char :=
  if c = '"' then ['\\', '"']
  else if c = '\\' then ['\\', '\\']
  else if c = '\n' then ['\\', 'n']
  else if c = '\r' then ['\\', 'r']
  else if c = '\t' then ['\\', 't']
  else if c.toNat = 8 then ['\\', 'b']
  else if c.toNat = 12 then ['\\', 'f']
  else if c.toNat < 32 then unicodeEscape c.toNat
  else if ascii && decide (126 < c.toNat) then
    if c.toNat < 0x10000 then unicodeEscape c.toNat
    else
      unicodeEscape (0xD800 + (c.toNat - 0x10000) / 0x400) ++
        unicodeEscape (0xDC00 + (c.toNat - 0x10000) % 0x400)
  else [c]

/-- A text between quotation marks, with each character that has to be escaped. -/
def quote (ascii : Bool) (s : String) : List Char :=
  '"' :: (s.toList.flatMap (escape ascii) ++ ['"'])

/-- The number of four hexadecimal digits, in letters of either case. -/
def hex4 (a b c d : Char) : Option ℕ := do
  return 4096 * (← hexValue a) + 256 * (← hexValue b) + 16 * (← hexValue c) + (← hexValue d)

/-- A lone code unit; a lone surrogate is no character, and stands here as the replacement
character. -/
def codeUnit (n : ℕ) : Char := if n.isValidChar then Char.ofNat n else Char.ofNat 0xFFFD

/-- The first half of a surrogate pair. -/
def isHigh (n : ℕ) : Bool := decide (0xD800 ≤ n ∧ n < 0xDC00)

/-- The second half of a surrogate pair. -/
def isLow (n : ℕ) : Bool := decide (0xDC00 ≤ n ∧ n < 0xE000)

/-- What the character after a backslash stands for, where that is one character. -/
def simpleEscape : Char → Option Char
  | '"' => some '"'
  | '\\' => some '\\'
  | '/' => some '/'
  | 'b' => some (Char.ofNat 8)
  | 'f' => some (Char.ofNat 12)
  | 'n' => some '\n'
  | 'r' => some '\r'
  | 't' => some '\t'
  | _ => none

/-- A string after its opening quote, with what stands after its closing one. -/
def stringBody : List Char → Option (List Char × List Char)
  | [] => none
  | '"' :: cs => some ([], cs)
  | '\\' :: 'u' :: a :: b :: c :: d :: '\\' :: 'u' :: e :: f :: g :: h :: cs =>
      match hex4 a b c d, hex4 e f g h with
      | none, _ => none
      | some n, low =>
          if isHigh n && low.any isLow then
            (stringBody cs).map (fun r =>
              (Char.ofNat (0x10000 + (n - 0xD800) * 0x400 + (low.getD 0 - 0xDC00)) :: r.1, r.2))
          else
            (stringBody ('\\' :: 'u' :: e :: f :: g :: h :: cs)).map (fun r =>
              (codeUnit n :: r.1, r.2))
  | '\\' :: 'u' :: a :: b :: c :: d :: cs =>
      match hex4 a b c d with
      | none => none
      | some n => (stringBody cs).map (fun r => (codeUnit n :: r.1, r.2))
  | '\\' :: c :: cs =>
      match simpleEscape c with
      | none => none
      | some c => (stringBody cs).map (fun r => (c :: r.1, r.2))
  | c :: cs =>
      if c = '\\' ∨ c.toNat < 32 then none
      else (stringBody cs).map (fun r => (c :: r.1, r.2))

/-! ## Writing -/

/-- The form of a text: which separators it has, and whether all of its characters are ASCII. -/
structure Style where
  /-- `separators=(",", ":")`. -/
  compact : Bool
  /-- `ensure_ascii`. -/
  ascii : Bool

def Style.comma (st : Style) : List Char := if st.compact then [','] else [',', ' ']

def Style.colon (st : Style) : List Char := if st.compact then [':'] else [':', ' ']

section Values

variable {K : Type} (ft : FloatText K) (st : Style)

mutual

/-- `json.dumps`, by recursion on the document; the entries of a dictionary come in their order. -/
def dumps : Json K → List Char
  | .null => "null".toList
  | .bool true => "true".toList
  | .bool false => "false".toList
  | .int n => intText n
  | .float x => ft.repr x
  | .str s => quote st.ascii s
  | .list xs => '[' :: (dumpsItems xs ++ [']'])
  | .dict fields => '{' :: (dumpsFields fields ++ ['}'])

def dumpsItems : List (Json K) → List Char
  | [] => []
  | [x] => dumps x
  | x :: y :: xs => dumps x ++ (st.comma ++ dumpsItems (y :: xs))

def dumpsFields : List (String × Json K) → List Char
  | [] => []
  | [(k, v)] => quote st.ascii k ++ (st.colon ++ dumps v)
  | (k, v) :: e :: fields =>
      quote st.ascii k ++ (st.colon ++ (dumps v ++ (st.comma ++ dumpsFields (e :: fields))))

end

/-! ## Reading -/

/-- The white space that may stand between tokens. -/
def isBlank (c : Char) : Bool := c == ' ' || c == '\t' || c == '\n' || c == '\r'

def skipBlanks (cs : List Char) : List Char := cs.dropWhile isBlank

/-- What stands after a word, if the text begins with it. -/
def after (word cs : List Char) : Option (List Char) :=
  if word <+: cs then some (cs.drop word.length) else none

/-- A value that is neither a string, nor a list, nor a dictionary. -/
def scalar (cs : List Char) : Option (Json K × List Char) :=
  match after "null".toList cs, after "true".toList cs, after "false".toList cs with
  | some cs, _, _ => some (.null, cs)
  | _, some cs, _ => some (.bool true, cs)
  | _, _, some cs => some (.bool false, cs)
  | none, none, none =>
      match notFinite.find? (fun t => decide (t <+: cs)) with
      | some t => some (.float (ft.parse t), cs.drop t.length)
      | none =>
          let t := cs.takeWhile isNumeric
          match number t with
          | some (.int n) => some (.int n, cs.dropWhile isNumeric)
          | some .float => some (.float (ft.parse t), cs.dropWhile isNumeric)
          | none => none

/-- `dict(pairs)`: the last value of a key counts, at the place of the first. -/
def dictOf (pairs : List (String × Json K)) : Dict K :=
  pairs.foldl (fun d e => Json.setItem d e.1 e.2) []

mutual

/-- A value at the head of a text, and what stands after it.  The first argument bounds the depth of
the recursion; `loads` gives it enough for any text. -/
def value : ℕ → List Char → Option (Json K × List Char)
  | 0, _ => none
  | n + 1, cs =>
      match cs with
      | '"' :: cs => (stringBody cs).map (fun r => (.str (String.ofList r.1), r.2))
      | '[' :: cs =>
          match skipBlanks cs with
          | ']' :: cs => some (.list [], cs)
          | cs => (items n cs).map (fun r => (.list r.1, r.2))
      | '{' :: cs =>
          match skipBlanks cs with
          | '}' :: cs => some (.dict [], cs)
          | cs => (pairs n cs).map (fun r => (.dict (dictOf r.1), r.2))
      | cs => scalar ft cs

/-- The items of a list that is not empty, and its bracket. -/
def items : ℕ → List Char → Option (List (Json K) × List Char)
  | 0, _ => none
  | n + 1, cs =>
      match value n cs with
      | none => none
      | some (v, cs) =>
          match skipBlanks cs with
          | ']' :: cs => some ([v], cs)
          | ',' :: cs => (items n (skipBlanks cs)).map (fun r => (v :: r.1, r.2))
          | _ => none

/-- The pairs of a dictionary that is not empty, and its brace. -/
def pairs : ℕ → List Char → Option (List (String × Json K) × List Char)
  | 0, _ => none
  | n + 1, cs =>
      match cs with
      | '"' :: cs =>
          match stringBody cs with
          | none => none
          | some (k, cs) =>
              match skipBlanks cs with
              | ':' :: cs =>
                  match value n (skipBlanks cs) with
                  | none => none
                  | some (v, cs) =>
                      match skipBlanks cs with
                      | '}' :: cs => some ([(String.ofList k, v)], cs)
                      | ',' :: cs =>
                          (pairs n (skipBlanks cs)).map
                            (fun r => ((String.ofList k, v) :: r.1, r.2))
                      | _ => none
              | _ => none
      | _ => none

end

/-- `json.loads`; `none` where it raises `JSONDecodeError`.  Of two calls in a row, one takes a
character away. -/
def loads (text : List Char) : Option (Json K) :=
  match value ft (2 * text.length + 2) (skipBlanks text) with
  | some (v, rest) => if skipBlanks rest = [] then some v else none
  | none => none

end Values

/-! ## Strings are read back -/

section Strings

lemma hexValue_hexDigit : ∀ n < 16, hexValue (hexDigit n) = some n := by decide

lemma hex4_digits {n : ℕ} (h : n < 0x10000) :
    hex4 (hexDigit (n / 4096 % 16)) (hexDigit (n / 256 % 16)) (hexDigit (n / 16 % 16))
      (hexDigit (n % 16)) = some n := by
  have hdigit : ∀ m, hexValue (hexDigit (m % 16)) = some (m % 16) :=
    fun m => hexValue_hexDigit _ (Nat.mod_lt _ (by decide))
  simp only [hex4, hdigit, Option.bind_eq_bind, Option.bind_some, Option.pure_def,
    Option.some.injEq]
  omega

/-- A code unit that is no high surrogate stands for itself. -/
lemma stringBody_unit {a b c d : Char} {n : ℕ} (h : hex4 a b c d = some n) (hn : isHigh n = false)
    (cs : List Char) : stringBody ('\\' :: 'u' :: a :: b :: c :: d :: cs) =
      (stringBody cs).map (fun r => (codeUnit n :: r.1, r.2)) := by
  rw [stringBody.eq_def]
  split
  case h_5 hother heq =>
    injection heq with _ heq
    injection heq with hu heq
    exact absurd heq.symm (hother _ _ _ _ _ hu.symm)
  case h_6 hother heq =>
    injection heq with hb heq
    exact absurd heq.symm (hother _ _ hb.symm)
  all_goals simp_all

lemma stringBody_pair {a b c d e f g i : Char} {n m : ℕ} (h : hex4 a b c d = some n)
    (h' : hex4 e f g i = some m) (hn : isHigh n = true) (hm : isLow m = true) (cs : List Char) :
    stringBody ('\\' :: 'u' :: a :: b :: c :: d :: '\\' :: 'u' :: e :: f :: g :: i :: cs) =
      (stringBody cs).map (fun r =>
        (Char.ofNat (0x10000 + (n - 0xD800) * 0x400 + (m - 0xDC00)) :: r.1, r.2)) := by
  rw [stringBody.eq_def]
  simp [h, h', hn, hm]

lemma stringBody_plain {c : Char} (hq : c ≠ '"') (hb : c ≠ '\\') (hc : ¬ c.toNat < 32)
    (cs : List Char) : stringBody (c :: cs) = (stringBody cs).map (fun r => (c :: r.1, r.2)) := by
  rw [stringBody.eq_def]
  split <;> simp_all

lemma codeUnit_toNat (c : Char) : codeUnit c.toNat = c := by
  have h : c.toNat.isValidChar := c.valid
  rw [codeUnit, if_pos h]
  exact Char.ofNat_toNat c

/-- A code unit of a character is no surrogate, so that an escaped character is read alone. -/
lemma isHigh_toNat (c : Char) : isHigh c.toNat = false := by
  have h : c.toNat.isValidChar := c.valid
  rw [isHigh, decide_eq_false_iff_not]
  rcases h with h | h <;> omega

lemma stringBody_unicode {c : Char} (h : c.toNat < 0x10000) (cs : List Char) :
    stringBody (unicodeEscape c.toNat ++ cs) = (stringBody cs).map (fun r => (c :: r.1, r.2)) := by
  simpa [unicodeEscape, codeUnit_toNat] using stringBody_unit (hex4_digits h) (isHigh_toNat c) cs

/-- A character beyond the basic plane is written as two surrogates. -/
lemma stringBody_surrogates {c : Char} (h : 0x10000 ≤ c.toNat) (cs : List Char) :
    stringBody (unicodeEscape (0xD800 + (c.toNat - 0x10000) / 0x400) ++
      unicodeEscape (0xDC00 + (c.toNat - 0x10000) % 0x400) ++ cs) =
      (stringBody cs).map (fun r => (c :: r.1, r.2)) := by
  have hvalid : c.toNat.isValidChar := c.valid
  have hlt : c.toNat < 0x110000 := by rcases hvalid with h | h <;> omega
  have hhigh : isHigh (0xD800 + (c.toNat - 0x10000) / 0x400) = true := by
    rw [isHigh, decide_eq_true_eq]; omega
  have hlow : isLow (0xDC00 + (c.toNat - 0x10000) % 0x400) = true := by
    rw [isLow, decide_eq_true_eq]; omega
  have hsum : 0x10000 + (0xD800 + (c.toNat - 0x10000) / 0x400 - 0xD800) * 0x400 +
      (0xDC00 + (c.toNat - 0x10000) % 0x400 - 0xDC00) = c.toNat := by omega
  have := stringBody_pair (hex4_digits (n := 0xD800 + (c.toNat - 0x10000) / 0x400) (by omega))
    (hex4_digits (n := 0xDC00 + (c.toNat - 0x10000) % 0x400) (by omega)) hhigh hlow cs
  rw [hsum, Char.ofNat_toNat] at this
  simpa [unicodeEscape] using this

lemma stringBody_escape (ascii : Bool) (c : Char) (cs : List Char) :
    stringBody (escape ascii c ++ cs) = (stringBody cs).map (fun r => (c :: r.1, r.2)) := by
  unfold escape
  split_ifs with hq hb hn hr ht h8 h12 hctl hascii hbmp
  · subst hq; simp [stringBody, simpleEscape]
  · subst hb; simp [stringBody, simpleEscape]
  · subst hn; simp [stringBody, simpleEscape]
  · subst hr; simp [stringBody, simpleEscape]
  · subst ht; simp [stringBody, simpleEscape]
  · rw [← Char.ofNat_toNat c, h8]; simp [stringBody, simpleEscape]
  · rw [← Char.ofNat_toNat c, h12]; simp [stringBody, simpleEscape]
  · exact stringBody_unicode (by omega) cs
  · exact stringBody_unicode hbmp cs
  · exact stringBody_surrogates (by omega) cs
  · exact stringBody_plain hq hb hctl cs

/-- A string is read back, with what stands after it.  The induction is on its characters, each of
which is escaped in its own way. -/
lemma stringBody_quote (ascii : Bool) (s rest : List Char) :
    stringBody (s.flatMap (escape ascii) ++ '"' :: rest) = some (s, rest) := by
  induction s with
  | nil => simp [stringBody]
  | cons c s ih =>
      rw [List.flatMap_cons, List.append_assoc, stringBody_escape, ih]
      rfl

end Strings

/-! ## Numbers are read back -/

section Numbers

lemma toDigits_digit {n : ℕ} {c : Char} (h : c ∈ Nat.toDigits 10 n) : c.isDigit = true :=
  Nat.isDigit_of_mem_toDigits (by decide) (by decide) h

/-- Only zero begins with a zero: an integer has no leading zeros. -/
lemma head_toDigits {n : ℕ} (h : (Nat.toDigits 10 n).head? = some '0') : n = 0 := by
  induction n using Nat.strong_induction_on with
  | _ n ih =>
      by_cases hlt : n < 10
      · have hsmall : ∀ m < 10, (Nat.toDigits 10 m).head? = some '0' → m = 0 := by decide
        exact hsmall n hlt h
      · rw [Nat.toDigits_of_base_le (by decide) (by omega)] at h
        obtain ⟨c, cs, hcs⟩ :=
          List.exists_cons_of_ne_nil (Nat.toDigits_ne_nil (b := 10) (n := n / 10))
        rw [hcs, List.cons_append, List.head?_cons] at h
        have := ih (n / 10) (by omega) (by rw [hcs]; exact h)
        omega

lemma isInteger_toDigits (n : ℕ) : isInteger (Nat.toDigits 10 n) = true := by
  have hall : (Nat.toDigits 10 n).all isDigit = true :=
    List.all_eq_true.2 (fun _ h => toDigits_digit h)
  have hne : Nat.toDigits 10 n ≠ [] := Nat.toDigits_ne_nil
  rw [isInteger, hall]
  by_cases h : (Nat.toDigits 10 n).head? = some '0'
  · rw [head_toDigits h]; decide
  · simp [h, hne]

lemma magnitude_toDigits (n : ℕ) : magnitude (Nat.toDigits 10 n) = some (.int n) := by
  have hall : ∀ c ∈ Nat.toDigits 10 n, isDigit c = true := fun _ h => toDigits_digit h
  have htake : (Nat.toDigits 10 n ++ []).takeWhile isDigit = _ := List.takeWhile_append_of_pos hall
  have hdrop : (Nat.toDigits 10 n ++ []).dropWhile isDigit = _ := List.dropWhile_append_of_pos hall
  simp only [List.append_nil, List.takeWhile_nil, List.dropWhile_nil] at htake hdrop
  simp [magnitude, htake, hdrop, isInteger_toDigits]

lemma number_intText (n : ℤ) : number (intText n) = some (.int n) := by
  cases n with
  | ofNat n =>
      have hhead : ∀ cs, Nat.toDigits 10 n ≠ '-' :: cs := fun cs h => by
        have := toDigits_digit (n := n) (c := '-') (by rw [h]; exact List.mem_cons_self)
        revert this; decide
      rw [intText, number.eq_def]
      split
      · exact absurd ‹_› (hhead _)
      · exact magnitude_toDigits n
  | negSucc n =>
      rw [intText, number, magnitude_toDigits]
      rfl

lemma intText_numeric (n : ℤ) : (intText n).all isNumeric = true := by
  have hdigits : ∀ m, (Nat.toDigits 10 m).all isNumeric = true := fun m =>
    List.all_eq_true.2 (fun _ h => by simp [isNumeric, toDigits_digit h])
  cases n with
  | ofNat n => exact hdigits n
  | negSucc n => rw [intText, List.all_cons, hdigits]; rfl

end Numbers

/-! ## Values are read back -/

section RoundTrip

variable {K : Type} (ft : FloatText K) (st : Style)

mutual

/-- No dictionary in the value has a key twice, as is the case of every document that Python
holds. -/
def Unique : Json K → Prop
  | .list xs => UniqueItems xs
  | .dict fields => (fields.map Prod.fst).Nodup ∧ UniqueFields fields
  | _ => True

def UniqueItems : List (Json K) → Prop
  | [] => True
  | x :: xs => Unique x ∧ UniqueItems xs

def UniqueFields : List (String × Json K) → Prop
  | [] => True
  | e :: fields => Unique e.2 ∧ UniqueFields fields

end

/-- What may stand after a value, so that a number ends there: nothing, a comma, or a closing
bracket. -/
def Ends (rest : List Char) : Prop := ∀ c ∈ rest.head?, c = ',' ∨ c = ']' ∨ c = '}'

lemma Ends.not_numeric {rest : List Char} (h : Ends rest) : ∀ c ∈ rest.head?,
    isNumeric c = false := by
  intro c hc
  rcases h c hc with rfl | rfl | rfl <;> decide

/-- The head of a value that is neither a string, nor a list, nor a dictionary. -/
def IsScalarHead (c : Char) : Prop := isNumeric c = true ∨ c ∈ ['n', 't', 'f', 'N', 'I']

lemma number_nil : number [] = none := by decide

lemma IsFloat.head {t : List Char} (h : IsFloat t) : ∃ c cs, t = c :: cs ∧ IsScalarHead c := by
  rcases h with h | ⟨hall, hnum⟩
  · simp only [notFinite, List.mem_cons, List.not_mem_nil, or_false] at h
    rcases h with rfl | rfl | rfl
    · exact ⟨'N', _, rfl, Or.inr (by decide)⟩
    · exact ⟨'I', _, rfl, Or.inr (by decide)⟩
    · exact ⟨'-', _, rfl, Or.inl (by decide)⟩
  · cases t with
    | nil => rw [number_nil] at hnum; cases hnum
    | cons c cs =>
        rw [List.all_cons, Bool.and_eq_true] at hall
        exact ⟨c, cs, rfl, Or.inl hall.1⟩

lemma intText_head (n : ℤ) : ∃ c cs, intText n = c :: cs ∧ IsScalarHead c := by
  have hall := intText_numeric n
  have hnum := number_intText n
  cases h : intText n with
  | nil => rw [h, number_nil] at hnum; cases hnum
  | cons c cs =>
      rw [h, List.all_cons, Bool.and_eq_true] at hall
      exact ⟨c, cs, rfl, Or.inl hall.1⟩

lemma value_scalar {c : Char} (h : IsScalarHead c) (n : ℕ) (cs : List Char) :
    value ft (n + 1) (c :: cs) = scalar ft (c :: cs) := by
  have hq : c ≠ '"' ∧ c ≠ '[' ∧ c ≠ '{' := by
    refine ⟨?_, ?_, ?_⟩ <;>
      · rintro rfl
        revert h
        unfold IsScalarHead
        decide
  rw [value.eq_def]
  simp [hq]

/-- The head of a text that is no blank and closes nothing. -/
def Opens (c : Char) : Prop := isBlank c = false ∧ c ≠ ']' ∧ c ≠ '}'

lemma IsScalarHead.opens {c : Char} (h : IsScalarHead c) : Opens c := by
  refine ⟨?_, ?_, ?_⟩
  · by_contra hb
    simp only [isBlank, Bool.not_eq_false, Bool.or_eq_true, beq_iff_eq] at hb
    rcases hb with ((rfl | rfl) | rfl) | rfl <;> revert h <;> unfold IsScalarHead <;> decide
  · rintro rfl
    revert h; unfold IsScalarHead; decide
  · rintro rfl
    revert h; unfold IsScalarHead; decide

/-- A text begins with the first character of a token, so that a reader skips nothing in front of
it. -/
lemma dumps_head (v : Json K) : ∃ c cs, dumps ft st v = c :: cs ∧ Opens c := by
  cases v with
  | null => exact ⟨'n', _, rfl, by unfold Opens; decide⟩
  | bool b => cases b <;> exact ⟨_, _, rfl, by unfold Opens; decide⟩
  | int n =>
      obtain ⟨c, cs, h, hc⟩ := intText_head n
      exact ⟨c, cs, by rw [dumps, h], hc.opens⟩
  | float x =>
      obtain ⟨c, cs, h, hc⟩ := (ft.isFloat x).head
      exact ⟨c, cs, by rw [dumps, h], hc.opens⟩
  | str s => exact ⟨'"', _, rfl, by unfold Opens; decide⟩
  | list xs => exact ⟨'[', _, rfl, by unfold Opens; decide⟩
  | dict fields => exact ⟨'{', _, rfl, by unfold Opens; decide⟩

lemma takeWhile_numeric {t rest : List Char} (ht : t.all isNumeric = true) (hr : Ends rest) :
    (t ++ rest).takeWhile isNumeric = t ∧ (t ++ rest).dropWhile isNumeric = rest := by
  have hall : ∀ c ∈ t, isNumeric c = true := List.all_eq_true.1 ht
  have hrest : rest.takeWhile isNumeric = [] ∧ rest.dropWhile isNumeric = rest := by
    cases rest with
    | nil => exact ⟨rfl, rfl⟩
    | cons c cs =>
        have hc := hr.not_numeric c rfl
        exact ⟨by simp [hc], by simp [hc]⟩
  rw [List.takeWhile_append_of_pos hall, List.dropWhile_append_of_pos hall, hrest.1, hrest.2]
  exact ⟨List.append_nil t, rfl⟩

lemma after_none {c w : Char} (h : w ≠ c) (ws cs : List Char) :
    after (w :: ws) (c :: cs) = none := by
  simp [after, h]

/-- A number is read to its end: the characters that follow it are no part of it. -/
lemma scalar_numeric {t rest : List Char} (ht : t.all isNumeric = true)
    (hnum : number t ≠ none) (hr : Ends rest) :
    scalar ft (t ++ rest) = (number t).map (fun
      | .int n => (.int n, rest)
      | .float => (.float (ft.parse t), rest)) := by
  obtain ⟨htake, hdrop⟩ := takeWhile_numeric ht hr
  -- The only word that is not finite and begins as a number may is `-Infinity`, and its minus would
  -- be all of the number.
  have hminus : ¬ "-Infinity".toList <+: t ++ rest := by
    rintro ⟨tail, h⟩
    rw [← h] at htake
    have hshort : t = ['-'] := htake.symm
    exact hnum (by rw [hshort]; decide)
  cases t with
  | nil => exact absurd number_nil hnum
  | cons c t =>
      have hc : isNumeric c = true := by
        rw [List.all_cons, Bool.and_eq_true] at ht
        exact ht.1
      have hword : ∀ w, isNumeric w = false → w ≠ c := by
        rintro w hw rfl
        rw [hw] at hc
        cases hc
      have hnone : notFinite.find? (fun w => decide (w <+: c :: t ++ rest)) = none := by
        rw [List.find?_eq_none]
        intro w hw
        simp only [notFinite, List.mem_cons, List.not_mem_nil, or_false] at hw
        rcases hw with rfl | rfl | rfl
        · simp [hword 'N' (by decide)]
        · simp [hword 'I' (by decide)]
        · simpa using hminus
      have hn : after "null".toList (c :: t ++ rest) = none :=
        after_none (hword 'n' (by decide)) _ _
      have ht : after "true".toList (c :: t ++ rest) = none :=
        after_none (hword 't' (by decide)) _ _
      have hf : after "false".toList (c :: t ++ rest) = none :=
        after_none (hword 'f' (by decide)) _ _
      rw [scalar, hn, ht, hf]
      simp only [hnone, htake, hdrop]
      cases number (c :: t) with
      | none => rfl
      | some r => cases r <;> rfl

/-- A name at the head of a text, which is none of the words. -/
lemma scalar_of_find {c : Char} {cs t : List Char} (hn : 'n' ≠ c) (ht : 't' ≠ c) (hf : 'f' ≠ c)
    (hfind : notFinite.find? (fun w => decide (w <+: c :: cs)) = some t) :
    scalar ft (c :: cs) = some (.float (ft.parse t), (c :: cs).drop t.length) := by
  have hnull : after "null".toList (c :: cs) = none := after_none hn _ _
  have htrue : after "true".toList (c :: cs) = none := after_none ht _ _
  have hfalse : after "false".toList (c :: cs) = none := after_none hf _ _
  rw [scalar, hnull, htrue, hfalse]
  simp only [hfind]

lemma notFinite_eq : notFinite = [['N', 'a', 'N'], ['I', 'n', 'f', 'i', 'n', 'i', 't', 'y'],
    ['-', 'I', 'n', 'f', 'i', 'n', 'i', 't', 'y']] := by decide

/-- A token that is read as a float is read to its end. -/
lemma scalar_float {t rest : List Char} (h : IsFloat t) (hr : Ends rest) :
    scalar ft (t ++ rest) = some (.float (ft.parse t), rest) := by
  rcases h with h | ⟨hall, hnum⟩
  · have hfind : notFinite.find? (fun w => decide (w <+: t ++ rest)) = some t := by
      rw [notFinite_eq] at h ⊢
      simp only [List.mem_cons, List.not_mem_nil, or_false] at h
      rcases h with rfl | rfl | rfl <;> simp
    obtain ⟨c, cs, rfl, hc⟩ : ∃ c cs, t = c :: cs ∧ c ∈ ['N', 'I', '-'] := by
      rw [notFinite_eq] at h
      simp only [List.mem_cons, List.not_mem_nil, or_false] at h
      rcases h with rfl | rfl | rfl
      · exact ⟨_, _, rfl, by decide⟩
      · exact ⟨_, _, rfl, by decide⟩
      · exact ⟨_, _, rfl, by decide⟩
    have hword : ∀ c ∈ ['N', 'I', '-'], ∀ w ∈ ['n', 't', 'f'], w ≠ c := by simp
    rw [List.cons_append] at hfind ⊢
    rw [scalar_of_find ft (hword c hc 'n' (by decide)) (hword c hc 't' (by decide))
      (hword c hc 'f' (by decide)) hfind, ← List.cons_append, List.drop_left]
  · rw [scalar_numeric ft hall (by rw [hnum]; nofun) hr, hnum]
    rfl

lemma scalar_int (n : ℤ) {rest : List Char} (hr : Ends rest) :
    scalar ft (intText n ++ rest) = some (.int n, rest) := by
  rw [scalar_numeric ft (intText_numeric n) (by rw [number_intText]; nofun) hr, number_intText]
  rfl

lemma scalar_word (rest : List Char) :
    scalar ft ("null".toList ++ rest) = some (.null, rest) ∧
      scalar ft ("true".toList ++ rest) = some (.bool true, rest) ∧
        scalar ft ("false".toList ++ rest) = some (.bool false, rest) := by
  refine ⟨?_, ?_, ?_⟩ <;> simp [scalar, after]

/-- Distinct keys keep their order, and no entry is overwritten by a later one. -/
lemma dictOf_unique {fields : List (String × Json K)} (h : (fields.map Prod.fst).Nodup) :
    dictOf fields = fields := by
  induction fields using List.reverseRecOn with
  | nil => rfl
  | append_singleton fields e ih =>
      rw [List.map_append, List.nodup_append] at h
      obtain ⟨hfields, -, hnew⟩ := h
      have hhas : Json.has fields e.1 = false := by
        rw [Json.has, Option.isSome_eq_false_iff, Option.isNone_iff_eq_none,
          List.lookup_eq_none_iff]
        intro f hf
        simpa using fun h : e.1 = f.1 => hnew f.1 (List.mem_map_of_mem hf) e.1 (by simp) h.symm
      rw [dictOf, List.foldl_append]
      change Json.setItem (dictOf fields) e.1 e.2 = _
      rw [ih hfields, Json.setItem, hhas]
      rfl

/-- A text that begins with a token and not with white space. -/
def Begins (cs : List Char) : Prop := ∃ c cs', cs = c :: cs' ∧ Opens c

lemma Begins.skipBlanks {cs : List Char} (h : Begins cs) : skipBlanks cs = cs := by
  obtain ⟨c, cs, rfl, hc⟩ := h
  rw [JsonText.skipBlanks, List.dropWhile_cons_of_neg (by simp [hc.1])]

lemma begins_dumps (v : Json K) (rest : List Char) : Begins (dumps ft st v ++ rest) := by
  obtain ⟨c, cs, h, hc⟩ := dumps_head ft st v
  exact ⟨c, cs ++ rest, by rw [h, List.cons_append], hc⟩

lemma begins_dumpsItems (x : Json K) (xs : List (Json K)) (rest : List Char) :
    Begins (dumpsItems ft st (x :: xs) ++ rest) := by
  cases xs with
  | nil => exact begins_dumps ft st x rest
  | cons y xs =>
      rw [dumpsItems, List.append_assoc]
      exact begins_dumps ft st x _

lemma begins_dumpsFields (e : String × Json K) (fields : List (String × Json K))
    (rest : List Char) : Begins (dumpsFields ft st (e :: fields) ++ rest) := by
  refine ⟨'"', (dumpsFields ft st (e :: fields) ++ rest).tail, ?_, by unfold Opens; decide⟩
  cases fields <;> simp [dumpsFields, quote]

lemma value_list {cs : List Char} (h : Begins cs) (n : ℕ) :
    value ft (n + 1) ('[' :: cs) = (items ft n cs).map (fun r => (.list r.1, r.2)) := by
  rw [value, h.skipBlanks]
  obtain ⟨c, cs, rfl, hc⟩ := h
  simp [hc.2.1]

lemma value_dict {cs : List Char} (h : Begins cs) (n : ℕ) :
    value ft (n + 1) ('{' :: cs) = (pairs ft n cs).map (fun r => (.dict (dictOf r.1), r.2)) := by
  rw [value, h.skipBlanks]
  obtain ⟨c, cs, rfl, hc⟩ := h
  simp [hc.2.2]

/-- A separator and the blank that may follow it, as the reader skips them. -/
lemma comma_append {cs : List Char} (h : Begins cs) :
    ∃ cs', st.comma ++ cs = ',' :: cs' ∧ skipBlanks cs' = cs := by
  cases hc : st.compact with
  | true => exact ⟨cs, by simp [Style.comma, hc], h.skipBlanks⟩
  | false =>
      refine ⟨' ' :: cs, by simp [Style.comma, hc], ?_⟩
      rw [skipBlanks, List.dropWhile_cons_of_pos (by decide)]
      exact h.skipBlanks

lemma colon_append {cs : List Char} (h : Begins cs) :
    ∃ cs', st.colon ++ cs = ':' :: cs' ∧ skipBlanks cs' = cs := by
  cases hc : st.compact with
  | true => exact ⟨cs, by simp [Style.colon, hc], h.skipBlanks⟩
  | false =>
      refine ⟨' ' :: cs, by simp [Style.colon, hc], ?_⟩
      rw [skipBlanks, List.dropWhile_cons_of_pos (by decide)]
      exact h.skipBlanks

lemma skipBlanks_cons {c : Char} (h : isBlank c = false) (cs : List Char) :
    skipBlanks (c :: cs) = c :: cs := List.dropWhile_cons_of_neg (by simp [h])

lemma items_last {n : ℕ} {cs rest : List Char} {v : Json K}
    (h : value ft n cs = some (v, ']' :: rest)) : items ft (n + 1) cs = some ([v], rest) := by
  rw [items, h]
  dsimp only
  rw [skipBlanks_cons (by decide)]
  rfl

lemma items_next {n : ℕ} {cs cs' : List Char} {v : Json K}
    (h : value ft n cs = some (v, ',' :: cs')) :
    items ft (n + 1) cs = (items ft n (skipBlanks cs')).map (fun r => (v :: r.1, r.2)) := by
  rw [items, h]
  dsimp only
  rw [skipBlanks_cons (by decide)]
  rfl

/-- A pair and what follows it: the reader looks for another pair after a comma, and for none after
the bracket. -/
lemma pairs_key (k : String) {cs : List Char} (h : Begins cs) (n : ℕ) :
    pairs ft (n + 1) (quote st.ascii k ++ (st.colon ++ cs)) =
      match value ft n cs with
      | none => none
      | some (v, cs) =>
          match skipBlanks cs with
          | '}' :: cs => some ([(k, v)], cs)
          | ',' :: cs => (pairs ft n (skipBlanks cs)).map (fun r => ((k, v) :: r.1, r.2))
          | _ => none := by
  obtain ⟨cs', hcolon, hskip⟩ := colon_append st h
  rw [quote, List.cons_append, List.append_assoc, List.singleton_append, pairs, stringBody_quote,
    hcolon]
  dsimp only
  rw [skipBlanks_cons (by decide)]
  simp only [hskip, String.ofList_toList]

lemma one_le_comma : 1 ≤ st.comma.length := by
  unfold Style.comma
  split_ifs <;> simp

mutual

/-- A value is read back, with what stands after it; a unit of fuel is worth half a character. -/
theorem value_dumps : ∀ (v : Json K) (n : ℕ) (rest : List Char), Unique v → Ends rest →
    2 * (dumps ft st v).length ≤ n → value ft n (dumps ft st v ++ rest) = some (v, rest)
  -- Every text has a character, so that the fuel cannot be spent at its beginning.
  | v, 0, rest, _, _, hn => by
      obtain ⟨c, cs, h, -⟩ := dumps_head ft st v
      rw [h, List.length_cons] at hn
      omega
  | .null, n + 1, rest, _, hr, _ => by
      rw [dumps]
      exact (value_scalar ft (Or.inr (by decide)) n _).trans (scalar_word ft rest).1
  | .bool true, n + 1, rest, _, hr, _ => by
      rw [dumps]
      exact (value_scalar ft (Or.inr (by decide)) n _).trans (scalar_word ft rest).2.1
  | .bool false, n + 1, rest, _, hr, _ => by
      rw [dumps]
      exact (value_scalar ft (Or.inr (by decide)) n _).trans (scalar_word ft rest).2.2
  | .int i, n + 1, rest, _, hr, _ => by
      obtain ⟨c, cs, h, hc⟩ := intText_head i
      rw [dumps, ← scalar_int ft i hr, h, List.cons_append, value_scalar ft hc]
  | .float x, n + 1, rest, _, hr, _ => by
      obtain ⟨c, cs, h, hc⟩ := (ft.isFloat x).head
      have hread := scalar_float ft (ft.isFloat x) hr
      rw [ft.parse_repr] at hread
      rw [dumps, ← hread, h, List.cons_append, value_scalar ft hc]
  | .str s, n + 1, rest, _, _, _ => by
      rw [dumps, quote, List.cons_append, List.append_assoc, value]
      simp [stringBody_quote]
  | .list [], n + 1, rest, _, _, _ => by
      simp [dumps, dumpsItems, value, skipBlanks, isBlank]
  | .list (x :: xs), n + 1, rest, hv, _, hn => by
      rw [dumps, List.length_cons, List.length_append] at hn
      have hitems := items_dumps x xs n rest hv (by simp only [List.length_singleton] at hn; omega)
      rw [dumps, List.cons_append, List.append_assoc, List.singleton_append,
        value_list ft (begins_dumpsItems ft st x xs _), hitems]
      rfl
  | .dict [], n + 1, rest, _, _, _ => by
      simp [dumps, dumpsFields, value, skipBlanks, isBlank]
  | .dict ((k, v) :: fields), n + 1, rest, hv, _, hn => by
      rw [dumps, List.length_cons, List.length_append] at hn
      have hpairs := pairs_dumps k v fields n rest hv.2
        (by simp only [List.length_singleton] at hn; omega)
      rw [dumps, List.cons_append, List.append_assoc, List.singleton_append,
        value_dict ft (begins_dumpsFields ft st (k, v) fields _), hpairs]
      simp only [Option.map_some, dictOf_unique hv.1]

/-- The items of a list are read back, with what stands after the closing bracket. -/
theorem items_dumps : ∀ (x : Json K) (xs : List (Json K)) (n : ℕ) (rest : List Char),
    UniqueItems (x :: xs) → 2 * (dumpsItems ft st (x :: xs)).length + 1 ≤ n →
      items ft n (dumpsItems ft st (x :: xs) ++ ']' :: rest) = some (x :: xs, rest)
  | _, _, 0, _, _, hn => by omega
  | x, [], n + 1, rest, hv, hn => by
      rw [dumpsItems] at hn ⊢
      exact items_last ft (value_dumps x n _ hv.1 (by simp [Ends]) (by omega))
  | x, y :: xs, n + 1, rest, hv, hn => by
      rw [dumpsItems, List.length_append, List.length_append] at hn
      have hcomma := one_le_comma st
      have hrest := items_dumps y xs n rest hv.2 (by omega)
      obtain ⟨cs, hcs, hskip⟩ := comma_append st (begins_dumpsItems ft st y xs (']' :: rest))
      have hx := value_dumps x n (',' :: cs) hv.1 (by simp [Ends]) (by omega)
      rw [dumpsItems, List.append_assoc, List.append_assoc, hcs, items_next ft hx, hskip, hrest]
      rfl

/-- The entries of a dictionary are read back, with what stands after the closing bracket. -/
theorem pairs_dumps : ∀ (k : String) (v : Json K) (fields : List (String × Json K)) (n : ℕ)
    (rest : List Char), UniqueFields ((k, v) :: fields) →
      2 * (dumpsFields ft st ((k, v) :: fields)).length + 1 ≤ n →
        pairs ft n (dumpsFields ft st ((k, v) :: fields) ++ '}' :: rest) =
          some ((k, v) :: fields, rest)
  | _, _, _, 0, _, _, hn => by omega
  | k, v, [], n + 1, rest, hv, hn => by
      rw [dumpsFields, List.length_append, List.length_append] at hn
      rw [dumpsFields, List.append_assoc, List.append_assoc,
        pairs_key ft st k (begins_dumps ft st v _),
        value_dumps v n _ hv.1 (by simp [Ends]) (by omega)]
      dsimp only
      rw [skipBlanks_cons (by decide)]
      rfl
  | k, v, (k', v') :: fields, n + 1, rest, hv, hn => by
      rw [dumpsFields] at hn
      simp only [List.length_append] at hn
      have hcomma := one_le_comma st
      have hrest := pairs_dumps k' v' fields n rest hv.2 (by omega)
      obtain ⟨cs, hcs, hskip⟩ :=
        comma_append st (begins_dumpsFields ft st (k', v') fields ('}' :: rest))
      rw [dumpsFields]
      simp only [List.append_assoc]
      rw [hcs, pairs_key ft st k (begins_dumps ft st v _),
        value_dumps v n _ hv.1 (by simp [Ends]) (by omega)]
      dsimp only
      rw [skipBlanks_cons (by decide)]
      show (pairs ft n (skipBlanks cs)).map _ = _
      rw [hskip, hrest]
      rfl

end

/-- **What is written is read back.**  A document without repeated keys is the value of its text, in
either form of it. -/
theorem loads_dumps {v : Json K} (h : Unique v) : loads ft (dumps ft st v) = some v := by
  have hread := value_dumps ft st v (2 * (dumps ft st v).length + 2) [] h (by simp [Ends])
      (by omega)
  have hskip := (begins_dumps ft st v []).skipBlanks
  rw [List.append_nil] at hread hskip
  rw [loads, hskip, hread]
  rfl

/-! ## What is read has no key twice -/

lemma uniqueFields_iff (fields : List (String × Json K)) :
    UniqueFields fields ↔ ∀ e ∈ fields, Unique e.2 := by
  induction fields with
  | nil => simp [UniqueFields]
  | cons e fields ih => simp [UniqueFields, ih]

lemma uniqueItems_iff (xs : List (Json K)) : UniqueItems xs ↔ ∀ x ∈ xs, Unique x := by
  induction xs with
  | nil => simp [UniqueItems]
  | cons x xs ih => simp [UniqueItems, ih]

lemma unique_dict_iff (d : Dict K) :
    Unique (.dict d) ↔ (d.map Prod.fst).Nodup ∧ ∀ e ∈ d, Unique e.2 := by
  rw [Unique, uniqueFields_iff]

lemma nodup_setItem {d : Dict K} (h : (d.map Prod.fst).Nodup) (k : String) (v : Json K) :
    ((Json.setItem d k v).map Prod.fst).Nodup := by
  unfold Json.setItem
  split_ifs with hhas
  · have hsame : (d.map (fun e => if e.1 = k then (k, v) else e)).map Prod.fst =
      d.map Prod.fst := by
      rw [List.map_map]
      refine List.map_congr_left (fun e _ => ?_)
      by_cases hk : e.1 = k <;> simp [hk]
    rw [hsame]
    exact h
  · rw [List.map_append, List.nodup_append]
    refine ⟨h, by simp, ?_⟩
    rintro a ha b hb rfl
    have hb : a = k := by simpa using hb
    obtain ⟨e, he, rfl⟩ := List.mem_map.1 ha
    simp only [Json.has, Bool.not_eq_true, Option.isSome_eq_false_iff, Option.isNone_iff_eq_none,
      List.lookup_eq_none_iff] at hhas
    simpa [hb] using hhas e he

lemma unique_setItem {d : Dict K} (h : Unique (.dict d)) (k : String) {v : Json K}
    (hv : Unique v) : Unique (.dict (Json.setItem d k v)) := by
  rw [unique_dict_iff] at h ⊢
  refine ⟨nodup_setItem h.1 k v, ?_⟩
  intro e he
  unfold Json.setItem at he
  split_ifs at he with hhas
  · obtain ⟨f, hf, rfl⟩ := List.mem_map.1 he
    by_cases hk : f.1 = k
    · rw [if_pos hk]
      exact hv
    · rw [if_neg hk]
      exact h.2 f hf
  · rcases List.mem_append.1 he with he | he
    · exact h.2 e he
    · rw [List.mem_singleton.1 he]
      exact hv

lemma unique_dictOf {fields : List (String × Json K)} (h : ∀ e ∈ fields, Unique e.2) :
    Unique (.dict (dictOf fields)) := by
  induction fields using List.reverseRecOn with
  | nil => exact (unique_dict_iff []).2 ⟨List.nodup_nil, by simp⟩
  | append_singleton fields e ih =>
      have hfold : dictOf (fields ++ [e]) = Json.setItem (dictOf fields) e.1 e.2 := by
        rw [dictOf, List.foldl_append]
        rfl
      rw [hfold]
      exact unique_setItem (ih (fun f hf => h f (List.mem_append_left _ hf))) e.1
        (h e (by simp))

lemma unique_getD {d : Dict K} (h : Unique (.dict d)) (key : String) {default : Json K}
    (hdefault : Unique default) : Unique (Json.getD d key default) := by
  rw [Json.getD]
  cases hv : d.lookup key with
  | none => exact hdefault
  | some v =>
      obtain ⟨before, later, hd, -⟩ := List.lookup_eq_some_iff.1 hv
      have hmem : (key, v) ∈ d := by simp [hd]
      exact ((unique_dict_iff d).1 h).2 (key, v) hmem

lemma unique_orElse [PyFloat K] {v w : Json K} (hv : Unique v) (hw : Unique w) :
    Unique (v.orElse w) := by
  rw [Json.orElse]
  split_ifs
  · exact hv
  · exact hw

lemma unique_scalar {cs rest : List Char} {v : Json K} (h : scalar ft cs = some (v, rest)) :
    Unique v := by
  simp only [scalar] at h
  repeat' split at h
  all_goals cases h
  all_goals simp [Unique]

/-- With `n` units of fuel, what is read has no key twice. -/
def ReadsUnique (n : ℕ) : Prop :=
  (∀ cs v rest, value ft n cs = some (v, rest) → Unique v) ∧
    (∀ cs xs rest, items ft n cs = some (xs, rest) → UniqueItems xs) ∧
      ∀ cs fields rest, pairs ft n cs = some (fields, rest) → UniqueFields fields

lemma readsUnique_value {n : ℕ} (h : ReadsUnique ft n) (cs : List Char) (v : Json K)
    (rest : List Char) (hread : value ft (n + 1) cs = some (v, rest)) : Unique v := by
  simp only [value] at hread
  split at hread
  · obtain ⟨r, -, hr⟩ := Option.map_eq_some_iff.1 hread
    cases hr
    trivial
  · split at hread
    · cases hread
      trivial
    · obtain ⟨r, hitems, hr⟩ := Option.map_eq_some_iff.1 hread
      cases hr
      exact h.2.1 _ _ _ hitems
  · split at hread
    · cases hread
      exact (unique_dict_iff []).2 ⟨List.nodup_nil, by simp⟩
    · obtain ⟨r, hpairs, hr⟩ := Option.map_eq_some_iff.1 hread
      cases hr
      exact unique_dictOf ((uniqueFields_iff _).1 (h.2.2 _ _ _ hpairs))
  · exact unique_scalar ft hread

lemma readsUnique_items {n : ℕ} (h : ReadsUnique ft n) (cs : List Char) (xs : List (Json K))
    (rest : List Char) (hread : items ft (n + 1) cs = some (xs, rest)) : UniqueItems xs := by
  simp only [items] at hread
  split at hread
  · cases hread
  · next hvalue =>
      have hv := h.1 _ _ _ hvalue
      split at hread
      · cases hread
        exact ⟨hv, trivial⟩
      · obtain ⟨r, hitems, hr⟩ := Option.map_eq_some_iff.1 hread
        cases hr
        exact ⟨hv, h.2.1 _ _ _ hitems⟩
      · cases hread

lemma readsUnique_pairs {n : ℕ} (h : ReadsUnique ft n) (cs : List Char)
    (fields : List (String × Json K)) (rest : List Char)
    (hread : pairs ft (n + 1) cs = some (fields, rest)) : UniqueFields fields := by
  simp only [pairs] at hread
  split at hread
  · split at hread
    · cases hread
    · split at hread
      · split at hread
        · cases hread
        · next hvalue =>
            have hv := h.1 _ _ _ hvalue
            split at hread
            · cases hread
              exact ⟨hv, trivial⟩
            · obtain ⟨r, hpairs, hr⟩ := Option.map_eq_some_iff.1 hread
              cases hr
              exact ⟨hv, h.2.2 _ _ _ hpairs⟩
            · cases hread
      · cases hread
  · cases hread

lemma readsUnique (n : ℕ) : ReadsUnique ft n := by
  induction n with
  | zero => refine ⟨?_, ?_, ?_⟩ <;> intro _ _ _ h <;> cases h
  | succ n ih => exact ⟨readsUnique_value ft ih, readsUnique_items ft ih, readsUnique_pairs ft ih⟩

/-- What has been read has no repeated keys, since an entry of a dictionary replaces the one before
it. -/
theorem unique_loads {t : List Char} {v : Json K} (h : loads ft t = some v) : Unique v := by
  unfold loads at h
  split at h
  · next hread =>
      split_ifs at h
      cases h
      exact (readsUnique ft _).1 _ _ _ hread
  · cases h

end RoundTrip

section Printable

variable {K : Type} (ft : FloatText K) (st : Style)

/-- No control character, and so in particular no line break. -/
def Printable (t : List Char) : Prop := ∀ c ∈ t, ¬ c.toNat < 32

instance (t : List Char) : Decidable (Printable t) :=
  @List.decidableBAll Char (fun c => ¬ c.toNat < 32) (fun _ => inferInstance) t

lemma Printable.append {t t' : List Char} (h : Printable t) (h' : Printable t') :
    Printable (t ++ t') := by
  intro c hc
  rcases List.mem_append.1 hc with hc | hc
  · exact h c hc
  · exact h' c hc

lemma printable_of_numeric {t : List Char} (h : t.all isNumeric = true) : Printable t := by
  intro c hc hlt
  have hnum := List.all_eq_true.1 h c hc
  have hsmall : ∀ n < 32, isNumeric (Char.ofNat n) = false := by decide
  rw [← Char.ofNat_toNat c, hsmall _ hlt] at hnum
  cases hnum

lemma printable_hexDigit : ∀ n < 16, ¬ (hexDigit n).toNat < 32 := by decide

lemma printable_unicodeEscape (n : ℕ) : Printable (unicodeEscape n) := by
  have hdigit : ∀ m, ¬ (hexDigit (m % 16)).toNat < 32 :=
    fun m => printable_hexDigit _ (Nat.mod_lt _ (by decide))
  intro c hc
  simp only [unicodeEscape, List.mem_cons, List.not_mem_nil, or_false] at hc
  rcases hc with rfl | rfl | rfl | rfl | rfl | rfl
  · decide
  · decide
  all_goals exact hdigit _

lemma printable_escape (ascii : Bool) (c : Char) : Printable (escape ascii c) := by
  unfold escape
  split_ifs with hq hb hn hr ht h8 h12 hctl hascii hbmp
  · decide
  · decide
  · decide
  · decide
  · decide
  · decide
  · decide
  · exact printable_unicodeEscape _
  · exact printable_unicodeEscape _
  · exact (printable_unicodeEscape _).append (printable_unicodeEscape _)
  · simpa [Printable] using hctl

lemma printable_quote (ascii : Bool) (s : String) : Printable (quote ascii s) := by
  refine Printable.append (t := ['"']) (by decide) (Printable.append ?_ (by decide))
  intro c hc
  obtain ⟨x, -, hx⟩ := List.mem_flatMap.1 hc
  exact printable_escape ascii x c hx

lemma printable_comma : Printable st.comma := by
  unfold Style.comma
  split_ifs <;> decide

lemma printable_colon : Printable st.colon := by
  unfold Style.colon
  split_ifs <;> decide

mutual

/-- A text is one line: the control characters in it are escaped. -/
theorem printable_dumps : ∀ v : Json K, Printable (dumps ft st v)
  | .null => by rw [dumps]; decide
  | .bool true => by rw [dumps]; decide
  | .bool false => by rw [dumps]; decide
  | .int n => printable_of_numeric (intText_numeric n)
  | .float x => by
      rcases ft.isFloat x with h | h
      · have hnames : ∀ t ∈ notFinite, Printable t := by decide
        exact hnames _ h
      · exact printable_of_numeric h.1
  | .str s => printable_quote st.ascii s
  | .list xs => by
      rw [dumps]
      exact Printable.append (t := ['[']) (by decide)
        ((printable_dumpsItems xs).append (by decide))
  | .dict fields => by
      rw [dumps]
      exact Printable.append (t := ['{']) (by decide)
        ((printable_dumpsFields fields).append (by decide))

theorem printable_dumpsItems : ∀ xs : List (Json K), Printable (dumpsItems ft st xs)
  | [] => by rw [dumpsItems]; decide
  | [x] => printable_dumps x
  | x :: y :: xs => by
      rw [dumpsItems]
      exact (printable_dumps x).append
        ((printable_comma st).append (printable_dumpsItems (y :: xs)))

theorem printable_dumpsFields : ∀ fields : List (String × Json K),
    Printable (dumpsFields ft st fields)
  | [] => by rw [dumpsFields]; decide
  | [(k, v)] => by
      rw [dumpsFields]
      exact (printable_quote st.ascii k).append ((printable_colon st).append (printable_dumps v))
  | (k, v) :: e :: fields => by
      rw [dumpsFields]
      exact (printable_quote st.ascii k).append ((printable_colon st).append
        ((printable_dumps v).append
          ((printable_comma st).append (printable_dumpsFields (e :: fields)))))

end

end Printable

/-! ## Exact floats -/

lemma magnitude_fraction (n d : ℕ) :
    magnitude (Nat.toDigits 10 n ++ '.' :: Nat.toDigits 10 d) = some .float := by
  have hall : ∀ m, ∀ c ∈ Nat.toDigits 10 m, isDigit c = true := fun m _ h => toDigits_digit h
  have htake : (Nat.toDigits 10 d ++ []).takeWhile isDigit = _ :=
    List.takeWhile_append_of_pos (hall d)
  have hdrop : (Nat.toDigits 10 d ++ []).dropWhile isDigit = _ :=
    List.dropWhile_append_of_pos (hall d)
  have hdot : isDigit '.' = false := by decide
  simp only [List.append_nil, List.takeWhile_nil, List.dropWhile_nil] at htake hdrop
  rw [magnitude, List.takeWhile_append_of_pos (hall n), List.dropWhile_append_of_pos (hall n)]
  simp [hdot, isInteger_toDigits, isFraction, htake, hdrop, isExponent]

lemma number_fraction (n : ℤ) (d : ℕ) :
    number (intText n ++ '.' :: Nat.toDigits 10 d) = some .float := by
  cases n with
  | ofNat n =>
      obtain ⟨c, cs, hcs⟩ := List.exists_cons_of_ne_nil (Nat.toDigits_ne_nil (b := 10) (n := n))
      have hc : c ≠ '-' := by
        have hdigit := toDigits_digit (n := n) (c := c) (by rw [hcs]; exact List.mem_cons_self)
        rintro rfl
        revert hdigit
        decide
      have hmagnitude := magnitude_fraction n d
      rw [intText]
      rw [hcs, List.cons_append] at hmagnitude ⊢
      rw [number.eq_def]
      simpa [hc] using hmagnitude
  | negSucc n => rw [intText, List.cons_append, number, magnitude_fraction]

lemma intText_ne_dot (n : ℤ) : ∀ c ∈ intText n, decide (c ≠ '.') = true := by
  have hdigits : ∀ m, ∀ c ∈ Nat.toDigits 10 m, c ≠ '.' := by
    rintro m c hc rfl
    have := toDigits_digit hc
    revert this
    decide
  intro c hc
  rw [decide_eq_true_eq]
  cases n with
  | ofNat n => exact hdigits n c hc
  | negSucc n =>
      rcases List.mem_cons.1 hc with rfl | hc
      · decide
      · exact hdigits (n + 1) c hc

/-- The rationals, each written with its numerator and its denominator around the point: for
documents without floats. -/
def FloatText.fractions : FloatText ℚ where
  repr q := intText q.num ++ '.' :: Nat.toDigits 10 q.den
  parse t :=
    match number (t.takeWhile (fun c => decide (c ≠ '.'))) with
    | some (.int n) =>
        mkRat n (Nat.ofDigitChars 10 (t.dropWhile (fun c => decide (c ≠ '.'))).tail 0)
    | _ => 0
  isFloat q := by
    refine Or.inr ⟨?_, number_fraction q.num q.den⟩
    rw [List.all_append, intText_numeric, Bool.true_and, List.all_cons]
    exact List.all_eq_true.2 (fun c hc => by simp [isNumeric, toDigits_digit hc])
  parse_repr q := by
    rw [List.takeWhile_append_of_pos (intText_ne_dot q.num),
      List.dropWhile_append_of_pos (intText_ne_dot q.num), List.takeWhile_cons_of_neg (by decide),
      List.dropWhile_cons_of_neg (by decide), List.append_nil, number_intText]
    simp

end JsonText
end TokenFoundry
