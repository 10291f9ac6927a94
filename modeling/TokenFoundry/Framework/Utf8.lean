import Mathlib.Data.List.Basic
import Mathlib.Data.List.Infix
import Mathlib.Tactic.Common

/-!
# UTF-8

`bytes.decode("utf-8", "replace")` as a machine that reads one byte after the other and keeps the
bytes of the sequence it has begun.  A byte that does not go on with the sequence ends it, and the
replacement character stands for what has been read of it.

The text of a stream that is decoded piece by piece is the text of the stream decoded at once if and
only if no cut falls inside the bytes of a character.
-/

set_option autoImplicit false

namespace TokenFoundry
namespace Utf8

/-! ## The machine -/

/-- What stands in a text for bytes that are no character. -/
def replacement : Char := Char.ofNat 0xFFFD

/-- The bytes of the sequence that a byte begins; 0 where none begins with it. -/
def size (lead : UInt8) : ℕ :=
  if lead.toNat < 0x80 then 1
  else if lead.toNat < 0xC2 then 0
  else if lead.toNat < 0xE0 then 2
  else if lead.toNat < 0xF0 then 3
  else if lead.toNat < 0xF5 then 4
  else 0

/-- A byte that can only go on with a sequence, and not begin one. -/
def isTail (b : UInt8) : Bool := decide (0x80 ≤ b.toNat ∧ b.toNat < 0xC0)

/-- The second byte of a sequence.  It tells an overlong form, a surrogate and a number above
`U+10FFFF`. -/
def isSecond (lead b : UInt8) : Bool :=
  decide (0x80 ≤ b.toNat ∧ b.toNat < 0xC0 ∧ (lead.toNat = 0xE0 → 0xA0 ≤ b.toNat) ∧
    (lead.toNat = 0xED → b.toNat < 0xA0) ∧ (lead.toNat = 0xF0 → 0x90 ≤ b.toNat) ∧
    (lead.toNat = 0xF4 → b.toNat < 0x90))

/-- A byte goes on with the sequence that has been begun. -/
def continues : List UInt8 → UInt8 → Bool
  | [], _ => false
  | [lead], b => isSecond lead b
  | _ :: _ :: _, b => isTail b

/-- The sequence has as many bytes as its first one announces. -/
def complete : List UInt8 → Bool
  | [] => false
  | lead :: rest => decide (rest.length + 1 = size lead)

/-- The character that a sequence of one to four bytes stands for. -/
def character : List UInt8 → Char
  | [a] => Char.ofNat a.toNat
  | [a, b] => Char.ofNat ((a.toNat - 0xC0) * 64 + (b.toNat - 0x80))
  | [a, b, c] =>
      Char.ofNat ((a.toNat - 0xE0) * 4096 + (b.toNat - 0x80) * 64 + (c.toNat - 0x80))
  | [a, b, c, d] =>
      Char.ofNat ((a.toNat - 0xF0) * 262144 + (b.toNat - 0x80) * 4096 + (c.toNat - 0x80) * 64 +
        (d.toNat - 0x80))
  | _ => replacement

/-- What stands for a sequence that is not completed: one replacement character, however long it
is. -/
def abandon (p : List UInt8) : List Char := if p = [] then [] else [replacement]

/-- A byte that begins a sequence, and the characters it makes. -/
def first (b : UInt8) : List UInt8 × List Char :=
  if size b = 0 then ([], [replacement])
  else if size b = 1 then ([], [character [b]])
  else ([b], [])

/-- One byte after the sequence that is begun: the sequence that is then begun, and the characters
that are made. -/
def step (p : List UInt8) (b : UInt8) : List UInt8 × List Char :=
  if continues p b then
    if complete (p ++ [b]) then ([], [character (p ++ [b])]) else (p ++ [b], [])
  else ((first b).1, abandon p ++ (first b).2)

/-- The sequence that is begun when the bytes have been read, which the next byte may complete. -/
def pending (p bs : List UInt8) : List UInt8 := bs.foldl (fun p b => (step p b).1) p

/-- The text of bytes that follow a sequence begun.  At the end of the bytes, what is begun is
abandoned. -/
def decodeFrom : List UInt8 → List UInt8 → List Char
  | p, [] => abandon p
  | p, b :: bs => (step p b).2 ++ decodeFrom (step p b).1 bs

/-- `bs.decode("utf-8", "replace")`: it never fails. -/
def decode (bs : List UInt8) : List Char := decodeFrom [] bs

/-- `t.encode("utf-8")`, for a text without surrogates. -/
def encode (t : List Char) : List UInt8 := t.flatMap String.utf8EncodeChar

example : decode [0x61, 0xE2, 0x82, 0xAC, 0xE2, 0x82, 0x62, 0xFF] =
    ['a', Char.ofNat 0x20AC, replacement, 'b', replacement] := by decide

/-! ## Sequences -/

/-- The sequences of bytes that stand for a character: the shortest ones, and none for a
surrogate. -/
inductive Sequence : List UInt8 → Prop
  | one {a : UInt8} : size a = 1 → Sequence [a]
  | two {a b : UInt8} : size a = 2 → isSecond a b = true → Sequence [a, b]
  | three {a b c : UInt8} : size a = 3 → isSecond a b = true → isTail c = true → Sequence [a, b, c]
  | four {a b c d : UInt8} : size a = 4 → isSecond a b = true → isTail c = true →
      isTail d = true → Sequence [a, b, c, d]

/-- What the number of bytes says of the first one: the ranges of the first bytes do not overlap. -/
lemma size_spec (a : UInt8) :
    (size a = 1 ↔ a.toNat < 0x80) ∧ (size a = 2 ↔ 0xC2 ≤ a.toNat ∧ a.toNat < 0xE0) ∧
      (size a = 3 ↔ 0xE0 ≤ a.toNat ∧ a.toNat < 0xF0) ∧
        (size a = 4 ↔ 0xF0 ≤ a.toNat ∧ a.toNat < 0xF5) ∧ size a ≤ 4 := by
  unfold size
  split_ifs <;> simp only [false_iff, true_iff] <;> omega

lemma toNat_ofNat {n : ℕ} (h : n < 0x110000) (hs : n < 0xD800 ∨ 0xE000 ≤ n) :
    (Char.ofNat n).val.toNat = n := by
  have hvalid : n.isValidChar := by
    rcases hs with h' | h'
    · exact Or.inl h'
    · exact Or.inr ⟨by omega, h⟩
  rw [Char.ofNat, dif_pos hvalid]
  rfl

/-- A sequence is the encoding of its character, so that none is lost by decoding and encoding
again. -/
lemma encode_character {q : List UInt8} (h : Sequence q) :
    String.utf8EncodeChar (character q) = q := by
  cases h with
  | @one a ha =>
      have hsize := size_spec a
      have hval : (character [a]).val.toNat = a.toNat := toNat_ofNat (by omega) (by omega)
      have hlow : a.toNat ≤ 0x7f := by omega
      simp [String.utf8EncodeChar, hval, hlow]
  | @two a b ha hb =>
      have hsize := size_spec a
      simp only [isSecond, decide_eq_true_eq] at hb
      have hval : (character [a, b]).val.toNat = (a.toNat - 0xC0) * 64 + (b.toNat - 0x80) :=
        toNat_ofNat (by omega) (by omega)
      simp only [String.utf8EncodeChar, hval]
      rw [if_neg (by omega), if_pos (by omega)]
      simp only [List.cons.injEq, ← UInt8.toNat_inj, UInt8.toNat_ofNat', and_true]
      omega
  | @three a b c ha hb hc =>
      have hsize := size_spec a
      simp only [isSecond, isTail, decide_eq_true_eq] at hb hc
      have hval : (character [a, b, c]).val.toNat =
          (a.toNat - 0xE0) * 4096 + (b.toNat - 0x80) * 64 + (c.toNat - 0x80) :=
        toNat_ofNat (by omega) (by omega)
      simp only [String.utf8EncodeChar, hval]
      rw [if_neg (by omega), if_neg (by omega), if_pos (by omega)]
      simp only [List.cons.injEq, ← UInt8.toNat_inj, UInt8.toNat_ofNat', and_true]
      omega
  | @four a b c d ha hb hc hd =>
      have hsize := size_spec a
      simp only [isSecond, isTail, decide_eq_true_eq] at hb hc hd
      have hval : (character [a, b, c, d]).val.toNat =
          (a.toNat - 0xF0) * 262144 + (b.toNat - 0x80) * 4096 + (c.toNat - 0x80) * 64 +
            (d.toNat - 0x80) := toNat_ofNat (by omega) (by omega)
      simp only [String.utf8EncodeChar, hval]
      rw [if_neg (by omega), if_neg (by omega), if_neg (by omega)]
      simp only [List.cons.injEq, ← UInt8.toNat_inj, UInt8.toNat_ofNat', and_true]
      omega

lemma ofNat_val (c : Char) {n : ℕ} (h : n = c.val.toNat) : Char.ofNat n = c := by
  rw [h]
  exact Char.ofNat_toNat c

/-- The encoding of a character is a sequence, of which the machine makes the character. -/
lemma sequence_encode (c : Char) : Sequence (String.utf8EncodeChar c) ∧
    character (String.utf8EncodeChar c) = c := by
  have hvalid : c.val.toNat < 0xD800 ∨ 0xDFFF < c.val.toNat ∧ c.val.toNat < 0x110000 := c.valid
  generalize hv : c.val.toNat = v at hvalid
  simp only [String.utf8EncodeChar, hv]
  split_ifs with h1 h2 h3
  · refine ⟨.one ((size_spec _).1.2 ?_), ofNat_val c ?_⟩ <;>
      simp only [UInt8.toNat_ofNat', hv] <;> omega
  · refine ⟨.two ((size_spec _).2.1.2 ?_) ?_, ofNat_val c ?_⟩ <;>
      simp only [isSecond, UInt8.toNat_ofNat', hv, decide_eq_true_eq] <;> omega
  · refine ⟨.three ((size_spec _).2.2.1.2 ?_) ?_ ?_, ofNat_val c ?_⟩ <;>
      simp only [isSecond, isTail, UInt8.toNat_ofNat', hv, decide_eq_true_eq] <;> omega
  · refine ⟨.four ((size_spec _).2.2.2.1.2 ?_) ?_ ?_ ?_, ofNat_val c ?_⟩ <;>
      simp only [isSecond, isTail, UInt8.toNat_ofNat', hv, decide_eq_true_eq] <;> omega

/-! ## Runs of the machine -/

lemma pending_append (p as bs : List UInt8) : pending p (as ++ bs) = pending (pending p as) bs :=
  List.foldl_append

/-- A byte that goes on with a sequence begins none; alone, it is replaced. -/
lemma first_of_continues {p : List UInt8} {b : UInt8} (h : continues p b = true) :
    first b = ([], [replacement]) := by
  have htail : 0x80 ≤ b.toNat ∧ b.toNat < 0xC0 := by
    match p, h with
    | [_], h =>
        simp only [continues, isSecond, decide_eq_true_eq] at h
        omega
    | _ :: _ :: _, h => simpa only [continues, isTail, decide_eq_true_eq] using h
  have hsize : size b = 0 := by
    unfold size
    rw [if_neg (by omega), if_pos (by omega)]
  simp [first, hsize]

/-- The byte that begins a sequence of several bytes goes on with none, and makes no character
yet. -/
lemma first_of_size {a : UInt8} (h : 2 ≤ size a) (p : List UInt8) :
    continues p a = false ∧ first a = ([a], []) := by
  constructor
  · by_contra hcont
    have hfirst := first_of_continues (by simpa using hcont)
    unfold first at hfirst
    rw [if_neg (by omega), if_neg (by omega)] at hfirst
    simp at hfirst
  · unfold first
    rw [if_neg (by omega), if_neg (by omega)]

lemma step_of_continues {p : List UInt8} {b : UInt8} (h : continues p b = true) :
    step p b = if complete (p ++ [b]) then ([], [character (p ++ [b])]) else (p ++ [b], []) :=
  if_pos h

lemma step_of_not_continues {p : List UInt8} {b : UInt8} (h : continues p b = false) :
    step p b = ((first b).1, abandon p ++ (first b).2) :=
  if_neg (by simp [h])

lemma decodeFrom_of_not_continues {p : List UInt8} {b : UInt8} (h : continues p b = false)
    (bs : List UInt8) : decodeFrom p (b :: bs) = abandon p ++ decode (b :: bs) := by
  have hnil : step [] b = ((first b).1, (first b).2) := step_of_not_continues rfl
  rw [decode, decodeFrom, decodeFrom, step_of_not_continues h, hnil, List.append_assoc]

lemma abandon_of_continues {p : List UInt8} {b : UInt8} (h : continues p b = true) :
    abandon p = [replacement] := by
  have hne : p ≠ [] := by
    rintro rfl
    simp [continues] at h
  simp [abandon, hne]

lemma decode_of_continues {p : List UInt8} {b : UInt8} (h : continues p b = true)
    (bs : List UInt8) : decode (b :: bs) = replacement :: decode bs := by
  rw [decode, decodeFrom, step_of_not_continues rfl, first_of_continues h]
  rfl

/-- A sequence that has been begun adds at most one character. -/
lemma length_decodeFrom_le (p bs : List UInt8) :
    (decodeFrom p bs).length ≤ (abandon p).length + (decode bs).length := by
  induction bs generalizing p with
  | nil => simp [decodeFrom, decode]
  | cons b bs ih =>
      by_cases h : continues p b = true
      · rw [decode_of_continues h, abandon_of_continues h, decodeFrom, step_of_continues h]
        have hdone := ih []
        have hmore := ih (p ++ [b])
        split_ifs with hc
        · simp [abandon] at hdone ⊢
          omega
        · simp [abandon] at hmore ⊢
          omega
      · rw [decodeFrom_of_not_continues (by simpa using h), List.length_append]

/-- It adds none if the next byte goes on with it, which by itself is a character. -/
lemma length_decodeFrom_lt {p : List UInt8} {b : UInt8} (h : continues p b = true)
    (bs : List UInt8) :
    (decodeFrom p (b :: bs)).length < (abandon p).length + (decode (b :: bs)).length := by
  rw [decode_of_continues h, abandon_of_continues h, decodeFrom, step_of_continues h]
  have hdone := length_decodeFrom_le [] bs
  have hmore := length_decodeFrom_le (p ++ [b]) bs
  split_ifs with hc
  · simp [abandon] at hdone ⊢
    omega
  · simp [abandon] at hmore ⊢
    omega

/-- The characters made so far, without what is still begun. -/
def made : List UInt8 → List UInt8 → List Char
  | _, [] => []
  | p, b :: bs => (step p b).2 ++ made (step p b).1 bs

lemma decodeFrom_append (p as bs : List UInt8) :
    decodeFrom p (as ++ bs) = made p as ++ decodeFrom (pending p as) bs := by
  induction as generalizing p with
  | nil => rfl
  | cons a as ih =>
      rw [List.cons_append, decodeFrom, ih, made, List.append_assoc]
      rfl

lemma made_append (p as bs : List UInt8) :
    made p (as ++ bs) = made p as ++ made (pending p as) bs := by
  induction as generalizing p with
  | nil => rfl
  | cons a as ih =>
      rw [List.cons_append, made, ih, made, List.append_assoc]
      rfl

lemma decode_append (as bs : List UInt8) :
    decode (as ++ bs) = made [] as ++ decodeFrom (pending [] as) bs :=
  decodeFrom_append [] as bs

lemma decode_eq (as : List UInt8) : decode as = made [] as ++ abandon (pending [] as) := by
  simpa [decodeFrom] using decode_append as []

/-! ## Cuts inside a character -/

/-- The bytes of a sequence of which more are to come. -/
def Begun : List UInt8 → Prop
  | [a] => 2 ≤ size a
  | [a, b] => 3 ≤ size a ∧ isSecond a b = true
  | [a, b, c] => size a = 4 ∧ isSecond a b = true ∧ isTail c = true
  | _ => False

lemma step_begun {p : List UInt8} (hp : p = [] ∨ Begun p) (b : UInt8) :
    (step p b).1 = [] ∨ Begun (step p b).1 := by
  by_cases h : continues p b = true
  · rw [step_of_continues h]
    split_ifs with hc
    · exact Or.inl rfl
    · right
      match p, hp, h, hc with
      | [a], hp, h, hc =>
          simp only [Begun, reduceCtorEq, false_or, complete, List.singleton_append,
            List.length_singleton, decide_eq_true_eq] at hp hc ⊢
          exact ⟨by omega, h⟩
      | [a, a'], hp, h, hc =>
          have hle := (size_spec a).2.2.2.2
          simp only [Begun, reduceCtorEq, false_or, complete, List.cons_append, List.nil_append,
            List.length_cons, List.length_nil, decide_eq_true_eq] at hp hc ⊢
          exact ⟨by omega, hp.2, h⟩
      | [a, a', a''], hp, h, hc =>
          simp only [Begun, reduceCtorEq, false_or] at hp
          simp [complete, hp.1] at hc
  · rw [step_of_not_continues (by simpa using h)]
    unfold first
    split_ifs with h0 h1
    · exact Or.inl rfl
    · exact Or.inl rfl
    · right
      show 2 ≤ size b
      omega

lemma pending_begun (as : List UInt8) {p : List UInt8} (hp : p = [] ∨ Begun p) :
    pending p as = [] ∨ Begun (pending p as) := by
  induction as generalizing p with
  | nil => exact hp
  | cons a as ih => exact ih (step_begun hp a)

lemma step_suffix (p : List UInt8) (b : UInt8) : (step p b).1 <:+ p ++ [b] := by
  unfold step first
  split_ifs <;> simp

lemma pending_suffix (p as : List UInt8) : pending p as <:+ p ++ as := by
  induction as generalizing p with
  | nil => simp [pending]
  | cons a as ih =>
      obtain ⟨t, ht⟩ := step_suffix p a
      refine (ih (step p a).1).trans ⟨t, ?_⟩
      rw [← List.append_assoc, ht]
      simp

/-- A sequence that has been begun can be completed: none is given up before it is certain that it
is none. -/
lemma exists_sequence {p : List UInt8} {b : UInt8} (hp : Begun p) (h : continues p b = true) :
    ∃ t, Sequence (p ++ [b] ++ t) := by
  match p, hp, h with
  | [a], hp, h =>
      have hle := (size_spec a).2.2.2.2
      simp only [Begun] at hp
      rcases (by omega : size a = 2 ∨ size a = 3 ∨ size a = 4) with ha | ha | ha
      · exact ⟨[], .two ha h⟩
      · exact ⟨[0x80], .three ha h rfl⟩
      · exact ⟨[0x80, 0x80], .four ha h rfl rfl⟩
  | [a, a'], hp, h =>
      have hle := (size_spec a).2.2.2.2
      simp only [Begun] at hp
      rcases (by omega : size a = 3 ∨ size a = 4) with ha | ha
      · exact ⟨[], .three ha hp.2 h⟩
      · exact ⟨[0x80], .four ha hp.2 h rfl⟩
  | [a, a', a''], hp, h => exact ⟨[], .four hp.1 hp.2.1 hp.2.2 h⟩

lemma Sequence.length_le {q : List UInt8} (h : Sequence q) : q.length ≤ 4 := by
  cases h <;> simp

/-- The bytes of a sequence after the first one go on with it, and the last one completes it. -/
lemma Sequence.continues {p t : List UInt8} {b : UInt8} (h : Sequence (p ++ b :: t))
    (hp : p ≠ []) : continues p b = true ∧ complete (p ++ [b]) = t.isEmpty := by
  have hlength := h.length_le
  rcases p with _ | ⟨x, _ | ⟨y, _ | ⟨z, _ | ⟨w, p⟩⟩⟩⟩
  · exact absurd rfl hp
  · cases h with
    | two ha hb => exact ⟨hb, by simp [complete, ha]⟩
    | three ha hb hc => exact ⟨hb, by simp [complete, ha]⟩
    | four ha hb hc hd => exact ⟨hb, by simp [complete, ha]⟩
  · cases h with
    | three ha hb hc => exact ⟨hc, by simp [complete, ha]⟩
    | four ha hb hc hd => exact ⟨hc, by simp [complete, ha]⟩
  · cases h with
    | four ha hb hc hd => exact ⟨hd, by simp [complete, ha]⟩
  · simp only [List.length_append, List.length_cons] at hlength
    omega

lemma Sequence.two_le_size {a b : UInt8} {t : List UInt8} (h : Sequence (a :: b :: t)) :
    2 ≤ size a := by
  cases h <;> omega

/-- Inside a sequence the machine keeps the bytes of it, whatever it has read before. -/
lemma pending_of_sequence (s : List UInt8) {p t : List UInt8} {b : UInt8}
    (h : Sequence (p ++ b :: t)) (hp : p ≠ []) : pending s p = p ∧ made s p = abandon s := by
  induction p using List.reverseRecOn generalizing b t with
  | nil => exact absurd rfl hp
  | append_singleton p a ih =>
      rw [List.append_assoc, List.singleton_append] at h
      by_cases hnil : p = []
      · subst hnil
        have hfirst := first_of_size h.two_le_size s
        have hstep : step s a = ([a], abandon s) := by
          rw [step_of_not_continues hfirst.1, hfirst.2, List.append_nil]
        simp [pending, made, hstep]
      · obtain ⟨hpending, hmade⟩ := ih h hnil
        obtain ⟨hcont, hcomplete⟩ := h.continues hnil
        have hstep : step p a = (p ++ [a], []) := by
          rw [step_of_continues hcont, hcomplete]
          simp
        rw [pending_append, made_append, hpending, hmade]
        simp [pending, made, hstep]

/-- The cut between two parts falls inside the bytes of a character, of which the rest may be
missing. -/
def Splits (as bs : List UInt8) : Prop :=
  ∃ c p b, p ≠ [] ∧ p <:+ as ∧ b ∈ bs.head? ∧ p ++ [b] <+: String.utf8EncodeChar c

/-- That is, the next byte goes on with the sequence that the machine has begun. -/
theorem splits_iff (as bs : List UInt8) :
    Splits as bs ↔ ∃ b ∈ bs.head?, continues (pending [] as) b = true := by
  constructor
  · rintro ⟨c, p, b, hp, ⟨s, hs⟩, hb, t, ht⟩
    have hsequence : Sequence (p ++ b :: t) := by
      rw [show p ++ b :: t = p ++ [b] ++ t by simp, ht]
      exact (sequence_encode c).1
    refine ⟨b, hb, ?_⟩
    rw [← hs, pending_append, (pending_of_sequence _ hsequence hp).1]
    exact (hsequence.continues hp).1
  · rintro ⟨b, hb, hcont⟩
    have hne : pending [] as ≠ [] := by
      intro h
      rw [h] at hcont
      simp [continues] at hcont
    have hbegun : Begun (pending [] as) := (pending_begun as (Or.inl rfl)).resolve_left hne
    obtain ⟨t, ht⟩ := exists_sequence hbegun hcont
    refine ⟨character (pending [] as ++ [b] ++ t), _, b, hne, pending_suffix [] as, hb, t, ?_⟩
    exact (encode_character ht).symm

/-! ## Bytes in two parts -/

/-- Between two characters, the texts of the parts make up the text. -/
theorem decode_append_of_not_splits {as bs : List UInt8} (h : ¬ Splits as bs) :
    decode (as ++ bs) = decode as ++ decode bs := by
  rw [decode_append, decode_eq as, List.append_assoc]
  congr 1
  cases bs with
  | nil => simp [decodeFrom, decode, abandon]
  | cons b bs =>
      refine decodeFrom_of_not_continues ?_ bs
      by_contra hcont
      exact h ((splits_iff _ _).2 ⟨b, rfl, by simpa using hcont⟩)

lemma length_decode_append_le (as bs : List UInt8) :
    (decode (as ++ bs)).length ≤ (decode as).length + (decode bs).length := by
  have := length_decodeFrom_le (pending [] as) bs
  rw [decode_append, decode_eq as, List.length_append, List.length_append]
  omega

lemma length_decode_append_lt {as bs : List UInt8} (h : Splits as bs) :
    (decode (as ++ bs)).length < (decode as).length + (decode bs).length := by
  obtain ⟨b, hb, hcont⟩ := (splits_iff _ _).1 h
  cases bs with
  | nil => simp at hb
  | cons b' bs =>
      obtain rfl : b' = b := by simpa using hb
      have := length_decodeFrom_lt hcont bs
      rw [decode_append, decode_eq as, List.length_append, List.length_append]
      omega

/-! ## Bytes that are characters -/

lemma Begun.sequence {p : List UInt8} {b : UInt8} (hp : Begun p) (h : continues p b = true)
    (hc : complete (p ++ [b]) = true) : Sequence (p ++ [b]) := by
  obtain ⟨t, ht⟩ := exists_sequence hp h
  have hne : p ≠ [] := by
    rintro rfl
    exact hp
  rw [List.append_assoc, List.singleton_append] at ht
  obtain rfl : t = [] := by simpa [hc] using (ht.continues hne).2
  exact ht

lemma character_inj {q q' : List UInt8} (h : Sequence q) (h' : Sequence q')
    (heq : character q = character q') : q = q' := by
  rw [← encode_character h, heq, encode_character h']

lemma replacement_ne {b : UInt8} (hb : size b = 1) : replacement ≠ character [b] := by
  intro heq
  have hval : (character [b]).val.toNat = b.toNat :=
    toNat_ofNat (by have := (size_spec b).1; omega) (by have := (size_spec b).1; omega)
  have hlow := (size_spec b).1.1 hb
  rw [← heq] at hval
  have : replacement.val.toNat = 0xFFFD := rfl
  omega

lemma count_first {b : UInt8} (hb : size b = 1) (a : UInt8) :
    (first a).2.count (character [b]) = [a].count b := by
  have hne : size a ≠ 1 → a ≠ b := fun ha h => ha (h ▸ hb)
  unfold first
  split_ifs with h0 h1
  · rw [List.count_singleton, List.count_singleton]
    simp [replacement_ne hb, hne (by omega)]
  · by_cases h : a = b
    · simp [h]
    · have hchar : character [a] ≠ character [b] := by
        intro heq
        exact h (by simpa using character_inj (.one h1) (.one hb) heq)
      rw [List.count_singleton, List.count_singleton]
      simp [h, hchar]
  · rw [List.count_singleton]
    simp [hne h1]

lemma count_decodeFrom {b : UInt8} (hb : size b = 1) {p : List UInt8} (hp : p = [] ∨ Begun p)
    (bs : List UInt8) : (decodeFrom p bs).count (character [b]) = bs.count b := by
  have habandon : ∀ p, (abandon p).count (character [b]) = 0 := by
    intro p
    unfold abandon
    split_ifs
    · rfl
    · rw [List.count_singleton]
      simp [replacement_ne hb]
  induction bs generalizing p with
  | nil => exact habandon p
  | cons a bs ih =>
      have hstep := step_begun hp a
      have hstep_count : (step p a).2.count (character [b]) = [a].count b := by
        by_cases h : continues p a = true
        · have hne : a ≠ b := by
            rintro rfl
            have hfirst := count_first hb a
            rw [first_of_continues h, List.count_singleton] at hfirst
            simp [replacement_ne hb] at hfirst
          have hbegun : Begun p := by
            rcases hp with rfl | hp
            · simp [continues] at h
            · exact hp
          rw [step_of_continues h]
          split_ifs with hc
          -- A byte that goes on with a sequence is not `b`, and the character that it completes is
          -- none of one byte.
          · have hchar : character (p ++ [a]) ≠ character [b] := by
              intro heq
              have := character_inj (hbegun.sequence h hc) (.one hb) heq
              simp only [List.append_eq_singleton_iff, List.cons.injEq, and_true, reduceCtorEq,
                and_false, or_false] at this
              exact hne this.2
            rw [List.count_singleton, List.count_singleton]
            simp [hchar, hne]
          · rw [List.count_singleton]
            simp [hne]
        · rw [step_of_not_continues (by simpa using h), List.count_append, habandon, count_first hb,
            Nat.zero_add]
      rw [decodeFrom, List.count_append, hstep_count, ih hstep, ← List.count_append,
        List.singleton_append]

/-- A byte that is a character is found in the text as often as in the bytes. -/
lemma count_decode {b : UInt8} (hb : size b = 1) (bs : List UInt8) :
    (decode bs).count (character [b]) = bs.count b :=
  count_decodeFrom hb (Or.inl rfl) bs

/-- A byte that is a character of its own is a boundary of the text: what is before it and what is
after it are decoded apart. -/
lemma decode_append_cons {b : UInt8} (hb : size b = 1) (as bs : List UInt8) :
    decode (as ++ b :: bs) = decode as ++ character [b] :: decode bs := by
  have hfirst : first b = ([], [character [b]]) := by simp [first, hb]
  have hcont : ∀ p, continues p b = false := by
    intro p
    by_contra h
    have hreplaced := first_of_continues (by simpa using h)
    rw [hfirst] at hreplaced
    exact replacement_ne hb (by simpa using hreplaced.symm)
  have hcons : decode (b :: bs) = character [b] :: decode bs := by
    rw [decode, decodeFrom, step_of_not_continues (hcont []), hfirst]
    rfl
  rw [decode_append_of_not_splits, hcons]
  rintro hsplits
  obtain ⟨b', hb', hcont'⟩ := (splits_iff _ _).1 hsplits
  obtain rfl : b = b' := by simpa using hb'
  simp [hcont] at hcont'

/-! ## Encoded texts -/

lemma decode_sequence {q : List UInt8} (h : Sequence q) (bs : List UInt8) :
    decode (q ++ bs) = character q :: decode bs := by
  rcases List.eq_nil_or_concat' q with rfl | ⟨p, b, rfl⟩
  · cases h
  · by_cases hp : p = []
    · subst hp
      cases h with
      | one ha => simp [decode, decodeFrom, step, continues, first, ha, abandon]
    · obtain ⟨hpending, hmade⟩ := pending_of_sequence [] h hp
      obtain ⟨hcont, hcomplete⟩ := h.continues hp
      have hstep : step p b = ([], [character (p ++ [b])]) := by
        rw [step_of_continues hcont, hcomplete]
        rfl
      rw [List.append_assoc, decode_append, hpending, hmade]
      simp [decodeFrom, hstep, abandon, decode]

/-- Decoding is inverse to encoding: the text comes back character by character. -/
theorem decode_encode (t : List Char) : decode (encode t) = t := by
  induction t with
  | nil => rfl
  | cons c t ih =>
      obtain ⟨hsequence, hcharacter⟩ := sequence_encode c
      rw [encode, List.flatMap_cons, decode_sequence hsequence, hcharacter]
      exact congrArg (c :: ·) ih

lemma map_decode_encode (ts : List (List Char)) : (ts.map encode).map decode = ts := by
  rw [List.map_map]
  exact (List.map_congr_left (fun t _ => decode_encode t)).trans (List.map_id ts)

/-! ## Bytes in any number of parts -/

/-- No part ends inside a sequence that the next byte goes on with. -/
def Whole : List (List UInt8) → Prop
  | [] => True
  | c :: cs => ¬ Splits c cs.flatten ∧ Whole cs

lemma length_decode_flatten_le (cs : List (List UInt8)) :
    (decode cs.flatten).length ≤ (cs.map decode).flatten.length := by
  induction cs with
  | nil => simp [decode, decodeFrom, abandon]
  | cons c cs ih =>
      have := length_decode_append_le c cs.flatten
      simp only [List.flatten_cons, List.map_cons, List.length_append]
      omega

/-- The texts of the parts make up the text of the whole if and only if no part ends inside a
sequence. -/
theorem decode_flatten_iff (cs : List (List UInt8)) :
    (cs.map decode).flatten = decode cs.flatten ↔ Whole cs := by
  induction cs with
  | nil => simp [Whole, decode, decodeFrom, abandon]
  | cons c cs ih =>
      simp only [List.flatten_cons, List.map_cons, Whole]
      constructor
      · intro h
        have hlength := congrArg List.length h
        rw [List.length_append] at hlength
        have hle := length_decode_flatten_le cs
        have hsplit : ¬ Splits c cs.flatten := by
          intro hsplits
          have := length_decode_append_lt hsplits
          omega
        rw [decode_append_of_not_splits hsplit] at h
        exact ⟨hsplit, ih.1 (List.append_cancel_left h)⟩
      · rintro ⟨hsplit, hwhole⟩
        rw [decode_append_of_not_splits hsplit, ih.2 hwhole]

/-- The last occurrence of an element divides a list in one way. -/
lemma append_cons_inj_of_last {α : Type} {a : α} {x x' z z' : List α} (hz : a ∉ z) (hz' : a ∉ z')
    (h : x ++ a :: z = x' ++ a :: z') : x = x' ∧ z = z' := by
  rcases List.append_eq_append_iff.1 h with ⟨t, rfl, ht⟩ | ⟨t, rfl, ht⟩
  · rcases t with _ | ⟨c, t⟩
    · simpa using ht
    · simp only [List.cons_append, List.cons.injEq] at ht
      exact absurd (by simp [ht.2]) hz
  · rcases t with _ | ⟨c, t⟩
    · simpa [eq_comm] using ht
    · simp only [List.cons_append, List.cons.injEq] at ht
      exact absurd (by simp [ht.2]) hz'

/-- Parts that are decoded up to such a byte, and the text of more bytes than theirs: they agree
only if the texts of the parts make up the text of the parts. -/
theorem decode_flatten_of_mark {b : UInt8} (hb : size b = 1) {cs : List (List UInt8)}
    {x y z : List UInt8} (hy : b ∉ y)
    (h : ((cs ++ [x ++ b :: y]).map decode).flatten =
      decode ((cs ++ [x ++ b :: y]).flatten ++ z)) :
    ((cs ++ [x ++ b :: y]).map decode).flatten = decode (cs ++ [x ++ b :: y]).flatten := by
  have hcount : (cs.map decode).flatten.count (character [b]) = cs.flatten.count b := by
    simp only [List.count_flatten, List.map_map]
    congr 2
    funext c
    exact count_decode hb c
  have hleft : ((cs ++ [x ++ b :: y]).map decode).flatten =
      ((cs.map decode).flatten ++ decode x) ++ character [b] :: decode y := by
    simp [decode_append_cons hb]
  have hright : decode ((cs ++ [x ++ b :: y]).flatten ++ z) =
      decode (cs.flatten ++ x) ++ character [b] :: decode (y ++ z) := by
    rw [← decode_append_cons hb]
    simp
  have hwhole : decode (cs ++ [x ++ b :: y]).flatten =
      decode (cs.flatten ++ x) ++ character [b] :: decode y := by
    rw [← decode_append_cons hb]
    simp
  rw [hleft, hright] at h
  -- Both sides have the byte equally often, so that none is left for what comes after the last one.
  have hz : (y ++ z).count b = 0 := by
    have := congrArg (List.count (character [b])) h
    simp only [List.count_append, List.count_cons_self, count_decode hb, hcount,
      List.count_eq_zero_of_not_mem hy] at this ⊢
    omega
  have hmem : ∀ t : List UInt8, t.count b = 0 → character [b] ∉ decode t := by
    intro t ht
    rw [← List.count_eq_zero, count_decode hb, ht]
  obtain ⟨hbefore, hafter⟩ := append_cons_inj_of_last
    (hmem y (List.count_eq_zero_of_not_mem hy)) (hmem (y ++ z) hz) h
  rw [hleft, hwhole, hbefore]

/-- Cut between its characters, an encoded text is whole: the texts of the parts make up the
text. -/
lemma whole_map_encode (ts : List (List Char)) : Whole (ts.map encode) := by
  have hflatten : (ts.map encode).flatten = encode ts.flatten := by
    induction ts with
    | nil => rfl
    | cons t ts ih =>
        rw [List.map_cons, List.flatten_cons, ih, List.flatten_cons, encode, encode, encode,
          List.flatMap_append]
  rw [← decode_flatten_iff, hflatten, decode_encode, map_decode_encode]

end Utf8
end TokenFoundry
