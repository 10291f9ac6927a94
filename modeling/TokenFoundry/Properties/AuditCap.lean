import TokenFoundry.Hub.Audit

/-!
# The cap on an audit record

The cap is on bytes, but the bodies are cut after a number of characters.  A character is written in
up to six bytes, so a record may still be longer than its cap; it is not if and only if what is kept
of the two bodies is written in as many bytes as the cap allows.
-/

set_option autoImplicit false

namespace TokenFoundry
namespace Audit

open JsonText (FloatText escape quote dumps dumpsFields)

variable {K : Type} (ft : FloatText K)

/-! ## Sizes -/

section Sizes

/-- The bytes of a text in UTF-8, which is what the cap counts. -/
def size (t : Text) : ℕ := (Utf8.encode t).length

/-- The bytes of a text in a record, where some characters are escaped. -/
def escapedSize (t : Text) : ℕ := size (t.flatMap (escape false))

@[simp] lemma size_nil : size [] = 0 := rfl

@[simp] lemma size_append (t t' : Text) : size (t ++ t') = size t + size t' := by
  simp [size, Utf8.encode]

lemma size_cons (c : Char) (t : Text) : size (c :: t) = size [c] + size t := size_append [c] t

@[simp] lemma escapedSize_append (t t' : Text) :
    escapedSize (t ++ t') = escapedSize t + escapedSize t' := by
  simp [escapedSize]

lemma size_quote (s : String) : size (quote false s) = 2 * size ['"'] + escapedSize s.toList := by
  rw [quote, size_cons, size_append, escapedSize]
  omega

/-- A character that a record shows as it is: none that has to be escaped. -/
lemma escape_of_plain {c : Char} (hq : c ≠ '"') (hb : c ≠ '\\') (hc : ¬ c.toNat < 32) :
    escape false c = [c] := by
  have hne : ∀ d : Char, d.toNat < 32 → c ≠ d := fun d hd h => hc (h ▸ hd)
  unfold escape
  rw [if_neg hq, if_neg hb, if_neg (hne '\n' (by decide)), if_neg (hne '\r' (by decide)),
    if_neg (hne '\t' (by decide)), if_neg (by omega), if_neg (by omega), if_neg hc]
  rfl

lemma escapedSize_of_plain {t : Text} (h : ∀ c ∈ t, c ≠ '"' ∧ c ≠ '\\' ∧ ¬ c.toNat < 32) :
    escapedSize t = size t := by
  induction t with
  | nil => rfl
  | cons c t ih =>
      obtain ⟨hq, hb, hc⟩ := h c List.mem_cons_self
      have hrest := ih (fun d hd => h d (List.mem_cons_of_mem c hd))
      have hhead : escapedSize [c] = size [c] := by
        rw [escapedSize, List.flatMap_singleton, escape_of_plain hq hb hc]
      rw [← List.singleton_append, escapedSize_append, size_append, hhead, hrest]

lemma digit_plain : ∀ c : Char, c.isDigit = true → c ≠ '"' ∧ c ≠ '\\' ∧ ¬ c.toNat < 32 := by
  intro c h
  refine ⟨?_, ?_, ?_⟩
  · rintro rfl
    revert h
    decide
  · rintro rfl
    revert h
    decide
  · intro hlt
    have hnum := JsonText.printable_of_numeric (t := [c]) (by simp [JsonText.isNumeric, h]) c
    exact hnum List.mem_cons_self hlt

lemma plain_of_all {cs : List Char}
    (h : cs.all (fun c => decide (c ≠ '"' ∧ c ≠ '\\' ∧ ¬ c.toNat < 32)) = true) :
    ∀ c ∈ cs, c ≠ '"' ∧ c ≠ '\\' ∧ ¬ c.toNat < 32 :=
  fun c hc => of_decide_eq_true (List.all_eq_true.1 h c hc)

/-- The mark of a cut is written as it is. -/
lemma escapedSize_marker (n : ℕ) : escapedSize (marker n) = size (marker n) := by
  have hbefore : ∀ c ∈ ['…', '[', 't', 'r', 'u', 'n', 'c', 'a', 't', 'e', 'd', ' '],
      c ≠ '"' ∧ c ≠ '\\' ∧ ¬ c.toNat < 32 := plain_of_all (by decide)
  have hafter : ∀ c ∈ [' ', 'c', 'h', 'a', 'r', 's', ']'],
      c ≠ '"' ∧ c ≠ '\\' ∧ ¬ c.toNat < 32 := plain_of_all (by decide)
  have hdigits : ∀ c ∈ Nat.toDigits 10 n, c ≠ '"' ∧ c ≠ '\\' ∧ ¬ c.toNat < 32 :=
    fun c hc => digit_plain c (JsonText.toDigits_digit hc)
  rw [marker, escapedSize_append, escapedSize_append, size_append, size_append,
    escapedSize_of_plain hbefore, escapedSize_of_plain hafter, escapedSize_of_plain hdigits]

end Sizes

/-! ## The size of a record -/

section Record

/-- The size of a record with empty bodies, which no cut makes smaller. -/
def envelopeSize (env : Envelope K) (truncated : Bool) : ℕ :=
  (serialize ft (document env (.str "") (.str "") truncated)).length

lemma size_dict (d : Dict K) : size (dumps ft ⟨false, false⟩ (.dict d)) =
    size ['{'] + (size (dumpsFields ft ⟨false, false⟩ d) + size ['}']) := by
  rw [dumps, size_cons, size_append]

lemma size_str (s : String) :
    size (dumps ft ⟨false, false⟩ (.str s)) = 2 * size ['"'] + escapedSize s.toList := by
  rw [dumps]
  exact size_quote s

lemma size_field (k : String) (v : Json K) : size (dumpsFields ft ⟨false, false⟩ [(k, v)]) =
    size (quote false k) + (size [':', ' '] + size (dumps ft ⟨false, false⟩ v)) := by
  rw [dumpsFields, size_append, size_append]
  rfl

lemma size_fields (k : String) (v : Json K) (e : String × Json K) (fields : Dict K) :
    size (dumpsFields ft ⟨false, false⟩ ((k, v) :: e :: fields)) =
      size (quote false k) + (size [':', ' '] + (size (dumps ft ⟨false, false⟩ v) +
        (size [',', ' '] + size (dumpsFields ft ⟨false, false⟩ (e :: fields))))) := by
  rw [dumpsFields, size_append, size_append, size_append, size_append]
  rfl

/-- A record with texts for bodies is as long as its envelope and the two texts. -/
lemma length_serialize (env : Envelope K) (request response : Text) (truncated : Bool) :
    (serialize ft (document env (.str (String.ofList request)) (.str (String.ofList response))
      truncated)).length =
      envelopeSize ft env truncated + escapedSize request + escapedSize response := by
  have hempty : escapedSize "".toList = 0 := rfl
  have hsize : ∀ request response : String,
      (serialize ft (document env (.str request) (.str response) truncated)).length =
        size (dumps ft ⟨false, false⟩ (.dict (document env (.str request) (.str response)
          truncated))) := fun _ _ => rfl
  rw [envelopeSize, hsize, hsize, size_dict, size_dict, document, document]
  simp only [size_fields, size_field, size_str, hempty, String.toList_ofList]
  omega

/-- What is kept of a body: so many characters from its beginning. -/
def kept (body : Body K) (limit : ℕ) : Text := (render ft body).take limit

/-- The size of the mark, if the body is cut. -/
def markerSize (body : Body K) (limit : ℕ) : ℕ :=
  if (render ft body).length ≤ limit then 0 else size (marker ((render ft body).length - limit))

lemma escapedSize_clip (body : Body K) (limit : ℕ) :
    escapedSize (clip ft body limit) =
      escapedSize (kept ft body limit) + markerSize ft body limit := by
  unfold clip kept markerSize
  dsimp only
  split_ifs with h
  · rw [List.take_of_length_le h]
    rfl
  · rw [escapedSize_append, escapedSize_marker]

end Record

/-! ## The result -/

section Result

/-- The whole record fits, and the bodies are not cut. -/
def Fits (env : Envelope K) (request response : Body K) (maxBytes : ℤ) : Prop :=
  (serialize ft (document env request.json response.json false)).length ≤ maxBytes

instance (env : Envelope K) (request response : Body K) (maxBytes : ℤ) :
    Decidable (Fits ft env request response maxBytes) := inferInstanceAs (Decidable (_ ≤ _))

/-- The sizes of the two marks, in a record that was cut. -/
def markersSize (env : Envelope K) (request response : Body K) (maxBytes : ℤ) : ℕ :=
  if Fits ft env request response maxBytes then 0
  else markerSize ft request (half maxBytes) + markerSize ft response (half maxBytes)

/-- The record keeps to its cap, its envelope and its marks apart. -/
def Capped (env : Envelope K) (request response : Body K) (maxBytes : ℤ) : Prop :=
  ((record ft env request response maxBytes).length : ℤ) ≤
    maxBytes + envelopeSize ft env (! decide (Fits ft env request response maxBytes)) +
      markersSize ft env request response maxBytes

lemma record_of_fits {env : Envelope K} {request response : Body K} {maxBytes : ℤ}
    (h : Fits ft env request response maxBytes) : record ft env request response maxBytes =
      serialize ft (document env request.json response.json false) := if_neg (not_lt.2 h)

/-- What is kept and the marks are all that is added to the envelope. -/
lemma length_record_of_not_fits {env : Envelope K} {request response : Body K} {maxBytes : ℤ}
    (h : ¬ Fits ft env request response maxBytes) :
    (record ft env request response maxBytes).length = envelopeSize ft env true +
      (escapedSize (kept ft request (half maxBytes)) +
        escapedSize (kept ft response (half maxBytes))) +
      markersSize ft env request response maxBytes := by
  have hrecord : record ft env request response maxBytes = _ := if_pos (not_le.1 h)
  rw [hrecord, length_serialize, escapedSize_clip, escapedSize_clip, markersSize, if_neg h]
  omega

/-- Three thousand characters of three bytes each. -/
def wideBody : Body ℚ := .value (.str (String.ofList (List.replicate 3000 '中')))

def wideEnvelope : Envelope ℚ where
  requestId := "req-1"
  ts := "2026-01-01T00:00:00+00:00"
  subscription := some "vk_a"
  apiId := none
  endUser := none
  model := .str "m"
  endpoint := "chat.completions"
  streamed := true
  status := 200

lemma escapedSize_wide (n : ℕ) : escapedSize (List.replicate n '中') = 3 * n := by
  induction n with
  | zero => rfl
  | succ n ih =>
      have hchar : escapedSize ['中'] = 3 := by decide +kernel
      rw [List.replicate_succ, ← List.singleton_append, escapedSize_append, hchar, ih]
      omega

/-- A thousand wide characters of each body are kept, in three bytes each. -/
theorem not_capped_wide :
    ¬ Capped FloatText.fractions wideEnvelope wideBody wideBody 2048 := by
  have hrender : render FloatText.fractions wideBody = List.replicate 3000 '中' :=
    String.toList_ofList
  have hhalf : half 2048 = 1024 := by decide
  have hkept : escapedSize (kept FloatText.fractions wideBody (half 2048)) = 3072 := by
    rw [kept, hrender, hhalf, List.take_replicate, escapedSize_wide]
    decide
  have hfits : ¬ Fits FloatText.fractions wideEnvelope wideBody wideBody 2048 := by
    have hlength := length_serialize FloatText.fractions wideEnvelope (List.replicate 3000 '中')
      (List.replicate 3000 '中') false
    rw [escapedSize_wide] at hlength
    rw [Fits, wideBody, Body.json, hlength]
    omega
  rw [Capped, length_record_of_not_fits _ hfits, hkept]
  simp only [hfits, decide_false, Bool.not_false]
  omega

/-- **A record keeps to its cap** if and only if it fits as it is, or what is kept of its bodies is
written in as many bytes as the cap allows. -/
theorem capped_iff (env : Envelope K) (request response : Body K) (maxBytes : ℤ) :
    Capped ft env request response maxBytes ↔ Fits ft env request response maxBytes ∨
      ((escapedSize (kept ft request (half maxBytes)) +
        escapedSize (kept ft response (half maxBytes)) : ℕ) : ℤ) ≤ maxBytes := by
  unfold Capped
  by_cases h : Fits ft env request response maxBytes
  · rw [record_of_fits ft h]
    refine iff_of_true ?_ (Or.inl h)
    have hle : ((serialize ft (document env request.json response.json false)).length : ℤ) ≤
        maxBytes := h
    omega
  · rw [length_record_of_not_fits ft h]
    simp only [h, decide_false, Bool.not_false, false_or]
    omega

end Result

end Audit
end TokenFoundry
