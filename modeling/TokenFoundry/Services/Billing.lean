import TokenFoundry.Framework.PyValues

/-!
# Cost calculation (`app/services/billing.py`)

What upstream's `copilot_usage` says about the cost and the tokens of a call.
-/

set_option autoImplicit false

namespace TokenFoundry
namespace Billing

variable {K : Type} [PyFloat K]

/-! ## Cost -/

/-- What a request has cost upstream, and what is billed for it. -/
structure CostBreakdown (K : Type) where
  costUsd : K
  billedUsd : K

/-- One AIU is one cent, and upstream counts nano-AIU; so there are 10¹¹ of them in a dollar. -/
def nanoAiuPerUsd : K := PyFloat.lit 100000000000

/-- The decimal places that amounts are rounded to; they are enough for one nano-AIU. -/
def usdPlaces : ℕ := 11

/-- `_round_pair`: the amount that is billed is made of the unrounded cost, and each is rounded
once. -/
def roundPair (cost markupPct : K) (places : ℕ) : CostBreakdown K where
  costUsd := PyFloat.round cost places
  billedUsd := PyFloat.round (PyFloat.mul cost (PyFloat.add (PyFloat.lit 1) markupPct)) places

/-- A number in a value; truth values are none, although Python takes them for integers. -/
def numeral : Json K → Option (Except Failure K)
  | .int n => some (PyFloat.ofInt n)
  | .float x => some (.ok x)
  | _ => none

/-- `cost_from_copilot_usage`: the total of the response at the price of a nano-AIU; `none` where
there is no total, which is no error. -/
def costFromCopilotUsage (copilotUsage : Json K) (markupPct : K) :
    Except Failure (Option (CostBreakdown K)) :=
  match copilotUsage with
  | .dict usage =>
      match numeral (Json.get usage "total_nano_aiu") with
      | none => return none
      | some nano => do
          return some (roundPair (PyFloat.div (← nano) nanoAiuPerUsd) markupPct usdPlaces)
  | _ => return none

/-! ## Tokens -/

/-- The token columns of a document, into which the types of upstream are sorted. -/
inductive TokenField
  | promptTok
  | completionTok
  | cachedTok
  | cacheWriteTok
  deriving DecidableEq, Repr

/-- The name of the column in a document. -/
def TokenField.key : TokenField → String
  | .promptTok => "prompt_tok"
  | .completionTok => "completion_tok"
  | .cachedTok => "cached_tok"
  | .cacheWriteTok => "cache_write_tok"

abbrev Tokens := TokenField → ℤ

/-- No tokens of any kind, with which the loop begins. -/
def Tokens.none : Tokens := fun _ => 0

/-- `any(tokens.values())`: whether the details have said anything at all. -/
def Tokens.any (t : Tokens) : Bool :=
  decide (t .promptTok ≠ 0 ∨ t .completionTok ≠ 0 ∨ t .cachedTok ≠ 0 ∨ t .cacheWriteTok ≠ 0)

/-- `_TOKEN_TYPE_FIELDS`: the column of a token type; the tokens of other types are not counted. -/
def tokenTypeField : String → Option TokenField
  | "input" => some .promptTok
  | "output" => some .completionTok
  | "cache_read" => some .cachedTok
  | "cache_write" => some .cacheWriteTok
  | _ => none

/-- The number of a count; truth values are none, and a float loses its fraction. -/
def count : Json K → Option (Except Failure ℤ)
  | .int n => some (.ok n)
  | .float x => some (PyFloat.truncate x)
  | _ => none

/-- What an entry of `token_details` counts.  The text of a value that is not a text is never
one of the four types. -/
def entryCount : Json K → Option (TokenField × Except Failure ℤ)
  | .dict entry =>
      match Json.get entry "token_type" with
      | .str s =>
          match tokenTypeField s, count (Json.get entry "token_count") with
          | some field, some n => some (field, n)
          | _, _ => none
      | _ => none
  | _ => none

/-- One round of the loop over the details: the count of an entry is added to the column of its
type. -/
def addEntry (out : Tokens) (entry : Json K) : Except Failure Tokens :=
  match entryCount entry with
  | none => return out
  | some (field, n) => do
      let n ← n
      return Function.update out field (out field + n)

/-- `token_details`, if it is a list; otherwise there is nothing to count. -/
def tokenDetails : Json K → List (Json K)
  | .dict usage =>
      match Json.get usage "token_details" with
      | .list details => details
      | _ => []
  | _ => []

/-- `tokens_from_copilot_usage`: the sums over the details, by column. -/
def tokensFromCopilotUsage (copilotUsage : Json K) : Except Failure Tokens :=
  (tokenDetails copilotUsage).foldlM addEntry Tokens.none

/-! ## What can be converted -/

/-- A value whose conversion, if there is one, succeeds; where there is none, nothing is
converted. -/
def converts {α : Type} (n : Option (Except Failure α)) : Bool :=
  match n with
  | some n => n.isOk
  | none => true

/-- Every count of the details can be converted, so that counting them does not raise. -/
def countable (copilotUsage : Json K) : Bool :=
  (tokenDetails copilotUsage).all (fun entry => converts ((entryCount entry).map Prod.snd))

/-- The total, if there is one, can be converted, so that pricing it does not raise. -/
def priceable : Json K → Bool
  | .dict usage => converts (numeral (Json.get usage "total_nano_aiu"))
  | _ => true

lemma costFromCopilotUsage_isOk (u : Json K) (m : K) :
    (costFromCopilotUsage u m).isOk = priceable u := by
  cases u with
  | dict usage =>
      simp only [costFromCopilotUsage, priceable]
      cases numeral (Json.get usage "total_nano_aiu") with
      | none => rfl
      | some nano => cases nano <;> rfl
  | _ => rfl

lemma addEntry_isOk (out : Tokens) (entry : Json K) :
    (addEntry out entry).isOk = converts ((entryCount entry).map Prod.snd) := by
  unfold addEntry
  cases entryCount entry with
  | none => rfl
  | some p =>
      obtain ⟨field, n⟩ := p
      cases n <;> rfl

lemma tokensFromCopilotUsage_isOk (u : Json K) :
    (tokensFromCopilotUsage u).isOk = countable u := by
  unfold tokensFromCopilotUsage countable
  generalize Tokens.none = out
  induction tokenDetails u generalizing out with
  | nil => rfl
  | cons entry details ih =>
      rw [List.foldlM_cons, List.all_cons, ← addEntry_isOk out entry]
      cases h : addEntry out entry with
      | error e => rfl
      | ok out' => exact ih out'

end Billing
end TokenFoundry
