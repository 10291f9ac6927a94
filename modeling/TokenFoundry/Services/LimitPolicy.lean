import TokenFoundry.Services.KeyLimits
import TokenFoundry.Models.Schemas

/-!
# The gateway fragment that enforces the limits (`_build_limit_block`)

`_build_limit_block` writes a policy fragment: four `<set-variable>` elements and a `<choose>`.
The fragment is kept as syntax (`Fragment`), in the words of the policy language, and
`Fragment.eval` is its meaning for one request: the variables are set in order, `<choose>` runs
the body of its first `<when>` whose condition holds, and otherwise the body of `<otherwise>`.
The result is the list of the `llm-token-limit` elements that were applied.

The named value is substituted into the first variable as text and parsed by every expression;
here the variable holds the parsed map.
-/

set_option autoImplicit false

namespace TokenFoundry
namespace LimitPolicy

open KeyLimits

/-! ## The policy language -/

/-- Values of policy variables and of entry fields. -/
inductive Value
  | int (n : ℤ)
  | str (s : String)
  | map (m : LimitsMap)
  deriving DecidableEq

/-- A cast applied to a JSON token, as the expression of the policy writes it. -/
inductive Cast
  | int
  | string

/-- The expressions of the policy, each of which reads the request or a variable that was set
before. -/
inductive Expr
  /-- `{{tf-key-token-limits}}`. -/
  | namedValue
  /-- The `try`/`catch` expression that reads one field of the calling subscription's entry. -/
  | lookup (field : String) (cast : Cast) (default : Value)
  /-- `context.Variables.GetValueOrDefault<…>(name, default)`. -/
  | getValueOrDefault (name : String) (default : Value)
  /-- `(string)context.Variables[name]`. -/
  | contextVariable (name : String)

/-- `expr == equals`, the condition of a branch. -/
structure Condition where
  expr : Expr
  equals : Value

/-- An `<llm-token-limit>` element; its counter key is always the calling subscription. -/
structure LlmTokenLimit where
  tokensPerMinute : Expr
  tokenQuota : Option ℕ
  tokenQuotaPeriod : Option Expr

/-- A branch of `<choose>`: its condition, and the limits in its body. -/
structure When where
  condition : Condition
  body : List LlmTokenLimit

/-- What stands in the policy: variables that are set, and the branches that apply limits. -/
structure Fragment where
  setVariables : List (String × Expr)
  whens : List When
  otherwise : List LlmTokenLimit

/-! ## `_build_limit_block` -/

/-- `_TPM_UNLIMITED`: the number that stands for no limit per minute. -/
def tpmUnlimited : ℤ := 1000000000

/-- `_PERIOD_DEFAULT`: the period of an entry that has none. -/
def periodDefault : String := "Yearly"

/-- The limit per minute that the variables give. -/
def tpmAttr : Expr := .getValueOrDefault "tfTpm" (.int tpmUnlimited)

/-- The period that the variables give. -/
def periodAttr : Expr := .getValueOrDefault "tfPeriod" (.str periodDefault)

/-- The first branch: a key without a per-minute limit skips `llm-token-limit`. -/
def unlimitedWhen : When := ⟨⟨tpmAttr, .int tpmUnlimited⟩, []⟩

/-- The branch of a tier, with its literal amount; the period and the limit per minute are those of
the variables. -/
def tierWhen (tier : TokenQuotaTier) (amount : ℕ) : When :=
  ⟨⟨.contextVariable "tfQTier", .str tier.value⟩, [⟨tpmAttr, some amount, some periodAttr⟩]⟩

/-- `_build_limit_block`: the entry of the calling subscription is read into variables, and the
first branch that fits applies the limits.  The branch of the keys without a limit per minute is the
first one. -/
def buildLimitBlock : Fragment where
  setVariables :=
    [("tfRaw", .namedValue),
      ("tfTpm", .lookup "t" .int (.int tpmUnlimited)),
      ("tfPeriod", .lookup "p" .string (.str periodDefault)),
      ("tfQTier", .lookup "qt" .string (.str "none"))]
  whens := unlimitedWhen :: tokenQuotaAmounts.map (fun p => tierWhen p.1 p.2)
  otherwise := [⟨tpmAttr, none, none⟩]

/-! ## Evaluation -/

/-- What an expression sees of a request: its subscription, the limits map, and the variables that
are set. -/
structure Context where
  subscriptionId : String
  namedValue : LimitsMap
  vars : String → Option Value

/-- A limit that was applied to a request: per minute, and for a period where there is a quota. -/
structure Applied where
  tokensPerMinute : ℤ
  quota : Option (ℕ × String)
  deriving DecidableEq

/-- A field of an entry, by the letter that the map has for it. -/
def fieldOf (e : Entry) : String → Option Value
  | "t" => e.t.map .int
  | "qt" => e.qt.map .str
  | "p" => e.p.map .str
  | "a" => e.a.map .int
  | _ => none

/-- `(int)` raises outside the range of a 32-bit integer; the expression around it then gives its
default. -/
def Cast.apply : Cast → Value → Option Value
  | .int, .int n => if -2147483648 ≤ n ∧ n ≤ 2147483647 then some (.int n) else none
  | .string, .int n => some (.str (toString n))
  | .string, .str s => some (.str s)
  | _, _ => none

/-- The value of an expression, or `none` where it raises.  A lookup has a default for everything
that can go wrong in it. -/
def Expr.eval (ctx : Context) : Expr → Option Value
  | .namedValue => some (.map ctx.namedValue)
  | .lookup field cast default =>
      match ctx.vars "tfRaw" with
      | some (.map m) =>
          match (m.lookup ctx.subscriptionId).bind (fun e => fieldOf e field) with
          | some v => some ((cast.apply v).getD default)
          | none => some default
      | _ => some default
  | .getValueOrDefault name default => some ((ctx.vars name).getD default)
  | .contextVariable name => ctx.vars name

/-- A variable is set, and the others stay. -/
def Context.set (ctx : Context) (name : String) (v : Value) : Context :=
  { ctx with vars := fun n => if n = name then some v else ctx.vars n }

/-- `<set-variable>` in order, each of which sees the ones before it. -/
def setAll (ctx : Context) : List (String × Expr) → Option Context
  | [] => some ctx
  | (name, e) :: rest => (e.eval ctx).bind (fun v => setAll (ctx.set name v) rest)

/-- `<choose>`: the body of the first branch whose condition holds; no later branch is looked at. -/
def choose (ctx : Context) (whens : List When) (otherwise : List LlmTokenLimit) :
    Option (List LlmTokenLimit) :=
  match whens with
  | [] => some otherwise
  | w :: rest =>
      (w.condition.expr.eval ctx).bind (fun v =>
        if v = w.condition.equals then some w.body else choose ctx rest otherwise)

/-- The limit that an element applies to a request, from the variables of it. -/
def LlmTokenLimit.eval (ctx : Context) (l : LlmTokenLimit) : Option Applied :=
  match l.tokensPerMinute.eval ctx, l.tokenQuota, l.tokenQuotaPeriod.map (Expr.eval ctx) with
  | some (.int n), none, _ => some ⟨n, none⟩
  | some (.int n), some amount, some (some (.str period)) => some ⟨n, some (amount, period)⟩
  | _, _, _ => none

/-- The limits applied to a request of a subscription, or `none` where the fragment raises. -/
def Fragment.eval (f : Fragment) (m : LimitsMap) (subscriptionId : String) :
    Option (List Applied) := do
  let ctx ← setAll ⟨subscriptionId, m, fun _ => none⟩ f.setVariables
  let body ← choose ctx f.whens f.otherwise
  body.mapM (LlmTokenLimit.eval ctx)

end LimitPolicy
end TokenFoundry
