import TokenFoundry.Framework.PyValues
import TokenFoundry.Framework.Requests
import TokenFoundry.Api.Keys

/-!
# Budget enforcement (`app/services/budget_enforcer.py`)

`BudgetEnforcer.add_spend` accumulates spend on a budget and, once a `BLOCK` budget is exceeded,
suspends the keys in its scope: first every subscription at the gateway, one after the other, then
the rows, in the commit that also records the spend.

The session keeps what was assigned until the commit; a call that raises before it leaves the
database as it was.
-/

set_option autoImplicit false

namespace TokenFoundry
namespace BudgetEnforcer

open Keys (VirtualKey keysApi)

variable {K : Type}

/-- A row of `budgets`: a limit, what is spent of it, and what is to happen when it is reached. -/
structure Budget (K : Type) where
  id : String
  scope : BudgetScope
  targetId : String
  limitUsd : K
  spentUsd : Option K
  action : BudgetAction

/-- The calls on the database; those on the gateway are the other half of the interface. -/
inductive Call (K : Type)
  /-- The query of `_keys_in_scope`. -/
  | keysInScope (scope : BudgetScope) (targetId : String)
  /-- `db.commit()`: the spend of the budget, and the keys that were marked as suspended. -/
  | commitSpend (budgetId : String) (spent : K) (suspended : List String)

@[reducible] def Call.Answer : Call K → Type
  | .keysInScope _ _ => List VirtualKey
  | .commitSpend _ _ _ => Unit

abbrev budgetsApi (K : Type) : Interface PyErr := ⟨Call K, Call.Answer⟩

/-- The database of the budgets, next to the services of the keys. -/
abbrev enforcerApi (K : Type) : Interface PyErr := keysApi.sum (budgetsApi K)

abbrev Handler (K α : Type) := Prog.Raising (enforcerApi K) α

def ask (o : Call K) : Handler K o.Answer := @Prog.ask _ (enforcerApi K) (.inr o)

/-- The loop of `_suspend_keys_for_budget`: which keys it has marked.  A key without a subscription
is left out, and so is one that is suspended already. -/
def suspendKeys : List VirtualKey → Handler K (List String)
  | [] => return []
  | key :: keys =>
      match key.subscription with
      | none => suspendKeys keys
      | some subscription =>
          if key.status = .suspended then suspendKeys keys
          else do
            Prog.Raising.inl (budgetsApi K) (Keys.setSubscriptionState subscription "suspended")
            let marked ← suspendKeys keys
            return key.id :: marked

variable [PyFloat K]

/-- `x < y`, for the order that the floats have. -/
def lt (x y : K) : Bool := PyFloat.le x y && ! PyFloat.le y x

/-- `budget.spent_usd or 0.0`: a column that is empty counts as nothing spent. -/
def Budget.spent (budget : Budget K) : K :=
  match budget.spentUsd with
  | none => PyFloat.lit 0
  | some x => if PyFloat.isZero x then PyFloat.lit 0 else x

/-- `add_spend`: the amount is added, and a budget that blocks and has reached its limit suspends
the keys in its scope.  The spend and the marks are committed together; the calls on the gateway
come before. -/
def addSpend (budget : Budget K) (amountUsd : K) : Handler K Bool := do
  let spent := PyFloat.add budget.spent amountUsd
  if lt spent budget.limitUsd then
    ask (.commitSpend budget.id spent [])
    return false
  else if budget.action = .alert then
    ask (.commitSpend budget.id spent [])
    return false
  else
    let keys ← ask (.keysInScope budget.scope budget.targetId : Call K)
    let marked ← suspendKeys keys
    ask (.commitSpend budget.id spent marked)
    return ! marked.isEmpty

end BudgetEnforcer
end TokenFoundry
