import Mathlib.Tactic.Common

/-!
# Model routes (`app/models/orm.py`, `app/models/enums.py`)

A route maps the name of a model to a backend or a pool.  A platform route belongs to no tenant; a
tenant brings its own backends under the same names.

The prices of a route and its markup are read by the import of usage only and are left out here.
-/

set_option autoImplicit false

namespace TokenFoundry

/-- `OwnerScope`: whether a route is for everybody or for one tenant. -/
inductive OwnerScope
  | platform
  | tenant
  deriving DecidableEq, Repr

/-- `AuthMode`: how the gateway authenticates at the backend of a route. -/
inductive AuthMode
  | mi
  | kvSecret
  deriving DecidableEq, Repr

/-- `enums.Provider`: the protocols a route can speak. -/
inductive Protocol
  | openai
  | anthropic
  | google
  | azure
  deriving DecidableEq, Repr

/-- `ModelRoute`: a model that the gateway offers, and the backend that serves it. -/
structure ModelRoute where
  id : String
  tenantId : Option String
  name : String
  provider : Protocol
  vendor : Option String
  apimBackendOrPoolId : Option String
  deploymentName : Option String
  apiVersion : Option String
  ownerScope : OwnerScope
  authMode : AuthMode
  deriving DecidableEq, Repr

/-- The rows that `ux_model_routes_platform_name` is about: a name is unique among them. -/
def ModelRoute.isPlatform (r : ModelRoute) : Bool := r.ownerScope = .platform ∧ r.tenantId = none

/-! ## Names of models -/

/-- The lower case of a character, as far as a comparison with ASCII text can tell: the Kelvin sign
and the dotted capital I are the only other characters whose lower case contains ASCII letters. -/
def lowerChar (c : Char) : List Char :=
  if c = Char.ofNat 0x212a then ['k']
  else if c = Char.ofNat 0x130 then ['i', Char.ofNat 0x307]
  else [c.toLower]

/-- `m.lower().startswith(prefixes)`: one of the prefixes is enough. -/
def lowerStartsWith (m : String) (prefixes : List String) : Bool :=
  prefixes.any (fun p => p.toList.isPrefixOf (m.toList.flatMap lowerChar))

/-- `_VENDOR_PREFIXES`: the vendors in the order in which they are tried. -/
def vendorPrefixes : List (List String × String) :=
  [(["claude"], "Anthropic"),
    (["gpt", "o1-", "o3-", "o4-", "chatgpt", "text-embedding"], "OpenAI"),
    (["gemini"], "Google"),
    (["grok"], "xAI"),
    (["kimi"], "Moonshot"),
    (["deepseek"], "DeepSeek"),
    (["mai-"], "Microsoft"),
    (["llama"], "Meta"),
    (["mistral", "codestral"], "Mistral")]

/-- `vendor_for_model`: the vendor of the first prefix that fits, if any does. -/
def vendorForModel (modelId : String) : Option String :=
  (vendorPrefixes.find? (fun entry => lowerStartsWith modelId entry.1)).map (·.2)

end TokenFoundry
