import TokenFoundry.Services.LimitPolicy
import TokenFoundry.Services.Pools

/-!
# Provider APIs (`app/services/apim_provisioner.py`)

`ensure_pooled_provider_api` wires the client-facing API of a provider to the provider's pool: the
API, its operations, the inbound policy that routes to the pool, the streaming policy of the `chat`
operation, the product links and the diagnostic.  Everything is a write that replaces what is there.

Only the named value of the limits and the inbound policy are documents that others read; of the
other writes it is recorded that they are made.
-/

set_option autoImplicit false

namespace TokenFoundry
namespace ProviderApis

open KeyLimits (LimitsMap NamedValue IfMatch NamedValueClient)
open Pools (Provider poolId)

/-! ## `PROVIDER_APIS` -/

/-- `cfg["display"]`: the name of the API in the portal. -/
def display : Provider → String
  | .openai => "LLM OpenAI"
  | .anthropic => "LLM Anthropic"
  | .google => "LLM Google"

/-- `cfg["sub_header"]`: the header in which a client of this vendor sends its key. -/
def subHeader : Provider → String
  | .anthropic => "x-api-key"
  | _ => "api-key"

/-- `cfg["ops"]`: the operations of the API and their paths. -/
def ops : Provider → List (String × String)
  | .openai => [("chat", "/v1/chat/completions"), ("responses", "/v1/responses")]
  | .anthropic => [("messages", "/v1/messages"), ("count-tokens", "/v1/messages/count_tokens")]
  | .google => [("chat", "/v1/chat/completions")]

/-- `provider in _CHAT_USAGE_PROVIDERS`: whether streamed chat is asked to report its usage. -/
def chatUsage : Provider → Bool
  | .openai => true
  | _ => false

/-- `_LLM_PRODUCTS`: the products that every API is linked to. -/
def llmProducts : List String := ["starter", "unlimited"]

/-! ## The inbound policy -/

/-- The policy of a provider API: where it routes to, the headers it overrides, and its limits. -/
structure ProviderPolicy where
  backendId : String
  overrides : List String
  limits : LimitPolicy.Fragment

/-- `_build_provider_policy`: the backend, the headers that are set, and the limits; the rest of the
policy is fixed. -/
def buildProviderPolicy (backendId : String) : ProviderPolicy where
  backendId := backendId
  overrides := ["x-tf-subscription", "x-tf-api", "x-tf-request-id", "x-tf-audit"]
  limits := LimitPolicy.buildLimitBlock

/-! ## The calls -/

/-- The calls on the gateway with which an API is set up, each of which may be made again. -/
inductive Call
  | getNamedValue
  | putNamedValue (mapping : LimitsMap) (ifMatch : IfMatch)
  | putApi (apiId display subHeader : String)
  | putOperation (apiId opId urlTemplate : String)
  | putPolicy (apiId : String) (policy : ProviderPolicy)
  | putOperationPolicy (apiId opId : String)
  | linkProduct (productId apiId : String)
  /-- `_arm_token` and the `PUT` of the diagnostic. -/
  | putDiagnostic (apiId : String)

@[reducible] def Call.Answer : Call → Type
  | .getNamedValue => NamedValue
  | _ => Unit

abbrev apisApi : Interface PyErr := ⟨Call, Call.Answer⟩

abbrev Handler (α : Type) := Prog.Raising apisApi α

def ask (o : Call) : Handler o.Answer := @Prog.ask _ apisApi o

def client : NamedValueClient apisApi where
  get := ask .getNamedValue
  put m im := ask (.putNamedValue m im)

/-! ## The operations -/

/-- `except (…, HttpResponseError)`: what is logged and skipped, so that the setup goes on. -/
def skipHttp (p : Handler Unit) : Handler Unit :=
  tryCatch p (fun e => match e with
    | .resourceNotFound => return ()
    | .httpResponse _ => return ()
    | e => throw e)

/-- `_ensure_api_llm_diagnostic`; it also skips the errors of its `PUT`, so that it never ends the
setup. -/
def ensureApiLlmDiagnostic (apiId : String) : Handler Unit :=
  tryCatch (skipHttp (ask (.putDiagnostic apiId))) (fun e => match e with
    | .httpStatus _ => return ()
    | e => throw e)

/-- `_ensure_api_and_ops`: the named value that the policy reads comes first, then the API, its
operations, its policy, its products and its diagnostic. -/
def ensureApiAndOps (p : Provider) (backendId : String) : Handler Unit := do
  KeyLimits.ensureKeyLimitsNv client
  ask (.putApi p.apiId (display p) (subHeader p))
  (ops p).forM (fun op => ask (.putOperation p.apiId op.1 op.2))
  ask (.putPolicy p.apiId (buildProviderPolicy backendId))
  if chatUsage p then
    ask (.putOperationPolicy p.apiId "chat")
  llmProducts.forM (fun productId => skipHttp (ask (.linkProduct productId p.apiId)))
  ensureApiLlmDiagnostic p.apiId

/-- `ensure_pooled_provider_api`; returns the pool id, which stands in the policy as the backend. -/
def ensurePooledProviderApi (p : Provider) : Handler String := do
  ensureApiAndOps p (poolId p)
  return poolId p

end ProviderApis
end TokenFoundry
