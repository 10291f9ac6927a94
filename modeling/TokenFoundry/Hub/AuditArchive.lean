import TokenFoundry.Framework.Datetime
import TokenFoundry.Framework.Interleaving
import TokenFoundry.Hub.Audit
import TokenFoundry.Hub.Server

/-!
# The archive of audited exchanges (`hub/audit.py`)

`submit` names the blob of an exchange and schedules its upload.  The usage record carries the name
at once, whatever becomes of the upload.  Uploads are bounded in number, and what is given up on is
counted.

As in `Hub/Eventhub.lean`, a stretch of code without an await is one call, and the awaits are calls
as well.  An exchange and its upload are one program here, of which the callback that takes the
upload out of the set is the last call.  The credential, the log and a cancellation of the process
are left out.
-/

set_option autoImplicit false

namespace TokenFoundry
namespace Audit

open JsonText (FloatText)

/-! ## The name of a blob -/

def unknown : Text := "unknown".toList

/-- The characters that `_UNSAFE` does not match: letters and digits of ASCII, the underscore and
the hyphen. -/
def isSafe (c : Char) : Bool := c.isAlphanum || c == '_' || c == '-'

/-- `_UNSAFE.sub("_", (value or "unknown").strip() or "unknown")`: a part of a path without a slash,
and never empty. -/
def segment (value : String) : Text :=
  let stripped := Server.strip (if value = "" then unknown else value.toList)
  (if stripped = [] then unknown else stripped).map (fun c => if isSafe c then c else '_')

/-- `f"{ts:%Y/%m/%d}"`: the folder of a day. -/
def dayPath (ts : Datetime) : Text :=
  IsoText.pad 4 ts.year ++ '/' :: (IsoText.pad 2 ts.month ++ '/' :: IsoText.pad 2 ts.day)

/-- `blob_path`: the day, the key and the request, each a part of its own. -/
def blobPath (ts : Datetime) (subscription : Option String) (requestId : String) : Text :=
  dayPath ts ++ '/' :: (segment (subscription.getD "") ++ '/' ::
    (segment requestId ++ ".json.gz".toList))

/-- What `submit` is called with: a request, its answer and the envelope. -/
structure Exchange (K : Type) where
  requestId : String
  moment : Datetime
  subscription : Option String
  apiId : Option String
  endUser : Option String
  model : Json K
  endpoint : String
  streamed : Bool
  status : ℤ
  request : Body K
  response : Body K

/-- What is read of the settings, and the libraries that write a payload. -/
structure Settings (K : Type) where
  /-- `audit_enabled`. -/
  enabled : Bool
  maxBytes : ℤ
  floats : FloatText K
  compress : Bytes → Bytes

section Functions

variable {K : Type}

/-- The name under which an exchange is archived. -/
def Exchange.path (x : Exchange K) : Text := blobPath x.moment x.subscription x.requestId

/-- What is archived of an exchange. -/
def Exchange.payload (st : Settings K) (x : Exchange K) : Bytes :=
  buildPayload st.floats st.compress
    ⟨x.requestId, x.moment.isoformat, x.subscription, x.apiId, x.endUser, x.model, x.endpoint,
      x.streamed, x.status⟩ x.request x.response st.maxBytes

/-! ## The state of the module -/

/-- The globals of the module, with the payloads that are counted or in flight. -/
structure Archive (ι : Type) where
  /-- `_client is not None`. -/
  client : Bool
  initFailed : Bool
  /-- `_dropped`, with an entry for every payload counted. -/
  dropped : List ι
  /-- `_inflight`. -/
  inflight : List ι

/-- `_MAX_INFLIGHT`: with so many uploads in flight, another payload is dropped. -/
def maxInflight : ℕ := 64

/-- `submit`; `scheduled` tells whether the payload is built and its task created. -/
def submit {ι : Type} (st : Settings K) (scheduled : Bool) (i : ι) (x : Exchange K)
    (a : Archive ι) : Option (Text × Bytes) × Archive ι :=
  if ! st.enabled then (none, a)
  else if maxInflight ≤ a.inflight.length then (none, { a with dropped := i :: a.dropped })
  else if scheduled then
    (some (x.path, x.payload st), { a with inflight := i :: a.inflight })
  else (none, { a with dropped := i :: a.dropped })

/-- `_get_client`: whether there is one; `built` tells whether its construction succeeds. -/
def getClient {ι : Type} (st : Settings K) (built : Bool) (a : Archive ι) : Bool × Archive ι :=
  if a.client then (true, a)
  else if a.initFailed then (false, a)
  else if st.enabled && built then (true, { a with client := true })
  else (false, { a with initFailed := true })

/-! ## The calls -/

/-- What an await may raise; what it is makes no difference. -/
inductive Raised
  | exception
  deriving DecidableEq

/-- The points at which another task may run, and the changes of the globals in between. -/
inductive Call (K : Type)
  | submit (x : Exchange K)
  | getClient
  | uploadBlob (name : Text) (data : Bytes)
  /-- `_dropped += 1`. -/
  | drop
  /-- `_inflight.discard`. -/
  | discard
  /-- `asyncio.gather`; the uploads raise nothing. -/
  | gather
  /-- `_client = _credential = None`; answers whether there was a client. -/
  | takeClients
  | close

@[reducible] def Call.Answer : Call K → Type
  | .submit _ => Option (Text × Bytes)
  | .getClient => Bool
  | .takeClients => Bool
  | _ => Unit

abbrev auditApi (K : Type) : Interface Raised := ⟨Call K, Call.Answer⟩

abbrev Task (K α : Type) := Prog.Raising (auditApi K) α

def ask (o : Call K) : Task K o.Answer := @Prog.ask _ (auditApi K) o

/-- `_upload`: the blob is uploaded, or counted as dropped where there is no client or the service
raises. -/
def upload (path : Text) (blob : Bytes) : Task K Unit :=
  tryCatch (do
      if ← ask .getClient then ask (.uploadBlob path blob)
      else ask .drop)
    (fun _ => ask .drop)

/-- An exchange: what `submit` answers, and the task that it creates. -/
def archiveExchange (x : Exchange K) : Task K (Option Text) := do
  match ← ask (.submit x) with
  | none => return none
  | some (path, blob) =>
      upload path blob
      ask .discard
      return some path

/-- `aclose`: the uploads in flight are waited for, and then the clients are closed. -/
def aclose : Task K (Option Text) := do
  ask .gather
  if ← ask .takeClients then
    tryCatch (ask .close) (fun _ => return ())
    tryCatch (ask .close) (fun _ => return ())
  return none

end Functions

end Audit
end TokenFoundry
