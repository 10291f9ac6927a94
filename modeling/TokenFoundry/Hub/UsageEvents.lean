import TokenFoundry.Framework.JsonText
import TokenFoundry.Framework.Utf8
import TokenFoundry.Hub.Server
import TokenFoundry.Services.UsageCaptureImport

/-!
# A usage record on its way to the control plane

`emit` of a hub writes a record as JSON and sends it as the body of an event (`hub/eventhub.py`).
Event Hub Capture puts the bytes of the body into an Avro record, where `_decode_avro` of the
control plane finds them (`app/services/usage_capture_import.py`).
-/

set_option autoImplicit false

namespace TokenFoundry
namespace UsageEvents

open JsonText (FloatText)
open UsageCaptureImport (AvroRecord)

variable {K : Type} [PyFloat K]

/-! ## What a hub sends -/

/-- `_envelope`: `{"hub_id": cfg.hub_id or None, **record}`; a field of the record goes before the
hub's. -/
def envelope (hubId : String) (record : Dict K) : Dict K :=
  record.foldl (fun d e => Json.setItem d e.1 e.2) [("hub_id", (Json.str hubId).orElse .null)]

variable (ft : FloatText K)

/-- The body of an event: `json.dumps(_envelope(record), default=str)`, in UTF-8. -/
def eventBody (hubId : String) (record : Dict K) : List UInt8 :=
  Utf8.encode (JsonText.dumps ft ⟨false, true⟩ (.dict (envelope hubId record)))

/-! ## What the control plane reads -/

/-- `record.get("Body")`, which may be missing, bytes or a text. -/
inductive Body
  | missing
  | bytes (data : List UInt8)
  | text (t : List Char)

/-- `data.decode("utf-8")`: bytes that are the writing of no text cannot be decoded. -/
def decodeUtf8 (data : List UInt8) : Option (List Char) :=
  if Utf8.encode (Utf8.decode data) = data then some (Utf8.decode data) else none

/-- The text of a body; bytes that are no UTF-8 have none. -/
def Body.asText : Body → Option (List Char)
  | .missing => none
  | .bytes data => decodeUtf8 data
  | .text t => some t

/-- A record of a Capture blob, as `_decode_avro` reads it: a document, or a reason for leaving it
out. -/
def readRecord : Body → AvroRecord K
  | .missing => .noBody
  | body =>
      match body.asText with
      | none => .undecodable
      | some t =>
          match JsonText.loads ft t with
          | none => .undecodable
          | some v => .body v

/-- The events of a Capture blob: the bodies that are objects. -/
def eventsOf (records : List Body) : List (Dict K) :=
  UsageCaptureImport.decodeAvro (records.map (readRecord ft))

end UsageEvents
end TokenFoundry
