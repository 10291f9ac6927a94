import TokenFoundry.Framework.JsonText
import TokenFoundry.Properties.UpstreamContract

/-!
# A request that is not streamed, and its record

`serve` answers a request under `/v1`.  Whatever the backend does, one of five things happens: the
request is refused before anything is sent, a stream is begun, one call is sent whose answer is
lost, one call is sent and answered, or it is answered with something that cannot be written again.
`Ending` lists them; everything else is read off it.

The record is made before the response is.  So a call whose answer reaches the client has one
record, with the status of the backend, and a call whose answer is not read, or whose bodies cannot
be archived, has none; an answer with 200 that is no document of its kind is neither delivered nor
recorded.  In between is the answer that `json.loads` accepts and `JSONResponse` refuses, such as
one with `NaN`: it is recorded, and the client gets an error.
-/

set_option autoImplicit false

namespace TokenFoundry
namespace Requests

open AdminApi (Headers Refusal)
open CopilotClient (Exn)
open Server (Counts UsageCall)
open Outcomes (ok_bind error_bind)

variable {K : Type} [PyFloat K]

/-! ## What is billed, and how it is counted -/

/-- The counts of an answer with 200, which the handlers read off in their own ways. -/
def countsOf (env : Env K) : Server.Route → Dict K → Except Exn (Counts K)
  | .chatCompletions => passthroughCounts false
  | .responses => passthroughCounts true
  | .messages => messagesCounts env.py

/-- `data.get("usage")` is read only if the answer is a dictionary. -/
def Readable (count : Dict K → Except Exn (Counts K)) (status : ℤ) (data : Json K) : Prop :=
  status ≠ 200 ∨ ∃ d counts, data = .dict d ∧ count d = .ok counts

/-- The record of an answer is made with this.  A refused call is recorded with its status and
without counts, a served one with the counts of its answer. -/
inductive Recorded (b : Billed K) (count : Dict K → Except Exn (Counts K)) (status : ℤ)
    (data : Json K) : UsageCall K → Prop
  | refused : status ≠ 200 → Recorded b count status data (refusedCall b status)
  | served {d : Dict K} {counts : Counts K} : status = 200 → data = .dict d →
      count d = .ok counts → Recorded b count status data (servedCall b d counts)

omit [PyFloat K] in
lemma Recorded.tenant {b : Billed K} {count : Dict K → Except Exn (Counts K)} {status : ℤ}
    {data : Json K} {c : UsageCall K} (h : Recorded b count status data c) :
    c.tenant = b.tenant := by
  cases h <;> rfl

/-! ## One call -/

/-- How a call ends that is not streamed: without a token, without an answer that can be read and
archived, with a record and the answer, or with a record and an answer that cannot be rendered. -/
inductive CallEnding (env : Env K) (count : Dict K → Except Exn (Counts K)) (b : Billed K)
    (call : Call K) : EStateM.Result Refusal (Effects K) (Answer K) → Prop
  /-- There is no token for the backend. -/
  | unsent (e : Refusal) : CallEnding env count b call (.error e ⟨[], []⟩)
  /-- There is no answer, or it cannot be read, or it cannot be archived. -/
  | lost {e : Refusal} : (∀ status document text, env.post call = .answered status document text →
        Readable count status (document.getD (errorDocument text)) →
          ∃ f, Server.archive env.sched b.tenant = .error f) →
      CallEnding env count b call (.error e ⟨[call], []⟩)
  | answered {status : ℤ} {document : Option (Json K)} {text : String} {c : UsageCall K}
      {blob : Option String} : env.post call = .answered status document text →
      Recorded b count status (document.getD (errorDocument text)) c →
      Server.archive env.sched b.tenant = .ok blob →
      (∃ out, env.render (document.getD (errorDocument text)) = .ok out) →
      CallEnding env count b call (.ok (.json status (document.getD (errorDocument text)))
        ⟨[call], [Server.usageRecord c env.sched.now blob]⟩)
  /-- The answer has been recorded, but cannot be written for the client. -/
  | unwritten {status : ℤ} {document : Option (Json K)} {text : String} {c : UsageCall K}
      {blob : Option String} {f : CopilotClient.Fault} :
      env.post call = .answered status document text →
      Recorded b count status (document.getD (errorDocument text)) c →
      Server.archive env.sched b.tenant = .ok blob →
      env.render (document.getD (errorDocument text)) = .error f →
      CallEnding env count b call (.error (refusalOf (.fault f))
        ⟨[call], [Server.usageRecord c env.sched.now blob]⟩)

omit [PyFloat K] in
lemma orRaise_ok {α : Type} {x : Except Exn α} {a : α} (h : x = .ok a) (s : Effects K) :
    orRaise x s = .ok a s := by
  rw [h]
  rfl

omit [PyFloat K] in
lemma orRaise_error {α : Type} {x : Except Exn α} {e : Exn} (h : x = .error e) (s : Effects K) :
    orRaise x s = .error (refusalOf e) s := by
  rw [h]
  rfl

omit [PyFloat K] in
/-- A record is handed over, unless the bodies cannot be archived. -/
lemma emitUsage_run (env : Env K) (c : UsageCall K) (s : Effects K) :
    (∃ f, Server.archive env.sched c.tenant = .error f ∧
      emitUsage env c s = .error (refusalOf (.fault f)) s) ∨
    ∃ blob, Server.archive env.sched c.tenant = .ok blob ∧
      emitUsage env c s =
        .ok () { s with records := s.records ++ [Server.usageRecord c env.sched.now blob] } := by
  unfold emitUsage
  cases harchive : Server.archive env.sched c.tenant with
  | error f => exact .inl ⟨f, rfl, error_bind (orRaise_error rfl s)⟩
  | ok blob => exact .inr ⟨blob, rfl, ok_bind (orRaise_ok rfl s)⟩

/-- A call is sent if there is a token; then it is answered or not. -/
lemma postJson_run (env : Env K) (call : Call K) (s : Effects K) :
    (∃ e, postJson env call s = .error e s) ∨
    (∃ f, env.post call = .failed f ∧
      postJson env call s = .error .raised { s with sent := s.sent ++ [call] }) ∨
    ∃ status document text, env.post call = .answered status document text ∧
      postJson env call s =
        .ok (status, document.getD (errorDocument text)) { s with sent := s.sent ++ [call] } := by
  unfold postJson
  cases htoken : CopilotClient.getApiToken env.py env.tokens with
  | error e => exact .inl ⟨_, error_bind (orRaise_error rfl s)⟩
  | ok token =>
      rw [ok_bind (orRaise_ok rfl s)]
      cases hpost : env.post call with
      | failed f => exact .inr (.inl ⟨f, rfl, rfl⟩)
      | answered status document text => exact .inr (.inr ⟨status, document, text, rfl, rfl⟩)

omit [PyFloat K] in
/-- The response is made, unless its document cannot be written. -/
lemma jsonResponse_run (env : Env K) (status : ℤ) (data : Json K) (s : Effects K) :
    (∃ f, env.render data = .error f ∧
      jsonResponse env status data s = .error (refusalOf (.fault f)) s) ∨
    ∃ out, env.render data = .ok out ∧
      jsonResponse env status data s = .ok (.json status data) s := by
  unfold jsonResponse
  cases hrender : env.render data with
  | error f => exact .inl ⟨f, rfl, error_bind (orRaise_error rfl s)⟩
  | ok out => exact .inr ⟨out, rfl, ok_bind (orRaise_ok rfl s)⟩

omit [PyFloat K] in
/-- An answer that cannot be read is lost: the handler raises before the record is made, and the
effects stay as they were. -/
lemma finish_unread {env : Env K} {count : Dict K → Except Exn (Counts K)} {b : Billed K}
    {status : ℤ} {data : Json K} (s : Effects K) (h : ¬ Readable count status data) :
    ∃ e, finish env b count status data s = .error e s := by
  obtain ⟨hstatus, hcount⟩ := not_or.1 h
  unfold finish
  rw [if_neg hstatus]
  cases data with
  | dict d =>
      have hdict : CopilotClient.converted (Json.dict d).asDict = .ok d := rfl
      rw [ok_bind (orRaise_ok hdict s)]
      cases hcounts : count d with
      | error e => exact ⟨_, error_bind (orRaise_error rfl s)⟩
      | ok counts => exact absurd ⟨d, counts, rfl, hcounts⟩ hcount
  | _ => exact ⟨_, error_bind (orRaise_error rfl s)⟩

omit [PyFloat K] in
/-- An answer that can be read is recorded, and then the response is made. -/
lemma finish_read {env : Env K} {count : Dict K → Except Exn (Counts K)} (b : Billed K)
    {status : ℤ} {data : Json K} (s : Effects K) (h : Readable count status data) :
    ∃ c, Recorded b count status data c ∧ finish env b count status data s =
      (emitUsage env c >>= fun _ => jsonResponse env status data) s := by
  unfold finish
  by_cases hstatus : status = 200
  · obtain ⟨d, counts, rfl, hcounts⟩ := h.resolve_left (not_not_intro hstatus)
    have hdict : CopilotClient.converted (Json.dict d).asDict = .ok d := rfl
    refine ⟨servedCall b d counts, .served hstatus rfl hcounts, ?_⟩
    rw [if_neg (not_not_intro hstatus), ok_bind (orRaise_ok hdict s),
      ok_bind (orRaise_ok hcounts s), hstatus]
  · exact ⟨refusedCall b status, .refused hstatus, by rw [if_pos hstatus]⟩

/-- How a call ends, by cases on what the backend does and on whether the answer can be read,
archived and rendered. -/
lemma call_ending (env : Env K) (count : Dict K → Except Exn (Counts K)) (b : Billed K)
    (call : Call K) :
    CallEnding env count b call
      ((postJson env call >>= fun r => finish env b count r.1 r.2) ⟨[], []⟩) := by
  rcases postJson_run env call ⟨[], []⟩ with ⟨e, hpost⟩ | ⟨f, hfailed, hpost⟩ |
    ⟨status, document, text, hanswer, hpost⟩
  · rw [error_bind hpost]
    exact .unsent e
  · rw [error_bind hpost]
    refine .lost (fun status document text hanswer => ?_)
    rw [hfailed] at hanswer
    cases hanswer
  rw [ok_bind hpost]
  change CallEnding env count b call
    (finish env b count status (document.getD (errorDocument text)) ⟨[call], []⟩)
  by_cases hread : Readable count status (document.getD (errorDocument text))
  · obtain ⟨c, hrecorded, hfinish⟩ := finish_read b ⟨[call], []⟩ hread
    have htenant : c.tenant = b.tenant := hrecorded.tenant
    rw [hfinish]
    rcases emitUsage_run env c ⟨[call], []⟩ with ⟨f, hf, hrun⟩ | ⟨blob, hblob, hrun⟩
    · rw [error_bind hrun]
      exact .lost (fun _ _ _ _ _ => ⟨f, htenant ▸ hf⟩)
    rw [ok_bind hrun]
    rcases jsonResponse_run env status (document.getD (errorDocument text))
      ⟨[call], [Server.usageRecord c env.sched.now blob]⟩ with ⟨f, hf, hrun⟩ | ⟨out, hout, hrun⟩
    · exact hrun ▸ .unwritten hanswer hrecorded (htenant ▸ hblob) hf
    · exact hrun ▸ .answered hanswer hrecorded (htenant ▸ hblob) ⟨out, hout⟩
  · obtain ⟨e, hrun⟩ := finish_unread ⟨[call], []⟩ hread
    rw [hrun]
    refine .lost (fun status' document' text' hanswer' hread' => ?_)
    rw [hanswer] at hanswer'
    cases hanswer'
    exact absurd hread' hread

/-! ## A request -/

/-- What an endpoint sends on, and whether the answer is streamed. -/
def callFor (env : Env K) (h : Headers) (d : Dict K) : Server.Route → Except Exn (Call K × Bool)
  | .chatCompletions => passthroughCall "/chat/completions" false d
  | .responses => passthroughCall "/responses" true d
  | .messages => messagesCall env.anthropicVersion h d

def endpointOf : Server.Route → String
  | .chatCompletions => "chat.completions"
  | .responses => "responses"
  | .messages => "messages"

/-- Who is billed for a call, and for what: the tenant of the headers, the user and the model of the
body, and the endpoint of the route. -/
def billedFor (env : Env K) (h : Headers) (route : Server.Route) (call : Call K) : Billed K :=
  ⟨extractTenant env.fingerprint env.uuid h, extractEndUser (.dict call.body),
    Json.get call.body "model", endpointOf route⟩

/-- How a request ends: it is refused before the call, it is answered with a stream, or the call is
made and ends in one of the ways of `CallEnding`. -/
inductive Ending (env : Env K) (route : Server.Route) (h : Headers) :
    Option (Json K) → EStateM.Result Refusal (Effects K) (Answer K) → Prop
  | refused {body : Option (Json K)} (e : Refusal) : Ending env route h body (.error e ⟨[], []⟩)
  | streamed {d : Dict K} {call : Call K} {req : Server.Request K} {who : Option String} :
      AdminApi.checkClientAuth env.settings env.db h = .ok who →
      callFor env h d route = .ok (call, true) →
      req.tenant = extractTenant env.fingerprint env.uuid h →
      Ending env route h (some (.dict d)) (.ok (.stream route call req) ⟨[], []⟩)
  | sent {d : Dict K} {call : Call K} {who : Option String}
      {r : EStateM.Result Refusal (Effects K) (Answer K)} :
      AdminApi.checkClientAuth env.settings env.db h = .ok who →
      callFor env h d route = .ok (call, false) →
      CallEnding env (countsOf env route) (billedFor env h route call) call r →
      Ending env route h (some (.dict d)) r

omit [PyFloat K] in
lemma callerAndBody_run (env : Env K) (h : Headers) (body : Option (Json K)) (s : Effects K) :
    (∃ e, callerAndBody env h body s = .error e s) ∨
      ∃ d who, body = some (.dict d) ∧
        AdminApi.checkClientAuth env.settings env.db h = .ok who ∧
          callerAndBody env h body s = .ok d s := by
  unfold callerAndBody
  cases hauth : AdminApi.checkClientAuth env.settings env.db h with
  | error e => exact .inl ⟨e, rfl⟩
  | ok who =>
      cases body with
      | none => exact .inl ⟨.raised, rfl⟩
      | some v =>
          cases v with
          | dict d => exact .inr ⟨d, who, rfl, rfl, rfl⟩
          | _ => exact .inl ⟨.raised, rfl⟩

omit [PyFloat K] in
lemma requireLogin_run (env : Env K) (s : Effects K) :
    requireLogin env s = .ok () s ∨ ∃ e, requireLogin env s = .error e s := by
  unfold requireLogin
  split_ifs
  · exact .inl rfl
  · exact .inr ⟨_, rfl⟩

lemma v1Messages_ending (env : Env K) (h : Headers) (body : Option (Json K)) :
    Ending env .messages h body (v1Messages env h body ⟨[], []⟩) := by
  unfold v1Messages
  rcases callerAndBody_run env h body ⟨[], []⟩ with ⟨e, hadmit⟩ | ⟨d, who, rfl, hauth, hadmit⟩
  · rw [error_bind hadmit]
    exact .refused e
  rw [ok_bind hadmit]
  rcases requireLogin_run env ⟨[], []⟩ with hlogin | ⟨e, hlogin⟩
  swap
  · rw [error_bind hlogin]
    exact .refused e
  rw [ok_bind hlogin]
  cases hcall : messagesCall env.anthropicVersion h d with
  | error e =>
      rw [error_bind (orRaise_error rfl _)]
      exact .refused _
  | ok r =>
      rw [ok_bind (orRaise_ok rfl _)]
      obtain ⟨call, stream⟩ := r
      cases stream with
      | true => exact .streamed hauth hcall rfl
      | false => exact .sent hauth hcall (call_ending env (messagesCounts env.py) _ call)

lemma passthroughCall_plain {path : String} {responsesShape : Bool} {d : Dict K} {call : Call K}
    (h : passthroughCall path responsesShape d = .ok (call, false)) : call.body = d := by
  unfold passthroughCall at h
  obtain ⟨hasImage, -, h⟩ := Outcomes.bind_eq_ok.1 h
  cases hstream : (Json.get d "stream").truthy with
  | true =>
      simp only [hstream] at h
      have hpair := Except.ok.inj h
      cases hpair
  | false =>
      simp only [hstream, Bool.false_and, Bool.false_eq_true, if_false] at h
      cases h
      rfl

/-- The two handlers that pass their body through differ in the shape of the answer only, and both
end as `Ending` says. -/
lemma passthrough_ending (env : Env K) (path endpoint : String) (responsesShape : Bool)
    (h : Headers) (body : Option (Json K)) {route : Server.Route}
    (hroute : route = if responsesShape then .responses else .chatCompletions)
    (hcallFor : ∀ d, callFor env h d route = passthroughCall path responsesShape d)
    (hcounts : countsOf env route = passthroughCounts responsesShape)
    (hendpoint : endpointOf route = endpoint) :
    Ending env route h body (passthrough env path endpoint responsesShape h body ⟨[], []⟩) := by
  unfold passthrough
  rcases callerAndBody_run env h body ⟨[], []⟩ with ⟨e, hadmit⟩ | ⟨d, who, rfl, hauth, hadmit⟩
  · rw [error_bind hadmit]
    exact .refused e
  rw [ok_bind hadmit]
  rcases requireLogin_run env ⟨[], []⟩ with hlogin | ⟨e, hlogin⟩
  swap
  · dsimp only
    rw [error_bind hlogin]
    exact .refused e
  dsimp only
  rw [ok_bind hlogin]
  have hcallFor' := hcallFor d
  -- What the request asks for decides between an error, a stream and a single answer.
  cases hcall : passthroughCall path responsesShape d with
  | error e =>
      rw [error_bind (orRaise_error rfl _)]
      exact .refused _
  | ok r =>
      rw [ok_bind (orRaise_ok rfl _)]
      rw [hcall] at hcallFor'
      obtain ⟨call, stream⟩ := r
      cases stream with
      | true =>
          simp only [if_true]
          cases hest : estimatePromptTokens env.json call.body with
          | error e =>
              rw [error_bind (orRaise_error rfl _)]
              exact .refused _
          | ok estInput =>
              rw [ok_bind (orRaise_ok rfl _), ← hroute]
              exact .streamed hauth hcallFor' rfl
      | false =>
          obtain rfl : call.body = d := passthroughCall_plain hcall
          refine .sent hauth hcallFor' ?_
          rw [hcounts, billedFor, hendpoint]
          exact call_ending env (passthroughCounts responsesShape) _ call

/-- **How a request ends**, whatever the backend does.  Each result about records and answers below
is read off the cases of `Ending`. -/
theorem serve_ending (env : Env K) (route : Server.Route) (h : Headers) (body : Option (Json K)) :
    Ending env route h body (serve env route h body ⟨[], []⟩) := by
  cases route with
  | chatCompletions =>
      exact passthrough_ending env _ _ false h body rfl (fun _ => rfl) rfl rfl
  | responses => exact passthrough_ending env _ _ true h body rfl (fun _ => rfl) rfl rfl
  | messages => exact v1Messages_ending env h body

/-! ## What is sent -/

/-- The calls of a request: those that have been sent, and the one whose answer is streamed. -/
def callsOf : EStateM.Result Refusal (Effects K) (Answer K) → List (Call K)
  | .ok (.stream _ call _) s => s.sent ++ [call]
  | .ok (.json _ _) s => s.sent
  | .error _ s => s.sent

omit [PyFloat K] in
lemma CallEnding.callsOf_eq {env : Env K} {count : Dict K → Except Exn (Counts K)} {b : Billed K}
    {call : Call K} {r : EStateM.Result Refusal (Effects K) (Answer K)}
    (h : CallEnding env count b call r) : callsOf r = [] ∨ callsOf r = [call] := by
  cases h with
  | unsent e => exact .inl rfl
  | lost _ => exact .inr rfl
  | answered _ _ _ _ => exact .inr rfl
  | unwritten _ _ _ _ => exact .inr rfl

/-- Only a caller that is admitted has anything sent, and at most one call, made of its request. -/
theorem call_of_request (env : Env K) (route : Server.Route) (h : Headers)
    (body : Option (Json K)) :
    callsOf (serve env route h body ⟨[], []⟩) = [] ∨
      ∃ d call stream who, body = some (.dict d) ∧
        AdminApi.checkClientAuth env.settings env.db h = .ok who ∧
        callFor env h d route = .ok (call, stream) ∧
        callsOf (serve env route h body ⟨[], []⟩) = [call] := by
  have hending := serve_ending env route h body
  generalize serve env route h body ⟨[], []⟩ = r at hending ⊢
  cases hending with
  | refused e => exact .inl rfl
  | streamed hauth hcall _ => exact .inr ⟨_, _, _, _, rfl, hauth, hcall, rfl⟩
  | sent hauth hcall hending =>
      rcases hending.callsOf_eq with hnone | hone
      · exact .inl hnone
      · exact .inr ⟨_, _, _, _, rfl, hauth, hcall, hone⟩

/-- **Everything that `/v1/messages` sends to the backend is acceptable to it**, and as much of the
client's request as can be: whatever the caller, the request and the state of the hub. -/
theorem messages_forwarded (env : Env K) (h : Headers) (body : Option (Json K)) :
    ∀ call ∈ callsOf (v1Messages env h body ⟨[], []⟩), ∃ d, body = some (.dict d) ∧
      Forwarded env.anthropicVersion h d call ∧
        (call.headers.lookup visionHeader = some "true" ↔ HasImage d) := by
  intro call hcall
  rcases call_of_request env .messages h body with hnone | ⟨d, c, stream, who, hbody, -, hfor, hone⟩
  · rw [show v1Messages env h body = serve env .messages h body from rfl, hnone] at hcall
    exact absurd hcall List.not_mem_nil
  · rw [show v1Messages env h body = serve env .messages h body from rfl, hone,
      List.mem_singleton] at hcall
    subst hcall
    exact ⟨d, hbody, messagesCall_forwarded hfor, messagesCall_vision hfor⟩

/-- A request with an image, a field that the backend does not know, and one that needs a beta. -/
def imageBody : Dict ℚ :=
  [("model", .str "claude-sonnet-4.5"), ("fallbacks", .list []), ("context_management", .dict []),
    ("stream", .bool true), ("messages", .list [.dict [("role", .str "user"),
      ("content", .list [.dict [("type", .str "tool_result"),
        ("content", .list [.dict [("type", .str "image")]])]])]])]

def imageHeaders : Headers := fun name =>
  if name = "anthropic-beta" then some "context-management-2025-06-27, advisor-tool-2026-03-01"
  else none

/-- A hub that is logged in and asks nobody for a key. -/
def openHub : Env ℚ where
  settings := ⟨false, "", ""⟩
  anthropicVersion := "2023-06-01"
  db := Store.Db.empty
  json := ⟨fun _ => .invalid, fun _ _ => .ok []⟩
  py := Runtime.strict
  tokens := ⟨none, none, some "ghu", .failed .transport⟩
  fingerprint := fun key => key
  uuid := "u"
  sched := ⟨"2026-09-01T00:00:00+00:00", .ok none, .ok ()⟩
  post := fun _ => .failed .transport
  render := fun v => .ok (Utf8.encode (JsonText.dumps .fractions ⟨true, false⟩ v))

def imageCall : Call ℚ where
  path := "/v1/messages"
  headers := upstreamContractHeaders "2023-06-01" imageHeaders ++ visionHeaders true
  body := (stripUnsupported imageBody (imageHeaders "anthropic-beta")).1

theorem messages_forwarded_image : ∃ d, some (Json.dict imageBody) = some (.dict d) ∧
    Forwarded openHub.anthropicVersion imageHeaders d imageCall ∧
      (imageCall.headers.lookup visionHeader = some "true" ↔ HasImage d) :=
  messages_forwarded openHub imageHeaders (some (.dict imageBody)) imageCall
    (List.mem_singleton.2 rfl)

/-! ## What is recorded -/

/-- One call has been sent and answered, and one record has been made of the answer. -/
def Answered (env : Env K) (h : Headers) (route : Server.Route) (status : ℤ) (data : Json K)
    (s : Effects K) : Prop :=
  ∃ call document text c blob, s.sent = [call] ∧
    env.post call = .answered status document text ∧
    data = document.getD (errorDocument text) ∧
    Recorded (billedFor env h route call) (countsOf env route) status data c ∧
    s.records = [Server.usageRecord c env.sched.now blob]

/-- Nothing has been recorded; if a call has been sent, there is no answer, or it cannot be read, or
it cannot be archived. -/
def Unanswered (env : Env K) (h : Headers) (route : Server.Route) (s : Effects K) : Prop :=
  s.records = [] ∧ (s.sent = [] ∨ ∃ call, s.sent = [call] ∧
    ∀ status document text, env.post call = .answered status document text →
      Readable (countsOf env route) status (document.getD (errorDocument text)) →
        ∃ f, Server.archive env.sched (extractTenant env.fingerprint env.uuid h) = .error f)

/-- The answer of the backend that a client gets has one record.  An error has none, except where
the answer has been recorded and only then turns out to be one that cannot be written. -/
def Accounted (env : Env K) (h : Headers) (route : Server.Route) :
    EStateM.Result Refusal (Effects K) (Answer K) → Prop
  | .error _ s => Unanswered env h route s ∨
      ∃ status data f, env.render data = .error f ∧ Answered env h route status data s
  | .ok (.stream _ _ _) s => s.records = [] ∧ s.sent = []
  | .ok (.json status data) s =>
      (∃ out, env.render data = .ok out) ∧ Answered env h route status data s

/-- **A request that is answered is recorded once**: if the client gets the answer of the backend,
one call has been sent, and one record has been made of the answer, under the tenant of the request;
if it gets an error, nothing is recorded, unless the backend's answer has been read and cannot be
written. -/
theorem recorded_once (env : Env K) (route : Server.Route) (h : Headers)
    (body : Option (Json K)) :
    Accounted env h route (serve env route h body ⟨[], []⟩) := by
  have hending := serve_ending env route h body
  generalize serve env route h body ⟨[], []⟩ = r at hending ⊢
  cases hending with
  | refused e => exact .inl ⟨rfl, .inl rfl⟩
  | streamed hauth hcall htenant => exact ⟨rfl, rfl⟩
  | sent hauth hcall hending =>
      cases hending with
      | unsent e => exact .inl ⟨rfl, .inl rfl⟩
      | lost hlost => exact .inl ⟨rfl, .inr ⟨_, rfl, hlost⟩⟩
      | answered hanswer hrecorded hblob hout =>
          exact ⟨hout, _, _, _, _, _, rfl, hanswer, rfl, hrecorded, rfl⟩
      | unwritten hanswer hrecorded hblob hfault =>
          exact .inr ⟨_, _, _, hfault, _, _, _, _, _, rfl, hanswer, rfl, hrecorded, rfl⟩

end Requests
end TokenFoundry
