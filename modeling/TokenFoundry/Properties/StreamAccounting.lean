import TokenFoundry.Properties.Chunking

/-!
# Every streamed call leaves one usage record

The record is made in `finally`, out of the text that has come and the status that is known.  Two
things go wrong there.  The parsers call methods on JSON values that need not be objects, and add
counts that need not be numbers; what they raise prevents the record.  And the status is 200 until
the backend is known to have refused, so a request that ends before the backend has answered is
recorded as one that it has answered with 200.
-/

set_option autoImplicit false

namespace TokenFoundry
namespace Server

open CopilotClient (Text Bytes Fault Exn Upstream)

variable {K : Type} [PyFloat K]

/-! ## What the loops leave to `finally` -/

/-- A part of the generator: the texts that are collected after it, and what it does not touch. -/
structure Leaves (r : EStateM.Result Exn (State K) Unit) (s : State K) (texts : List Text) :
    Prop where
  collected : (after r).collected = texts
  upstreamStatus : (after r).upstreamStatus = s.upstreamStatus
  emits : (after r).emits = s.emits
  isLocal : ∀ e s', r = .error e s' → Exn.Local e

/-- The chunks that `v1_messages.gen` reads: the client may go after each of them. -/
def relayed : Option ℕ → List Bytes → List Bytes
  | _, [] => []
  | client, c :: cs =>
      match stays client with
      | none => [c]
      | some client' => c :: relayed client' cs

lemma passChunks_leaves (json : JsonModule K) (cs : List Bytes) (client : Option ℕ)
    (emits : Emits K) :
    Leaves (forChunks (passChunk json) cs none (State.initial client emits))
      (State.initial client emits) ((pass json client [] cs).read.map Utf8.decode) := by
  have hloop := forChunks_sends json cs (State.initial client emits)
  simp only [State.initial, List.nil_append] at hloop ⊢
  cases hpass : (pass json client [] cs).result with
  | ok r =>
      rw [hpass] at hloop
      rw [show forChunks (passChunk json) cs none _ = _ from hloop]
      exact ⟨rfl, rfl, rfl, fun _ _ h => by cases h⟩
  | error e =>
      rw [hpass] at hloop
      obtain ⟨s', hrun, hkept⟩ := hloop
      rw [hrun]
      refine ⟨hkept.collected, hkept.upstreamStatus, hkept.emits, ?_⟩
      intro e' s'' h
      cases h
      exact pass_local json hpass

omit [PyFloat K] in
lemma messagesChunk_run (c : Bytes) (s : State K) : messagesChunk c s =
    yieldBytes c { s with collected := s.collected ++ [Utf8.decode c] } := rfl

omit [PyFloat K] in
lemma messagesChunks_leaves (cs : List Bytes) (s : State K) :
    Leaves (forChunks messagesChunk cs none s) s
      (s.collected ++ (relayed s.client cs).map Utf8.decode) := by
  induction cs generalizing s with
  | nil => exact ⟨by simp [relayed, forChunks, pure, EStateM.pure, after], rfl, rfl, fun _ _ h =>
      by cases h⟩
  | cons c cs ih =>
      rw [forChunks_cons, messagesChunk_run, yieldBytes_run, relayed]
      dsimp only
      cases stays s.client with
      | none =>
          refine ⟨rfl, rfl, rfl, ?_⟩
          intro e s' h
          cases h
          exact Or.inl rfl
      | some client =>
          have hrest := ih { s with
            collected := s.collected ++ [Utf8.decode c]
            sent := s.sent ++ [c]
            client := client }
          refine ⟨?_, hrest.2, hrest.3, hrest.4⟩
          rw [hrest.1]
          simp

lemma flushTail_leaves (json : JsonModule K) (s : State K) :
    Leaves (flushTail json s) s s.collected := by
  rw [flushTail_run]
  split_ifs with hbuf
  · cases emitEvent json s.buf with
    | error f =>
        refine ⟨rfl, rfl, rfl, ?_⟩
        intro e s' h
        cases h
        exact Or.inr ⟨f, rfl⟩
    | ok b =>
        dsimp only
        rw [yieldBytes_run]
        cases stays s.client with
        | none =>
            refine ⟨rfl, rfl, rfl, ?_⟩
            intro e s' h
            cases h
            exact Or.inl rfl
        | some client => exact ⟨rfl, rfl, rfl, fun _ _ h => by cases h⟩
  · exact ⟨rfl, rfl, rfl, fun _ _ h => by cases h⟩

/-- The status under which a call is recorded: the one that the backend refused it with, and 200 for
everything else. -/
def recordedStatus : Option Exn → ℤ
  | some (.upstreamStatus status _) => status
  | _ => 200

omit [PyFloat K] in
lemma onException_upstream (json : JsonModule K) (status : ℤ) (body : Text) (s : State K) :
    onException json (.upstreamStatus status body) s =
      match sseError json status body with
      | .ok b => yieldBytes b { s with upstreamStatus := status }
      | .error f => .error (.fault f) { s with upstreamStatus := status } := by
  simp only [onException, bind, EStateM.bind, modify_run]
  cases sseError json status body <;> rfl

omit [PyFloat K] in
lemma onException_leaves (json : JsonModule K) (e : Exn) (s : State K)
    (hs : s.upstreamStatus = 200) :
    (after (onException json e s)).collected = s.collected ∧
      (after (onException json e s)).emits = s.emits ∧
        (after (onException json e s)).upstreamStatus = recordedStatus (some e) := by
  cases e with
  | upstreamStatus status body =>
      rw [onException_upstream]
      cases sseError json status body with
      | error f => exact ⟨rfl, rfl, rfl⟩
      | ok b =>
          dsimp only
          rw [yieldBytes_run]
          cases stays s.client <;> exact ⟨rfl, rfl, rfl⟩
  | notAuthenticated => exact ⟨rfl, rfl, hs⟩
  | exchangeRefused status => exact ⟨rfl, rfl, hs⟩
  | key => exact ⟨rfl, rfl, hs⟩
  | generatorExit => exact ⟨rfl, rfl, hs⟩
  | fault f => exact ⟨rfl, rfl, hs⟩

omit [PyFloat K] in
/-- What `finally` finds: the texts that were sent before, nothing emitted yet, and the status of
the refusal if there was one. -/
lemma body_leaves (json : JsonModule K) {body : Bytes → Gen K Unit} {tail : Gen K Unit}
    {cs : List Bytes} {e : Option Exn} {s : State K} {texts : List Text}
    (hloop : Leaves (forChunks body cs none s) s texts)
    (htail : ∀ s, Leaves (tail s) s s.collected)
    (hrefused : recordedStatus e ≠ 200 → cs = []) (hs : s.upstreamStatus = 200) :
    let s' := after ((tryCatch (do forChunks body cs e; tail) (onException json) : Gen K Unit) s)
    s'.collected = texts ∧ s'.emits = s.emits ∧ s'.upstreamStatus = recordedStatus e := by
  dsimp only
  rw [tryCatch_run, body_run]
  have hcollected := hloop.collected
  have hstatus := hloop.upstreamStatus
  have hemits := hloop.emits
  cases hrun : forChunks body cs none s with
  | error e' s' =>
      rw [hrun] at hcollected hstatus hemits
      have hlocal := hloop.isLocal e' s' hrun
      have he : recordedStatus e = 200 := by
        by_contra hne
        rw [hrefused hne] at hrun
        cases hrun
      -- An exception of the code itself comes before the one of the upstream would.
      have hraise : forChunks body cs e s = .error e' s' := by
        cases e with
        | none => exact hrun
        | some x => rw [forChunks_raises, hrun]
      rw [hraise]
      dsimp only
      rw [onException_run json hlocal, he]
      exact ⟨hcollected, hemits, hstatus.trans hs⟩
  | ok _ s' =>
      rw [hrun] at hcollected hstatus hemits
      have hs' : s'.upstreamStatus = 200 := hstatus.trans hs
      cases e with
      | some x =>
          rw [forChunks_raises, hrun]
          dsimp only
          -- The upstream breaks off after the last chunk; its exception decides the status that is
          -- recorded.
          obtain ⟨h1, h2, h3⟩ := onException_leaves json x s' hs'
          exact ⟨h1.trans hcollected, h2.trans hemits, h3⟩
      | none =>
          rw [hrun]
          dsimp only
          -- The stream ends in order, and what is left of the buffer is looked at.
          have hlast := htail s'
          have h1 := hlast.collected
          have h2 := hlast.emits
          have h3 := hlast.upstreamStatus
          cases hflush : tail s' with
          | ok _ s'' =>
              rw [hflush] at h1 h2 h3
              exact ⟨h1.trans hcollected, h2.trans hemits, h3.trans hs'⟩
          | error e' s'' =>
              rw [hflush] at h1 h2 h3
              dsimp only
              rw [onException_run json (hlast.isLocal e' s'' hflush)]
              exact ⟨h1.trans hcollected, h2.trans hemits, h3.trans hs'⟩

/-! ## The status of the backend -/

/-- The backend has answered 200, or its refusal has been read to the end. -/
def statusKnown (py : Runtime K) (u : Upstream K) : Bool :=
  match CopilotClient.getApiToken py u.tokens, u.answer with
  | .ok _, .answered status _ broken => decide (status = 200) || broken.isNone
  | _, _ => false

/-- A refusal comes without chunks, because the status is looked at before the first of them is
read. -/
lemma stream_refused (py : Runtime K) (u : Upstream K)
    (h : recordedStatus (CopilotClient.stream py u).2 ≠ 200) :
    (CopilotClient.stream py u).1 = [] := by
  unfold CopilotClient.stream at h ⊢
  cases htoken : CopilotClient.getApiToken py u.tokens with
  | error e => rfl
  | ok token =>
      rw [htoken] at h
      cases hanswer : u.answer with
      | failed f => rfl
      | answered status chunks broken =>
          simp only [hanswer] at h ⊢
          split_ifs with hstatus
          · cases broken <;> rfl
          · rw [if_neg hstatus] at h
            cases broken <;> simp [recordedStatus] at h

/-- A computation that does not refuse; if it raises, the call is still recorded under 200. -/
def Unrefused {α : Type} (x : Except Exn α) : Prop :=
  ∀ e, x = .error e → recordedStatus (some e) = 200

omit [PyFloat K] in
lemma Unrefused.bind {α β : Type} {x : Except Exn α} {f : α → Except Exn β} (hx : Unrefused x)
    (hf : ∀ a, Unrefused (f a)) : Unrefused (x >>= f) := by
  intro e h
  cases x with
  | error e' =>
      have heq : (Except.error e' : Except Exn β) = .error e := h
      cases heq
      exact hx _ rfl
  | ok a => exact hf a e h

omit [PyFloat K] in
lemma unrefused_mapError {α ε : Type} {g : ε → Exn} (hg : ∀ f, recordedStatus (some (g f)) = 200)
    (x : Except ε α) : Unrefused (x.mapError g) := by
  intro e h
  cases x with
  | error f =>
      cases h
      exact hg f
  | ok a => cases h

lemma unrefused_converted {α : Type} (x : Except Failure α) :
    Unrefused (CopilotClient.converted x) := unrefused_mapError (fun _ => rfl) x

omit [PyFloat K] in
lemma unrefused_item (d : Dict K) (key : String) : Unrefused (CopilotClient.item d key) := by
  intro e h
  unfold CopilotClient.item at h
  split at h
  · cases h
  · cases h
    rfl

omit [PyFloat K] in
lemma unrefused_getOauthToken (t : CopilotClient.Tokens K) :
    Unrefused (CopilotClient.getOauthToken t) := by
  intro e h
  unfold CopilotClient.getOauthToken at h
  split at h
  · split_ifs at h
    cases h
    rfl
  · cases h
    rfl

/-- No exception of the token is a refusal of the backend. -/
lemma unrefused_getApiToken (py : Runtime K) (t : CopilotClient.Tokens K) :
    Unrefused (CopilotClient.getApiToken py t) := by
  unfold CopilotClient.getApiToken
  cases t.cached with
  | some token =>
      intro e h
      cases h
  | none =>
      refine (unrefused_getOauthToken t).bind (fun _ => ?_)
      cases t.reply with
      | failed f =>
          intro e h
          cases h
          rfl
      | answered status body =>
          dsimp only
          split_ifs with hstatus
          · intro e h
            cases h
            rfl
          · refine Unrefused.bind ?_ (fun value => ?_)
            · exact unrefused_mapError (fun _ => rfl) body
            refine (unrefused_converted _).bind (fun data => ?_)
            refine (unrefused_converted _).bind (fun endpoints => ?_)
            refine (unrefused_item _ _).bind (fun token => ?_)
            refine (unrefused_item _ _).bind (fun expiresAt => ?_)
            refine (unrefused_converted _).bind (fun expiresAt => ?_)
            intro e h
            cases h

/-- The status 200 is recorded of an answer 200, and of every request of which the status is not
known. -/
lemma recordedStatus_stream (py : Runtime K) (u : Upstream K) :
    (recordedStatus (CopilotClient.stream py u).2 = 200 → u.status py = some 200) ↔
      statusKnown py u = true := by
  unfold CopilotClient.stream CopilotClient.Upstream.status statusKnown
  cases htoken : CopilotClient.getApiToken py u.tokens with
  | error e => simp [unrefused_getApiToken py u.tokens e htoken]
  | ok token =>
      cases u.answer with
      | failed f => simp [recordedStatus]
      | answered status chunks broken =>
          by_cases hstatus : status = 200
          · simp [hstatus]
          · cases broken <;> simp [hstatus, recordedStatus]

/-! ## What the parsers accept -/

/-- What `json` makes of the payloads of a text, in their order; lines without a payload are passed
over. -/
def loadedData (json : JsonModule K) (text : Text) : List (Loaded K) :=
  ((lines text).filterMap (fun line => payload (strip line))).map json.loads

/-- Every payload that is JSON is an object, and `json` fails on none. -/
def OnlyObjects (json : JsonModule K) (text : Text) : Prop :=
  ∀ l ∈ loadedData json text, l = .invalid ∨ ∃ d, l = .value (.dict d)

/-- The object of a payload, if the payload is one. -/
def Loaded.object : Loaded K → Option (Dict K)
  | .value (.dict d) => some d
  | _ => none

def documents (json : JsonModule K) (text : Text) : List (Dict K) :=
  (loadedData json text).filterMap Loaded.object

omit [PyFloat K] in
lemma filterMap_invalid (ls : List (Loaded K)) :
    (Loaded.invalid :: ls).filterMap Loaded.object = ls.filterMap Loaded.object := rfl

/-- The loop body on a payload: an invalid one is skipped, and one that `json` chokes on ends the
loop. -/
def onLoaded {σ : Type} (body : σ → Json K → Except Fault σ) (s : σ) :
    Loaded K → Except Fault σ
  | .invalid => .ok s
  | .raises f => .error f
  | .value obj => body s obj

omit [PyFloat K] in
lemma forData_eq {σ : Type} (json : JsonModule K) (text : Text) (init : σ)
    (body : σ → Json K → Except Fault σ) :
    forData json text init body = (loadedData json text).foldlM (onLoaded body) init := by
  unfold forData loadedData
  generalize lines text = ls
  induction ls generalizing init with
  | nil => rfl
  | cons line ls ih =>
      rw [List.foldlM_cons, List.filterMap_cons]
      cases payload (strip line) with
      | none => exact ih init
      | some p =>
          rw [List.map_cons, List.foldlM_cons]
          dsimp only
          cases json.loads p with
          | invalid => exact ih init
          | raises f => rfl
          | value obj =>
              simp only [onLoaded]
              cases body init obj with
              | error f => rfl
              | ok s => exact ih s

/-- A loop body that needs objects of a kind.  It accepts those that satisfy `P`, and raises on the
other ones and on what is no object. -/
structure Needs {σ : Type} (body : σ → Json K → Except Fault σ) (P : Dict K → Prop)
    (f : σ → Dict K → σ) : Prop where
  accepts : ∀ s d, P d → body s (.dict d) = .ok (f s d)
  refuses : ∀ s d, ¬ P d → (body s (.dict d)).isOk = false
  other : ∀ s obj, (∀ d, obj ≠ .dict d) → (body s obj).isOk = false

omit [PyFloat K] in
/-- Such a loop comes to its end if and only if all payloads are objects of the kind. -/
lemma forData_ok_iff {σ : Type} {json : JsonModule K} {text : Text} {init : σ}
    {body : σ → Json K → Except Fault σ} {P : Dict K → Prop} {f : σ → Dict K → σ}
    (h : Needs body P f) (r : σ) :
    forData json text init body = .ok r ↔ OnlyObjects json text ∧
      (∀ d ∈ documents json text, P d) ∧ r = (documents json text).foldl f init := by
  rw [forData_eq]
  unfold OnlyObjects documents
  generalize loadedData json text = ls
  induction ls generalizing init with
  | nil => simp [pure, Except.pure, eq_comm]
  | cons l ls ih =>
      rw [List.foldlM_cons]
      have hfails : ∀ x : Except Fault σ, x.isOk = false →
          ¬ (x >>= fun s => ls.foldlM (onLoaded body) s) = .ok r := by
        intro x hx hr
        cases x with
        | error f => cases hr
        | ok s => cases hx
      -- A payload that is neither an object nor refused by the decoder stops the loop, and is no
      -- object.
      have hbad : ∀ l, (onLoaded body init l).isOk = false → (∀ d, l ≠ .value (.dict d)) →
          l ≠ .invalid →
          ((onLoaded body init l >>= fun s => ls.foldlM (onLoaded body) s) = .ok r ↔
            (∀ l' ∈ l :: ls, l' = .invalid ∨ ∃ d, l' = .value (.dict d)) ∧
              (∀ d ∈ (l :: ls).filterMap Loaded.object, P d) ∧
                r = ((l :: ls).filterMap Loaded.object).foldl f init) := by
        intro l hok hdict hinvalid
        refine iff_of_false (hfails _ hok) ?_
        rintro ⟨hall, -, -⟩
        rcases hall l List.mem_cons_self with h | ⟨d, h⟩
        · exact hinvalid h
        · exact hdict d h
      cases l with
      | invalid =>
          -- What `except json.JSONDecodeError` catches is passed over.
          show ls.foldlM (onLoaded body) init = .ok r ↔ _
          rw [ih, filterMap_invalid]
          simp
      | raises f => exact hbad _ rfl (fun d h => by cases h) (fun h => by cases h)
      | value obj =>
          by_cases hobj : ∃ d, obj = .dict d
          · obtain ⟨d, rfl⟩ := hobj
            by_cases hP : P d
            · have hstep : onLoaded body init (.value (.dict d)) = .ok (f init d) :=
                h.accepts init d hP
              rw [hstep]
              show ls.foldlM (onLoaded body) (f init d) = .ok r ↔ _
              rw [ih]
              simp [Loaded.object, hP]
            · refine iff_of_false (hfails _ (h.refuses init d hP)) ?_
              rintro ⟨-, hall, -⟩
              exact hP (hall d (by simp [Loaded.object]))
          · have hobj' : ∀ d, obj ≠ .dict d := fun d hd => hobj ⟨d, hd⟩
            refine hbad _ (h.other init obj hobj') (fun d heq => ?_) (fun heq => by cases heq)
            cases heq
            exact hobj' d rfl

/-- The usage in a document of `/v1/chat/completions` or of `/v1/responses`. -/
def candidate (responsesShape : Bool) (d : Dict K) : Json K :=
  if responsesShape then
    match Json.get d "response" with
    | .dict resp => (Json.get resp "usage").orElse (Json.get d "usage")
    | _ => Json.get d "usage"
  else Json.get d "usage"

/-- The last usage that is reported, in the shape that the endpoint uses. -/
def reportedUsage (responsesShape : Bool) (docs : List (Dict K)) : Json K :=
  docs.foldl (fun usage d => (candidate responsesShape d).orElse usage) .null

/-- `_parse_sse_usage` is a loop that takes the candidates of objects. -/
lemma parseSseUsage_loop (responsesShape : Bool) : ∃ body : Json K → Json K → Except Fault (Json K),
    (∀ json text, parseSseUsage json text responsesShape = forData json text .null body) ∧
      Needs body (fun _ => True) (fun usage d => (candidate responsesShape d).orElse usage) := by
  refine ⟨_, fun _ _ => rfl, ?_, ?_, ?_⟩
  · intro usage d _
    cases responsesShape with
    | false => rfl
    | true =>
        simp only [candidate, if_true]
        cases Json.get d "response" with
        | dict resp =>
            dsimp only
            by_cases h : (Json.get resp "usage").truthy = true
            · rw [if_pos h, Json.orElse_of_truthy h]
              rfl
            · have h' : (Json.get resp "usage").truthy = false := by simpa using h
              rw [if_neg h, Json.orElse_of_falsy h' (Json.get d "usage")]
              rfl
        | _ => rfl
  · intro usage d h
    exact absurd trivial h
  · intro usage obj h
    cases responsesShape <;> cases obj <;> first | rfl | exact absurd rfl (h _)

lemma parseSseUsage_ok_iff (json : JsonModule K) (text : Text) (responsesShape : Bool)
    (usage : Json K) : parseSseUsage json text responsesShape = .ok usage ↔
      OnlyObjects json text ∧ usage = reportedUsage responsesShape (documents json text) := by
  obtain ⟨body, hloop, hneeds⟩ := parseSseUsage_loop (K := K) responsesShape
  rw [hloop, forData_ok_iff hneeds, reportedUsage]
  simp

/-- `v + w` is defined, as it is for two numbers. -/
def Addable (v w : Json K) : Prop := (v.add w).isOk = true

/-- A count of a usage, for which 0 stands where there is none. -/
def countOf (usage : Json K) (key : String) : Json K :=
  match usage with
  | .dict u => Json.getD u key (.int 0)
  | _ => .int 0

/-- A usage is an object; its counts can be added, and its details are an object as well. -/
def Countable (responsesShape : Bool) (usage : Json K) : Prop :=
  usage.truthy = true → ∃ u, usage = .dict u ∧
    Addable (countOf usage (usageKeys responsesShape).input)
        (countOf usage (usageKeys responsesShape).output) ∧
      ((Json.get u (usageKeys responsesShape).details).truthy = true →
        ∃ d, Json.get u (usageKeys responsesShape).details = .dict d)

lemma asDict_orElse_isOk (v : Json K) :
    (v.orElse (.dict [])).asDict.isOk = true ↔ (v.truthy = true → ∃ d, v = .dict d) := by
  by_cases h : v.truthy = true
  · rw [Json.orElse_of_truthy h]
    cases v <;> simp [Json.asDict, Except.isOk, Except.toBool, h]
  · have h' : v.truthy = false := by simpa using h
    rw [Json.orElse_of_falsy h']
    simp [Json.asDict, Except.isOk, Except.toBool, h]

lemma ok_bind {α β : Type} (a : α) (f : α → Except Fault β) : (Except.ok a >>= f) = f a := rfl

omit [PyFloat K] in
lemma raised_asDict (d : Dict K) : raised (Json.dict d).asDict = .ok d := rfl

omit [PyFloat K] in
lemma raised_of_isOk {α : Type} {x : Except Failure α} (h : x.isOk = true) :
    ∃ a, x = .ok a ∧ raised x = .ok a := by
  cases x with
  | error f => cases h
  | ok a => exact ⟨a, rfl, rfl⟩

omit [PyFloat K] in
lemma raised_of_not_isOk {α : Type} {x : Except Failure α} (h : ¬ x.isOk = true) :
    ∃ f, raised x = .error f := by
  cases x with
  | error f => exact ⟨.failure f, rfl⟩
  | ok a => exact absurd rfl h

/-- The counts are read off the usage if and only if it is countable; otherwise the function
raises. -/
lemma normUsage_spec (usage : Json K) (responsesShape : Bool) :
    (Countable responsesShape usage → ∃ counts, normUsage usage responsesShape = .ok counts ∧
      counts.input = countOf usage (usageKeys responsesShape).input ∧
        counts.output = countOf usage (usageKeys responsesShape).output) ∧
    (¬ Countable responsesShape usage → ∃ f, normUsage usage responsesShape = .error f) := by
  unfold normUsage Countable
  by_cases htruthy : usage.truthy = true
  · rw [if_pos htruthy]
    simp only [htruthy, forall_const]
    cases usage with
    | dict u =>
        simp only [Json.dict.injEq, exists_eq_left', countOf, Addable, ← asDict_orElse_isOk]
        by_cases hadd : ((Json.getD u (usageKeys responsesShape).input (.int 0)).add
            (Json.getD u (usageKeys responsesShape).output (.int 0))).isOk = true
        · obtain ⟨t, -, ht⟩ := raised_of_isOk hadd
          by_cases hdetails : ((Json.get u (usageKeys responsesShape).details).orElse
              (.dict [])).asDict.isOk = true
          · obtain ⟨details, -, hd⟩ := raised_of_isOk hdetails
            refine ⟨fun _ => ⟨⟨Json.getD u (usageKeys responsesShape).input (.int 0),
              Json.getD u (usageKeys responsesShape).output (.int 0),
              Json.getD u "total_tokens" t, Json.getD details "cached_tokens" (.int 0)⟩,
              ?_, rfl, rfl⟩, fun h => absurd ⟨hadd, hdetails⟩ h⟩
            rw [raised_asDict, ok_bind, ht, ok_bind, hd]
            rfl
          · obtain ⟨f, hf⟩ := raised_of_not_isOk hdetails
            refine ⟨fun h => absurd h.2 hdetails, fun _ => ⟨f, ?_⟩⟩
            rw [raised_asDict, ok_bind, ht, ok_bind, hf]
            rfl
        · obtain ⟨f, hf⟩ := raised_of_not_isOk hadd
          refine ⟨fun h => absurd h.1 hadd, fun _ => ⟨f, ?_⟩⟩
          rw [raised_asDict, ok_bind, hf]
          rfl
    | _ =>
        refine ⟨?_, fun _ => ⟨_, rfl⟩⟩
        rintro ⟨u, hu, -⟩
        cases hu
  · rw [if_neg htruthy]
    refine ⟨fun _ => ⟨_, rfl, ?_⟩, fun h => absurd (fun h' => absurd h' htruthy) h⟩
    cases usage with
    | dict u =>
        obtain rfl : u = [] := by simpa [Json.truthy] using htruthy
        exact ⟨rfl, rfl⟩
    | _ => exact ⟨rfl, rfl⟩

omit [PyFloat K] in
/-- A loop body that never raises, over payloads that are objects, comes to its end. -/
lemma forData_total {σ : Type} {json : JsonModule K} {text : Text}
    (hloads : OnlyObjects json text) {body : σ → Json K → Except Fault σ}
    (hbody : ∀ s obj, ∃ s', body s obj = .ok s') (init : σ) :
    ∃ r, forData json text init body = .ok r := by
  rw [forData_eq]
  unfold OnlyObjects at hloads
  generalize loadedData json text = ls at hloads
  induction ls generalizing init with
  | nil => exact ⟨init, rfl⟩
  | cons l ls ih =>
      have hrest := fun s => ih s (fun l' h => hloads l' (List.mem_cons_of_mem l h))
      rw [List.foldlM_cons]
      rcases hloads l List.mem_cons_self with rfl | ⟨d, rfl⟩
      · exact hrest init
      · obtain ⟨s', hs'⟩ := hbody init (.dict d)
        rw [onLoaded, hs']
        exact hrest s'

omit [PyFloat K] in
lemma scan_ok {json : JsonModule K} {text : Text} (h : OnlyObjects json text) :
    ∃ r, scanSseCopilotUsage json text = .ok r := by
  unfold scanSseCopilotUsage
  exact forData_total h (fun _ _ => ⟨_, rfl⟩) Json.null

/-! ## The texts out of which a record can be made -/

/-- `/v1/chat/completions` and `/v1/responses`: the payloads are objects, and the usage that they
report can be counted. -/
def PassReadable (json : JsonModule K) (responsesShape : Bool) (estInput : ℤ)
    (collected : List Text) : Prop :=
  let usage := reportedUsage responsesShape (documents json collected.flatten)
  let keys := usageKeys responsesShape
  OnlyObjects json collected.flatten ∧ Countable responsesShape usage ∧
    (collected ≠ [] → (countOf usage keys.input).truthy = false →
      Addable (.int estInput) (countOf usage keys.output))

omit [PyFloat K] in
lemma error_bind {α β : Type} (f : Fault) (g : α → Except Fault β) :
    ((Except.error f : Except Fault α) >>= g) = .error f := rfl

/-- The record of the two endpoints that pass their streams through: it is made exactly where the
texts can be read. -/
lemma passCall_spec (json : JsonModule K) (req : Request K) (collected : List Text)
    (status : ℤ) :
    (PassReadable json req.responsesShape req.estInput collected →
      ∃ c, passCall json req collected status = .ok c ∧
        c.status = status ∧ c.tenant = req.tenant) ∧
    (¬ PassReadable json req.responsesShape req.estInput collected →
      ∃ f, passCall json req collected status = .error f) := by
  unfold PassReadable passCall
  dsimp only
  by_cases hobjects : OnlyObjects json collected.flatten
  · have hparse := (parseSseUsage_ok_iff json collected.flatten req.responsesShape _).2
      ⟨hobjects, rfl⟩
    obtain ⟨hcount, hnocount⟩ := normUsage_spec
      (reportedUsage req.responsesShape (documents json collected.flatten)) req.responsesShape
    obtain ⟨found, hscan⟩ := scan_ok hobjects
    rw [hparse, ok_bind]
    generalize reportedUsage req.responsesShape (documents json collected.flatten) = usage at *
    by_cases hcountable : Countable req.responsesShape usage
    · obtain ⟨counts, hnorm, hinput, houtput⟩ := hcount hcountable
      rw [hnorm, ok_bind, ← hinput, ← houtput, hscan]
      by_cases hestimated : (! collected.isEmpty && ! counts.input.truthy) = true
      · rw [if_pos hestimated]
        have hcond : collected ≠ [] ∧ counts.input.truthy = false := by simpa using hestimated
        by_cases hadd : Addable (.int req.estInput) counts.output
        · obtain ⟨t, -, ht⟩ := raised_of_isOk hadd
          refine ⟨fun _ => ?_, fun h => absurd ⟨hobjects, hcountable, fun _ _ => hadd⟩ h⟩
          rw [ht]
          exact ⟨_, rfl, rfl, rfl⟩
        · obtain ⟨f, hf⟩ := raised_of_not_isOk hadd
          refine ⟨fun h => absurd (h.2.2 hcond.1 hcond.2) hadd, fun _ => ⟨f, ?_⟩⟩
          rw [hf]
          rfl
      · rw [if_neg hestimated]
        have hcond : collected ≠ [] → counts.input.truthy = false → False := by
          intro h1 h2
          exact hestimated (by simp [h1, h2])
        exact ⟨fun _ => ⟨_, rfl, rfl, rfl⟩,
          fun h => absurd ⟨hobjects, hcountable, fun h1 h2 => (hcond h1 h2).elim⟩ h⟩
    · obtain ⟨f, hf⟩ := hnocount hcountable
      refine ⟨fun h => absurd h.2.1 hcountable, fun _ => ⟨f, ?_⟩⟩
      rw [hf, error_bind]
  · refine ⟨fun h => absurd h.1 hobjects, fun _ => ?_⟩
    cases hparse : parseSseUsage json collected.flatten req.responsesShape with
    | error f => exact ⟨f, rfl⟩
    | ok usage => exact absurd ((parseSseUsage_ok_iff _ _ _ _).1 hparse).1 hobjects

/-- The message of a document, if it has one that is an object. -/
def messageOf (d : Dict K) : Dict K :=
  match Json.get d "message" with
  | .dict message => message
  | _ => []

def HasMessage (d : Dict K) : Prop :=
  (Json.get d "message").truthy = true → ∃ message, Json.get d "message" = .dict message

/-- The usage of a document goes into what has been merged. -/
def mergeDocument (merged d : Dict K) : Dict K :=
  match (Json.get (messageOf d) "usage").orElse (Json.get d "usage") with
  | .dict u => mergeUsage merged u
  | _ => merged

/-- The usage that the documents report together: each event adds to what the events before have
said. -/
def mergedUsage (docs : List (Dict K)) : Dict K :=
  (docs.foldl mergeDocument []).foldl (fun all e => Json.setItem all e.1 e.2) counters

lemma asDict_message {d : Dict K} (h : HasMessage d) :
    raised ((Json.get d "message").orElse (.dict [])).asDict = .ok (messageOf d) := by
  unfold messageOf
  by_cases htruthy : (Json.get d "message").truthy = true
  · obtain ⟨message, hmessage⟩ := h htruthy
    rw [Json.orElse_of_truthy htruthy, hmessage]
    rfl
  · have hfalsy : (Json.get d "message").truthy = false := by simpa using htruthy
    rw [Json.orElse_of_falsy hfalsy]
    cases hmessage : Json.get d "message" with
    | dict message =>
        rw [hmessage] at hfalsy
        obtain rfl : message = [] := by simpa [Json.truthy] using hfalsy
        rfl
    | _ => rfl

lemma mergeEvent_needs : Needs (mergeEvent (K := K)) HasMessage mergeDocument := by
  constructor
  · intro merged d h
    rw [mergeEvent, raised_asDict, ok_bind, asDict_message h, ok_bind, mergeDocument]
    cases (Json.get (messageOf d) "usage").orElse (Json.get d "usage") <;> rfl
  · intro merged d h
    obtain ⟨f, hf⟩ := raised_of_not_isOk (fun hok => h ((asDict_orElse_isOk _).1 hok))
    rw [mergeEvent, raised_asDict, ok_bind, hf]
    rfl
  · intro merged obj h
    cases obj <;> first | rfl | exact absurd rfl (h _)

lemma parseAnthropicSseUsage_ok_iff (json : JsonModule K) (text : Text) (u : Dict K) :
    parseAnthropicSseUsage json text = .ok u ↔
      OnlyObjects json text ∧ (∀ d ∈ documents json text, HasMessage d) ∧
        u = mergedUsage (documents json text) := by
  have hiff : ∀ merged : Dict K, forData json text [] mergeEvent = .ok merged ↔ _ :=
    forData_ok_iff mergeEvent_needs
  unfold parseAnthropicSseUsage mergedUsage
  constructor
  · intro hok
    cases hdata : forData json text [] mergeEvent with
    | error f =>
        rw [hdata] at hok
        cases hok
    | ok merged =>
        rw [hdata] at hok
        cases hok
        obtain ⟨hobjects, hmessages, rfl⟩ := (hiff merged).1 hdata
        exact ⟨hobjects, hmessages, rfl⟩
  · rintro ⟨hobjects, hmessages, rfl⟩
    rw [(hiff _).2 ⟨hobjects, hmessages, rfl⟩]
    rfl

/-- `/v1/messages`: the payloads are objects with messages that are objects, and the merged counts
can be added up. -/
def MessagesReadable (json : JsonModule K) (collected : List Text) : Prop :=
  let docs := documents json collected.flatten
  OnlyObjects json collected.flatten ∧ (∀ d ∈ docs, HasMessage d) ∧
    Addable (Json.get (mergedUsage docs) "input_tokens")
      (Json.get (mergedUsage docs) "output_tokens")

/-- The record of `/v1/messages`, which is made exactly where the texts can be read. -/
lemma messagesCall_spec (json : JsonModule K) (req : Request K) (collected : List Text)
    (status : ℤ) :
    (MessagesReadable json collected → ∃ c, messagesCall json req collected status = .ok c ∧
      c.status = status ∧ c.tenant = req.tenant) ∧
    (¬ MessagesReadable json collected →
      ∃ f, messagesCall json req collected status = .error f) := by
  unfold MessagesReadable messagesCall
  dsimp only
  cases hparse : parseAnthropicSseUsage json collected.flatten with
  | error f =>
      refine ⟨?_, fun _ => ⟨f, rfl⟩⟩
      rintro ⟨hobjects, hmessages, -⟩
      have hok := (parseAnthropicSseUsage_ok_iff json collected.flatten _).2
        ⟨hobjects, hmessages, rfl⟩
      rw [hparse] at hok
      cases hok
  | ok u =>
      obtain ⟨hobjects, hmessages, rfl⟩ := (parseAnthropicSseUsage_ok_iff _ _ _).1 hparse
      obtain ⟨found, hscan⟩ := scan_ok hobjects
      rw [ok_bind, hscan]
      by_cases hadd : Addable
          (Json.get (mergedUsage (documents json collected.flatten)) "input_tokens")
          (Json.get (mergedUsage (documents json collected.flatten)) "output_tokens")
      · obtain ⟨t, -, ht⟩ := raised_of_isOk hadd
        refine ⟨fun _ => ?_, fun h => absurd ⟨hobjects, hmessages, hadd⟩ h⟩
        rw [ht]
        exact ⟨_, rfl, rfl, rfl⟩
      · obtain ⟨f, hf⟩ := raised_of_not_isOk hadd
        refine ⟨fun h => absurd h.2.2 hadd, fun _ => ⟨f, ?_⟩⟩
        rw [hf]
        rfl

/-! ## The record -/

/-- The record is given up: it cannot be archived, too many are on their way, or no task can be
created for it. -/
def Drops (sched : Scheduling) (tenant : Tenant) (e : Emits K) : Prop :=
  (archive sched tenant).isOk = false ∨ maxPendingEmits ≤ e.inFlight ∨
    sched.createTask.isOk = false

/-- Exactly one record is scheduled or counted as dropped, and the status 200 in it is an answer of
the backend. -/
def Accounted (before after : Emits K) (answered : Prop) : Prop :=
  (∃ r, after.scheduled = before.scheduled ++ [r] ∧ after.lost = before.lost ∧
      (Json.get r "status" = .int 200 → answered)) ∨
    (after.scheduled = before.scheduled ∧ after.lost = before.lost + 1)

omit [PyFloat K] in
lemma spawnEmit_spec (sched : Scheduling) (c : UsageCall K) (e : Emits K) :
    (Drops sched c.tenant e → spawnEmit sched c e = recordDrop e) ∧
    (¬ Drops sched c.tenant e → ∃ blob, spawnEmit sched c e =
      { e with scheduled := e.scheduled ++ [usageRecord c sched.now blob]
               inFlight := e.inFlight + 1 }) := by
  unfold Drops spawnEmit
  cases archive sched c.tenant with
  | error f => simp [Except.isOk, Except.toBool]
  | ok blob =>
      by_cases hfull : maxPendingEmits ≤ e.inFlight
      · simp [hfull]
      · cases sched.createTask <;> simp [hfull, Except.isOk, Except.toBool]

omit [PyFloat K] in
lemma status_usageRecord (c : UsageCall K) (ts : String) (blob : Option String) :
    Json.get (usageRecord c ts blob) "status" = .int c.status := by
  simp [usageRecord, Json.get, List.lookup_cons]

omit [PyFloat K] in
/-- A call that is made is accounted for, unless it schedules a status that is not known. -/
lemma accounted_spawnEmit (sched : Scheduling) (c : UsageCall K) (e : Emits K) (answered : Prop) :
    Accounted e (spawnEmit sched c e) answered ↔
      Drops sched c.tenant e ∨ (c.status = 200 → answered) := by
  obtain ⟨hdrops, hschedules⟩ := spawnEmit_spec sched c e
  by_cases h : Drops sched c.tenant e
  · rw [hdrops h]
    exact iff_of_true (Or.inr ⟨rfl, rfl⟩) (Or.inl h)
  · obtain ⟨blob, hblob⟩ := hschedules h
    rw [hblob]
    simp [Accounted, h, status_usageRecord]

omit [PyFloat K] in
lemma not_accounted (e : Emits K) (answered : Prop) : ¬ Accounted e e answered := by
  simp [Accounted]

omit [PyFloat K] in
/-- What `finally` makes of what it finds: one record if the texts can be read, and none if the
parser raises. -/
lemma accounted_withFinally {body : Gen K Unit} {sched : Scheduling} {tenant : Tenant}
    {call : List Text → ℤ → Except Fault (UsageCall K)} {s : State K} {texts : List Text}
    {status : ℤ} {readable : Prop}
    (hbody : (after (body s)).collected = texts ∧ (after (body s)).emits = s.emits ∧
      (after (body s)).upstreamStatus = status)
    (hcall : (readable → ∃ c, call texts status = .ok c ∧ c.status = status ∧ c.tenant = tenant) ∧
      (¬ readable → ∃ f, call texts status = .error f)) (answered : Prop) :
    Accounted s.emits (after (withFinally body (account sched call) s)).emits answered ↔
      readable ∧ (Drops sched tenant s.emits ∨ (status = 200 → answered)) := by
  obtain ⟨htexts, hemits, hstatus⟩ := hbody
  rw [after_withFinally, htexts, hstatus]
  by_cases h : readable
  · obtain ⟨c, hc, rfl, rfl⟩ := hcall.1 h
    rw [hc]
    dsimp only
    rw [hemits, accounted_spawnEmit]
    simp [h]
  · obtain ⟨f, hf⟩ := hcall.2 h
    rw [hf]
    dsimp only
    rw [hemits]
    exact iff_of_false (not_accounted s.emits answered) (fun h' => h h'.1)

/-! ## Every run of a generator -/

/-- The chunks that are read before the stream ends, the client goes, or an event cannot be
rewritten. -/
def received (json : JsonModule K) (py : Runtime K) (u : Upstream K) (client : Option ℕ) :
    Route → List Bytes
  | .messages => relayed client (CopilotClient.stream py u).1
  | _ => (pass json client [] (CopilotClient.stream py u).1).read

/-- The parsers of an endpoint accept the texts, which is all that a record needs. -/
def Readable (json : JsonModule K) (req : Request K) (texts : List Text) : Route → Prop
  | .chatCompletions => PassReadable json false req.estInput texts
  | .responses => PassReadable json true req.estInput texts
  | .messages => MessagesReadable json texts

lemma passthrough_accounted (json : JsonModule K) (py : Runtime K) (sched : Scheduling)
    (req : Request K) (u : Upstream K) (client : Option ℕ) (emits : Emits K) (answered : Prop) :
    Accounted emits
        (after (passthrough json py sched req u (State.initial client emits))).emits answered ↔
      PassReadable json req.responsesShape req.estInput
          ((pass json client [] (CopilotClient.stream py u).1).read.map Utf8.decode) ∧
        (Drops sched req.tenant emits ∨
          (recordedStatus (CopilotClient.stream py u).2 = 200 → answered)) := by
  have hbody := body_leaves json (e := (CopilotClient.stream py u).2)
    (passChunks_leaves json (CopilotClient.stream py u).1 client emits) (flushTail_leaves json)
    (stream_refused py u) rfl
  exact accounted_withFinally hbody (passCall_spec json req _ _) answered

lemma messages_accounted (json : JsonModule K) (py : Runtime K) (sched : Scheduling)
    (req : Request K) (u : Upstream K) (client : Option ℕ) (emits : Emits K) (answered : Prop) :
    Accounted emits
        (after (messages json py sched req u (State.initial client emits))).emits answered ↔
      MessagesReadable json ((relayed client (CopilotClient.stream py u).1).map Utf8.decode) ∧
        (Drops sched req.tenant emits ∨
          (recordedStatus (CopilotClient.stream py u).2 = 200 → answered)) := by
  have htail : ∀ s : State K, Leaves ((pure () : Gen K Unit) s) s s.collected :=
    fun s => ⟨rfl, rfl, rfl, fun _ _ h => by cases h⟩
  have hbody := body_leaves json (e := (CopilotClient.stream py u).2)
    (messagesChunks_leaves (CopilotClient.stream py u).1 (State.initial client emits))
    htail (stream_refused py u) rfl
  rw [bind_pure_unit] at hbody
  exact accounted_withFinally hbody (messagesCall_spec json req _ _) answered

/-- A streamed call is accounted for if and only if its parsers accept the texts that have come,
and the record is dropped, or the backend has answered 200, or its refusal has been read. -/
theorem accounted_iff (json : JsonModule K) (py : Runtime K) (sched : Scheduling)
    (req : Request K) (u : Upstream K) (client : Option ℕ) (emits : Emits K) (route : Route) :
    Accounted emits
        (after (generator json py sched req u route (State.initial client emits))).emits
        (u.status py = some 200) ↔
      Readable json req ((received json py u client route).map Utf8.decode) route ∧
        (Drops sched req.tenant emits ∨ statusKnown py u = true) := by
  rw [← recordedStatus_stream]
  cases route with
  | chatCompletions => exact passthrough_accounted json py sched _ u client emits _
  | responses => exact passthrough_accounted json py sched _ u client emits _
  | messages => exact messages_accounted json py sched req u client emits _

section Examples

/-- A module that reads the number 1, and takes everything else for invalid. -/
def oneJson : JsonModule ℚ :=
  ⟨fun t => if t = ['1'] then .value (.int 1) else .invalid, fun _ _ => .ok []⟩

/-- The backend cannot be reached, so that the call ends before the first chunk. -/
def unreached : Upstream ℚ := { serving [] with answer := .failed .transport }

def chatEmits (u : Upstream ℚ) : Emits ℚ :=
  (after (generator oneJson Runtime.strict idle chatRequest u .chatCompletions
    (State.initial none ⟨[], 0, 0⟩))).emits

/-- The event `data: 1`, and a connection that fails: no record, and a record with the status 200
of a request that has not been answered. -/
theorem unaccounted :
    ¬ Accounted ⟨[], 0, 0⟩
        (chatEmits (serving [[0x64, 0x61, 0x74, 0x61, 0x3A, 0x20, 0x31, 0x0A, 0x0A]]))
        ((serving [[0x64, 0x61, 0x74, 0x61, 0x3A, 0x20, 0x31, 0x0A, 0x0A]]).status
          Runtime.strict = some 200) ∧
      ¬ Accounted ⟨[], 0, 0⟩ (chatEmits unreached)
        (unreached.status Runtime.strict = some 200) := by
  constructor
  · have hnone : chatEmits (serving [[0x64, 0x61, 0x74, 0x61, 0x3A, 0x20, 0x31, 0x0A, 0x0A]]) =
        ⟨[], 0, 0⟩ := by rfl
    rw [hnone]
    exact not_accounted _ _
  · have hone : ∃ r, chatEmits unreached = ⟨[r], 1, 0⟩ ∧ Json.get r "status" = .int 200 :=
      ⟨_, rfl, rfl⟩
    obtain ⟨r, hemits, hstatus⟩ := hone
    rw [hemits]
    rintro (⟨r', hr, -, hanswered⟩ | ⟨hr, -⟩)
    · obtain rfl : r = r' := by simpa using hr
      cases hanswered hstatus
    · cases hr

end Examples

end Server
end TokenFoundry
