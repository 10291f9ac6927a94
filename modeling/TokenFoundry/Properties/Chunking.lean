import TokenFoundry.Hub.Server

/-!
# A stream does not depend on its chunks

`_passthrough.gen` decodes every chunk, keeps the text in a buffer, and takes the complete events
off it.  Here the loop is described without its state: `pass` says which chunks are read, what is
sent, and how the loop ends.  For a client that stays, all of it is a function of the text of the
stream.

A chunk is decoded by itself, so that text is the text of the stream only if no chunk ends inside a
character.
-/

set_option autoImplicit false

namespace TokenFoundry
namespace Server

open CopilotClient (Text Bytes Fault Exn Upstream)

variable {K : Type} [PyFloat K]

/-! ## The loop without its state -/

/-- What a client waits for after a yield, if it has not gone. -/
def stays : Option ℕ → Option (Option ℕ)
  | none => some none
  | some 0 => none
  | some (n + 1) => some (some n)

/-- Events that are sent to a client one after the other, and what becomes of the client. -/
def deliver (json : JsonModule K) : Option ℕ → List Text → List Bytes × Except Exn (Option ℕ)
  | client, [] => ([], .ok client)
  | client, event :: events =>
      match emitEvent json event with
      | .error f => ([], .error (.fault f))
      | .ok b =>
          match stays client with
          | none => ([b ++ blankLineBytes], .error .generatorExit)
          | some client' =>
              ((b ++ blankLineBytes) :: (deliver json client' events).1,
                (deliver json client' events).2)

/-- How the loop over the chunks goes: what is read, what is sent, and how it ends. -/
structure Passed where
  /-- The chunks that are read. -/
  read : List Bytes
  sent : List Bytes
  /-- What becomes of the client, and what is left in the buffer. -/
  result : Except Exn (Option ℕ × Text)

def pass (json : JsonModule K) : Option ℕ → Text → List Bytes → Passed
  | client, buf, [] => ⟨[], [], .ok (client, buf)⟩
  | client, buf, c :: cs =>
      let taken := Splitting.pieces blankLine (buf ++ Utf8.decode c)
      match (deliver json client taken.1).2 with
      | .error e => ⟨[c], (deliver json client taken.1).1, .error e⟩
      | .ok client' =>
          let next := pass json client' taken.2 cs
          ⟨c :: next.read, (deliver json client taken.1).1 ++ next.sent, next.result⟩

/-! ## The loop of the program -/

omit [PyFloat K] in
lemma yieldBytes_run (b : Bytes) (s : State K) : yieldBytes b s =
    match stays s.client with
    | none => .error .generatorExit { s with sent := s.sent ++ [b] }
    | some client => .ok () { s with sent := s.sent ++ [b], client := client } := by
  obtain ⟨collected, buf, status, sent, client, emits⟩ := s
  match client with
  | none => rfl
  | some 0 => rfl
  | some (n + 1) => rfl

omit [PyFloat K] in
lemma get_run (s : State K) : (get : Gen K (State K)) s = .ok s s := rfl

omit [PyFloat K] in
lemma modify_run (f : State K → State K) (s : State K) : (modify f : Gen K Unit) s = .ok () (f s) :=
  rfl

lemma flushEvents_run (json : JsonModule K) (n : ℕ) (s : State K) : flushEvents json (n + 1) s =
    match Splitting.findSep blankLine s.buf with
    | none => .ok () s
    | some (event, rest) =>
        match emitEvent json event with
        | .error f => .error (.fault f) { s with buf := rest }
        | .ok b =>
            match yieldBytes (b ++ blankLineBytes) { s with buf := rest } with
            | .ok _ s => flushEvents json n s
            | .error e s => .error e s := by
  simp only [flushEvents, bind, EStateM.bind, get_run]
  cases Splitting.findSep blankLine s.buf with
  | none => rfl
  | some r =>
      obtain ⟨event, rest⟩ := r
      dsimp only
      cases emitEvent json event with
      | error f => rfl
      | ok b =>
          simp only [EStateM.bind, modify_run, orRaise, pure, EStateM.pure]
          cases yieldBytes (b ++ blankLineBytes) { s with buf := rest } <;> rfl

/-- Everything but what is sent, the buffer and the client is left. -/
structure Kept (s s' : State K) (sent : List Bytes) : Prop where
  collected : s'.collected = s.collected
  upstreamStatus : s'.upstreamStatus = s.upstreamStatus
  emits : s'.emits = s.emits
  sent : s'.sent = s.sent ++ sent

omit [PyFloat K] in
lemma Kept.refl (s : State K) : Kept s s [] := ⟨rfl, rfl, rfl, by simp⟩

omit [PyFloat K] in
lemma Kept.trans {s s' s'' : State K} {bs bs' : List Bytes} (h : Kept s s' bs)
    (h' : Kept s' s'' bs') : Kept s s'' (bs ++ bs') where
  collected := h'.collected.trans h.collected
  upstreamStatus := h'.upstreamStatus.trans h.upstreamStatus
  emits := h'.emits.trans h.emits
  sent := by rw [h'.sent, h.sent, List.append_assoc]

/-- A part of the generator that sends `sent`, and comes to its end in the state `final`, or does
not. -/
def Sends (r : EStateM.Result Exn (State K) Unit) (s : State K) (sent : List Bytes)
    (result : Except Exn (State K)) : Prop :=
  match result with
  | .ok final => r = .ok () final
  | .error e => ∃ s', r = .error e s' ∧ Kept s s' sent

lemma blankLine_ne_nil : blankLine ≠ [] := by simp [blankLine]

/-- The inner loop sends the events of the buffer, as far as the client takes them, and keeps in the
buffer what follows the last blank line. -/
lemma flushEvents_sends (json : JsonModule K) {n : ℕ} {s : State K} (hn : s.buf.length ≤ n) :
    let taken := Splitting.pieces blankLine s.buf
    let delivered := deliver json s.client taken.1
    Sends (flushEvents json n s) s delivered.1 (delivered.2.map (fun client =>
      { s with buf := taken.2, sent := s.sent ++ delivered.1, client := client })) := by
  induction n generalizing s with
  | zero =>
      have hbuf : s.buf = [] := List.length_eq_zero_iff.1 (by omega)
      obtain ⟨collected, buf, status, sent, client, emits⟩ := s
      obtain rfl : buf = [] := hbuf
      simp [Splitting.pieces, Splitting.takePieces, deliver, Sends, Except.map, flushEvents, pure,
        EStateM.pure]
  | succ n ih =>
      rw [flushEvents_run]
      cases hfind : Splitting.findSep blankLine s.buf with
      | none =>
          simp [Splitting.pieces_of_none hfind, deliver, Sends, Except.map]
      | some r =>
          obtain ⟨event, rest⟩ := r
          have hlength := congrArg List.length (Splitting.findSep_eq hfind)
          simp only [List.length_append, blankLine, List.length_cons, List.length_nil] at hlength
          simp only [Splitting.pieces_of_some blankLine_ne_nil hfind, deliver]
          -- The first event: the loop ends with it if it cannot be rewritten, or if the client
          -- goes.
          cases emitEvent json event with
          | error f => exact ⟨_, rfl, ⟨rfl, rfl, rfl, by simp⟩⟩
          | ok b =>
              dsimp only
              rw [yieldBytes_run]
              dsimp only
              cases stays s.client with
              | none => exact ⟨_, rfl, ⟨rfl, rfl, rfl, rfl⟩⟩
              | some client =>
                  dsimp only
                  have hrest := @ih { s with
                    buf := rest, sent := s.sent ++ [b ++ blankLineBytes], client := client }
                    (by show rest.length ≤ n; omega)
                  dsimp only at hrest
                  cases hresult : (deliver json client (Splitting.pieces blankLine rest).1).2 with
                  | ok client' =>
                      rw [hresult] at hrest
                      simpa [Sends, Except.map] using hrest
                  | error e =>
                      rw [hresult] at hrest
                      obtain ⟨s', hrun, hkept⟩ := hrest
                      have hfirst : Kept s { s with
                          buf := rest, sent := s.sent ++ [b ++ blankLineBytes], client := client }
                          [b ++ blankLineBytes] := ⟨rfl, rfl, rfl, rfl⟩
                      exact ⟨s', hrun, hfirst.trans hkept⟩

lemma passChunk_sends (json : JsonModule K) (c : Bytes) (s : State K) :
    let taken := Splitting.pieces blankLine (s.buf ++ Utf8.decode c)
    let delivered := deliver json s.client taken.1
    Sends (passChunk json c s) { s with collected := s.collected ++ [Utf8.decode c] } delivered.1
      (delivered.2.map (fun client => { s with
        collected := s.collected ++ [Utf8.decode c]
        buf := taken.2
        sent := s.sent ++ delivered.1
        client := client })) := by
  have hflush := flushEvents_sends json (le_refl (s.buf ++ Utf8.decode c).length)
    (s := { s with
      collected := s.collected ++ [Utf8.decode c]
      buf := s.buf ++ Utf8.decode c })
  dsimp only at hflush ⊢
  cases hresult : (deliver json s.client
      (Splitting.pieces blankLine (s.buf ++ Utf8.decode c)).1).2 with
  | ok client =>
      rw [hresult] at hflush
      exact hflush
  | error e =>
      rw [hresult] at hflush
      obtain ⟨s', hrun, hkept⟩ := hflush
      exact ⟨s', hrun, hkept.1, hkept.2, hkept.3, hkept.4⟩

omit [PyFloat K] in
lemma forChunks_cons (body : Bytes → Gen K Unit) (c : Bytes) (cs : List Bytes) (e : Option Exn)
    (s : State K) : forChunks body (c :: cs) e s =
    match body c s with
    | .ok _ s => forChunks body cs e s
    | .error e s => .error e s := by
  simp only [forChunks, bind, EStateM.bind]
  cases body c s <;> rfl

omit [PyFloat K] in
/-- What a loop that ends with an exception does before. -/
lemma forChunks_raises (body : Bytes → Gen K Unit) (cs : List Bytes) (e : Exn) (s : State K) :
    forChunks body cs (some e) s =
    match forChunks body cs none s with
    | .ok _ s => .error e s
    | .error e s => .error e s := by
  induction cs generalizing s with
  | nil => rfl
  | cons c cs ih =>
      rw [forChunks_cons, forChunks_cons]
      cases body c s with
      | ok _ s => exact ih s
      | error e s => rfl

/-- The outer loop reads the chunks and sends the events as `pass` says. -/
lemma forChunks_sends (json : JsonModule K) (cs : List Bytes) (s : State K) :
    let passed := pass json s.client s.buf cs
    Sends (forChunks (passChunk json) cs none s)
      { s with collected := s.collected ++ passed.read.map Utf8.decode } passed.sent
      (passed.result.map (fun r => { s with
        collected := s.collected ++ passed.read.map Utf8.decode
        buf := r.2
        sent := s.sent ++ passed.sent
        client := r.1 })) := by
  induction cs generalizing s with
  | nil => simp [pass, Sends, Except.map, forChunks, pure, EStateM.pure]
  | cons c cs ih =>
      have hchunk := passChunk_sends json c s
      dsimp only at hchunk ⊢
      rw [forChunks_cons, pass]
      dsimp only
      cases hresult : (deliver json s.client
          (Splitting.pieces blankLine (s.buf ++ Utf8.decode c)).1).2 with
      | error e =>
          rw [hresult] at hchunk
          obtain ⟨s', hrun, hkept⟩ := hchunk
          rw [hrun]
          exact ⟨s', rfl, hkept⟩
      | ok client =>
          rw [hresult] at hchunk
          rw [show passChunk json c s = _ from hchunk]
          have hrest := ih { s with
            collected := s.collected ++ [Utf8.decode c]
            buf := (Splitting.pieces blankLine (s.buf ++ Utf8.decode c)).2
            sent := s.sent ++ (deliver json s.client
              (Splitting.pieces blankLine (s.buf ++ Utf8.decode c)).1).1
            client := client }
          dsimp only at hrest ⊢
          generalize pass json client
            (Splitting.pieces blankLine (s.buf ++ Utf8.decode c)).2 cs = passed at hrest ⊢
          obtain ⟨read, sent, result⟩ := passed
          cases result with
          | ok r => simpa [Sends, Except.map] using hrest
          | error e =>
              obtain ⟨s', hrun, hkept⟩ := hrest
              refine ⟨s', hrun, ?_, hkept.2, hkept.3, ?_⟩
              · simpa using hkept.1
              · simpa using hkept.4

/-! ## The loop as a function of the text -/

/-- The bytes of events that are rewritten one after the other, and whether all of them can be. -/
def rewriteEvents (json : JsonModule K) : List Text → Bytes × Bool
  | [] => ([], true)
  | event :: events =>
      match emitEvent json event with
      | .error _ => ([], false)
      | .ok b =>
          (b ++ blankLineBytes ++ (rewriteEvents json events).1, (rewriteEvents json events).2)

/-- A text rewritten event by event; what follows the last blank line counts as an event if the
stream has come to its end. -/
def rewritten (json : JsonModule K) (text : Text) (ended : Bool) : Bytes :=
  let taken := Splitting.pieces blankLine text
  let events := rewriteEvents json taken.1
  events.1 ++
    (if events.2 && ended then (emitEvent json taken.2).toOption.getD [] else [])

lemma deliver_none (json : JsonModule K) (events : List Text) :
    (deliver json none events).1.flatten = (rewriteEvents json events).1 ∧
      match (deliver json none events).2 with
      | .ok client => client = none ∧ (rewriteEvents json events).2 = true
      | .error _ => (rewriteEvents json events).2 = false := by
  induction events with
  | nil => exact ⟨rfl, rfl, rfl⟩
  | cons event events ih =>
      simp only [deliver, rewriteEvents]
      cases emitEvent json event with
      | error f => exact ⟨rfl, rfl⟩
      | ok b =>
          simp only [stays]
          refine ⟨?_, ih.2⟩
          rw [List.flatten_cons, ih.1]

lemma rewriteEvents_append (json : JsonModule K) (events more : List Text) :
    rewriteEvents json (events ++ more) =
      if (rewriteEvents json events).2 then
        ((rewriteEvents json events).1 ++ (rewriteEvents json more).1, (rewriteEvents json more).2)
      else rewriteEvents json events := by
  induction events with
  | nil => simp [rewriteEvents]
  | cons event events ih =>
      rw [List.cons_append, rewriteEvents, rewriteEvents]
      cases h : emitEvent json event with
      | error f => simp
      | ok b =>
          simp only [ih]
          split_ifs <;> simp

/-- With a client that stays, the loop makes of the chunks what it makes of their text. -/
lemma pass_none (json : JsonModule K) {buf : Text}
    (hbuf : Splitting.findSep blankLine buf = none) (cs : List Bytes) :
    let taken := Splitting.pieces blankLine (buf ++ (cs.map Utf8.decode).flatten)
    (pass json none buf cs).sent.flatten = (rewriteEvents json taken.1).1 ∧
      match (pass json none buf cs).result with
      | .ok r => r = (none, taken.2) ∧ (rewriteEvents json taken.1).2 = true ∧
          (pass json none buf cs).read = cs
      | .error _ => (rewriteEvents json taken.1).2 = false := by
  induction cs generalizing buf with
  | nil => simp [pass, Splitting.pieces_of_none hbuf, rewriteEvents]
  | cons c cs ih =>
      rw [List.map_cons, List.flatten_cons, ← List.append_assoc,
        Splitting.pieces_append blankLine_ne_nil, pass]
      dsimp only
      rw [rewriteEvents_append]
      have hrest := ih (Splitting.findSep_rest blankLine_ne_nil (buf ++ Utf8.decode c))
      obtain ⟨hsent, hresult⟩ :=
        deliver_none json (Splitting.pieces blankLine (buf ++ Utf8.decode c)).1
      cases hdeliver : (deliver json none
          (Splitting.pieces blankLine (buf ++ Utf8.decode c)).1).2 with
      | error e =>
          rw [hdeliver] at hresult
          simp [hresult, hsent]
      | ok client =>
          rw [hdeliver] at hresult
          obtain ⟨rfl, hall⟩ := hresult
          rw [if_pos hall]
          dsimp only at hrest ⊢
          refine ⟨by rw [List.flatten_append, hsent, hrest.1], ?_⟩
          have hlast := hrest.2
          cases hpass : (pass json none
              (Splitting.pieces blankLine (buf ++ Utf8.decode c)).2 cs).result with
          | error e => simpa [hpass] using hlast
          | ok r =>
              rw [hpass] at hlast
              exact ⟨hlast.1, hlast.2.1, by rw [hlast.2.2]⟩

/-- The chunks that are read decide what the loop does. -/
lemma pass_read (json : JsonModule K) (client : Option ℕ) (buf : Text) (cs : List Bytes) :
    pass json client buf (pass json client buf cs).read = pass json client buf cs := by
  induction cs generalizing client buf with
  | nil => rfl
  | cons c cs ih =>
      simp only [pass]
      cases h : (deliver json client (Splitting.pieces blankLine (buf ++ Utf8.decode c)).1).2 with
      | error e => simp only [pass, h]
      | ok client' => simp only [pass, h, ih]

lemma pass_read_prefix (json : JsonModule K) (client : Option ℕ) (buf : Text) (cs : List Bytes) :
    (pass json client buf cs).read <+: cs := by
  induction cs generalizing client buf with
  | nil => exact List.prefix_rfl
  | cons c cs ih =>
      simp only [pass]
      cases h : (deliver json client (Splitting.pieces blankLine (buf ++ Utf8.decode c)).1).2 with
      | error e => simp
      | ok client' => simpa using ih client' _

/-- The last chunk that is read before an exception has the end of a line in it. -/
lemma pass_error (json : JsonModule K) {client : Option ℕ} {buf : Text}
    (hbuf : Splitting.findSep blankLine buf = none) {cs : List Bytes} {e : Exn}
    (h : (pass json client buf cs).result = .error e) :
    ∃ pre c, (pass json client buf cs).read = pre ++ [c] ∧ (0x0A : UInt8) ∈ c := by
  induction cs generalizing client buf with
  | nil => simp [pass] at h
  | cons c cs ih =>
      simp only [pass] at h ⊢
      cases hdeliver : (deliver json client
          (Splitting.pieces blankLine (buf ++ Utf8.decode c)).1).2 with
      | ok client' =>
          rw [hdeliver] at h
          obtain ⟨pre, c', hread, hmem⟩ :=
            ih (Splitting.findSep_rest blankLine_ne_nil _) h
          exact ⟨c :: pre, c', by simp [hread], hmem⟩
      | error e' =>
          refine ⟨[], c, rfl, ?_⟩
          cases hfind : Splitting.findSep blankLine (buf ++ Utf8.decode c) with
          | none => simp [Splitting.pieces_of_none hfind, deliver] at hdeliver
          | some r =>
              obtain ⟨a, ha, hmem⟩ :=
                Splitting.exists_mem_of_findSep blankLine_ne_nil hbuf hfind
              obtain rfl : a = '\n' := by simpa [blankLine] using ha
              have hcount := Utf8.count_decode (b := 0x0A) rfl c
              rw [← List.count_pos_iff, ← hcount]
              exact List.count_pos_iff.2 hmem

/-! ## The whole generator -/

/-- The state that a part of a generator leaves, whether it returns or raises. -/
def after {α : Type} : EStateM.Result Exn (State K) α → State K
  | .ok _ s => s
  | .error _ s => s

omit [PyFloat K] in
lemma tryCatch_run (body : Gen K Unit) (handler : Exn → Gen K Unit) (s : State K) :
    (tryCatch body handler : Gen K Unit) s =
      match body s with
      | .ok a s => .ok a s
      | .error e s => handler e s := by
  simp only [tryCatch, tryCatchThe, MonadExceptOf.tryCatch, EStateM.tryCatch]
  cases body s <;> rfl

omit [PyFloat K] in
lemma account_run (sched : Scheduling) (call : List Text → ℤ → Except Fault (UsageCall K))
    (s : State K) : account sched call s =
      match call s.collected s.upstreamStatus with
      | .ok c => .ok () { s with emits := spawnEmit sched c s.emits }
      | .error f => .error (.fault f) s := by
  simp only [account, bind, EStateM.bind, get_run]
  cases call s.collected s.upstreamStatus <;> rfl

omit [PyFloat K] in
/-- What the generator leaves is what it has left before `finally`, with the record. -/
lemma after_withFinally (body : Gen K Unit) (sched : Scheduling)
    (call : List Text → ℤ → Except Fault (UsageCall K)) (s : State K) :
    after (withFinally body (account sched call) s) =
      match call (after (body s)).collected (after (body s)).upstreamStatus with
      | .ok c => { after (body s) with emits := spawnEmit sched c (after (body s)).emits }
      | .error _ => after (body s) := by
  unfold withFinally
  cases body s with
  | ok _ s =>
      simp only [account_run, after]
      cases call s.collected s.upstreamStatus <;> rfl
  | error e s =>
      simp only [account_run, after]
      cases call s.collected s.upstreamStatus <;> rfl

omit [PyFloat K] in
lemma sent_withFinally (body : Gen K Unit) (sched : Scheduling)
    (call : List Text → ℤ → Except Fault (UsageCall K)) (s : State K) :
    (after (withFinally body (account sched call) s)).sent = (after (body s)).sent ∧
      (after (withFinally body (account sched call) s)).collected = (after (body s)).collected := by
  rw [after_withFinally]
  cases call (after (body s)).collected (after (body s)).upstreamStatus <;> exact ⟨rfl, rfl⟩

lemma flushTail_run (json : JsonModule K) (s : State K) : flushTail json s =
    if s.buf ≠ [] then
      match emitEvent json s.buf with
      | .ok b => yieldBytes b s
      | .error f => .error (.fault f) s
    else .ok () s := by
  simp only [flushTail, bind, EStateM.bind, get_run]
  by_cases hbuf : s.buf ≠ []
  · rw [if_pos hbuf, if_pos hbuf]
    cases emitEvent json s.buf <;> rfl
  · rw [if_neg hbuf, if_neg hbuf]
    rfl

/-- An exception of the generator itself: the client has closed it, or its own code has failed. 
What the backend raises is not local. -/
def Exn.Local (e : Exn) : Prop := e = .generatorExit ∨ ∃ f, e = .fault f

omit [PyFloat K] in
lemma onException_run (json : JsonModule K) {e : Exn} (he : Exn.Local e) (s : State K) :
    onException json e s = .error e s := by
  rcases he with rfl | ⟨f, rfl⟩ <;> rfl

lemma deliver_local (json : JsonModule K) {client : Option ℕ} {events : List Text} {e : Exn}
    (h : (deliver json client events).2 = .error e) : Exn.Local e := by
  induction events generalizing client with
  | nil => simp [deliver] at h
  | cons event events ih =>
      rw [deliver] at h
      cases hemit : emitEvent json event with
      | error f =>
          rw [hemit] at h
          exact Or.inr ⟨f, by simpa [eq_comm] using h⟩
      | ok b =>
          rw [hemit] at h
          cases hstays : stays client with
          | none =>
              rw [hstays] at h
              exact Or.inl (by simpa [eq_comm] using h)
          | some client' =>
              rw [hstays] at h
              exact ih h

lemma pass_local (json : JsonModule K) {client : Option ℕ} {buf : Text} {cs : List Bytes}
    {e : Exn} (h : (pass json client buf cs).result = .error e) : Exn.Local e := by
  induction cs generalizing client buf with
  | nil => simp [pass] at h
  | cons c cs ih =>
      simp only [pass] at h
      cases hdeliver : (deliver json client
          (Splitting.pieces blankLine (buf ++ Utf8.decode c)).1).2 with
      | ok client' =>
          rw [hdeliver] at h
          exact ih h
      | error e' =>
          rw [hdeliver] at h
          obtain rfl : e' = e := by simpa using h
          exact deliver_local json hdeliver

omit [PyFloat K] in
lemma body_run (cs : List Bytes) (e : Option Exn) (body : Bytes → Gen K Unit) (tail : Gen K Unit)
    (s : State K) : (do forChunks body cs e; tail : Gen K Unit) s =
      match forChunks body cs e s with
      | .ok _ s => tail s
      | .error e s => .error e s := by
  simp only [bind, EStateM.bind]
  cases forChunks body cs e s <;> rfl

/-- The chunks of which the text is kept: all of them, unless an event cannot be rewritten. -/
def chunksRead (json : JsonModule K) (cs : List Bytes) : List Bytes := (pass json none [] cs).read

lemma findSep_nil : Splitting.findSep blankLine [] = none := rfl

lemma emitEvent_nil (json : JsonModule K) : emitEvent json [] = .ok [] := rfl

/-- What a client that stays gets, and the text that is kept. -/
lemma passthrough_sends (json : JsonModule K) {py : Runtime K} (sched : Scheduling)
    (req : Request K) {u : Upstream K} (emits : Emits K) {cs : List Bytes} {broken : Option Fault}
    (h : CopilotClient.stream py u = (cs, broken.map Exn.fault)) :
    let s := after (passthrough json py sched req u (State.initial none emits))
    s.sent.flatten = rewritten json (cs.map Utf8.decode).flatten broken.isNone ∧
      s.collected = (chunksRead json cs).map Utf8.decode := by
  dsimp only
  unfold passthrough
  rw [(sent_withFinally _ _ _ _).1, (sent_withFinally _ _ _ _).2, tryCatch_run, h]
  dsimp only
  rw [body_run]
  have hloop := forChunks_sends json cs (State.initial none emits)
  obtain ⟨hsent, hresult⟩ := pass_none json findSep_nil cs
  simp only [State.initial, List.nil_append] at hloop hsent hresult ⊢
  unfold rewritten chunksRead
  -- Either an event cannot be rewritten, which ends the loop where it stands, or the loop comes to
  -- the end of the chunks.
  cases hpass : (pass json none [] cs).result with
  | error e =>
      rw [hpass] at hloop hresult
      obtain ⟨s', hrun, hkept⟩ := hloop
      have hraise : forChunks (passChunk json) cs (broken.map Exn.fault)
          ⟨[], [], 200, [], none, emits⟩ = .error e s' := by
        cases broken with
        | none => exact hrun
        | some f => rw [Option.map_some, forChunks_raises, hrun]
      rw [hraise]
      dsimp only
      rw [onException_run json (pass_local json hpass)]
      simp [after, hkept.sent, hkept.collected, hsent, hresult]
  | ok r =>
      rw [hpass] at hloop hresult
      obtain ⟨rfl, hall, hread⟩ := hresult
      cases broken with
      | some f =>
          rw [Option.map_some, forChunks_raises, hloop]
          dsimp only
          rw [onException_run json (Or.inr ⟨f, rfl⟩)]
          simp [after, hsent]
      | none =>
          -- The stream has ended in order: what is left of the buffer is sent as a last event.
          rw [Option.map_none, hloop]
          dsimp only
          rw [flushTail_run]
          dsimp only
          generalize (Splitting.pieces blankLine (cs.map Utf8.decode).flatten).2 = rest
          by_cases hrest : rest = []
          · simp [hrest, after, hsent, hall, emitEvent_nil, Except.toOption]
          · rw [if_pos hrest]
            cases hemit : emitEvent json rest with
            | error f =>
                dsimp only
                rw [onException_run json (Or.inr ⟨f, rfl⟩)]
                simp [after, hsent, Except.toOption]
            | ok b =>
                dsimp only
                rw [yieldBytes_run]
                simp [stays, after, hsent, hall, Except.toOption]

/-! ## Cuttings of a stream -/

/-- A run agrees with the stream: the client has got the text of the stream rewritten event by
event, and that text is what the usage is read out of. -/
def Agrees (json : JsonModule K) (stream : Bytes) (ended : Bool) (s : State K) : Prop :=
  s.sent.flatten = rewritten json (Utf8.decode stream) ended ∧
    s.collected.flatten = Utf8.decode stream

/-- What is rewritten of a text is decided by the chunks that are read. -/
lemma rewritten_read (json : JsonModule K) (cs : List Bytes) (ended : Bool) :
    rewritten json ((chunksRead json cs).map Utf8.decode).flatten ended =
      rewritten json (cs.map Utf8.decode).flatten ended := by
  obtain ⟨hsent, hresult⟩ := pass_none json findSep_nil cs
  obtain ⟨hsent', hresult'⟩ := pass_none json findSep_nil (chunksRead json cs)
  simp only [List.nil_append] at hsent hresult hsent' hresult'
  rw [chunksRead, pass_read] at hsent' hresult'
  cases hpass : (pass json none [] cs).result with
  | ok r =>
      rw [hpass] at hresult
      rw [chunksRead, hresult.2.2]
  | error e =>
      rw [hpass] at hresult hresult'
      unfold rewritten
      simp only [chunksRead, hresult, hresult', Bool.false_and, Bool.false_eq_true, if_false]
      rw [← hsent, ← hsent']

/-- An exception leaves chunks unread; what has been read contains the end of a line, up to which
the text tells how it was cut. -/
lemma text_of_error (json : JsonModule K) {cs : List Bytes} {e : Exn}
    (hpass : (pass json none [] cs).result = .error e)
    (htext : ((chunksRead json cs).map Utf8.decode).flatten = Utf8.decode cs.flatten) :
    ((chunksRead json cs).map Utf8.decode).flatten =
      Utf8.decode (chunksRead json cs).flatten := by
  obtain ⟨pre, c, hread, hmem⟩ := pass_error json findSep_nil hpass
  obtain ⟨z, hz⟩ := pass_read_prefix json none [] cs
  obtain ⟨y', x', hc, hy⟩ := List.eq_append_cons_of_mem (List.mem_reverse.2 hmem)
  obtain rfl : c = x'.reverse ++ 0x0A :: y'.reverse := by
    rw [← List.reverse_reverse c, hc]
    simp
  have hflatten : cs.flatten = (pre ++ [x'.reverse ++ 0x0A :: y'.reverse]).flatten ++
      z.flatten := by
    rw [← hread, ← List.flatten_append, hz]
  have hnot : (0x0A : UInt8) ∉ y'.reverse := by simpa using hy
  rw [chunksRead, hread, hflatten] at htext
  rw [chunksRead, hread]
  exact Utf8.decode_flatten_of_mark rfl hnot htext

/-- The proxy agrees with the stream if and only if no chunk that it reads ends inside a character,
and what is left unread after an event that cannot be rewritten adds nothing to the text. -/
theorem agrees_iff (json : JsonModule K) {py : Runtime K} (sched : Scheduling) (req : Request K)
    {u : Upstream K} (emits : Emits K) {cs : List Bytes} {broken : Option Fault}
    (h : CopilotClient.stream py u = (cs, broken.map Exn.fault)) :
    Agrees json cs.flatten broken.isNone
        (after (passthrough json py sched req u (State.initial none emits))) ↔
      Utf8.Whole (chunksRead json cs) ∧
        Utf8.decode cs.flatten = Utf8.decode (chunksRead json cs).flatten := by
  obtain ⟨hsent, hcollected⟩ := passthrough_sends json sched req emits h
  unfold Agrees
  rw [hsent, hcollected, ← rewritten_read, ← Utf8.decode_flatten_iff]
  constructor
  · rintro ⟨-, htext⟩
    cases hpass : (pass json none [] cs).result with
    | ok r =>
        have hresult := (pass_none json findSep_nil cs).2
        rw [hpass] at hresult
        have hread : chunksRead json cs = cs := hresult.2.2
        rw [hread] at htext ⊢
        exact ⟨htext, rfl⟩
    | error e =>
        have hread := text_of_error json hpass htext
        exact ⟨hread, by rw [← htext, hread]⟩
  · rintro ⟨hwhole, hunread⟩
    rw [hwhole, hunread]
    exact ⟨rfl, rfl⟩

/-! A request whose token is cached, and a module that finds no JSON in what it reads. -/

section Examples

def noJson : JsonModule ℚ := ⟨fun _ => .invalid, fun _ _ => .ok []⟩

def idle : Scheduling := ⟨"2026-01-01T00:00:00+00:00", .ok none, .ok ()⟩

def chatRequest : Request ℚ where
  tenant := ⟨"r-1", some "s-1", none, none, true, false⟩
  endUser := none
  model := .str "gpt-4o"
  endpoint := "chat.completions"
  responsesShape := false
  estInput := 10

/-- The backend answers 200 and sends the chunks; the token of the call is cached, so nothing is
exchanged before. -/
def serving (chunks : List Bytes) : Upstream ℚ where
  tokens := ⟨some ⟨.str "t", .str CopilotClient.copilotApiBase, 0⟩, none, none, .failed .transport⟩
  answer := .answered 200 chunks none

def ranOn (chunks : List Bytes) : State ℚ :=
  after (passthrough noJson Runtime.strict idle chatRequest (serving chunks)
    (State.initial none ⟨[], 0, 0⟩))

/-- A cut in the blank line: the two line feeds arrive in different chunks, and the buffer joins
them again. -/
theorem agrees_blankLine : Agrees noJson [0x3A, 0xC3, 0xA9, 0x0A, 0x0A, 0x3A] true
    (ranOn [[0x3A, 0xC3, 0xA9, 0x0A], [0x0A, 0x3A]]) :=
  (@agrees_iff ℚ _ noJson Runtime.strict idle chatRequest
    (serving [[0x3A, 0xC3, 0xA9, 0x0A], [0x0A, 0x3A]]) ⟨[], 0, 0⟩
    [[0x3A, 0xC3, 0xA9, 0x0A], [0x0A, 0x3A]] none rfl).2
    ⟨(Utf8.decode_flatten_iff _).1 (by decide), by decide⟩

/-- A cut in the two bytes of a letter: the client gets two replacement characters. -/
theorem differs_in_character :
    (ranOn [[0x3A, 0xC3], [0xA9, 0x0A, 0x0A]]).sent.flatten ≠
        (ranOn [[0x3A, 0xC3, 0xA9, 0x0A, 0x0A]]).sent.flatten ∧
      (ranOn [[0x3A, 0xC3], [0xA9, 0x0A, 0x0A]]).collected.flatten ≠
        (ranOn [[0x3A, 0xC3, 0xA9, 0x0A, 0x0A]]).collected.flatten := by
  decide

end Examples

/-! ## Consequences -/

/-- If every event can be rewritten, all chunks are read. -/
lemma chunksRead_of_isOk (json : JsonModule K) {cs : List Bytes}
    (h : ∀ event ∈ (Splitting.pieces blankLine (cs.map Utf8.decode).flatten).1,
      (emitEvent json event).isOk = true) : chunksRead json cs = cs := by
  have hall : ∀ events : List Text, (∀ event ∈ events, (emitEvent json event).isOk = true) →
      (rewriteEvents json events).2 = true := by
    intro events hevents
    induction events with
    | nil => rfl
    | cons event events ih =>
        have hfirst := hevents event List.mem_cons_self
        rw [rewriteEvents]
        cases hemit : emitEvent json event with
        | error f => simp [hemit, Except.isOk, Except.toBool] at hfirst
        | ok b => exact ih (fun e he => hevents e (List.mem_cons_of_mem event he))
  have hresult := (pass_none json findSep_nil cs).2
  cases hpass : (pass json none [] cs).result with
  | ok r =>
      rw [hpass] at hresult
      exact hresult.2.2
  | error e =>
      rw [hpass] at hresult
      simp only [List.nil_append] at hresult
      simp [hall _ h] at hresult

/-- Two cuttings that agree with their stream cannot be told apart. -/
theorem same_of_agrees {json : JsonModule K} {stream : Bytes} {ended : Bool} {s s' : State K}
    (h : Agrees json stream ended s) (h' : Agrees json stream ended s') :
    s.sent.flatten = s'.sent.flatten ∧ s.collected.flatten = s'.collected.flatten :=
  ⟨h.1.trans h'.1.symm, h.2.trans h'.2.symm⟩

/-- A stream that is cut between its characters agrees.  The decoded chunks are then the text of the
whole stream, and the events are those of the text, wherever the cuts are. -/
theorem agrees_of_texts (json : JsonModule K) {py : Runtime K} (sched : Scheduling)
    (req : Request K) {u : Upstream K} (emits : Emits K) {ts : List Text} {broken : Option Fault}
    (h : CopilotClient.stream py u = (ts.map Utf8.encode, broken.map Exn.fault))
    (hevents : ∀ event ∈ (Splitting.pieces blankLine ts.flatten).1,
      (emitEvent json event).isOk = true) :
    Agrees json (ts.map Utf8.encode).flatten broken.isNone
      (after (passthrough json py sched req u (State.initial none emits))) := by
  obtain ⟨hsent, hcollected⟩ := passthrough_sends json sched req emits h
  have hread : chunksRead json (ts.map Utf8.encode) = ts.map Utf8.encode :=
    chunksRead_of_isOk json (by rwa [Utf8.map_decode_encode])
  rw [hread] at hcollected
  have hdecode := (Utf8.decode_flatten_iff (ts.map Utf8.encode)).2 (Utf8.whole_map_encode ts)
  exact ⟨by rw [hsent, hdecode], by rw [hcollected, hdecode]⟩

end Server
end TokenFoundry
