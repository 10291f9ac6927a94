import TokenFoundry.Properties.AnthropicStream
import TokenFoundry.Properties.StreamRewriting

/-!
# The bytes of a translated stream

`_sse` writes an event as two lines and a blank line.  A text that is sent in an event may hold
anything, also what looks like an event: `json.dumps` escapes it, so that the bytes of a stream are
read back as the events that have been yielded, and as nothing else (`readSse_sent`).

How the backend's bytes are cut into chunks makes no difference, as long as no character is cut.
-/

set_option autoImplicit false

namespace TokenFoundry
namespace AnthropicAdapter

open CopilotClient (Text Bytes Fault Exn converted)
open Server (JsonModule pythonJson)

variable {K : Type} [PyFloat K]

/-! ## Reading the bytes -/

/-- The event of a record: a line with its name, and one with its document. -/
def readRecord (json : JsonModule K) (record : Text) : Option (Sse K) :=
  match Server.lines record with
  | [name, data] =>
      if eventPrefix <+: name then do
        match json.loads (← Server.payload data) with
        | .value (.dict d) => some ⟨String.ofList (name.drop eventPrefix.length), d⟩
        | _ => none
      else none
  | _ => none

/-- The events of a stream that has been sent, as a client reads them; nothing may be left after the
last. -/
def readSse (json : JsonModule K) (bytes : Bytes) : Option (List (Sse K)) :=
  let taken := Splitting.pieces Server.blankLine (Utf8.decode bytes)
  if taken.2 = [] then taken.1.mapM (readRecord json) else none

section Written

variable (ft : JsonText.FloatText K)

/-- The record of an event, without the blank line behind it. -/
def recordOf (e : Sse K) : Text :=
  eventPrefix ++ e.event.toList ++ '\n' ::
    Server.dataLine (JsonText.dumps ft ⟨false, true⟩ (.dict e.data))

omit [PyFloat K] in
lemma sse_eq (e : Sse K) :
    sse (pythonJson ft) e = .ok (Utf8.encode (recordOf ft e ++ Server.blankLine)) := rfl

/-- An event that is read back: its name is on one line, and its document has no key twice. -/
def Sendable (e : Sse K) : Prop := '\n' ∉ e.event.toList ∧ JsonText.Unique (.dict e.data)

omit [PyFloat K] in
lemma newline_not_mem_dataLine (d : Dict K) :
    '\n' ∉ Server.dataLine (JsonText.dumps ft ⟨false, true⟩ (.dict d)) := by
  intro h
  have hprintable := JsonText.printable_dumps ft ⟨false, true⟩ (.dict d) '\n'
  simp only [Server.dataLine, Server.dataPrefix, List.cons_append, List.nil_append,
    List.mem_cons] at h
  rcases h with h | h | h | h | h | h | h <;> first | exact absurd h (by decide) | skip
  exact hprintable h (by decide)

omit [PyFloat K] in
lemma payload_dataLine (d : Dict K) :
    Server.payload (Server.dataLine (JsonText.dumps ft ⟨false, true⟩ (.dict d))) =
      some (JsonText.dumps ft ⟨false, true⟩ (.dict d)) := by
  obtain ⟨t, ht⟩ : ∃ t, JsonText.dumps ft ⟨false, true⟩ (.dict d) = '{' :: (t ++ ['}']) :=
    ⟨_, rfl⟩
  have hstrip : Server.strip (' ' :: '{' :: (t ++ ['}'])) = '{' :: (t ++ ['}']) := by
    rw [Server.strip_eq, List.dropWhile_cons_of_pos (by decide), ← Server.strip_eq]
    exact Server.strip_between (by decide) (by decide) t
  rw [Server.dataLine, Server.payload, if_pos (List.prefix_append _ _), ht]
  simp only [List.drop_left, hstrip]
  rw [if_neg]
  simp [Server.doneMark]

omit [PyFloat K] in
lemma newline_not_mem_name {e : Sse K} (h : '\n' ∉ e.event.toList) :
    '\n' ∉ eventPrefix ++ e.event.toList := by
  rw [List.mem_append, not_or]
  exact ⟨by decide, h⟩

omit [PyFloat K] in
lemma readRecord_recordOf {e : Sse K} (h : Sendable e) :
    readRecord (pythonJson ft) (recordOf ft e) = some e := by
  have hlines : Server.lines (recordOf ft e) = [eventPrefix ++ e.event.toList,
      Server.dataLine (JsonText.dumps ft ⟨false, true⟩ (.dict e.data))] := by
    rw [Server.lines, recordOf, Splitting.splitOn_append,
      Splitting.splitOn_of_none (Splitting.findSep_single_none.2 (newline_not_mem_name h.1)),
      Splitting.splitOn_of_none
        (Splitting.findSep_single_none.2 (newline_not_mem_dataLine ft e.data))]
    rfl
  have hloads : (pythonJson ft).loads (JsonText.dumps ft ⟨false, true⟩ (.dict e.data)) =
      .value (.dict e.data) := Server.pythonJson_loads (JsonText.loads_dumps ft ⟨false, true⟩ h.2)
  rw [readRecord, hlines]
  dsimp only
  rw [if_pos (List.prefix_append _ _), payload_dataLine, List.drop_left, String.ofList_toList]
  simp only [Option.bind_eq_bind, Option.bind_some, hloads]

omit [PyFloat K] in
/-- A record ends at the first blank line, as there is none inside it. -/
lemma findSep_recordOf {e : Sse K} (h : Sendable e) (rest : Text) :
    Splitting.findSep Server.blankLine (recordOf ft e ++ Server.blankLine ++ rest) =
      some (recordOf ft e, rest) := by
  have hdata := newline_not_mem_dataLine ft e.data
  have hsep : Splitting.findSep Server.blankLine
      (Server.dataLine (JsonText.dumps ft ⟨false, true⟩ (.dict e.data)) ++
        (Server.blankLine ++ rest)) =
      some (Server.dataLine (JsonText.dumps ft ⟨false, true⟩ (.dict e.data)), rest) := by
    rw [Server.blankLine, Splitting.findSep_append_of_notMem hdata,
      Splitting.findSep_self (List.cons_ne_nil _ _), Option.map_some, List.append_nil]
  rw [recordOf, List.append_assoc, List.append_assoc, Server.blankLine,
    Splitting.findSep_append_of_notMem (newline_not_mem_name h.1), List.cons_append,
    Splitting.findSep, if_neg]
  · rw [Server.blankLine] at hsep
    rw [hsep]
    rfl
  · intro hprefix
    have hhead := (List.cons_prefix_cons.1 hprefix).2
    rw [Server.dataLine, Server.dataPrefix, List.cons_append, List.cons_append] at hhead
    exact absurd (List.cons_prefix_cons.1 hhead).1 (by decide)

omit [PyFloat K] in
lemma pieces_records {es : List (Sse K)} (h : ∀ e ∈ es, Sendable e) :
    Splitting.pieces Server.blankLine (es.flatMap (fun e => recordOf ft e ++ Server.blankLine)) =
      (es.map (recordOf ft), []) := by
  induction es with
  | nil => rfl
  | cons e es ih =>
      rw [List.flatMap_cons, Splitting.pieces_of_some Server.blankLine_ne_nil
        (findSep_recordOf ft (h e List.mem_cons_self) _),
        ih (fun e' he' => h e' (List.mem_cons_of_mem e he'))]
      rfl

omit [PyFloat K] in
/-- **The bytes of a stream** are read as its events. -/
theorem readSse_sent {es : List (Sse K)} (h : ∀ e ∈ es, Sendable e) {bs : List Bytes}
    (hbs : es.mapM (sse (pythonJson ft)) = .ok bs) :
    readSse (pythonJson ft) bs.flatten = some es := by
  have hmap : es.mapM (sse (pythonJson ft)) =
      .ok (es.map (fun e => Utf8.encode (recordOf ft e ++ Server.blankLine))) := by
    clear h hbs
    induction es with
    | nil => rfl
    | cons e es ih =>
        rw [List.mapM_cons, sse_eq, ih]
        rfl
  rw [hmap] at hbs
  obtain rfl := Except.ok.inj hbs
  have htext : (es.map (fun e => Utf8.encode (recordOf ft e ++ Server.blankLine))).flatten =
      Utf8.encode (es.flatMap (fun e => recordOf ft e ++ Server.blankLine)) := by
    rw [← List.flatMap_def, Utf8.encode, List.flatMap_assoc]
    rfl
  rw [htext, readSse, Utf8.decode_encode, pieces_records ft h]
  simp only [if_true]
  clear hmap hbs htext
  induction es with
  | nil => rfl
  | cons e es ih =>
      rw [List.map_cons, List.mapM_cons, readRecord_recordOf ft (h e List.mem_cons_self),
        ih (fun e' he' => h e' (List.mem_cons_of_mem e he'))]
      rfl

end Written

/-! ## What is yielded can be sent -/

section Readable

omit [PyFloat K] in
lemma unique_empty : JsonText.Unique (.dict [] : Json K) := ⟨List.nodup_nil, trivial⟩

omit [PyFloat K] in
lemma unique_dictOf {v : Json K} (h : JsonText.Unique v) : JsonText.Unique (.dict (dictOf v)) := by
  cases v with
  | dict d => exact h
  | _ => exact unique_empty

/-- What an item sends can be written and read: none of its documents has a key twice. -/
def Readable (a : Item K) : Prop :=
  (∀ i, JsonText.Unique (headContent (a.head i))) ∧
    ∀ d ∈ a.parts, JsonText.Unique (.dict (partDelta d))

omit [PyFloat K] in
lemma readable_textItem (t : String) : Readable (textItem t : Item K) := by
  refine ⟨fun i => ?_, fun d hd => ?_⟩
  · simp [headContent, textItem, textBlock, JsonText.Unique, JsonText.UniqueFields]
  · rw [List.mem_singleton.1 hd]
    simp [partDelta, textDelta, JsonText.Unique, JsonText.UniqueFields]

lemma readable_callItem (ids : Ids) {call : Dict K} (h : JsonText.Unique (.dict call)) :
    Readable (callItem ids call) := by
  have hfn : JsonText.Unique (.dict (dictOf (functionOf call))) :=
    unique_dictOf (JsonText.unique_orElse
      (JsonText.unique_getD h "function" unique_empty) unique_empty)
  refine ⟨fun i => ?_, fun d hd => ?_⟩
  · have hid : JsonText.Unique (toolId ids i call) :=
      JsonText.unique_orElse (Server.unique_get h "id") trivial
    have hname : JsonText.Unique (Json.getD (dictOf (functionOf call)) "name" (.str "")) :=
      JsonText.unique_getD hfn "name" trivial
    simp [headContent, callItem, toolBlock, JsonText.Unique, JsonText.UniqueFields, hid, hname]
  · simp only [callItem] at hd
    split_ifs at hd
    · rw [List.mem_singleton.1 hd]
      simp [partDelta, inputJsonDelta, JsonText.Unique, JsonText.UniqueFields,
        Server.unique_get hfn "arguments"]
    · cases hd

omit [PyFloat K] in
lemma unique_item {xs : List (Json K)} (h : JsonText.Unique (.list xs)) {x : Json K} (hx : x ∈ xs) :
    JsonText.Unique x :=
  (JsonText.uniqueItems_iff xs).1 h x hx

lemma unique_callsOf {delta : Dict K} (h : JsonText.Unique (.dict delta)) {call : Json K}
    (hcall : call ∈ callsOf delta) : JsonText.Unique call := by
  have hv : JsonText.Unique ((Json.get delta "tool_calls").orElse (.list [])) :=
    JsonText.unique_orElse (Server.unique_get h "tool_calls") trivial
  rw [callsOf] at hcall
  cases hcalls : (Json.get delta "tool_calls").orElse (.list []) with
  | list xs =>
      rw [hcalls] at hv hcall
      exact unique_item hv hcall
  | dict d =>
      rw [hcalls] at hcall
      obtain ⟨e, -, rfl⟩ := List.mem_map.1 (show call ∈ d.map (fun e => .str e.1) from hcall)
      trivial
  | str s =>
      rw [hcalls] at hcall
      obtain ⟨c, -, rfl⟩ := List.mem_map.1
        (show call ∈ s.toList.map (fun c => .str (String.singleton c)) from hcall)
      trivial
  | _ =>
      rw [hcalls] at hcall
      cases hcall

omit [PyFloat K] in
lemma unique_choiceOf {d choice : Dict K} (h : JsonText.Unique (.dict d))
    (hc : choiceOf d = some choice) : JsonText.Unique (.dict choice) := by
  have hv := Server.unique_get h "choices"
  rw [choiceOf] at hc
  cases hchoices : Json.get d "choices" with
  | list xs =>
      rw [hchoices] at hv hc
      cases xs with
      | nil => cases hc
      | cons x xs =>
          cases x with
          | dict c =>
              obtain rfl := Option.some.inj hc
              exact unique_item hv List.mem_cons_self
          | _ => cases hc
  | _ =>
      rw [hchoices] at hc
      cases hc

/-- The items of documents that the module has read; no key is twice in those. -/
lemma readable_items (ids : Ids) {docs : List (Dict K)} (h : ∀ d ∈ docs, JsonText.Unique (.dict d))
    {a : Item K} (ha : a ∈ items ids docs) : Readable a := by
  obtain ⟨d, hd, ha⟩ := List.mem_flatMap.1 ha
  rw [itemsOf] at ha
  cases hchoice : choiceOf d with
  | none =>
      rw [hchoice] at ha
      cases ha
  | some choice =>
      rw [hchoice] at ha
      have hdelta : JsonText.Unique (.dict (dictOf (deltaOf choice))) :=
        unique_dictOf (JsonText.unique_orElse
          (JsonText.unique_getD (unique_choiceOf (h d hd) hchoice) "delta" unique_empty)
            unique_empty)
      rcases List.mem_append.1 ha with ha | ha
      · rw [textItems] at ha
        split at ha
        · split_ifs at ha
          · rw [List.mem_singleton.1 ha]
            exact readable_textItem _
          · cases ha
        · cases ha
      · obtain ⟨call, hcall, rfl⟩ := List.mem_map.1 ha
        exact readable_callItem ids (unique_dictOf (unique_callsOf hdelta hcall))

omit [PyFloat K] in
lemma sendable_script {ids : Ids} {model : String} {done : List (Item K)}
    (h : ∀ a ∈ done, Readable a) {e : Sse K} (he : e ∈ script ids model done) : Sendable e := by
  rcases List.mem_cons.1 he with rfl | he
  · refine ⟨by simp [startEvent], ?_⟩
    simp [startEvent, messageStart, JsonText.Unique, JsonText.UniqueFields, JsonText.UniqueItems]
  · obtain ⟨ev, hev, rfl⟩ := List.mem_map.1 he
    obtain ⟨a, ha, i, rfl | ⟨d, hd, rfl⟩⟩ := Blocks.mem_sent hev
    · refine ⟨by simp [sseOf], ?_⟩
      simp [sseOf, blockStart, JsonText.Unique, JsonText.UniqueFields, (h a ha).1 i]
    · refine ⟨by simp [sseOf], ?_⟩
      have hpart : JsonText.Unique (.dict (partDelta d)) := (h a ha).2 d hd
      rw [JsonText.unique_dict_iff]
      refine ⟨by simp [sseOf, blockDelta], fun e he => ?_⟩
      simp only [sseOf, blockDelta, List.mem_cons, List.not_mem_nil, or_false] at he
      rcases he with rfl | rfl | rfl
      · trivial
      · trivial
      · exact hpart

omit [PyFloat K] in
lemma sendable_stopped {ids : Ids} {model : String} {done : List (Item K)}
    (h : ∀ a ∈ done, Readable a) {e : Sse K} (he : e ∈ stopped ids model done) : Sendable e := by
  rcases List.mem_append.1 he with he | he
  · exact sendable_script h he
  · obtain ⟨i, -, rfl⟩ := List.mem_map.1 he
    refine ⟨by simp [sseOf], ?_⟩
    simp [sseOf, blockStop, JsonText.Unique, JsonText.UniqueFields]

lemma unique_lastUsage {docs : List (Dict K)} (h : ∀ d ∈ docs, JsonText.Unique (.dict d)) :
    JsonText.Unique (Json.getD (outUsage (lastUsage docs)) "output_tokens" (.int 0)) := by
  induction docs using List.reverseRecOn with
  | nil => trivial
  | append_singleton docs d ih =>
      have hdocs := ih (fun d' hd' => h d' (by simp [hd']))
      rw [lastUsage_concat]
      split_ifs with hu
      · have hd : JsonText.Unique (.dict (dictOf (Json.get d "usage"))) :=
          unique_dictOf (Server.unique_get (h d (by simp)) "usage")
        rw [usageOf]
        rcases dictOrEmpty_or (Json.get (dictOf (Json.get d "usage")) "prompt_tokens_details") with
          hdict | herror
        · rw [dictOrEmpty_of_isDict hdict]
          exact JsonText.unique_getD hd "completion_tokens" trivial
        · rw [herror]
          trivial
      · exact hdocs

lemma sendable_finished {ids : Ids} {model : String} {docs : List (Dict K)}
    (h : ∀ d ∈ docs, JsonText.Unique (.dict d)) {e : Sse K}
    (he : e ∈ (finished ids model docs).sent) : Sendable e := by
  rcases List.mem_append.1 he with he | he
  · exact sendable_stopped (fun a ha => readable_items ids h ha) he
  · rcases List.mem_cons.1 he with rfl | he
    · refine ⟨by simp, ?_⟩
      simp [messageDelta, JsonText.Unique, JsonText.UniqueFields, unique_lastUsage h]
    · rw [List.mem_singleton.1 he]
      exact ⟨by simp, by simp [messageStop, JsonText.Unique, JsonText.UniqueFields]⟩

omit [PyFloat K] in
/-- The module reads documents in which no key stands twice. -/
lemma unique_streamDocs (ft : JsonText.FloatText K) (text : Text) {d : Dict K}
    (hd : d ∈ streamDocs (pythonJson ft) text) : JsonText.Unique (.dict d) := by
  obtain ⟨v, hv, rfl⟩ := List.mem_map.1 hd
  obtain ⟨record, -, hv⟩ := List.mem_flatMap.1 hv
  obtain ⟨l, hl, hvalue⟩ := List.mem_filterMap.1 hv
  obtain ⟨p, -, rfl⟩ := List.mem_map.1 hl
  refine unique_dictOf ?_
  cases hloads : (pythonJson ft).loads p with
  | value w =>
      rw [hloads] at hvalue
      obtain rfl := Option.some.inj hvalue
      exact Server.unique_of_loads ft _ hloads
  | invalid =>
      rw [hloads] at hvalue
      cases hvalue
  | raises f =>
      rw [hloads] at hvalue
      cases hvalue

end Readable

/-! ## Documents that a backend writes -/

section Backend

variable (ft : JsonText.FloatText K)

/-- The stream of some documents, with a record for each. -/
def writtenStream (docs : List (Dict K)) : Text :=
  docs.flatMap (fun d => Server.written ft d ++ Server.blankLine)

omit [PyFloat K] in
lemma pieces_writtenStream (docs : List (Dict K)) :
    Splitting.pieces Server.blankLine (writtenStream ft docs) =
      (docs.map (Server.written ft), []) := by
  induction docs with
  | nil => rfl
  | cons d docs ih =>
      have hfind : Splitting.findSep Server.blankLine
          (Server.written ft d ++ (Server.blankLine ++ writtenStream ft docs)) =
            some (Server.written ft d, writtenStream ft docs) := by
        rw [Server.blankLine,
          Splitting.findSep_append_of_notMem (Server.newline_not_mem_written ft d),
          Splitting.findSep_self (List.cons_ne_nil _ _), Option.map_some, List.append_nil]
      have hcons : writtenStream ft (d :: docs) =
          Server.written ft d ++ (Server.blankLine ++ writtenStream ft docs) := by
        simp [writtenStream]
      rw [hcons, Splitting.pieces_of_some Server.blankLine_ne_nil hfind, ih]
      rfl

omit [PyFloat K] in
/-- The documents of such a stream are those that were written. -/
lemma streamValues_written {docs : List (Dict K)} (h : ∀ d ∈ docs, JsonText.Unique (.dict d)) :
    streamValues (pythonJson ft) (writtenStream ft docs) = docs.map .dict := by
  rw [streamValues, pieces_writtenStream]
  dsimp only
  rw [List.flatMap_map]
  induction docs with
  | nil => rfl
  | cons d docs ih =>
      rw [List.flatMap_cons, ih (fun d' hd' => h d' (List.mem_cons_of_mem d hd')), valuesOf,
        Server.loadedData_pythonJson ft (h d List.mem_cons_self)]
      rfl

omit [PyFloat K] in
lemma text_written (docs : List (Dict K)) :
    ([Utf8.encode (writtenStream ft docs)].map Utf8.decode).flatten = writtenStream ft docs := by
  simp [Utf8.decode_encode]

omit [PyFloat K] in
lemma loads_ne_raises (p : Text) (f : Fault) : (pythonJson ft).loads p ≠ .raises f := by
  intro h
  cases (Server.loads_raises_iff ft _ p f).1 h

/-- A backend that writes documents of the form is regular. -/
lemma regular_written {docs : List (Dict K)} (h : ∀ d ∈ docs, JsonText.Unique (.dict d))
    (hshaped : ∀ d ∈ docs, Shaped d) :
    Regular (pythonJson ft) [Utf8.encode (writtenStream ft docs)] none where
  reads record _ f hf := by
    obtain ⟨p, -, hp⟩ := List.mem_map.1 hf
    exact loads_ne_raises ft p f hp
  shaped v hv := by
    rw [text_written, streamValues_written ft h] at hv
    obtain ⟨d, hd, rfl⟩ := List.mem_map.1 hv
    exact ⟨d, rfl, hshaped d hd⟩
  source := rfl

end Backend

/-! ## A small stream -/

/-- A text and a tool call, in two documents. -/
def helloDocs : List (Dict ℚ) :=
  [[("choices", .list [.dict [("delta", .dict [("content", .str "Hi")])]])],
    [("choices", .list [.dict [("delta", .dict [("tool_calls", .list [.dict [("index", .int 0),
      ("id", .str "c1"), ("function", .dict [("name", .str "f"), ("arguments", .str "[]")])]])]),
      ("finish_reason", .str "tool_calls")]])]]

lemma unique_helloDocs : ∀ d ∈ helloDocs, JsonText.Unique (.dict d) := by
  simp [helloDocs, JsonText.Unique, JsonText.UniqueFields, JsonText.UniqueItems]

lemma indexed_helloDocs : ∀ d ∈ helloDocs, Indexed d := by
  intro d hd choice hchoice call hcall
  rcases List.mem_cons.1 hd with rfl | hd
  · obtain rfl := Option.some.inj hchoice
    cases hcall
  · obtain rfl := List.mem_singleton.1 hd
    obtain rfl := Option.some.inj hchoice
    rcases List.mem_cons.1 hcall with heq | hcall
    · cases heq
      exact ⟨0, rfl⟩
    · cases hcall

lemma shaped_helloDocs : ∀ d ∈ helloDocs, Shaped d := by
  intro d hd
  rcases List.mem_cons.1 hd with rfl | hd
  · refine ⟨fun h => (by cases h), fun _ => ⟨_, rfl, ⟨_, rfl⟩, ⟨_, rfl⟩, fun call hcall => ?_, rfl⟩⟩
    cases hcall
  · obtain rfl := List.mem_singleton.1 hd
    refine ⟨fun h => (by cases h), fun _ => ⟨_, rfl, ⟨_, rfl⟩, ⟨_, rfl⟩, fun call hcall => ?_, rfl⟩⟩
    rcases List.mem_cons.1 hcall with rfl | hcall
    · exact ⟨_, rfl, _, rfl⟩
    · cases hcall

def helloChunks : List Bytes :=
  [Utf8.encode (writtenStream JsonText.FloatText.fractions helloDocs)]

lemma whole_helloChunks : Utf8.Whole helloChunks :=
  Utf8.whole_map_encode [writtenStream JsonText.FloatText.fractions helloDocs]

/-- The same stream, cut inside its first record, with the beginning of a third one. -/
def cutHello : List Text :=
  [(writtenStream JsonText.FloatText.fractions helloDocs).take 9,
    (writtenStream JsonText.FloatText.fractions helloDocs).drop 9 ++ ['d']]

lemma cutHello_eq :
    cutHello.flatten = writtenStream JsonText.FloatText.fractions helloDocs ++ ['d'] := by
  rw [cutHello, List.flatten_cons, List.flatten_singleton, ← List.append_assoc,
    List.take_append_drop]

lemma indexed_helloChunks (d : Dict ℚ) (hd : .dict d ∈
    streamValues (pythonJson .fractions) (helloChunks.map Utf8.decode).flatten) : Indexed d := by
  rw [helloChunks, text_written, streamValues_written _ unique_helloDocs] at hd
  obtain ⟨d', hd', heq⟩ := List.mem_map.1 hd
  cases heq
  exact indexed_helloDocs d hd'

/-! ## The main results -/

omit [PyFloat K] in
lemma writes_pythonJson (ft : JsonText.FloatText K) : Writes (pythonJson ft) :=
  fun _ => ⟨_, rfl⟩

omit [PyFloat K] in
lemma exists_bytes (ft : JsonText.FloatText K) (es : List (Sse K)) :
    ∃ bs, es.mapM (sse (pythonJson ft)) = .ok bs := by
  induction es with
  | nil => exact ⟨[], rfl⟩
  | cons e es ih =>
      obtain ⟨bs, hbs⟩ := ih
      exact ⟨_, by rw [List.mapM_cons, sse_eq, hbs]; rfl⟩

/-- **The protocol is kept at every moment**: whatever the backend sends, and whether the generator
comes to its end, raises, or is left by its client in the middle, the client can follow what it has
been sent. -/
theorem client_follows {json : JsonModule K} (hjson : Writes json) (ids : Ids) (model : String)
    {chunks : List Bytes} {broken : Option Exn}
    (hpos : ∀ d, .dict d ∈ streamValues json (chunks.map Utf8.decode).flatten → Indexed d)
    {es : List (Sse K)}
    (hes : es <+:
      (left (streamOpenaiToAnthropic ids json model chunks broken State.initial)).sent) :
    (readMessage es).isSome := by
  have hdocs := indexed_docs hpos
  have hrun := stream_triple hjson ids model chunks broken hpos _ rfl
  refine readMessage_prefix ?_ hes
  cases hend : streamOpenaiToAnthropic ids json model chunks broken State.initial with
  | ok a s =>
      rw [hend] at hrun
      obtain rfl : s = _ := hrun
      rw [left, readMessage_finished hdocs]
      rfl
  | error e s =>
      rw [hend] at hrun
      obtain ⟨-, done, hdone, hsent | hsent⟩ := hrun
      · rw [left, hsent, readMessage_script hdocs hdone]
        rfl
      · rw [left, hsent, readMessage_stopped hdocs hdone]
        rfl

theorem client_follows_hello :
    (readMessage (left (streamOpenaiToAnthropic ⟨"m", fun _ => "t"⟩ (pythonJson .fractions) "gpt"
      helloChunks (some (.fault .transport)) State.initial)).sent).isSome :=
  client_follows (writes_pythonJson .fractions) _ "gpt" indexed_helloChunks (List.prefix_refl _)

/-- **No text gets out of its event**: whatever the backend sends and however the stream ends, the
bytes that have been yielded are read as the events that have been yielded. -/
theorem readSse_stream (ft : JsonText.FloatText K) (ids : Ids) (model : String)
    {chunks : List Bytes} (broken : Option Exn)
    (hpos : ∀ d, .dict d ∈ streamValues (pythonJson ft) (chunks.map Utf8.decode).flatten →
      Indexed d) :
    let sent := (left (streamOpenaiToAnthropic ids (pythonJson ft) model chunks broken
      State.initial)).sent
    ∃ bs, sent.mapM (sse (pythonJson ft)) = .ok bs ∧
      readSse (pythonJson ft) bs.flatten = some sent := by
  intro sent
  obtain ⟨bs, hbs⟩ := exists_bytes ft sent
  refine ⟨bs, hbs, readSse_sent ft (fun e he => ?_) hbs⟩
  have hunique := fun d => unique_streamDocs ft (chunks.map Utf8.decode).flatten (d := d)
  have hrun := stream_triple (writes_pythonJson ft) ids model chunks broken hpos _ rfl
  cases hend : streamOpenaiToAnthropic ids (pythonJson ft) model chunks broken State.initial with
  | ok a s =>
      rw [hend] at hrun
      obtain rfl : s = _ := hrun
      have hsent : sent = (finished ids model (streamDocs (pythonJson ft)
          (chunks.map Utf8.decode).flatten)).sent := congrArg (fun r => (left r).sent) hend
      rw [hsent] at he
      exact sendable_finished (fun d => hunique d) he
  | error e' s =>
      rw [hend] at hrun
      have hleft : sent = s.sent := congrArg (fun r => (left r).sent) hend
      obtain ⟨-, done, hdone, hsent | hsent⟩ := hrun
      · rw [hleft, hsent] at he
        exact sendable_script (fun a ha => readable_items ids (fun d => hunique d) (hdone ha)) he
      · rw [hleft, hsent] at he
        exact sendable_stopped (fun a ha => readable_items ids (fun d => hunique d) (hdone ha)) he

theorem readSse_stream_hello :
    let sent := (left (streamOpenaiToAnthropic ⟨"m", fun _ => "t"⟩ (pythonJson .fractions) "gpt"
      helloChunks (some (.fault .transport)) State.initial)).sent
    ∃ bs, sent.mapM (sse (pythonJson .fractions)) = .ok bs ∧
      readSse (pythonJson .fractions) bs.flatten = some sent :=
  readSse_stream .fractions _ "gpt" _ indexed_helloChunks

/-- **The translation keeps the meaning**: a client that reads the bytes of a regular stream has the
message that the documents in the backend's bytes add up to, and the caller has the last usage.  The
bytes may be cut into chunks wherever no character is cut; inside a character each part would be
decoded to U+FFFD. -/
theorem translated_message (ft : JsonText.FloatText K) (ids : Ids) (model : String)
    {chunks : List Bytes} (hwhole : Utf8.Whole chunks)
    (hregular : Regular (pythonJson ft) chunks none)
    (hpos : ∀ d, .dict d ∈ streamValues (pythonJson ft) (Utf8.decode chunks.flatten) →
      Indexed d) :
    ∃ s bs, streamOpenaiToAnthropic ids (pythonJson ft) model chunks none State.initial = .ok () s ∧
      s.sent.mapM (sse (pythonJson ft)) = .ok bs ∧
      (readSse (pythonJson ft) bs.flatten).bind readMessage =
        some (message ids model (streamDocs (pythonJson ft) (Utf8.decode chunks.flatten))) ∧
      s.outUsage = some (outUsage (lastUsage
        (streamDocs (pythonJson ft) (Utf8.decode chunks.flatten)))) := by
  have hwrites := writes_pythonJson ft
  -- The generator decodes chunk by chunk, which is the same where no character is cut.
  rw [← (Utf8.decode_flatten_iff chunks).2 hwhole] at hpos ⊢
  have hrun := stream_run hwrites ids model hregular hpos
  obtain ⟨bs, hbs⟩ := exists_bytes ft (finished ids model (streamDocs (pythonJson ft)
    (chunks.map Utf8.decode).flatten)).sent
  refine ⟨_, bs, hrun, hbs, ?_, rfl⟩
  rw [readSse_sent ft (fun e he => sendable_finished (fun d => unique_streamDocs ft _) he) hbs,
    Option.bind_some]
  exact readMessage_finished (indexed_docs hpos)

theorem translated_message_hello :
    ∃ s bs, streamOpenaiToAnthropic ⟨"m", fun _ => "t"⟩ (pythonJson .fractions) "gpt" helloChunks
        none State.initial = .ok () s ∧
      s.sent.mapM (sse (pythonJson .fractions)) = .ok bs ∧
      (readSse (pythonJson .fractions) bs.flatten).bind readMessage =
        some (message ⟨"m", fun _ => "t"⟩ "gpt" (streamDocs (pythonJson .fractions)
          (Utf8.decode helloChunks.flatten))) ∧
      s.outUsage = some (outUsage (lastUsage
        (streamDocs (pythonJson .fractions) (Utf8.decode helloChunks.flatten)))) :=
  translated_message .fractions _ "gpt" whole_helloChunks
    (regular_written _ unique_helloDocs shaped_helloDocs)
    ((Utf8.decode_flatten_iff _).2 whole_helloChunks ▸ indexed_helloChunks)

/-- **Chunks**: two streams of bytes with the same complete records are translated in the same way,
however they are cut between their characters and whatever follows the last blank line. -/
theorem stream_chunks (json : JsonModule K) (ids : Ids) (model : String)
    {chunks chunks' : List Bytes} (broken : Option Exn) (hwhole : Utf8.Whole chunks)
    (hwhole' : Utf8.Whole chunks')
    (hrecords : (Splitting.pieces Server.blankLine (Utf8.decode chunks.flatten)).1 =
      (Splitting.pieces Server.blankLine (Utf8.decode chunks'.flatten)).1) :
    streamOpenaiToAnthropic ids json model chunks broken =
      streamOpenaiToAnthropic ids json model chunks' broken := by
  have hsource : ∀ cs : List Bytes, forSource ids json cs broken =
      ((Splitting.pieces Server.blankLine (cs.map Utf8.decode).flatten).1.forM
        (onRecord ids json) >>= fun _ => forSource ids json [] broken) := by
    intro cs
    unfold forSource
    rw [foldlM_onChunk ids json cs rfl, List.nil_append, readRecords, bind_assoc]
    rfl
  rw [streamOpenaiToAnthropic, streamOpenaiToAnthropic, hsource chunks, hsource chunks',
    (Utf8.decode_flatten_iff chunks).2 hwhole, (Utf8.decode_flatten_iff chunks').2 hwhole',
    hrecords]

theorem stream_chunks_cut :
    streamOpenaiToAnthropic ⟨"m", fun _ => "t"⟩ (pythonJson JsonText.FloatText.fractions) "gpt"
        (cutHello.map Utf8.encode) none =
      streamOpenaiToAnthropic ⟨"m", fun _ => "t"⟩ (pythonJson JsonText.FloatText.fractions) "gpt"
        ([cutHello.flatten.dropLast].map Utf8.encode) none :=
  stream_chunks _ _ "gpt" none (Utf8.whole_map_encode _) (Utf8.whole_map_encode _) (by
    rw [← (Utf8.decode_flatten_iff _).2 (Utf8.whole_map_encode _),
      ← (Utf8.decode_flatten_iff _).2 (Utf8.whole_map_encode _), Utf8.map_decode_encode,
      Utf8.map_decode_encode, cutHello_eq, List.flatten_singleton, List.dropLast_concat,
      Splitting.pieces_append Server.blankLine_ne_nil, pieces_writtenStream]
    exact List.append_nil _)

end AnthropicAdapter
end TokenFoundry
