import TokenFoundry.Framework.Outcomes
import TokenFoundry.Properties.AnthropicProtocol
import TokenFoundry.Properties.Chunking
import TokenFoundry.Properties.StreamAccounting

/-!
# A translated stream keeps the protocol

`stream_openai_to_anthropic` is the sender of `Framework/Blocks.lean`: `tool_blocks` holds the
numbers of the keys, and what has been yielded is at every moment what that sender sends for the
items that have come (`reached`).  A document takes the generator to the state in which it has come,
or breaks it off between two items (`onData_triple`); records, chunks and the whole stream follow by
the rules of `Framework/Outcomes.lean`.
-/

set_option autoImplicit false

namespace TokenFoundry
namespace AnthropicAdapter

open CopilotClient (Text Bytes Fault Exn converted)
open Server (JsonModule)
open Outcomes (Triple ok_bind error_bind)

variable {K : Type} [PyFloat K]

/-! ## What the generator has done -/

/-- `tool_blocks`, for keys that are integers: each key has its place among the keys. -/
def table (ks : List ℤ) : List (Json K × ℕ) := ks.zipIdx.map (fun e => (.int e.1, e.2))

lemma findBlock_table (k : ℤ) (ks : List ℤ) :
    findBlock (table ks : List (Json K × ℕ)) (.int k) =
      if k ∈ ks then some (ks.idxOf k) else none := by
  have hkey : (fun e : Json K × ℕ => sameKey e.1 (.int k)) ∘
      (fun e : ℤ × ℕ => ((.int e.1 : Json K), e.2)) = fun e => decide (e.1 = k) := rfl
  rw [findBlock, table, List.find?_map, hkey, Blocks.find?_zipIdx]
  split_ifs <;> simp

lemma setBlock_table {k : ℤ} {ks : List ℤ} (h : k ∉ ks) :
    setBlock (table ks : List (Json K × ℕ)) (.int k) ks.length = table (ks ++ [k]) := by
  rw [setBlock, findBlock_table, if_neg h]
  simp [table, List.zipIdx_append]

/-- What has been yielded when the items have come: the beginning of the message, and the events of
their blocks. -/
def script (ids : Ids) (model : String) (done : List (Item K)) : List (Sse K) :=
  startEvent ids model :: (Blocks.sent done []).map sseOf

/-- The state when the items have come.  It depends on the items alone, and not on how they were cut
into deltas. -/
def reached (ids : Ids) (model : String) (done : List (Item K)) (finish : Json K)
    (usage : Option (Dict K)) : State K where
  textOpen := decide (-1 ∈ Blocks.keys done)
  toolBlocks := table (Blocks.keys done)
  nextBlockIndex := (Blocks.keys done).length
  finishReason := finish
  usage := usage
  sent := script ids model done
  outUsage := none

omit [PyFloat K] in
lemma script_concat (ids : Ids) (model : String) (done : List (Item K)) (a : Item K) :
    script ids model (done ++ [a]) =
      script ids model done ++ (Blocks.announce (Blocks.keys done) a).map sseOf := by
  rw [script, Blocks.sent_concat, List.map_append]
  rfl

/-- The module writes everything, so that no event fails for its document. -/
def Writes (json : JsonModule K) : Prop := ∀ v, ∃ t, json.dumps false v = .ok t

variable {json : JsonModule K} {ids : Ids} {model : String}

omit [PyFloat K] in
lemma yieldSse_run (hjson : Writes json) (event : String) (data : Dict K) (s : State K) :
    yieldSse json event data s = .ok () { s with sent := s.sent ++ [⟨event, data⟩] } := by
  obtain ⟨t, ht⟩ := hjson (.dict data)
  simp only [yieldSse, sse, ht]
  rfl

omit [PyFloat K] in
lemma get_bind {α : Type} (k : State K → Gen K α) (s : State K) :
    ((get : Gen K (State K)) >>= k) s = k s s := rfl

omit [PyFloat K] in
lemma set_bind {α : Type} (s' : State K) (k : PUnit → Gen K α) (s : State K) :
    ((set s' : Gen K PUnit) >>= k) s = k ⟨⟩ s' := rfl

omit [PyFloat K] in
lemma yieldSse_bind {α : Type} (hjson : Writes json) (event : String) (data : Dict K)
    (k : Unit → Gen K α) (s : State K) : (yieldSse json event data >>= k) s =
      k () { s with sent := s.sent ++ [⟨event, data⟩] } := by
  change EStateM.bind (yieldSse json event data) k s = _
  rw [EStateM.bind, yieldSse_run hjson]

omit [PyFloat K] in
lemma reached_known {a : Item K} {done : List (Item K)} (h : a.key ∈ Blocks.keys done)
    (finish : Json K) (usage : Option (Dict K)) : reached ids model (done ++ [a]) finish usage =
      { reached ids model done finish usage with
        sent := script ids model done ++
          a.parts.map (fun d => sseOf (.part ((Blocks.keys done).idxOf a.key) d)) } := by
  rw [reached, Blocks.keys_concat, if_pos h, script_concat, Blocks.announce, if_pos h, List.map_map]
  rfl

lemma reached_new {a : Item K} {done : List (Item K)} (h : a.key ∉ Blocks.keys done)
    (finish : Json K) (usage : Option (Dict K)) : reached ids model (done ++ [a]) finish usage =
      { reached ids model done finish usage with
        textOpen := decide (-1 ∈ Blocks.keys done) || decide (a.key = -1)
        toolBlocks := setBlock (table (Blocks.keys done)) (.int a.key) (Blocks.keys done).length
        nextBlockIndex := (Blocks.keys done).length + 1
        sent := script ids model done ++
          sseOf (.start (Blocks.keys done).length (a.head (Blocks.keys done).length)) ::
            a.parts.map (fun d => sseOf (.part (Blocks.keys done).length d)) } := by
  rw [reached, Blocks.keys_concat, if_neg h, script_concat, Blocks.announce, if_neg h,
    setBlock_table h, List.map_cons, List.map_map]
  simp only [reached, List.mem_append, List.mem_singleton, List.length_append,
    List.length_singleton, Bool.decide_or, eq_comm]
  rfl

/-- A text delta is an item, for the block with the key of the text. -/
lemma onText_run (hjson : Writes json) (piece : String) (done : List (Item K)) (finish : Json K)
    (usage : Option (Dict K)) : onText json piece (reached ids model done finish usage) =
      .ok () (reached ids model (done ++ [textItem piece]) finish usage) := by
  have hfind := findBlock_table (K := K) (-1) (Blocks.keys done)
  by_cases hmem : -1 ∈ Blocks.keys done
  · rw [if_pos hmem] at hfind
    rw [reached_known (a := textItem piece) hmem]
    simp only [onText, get_bind, textKey, reached, hmem, decide_true, Bool.not_true,
      Bool.false_eq_true, if_false, hfind, yieldSse_run hjson]
    rfl
  · have hnew := setBlock_table (K := K) hmem
    have hfound := findBlock_table (K := K) (-1) (Blocks.keys done ++ [-1])
    rw [if_pos (by simp), List.idxOf_append_of_notMem hmem, List.idxOf_cons_self,
      Nat.add_zero] at hfound
    have hnext : (if (Blocks.keys done).length = 0 then 1 else (Blocks.keys done).length + 1) =
        (Blocks.keys done).length + 1 := by
      split_ifs <;> omega
    rw [reached_new (a := textItem piece) hmem]
    simp only [onText, get_bind, textKey, reached, hmem, decide_false, Bool.not_false, if_true,
      set_bind, yieldSse_run hjson, yieldSse_bind hjson, hnew, hfound, hnext, textItem]
    simp only [List.append_assoc]
    rfl

omit [PyFloat K] in
lemma orRaise_bind {α β : Type} {x : Except Exn α} {a : α} (h : x = .ok a) (k : α → Gen K β)
    (s : State K) : (orRaise x >>= k) s = k a s := by
  rw [h]
  rfl

omit [PyFloat K] in
lemma orRaise_error {α β : Type} {x : Except Exn α} {e : Exn} (h : x = .error e) (k : α → Gen K β)
    (s : State K) : (orRaise x >>= k) s = .error e s := by
  rw [h]
  rfl

lemma openTool_known {tc : Dict K} {fn : Json K} {k : ℤ}
    (hk : Json.getD tc "index" (.int 0) = .int k) {done : List (Item K)}
    (hmem : k ∈ Blocks.keys done) (finish : Json K)
    (usage : Option (Dict K)) : openTool ids json tc fn (reached ids model done finish usage) =
      .ok ((Blocks.keys done).idxOf k) (reached ids model done finish usage) := by
  have hfind := findBlock_table (K := K) k (Blocks.keys done)
  rw [if_pos hmem] at hfind
  simp only [openTool, get_bind, hk, Json.hashable, Bool.not_true, Bool.false_eq_true, if_false,
    reached, hfind]
  rfl

lemma openTool_new (hjson : Writes json) {tc fn : Dict K} {k : ℤ}
    (hk : Json.getD tc "index" (.int 0) = .int k) {done : List (Item K)}
    (hmem : k ∉ Blocks.keys done) (finish : Json K) (usage : Option (Dict K)) :
    openTool ids json tc (.dict fn) (reached ids model done finish usage) =
      .ok (Blocks.keys done).length { reached ids model done finish usage with
        toolBlocks := setBlock (table (Blocks.keys done)) (.int k) (Blocks.keys done).length
        nextBlockIndex := (Blocks.keys done).length + 1
        sent := script ids model done ++ [sseOf (.start (Blocks.keys done).length
          (.tool (toolId ids (Blocks.keys done).length tc)
            (Json.getD fn "name" (.str ""))))] } := by
  have hfind := findBlock_table (K := K) k (Blocks.keys done)
  rw [if_neg hmem] at hfind
  simp only [openTool, get_bind, hk, Json.hashable, Bool.not_true, Bool.false_eq_true, if_false,
    reached, hfind, set_bind, yieldSse_bind hjson,
    orRaise_bind (show converted (Json.dict fn).asDict = .ok fn from rfl)]
  rfl

/-- A tool call with a function is an item, for the block of its index. -/
lemma onToolCall_run (hjson : Writes json) {tc fn : Dict K} (hfn : functionOf tc = .dict fn)
    {n : ℕ} (hn : Json.getD tc "index" (.int 0) = .int n) (done : List (Item K)) (finish : Json K)
    (usage : Option (Dict K)) :
    onToolCall ids json (.dict tc) (reached ids model done finish usage) =
      .ok () (reached ids model (done ++ [callItem ids tc]) finish usage) := by
  have hkey : (callItem ids tc).key = n := by
    simp only [callItem, callIndex, hn]
  have htext : (callItem ids tc).key ≠ -1 := by omega
  have hparts : (callItem ids tc).parts = if (Json.get fn "arguments").truthy then
      [.json (Json.get fn "arguments")] else [] := by
    simp only [callItem, hfn, dictOf]
  have hhead : ∀ i, (callItem ids tc).head i =
      .tool (toolId ids i tc) (Json.getD fn "name" (.str "")) := by
    intro i
    simp only [callItem, hfn, dictOf]
  have hargs : ∀ (block : ℕ) (s : State K), sendArguments json (.dict fn) block s =
      .ok () { s with sent := s.sent ++ (callItem ids tc).parts.map (sseOf <| .part block ·) } := by
    intro block s
    rw [sendArguments, orRaise_bind (show converted (Json.dict fn).asDict = .ok fn from rfl),
      hparts]
    split_ifs
    · rw [yieldSse_run hjson]
      rfl
    · simp only [List.map_nil, List.append_nil]
      rfl
  rw [onToolCall, orRaise_bind (show converted (Json.dict tc).asDict = .ok tc from rfl), hfn]
  by_cases hmem : (callItem ids tc).key ∈ Blocks.keys done
  · rw [reached_known hmem, hkey, ok_bind (openTool_known hn (hkey ▸ hmem) finish usage), hargs]
    rfl
  · have hneg : ¬ (n : ℤ) = -1 := by omega
    rw [reached_new hmem, hhead, hkey, ok_bind (openTool_new hjson hn (hkey ▸ hmem) finish usage),
      hargs]
    simp only [hneg, decide_false, Bool.or_false, List.append_assoc]
    rfl

/-! ## What the generator may leave -/

/-- The numbers of the blocks in the order in which they are stopped: the text, then the tool
calls. -/
def closing (ks : List ℤ) : List ℕ :=
  (if -1 ∈ ks then [ks.idxOf (-1)] else []) ++
    ((ks.zipIdx.filter (fun e => decide (0 ≤ e.1))).map Prod.snd).mergeSort
      (fun a b => decide (a ≤ b))

/-- What has been yielded when the blocks have been stopped. -/
def stopped (ids : Ids) (model : String) (done : List (Item K)) : List (Sse K) :=
  script ids model done ++ (closing (Blocks.keys done)).map (fun i => sseOf (.stop i))

/-- After an exception: the client has been sent some of the items, and maybe the ends of their
blocks; `bad` holds. -/
def Broken (ids : Ids) (model : String) (all : List (Item K)) (bad : Prop) (_ : Exn)
    (s : State K) : Prop :=
  bad ∧ ∃ done, done ⊆ all ∧
    (s.sent = script ids model done ∨ s.sent = stopped ids model done)

variable {all : List (Item K)} {bad : Prop}

omit [PyFloat K] in
lemma isDict_or (v : Json K) : IsDict v ∨ v.asDict = .error .attribute := by
  cases v with
  | dict d => exact .inl ⟨d, rfl⟩
  | _ => exact .inr rfl

lemma onToolCall_raises (ids : Ids) (model : String) {tc : Dict K}
    (hfn : ¬ IsDict (functionOf tc)) {n : ℕ} (hn : Json.getD tc "index" (.int 0) = .int n)
    (done : List (Item K)) (finish : Json K) (usage : Option (Dict K)) :
    ∃ e s, onToolCall ids json (.dict tc) (reached ids model done finish usage) = .error e s ∧
      s.sent = script ids model done := by
  have hfn' : converted (functionOf tc).asDict = .error (.fault (.failure .attribute)) := by
    rw [(isDict_or _).resolve_left hfn]
    rfl
  rw [onToolCall, orRaise_bind (show converted (Json.dict tc).asDict = .ok tc from rfl)]
  by_cases hmem : (n : ℤ) ∈ Blocks.keys done
  · refine ⟨.fault (.failure .attribute), reached ids model done finish usage, ?_, rfl⟩
    rw [ok_bind (openTool_known hn hmem finish usage), sendArguments, orRaise_error hfn']
  · refine ⟨.fault (.failure .attribute), { reached ids model done finish usage with
      toolBlocks := setBlock (table (Blocks.keys done)) (.int n) (Blocks.keys done).length
      nextBlockIndex := (Blocks.keys done).length + 1 }, error_bind ?_, rfl⟩
    have hfind := findBlock_table (K := K) n (Blocks.keys done)
    rw [if_neg hmem] at hfind
    simp only [openTool, get_bind, hn, Json.hashable, Bool.not_true, Bool.false_eq_true, if_false,
      reached, hfind, set_bind, orRaise_error hfn']

/-- A tool call is an item, or it breaks the stream off. -/
lemma onToolCall_triple (hjson : Writes json) {call : Json K}
    (hpos : ∀ tc, call = .dict tc → Positioned tc) (hbad : ¬ ShapedCall call → bad)
    {done : List (Item K)} (hdone : done ⊆ all) (finish : Json K) (usage : Option (Dict K)) :
    Triple (· = reached ids model done finish usage) (onToolCall ids json call)
      (fun _ s => s = reached ids model (done ++ [callItem ids (dictOf call)]) finish usage)
      (Broken ids model all bad) := by
  rintro s rfl
  by_cases hcall : IsDict call
  · obtain ⟨tc, rfl⟩ := hcall
    obtain ⟨n, hn⟩ := hpos tc rfl
    by_cases hfn : IsDict (functionOf tc)
    · obtain ⟨fn, hfn⟩ := hfn
      rw [onToolCall_run hjson hfn hn]
      rfl
    · obtain ⟨e, s, hrun, hsent⟩ := onToolCall_raises ids model hfn hn done finish usage
      rw [hrun]
      refine ⟨hbad ?_, done, hdone, .inl hsent⟩
      rintro ⟨tc', heq, hdict⟩
      cases heq
      exact hfn hdict
  · have herror : converted call.asDict = .error (.fault (.failure .attribute)) := by
      rw [(isDict_or _).resolve_left hcall]
      rfl
    rw [onToolCall, orRaise_error herror]
    refine ⟨hbad ?_, done, hdone, .inl rfl⟩
    rintro ⟨tc, rfl, -⟩
    exact hcall ⟨tc, rfl⟩

/-- The items of a delta: the text, and the tool calls up to the first that is not of the documented
form. -/
lemma onDelta_triple (hjson : Writes json) {delta : Dict K}
    (hpos : ∀ tc, .dict tc ∈ callsOf delta → Positioned tc)
    (hcalls : (iterate ((Json.get delta "tool_calls").orElse (.list []))).isOk = false → bad)
    (hbad : ∀ call ∈ callsOf delta, ¬ ShapedCall call → bad) {done : List (Item K)}
    (hall : done ++ deltaItems ids delta ⊆ all) (finish : Json K) (usage : Option (Dict K)) :
    Triple (· = reached ids model done finish usage) (onDelta ids json delta)
      (fun _ s => s = reached ids model (done ++ deltaItems ids delta) finish usage)
      (Broken ids model all bad) := by
  -- The text of the delta is sent before its tool calls are looked at.
  have htext : onContent json (Json.get delta "content") (reached ids model done finish usage) =
      .ok () (reached ids model (done ++ textItems delta) finish usage) := by
    unfold onContent textItems
    cases Json.get delta "content" with
    | str piece =>
        by_cases hpiece : piece ≠ ""
        · simp only [if_pos hpiece]
          exact onText_run hjson piece done finish usage
        · simp only [if_neg hpiece, List.append_nil]
          rfl
    | _ =>
        simp only [List.append_nil]
        rfl
  rintro s rfl
  rw [onDelta, ok_bind htext]
  have hdone : done ++ textItems delta ⊆ all := fun a ha => hall (by
    rw [deltaItems, ← List.append_assoc]
    exact List.mem_append_left _ ha)
  -- Where `tool_calls` cannot be iterated the generator stops after the text.
  cases hiter : iterate ((Json.get delta "tool_calls").orElse (.list [])) with
  | error e =>
      rw [orRaise_error rfl]
      exact ⟨hcalls (by rw [hiter]; rfl), done ++ textItems delta, hdone, .inl rfl⟩
  | ok calls =>
      have hof : callsOf delta = calls := by rw [callsOf, hiter]
      rw [orRaise_bind rfl]
      -- The invariant of the loop: the items of the calls that have been passed are sent.
      have hloop : Triple
          (fun s => s = reached ids model (done ++ textItems delta ++
            ([] : List (Json K)).map (fun call => callItem ids (dictOf call))) finish usage)
          (calls.forM (onToolCall ids json))
          (fun _ s => s = reached ids model (done ++ textItems delta ++
            calls.map (fun call => callItem ids (dictOf call))) finish usage)
          (Broken ids model all bad) := by
        refine Triple.forM (I := fun pre s => s = reached ids model (done ++ textItems delta ++
          pre.map (fun call => callItem ids (dictOf call))) finish usage) ?_
        intro pre call post hcut
        have hmem : call ∈ callsOf delta := by simp [hof, hcut]
        refine (onToolCall_triple hjson (fun tc htc => hpos tc (htc ▸ hmem)) (hbad call hmem)
          (fun a ha => hall ?_) finish usage).mono (fun _ => id) (fun _ s hs => ?_)
          (fun _ _ => id)
        · rw [deltaItems, hof, hcut, List.map_append]
          simp only [List.mem_append] at ha ⊢
          tauto
        · rw [hs, List.map_append, ← List.append_assoc]
          rfl
      rw [List.map_nil, List.append_nil] at hloop
      rw [deltaItems, hof, ← List.append_assoc]
      exact hloop _ rfl

/-- The state of the generator when the documents have come. -/
def arrived (ids : Ids) (model : String) (docs : List (Dict K)) : State K :=
  reached ids model (items ids docs) (finishOf docs) (lastUsage docs)

lemma items_concat (docs : List (Dict K)) (d : Dict K) :
    items ids (docs ++ [d]) = items ids docs ++ itemsOf ids d := by
  simp [items]

lemma finishOf_concat (docs : List (Dict K)) (d : Dict K) :
    finishOf (docs ++ [d]) = nextFinish (finishOf docs) d := by
  simp only [finishOf, List.foldl_append, List.foldl_cons, List.foldl_nil]

lemma lastUsage_concat (docs : List (Dict K)) (d : Dict K) : lastUsage (docs ++ [d]) =
    if (Json.get d "usage").truthy then (usageOf (dictOf (Json.get d "usage"))).toOption
    else lastUsage docs := by
  simp only [lastUsage, List.foldl_append, List.foldl_cons, List.foldl_nil]

lemma dictOrEmpty_of_isDict {v : Json K} (h : IsDict (v.orElse (.dict []))) :
    dictOrEmpty v = .ok (dictOf (v.orElse (.dict []))) := by
  obtain ⟨d, hd⟩ := h
  rw [dictOrEmpty, hd]
  rfl

lemma dictOrEmpty_or (v : Json K) :
    IsDict (v.orElse (.dict [])) ∨ dictOrEmpty v = .error (.fault (.failure .attribute)) := by
  refine (isDict_or (v.orElse (.dict []))).imp id (fun h => ?_)
  rw [dictOrEmpty, h]
  rfl

lemma onUsage_triple {u : Json K} (hbad : ¬ ShapedUsage u → bad) {done : List (Item K)}
    (hdone : done ⊆ all) (finish : Json K) (usage : Option (Dict K)) :
    Triple (· = reached ids model done finish usage) (onUsage u)
      (fun _ s => s = reached ids model done finish
        (if u.truthy then (usageOf (dictOf u)).toOption else usage))
      (Broken ids model all bad) := by
  rintro s rfl
  rw [onUsage]
  by_cases hu : u.truthy = true
  · rw [if_pos hu, if_pos hu]
    rcases isDict_or u with ⟨d, rfl⟩ | herror
    · rcases dictOrEmpty_or (Json.get d "prompt_tokens_details") with hdict | herror
      · have hok : (do usageOf (← converted (Json.dict d).asDict) : Except Exn (Dict K)) =
            usageOf d := rfl
        rw [hok]
        simp only [usageOf, dictOf, dictOrEmpty_of_isDict hdict]
        rfl
      · have hraise : (do usageOf (← converted (Json.dict d).asDict) : Except Exn (Dict K)) =
            .error (.fault (.failure .attribute)) := by
          change usageOf d = _
          rw [usageOf, herror]
          rfl
        rw [orRaise_error hraise]
        refine ⟨hbad (fun hshape => ?_), done, hdone, .inl rfl⟩
        obtain ⟨d', heq, hdict⟩ := hshape hu
        cases heq
        rw [dictOrEmpty_of_isDict hdict] at herror
        cases herror
    · have hraise : (do usageOf (← converted u.asDict) : Except Exn (Dict K)) =
          .error (.fault (.failure .attribute)) := by
        rw [herror]
        rfl
      rw [orRaise_error hraise]
      refine ⟨hbad (fun hshape => ?_), done, hdone, .inl rfl⟩
      obtain ⟨d', rfl, -⟩ := hshape hu
      cases herror
  · rw [if_neg hu, if_neg hu]
    rfl

/-- The choices of a document, and what the program takes for them. -/
lemma choices_or (data : Dict K) :
    ((Json.get data "choices").truthy = false ∧ choiceOf data = none) ∨
    (∃ choice, (Json.get data "choices").truthy = true ∧ choiceOf data = some choice ∧
      firstDict ((Json.get data "choices").orElse (.list [])) = .ok choice) ∨
    ∃ e, (Json.get data "choices").truthy = true ∧ choiceOf data = none ∧
      firstDict ((Json.get data "choices").orElse (.list [])) = .error e := by
  rw [choiceOf]
  generalize Json.get data "choices" = v
  by_cases hv : v.truthy = true
  · rw [Json.orElse_of_truthy hv]
    cases v with
    | list xs =>
        cases xs with
        | nil => cases hv
        | cons x xs =>
            cases x with
            | dict d => exact .inr (.inl ⟨d, hv, rfl, rfl⟩)
            | _ => exact .inr (.inr ⟨_, hv, rfl, rfl⟩)
    | null => cases hv
    | _ => exact .inr (.inr ⟨_, hv, rfl, rfl⟩)
  · refine .inl ⟨by simpa using hv, ?_⟩
    cases v with
    | list xs =>
        cases xs with
        | nil => rfl
        | cons x xs => exact absurd rfl hv
    | _ => rfl

lemma onFinish_run (f : Json K) (done : List (Item K)) (finish : Json K) (usage : Option (Dict K)) :
    onFinish f (reached ids model done finish usage) =
      .ok () (reached ids model done (f.orElse finish) usage) := by
  rw [onFinish, Json.orElse]
  split_ifs <;> rfl

lemma onChoices_triple (hjson : Writes json) {d : Dict K} {docs : List (Dict K)}
    (hpos : Indexed d)
    (hbad : ¬ ((Json.get d "choices").truthy = true →
      ∃ choice, choiceOf d = some choice ∧ ShapedChoice choice) → bad)
    (hall : items ids (docs ++ [d]) ⊆ all) :
    Triple (· = reached ids model (items ids docs) (finishOf docs) (lastUsage (docs ++ [d])))
      (onChoices ids json ((Json.get d "choices").orElse (.list [])))
      (fun _ s => s = arrived ids model (docs ++ [d])) (Broken ids model all bad) := by
  rintro s rfl
  have hdocs : items ids docs ⊆ all := fun a ha => hall (by
    rw [items_concat]
    exact List.mem_append_left _ ha)
  rw [arrived, finishOf_concat, nextFinish, items_concat, itemsOf]
  rcases choices_or d with ⟨hfalsy, hnone⟩ | ⟨choice, htruthy, hsome, hfirst⟩ |
    ⟨e, htruthy, hnone, hraise⟩
  · rw [hnone, onChoices, Json.orElse_of_falsy hfalsy, if_neg (by simp [Json.truthy])]
    simp only [List.append_nil]
    rfl
  · have hchoice : ¬ ShapedChoice choice → bad := fun h => hbad (fun hshape => by
      obtain ⟨choice', heq, hshaped⟩ := hshape htruthy
      rw [hsome] at heq
      exact h (Option.some.inj heq ▸ hshaped))
    rw [onChoices, Json.orElse_of_truthy htruthy, if_pos htruthy,
      orRaise_bind (Json.orElse_of_truthy htruthy (.list []) ▸ hfirst), hsome]
    dsimp only
    rcases dictOrEmpty_or (Json.getD choice "delta" (.dict [])) with hdelta | herror
    · rw [orRaise_bind (dictOrEmpty_of_isDict hdelta), ok_bind (onFinish_run _ _ _ _)]
      refine onDelta_triple hjson (fun tc htc => hpos choice hsome tc htc) (fun hcalls => ?_)
        (fun call hcall hshape => ?_) ?_ _ _ _ rfl
      · refine hchoice (fun hshaped => ?_)
        obtain ⟨calls, heq⟩ := hshaped.calls
        change (iterate ((Json.get (dictOf (deltaOf choice)) "tool_calls").orElse (.list []))).isOk
          = false at hcalls
        rw [heq] at hcalls
        cases hcalls
      · exact hchoice (fun hshaped => hshape (hshaped.call call hcall))
      · rw [items_concat, itemsOf, hsome] at hall
        exact hall
    · rw [orRaise_error herror]
      refine ⟨hchoice (fun hshaped => ?_), items ids docs, hdocs, .inl rfl⟩
      rw [dictOrEmpty_of_isDict hshaped.delta] at herror
      cases herror
  · rw [onChoices, Json.orElse_of_truthy htruthy, if_pos htruthy,
      orRaise_error (Json.orElse_of_truthy htruthy (.list []) ▸ hraise)]
    refine ⟨hbad (fun hshape => ?_), items ids docs, hdocs, .inl rfl⟩
    obtain ⟨choice, hchoice, -⟩ := hshape htruthy
    rw [hnone] at hchoice
    cases hchoice

/-- **A document**: the generator goes on to the state in which it has come, or it is broken off. -/
lemma onData_triple (hjson : Writes json) {data : Json K} {docs : List (Dict K)}
    (hpos : ∀ d, data = .dict d → Indexed d) (hbad : (∀ d, data = .dict d → ¬ Shaped d) → bad)
    (hall : items ids (docs ++ [dictOf data]) ⊆ all) :
    Triple (· = arrived ids model docs) (onData ids json data)
      (fun _ s => s = arrived ids model (docs ++ [dictOf data])) (Broken ids model all bad) := by
  rintro s rfl
  rcases isDict_or data with ⟨d, rfl⟩ | herror
  · have hbad : ¬ Shaped d → bad := fun h => hbad (fun d' heq => by cases heq; exact h)
    have hdocs : items ids docs ⊆ all := fun a ha => hall (by
      rw [items_concat]
      exact List.mem_append_left _ ha)
    rw [onData, orRaise_bind (show converted (Json.dict d).asDict = .ok d from rfl)]
    refine (Triple.bind (onUsage_triple (fun h => hbad (fun hd => h hd.usage)) hdocs (finishOf docs)
      (lastUsage docs)) (fun _ => ?_)) _ rfl
    rw [← lastUsage_concat]
    exact onChoices_triple hjson (hpos d rfl) (fun h => hbad (fun hd => h hd.choices)) hall
  · have hraise : converted data.asDict = .error (.fault (.failure .attribute)) := by
      rw [herror]
      rfl
    rw [onData, orRaise_error hraise]
    refine ⟨hbad ?_, items ids docs, fun a ha => hall ?_, .inl rfl⟩
    · rintro d rfl
      cases herror
    · rw [items_concat]
      exact List.mem_append_left _ ha

/-! ## The records of a stream -/

def loadedValue : Server.Loaded K → Option (Json K)
  | .value v => some v
  | _ => none

/-- The documents of a record, without what is no JSON. -/
def valuesOf (json : JsonModule K) (record : Text) : List (Json K) :=
  (Server.loadedData json record).filterMap loadedValue

/-- The documents of a stream; what follows the last blank line is not read. -/
def streamValues (json : JsonModule K) (text : Text) : List (Json K) :=
  (Splitting.pieces Server.blankLine text).1.flatMap (valuesOf json)

def streamDocs (json : JsonModule K) (text : Text) : List (Dict K) :=
  (streamValues json text).map dictOf

/-- The loop over the records of a text, and what is left of it. -/
def readRecords (ids : Ids) (json : JsonModule K) (text : Text) : Gen K Text := do
  (Splitting.pieces Server.blankLine text).1.forM (onRecord ids json)
  return (Splitting.pieces Server.blankLine text).2

lemma takeRecords_eq (ids : Ids) (json : JsonModule K) {n : ℕ} {buffer : Text}
    (hn : buffer.length ≤ n) : takeRecords ids json n buffer = readRecords ids json buffer := by
  induction n generalizing buffer with
  | zero =>
      obtain rfl : buffer = [] := List.length_eq_zero_iff.1 (by omega)
      rfl
  | succ n ih =>
      rw [takeRecords, readRecords]
      cases hfind : Splitting.findSep Server.blankLine buffer with
      | none =>
          rw [Splitting.pieces_of_none hfind]
          rfl
      | some r =>
          obtain ⟨record, rest⟩ := r
          have hlength := congrArg List.length (Splitting.findSep_eq hfind)
          simp only [List.length_append, Server.blankLine, List.length_cons,
            List.length_nil] at hlength
          rw [Splitting.pieces_of_some Server.blankLine_ne_nil hfind]
          dsimp only
          rw [ih (by omega), List.forM_eq_forM, List.forM_cons, bind_assoc]
          rfl

/-- **Chunks**: the loop over the chunks is the loop over the records of their text. -/
lemma foldlM_onChunk (ids : Ids) (json : JsonModule K) (chunks : List Bytes) {buffer : Text}
    (hbuffer : Splitting.findSep Server.blankLine buffer = none) :
    chunks.foldlM (onChunk ids json) buffer =
      readRecords ids json (buffer ++ (chunks.map Utf8.decode).flatten) := by
  induction chunks generalizing buffer with
  | nil =>
      rw [List.map_nil, List.flatten_nil, List.append_nil, readRecords,
        Splitting.pieces_of_none hbuffer]
      rfl
  | cons chunk chunks ih =>
      rw [List.foldlM_cons, onChunk, takeRecords_eq ids json le_rfl, List.map_cons,
        List.flatten_cons, ← List.append_assoc]
      simp only [readRecords, Splitting.pieces_append Server.blankLine_ne_nil
        (buffer ++ Utf8.decode chunk), List.forM_eq_forM, List.forM_append, bind_assoc, pure_bind,
        ih (Splitting.findSep_rest Server.blankLine_ne_nil (buffer ++ Utf8.decode chunk))]

omit [PyFloat K] in
/-- The documents of a record, unless the module fails on one. -/
lemma iterOpenaiSse_or (json : JsonModule K) (record : Text) :
    iterOpenaiSse json record = .ok (valuesOf json record) ∨
      ∃ f, .raises f ∈ Server.loadedData json record ∧ iterOpenaiSse json record = .error f := by
  rw [iterOpenaiSse, Server.forData_eq, valuesOf]
  generalize Server.loadedData json record = ls
  have hloop : ∀ out : List (Json K),
      ls.foldlM (Server.onLoaded (fun out data => .ok (out ++ [data]))) out =
          .ok (out ++ ls.filterMap loadedValue) ∨
        ∃ f, .raises f ∈ ls ∧
          ls.foldlM (Server.onLoaded (fun out data => .ok (out ++ [data]))) out = .error f := by
    induction ls with
    | nil => exact fun out => .inl (by simp [pure, Except.pure])
    | cons l ls ih =>
        intro out
        rw [List.foldlM_cons]
        cases l with
        | raises f => exact .inr ⟨f, List.mem_cons_self, rfl⟩
        | invalid =>
            refine (ih out).imp id (fun ⟨f, hf, herror⟩ => ⟨f, List.mem_cons_of_mem _ hf, herror⟩)
        | value v =>
            refine (ih (out ++ [v])).imp (fun h => ?_)
              (fun ⟨f, hf, herror⟩ => ⟨f, List.mem_cons_of_mem _ hf, herror⟩)
            rw [List.filterMap_cons]
            exact h.trans (by simp [loadedValue])
  exact hloop []

/-- The documents of a record are gone through one by one; the induction is on them. -/
lemma onRecord_triple (hjson : Writes json) {record : Text} {docs : List (Dict K)}
    (hraises : ∀ f, .raises f ∈ Server.loadedData json record → bad)
    (hpos : ∀ d, .dict d ∈ valuesOf json record → Indexed d)
    (hbad : ∀ v ∈ valuesOf json record, (∀ d, v = .dict d → ¬ Shaped d) → bad)
    (hall : items ids (docs ++ (valuesOf json record).map dictOf) ⊆ all) :
    Triple (· = arrived ids model docs) (onRecord ids json record)
      (fun _ s => s = arrived ids model (docs ++ (valuesOf json record).map dictOf))
      (Broken ids model all bad) := by
  rintro s rfl
  rcases iterOpenaiSse_or json record with hok | ⟨f, hf, herror⟩
  · have hok' : (iterOpenaiSse json record).mapError Exn.fault = .ok (valuesOf json record) := by
      rw [hok]
      rfl
    rw [onRecord, orRaise_bind hok']
    have hloop : Triple (fun s => s = arrived ids model (docs ++ ([] : List (Json K)).map dictOf))
        ((valuesOf json record).forM (onData ids json))
        (fun _ s => s = arrived ids model (docs ++ (valuesOf json record).map dictOf))
        (Broken ids model all bad) := by
      refine Triple.forM
        (I := fun pre s => s = arrived ids model (docs ++ pre.map dictOf)) ?_
      intro pre v post hcut
      have hmem : v ∈ valuesOf json record := by simp [hcut]
      refine (onData_triple hjson (fun d hd => hpos d (hd ▸ hmem)) (hbad v hmem)
        (fun a ha => hall ?_)).mono (fun _ => id) (fun _ s hs => ?_) (fun _ _ => id)
      · rw [hcut, List.map_append, List.map_cons]
        simp only [items, List.flatMap_append, List.flatMap_cons, List.mem_append] at ha ⊢
        tauto
      · rw [hs, List.map_append, ← List.append_assoc]
        rfl
    rw [List.map_nil, List.append_nil] at hloop
    exact hloop _ rfl
  · have herror' : (iterOpenaiSse json record).mapError Exn.fault = .error (.fault f) := by
      rw [herror]
      rfl
    rw [onRecord, orRaise_error herror']
    refine ⟨hraises f hf, items ids docs, fun a ha => hall ?_, .inl rfl⟩
    rw [items, List.flatMap_append]
    exact List.mem_append_left _ ha

/-! ## The end of a stream -/

omit [PyFloat K] in
lemma yieldAll_run (hjson : Writes json) (event : String) (f : ℕ → Dict K) (is : List ℕ)
    (s : State K) : is.forM (fun i => yieldSse json event (f i)) s =
      .ok () { s with sent := s.sent ++ is.map (fun i => ⟨event, f i⟩) } := by
  induction is generalizing s with
  | nil =>
      simp only [List.map_nil, List.append_nil]
      rfl
  | cons i is ih =>
      change (yieldSse json event (f i) >>= fun _ => is.forM _) s = _
      rw [yieldSse_bind hjson, ih]
      simp only [List.append_assoc, List.map_cons, List.singleton_append]

lemma toolIndexes_table (ks : List ℤ) : toolIndexes (table ks : List (Json K × ℕ)) =
    .ok (((ks.zipIdx.filter (fun e => decide (0 ≤ e.1))).map Prod.snd).mergeSort
      (fun a b => decide (a ≤ b))) := by
  have hkept : ∀ es : List (ℤ × ℕ),
      (es.map (fun e => ((.int e.1 : Json K), e.2))).mapM
        (fun e => do return (e.2, ← nonNegative e.1)) =
          (.ok (es.map (fun e => (e.2, decide (0 ≤ e.1)))) : Except Exn (List (ℕ × Bool))) := by
    intro es
    induction es with
    | nil => rfl
    | cons e es ih =>
        rw [List.map_cons, List.mapM_cons, ih]
        rfl
  have hfilter : ∀ es : List (ℤ × ℕ),
      ((es.map (fun e => (e.2, decide (0 ≤ e.1)))).filter Prod.snd).map Prod.fst =
        (es.filter (fun e => decide (0 ≤ e.1))).map Prod.snd := by
    intro es
    rw [List.filter_map, List.map_map]
    rfl
  rw [toolIndexes, table, hkept, ← hfilter]
  rfl

/-- The blocks that are open are stopped, in the order of their numbers. -/
lemma closeBlocks_run (hjson : Writes json) (done : List (Item K)) (finish : Json K)
    (usage : Option (Dict K)) : closeBlocks json (reached ids model done finish usage) =
      .ok () { reached ids model done finish usage with sent := stopped ids model done } := by
  have hfind := findBlock_table (K := K) (-1) (Blocks.keys done)
  by_cases hmem : -1 ∈ Blocks.keys done
  · rw [if_pos hmem] at hfind
    simp only [closeBlocks, get_bind, reached, hmem, decide_true, if_true, textKey, hfind,
      yieldSse_bind hjson, toolIndexes_table]
    rw [orRaise_bind rfl, yieldAll_run hjson]
    simp only [stopped, closing, if_pos hmem, List.append_assoc, List.map_append]
    rfl
  · simp only [closeBlocks, get_bind, reached, hmem, decide_false, Bool.false_eq_true, if_false,
      toolIndexes_table]
    rw [orRaise_bind rfl, yieldAll_run hjson]
    simp only [stopped, closing, if_neg hmem, List.nil_append]
    rfl

omit [PyFloat K] in
lemma stopReason_or (v : Json K) : stopReason v = .ok (stopText v) ∨
    v.hashable = false ∧ stopReason v = .error (.fault (.failure .type)) := by
  cases v with
  | list xs => exact .inr ⟨rfl, rfl⟩
  | dict d => exact .inr ⟨rfl, rfl⟩
  | _ => exact .inl rfl

/-- The state at the end: the blocks are stopped, the end of the message is sent, and the usage is
known. -/
def finished (ids : Ids) (model : String) (docs : List (Dict K)) : State K :=
  { arrived ids model docs with
    sent := stopped ids model (items ids docs) ++
      [⟨"message_delta", messageDelta (stopText (finishOf docs))
        (Json.getD (outUsage (lastUsage docs)) "output_tokens" (.int 0))⟩,
      ⟨"message_stop", messageStop⟩]
    outUsage := some (outUsage (lastUsage docs)) }

lemma endMessage_triple (hjson : Writes json) {docs : List (Dict K)}
    (hbad : (finishOf docs).hashable = false → bad) (hall : items ids docs ⊆ all) :
    Triple (· = { arrived ids model docs with sent := stopped ids model (items ids docs) })
      (endMessage json) (fun _ s => s = finished ids model docs) (Broken ids model all bad) := by
  rintro s rfl
  rcases stopReason_or (finishOf docs) with hok | ⟨hhash, herror⟩
  · simp only [endMessage, get_bind, arrived, reached, orRaise_bind hok, yieldSse_bind hjson,
      List.append_assoc]
    rfl
  · simp only [endMessage, get_bind, arrived, reached, orRaise_error herror]
    exact ⟨hbad hhash, items ids docs, hall, .inr rfl⟩

lemma hashable_finishOf {docs : List (Dict K)} (h : ∀ d ∈ docs, Shaped d) :
    (finishOf docs).hashable = true := by
  induction docs using List.reverseRecOn with
  | nil => rfl
  | append_singleton docs d ih =>
      have hdocs := ih (fun d' hd' => h d' (by simp [hd']))
      rw [finishOf_concat, nextFinish]
      rcases choices_or d with ⟨-, hnone⟩ | ⟨choice, htruthy, hsome, -⟩ | ⟨e, -, hnone, -⟩
      · rw [hnone]
        exact hdocs
      · rw [hsome]
        dsimp only
        rw [Json.orElse]
        split_ifs
        · obtain ⟨choice', heq, hchoice⟩ := (h d (by simp)).choices htruthy
          rw [hsome] at heq
          exact Option.some.inj heq ▸ hchoice.finish
        · exact hdocs
      · rw [hnone]
        exact hdocs

/-- What an upstream sends as OpenAI documents it: the module reads every document, and every
document has the form; the source does not fail. -/
structure Regular (json : JsonModule K) (chunks : List Bytes) (broken : Option Exn) : Prop where
  reads : ∀ record ∈ (Splitting.pieces Server.blankLine (chunks.map Utf8.decode).flatten).1,
    ∀ f, .raises f ∉ Server.loadedData json record
  shaped : ∀ v ∈ streamValues json (chunks.map Utf8.decode).flatten, ∃ d, v = .dict d ∧ Shaped d
  source : broken = none

lemma readRecords_triple (hjson : Writes json) {text : Text}
    (hraises : ∀ record ∈ (Splitting.pieces Server.blankLine text).1,
      ∀ f, .raises f ∈ Server.loadedData json record → bad)
    (hpos : ∀ d, .dict d ∈ streamValues json text → Indexed d)
    (hbad : ∀ v ∈ streamValues json text, (∀ d, v = .dict d → ¬ Shaped d) → bad)
    (hall : items ids (streamDocs json text) ⊆ all) :
    Triple (· = arrived ids model []) (readRecords ids json text)
      (fun _ s => s = arrived ids model (streamDocs json text)) (Broken ids model all bad) := by
  refine Triple.bind (R := fun _ s => s = arrived ids model (streamDocs json text)) ?_
    (fun _ => Triple.pure (fun _ => id))
  refine Triple.forM
    (I := fun pre s => s = arrived ids model ((pre.flatMap (valuesOf json)).map dictOf)) ?_
  intro pre record post hcut
  have hrecord : record ∈ (Splitting.pieces Server.blankLine text).1 := by simp [hcut]
  have hvalue : ∀ v ∈ valuesOf json record, v ∈ streamValues json text :=
    fun v hv => List.mem_flatMap.2 ⟨record, hrecord, hv⟩
  refine (onRecord_triple hjson (hraises record hrecord) (fun d hd => hpos d (hvalue _ hd))
    (fun v hv => hbad v (hvalue v hv)) (fun a ha => hall ?_)).mono (fun _ => id)
    (fun _ s hs => ?_) (fun _ _ => id)
  · rw [streamDocs, streamValues, hcut]
    simp only [List.flatMap_append, List.flatMap_cons, List.map_append, items,
      List.mem_append] at ha ⊢
    tauto
  · rw [hs, List.flatMap_append, List.flatMap_singleton, List.map_append]

/-- **A whole stream**: the generator comes to its end, with everything yielded that the documents
add up to; or it breaks off between two items, and then the upstream was not regular. -/
theorem stream_triple (hjson : Writes json) (ids : Ids) (model : String) (chunks : List Bytes)
    (broken : Option Exn)
    (hpos : ∀ d, .dict d ∈ streamValues json (chunks.map Utf8.decode).flatten → Indexed d) :
    Triple (· = State.initial) (streamOpenaiToAnthropic ids json model chunks broken)
      (fun _ s => s = finished ids model (streamDocs json (chunks.map Utf8.decode).flatten))
      (Broken ids model (items ids (streamDocs json (chunks.map Utf8.decode).flatten))
        (¬ Regular json chunks broken)) := by
  rintro s rfl
  have hfirst : yieldSse json "message_start" (messageStart ids model) State.initial =
      .ok () (arrived ids model []) := yieldSse_run hjson _ _ _
  have hshaped : Regular json chunks broken →
      ∀ d ∈ streamDocs json (chunks.map Utf8.decode).flatten, Shaped d := by
    intro hregular d hd
    obtain ⟨v, hv, rfl⟩ := List.mem_map.1 hd
    obtain ⟨d, rfl, hshape⟩ := hregular.shaped v hv
    exact hshape
  have hsource : Triple (· = arrived ids model []) (forSource ids json chunks broken)
      (fun _ s => s = arrived ids model (streamDocs json (chunks.map Utf8.decode).flatten))
      (Broken ids model (items ids (streamDocs json (chunks.map Utf8.decode).flatten))
        (¬ Regular json chunks broken)) := by
    unfold forSource
    rw [foldlM_onChunk ids json chunks rfl, List.nil_append]
    refine (readRecords_triple hjson (fun record hrecord f hf hregular =>
      hregular.reads record hrecord f hf) hpos (fun v hv hnot hregular => ?_)
      (fun _ => id)).bind (fun _ => ?_)
    · obtain ⟨d, rfl, hshape⟩ := hregular.shaped v hv
      exact hnot d rfl hshape
    · cases broken with
      | none => exact Triple.pure (fun _ => id)
      | some e =>
          refine Triple.throw (fun s hs => ⟨fun hregular => ?_, _, fun _ => id, .inl ?_⟩)
          · cases hregular.source
          · rw [hs]
            rfl
  rw [streamOpenaiToAnthropic, ok_bind hfirst]
  refine (hsource.bind (fun _ => ?_)) _ rfl
  refine Triple.bind (R := fun _ s => s =
    { arrived ids model (streamDocs json (chunks.map Utf8.decode).flatten) with
      sent := stopped ids model (items ids (streamDocs json (chunks.map Utf8.decode).flatten)) })
    ?_ (fun _ => endMessage_triple hjson (fun hhash hregular => ?_) (fun _ => id))
  · rintro s rfl
    rw [arrived, closeBlocks_run hjson]
    rfl
  · rw [hashable_finishOf (hshaped hregular)] at hhash
    cases hhash

/-! ## What the client has -/

lemma closing_perm {ks : List ℤ} (hnodup : ks.Nodup) (hks : ∀ k ∈ ks, k = -1 ∨ 0 ≤ k) :
    (closing ks).Perm (List.range ks.length) := by
  have htext := Blocks.filter_zipIdx (k := -1) hnodup 0
  have hneg : ks.zipIdx.filter (fun e => ! decide (0 ≤ e.1)) =
      ks.zipIdx.filter (fun e => decide (e.1 = -1)) := by
    refine List.filter_congr (fun e he => ?_)
    have hmem : e.1 ∈ ks := List.fst_mem_of_mem_zipIdx he
    rcases hks e.1 hmem with h | h
    · simp [h]
    · have hne : e.1 ≠ -1 := by omega
      simp [h, hne]
  have hstart : (if -1 ∈ ks then [ks.idxOf (-1)] else []) =
      (ks.zipIdx.filter (fun e => ! decide (0 ≤ e.1))).map Prod.snd := by
    rw [hneg, htext]
    simp
  rw [closing, hstart, ← Blocks.map_snd_zipIdx]
  refine ((List.mergeSort_perm _ _).append_left _).trans ?_
  rw [← List.map_append]
  exact (List.perm_append_comm.trans (List.filter_append_perm _ _)).map _

/-- The items of documents without negative indexes: they are texts, or calls with an index. -/
lemma mem_items {docs : List (Dict K)} (hpos : ∀ d ∈ docs, Indexed d) {a : Item K}
    (ha : a ∈ items ids docs) : (∃ t, a = textItem t) ∨
      ∃ call, a = callItem ids call ∧ 0 ≤ a.key := by
  obtain ⟨d, hd, ha⟩ := List.mem_flatMap.1 ha
  rw [itemsOf] at ha
  cases hchoice : choiceOf d with
  | none =>
      rw [hchoice] at ha
      cases ha
  | some choice =>
      rw [hchoice] at ha
      rcases List.mem_append.1 ha with ha | ha
      · left
        rw [textItems] at ha
        cases hcontent : Json.get (dictOf (deltaOf choice)) "content" with
        | str t =>
            rw [hcontent] at ha
            dsimp only at ha
            split_ifs at ha with ht
            · exact ⟨t, List.mem_singleton.1 ha⟩
            · cases ha
        | _ =>
            rw [hcontent] at ha
            cases ha
      · right
        obtain ⟨call, hcall, rfl⟩ := List.mem_map.1 ha
        refine ⟨dictOf call, rfl, ?_⟩
        cases call with
        | dict call =>
            obtain ⟨n, hn⟩ := hpos d hd choice hchoice call hcall
            simp only [callItem, dictOf, callIndex, hn]
            omega
        | _ => exact le_rfl

lemma fits_items {docs : List (Dict K)} (hpos : ∀ d ∈ docs, Indexed d) {done : List (Item K)}
    (hdone : done ⊆ items ids docs) : Blocks.Fits fits done := by
  intro a ha b hb hkey i d hd
  rcases mem_items hpos (hdone ha) with ⟨t, rfl⟩ | ⟨call, rfl, hcall⟩ <;>
    rcases mem_items hpos (hdone hb) with ⟨t', rfl⟩ | ⟨call', rfl, hcall'⟩
  · rw [List.mem_singleton.1 hd]
    rfl
  · rw [← hkey] at hcall'
    exact absurd hcall' (by simp [textItem])
  · rw [hkey] at hcall
    exact absurd hcall (by simp [textItem])
  · simp only [callItem] at hd
    split_ifs at hd
    · rw [List.mem_singleton.1 hd]
      rfl
    · cases hd

lemma closing_items {docs : List (Dict K)} (hpos : ∀ d ∈ docs, Indexed d) {done : List (Item K)}
    (hdone : done ⊆ items ids docs) :
    (closing (Blocks.keys done)).Perm (List.range (Blocks.keys done).length) := by
  refine closing_perm (Blocks.nodup_keys done) (fun k hk => ?_)
  obtain ⟨a, ha, rfl⟩ := Blocks.mem_keys.1 hk
  rcases mem_items hpos (hdone ha) with ⟨t, rfl⟩ | ⟨call, -, hcall⟩
  · exact .inl rfl
  · exact .inr hcall

/-- The client has the blocks of the items that have come. -/
lemma readMessage_script {docs : List (Dict K)} (hpos : ∀ d ∈ docs, Indexed d)
    {done : List (Item K)} (hdone : done ⊆ items ids docs) :
    readMessage (script ids model done) = some (started ids model (Blocks.blocks done)) := by
  rw [script, readMessage_blocks, Blocks.replay_sent (fits_items hpos hdone)]
  rfl

lemma readMessage_stopped {docs : List (Dict K)} (hpos : ∀ d ∈ docs, Indexed d)
    {done : List (Item K)} (hdone : done ⊆ items ids docs) :
    readMessage (stopped ids model done) =
      some (started ids model ((Blocks.blocks done).map Blocks.Block.close)) := by
  have hmap : stopped ids model done = startEvent ids model ::
      (Blocks.sent done [] ++ (closing (Blocks.keys done)).map Blocks.Event.stop).map sseOf := by
    rw [stopped, script, List.map_append, List.map_map]
    rfl
  rw [hmap, readMessage_blocks,
    Blocks.replay_sent_stops (fits_items hpos hdone) (closing_items hpos hdone)]
  rfl

lemma readMessage_finished {docs : List (Dict K)} (hpos : ∀ d ∈ docs, Indexed d) :
    readMessage (finished ids model docs).sent = some (message ids model docs) := by
  have hstopped : readMessage (stopped ids model (items ids docs)) = _ :=
    readMessage_stopped hpos (fun _ => id)
  have hclosed : (Blocks.grouped (items ids docs)).all (fun b => ! b.isOpen) = true := by
    rw [← Blocks.blocks_close, List.all_map, List.all_eq_true]
    exact fun b _ => rfl
  rw [Blocks.blocks_close] at hstopped
  rw [readMessage] at hstopped ⊢
  rw [finished, List.foldlM_append, hstopped, Option.bind_eq_bind, Option.bind_some,
    List.foldlM_cons, Message.receive, started]
  dsimp only
  rw [if_pos rfl, hclosed]
  rfl

/-- What a run of the generator leaves, whether it has come to its end or not. -/
def left {α : Type} : EStateM.Result Exn (State K) α → State K
  | .ok _ s => s
  | .error _ s => s

omit [PyFloat K] in
/-- What a client has been sent may be cut anywhere. -/
lemma readMessage_prefix {es es' : List (Sse K)} (h : (readMessage es').isSome)
    (hpre : es <+: es') :
    (readMessage es).isSome := by
  obtain ⟨rest, rfl⟩ := hpre
  rw [readMessage, List.foldlM_append] at h
  cases hes : readMessage es with
  | none =>
      rw [readMessage] at hes
      simp [hes] at h
  | some m => rfl

lemma indexed_docs {json : JsonModule K} {text : Text}
    (hpos : ∀ d, .dict d ∈ streamValues json text → Indexed d) :
    ∀ d ∈ streamDocs json text, Indexed d := by
  intro d hd
  obtain ⟨v, hv, rfl⟩ := List.mem_map.1 hd
  cases v with
  | dict d => exact hpos d hv
  | _ =>
      intro choice hchoice
      cases hchoice

/-- A regular stream comes to its end, in the state that its documents determine. -/
lemma stream_run (hjson : Writes json) (ids : Ids) (model : String) {chunks : List Bytes}
    {broken : Option Exn} (hregular : Regular json chunks broken)
    (hpos : ∀ d, .dict d ∈ streamValues json (chunks.map Utf8.decode).flatten → Indexed d) :
    streamOpenaiToAnthropic ids json model chunks broken State.initial =
        .ok () (finished ids model (streamDocs json (chunks.map Utf8.decode).flatten)) := by
  have hrun := stream_triple hjson ids model chunks broken hpos _ rfl
  cases hend : streamOpenaiToAnthropic ids json model chunks broken State.initial with
  | ok a s =>
      rw [hend] at hrun
      obtain rfl : s = _ := hrun
      rfl
  | error e s =>
      rw [hend] at hrun
      exact absurd hregular hrun.1

end AnthropicAdapter
end TokenFoundry
