import TokenFoundry.Framework.JsonText
import TokenFoundry.Properties.StreamAccounting
import Mathlib.Data.List.DropRight
import Mathlib.Data.List.Forall2

/-!
# Rewriting a stream keeps its accounting

`_standardize_openai_usage_line` makes three things of a line: the line itself, one line with the
object stamped, or two events, of which the second one carries the usage.  The two scanners look at
the documents in a text.  For each line it is shown that the documents of what it is rewritten to
lead every scanner from the same state to the same state (`foldlM_line`); the texts follow by
induction on the lines.

The rewriting catches `JSONDecodeError`, and that is not all that `json` raises: the interpreter has
limits on the digits of a number and on the depth of a document.  `rewriteLines_preserves` says that
the accounting is kept if and only if none of them is met.
-/

set_option autoImplicit false

namespace TokenFoundry
namespace Server

open CopilotClient (Text Fault)

variable {K : Type} [PyFloat K]

/-- What `json` raises beyond `JSONDecodeError`: for a text with too many digits, for a document
that is nested too deeply. -/
structure Limits (K : Type) where
  loads : Text → Option Fault
  dumps : Json K → Option Fault

/-- The `json` module of the interpreter: it raises where one of its limits is met, and reads and
writes as `JsonText` does otherwise. -/
def limitedJson (ft : JsonText.FloatText K) (lim : Limits K) : JsonModule K where
  loads t :=
    match lim.loads t with
    | some f => .raises f
    | none =>
        match JsonText.loads ft t with
        | some v => .value v
        | none => .invalid
  dumps compact v :=
    match lim.dumps v with
    | some f => .error f
    | none => .ok (JsonText.dumps ft ⟨compact, true⟩ v)

/-- The module on texts and documents within the limits, where it never raises. -/
def pythonJson (ft : JsonText.FloatText K) : JsonModule K :=
  limitedJson ft ⟨fun _ => none, fun _ => none⟩

omit [PyFloat K] in
lemma pythonJson_loads {ft : JsonText.FloatText K} {t : Text} {v : Json K}
    (h : JsonText.loads ft t = some v) : (pythonJson ft).loads t = .value v := by
  simp only [pythonJson, limitedJson, h]

/-- A stream, rewritten line by line; an exception in one line ends the rewriting. -/
def rewriteLines (json : JsonModule K) (text : Text) : Except Fault Text := do
  let out ← (lines text).mapM (standardizeOpenaiUsageLine json)
  return ['\n'].intercalate out

/-! ## Blanks around a payload -/

section Blanks

lemma strip_eq (t : Text) : strip t = (t.dropWhile isSpace).rdropWhile isSpace := rfl

/-- `rstrip` does not reach beyond a character that is no blank. -/
lemma rdropWhile_append_cons {α : Type} {p : α → Bool} {a : α} (h : p a = false) (xs ys : List α) :
    (xs ++ a :: ys).rdropWhile p = xs ++ a :: ys.rdropWhile p := by
  have hkeep : ∀ zs : List α, (zs ++ a :: xs.reverse).dropWhile p =
      zs.dropWhile p ++ a :: xs.reverse := by
    intro zs
    induction zs with
    | nil => simp [h]
    | cons z zs ih =>
        by_cases hz : p z = true
        · simpa [hz] using ih
        · simp [hz]
  simp only [List.rdropWhile, List.reverse_append, List.reverse_cons, List.append_assoc,
    List.singleton_append]
  rw [hkeep]
  simp

lemma dropWhile_append_cons {α : Type} {p : α → Bool} {a : α} (h : p a = false) (ys : List α) :
    ∀ xs : List α, (xs ++ a :: ys).dropWhile p = xs.dropWhile p ++ a :: ys
  | [] => by simp [h]
  | x :: xs => by
      by_cases hx : p x = true
      · simpa [hx] using dropWhile_append_cons h ys xs
      · simp [hx]

/-- Blanks may be taken off the end first, since `strip` takes them off both ends. -/
lemma strip_rdropWhile (t : Text) : strip (t.rdropWhile isSpace) = strip t := by
  rw [strip_eq, strip_eq]
  by_cases hall : ∀ c ∈ t, isSpace c = true
  · have hnil : t.rdropWhile isSpace = [] := List.rdropWhile_eq_nil_iff.2 hall
    have hnil' : t.dropWhile isSpace = [] := List.dropWhile_eq_nil_iff.2 hall
    rw [hnil, hnil']
    rfl
  · push Not at hall
    obtain ⟨c, hc, hspace⟩ := hall
    obtain ⟨u, v, rfl⟩ := List.append_of_mem hc
    have hspace : isSpace c = false := by simpa using hspace
    rw [rdropWhile_append_cons hspace, dropWhile_append_cons hspace, dropWhile_append_cons hspace,
      rdropWhile_append_cons hspace, rdropWhile_append_cons hspace, List.rdropWhile_idempotent]

/-- The scanners strip a line before they look at it. -/
lemma payload_strip {line : Text} (h : dataPrefix <+: line) :
    payload (strip line) = payload line := by
  obtain ⟨rest, rfl⟩ := h
  have hstrip : strip (dataPrefix ++ rest) = dataPrefix ++ rest.rdropWhile isSpace := by
    rw [strip_eq, dataPrefix, List.cons_append, List.dropWhile_cons_of_neg (by decide)]
    exact rdropWhile_append_cons (a := ':') (by decide) ['d', 'a', 't', 'a'] rest
  rw [hstrip, payload, payload, if_pos (List.prefix_append _ _), if_pos (List.prefix_append _ _)]
  simp only [List.drop_left, strip_rdropWhile]

/-- A text between two characters that are no blanks is left as it is, whatever blanks it has
inside. -/
lemma strip_between {c d : Char} (hc : isSpace c = false) (hd : isSpace d = false) (t : Text) :
    strip (c :: (t ++ [d])) = c :: (t ++ [d]) := by
  rw [strip_eq, List.dropWhile_cons_of_neg (by simp [hc]), ← List.cons_append,
    rdropWhile_append_cons hd]
  rfl

end Blanks

/-! ## The documents of a line -/

omit [PyFloat K] in
lemma loadedData_flatMap (json : JsonModule K) (text : Text) : loadedData json text =
    (lines text).flatMap (fun line => ((payload (strip line)).map json.loads).toList) := by
  unfold loadedData
  induction lines text with
  | nil => rfl
  | cons line ls ih =>
      rw [List.filterMap_cons, List.flatMap_cons, ← ih]
      cases payload (strip line) <;> rfl

omit [PyFloat K] in
lemma loadedData_line (json : JsonModule K) {line : Text} (h : '\n' ∉ line) :
    loadedData json line = ((payload (strip line)).map json.loads).toList := by
  have hline : lines line = [line] := Splitting.splitOn_of_none (Splitting.findSep_single_none.2 h)
  rw [loadedData_flatMap, hline, List.flatMap_singleton]

omit [PyFloat K] in
/-- A text has the documents of its lines, so that lines can be rewritten one by one. -/
lemma loadedData_join (json : JsonModule K) {parts : List Text} (h : parts ≠ []) :
    loadedData json (['\n'].intercalate parts) = parts.flatMap (loadedData json) := by
  rw [loadedData_flatMap, lines, Splitting.splitOn_intercalate '\n' h, List.flatMap_assoc]
  exact List.flatMap_congr (fun part _ => (loadedData_flatMap json part).symm)

section Written

variable (ft : JsonText.FloatText K)

/-- A document in one line, compact and in ASCII, as the rewriting writes it. -/
def written (d : Dict K) : Text := dataLine (JsonText.dumps ft ⟨true, true⟩ (.dict d))

omit [PyFloat K] in
lemma dumps_dict (d : Dict K) : ∃ t, JsonText.dumps ft ⟨true, true⟩ (.dict d) =
    '{' :: (t ++ ['}']) := ⟨_, rfl⟩

omit [PyFloat K] in
lemma newline_not_mem_written (d : Dict K) : '\n' ∉ written ft d := by
  intro h
  have hprintable := JsonText.printable_dumps ft ⟨true, true⟩ (.dict d) '\n'
  simp only [written, dataLine, dataPrefix, List.cons_append, List.nil_append, List.mem_cons] at h
  rcases h with h | h | h | h | h | h | h <;> first | exact absurd h (by decide) | skip
  exact hprintable h (by decide)

omit [PyFloat K] in
lemma payload_written (d : Dict K) :
    payload (written ft d) = some (JsonText.dumps ft ⟨true, true⟩ (.dict d)) := by
  obtain ⟨t, ht⟩ := dumps_dict ft d
  have hstrip : strip (' ' :: '{' :: (t ++ ['}'])) = '{' :: (t ++ ['}']) := by
    rw [strip_eq, List.dropWhile_cons_of_pos (by decide), ← strip_eq]
    exact strip_between (by decide) (by decide) t
  rw [written, dataLine, payload, if_pos (List.prefix_append _ _), ht]
  simp only [List.drop_left, hstrip]
  rw [if_neg]
  simp [doneMark]

/-- What is written of the document is read again, without a limit in the way. -/
def Limits.Reads (lim : Limits K) (d : Dict K) : Prop :=
  lim.loads (JsonText.dumps ft ⟨true, true⟩ (.dict d)) = none

variable (lim : Limits K)

omit [PyFloat K] in
lemma loads_written {d : Dict K} (h : JsonText.Unique (.dict d)) (hread : lim.Reads ft d) :
    (limitedJson ft lim).loads (JsonText.dumps ft ⟨true, true⟩ (.dict d)) = .value (.dict d) := by
  unfold Limits.Reads at hread
  simp only [limitedJson, hread, JsonText.loads_dumps ft ⟨true, true⟩ h]

omit [PyFloat K] in
lemma loadedData_written {d : Dict K} (h : JsonText.Unique (.dict d)) (hread : lim.Reads ft d) :
    loadedData (limitedJson ft lim) (written ft d) = [.value (.dict d)] := by
  have hprefix : dataPrefix <+: written ft d := List.prefix_append _ _
  rw [loadedData_line _ (newline_not_mem_written ft d), payload_strip hprefix, payload_written,
    Option.map_some, loads_written ft lim h hread]
  rfl

omit [PyFloat K] in
lemma loadedData_pythonJson {d : Dict K} (h : JsonText.Unique (.dict d)) :
    loadedData (pythonJson ft) (written ft d) = [.value (.dict d)] := loadedData_written ft _ h rfl

/-- An event as the gateway wants it: with its object, and with no usage beside choices. -/
def Standard (d : Dict K) : Prop :=
  Json.get d "object" = chunkObject ∧
    ¬ ((Json.get d "usage").truthy = true ∧ isFilledList (Json.get d "choices") = true)

lemma standardize_written {d : Dict K} (hd : JsonText.Unique (.dict d)) (h : Standard d)
    (hread : lim.Reads ft d) :
    standardizeOpenaiUsageLine (limitedJson ft lim) (written ft d) = .ok (written ft d) := by
  have hsplit : ¬ ((Json.get d "usage").truthy && isFilledList (Json.get d "choices")) = true := by
    simpa using h.2
  rw [standardizeOpenaiUsageLine, payload_written]
  dsimp only
  rw [loads_written ft lim hd hread]
  dsimp only
  rw [if_neg hsplit, h.1]
  rfl

/-- A document that cannot be read again cannot be rewritten. -/
lemma reads_of_standardize {d : Dict K} {line : Text}
    (h : standardizeOpenaiUsageLine (limitedJson ft lim) (written ft d) = .ok line) :
    lim.Reads ft d := by
  unfold Limits.Reads
  cases hloads : lim.loads (JsonText.dumps ft ⟨true, true⟩ (.dict d)) with
  | none => rfl
  | some f =>
      rw [standardizeOpenaiUsageLine, payload_written] at h
      simp [limitedJson, hloads] at h

end Written

/-! ## What a line is rewritten to -/

/-- The documents that a document is rewritten to: itself with its object stamped, or a finish chunk
and a usage chunk. -/
inductive RewrittenTo (obj : Dict K) : List (Dict K) → Prop
  | stamped (h : ¬ ((Json.get obj "usage").truthy = true ∧
      isFilledList (Json.get obj "choices") = true)) :
      RewrittenTo obj [Json.setItem obj "object" chunkObject]
  | split (h : (Json.get obj "usage").truthy = true) :
      RewrittenTo obj [finishChunk obj, usageChunk obj (Json.get obj "usage")]

section Chunks

variable (obj : Dict K)

omit [PyFloat K] in
lemma lookup_cons_of_ne {e : String × Json K} {k : String} (h : k ≠ e.1) :
    (e :: obj).lookup k = obj.lookup k := by
  have hbeq : (k == e.1) = false := beq_eq_false_iff_ne.2 h
  rw [List.lookup_cons, hbeq]

omit [PyFloat K] in
lemma lookup_filter (key k : String) : (obj.filter (fun e => e.1 ≠ key)).lookup k =
    if k = key then none else obj.lookup k := by
  induction obj with
  | nil => simp
  | cons e obj ih =>
      by_cases he : e.1 = key
      · rw [List.filter_cons_of_neg (by simpa using he), ih]
        split_ifs with hk
        · rfl
        · rw [lookup_cons_of_ne obj (fun h => hk (h.trans he))]
      · rw [List.filter_cons_of_pos (by simpa using he), List.lookup_cons, List.lookup_cons, ih]
        split_ifs with hk
        · have hbeq : (k == e.1) = false := beq_eq_false_iff_ne.2 (fun h => he (h.symm.trans hk))
          rw [hbeq]
        · rfl

omit [PyFloat K] in
lemma lookup_finishChunk (k : String) : (finishChunk obj).lookup k =
    if k = "object" then some chunkObject else if k = "usage" then none else obj.lookup k := by
  rw [finishChunk, Json.lookup_setItem, lookup_filter]

omit [PyFloat K] in
/-- Some entries of a dictionary: those under the names are found, and no others. -/
lemma lookup_kept (names : List String) (k : String) :
    (names.filterMap (fun k => (obj.lookup k).map (fun v => (k, v)))).lookup k =
      if k ∈ names then obj.lookup k else none := by
  induction names with
  | nil => simp
  | cons name names ih =>
      rw [List.filterMap_cons]
      by_cases hk : k = name
      · subst hk
        cases h : obj.lookup k with
        | none => simp [ih, h]
        | some v => simp
      · have hmem : k ∈ name :: names ↔ k ∈ names := by simp [hk]
        simp only [hmem, ← ih]
        cases obj.lookup name with
        | none => rfl
        | some v => exact lookup_cons_of_ne _ hk

omit [PyFloat K] in
lemma lookup_usageChunk (usage : Json K) :
    (usageChunk obj usage).lookup "usage" = some usage ∧
      (usageChunk obj usage).lookup "object" = some chunkObject ∧
        (usageChunk obj usage).lookup "choices" = some (.list []) ∧
          (usageChunk obj usage).lookup "response" = none ∧
            (usageChunk obj usage).lookup "copilot_usage" = none := by
  unfold usageChunk
  simp only [List.lookup_append, lookup_kept]
  refine ⟨?_, ?_, ?_, ?_, ?_⟩ <;> simp [List.lookup_cons]

omit [PyFloat K] in
lemma mem_of_lookup {k : String} {v : Json K} (h : obj.lookup k = some v) : (k, v) ∈ obj := by
  obtain ⟨d, d', hd, -⟩ := List.lookup_eq_some_iff.1 h
  rw [hd]
  simp

variable {obj}

omit [PyFloat K] in
lemma unique_get (h : JsonText.Unique (.dict obj)) (k : String) :
    JsonText.Unique (Json.get obj k) := by
  rw [Json.get]
  cases hk : obj.lookup k with
  | none => trivial
  | some v => exact ((JsonText.unique_dict_iff obj).1 h).2 (k, v) (mem_of_lookup obj hk)

omit [PyFloat K] in
lemma unique_finishChunk (h : JsonText.Unique (.dict obj)) :
    JsonText.Unique (.dict (finishChunk obj)) := by
  refine JsonText.unique_setItem ?_ "object" trivial
  rw [JsonText.unique_dict_iff] at h ⊢
  have hsub : (obj.filter (fun e => e.1 ≠ "usage")).Sublist obj := List.filter_sublist
  exact ⟨h.1.sublist (hsub.map Prod.fst), fun e he => h.2 e (hsub.subset he)⟩

omit [PyFloat K] in
lemma unique_usageChunk (h : JsonText.Unique (.dict obj)) {usage : Json K}
    (husage : JsonText.Unique usage) : JsonText.Unique (.dict (usageChunk obj usage)) := by
  have hvalues := ((JsonText.unique_dict_iff obj).1 h).2
  have hkeys : ∀ names : List String, ((names.filterMap
      (fun k => (obj.lookup k).map (fun v => (k, v)))).map Prod.fst).Sublist names := by
    intro names
    induction names with
    | nil => exact List.Sublist.refl []
    | cons name names ih =>
        rw [List.filterMap_cons]
        cases obj.lookup name with
        | none => exact ih.cons name
        | some v => exact ih.cons_cons name
  rw [JsonText.unique_dict_iff, usageChunk]
  refine ⟨?_, ?_⟩
  · rw [List.map_append]
    have hall : (["id", "created", "model", "system_fingerprint"] ++
        ["object", "choices", "usage"]).Nodup := by decide
    exact hall.sublist ((hkeys _).append_right _)
  · intro e he
    simp only [List.mem_append, List.mem_filterMap, List.mem_cons, List.not_mem_nil, or_false] at he
    rcases he with ⟨k, -, hk⟩ | rfl | rfl | rfl
    · obtain ⟨v, hv, rfl⟩ := Option.map_eq_some_iff.1 hk
      exact hvalues (k, v) (mem_of_lookup obj hv)
    · trivial
    · trivial
    · exact husage

/-- Every document that is written is standard, and has no key twice. -/
lemma RewrittenTo.standard {docs : List (Dict K)} (h : RewrittenTo obj docs)
    (hobj : JsonText.Unique (.dict obj)) :
    ∀ d ∈ docs, Standard d ∧ JsonText.Unique (.dict d) := by
  cases h with
  | stamped h =>
      intro d hd
      rw [List.mem_singleton.1 hd]
      refine ⟨⟨?_, ?_⟩, JsonText.unique_setItem hobj "object" trivial⟩
      · rw [Json.get_setItem, if_pos rfl]
      · simpa [Json.get_setItem] using h
  | split h =>
      obtain ⟨-, hobject, hchoices, -, -⟩ := lookup_usageChunk obj (Json.get obj "usage")
      intro d hd
      simp only [List.mem_cons, List.not_mem_nil, or_false] at hd
      rcases hd with rfl | rfl
      · refine ⟨⟨?_, ?_⟩, unique_finishChunk hobj⟩
        · rw [Json.get, lookup_finishChunk]
          rfl
        · rw [Json.get, lookup_finishChunk]
          simp [Json.truthy]
      · refine ⟨⟨?_, ?_⟩, unique_usageChunk hobj (unique_get hobj "usage")⟩
        · rw [Json.get, hobject]
          rfl
        · have hget : Json.get (usageChunk obj (Json.get obj "usage")) "choices" = .list [] :=
            congrArg (fun v => v.getD Json.null) hchoices
          rw [hget]
          simp [isFilledList]

/-- No field but the object is lost: it is in one of the documents that are written. -/
lemma RewrittenTo.keeps {docs : List (Dict K)} (h : RewrittenTo obj docs) {k : String} {v : Json K}
    (hk : k ≠ "object") (hv : obj.lookup k = some v) : ∃ d ∈ docs, d.lookup k = some v := by
  cases h with
  | stamped h =>
      refine ⟨_, List.mem_singleton_self _, ?_⟩
      rw [Json.lookup_setItem, if_neg hk, hv]
  | split h =>
      by_cases husage : k = "usage"
      · subst husage
        refine ⟨usageChunk obj (Json.get obj "usage"), by simp, ?_⟩
        rw [(lookup_usageChunk obj _).1, Json.get, hv]
        rfl
      · refine ⟨finishChunk obj, by simp, ?_⟩
        rw [lookup_finishChunk, if_neg hk, if_neg husage, hv]

end Chunks

/-! ## Lines -/

section Lines

variable (ft : JsonText.FloatText K) (lim : Limits K)

/-- A line and what it is rewritten to.  The rewriting returns, its documents are those of
`RewrittenTo`, and rewriting once more changes nothing. -/
structure LineRewrite (line line' : Text) : Prop where
  run : standardizeOpenaiUsageLine (limitedJson ft lim) line = .ok line'
  data : line' = line ∨ ∃ obj docs, loadedData (limitedJson ft lim) line = [.value (.dict obj)] ∧
    RewrittenTo obj docs ∧
      loadedData (limitedJson ft lim) line' = docs.map (fun d => .value (.dict d))
  settled : ∀ l ∈ lines line', standardizeOpenaiUsageLine (limitedJson ft lim) l = .ok l

variable {ft lim}

lemma LineRewrite.kept {line : Text} (hline : '\n' ∉ line)
    (h : standardizeOpenaiUsageLine (limitedJson ft lim) line = .ok line) :
      LineRewrite ft lim line line where
  run := h
  data := Or.inl rfl
  settled := by
    intro l hl
    have hlines : lines line = [line] :=
      Splitting.splitOn_of_none (Splitting.findSep_single_none.2 hline)
    rw [hlines, List.mem_singleton] at hl
    rw [hl]
    exact h

/-- A line that is rewritten to documents, with empty lines between them. -/
lemma LineRewrite.replaced {line : Text} {obj : Dict K} {docs : List (Dict K)} {parts : List Text}
    (hparts : parts ≠ [])
    (hrun : standardizeOpenaiUsageLine (limitedJson ft lim) line = .ok (['\n'].intercalate parts))
    (hline : loadedData (limitedJson ft lim) line = [.value (.dict obj)])
    (hobj : JsonText.Unique (.dict obj)) (hdocs : RewrittenTo obj docs)
    (hwritten : ∀ part ∈ parts, part = [] ∨ ∃ d ∈ docs, part = written ft d)
    (hall : parts.filter (fun part => part ≠ []) = docs.map (written ft))
    (hreads : ∀ d ∈ docs, lim.Reads ft d) :
    LineRewrite ft lim line (['\n'].intercalate parts) where
  run := hrun
  data := by
    refine Or.inr ⟨obj, docs, hline, hdocs, ?_⟩
    have hempty : loadedData (limitedJson ft lim) [] = [] := rfl
    have hskip : ∀ ps : List Text, ps.flatMap (loadedData (limitedJson ft lim)) =
        (ps.filter (fun part => part ≠ [])).flatMap (loadedData (limitedJson ft lim)) := by
      intro ps
      induction ps with
      | nil => rfl
      | cons part ps ih =>
          by_cases hpart : part = []
          · rw [List.filter_cons_of_neg (by simpa using hpart), ← ih, List.flatMap_cons, hpart,
              hempty, List.nil_append]
          · rw [List.filter_cons_of_pos (by simpa using hpart), List.flatMap_cons,
              List.flatMap_cons, ih]
    rw [loadedData_join _ hparts, hskip, hall, List.flatMap_map]
    have hdata := hdocs.standard hobj
    clear hall hwritten hrun hdocs
    induction docs with
    | nil => rfl
    | cons d docs ih =>
        rw [List.flatMap_cons, List.map_cons,
          loadedData_written ft lim (hdata d List.mem_cons_self).2 (hreads d List.mem_cons_self),
          ih (fun d hd => hreads d (List.mem_cons_of_mem _ hd))
            (fun d hd => hdata d (List.mem_cons_of_mem _ hd))]
        rfl
  settled := by
    intro l hl
    rw [lines, Splitting.splitOn_intercalate '\n' hparts, List.mem_flatMap] at hl
    obtain ⟨part, hpart, hl⟩ := hl
    rcases hwritten part hpart with rfl | ⟨d, hd, rfl⟩
    · have hlines : Splitting.splitOn ['\n'] ([] : Text) = [[]] := rfl
      rw [hlines, List.mem_singleton] at hl
      rw [hl]
      rfl
    · rw [Splitting.splitOn_of_none
        (Splitting.findSep_single_none.2 (newline_not_mem_written ft d)), List.mem_singleton] at hl
      rw [hl]
      obtain ⟨hstandard, hunique⟩ := hdocs.standard hobj d hd
      exact standardize_written ft lim hunique hstandard (hreads d hd)

variable (ft lim)

/-- The documents that a document is rewritten to, if its line is not kept. -/
def chunksOf (obj : Dict K) : List (Dict K) :=
  if (Json.get obj "usage").truthy && isFilledList (Json.get obj "choices") then
    [finishChunk obj, usageChunk obj (Json.get obj "usage")]
  else if isText (Json.get obj "object") "chat.completion.chunk" then []
  else [Json.setItem obj "object" chunkObject]

/-- No limit is met: the payload of the line is read, and what it is rewritten to is written and
read again. -/
def Processable (json : JsonModule K) (line : Text) : Prop :=
  ∀ p, payload line = some p → (∀ f, json.loads p ≠ .raises f) ∧
    ∀ obj, json.loads p = .value (.dict obj) → ∀ d ∈ chunksOf obj,
      ∃ t, json.dumps true (.dict d) = .ok t ∧ ∀ f, json.loads t ≠ .raises f

omit [PyFloat K] in
lemma dumps_ok_iff (v : Json K) (t : Text) : (limitedJson ft lim).dumps true v = .ok t ↔
    lim.dumps v = none ∧ t = JsonText.dumps ft ⟨true, true⟩ v := by
  unfold limitedJson
  dsimp only
  cases lim.dumps v with
  | some f => simp
  | none => simp [eq_comm]

omit [PyFloat K] in
lemma loads_raises_iff (t : Text) (f : Fault) :
    (limitedJson ft lim).loads t = .raises f ↔ lim.loads t = some f := by
  unfold limitedJson
  dsimp only
  cases lim.loads t with
  | some f' => simp
  | none => cases JsonText.loads ft t <;> simp

omit [PyFloat K] in
lemma unique_of_loads {t : Text} {v : Json K} (h : (limitedJson ft lim).loads t = .value v) :
    JsonText.Unique v := by
  unfold limitedJson at h
  dsimp only at h
  cases hlimit : lim.loads t with
  | some f => simp [hlimit] at h
  | none =>
      cases hloads : JsonText.loads ft t with
      | none => simp [hlimit, hloads] at h
      | some v' =>
          rw [hlimit, hloads] at h
          obtain rfl : v' = v := by simpa using h
          exact JsonText.unique_loads ft hloads

omit [PyFloat K] in
/-- A document is written and read again within the limits. -/
lemma writes_iff (d : Dict K) :
    (∃ t, (limitedJson ft lim).dumps true (.dict d) = .ok t ∧
      ∀ f, (limitedJson ft lim).loads t ≠ .raises f) ↔
      lim.dumps (.dict d) = none ∧ lim.Reads ft d := by
  have hread : lim.Reads ft d ↔ ∀ f,
      lim.loads (JsonText.dumps ft ⟨true, true⟩ (.dict d)) ≠ some f := by
    unfold Limits.Reads
    exact Option.eq_none_iff_forall_ne_some
  simp only [dumps_ok_iff, ne_eq, loads_raises_iff]
  constructor
  · rintro ⟨t, ⟨hdumps, rfl⟩, hloads⟩
    exact ⟨hdumps, hread.2 hloads⟩
  · rintro ⟨hdumps, hreads⟩
    exact ⟨_, ⟨hdumps, rfl⟩, hread.1 hreads⟩

section Payload

variable {ft lim} {line p : Text}

/-- A payload that is no object is not rewritten, as long as reading it does not raise. -/
lemma standardize_other (hp : payload line = some p)
    (hraises : ∀ f, (limitedJson ft lim).loads p ≠ .raises f)
    (hobject : ∀ obj, (limitedJson ft lim).loads p ≠ .value (.dict obj)) :
    standardizeOpenaiUsageLine (limitedJson ft lim) line = .ok line := by
  rw [standardizeOpenaiUsageLine, hp]
  dsimp only
  cases hloads : (limitedJson ft lim).loads p with
  | invalid => rfl
  | raises f => exact absurd hloads (hraises f)
  | value v =>
      cases v with
      | dict obj => exact absurd hloads (hobject obj)
      | _ => rfl

/-- The lines of the documents that an object is rewritten to, an empty one between two of them. -/
def partsOf (ft : JsonText.FloatText K) (line : Text) (obj : Dict K) : List Text :=
  if (Json.get obj "usage").truthy && isFilledList (Json.get obj "choices") then
    [written ft (finishChunk obj), [], written ft (usageChunk obj (Json.get obj "usage"))]
  else if isText (Json.get obj "object") "chat.completion.chunk" then [line]
  else [written ft (Json.setItem obj "object" chunkObject)]

/-- An object is rewritten if and only if its chunks can be written. -/
lemma standardize_object_iff {obj : Dict K} (hp : payload line = some p)
    (hloads : (limitedJson ft lim).loads p = .value (.dict obj)) (line' : Text) :
    standardizeOpenaiUsageLine (limitedJson ft lim) line = .ok line' ↔
      (∀ d ∈ chunksOf obj, lim.dumps (.dict d) = none) ∧
        line' = ['\n'].intercalate (partsOf ft line obj) := by
  rw [standardizeOpenaiUsageLine, hp]
  dsimp only
  rw [hloads]
  dsimp only
  unfold chunksOf partsOf
  split_ifs with hsplit hobject
  · have hline : ∀ a b : Text, dataLine a ++ ['\n', '\n'] ++ dataLine b =
        ['\n'].intercalate [dataLine a, [], dataLine b] := by
      intro a b
      simp [List.intercalate]
    simp only [Outcomes.bind_eq_ok, dumps_ok_iff, hline]
    constructor
    · rintro ⟨finish, ⟨hfinish, rfl⟩, last, ⟨hlast, rfl⟩, hdone⟩
      refine ⟨?_, (Except.ok.inj hdone).symm⟩
      simp [hfinish, hlast]
    · rintro ⟨hall, rfl⟩
      exact ⟨_, ⟨hall _ (by simp), rfl⟩, _, ⟨hall _ (by simp), rfl⟩, rfl⟩
  · constructor
    · intro h
      exact ⟨by simp, by rw [← Except.ok.inj h]; simp [List.intercalate]⟩
    · rintro ⟨-, rfl⟩
      simp [List.intercalate]
      rfl
  · simp only [Outcomes.bind_eq_ok, dumps_ok_iff]
    constructor
    · rintro ⟨stamped, ⟨hstamped, rfl⟩, hdone⟩
      refine ⟨by simp [hstamped], ?_⟩
      rw [← Except.ok.inj hdone]
      simp [List.intercalate, written]
    · rintro ⟨hall, rfl⟩
      refine ⟨_, ⟨hall _ (by simp), rfl⟩, ?_⟩
      simp [List.intercalate, written]
      rfl

end Payload

omit [PyFloat K] in
lemma loadedData_of_payload {json : JsonModule K} {line p : Text} (hline : '\n' ∉ line)
    (hp : payload line = some p) : loadedData json line = [json.loads p] := by
  have hprefix : dataPrefix <+: line := by
    by_contra h
    rw [payload, if_neg h] at hp
    cases hp
  rw [loadedData_line _ hline, payload_strip hprefix, hp]
  rfl

/-- A line is rewritten if no limit is met, and then it is rewritten as `LineRewrite` says. -/
lemma standardize_spec {line : Text} (hline : '\n' ∉ line)
    (h : Processable (limitedJson ft lim) line) : ∃ line', LineRewrite ft lim line line' := by
  cases hp : payload line with
  | none => exact ⟨line, .kept hline (by rw [standardizeOpenaiUsageLine, hp])⟩
  | some p =>
      obtain ⟨hraises, hwrites⟩ := h p hp
      by_cases hobject : ∃ obj, (limitedJson ft lim).loads p = .value (.dict obj)
      · obtain ⟨obj, hloads⟩ := hobject
        have hlimits : ∀ d ∈ chunksOf obj, lim.dumps (.dict d) = none ∧ lim.Reads ft d :=
          fun d hd => (writes_iff ft lim d).1 (hwrites obj hloads d hd)
        have hrun := (standardize_object_iff hp hloads _).2 ⟨fun d hd => (hlimits d hd).1, rfl⟩
        have hdata : loadedData (limitedJson ft lim) line = [.value (.dict obj)] := by
          rw [loadedData_of_payload hline hp, hloads]
        have hreads : ∀ d ∈ chunksOf obj, lim.Reads ft d := fun d hd => (hlimits d hd).2
        have hobj := unique_of_loads ft lim hloads
        unfold partsOf at hrun
        unfold chunksOf at hreads
        split_ifs at hrun hreads with hsplit hchunk
        · rw [Bool.and_eq_true] at hsplit
          refine ⟨_, .replaced (List.cons_ne_nil _ _) hrun hdata hobj (.split hsplit.1) ?_ rfl
            hreads⟩
          intro part hpart
          simp only [List.mem_cons, List.not_mem_nil, or_false] at hpart
          rcases hpart with rfl | rfl | rfl
          · exact Or.inr ⟨_, by simp, rfl⟩
          · exact Or.inl rfl
          · exact Or.inr ⟨_, by simp, rfl⟩
        · refine ⟨line, .kept hline ?_⟩
          rw [hrun]
          simp [List.intercalate]
        · rw [Bool.and_eq_true] at hsplit
          refine ⟨_, .replaced (List.cons_ne_nil _ _) hrun hdata hobj (.stamped hsplit) ?_ rfl
            hreads⟩
          intro part hpart
          exact Or.inr ⟨_, List.mem_singleton_self _, List.mem_singleton.1 hpart⟩
      · exact ⟨line, .kept hline (standardize_other hp hraises (fun obj h => hobject ⟨obj, h⟩))⟩

/-- No limit is met where a line is rewritten, and what it is rewritten to once more. -/
lemma processable_of_standardize {line line' : Text}
    (hrun : standardizeOpenaiUsageLine (limitedJson ft lim) line = .ok line')
    (hagain : ∀ l ∈ lines line', ∃ l', standardizeOpenaiUsageLine (limitedJson ft lim) l = .ok l') :
    Processable (limitedJson ft lim) line := by
  intro p hp
  refine ⟨fun f hf => ?_, fun obj hloads d hd => (writes_iff ft lim d).2 ?_⟩
  · rw [standardizeOpenaiUsageLine, hp] at hrun
    dsimp only at hrun
    rw [hf] at hrun
    cases hrun
  · obtain ⟨hdumps, rfl⟩ := (standardize_object_iff hp hloads line').1 hrun
    refine ⟨hdumps d hd, ?_⟩
    have hmem : written ft d ∈ partsOf ft line obj := by
      unfold chunksOf at hd
      unfold partsOf
      split_ifs at hd ⊢
      · simp only [List.mem_cons, List.not_mem_nil, or_false] at hd
        rcases hd with rfl | rfl <;> simp
      · cases hd
      · rw [List.mem_singleton.1 hd]
        exact List.mem_singleton_self _
    have hne : partsOf ft line obj ≠ [] := List.ne_nil_of_mem hmem
    have hlines : written ft d ∈ lines (['\n'].intercalate (partsOf ft line obj)) := by
      rw [lines, Splitting.splitOn_intercalate '\n' hne, List.mem_flatMap]
      refine ⟨_, hmem, ?_⟩
      rw [Splitting.splitOn_of_none
        (Splitting.findSep_single_none.2 (newline_not_mem_written ft d))]
      exact List.mem_singleton_self _
    obtain ⟨l', hl'⟩ := hagain _ hlines
    exact reads_of_standardize ft lim hl'

lemma exists_rewrites {ls : List Text} (h : ∀ l ∈ ls, '\n' ∉ l)
    (hprocessable : ∀ l ∈ ls, Processable (limitedJson ft lim) l) :
    ∃ ls', List.Forall₂ (LineRewrite ft lim) ls ls' := by
  induction ls with
  | nil => exact ⟨[], List.Forall₂.nil⟩
  | cons l ls ih =>
      obtain ⟨l', hl'⟩ := standardize_spec ft lim (h l List.mem_cons_self)
        (hprocessable l List.mem_cons_self)
      obtain ⟨ls', hls'⟩ := ih (fun l hl => h l (List.mem_cons_of_mem _ hl))
        (fun l hl => hprocessable l (List.mem_cons_of_mem _ hl))
      exact ⟨l' :: ls', List.Forall₂.cons hl' hls'⟩

variable {ft lim}

lemma exists_of_rewrites {ls ls' : List Text} (h : List.Forall₂ (LineRewrite ft lim) ls ls')
    {l' : Text} (hl' : l' ∈ ls') : ∃ l, LineRewrite ft lim l l' := by
  induction h with
  | nil => cases hl'
  | cons hl _ ih =>
      rcases List.mem_cons.1 hl' with rfl | hl'
      · exact ⟨_, hl⟩
      · exact ih hl'

lemma exists_of_mem_forall₂ {α : Type} {R : α → α → Prop} {xs ys : List α}
    (h : List.Forall₂ R xs ys) {x : α} (hx : x ∈ xs) : ∃ y ∈ ys, R x y := by
  induction h with
  | nil => cases hx
  | cons hxy _ ih =>
      rcases List.mem_cons.1 hx with rfl | hx
      · exact ⟨_, List.mem_cons_self, hxy⟩
      · obtain ⟨y, hy, hxy⟩ := ih hx
        exact ⟨y, List.mem_cons_of_mem _ hy, hxy⟩

lemma mapM_rewrites {ls ls' : List Text} (h : List.Forall₂ (LineRewrite ft lim) ls ls') :
    ls.mapM (standardizeOpenaiUsageLine (limitedJson ft lim)) = .ok ls' := by
  induction h with
  | nil => rfl
  | cons hl _ ih =>
      rw [List.mapM_cons, hl.run, ih]
      rfl

/-- A stream that is rewritten is rewritten in each of its lines. -/
lemma mapM_ok {ls ls' : List Text}
    (h : ls.mapM (standardizeOpenaiUsageLine (limitedJson ft lim)) = .ok ls') :
    List.Forall₂ (fun l l' => standardizeOpenaiUsageLine (limitedJson ft lim) l =
      .ok l') ls ls' := by
  induction ls generalizing ls' with
  | nil =>
      rw [List.mapM_nil] at h
      cases h
      exact .nil
  | cons l ls ih =>
      rw [List.mapM_cons] at h
      obtain ⟨l', hl', h⟩ := Outcomes.bind_eq_ok.1 h
      obtain ⟨rest, hrest, h⟩ := Outcomes.bind_eq_ok.1 h
      cases h
      exact .cons hl' (ih hrest)

lemma mapM_settled {ls : List Text}
    (h : ∀ l ∈ ls, standardizeOpenaiUsageLine (limitedJson ft lim) l = .ok l) :
    ls.mapM (standardizeOpenaiUsageLine (limitedJson ft lim)) = .ok ls := by
  induction ls with
  | nil => rfl
  | cons l ls ih =>
      rw [List.mapM_cons, h l List.mem_cons_self, ih (fun l hl => h l (List.mem_cons_of_mem _ hl))]
      rfl

/-- **Step.**  A scanner goes over what a line is rewritten to as it goes over the line. -/
lemma foldlM_line {σ : Type} {body : σ → Json K → Except Fault σ} {f : σ → Dict K → σ}
    (hbody : ∀ s d, body s (.dict d) = .ok (f s d)) {line line' : Text}
    (h : LineRewrite ft lim line line')
    (hkeeps : ∀ obj docs, Loaded.value (.dict obj) ∈ loadedData (limitedJson ft lim) line →
      RewrittenTo obj docs → ∀ s, docs.foldl f s = f s obj) (s : σ) :
    (loadedData (limitedJson ft lim) line').foldlM (onLoaded body) s =
      (loadedData (limitedJson ft lim) line).foldlM (onLoaded body) s := by
  rcases h.data with rfl | ⟨obj, docs, hline, hdocs, hline'⟩
  · rfl
  · have hfold : ∀ (docs : List (Dict K)) (s : σ),
        (docs.map (fun d => Loaded.value (.dict d))).foldlM (onLoaded body) s =
          (.ok (docs.foldl f s) : Except Fault σ) := by
      intro docs
      induction docs with
      | nil => intro s; rfl
      | cons d docs ih =>
          intro s
          rw [List.map_cons, List.foldlM_cons, onLoaded, hbody, ok_bind, ih]
          rfl
    have hobj := hfold [obj] s
    rw [List.map_singleton] at hobj
    rw [hline', hline, hfold, hobj, hkeeps obj docs (by simp [hline]) hdocs]
    rfl

/-- **Run.**  So it does over a stream: a loop that treats the rewritten documents as it treats the
one they come from ends in the same state. -/
lemma forData_rewritten {σ : Type} {body : σ → Json K → Except Fault σ} {f : σ → Dict K → σ}
    (hbody : ∀ s d, body s (.dict d) = .ok (f s d)) {ls ls' : List Text}
    (h : List.Forall₂ (LineRewrite ft lim) ls ls')
    (hkeeps : ∀ line ∈ ls, ∀ obj docs,
      Loaded.value (.dict obj) ∈ loadedData (limitedJson ft lim) line →
      RewrittenTo obj docs → ∀ s, docs.foldl f s = f s obj) (s : σ) :
    (ls'.flatMap (loadedData (limitedJson ft lim))).foldlM (onLoaded body) s =
      (ls.flatMap (loadedData (limitedJson ft lim))).foldlM (onLoaded body) s := by
  induction h generalizing s with
  | nil => rfl
  | cons hl _ ih =>
      have hline := foldlM_line hbody hl (hkeeps _ List.mem_cons_self)
      have hrest := ih (fun line hline => hkeeps line (List.mem_cons_of_mem _ hline))
      rw [List.flatMap_cons, List.flatMap_cons, List.foldlM_append, List.foldlM_append, hline]
      exact bind_congr hrest

end Lines

/-! ## The scanners -/

section Scanners

/-- Usage at the top level and under `response`; a usage that is null or empty is none. -/
def CarriesBoth (d : Dict K) : Prop :=
  (Json.get d "usage").truthy = true ∧
    ∃ resp, Json.get d "response" = .dict resp ∧ (Json.get resp "usage").truthy = true

variable {obj : Dict K} {docs : List (Dict K)}

omit [PyFloat K] in
lemma get_finishChunk (k : String) : Json.get (finishChunk obj) k =
    if k = "object" then chunkObject else if k = "usage" then .null else Json.get obj k := by
  rw [Json.get, lookup_finishChunk]
  split_ifs <;> rfl

omit [PyFloat K] in
lemma get_usageChunk (obj : Dict K) (usage : Json K) :
    Json.get (usageChunk obj usage) "usage" = usage ∧
      Json.get (usageChunk obj usage) "response" = .null ∧
        Json.get (usageChunk obj usage) "copilot_usage" = .null := by
  obtain ⟨husage, -, -, hresponse, hcopilot⟩ := lookup_usageChunk obj usage
  exact ⟨congrArg (fun v => v.getD Json.null) husage,
    congrArg (fun v => v.getD Json.null) hresponse,
    congrArg (fun v => v.getD Json.null) hcopilot⟩

/-- The usage under `response`, where the Responses API reports it. -/
def nestedUsage (d : Dict K) : Json K :=
  match Json.get d "response" with
  | .dict resp => Json.get resp "usage"
  | _ => .null

lemma candidate_true (d : Dict K) :
    candidate true d = (nestedUsage d).orElse (Json.get d "usage") := by
  unfold candidate nestedUsage
  rw [if_pos rfl]
  cases Json.get d "response" with
  | dict resp => rfl
  | _ => exact (Json.orElse_of_falsy rfl _).symm

/-- The usage is reported once more by the second chunk, or by it alone. -/
lemma usage_rewritten (h : RewrittenTo obj docs) (hone : ¬ CarriesBoth obj) (responsesShape : Bool)
    (usage : Json K) :
    docs.foldl (fun usage d => (candidate responsesShape d).orElse usage) usage =
      (candidate responsesShape obj).orElse usage := by
  cases h with
  | stamped h => simp [candidate, Json.get_setItem]
  | split h =>
      obtain ⟨husage, hresponse, -⟩ := get_usageChunk obj (Json.get obj "usage")
      have hlast : candidate responsesShape (usageChunk obj (Json.get obj "usage")) =
          Json.get obj "usage" := by
        cases responsesShape <;> simp [candidate, husage, hresponse]
      have hnested : (nestedUsage obj).truthy = false := by
        by_contra htruthy
        unfold nestedUsage at htruthy
        cases hresp : Json.get obj "response" with
        | dict resp =>
            rw [hresp] at htruthy
            exact hone ⟨h, resp, hresp, by simpa using htruthy⟩
        | _ =>
            rw [hresp] at htruthy
            exact htruthy rfl
      have hobj : candidate responsesShape obj = Json.get obj "usage" := by
        cases responsesShape with
        | false => rfl
        | true => rw [candidate_true, Json.orElse_of_falsy hnested]
      rw [List.foldl_cons, List.foldl_cons, List.foldl_nil, hlast, hobj, Json.orElse_of_truthy h,
        Json.orElse_of_truthy h]

/-- The billed usage in a document, at its top or under `response`. -/
def copilotCandidate (d : Dict K) : Option (Json K) :=
  match extractCopilotUsage (.dict d) with
  | some cu => some cu
  | none => extractCopilotUsage (Json.get d "response")

omit [PyFloat K] in
lemma copilotCandidate_congr {d d' : Dict K}
    (hcopilot : Json.get d "copilot_usage" = Json.get d' "copilot_usage")
    (hresponse : Json.get d "response" = Json.get d' "response") :
    copilotCandidate d = copilotCandidate d' := by
  have htop : extractCopilotUsage (.dict d) = extractCopilotUsage (.dict d') := by
    simp only [extractCopilotUsage, hcopilot]
  rw [copilotCandidate, copilotCandidate, htop, hresponse]

/-- The billed usage stays on the first chunk, so that the last one to be found is the same. -/
lemma copilot_rewritten (h : RewrittenTo obj docs) (found : Json K) :
    docs.foldl (fun found d => (copilotCandidate d).getD found) found =
      (copilotCandidate obj).getD found := by
  cases h with
  | stamped h =>
      rw [List.foldl_cons, List.foldl_nil]
      congr 1
      exact copilotCandidate_congr (Json.get_setItem _ _ _ _) (Json.get_setItem _ _ _ _)
  | split h =>
      obtain ⟨-, hresponse, hcopilot⟩ := get_usageChunk obj (Json.get obj "usage")
      have hlast : copilotCandidate (usageChunk obj (Json.get obj "usage")) = none := by
        simp only [copilotCandidate, extractCopilotUsage, hresponse, hcopilot]
      rw [List.foldl_cons, List.foldl_cons, List.foldl_nil, hlast, Option.getD_none]
      congr 1
      exact copilotCandidate_congr (get_finishChunk _) (get_finishChunk _)

end Scanners

/-! ## The result -/

section Result

variable (ft : JsonText.FloatText K)

omit [PyFloat K] in
/-- `_scan_sse_copilot_usage` is a loop that takes the candidates of objects. -/
lemma scan_loop : ∃ body : Json K → Json K → Except Fault (Json K),
    (∀ json text, scanSseCopilotUsage json text = forData json text .null body) ∧
      ∀ found d, body found (.dict d) = .ok ((copilotCandidate d).getD found) := by
  refine ⟨_, fun _ _ => rfl, ?_⟩
  intro found d
  unfold copilotCandidate
  cases extractCopilotUsage (.dict d) <;> rfl

variable (lim : Limits K)

/-- Rewriting a stream keeps its accounting: what is read out of it is the same, what has been
rewritten stays as it is, and no field but the object is lost. -/
def Preserves (json : JsonModule K) (text : Text) : Prop :=
  ∃ text', rewriteLines json text = .ok text' ∧
    (∀ responsesShape, parseSseUsage json text' responsesShape =
      parseSseUsage json text responsesShape) ∧
    scanSseCopilotUsage json text' = scanSseCopilotUsage json text ∧
    rewriteLines json text' = .ok text' ∧
    ∀ line ∈ lines text, ∃ line', standardizeOpenaiUsageLine json line = .ok line' ∧
      ∀ obj ∈ documents json line, ∀ k v, k ≠ "object" → obj.lookup k = some v →
        ∃ d ∈ documents json line', d.lookup k = some v

lemma newline_not_mem_line {text line : Text} (h : line ∈ lines text) : '\n' ∉ line :=
  Splitting.not_mem_of_mem_splitOn h

/-- A stream whose lines can be processed is rewritten, and the readers find in it what they found
before. -/
lemma preserves_of_processable {text : Text}
    (h : ∀ d ∈ documents (limitedJson ft lim) text, ¬ CarriesBoth d)
    (hprocessable : ∀ line ∈ lines text, Processable (limitedJson ft lim) line) :
    Preserves (limitedJson ft lim) text := by
  have hlines : ∀ line ∈ lines text, '\n' ∉ line := fun line => newline_not_mem_line
  obtain ⟨ls', hls'⟩ := exists_rewrites ft lim hlines hprocessable
  have hne : ls' ≠ [] := by
    have hlength := hls'.length_eq
    have hpos : 0 < (lines text).length := List.length_pos_iff.2 (Splitting.splitOn_ne_nil _ _)
    exact List.length_pos_iff.1 (hlength ▸ hpos)
  -- A payload never runs over the end of a line, so a text is read line by line.
  have htext : loadedData (limitedJson ft lim) text =
      (lines text).flatMap (loadedData (limitedJson ft lim)) := by
    have hjoin := loadedData_join (limitedJson ft lim) (Splitting.splitOn_ne_nil ['\n'] text)
    rwa [Splitting.intercalate_splitOn] at hjoin
  have hdocument : ∀ line ∈ lines text, ∀ obj,
      Loaded.value (.dict obj) ∈ loadedData (limitedJson ft lim) line →
        obj ∈ documents (limitedJson ft lim) text := by
    intro line hline obj hobj
    rw [documents, htext]
    exact List.mem_filterMap.2 ⟨_, List.mem_flatMap.2 ⟨line, hline, hobj⟩, rfl⟩
  refine ⟨['\n'].intercalate ls', ?_, ?_, ?_, ?_, ?_⟩
  · rw [rewriteLines, mapM_rewrites hls']
    rfl
  · intro responsesShape
    obtain ⟨body, hloop, hneeds⟩ := parseSseUsage_loop (K := K) responsesShape
    rw [hloop, hloop, forData_eq, forData_eq, loadedData_join _ hne, htext]
    refine forData_rewritten (fun usage d => hneeds.accepts usage d trivial) hls' ?_ .null
    intro line hline obj docs hobj hdocs usage
    exact usage_rewritten hdocs (h obj (hdocument line hline obj hobj)) responsesShape usage
  · obtain ⟨body, hloop, haccepts⟩ := scan_loop (K := K)
    rw [hloop, hloop, forData_eq, forData_eq, loadedData_join _ hne, htext]
    refine forData_rewritten haccepts hls' ?_ .null
    intro line _ obj docs _ hdocs found
    exact copilot_rewritten hdocs found
  -- A second rewriting finds nothing to do on any of the lines that have come out.
  · have hsettled : ∀ l ∈ lines (['\n'].intercalate ls'),
        standardizeOpenaiUsageLine (limitedJson ft lim) l = .ok l := by
      intro l hl
      rw [lines, Splitting.splitOn_intercalate '\n' hne, List.mem_flatMap] at hl
      obtain ⟨line', hline', hl⟩ := hl
      obtain ⟨line, hline⟩ := exists_of_rewrites hls' hline'
      exact hline.settled l hl
    rw [rewriteLines, mapM_settled hsettled]
    show (Except.ok _ : Except Fault Text) = _
    rw [lines, Splitting.intercalate_splitOn]
  -- A key that a rewritten record has kept is in one of the records it has become.
  · intro line hline
    obtain ⟨line', hrewrite⟩ :=
      standardize_spec ft lim (hlines line hline) (hprocessable line hline)
    refine ⟨line', hrewrite.run, ?_⟩
    intro obj hobj k v hk hv
    rcases hrewrite.data with rfl | ⟨obj', docs, hdata, hdocs, hdata'⟩
    · exact ⟨obj, hobj, hv⟩
    · rw [documents, hdata] at hobj
      obtain rfl : obj = obj' := by simpa [Loaded.object] using hobj
      obtain ⟨d, hd, hlookup⟩ := hdocs.keeps hk hv
      refine ⟨d, ?_, hlookup⟩
      rw [documents, hdata']
      exact List.mem_filterMap.2 ⟨_, List.mem_map_of_mem hd, rfl⟩

/-- A stream that has been rewritten, and once more, meets no limit. -/
lemma processable_of_rewrites {text text' : Text}
    (hrun : rewriteLines (limitedJson ft lim) text = .ok text')
    (hagain : rewriteLines (limitedJson ft lim) text' = .ok text') :
    ∀ line ∈ lines text, Processable (limitedJson ft lim) line := by
  unfold rewriteLines at hrun hagain
  obtain ⟨ls', hls', hrun⟩ := Outcomes.bind_eq_ok.1 hrun
  obtain ⟨ls'', hls'', -⟩ := Outcomes.bind_eq_ok.1 hagain
  cases hrun
  have hforall := mapM_ok hls'
  have hne : ls' ≠ [] := by
    have hlength := hforall.length_eq
    have hpos : 0 < (lines text).length := List.length_pos_iff.2 (Splitting.splitOn_ne_nil _ _)
    exact List.length_pos_iff.1 (hlength ▸ hpos)
  intro line hline
  obtain ⟨line', hline', hstandard⟩ := exists_of_mem_forall₂ hforall hline
  refine processable_of_standardize ft lim hstandard ?_
  intro l hl
  have hmem : l ∈ lines (['\n'].intercalate ls') := by
    rw [lines, Splitting.splitOn_intercalate '\n' hne]
    exact List.mem_flatMap.2 ⟨line', hline', hl⟩
  obtain ⟨l', -, hl'⟩ := exists_of_mem_forall₂ (mapM_ok hls'') hmem
  exact ⟨l', hl'⟩

/-- **Rewriting a stream keeps its accounting** if and only if no limit of the interpreter is met.
-/
theorem rewriteLines_preserves (text : Text)
    (h : ∀ d ∈ documents (limitedJson ft lim) text, ¬ CarriesBoth d) :
    Preserves (limitedJson ft lim) text ↔
      ∀ line ∈ lines text, Processable (limitedJson ft lim) line := by
  constructor
  · rintro ⟨text', hrun, -, -, hagain, -⟩
    exact processable_of_rewrites ft lim hrun hagain
  · exact preserves_of_processable ft lim h

/-- `json.loads` reads no integer of more than 4300 digits, which is the default limit of the
interpreter. -/
def digitLimit : Limits K where
  loads t := if 4300 < (t.takeWhile Char.isDigit).length then some (.failure .value) else none
  dumps _ := none

/-- The usage beside the last choice, in one chunk, which is what the rewriting splits. -/
def gluedChunk : Dict ℚ :=
  [("id", .str "a"), ("choices", .list [.int 1]), ("usage", .dict [("total_tokens", .int 3)])]

omit [PyFloat K] in
/-- A document begins with no digit, so this limit does not keep it from being read. -/
lemma digitLimit_reads (d : Dict K) : digitLimit.Reads ft d := by
  obtain ⟨t, ht⟩ := dumps_dict ft d
  unfold Limits.Reads digitLimit
  rw [ht]
  simp

theorem rewriteLines_preserves_glued :
    ∃ text', rewriteLines (limitedJson JsonText.FloatText.fractions digitLimit)
        (written JsonText.FloatText.fractions gluedChunk) = .ok text' ∧
      ∀ responsesShape,
        parseSseUsage (limitedJson JsonText.FloatText.fractions digitLimit) text' responsesShape =
          .ok (.dict [("total_tokens", .int 3)]) := by
  have hunique : JsonText.Unique (.dict gluedChunk) := by
    simp [gluedChunk, JsonText.Unique, JsonText.UniqueFields, JsonText.UniqueItems]
  have hread := loads_written JsonText.FloatText.fractions digitLimit hunique (digitLimit_reads _ _)
  have hloaded := loadedData_written JsonText.FloatText.fractions digitLimit hunique
    (digitLimit_reads _ _)
  have hdocuments : documents (limitedJson JsonText.FloatText.fractions digitLimit)
      (written JsonText.FloatText.fractions gluedChunk) = [gluedChunk] := by
    rw [documents, hloaded]
    rfl
  have hlines : lines (written JsonText.FloatText.fractions gluedChunk) =
      [written JsonText.FloatText.fractions gluedChunk] := Splitting.splitOn_of_none
    (Splitting.findSep_single_none.2 (newline_not_mem_written _ _))
  obtain ⟨text', hrun, hparse, -⟩ := (rewriteLines_preserves JsonText.FloatText.fractions digitLimit
    (written JsonText.FloatText.fractions gluedChunk) (by
      rw [hdocuments]
      rintro d hd ⟨-, resp, hresp, -⟩
      rw [List.mem_singleton.1 hd] at hresp
      cases hresp)).2 (by
      intro line hline p hp
      rw [hlines, List.mem_singleton] at hline
      rw [hline, payload_written] at hp
      cases hp
      refine ⟨fun f hf => ?_, fun obj _ d _ => (writes_iff _ _ d).2 ⟨rfl, digitLimit_reads _ d⟩⟩
      rw [hread] at hf
      cases hf)
  refine ⟨text', hrun, fun responsesShape => ?_⟩
  rw [hparse, parseSseUsage_ok_iff, OnlyObjects, hloaded, hdocuments]
  refine ⟨fun l hl => Or.inr ⟨gluedChunk, List.mem_singleton.1 hl⟩, ?_⟩
  cases responsesShape <;> rfl

/-- A payload of nines; the text keeps the digits, however many they are. -/
lemma payload_nines (n : ℕ) :
    payload (dataLine (List.replicate (n + 2) '9')) = some (List.replicate (n + 2) '9') := by
  have hnines : List.replicate (n + 2) '9' = '9' :: (List.replicate n '9' ++ ['9']) := by
    rw [List.replicate_succ, List.replicate_succ']
  have hstrip : strip (' ' :: List.replicate (n + 2) '9') = List.replicate (n + 2) '9' := by
    rw [hnines, strip_eq, List.dropWhile_cons_of_pos (by decide), ← strip_eq]
    exact strip_between (by decide) (by decide) _
  rw [dataLine, payload, if_pos (List.prefix_append _ _)]
  simp only [List.drop_left, hstrip]
  rw [if_neg]
  simp [doneMark, List.replicate_succ]

lemma not_preserves_nines {n : ℕ} (h : 4300 < n + 2) :
    (∀ d ∈ documents (limitedJson JsonText.FloatText.fractions digitLimit)
        (dataLine (List.replicate (n + 2) '9')), ¬ CarriesBoth d) ∧
      ¬ Preserves (limitedJson JsonText.FloatText.fractions digitLimit)
        (dataLine (List.replicate (n + 2) '9')) := by
  have hpayload := payload_nines n
  have hline : '\n' ∉ dataLine (List.replicate (n + 2) '9') := by
    simp [dataLine, dataPrefix, List.mem_replicate]
  have hraises : (limitedJson JsonText.FloatText.fractions digitLimit).loads
      (List.replicate (n + 2) '9') = .raises (.failure .value) := by
    have hdigits : (List.replicate (n + 2) '9').takeWhile Char.isDigit =
        List.replicate (n + 2) '9' := by
      rw [List.takeWhile_replicate, if_pos (by decide)]
    rw [loads_raises_iff, digitLimit]
    dsimp only
    rw [hdigits, List.length_replicate, if_pos h]
  have hlines : lines (dataLine (List.replicate (n + 2) '9')) =
      [dataLine (List.replicate (n + 2) '9')] :=
    Splitting.splitOn_of_none (Splitting.findSep_single_none.2 hline)
  constructor
  · rw [documents, loadedData_of_payload hline hpayload, hraises]
    intro d hd
    cases hd
  · rintro ⟨text', hrun, -, -, hagain, -⟩
    have hprocessable := processable_of_rewrites _ _ hrun hagain
      (dataLine (List.replicate (n + 2) '9')) (by rw [hlines]; exact List.mem_singleton_self _)
    exact (hprocessable _ hpayload).1 _ hraises

/-- A number with too many digits ends the rewriting, although no document of the stream has
anything to split. -/
theorem not_preserves_digits :
    (∀ d ∈ documents (limitedJson JsonText.FloatText.fractions digitLimit)
        (dataLine (List.replicate 4301 '9')), ¬ CarriesBoth d) ∧
      ¬ Preserves (limitedJson JsonText.FloatText.fractions digitLimit)
        (dataLine (List.replicate 4301 '9')) :=
  not_preserves_nines (n := 4299) (by decide)

end Result

end Server
end TokenFoundry
