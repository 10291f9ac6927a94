import TokenFoundry.Properties.StreamRewriting

/-!
# The usage of a streamed Anthropic answer

`_parse_anthropic_sse_usage` merges the usage objects of a stream, entry by entry.  What it holds
for a key is a function of the values that have been reported for the key (`settled`): the last one
that counts, and the first one if none counts.  An entry that does not count, for a key that is
known, changes nothing.

Of an event that has a usage both in its message and beside it, the loop takes the one in the
message.
-/

set_option autoImplicit false

namespace TokenFoundry
namespace Server

open CopilotClient (Text Fault)

variable {K : Type} [PyFloat K]

/-! ## What is reported -/

def asObject : Json K → Option (Dict K)
  | .dict u => some u
  | _ => none

/-- The usage objects in an event: the one in its message, and the one beside it. -/
def usageObjects (d : Dict K) : List (Dict K) :=
  [Json.get (messageOf d) "usage", Json.get d "usage"].filterMap asObject

/-- The usage object that an event reports: the one in its message, unless there is none or it is
empty. -/
def reportedObject (d : Dict K) : List (Dict K) :=
  (asObject ((Json.get (messageOf d) "usage").orElse (Json.get d "usage"))).toList

/-- The values reported for a key, in the order in which they came. -/
def valuesOf (key : String) (entries : Dict K) : List (Json K) :=
  (entries.filter (fun e => e.1 = key)).map Prod.snd

/-- The entries of the usage objects of a stream, in the order of the stream. -/
def entriesOf (objects : Dict K → List (Dict K)) (docs : List (Dict K)) : Dict K :=
  (docs.flatMap objects).flatten

/-- The last value that counts, and otherwise the first one. -/
def settled (values : List (Json K)) : Option (Json K) :=
  (values.filter Json.truthy).getLast?.or values.head?

/-! ## The merge, entry by entry -/

section Merge

/-- An entry goes into what has been merged, unless it is false and the key is there already. -/
def mergeEntry (merged : Dict K) (e : String × Json K) : Dict K :=
  if Json.has merged e.1 && ! e.2.truthy then merged else Json.setItem merged e.1 e.2

lemma mergeUsage_eq (merged u : Dict K) : mergeUsage merged u = u.foldl mergeEntry merged := rfl

lemma mergeDocument_eq (merged d : Dict K) :
    mergeDocument merged d = (reportedObject d).flatten.foldl mergeEntry merged := by
  unfold mergeDocument reportedObject
  cases (Json.get (messageOf d) "usage").orElse (Json.get d "usage") <;>
    simp [asObject, mergeUsage_eq]

lemma foldl_mergeDocument (docs : List (Dict K)) (merged : Dict K) :
    docs.foldl mergeDocument merged = (entriesOf reportedObject docs).foldl mergeEntry merged := by
  induction docs generalizing merged with
  | nil => rfl
  | cons d docs ih =>
      rw [List.foldl_cons, ih, mergeDocument_eq, entriesOf, entriesOf, List.flatMap_cons,
        List.flatten_append, List.foldl_append]

omit [PyFloat K] in
lemma valuesOf_append (key : String) (entries entries' : Dict K) :
    valuesOf key (entries ++ entries') = valuesOf key entries ++ valuesOf key entries' := by
  simp [valuesOf]

/-- A value that does not count settles a key only if it is the first one. -/
lemma settled_concat (values : List (Json K)) (v : Json K) : settled (values ++ [v]) =
    if values ≠ [] ∧ v.truthy = false then settled values else some v := by
  unfold settled
  by_cases hv : v.truthy = true
  · simp [hv]
  · have hv' : v.truthy = false := by simpa using hv
    cases values with
    | nil => simp [hv']
    | cons w values => simp [hv']

lemma settled_eq_none {values : List (Json K)} : settled values = none ↔ values = [] := by
  cases values with
  | nil => simp [settled]
  | cons v values => simp [settled]

lemma lookup_mergeEntry (merged : Dict K) (e : String × Json K) (key : String) :
    (mergeEntry merged e).lookup key =
      if key = e.1 ∧ ¬ (Json.has merged e.1 = true ∧ e.2.truthy = false) then some e.2
      else merged.lookup key := by
  unfold mergeEntry
  by_cases hskip : Json.has merged e.1 = true ∧ e.2.truthy = false
  · rw [if_pos (by simp [hskip]), if_neg (fun h => h.2 hskip)]
  · rw [if_neg (by simpa using hskip), Json.lookup_setItem]
    by_cases hk : key = e.1 <;> simp [hk, hskip]

/-- **What is merged under a key is what the reports of the key settle.** -/
lemma lookup_merged (entries : Dict K) (key : String) :
    (entries.foldl mergeEntry []).lookup key = settled (valuesOf key entries) := by
  induction entries using List.reverseRecOn with
  | nil => rfl
  | append_singleton entries e ih =>
      rw [List.foldl_append, List.foldl_cons, List.foldl_nil, lookup_mergeEntry, valuesOf_append]
      by_cases hk : key = e.1
      · subst hk
        have hhas : Json.has (entries.foldl mergeEntry []) e.1 = true ↔
            valuesOf e.1 entries ≠ [] := by
          rw [Json.has, ih, Option.isSome_iff_ne_none, Ne, settled_eq_none]
        have hlast : valuesOf e.1 [e] = [e.2] := by simp [valuesOf]
        rw [hlast, settled_concat, ih]
        by_cases hskip : valuesOf e.1 entries ≠ [] ∧ e.2.truthy = false
        · rw [if_pos hskip, if_neg (fun h => h.2 ⟨hhas.2 hskip.1, hskip.2⟩)]
        · rw [if_neg hskip, if_pos ⟨rfl, fun h => hskip ⟨hhas.1 h.1, h.2⟩⟩]
      · have hlast : valuesOf key [e] = [] := by simp [valuesOf, Ne.symm hk]
        rw [if_neg (fun h => hk h.1), ih, hlast, List.append_nil]

lemma nodup_merged (entries : Dict K) :
    ((entries.foldl mergeEntry []).map Prod.fst).Nodup := by
  induction entries using List.reverseRecOn with
  | nil => exact List.nodup_nil
  | append_singleton entries e ih =>
      rw [List.foldl_append, List.foldl_cons, List.foldl_nil, mergeEntry]
      split_ifs
      · exact ih
      · exact JsonText.nodup_setItem ih e.1 e.2

omit [PyFloat K] in
/-- `{**base, **d}`: a key of `d` has the value of `d`, and any other key that of `base`. -/
lemma lookup_foldl_setItem {d : Dict K} (h : (d.map Prod.fst).Nodup) (base : Dict K)
    (key : String) :
    (d.foldl (fun all e => Json.setItem all e.1 e.2) base).lookup key =
      (d.lookup key).or (base.lookup key) := by
  induction d generalizing base with
  | nil => rfl
  | cons e d ih =>
      rw [List.map_cons, List.nodup_cons] at h
      rw [List.foldl_cons, ih h.2, Json.lookup_setItem]
      by_cases hk : key = e.1
      · have hnone : d.lookup key = none := by
          rw [List.lookup_eq_none_iff]
          intro f hf
          have hne : e.1 ≠ f.1 := fun heq => h.1 (heq ▸ List.mem_map_of_mem hf)
          simpa [hk] using hne
        rw [hnone, hk, List.lookup_cons_self]
        simp
      · rw [lookup_cons_of_ne d hk, if_neg hk]

lemma lookup_mergedUsage (docs : List (Dict K)) (key : String) : (mergedUsage docs).lookup key =
    (settled (valuesOf key (entriesOf reportedObject docs))).or (counters.lookup key) := by
  rw [mergedUsage, foldl_mergeDocument, lookup_foldl_setItem (nodup_merged _), lookup_merged]

end Merge

/-! ## Lines that say nothing new -/

section Insertion

/-- An event that reports, for keys that are known, only values that do not count. -/
def Quiet (docs : List (Dict K)) (d : Dict K) : Prop :=
  HasMessage d ∧ ∀ u ∈ reportedObject d, ∀ e ∈ u,
    e.2.truthy = false ∧ valuesOf e.1 (entriesOf reportedObject docs) ≠ []

/-- A line without a payload, a payload that is not JSON, or a quiet event. -/
def Silent (json : JsonModule K) (before : List Text) (line : Text) : Prop :=
  ∀ l ∈ loadedData json line, l = .invalid ∨ ∃ d, l = .value (.dict d) ∧
    Quiet (before.flatMap (documents json)) d

lemma foldl_mergeEntry_quiet {entries : Dict K} {merged : Dict K}
    (h : ∀ e ∈ entries, e.2.truthy = false ∧ Json.has merged e.1 = true) :
    entries.foldl mergeEntry merged = merged := by
  induction entries with
  | nil => rfl
  | cons e entries ih =>
      obtain ⟨hv, hhas⟩ := h e List.mem_cons_self
      have hstep : mergeEntry merged e = merged := by
        rw [mergeEntry, hhas, hv]
        rfl
      rw [List.foldl_cons, hstep]
      exact ih (fun e he => h e (List.mem_cons_of_mem _ he))

/-- A quiet event changes nothing: every value it reports is there already, or false and reported
before. -/
lemma mergeDocument_quiet {docs : List (Dict K)} {d : Dict K} (h : Quiet docs d) :
    mergeDocument (docs.foldl mergeDocument []) d = docs.foldl mergeDocument [] := by
  rw [mergeDocument_eq]
  refine foldl_mergeEntry_quiet (fun e he => ?_)
  obtain ⟨u, hu, he⟩ := List.mem_flatten.1 he
  obtain ⟨hv, hknown⟩ := h.2 u hu e he
  refine ⟨hv, ?_⟩
  rw [Json.has, foldl_mergeDocument, lookup_merged, Option.isSome_iff_ne_none, Ne, settled_eq_none]
  exact hknown

lemma foldl_mergeDocument_quiet {docs docs' : List (Dict K)} (h : ∀ d ∈ docs', Quiet docs d) :
    docs'.foldl mergeDocument (docs.foldl mergeDocument []) = docs.foldl mergeDocument [] := by
  induction docs' with
  | nil => rfl
  | cons d docs' ih =>
      rw [List.foldl_cons, mergeDocument_quiet (h d List.mem_cons_self)]
      exact ih (fun d hd => h d (List.mem_cons_of_mem _ hd))

omit [PyFloat K] in
lemma loadedData_lines (json : JsonModule K) (text : Text) :
    loadedData json text = (lines text).flatMap (loadedData json) := by
  have hjoin := loadedData_join json (Splitting.splitOn_ne_nil ['\n'] text)
  rwa [Splitting.intercalate_splitOn] at hjoin

omit [PyFloat K] in
lemma documents_lines (json : JsonModule K) (text : Text) :
    documents json text = (lines text).flatMap (documents json) := by
  rw [documents, loadedData_lines, List.filterMap_flatMap]
  rfl

/-- Silent lines may stand anywhere in a stream without changing what is settled.  The induction is
on the lines that are put in. -/
lemma parse_of_silent {json : JsonModule K} {text text' : Text} {before new rest : List Text}
    (htext : lines text = before ++ rest) (htext' : lines text' = before ++ new ++ rest)
    (hnew : ∀ line ∈ new, Silent json before line) (hobjects : OnlyObjects json text)
    (hmessages : ∀ d ∈ documents json text, HasMessage d) :
    parseAnthropicSseUsage json text' = .ok (mergedUsage (documents json text)) := by
  have hquiet : ∀ d ∈ new.flatMap (documents json),
      Quiet (before.flatMap (documents json)) d := by
    intro d hd
    obtain ⟨line, hline, hd⟩ := List.mem_flatMap.1 hd
    obtain ⟨l, hl, hobject⟩ := List.mem_filterMap.1 hd
    rcases hnew line hline l hl with rfl | ⟨d', rfl, hd'⟩
    · cases hobject
    · cases hobject
      exact hd'
  have hdocs : documents json text =
      before.flatMap (documents json) ++ rest.flatMap (documents json) := by
    rw [documents_lines, htext, List.flatMap_append]
  have hdocs' : documents json text' = before.flatMap (documents json) ++
      new.flatMap (documents json) ++ rest.flatMap (documents json) := by
    rw [documents_lines, htext', List.flatMap_append, List.flatMap_append]
  refine (parseAnthropicSseUsage_ok_iff json text' _).2 ⟨?_, ?_, ?_⟩
  · intro l hl
    rw [loadedData_lines, htext', List.flatMap_append, List.flatMap_append] at hl
    rw [OnlyObjects, loadedData_lines, htext, List.flatMap_append] at hobjects
    simp only [List.mem_append] at hl hobjects
    rcases hl with (hl | hl) | hl
    · exact hobjects l (Or.inl hl)
    · obtain ⟨line, hline, hl⟩ := List.mem_flatMap.1 hl
      rcases hnew line hline l hl with h | ⟨d, h, -⟩
      · exact Or.inl h
      · exact Or.inr ⟨d, h⟩
    · exact hobjects l (Or.inr hl)
  · intro d hd
    rw [hdocs'] at hd
    rw [hdocs] at hmessages
    simp only [List.mem_append] at hd hmessages
    rcases hd with (hd | hd) | hd
    · exact hmessages d (Or.inl hd)
    · exact (hquiet d hd).1
    · exact hmessages d (Or.inr hd)
  · rw [mergedUsage, mergedUsage, hdocs, hdocs', List.foldl_append, List.foldl_append,
      List.foldl_append, foldl_mergeDocument_quiet hquiet]

end Insertion

/-! ## The result -/

section Result

/-- The usage that is returned holds what the reports settle, and the counters in any case. -/
def Settles (objects : Dict K → List (Dict K)) (json : JsonModule K) (text : Text) : Prop :=
  ∃ u, parseAnthropicSseUsage json text = .ok u ∧
    (∀ key, u.lookup key = (settled (valuesOf key (entriesOf objects (documents json text)))).or
      (counters.lookup key)) ∧
    ∀ text' before new rest, lines text = before ++ rest → lines text' = before ++ new ++ rest →
      (∀ line ∈ new, Silent json before line) → parseAnthropicSseUsage json text' = .ok u

omit [PyFloat K] in
/-- A backend that writes one document to a line: its documents are those of the text, and there is
nothing else in it. -/
lemma documents_writtenLines (ft : JsonText.FloatText K) {docs : List (Dict K)} (hne : docs ≠ [])
    (hunique : ∀ d ∈ docs, JsonText.Unique (.dict d)) :
    documents (pythonJson ft) (['\n'].intercalate (docs.map (written ft))) = docs ∧
      OnlyObjects (pythonJson ft) (['\n'].intercalate (docs.map (written ft))) := by
  have hline : docs.flatMap (fun d => loadedData (pythonJson ft) (written ft d)) =
      docs.map (fun d => .value (.dict d)) := by
    rw [List.map_eq_flatMap]
    exact List.flatMap_congr (fun d hd => loadedData_pythonJson ft (hunique d hd))
  have hloaded : loadedData (pythonJson ft) (['\n'].intercalate (docs.map (written ft))) =
      docs.map (fun d => .value (.dict d)) := by
    rw [loadedData_join _ (by simpa using hne), List.flatMap_map]
    exact hline
  constructor
  · rw [documents, hloaded, List.filterMap_map]
    exact List.filterMap_some
  · intro l hl
    rw [hloaded] at hl
    obtain ⟨d, -, rfl⟩ := List.mem_map.1 hl
    exact .inr ⟨d, rfl⟩

/-- A usage beside the one in the message. -/
def twoUsages : Dict ℚ :=
  [("message", .dict [("usage", .dict [("input_tokens", .int 1)])]),
    ("usage", .dict [("output_tokens", .int 5)])]

lemma twoUsages_read :
    documents (pythonJson JsonText.FloatText.fractions)
        (written JsonText.FloatText.fractions twoUsages) = [twoUsages] ∧
      OnlyObjects (pythonJson JsonText.FloatText.fractions)
        (written JsonText.FloatText.fractions twoUsages) ∧
      ∀ d ∈ documents (pythonJson JsonText.FloatText.fractions)
        (written JsonText.FloatText.fractions twoUsages), HasMessage d := by
  have hunique : ∀ d ∈ [twoUsages], JsonText.Unique (.dict d) := by
    simp [twoUsages, JsonText.Unique, JsonText.UniqueFields]
  obtain ⟨hdocuments, hobjects⟩ :=
    documents_writtenLines JsonText.FloatText.fractions (List.cons_ne_nil _ _) hunique
  rw [List.map_singleton, List.intercalate_singleton] at hdocuments hobjects
  refine ⟨hdocuments, hobjects, ?_⟩
  rw [hdocuments]
  intro d hd _
  rw [List.mem_singleton.1 hd]
  exact ⟨[("usage", .dict [("input_tokens", .int 1)])], by simp [twoUsages, Json.get]⟩

/-- The beginning of a message, and its end, which reports no input. -/
def zeroLater : List (Dict ℚ) :=
  [[("type", .str "message_start"), ("message", .dict [("usage", .dict
      [("input_tokens", .int 9), ("output_tokens", .int 1)])])],
    [("type", .str "message_delta"), ("usage", .dict
      [("input_tokens", .int 0), ("output_tokens", .int 12)])]]

end Result

end Server
end TokenFoundry
