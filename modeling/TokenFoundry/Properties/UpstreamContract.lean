import Mathlib.Data.Set.Basic
import TokenFoundry.Framework.Outcomes
import TokenFoundry.Hub.Requests

/-!
# What the backend accepts

The backend rejects a whole request for one field it does not know, for a field whose beta is not
named, and for one beta it does not know.  So a request is a set of fields and a set of betas, and a
contract says which pairs are accepted.  Of what a client asks for there is a largest part that is
accepted; it is what `/v1/messages` and `/v1/messages/count_tokens` send on, with the values of the
client.

Whether a request carries an image is told in a header as well; the body is scanned for it.
-/

set_option autoImplicit false

namespace TokenFoundry
namespace Requests

open AdminApi (Headers Refusal)

/-! ## Contracts -/

/-- What a server accepts of fields and betas: some fields never, some only beside the betas that
they need, and no beta that it does not know. -/
structure Contract (F B : Type) where
  unsupported : Set F
  /-- The betas that a field needs. -/
  needs : F → Set B
  known : Set B

namespace Contract

variable {F B : Type} (c : Contract F B)

/-- A request that the contract accepts, by its fields and by the betas that it names. -/
structure Accepts (fields : Set F) (betas : Set B) : Prop where
  supported : ∀ f ∈ fields, f ∉ c.unsupported
  gated : ∀ f ∈ fields, c.needs f ⊆ betas
  known : betas ⊆ c.known

def keptBetas (betas : Set B) : Set B := {b | b ∈ betas ∧ b ∈ c.known}

def keptFields (fields : Set F) (betas : Set B) : Set F :=
  {f | f ∈ fields ∧ f ∉ c.unsupported ∧ c.needs f ⊆ c.keptBetas betas}

lemma accepts_kept (fields : Set F) (betas : Set B) :
    c.Accepts (c.keptFields fields betas) (c.keptBetas betas) where
  supported _ hf := hf.2.1
  gated _ hf := hf.2.2
  known _ hb := hb.2

/-- Whatever else is accepted of a request is less than what is kept. -/
lemma subset_kept {fields fields' : Set F} {betas betas' : Set B} (h : c.Accepts fields' betas')
    (hfields : fields' ⊆ fields) (hbetas : betas' ⊆ betas) :
    fields' ⊆ c.keptFields fields betas ∧ betas' ⊆ c.keptBetas betas := by
  have hkept : betas' ⊆ c.keptBetas betas := fun b hb => ⟨hbetas hb, h.known hb⟩
  exact ⟨fun f hf => ⟨hfields hf, h.supported f hf, (h.gated f hf).trans hkept⟩, hkept⟩

end Contract

/-- The contract of the backend, as the tables of the source have it. -/
def backend : Contract String String where
  unsupported := {f | f ∈ unsupportedUpstreamFields}
  needs f := {b | (f, b) ∈ betaGatedFields}
  known := {b | b ∈ knownBetas}

/-! ## The header of the betas -/

/-- A beta that can stand in a header among others. -/
def Tame (beta : String) : Prop :=
  ',' ∉ beta.toList ∧ Server.strip beta.toList = beta.toList ∧ beta.toList ≠ []

instance : DecidablePred Tame := fun beta =>
  inferInstanceAs (Decidable (',' ∉ beta.toList ∧ Server.strip beta.toList = beta.toList ∧
    beta.toList ≠ []))

lemma tame_of_known : ∀ beta ∈ knownBetas, Tame beta := by decide

lemma flatMap_splitOn {parts : List (List Char)} (h : ∀ part ∈ parts, ',' ∉ part) :
    parts.flatMap (Splitting.splitOn [',']) = parts := by
  induction parts with
  | nil => rfl
  | cons part parts ih =>
      have hnone := Splitting.findSep_single_none.2 (h part List.mem_cons_self)
      rw [List.flatMap_cons, Splitting.splitOn_of_none hnone,
        ih (fun p hp => h p (List.mem_cons_of_mem _ hp))]
      rfl

/-- What is joined for the header is parsed back, if no beta contains what the parser splits at or
strips. -/
theorem betas_joined {s : Finset String} (h : ∀ beta ∈ s, Tame beta) :
    betas (some (joined s)) = s := by
  by_cases hempty : s = ∅
  · have hjoined : joined s = "" := by
      rw [hempty, joined, Finset.sort_empty, String.intercalate_nil]
    rw [hjoined, hempty]
    decide
  have hparts : (s.sort (fun a b => a ≤ b)).map String.toList ≠ [] := by
    intro hnil
    refine hempty (Finset.eq_empty_of_forall_notMem (fun b hb => ?_))
    have hmem : b.toList ∈ (s.sort (fun a b => a ≤ b)).map String.toList :=
      List.mem_map_of_mem ((Finset.mem_sort _).2 hb)
    rw [hnil] at hmem
    exact List.not_mem_nil hmem
  have htame : ∀ part ∈ (s.sort (fun a b => a ≤ b)).map String.toList,
      ',' ∉ part ∧ Server.strip part = part ∧ part ≠ [] := by
    intro part hpart
    obtain ⟨beta, hbeta, rfl⟩ := List.mem_map.1 hpart
    exact h beta ((Finset.mem_sort _).1 hbeta)
  have hsplit : Splitting.splitOn [','] (joined s).toList =
      (s.sort (fun a b => a ≤ b)).map String.toList := by
    rw [joined, String.toList_intercalate]
    change Splitting.splitOn [','] ([','].intercalate _) = _
    rw [Splitting.splitOn_intercalate ',' hparts, flatMap_splitOn (fun p hp => (htame p hp).1)]
  have hstrip : (Splitting.splitOn [','] (joined s).toList).map Server.strip =
      (s.sort (fun a b => a ≤ b)).map String.toList := by
    rw [hsplit]
    exact (List.map_congr_left (fun p hp => (htame p hp).2.1)).trans (List.map_id _)
  have hfilter : ((s.sort (fun a b => a ≤ b)).map String.toList).filter
      (fun part => ! part.isEmpty) = (s.sort (fun a b => a ≤ b)).map String.toList := by
    rw [List.filter_eq_self]
    intro part hpart
    simpa using (htame part hpart).2.2
  rw [betas, hstrip, hfilter, List.map_map]
  simp [Function.comp_def]

lemma forwardable_subset (header : Option String) : forwardableBetas header ⊆ knownBetas :=
  Finset.inter_subset_right

/-! ## The headers -/

/-- The betas that a request names to the backend, in the one header that carries them. -/
def betasOf (headers : List (String × String)) : Finset String :=
  betas (headers.lookup "anthropic-beta")

lemma betasOf_contract (anthropicVersion : String) (h : Headers) (hasImage : Bool) :
    betasOf (upstreamContractHeaders anthropicVersion h ++ visionHeaders hasImage) =
      forwardableBetas (h "anthropic-beta") := by
  have hround := betas_joined (fun b hb =>
    tame_of_known b (forwardable_subset (h "anthropic-beta") hb))
  unfold betasOf upstreamContractHeaders visionHeaders
  by_cases hempty : forwardableBetas (h "anthropic-beta") = ∅
  · rw [if_pos hempty, hempty]
    cases hasImage <;> simp [List.lookup_cons, betas]
  · rw [if_neg hempty]
    simp [List.lookup_cons, hround]

variable {K : Type}

/-! ## What is sent on -/

def fieldsOf (d : Dict K) : Set String := {f | Json.has d f = true}

lemma has_iff (d : Dict K) (f : String) : Json.has d f = true ↔ f ∈ d.map Prod.fst := by
  rw [Json.has, List.lookup_isSome_iff]
  simp

lemma mem_keys_filter (d : Dict K) (p : String → Prop) [DecidablePred p] (f : String) :
    f ∈ (d.filter (fun e => decide (p e.1))).map Prod.fst ↔ f ∈ d.map Prod.fst ∧ p f := by
  simp only [List.mem_map, List.mem_filter, decide_eq_true_eq]
  constructor
  · rintro ⟨e, ⟨he, hp⟩, rfl⟩
    exact ⟨⟨e, he, rfl⟩, hp⟩
  · rintro ⟨⟨e, he, rfl⟩, hp⟩
    exact ⟨e, ⟨he, hp⟩, rfl⟩

lemma mem_droppedFields (d : Dict K) (header : Option String) (f : String) :
    f ∈ droppedFields d header ↔
      Json.has d f = true ∧ (f ∈ unsupportedUpstreamFields ∨
        ∃ beta, (f, beta) ∈ betaGatedFields ∧ beta ∉ betas header) := by
  unfold droppedFields
  simp only [List.mem_append, List.mem_filter, List.mem_map, Bool.and_eq_true, decide_eq_true_eq]
  constructor
  · rintro (⟨hf, hhas⟩ | ⟨⟨f', beta⟩, ⟨hgated, hhas, hbeta⟩, rfl⟩)
    · exact ⟨hhas, .inl hf⟩
    · exact ⟨hhas, .inr ⟨beta, hgated, hbeta⟩⟩
  · rintro ⟨hhas, hf | ⟨beta, hgated, hbeta⟩⟩
    · exact .inl ⟨hf, hhas⟩
    · exact .inr ⟨(f, beta), ⟨hgated, hhas, hbeta⟩, rfl⟩

/-- Nothing else is dropped, and what is left keeps its order. -/
lemma stripUnsupported_eq (d : Dict K) (header : Option String) :
    (stripUnsupported d header).1 = d.filter (fun e => decide (e.1 ∉ droppedFields d header)) := by
  unfold stripUnsupported
  cases hdropped : droppedFields d header with
  | nil => simp
  | cons f fs => simp

lemma gated_known : ∀ e ∈ betaGatedFields, e.2 ∈ knownBetas := by decide

/-- The fields that are left are the largest part that the backend accepts. -/
lemma fieldsOf_stripUnsupported (d : Dict K) (header : Option String) :
    fieldsOf (stripUnsupported d header).1 =
      backend.keptFields (fieldsOf d) {b | b ∈ betas header} := by
  ext f
  have hleft : f ∈ fieldsOf (stripUnsupported d header).1 ↔
      Json.has d f = true ∧ f ∉ droppedFields d header := by
    have hkeys := mem_keys_filter d (fun f => f ∉ droppedFields d header) f
    rw [stripUnsupported_eq]
    exact (has_iff _ f).trans (hkeys.trans (and_congr_left' (has_iff d f).symm))
  rw [hleft, mem_droppedFields]
  constructor
  · rintro ⟨hhas, hnot⟩
    refine ⟨hhas, fun hf => hnot ⟨hhas, .inl hf⟩, fun beta hbeta => ⟨?_, gated_known _ hbeta⟩⟩
    by_contra hmissing
    exact hnot ⟨hhas, .inr ⟨beta, hbeta, hmissing⟩⟩
  · rintro ⟨hhas, hsupported, hneeds⟩
    refine ⟨hhas, ?_⟩
    rintro ⟨-, hf | ⟨beta, hgated, hbeta⟩⟩
    · exact hsupported hf
    · exact hbeta (hneeds hgated).1

lemma betasOf_kept (header : Option String) :
    {b | b ∈ forwardableBetas header} = backend.keptBetas {b | b ∈ betas header} := by
  ext b
  exact Finset.mem_inter

lemma lookup_filter (d : Dict K) (p : String → Prop) [DecidablePred p] {key : String} (h : p key) :
    (d.filter (fun e => decide (p e.1))).lookup key = d.lookup key := by
  induction d with
  | nil => rfl
  | cons e d ih =>
      rw [List.filter_cons, List.lookup_cons]
      by_cases hkey : key = e.1
      · rw [if_pos (by simpa [← hkey] using h), List.lookup_cons, hkey]
        simp
      · have hbeq : (key == e.1) = false := beq_eq_false_iff_ne.2 hkey
        rw [hbeq]
        split_ifs
        · rw [List.lookup_cons, hbeq]
          exact ih
        · exact ih

lemma stripUnsupported_sublist (d : Dict K) (header : Option String) :
    (stripUnsupported d header).1.Sublist d := by
  rw [stripUnsupported_eq]
  exact List.filter_sublist

/-! ## Images -/

/-- An image block is reached from a content: it is one of its blocks, or in the content of a result
of a tool. -/
inductive ShowsImage : Json K → Prop
  | block {blocks : List (Json K)} {part : Dict K} : .dict part ∈ blocks →
      Json.get part "type" = .str "image" → ShowsImage (.list blocks)
  | result {blocks : List (Json K)} {part : Dict K} : .dict part ∈ blocks →
      Json.get part "type" = .str "tool_result" → ShowsImage (Json.get part "content") →
        ShowsImage (.list blocks)

/-- A block is an image, or the result of a tool with one. -/
def BlockShows (part : Dict K) : Prop :=
  Json.get part "type" = .str "image" ∨
    Json.get part "type" = .str "tool_result" ∧ ShowsImage (Json.get part "content")

lemma showsImage_list {blocks : List (Json K)} :
    ShowsImage (.list blocks) ↔ ∃ part, .dict part ∈ blocks ∧ BlockShows part := by
  constructor
  · rintro (⟨hmem, htype⟩ | ⟨hmem, htype, hcontent⟩)
    · exact ⟨_, hmem, .inl htype⟩
    · exact ⟨_, hmem, .inr ⟨htype, hcontent⟩⟩
  · rintro ⟨part, hmem, htype | ⟨htype, hcontent⟩⟩
    · exact .block hmem htype
    · exact .result hmem htype hcontent

lemma isText_iff (v : Json K) (s : String) : Server.isText v s = true ↔ v = .str s := by
  cases v with
  | str t => simp [Server.isText]
  | _ => simp [Server.isText]

lemma get_content_cons (key : String) (v : Json K) (part : Dict K) :
    Json.get ((key, v) :: part) "content" =
      if key = "content" then v else Json.get part "content" := by
  rw [Json.get, List.lookup_cons]
  by_cases hkey : key = "content"
  · simp [hkey]
  · have hbeq : ("content" == key) = false := beq_eq_false_iff_ne.2 (Ne.symm hkey)
    rw [if_neg hkey]
    simp only [hbeq]
    rfl

mutual

/-- **The scan finds an image if there is one**, however deeply the results of tools are nested. -/
theorem scan_iff : ∀ v : Json K, scan v = true ↔ ShowsImage v
  | .list blocks => by
      rw [scan, showsImage_list]
      exact scanBlocks_iff blocks
  | .null => by simp only [scan, Bool.false_eq_true, false_iff]; exact fun h => nomatch h
  | .bool b => by simp only [scan, Bool.false_eq_true, false_iff]; exact fun h => nomatch h
  | .int n => by simp only [scan, Bool.false_eq_true, false_iff]; exact fun h => nomatch h
  | .float x => by simp only [scan, Bool.false_eq_true, false_iff]; exact fun h => nomatch h
  | .str s => by simp only [scan, Bool.false_eq_true, false_iff]; exact fun h => nomatch h
  | .dict fields => by simp only [scan, Bool.false_eq_true, false_iff]; exact fun h => nomatch h

theorem scanBlocks_iff : ∀ blocks : List (Json K),
    scanBlocks blocks = true ↔ ∃ part, .dict part ∈ blocks ∧ BlockShows part
  | [] => by simp [scanBlocks]
  | .dict part :: blocks => by
      have hpart : (Server.isText (Json.get part "type") "image" ||
          (Server.isText (Json.get part "type") "tool_result" && scanContent part)) = true ↔
            BlockShows part := by
        rw [Bool.or_eq_true, Bool.and_eq_true, isText_iff, isText_iff, scanContent_iff part,
          BlockShows]
      rw [scanBlocks, Bool.or_eq_true, hpart, scanBlocks_iff blocks]
      simp
  | .list xs :: blocks => by simp [scanBlocks, scanBlocks_iff blocks]
  | .null :: blocks => by simp [scanBlocks, scanBlocks_iff blocks]
  | .bool b :: blocks => by simp [scanBlocks, scanBlocks_iff blocks]
  | .int n :: blocks => by simp [scanBlocks, scanBlocks_iff blocks]
  | .float x :: blocks => by simp [scanBlocks, scanBlocks_iff blocks]
  | .str s :: blocks => by simp [scanBlocks, scanBlocks_iff blocks]

theorem scanContent_iff : ∀ part : List (String × Json K),
    scanContent part = true ↔ ShowsImage (Json.get part "content")
  | [] => by
      simp only [scanContent, Bool.false_eq_true, false_iff]
      exact fun h => nomatch h
  | (key, v) :: part => by
      rw [scanContent, get_content_cons]
      split_ifs with hkey
      · exact scan_iff v
      · exact scanContent_iff part

end

/-! ## The calls -/

lemma version_contract (anthropicVersion : String) (h : Headers) (hasImage : Bool) :
    (upstreamContractHeaders anthropicVersion h ++ visionHeaders hasImage).lookup
      "anthropic-version" =
        some ((nonEmpty ((h "anthropic-version").getD "")).getD anthropicVersion) := by
  by_cases hempty : forwardableBetas (h "anthropic-beta") = ∅
  · simp [upstreamContractHeaders, hempty]
  · simp [upstreamContractHeaders, hempty]

section Calls

variable [PyFloat K]

/-- The fields for which a client asks.  A `stream` that is not true is not among them: it is taken
out of a call that is not streamed, and what is sent means the same without it. -/
def askedFields (body : Dict K) : Set String :=
  {f | Json.has body f = true ∧ (f = "stream" → (Json.get body "stream").truthy = true)}

/-- What the backend gets of a request of a client. -/
structure Forwarded (anthropicVersion : String) (h : Headers) (body : Dict K) (call : Call K) :
    Prop where
  /-- The backend accepts it. -/
  accepted : backend.Accepts (fieldsOf call.body) {b | b ∈ betasOf call.headers}
  /-- Nothing that the client asks for and the backend would accept is kept back. -/
  greatest : ∀ fields betas', fields ⊆ askedFields body →
    betas' ⊆ {b | b ∈ betas (h "anthropic-beta")} → backend.Accepts fields betas' →
      fields ⊆ fieldsOf call.body ∧ betas' ⊆ {b | b ∈ betasOf call.headers}
  /-- Every field is sent as it is, and in its order. -/
  kept : call.body.Sublist body
  version : call.headers.lookup "anthropic-version" =
    some ((nonEmpty ((h "anthropic-version").getD "")).getD anthropicVersion)

omit [PyFloat K] in
/-- A field that is neither unsupported nor gated keeps its value, or stays absent. -/
lemma get_stripUnsupported {field : String} (hsupported : field ∉ unsupportedUpstreamFields)
    (hgated : field ∉ betaGatedFields.map Prod.fst) (d : Dict K) (header : Option String) :
    Json.get (stripUnsupported d header).1 field = Json.get d field := by
  have hnot : field ∉ droppedFields d header := by
    rw [mem_droppedFields]
    rintro ⟨-, hf | ⟨beta, hmem, -⟩⟩
    · exact hsupported hf
    · exact hgated (List.mem_map_of_mem hmem)
  rw [stripUnsupported_eq, Json.get, Json.get,
    lookup_filter d (fun f => f ∉ droppedFields d header) hnot]

/-- The part that the three endpoints share: what is stripped is forwarded, under the headers of the
contract and possibly the one for images. -/
lemma forwarded_of {anthropicVersion : String} {h : Headers} {body : Dict K} {call : Call K}
    {hasImage : Bool} (hheaders : call.headers =
      upstreamContractHeaders anthropicVersion h ++ visionHeaders hasImage)
    (hsub : call.body.Sublist (stripUnsupported body (h "anthropic-beta")).1)
    (hasked : ∀ f ∈ askedFields body,
      f ∈ fieldsOf (stripUnsupported body (h "anthropic-beta")).1 → f ∈ fieldsOf call.body) :
    Forwarded anthropicVersion h body call := by
  have hbetas : {b | b ∈ betasOf call.headers} =
      backend.keptBetas {b | b ∈ betas (h "anthropic-beta")} := by
    rw [hheaders, betasOf_contract, betasOf_kept]
  have hkept := backend.accepts_kept (fieldsOf body) {b | b ∈ betas (h "anthropic-beta")}
  have hfields : fieldsOf call.body ⊆
      backend.keptFields (fieldsOf body) {b | b ∈ betas (h "anthropic-beta")} := by
    intro f hf
    rw [← fieldsOf_stripUnsupported]
    exact (has_iff _ f).2 ((hsub.map Prod.fst).subset ((has_iff _ f).1 hf))
  constructor
  · rw [hbetas]
    exact ⟨fun f hf => hkept.supported f (hfields hf), fun f hf => hkept.gated f (hfields hf),
      hkept.known⟩
  · intro fields betas' hask hsubset haccepts
    have hbody : fields ⊆ fieldsOf body := fun f hf => (hask hf).1
    obtain ⟨hleft, hright⟩ := backend.subset_kept haccepts hbody hsubset
    rw [hbetas]
    refine ⟨fun f hf => hasked f (hask hf) ?_, hright⟩
    rw [fieldsOf_stripUnsupported]
    exact hleft hf
  · exact hsub.trans (stripUnsupported_sublist body _)
  · rw [hheaders]
    exact version_contract anthropicVersion h hasImage

/-- What `/v1/messages` sends on: the stripped body, with the header for images where it has one. -/
lemma messagesCall_forwarded {anthropicVersion : String} {h : Headers} {body : Dict K}
    {call : Call K} {stream : Bool}
    (hcall : messagesCall anthropicVersion h body = .ok (call, stream)) :
    Forwarded anthropicVersion h body call := by
  unfold messagesCall at hcall
  obtain ⟨hasImage, -, hcall⟩ := Outcomes.bind_eq_ok.1 hcall
  cases hcall
  rw [get_stripUnsupported (by decide) (by decide)]
  refine forwarded_of rfl ?_ ?_
  · dsimp only
    split_ifs
    · exact List.Sublist.refl _
    · exact List.filter_sublist
  · intro f hf hleft
    dsimp only
    split_ifs with hstream
    · exact hleft
    · have hne : f ≠ "stream" := fun heq => hstream (hf.2 heq)
      exact (has_iff _ f).2 ((mem_keys_filter _ (fun f => f ≠ "stream") f).2
        ⟨(has_iff _ f).1 hleft, hne⟩)

/-- The document of a request after its model has been renamed. -/
def renamed (body : Dict K) : Dict K :=
  match Json.get body "model" with
  | .str name =>
      if mapModel name = name then body else Json.setItem body "model" (.str (mapModel name))
  | _ => body

/-- What `/v1/messages/count_tokens` sends on: the document with its model renamed, stripped in the
same way. -/
theorem countTokensCall_forwarded {anthropicVersion : String} {h : Headers} {body : Dict K}
    {call : Call K} (hcall : countTokensCall anthropicVersion h body = .ok call) :
    Forwarded anthropicVersion h (renamed body) call := by
  unfold countTokensCall at hcall
  obtain ⟨mapped, hmapped, hcall⟩ := Outcomes.bind_eq_ok.1 hcall
  cases hcall
  have hrenamed : mapped = renamed body := by
    unfold withMappedModel at hmapped
    unfold renamed
    cases hmodel : Json.get body "model" with
    | str name =>
        simp only [hmodel, Except.ok.injEq] at hmapped
        exact hmapped.symm
    | _ =>
        simp only [hmodel] at hmapped
        split_ifs at hmapped
        · cases hmapped
        · exact (Except.ok.inj hmapped).symm
  subst hrenamed
  have hheaders : upstreamContractHeaders anthropicVersion h =
      upstreamContractHeaders anthropicVersion h ++ visionHeaders false := (List.append_nil _).symm
  exact forwarded_of hheaders (List.Sublist.refl _) (fun f _ hleft => hleft)

/-! ## Images in a request -/

/-- An image is reached from a request: from the content of a message, or from the system prompt. -/
def HasImage (body : Dict K) : Prop :=
  (∃ messages msg, Json.get body "messages" = .list messages ∧ .dict msg ∈ messages ∧
    ShowsImage (Json.get msg "content")) ∨ ShowsImage (Json.get body "system")

/-- The dictionaries among what a loop goes through are the elements of a list. -/
lemma dict_mem_iterate {v : Json K} {items : List (Json K)}
    (h : AnthropicAdapter.iterate (v.orElse (.list [])) = .ok items) (msg : Dict K) :
    .dict msg ∈ items ↔ ∃ messages, v = .list messages ∧ .dict msg ∈ messages := by
  unfold Json.orElse at h
  by_cases htruthy : v.truthy = true
  · rw [if_pos htruthy] at h
    cases v with
    | list xs =>
        cases h
        simp
    | dict fields =>
        cases h
        simp
    | str s =>
        cases h
        simp
    | _ => cases h
  · rw [if_neg htruthy] at h
    cases h
    cases v with
    | list xs =>
        have hempty : xs = [] := by simpa [Json.truthy] using htruthy
        simp [hempty]
    | _ => simp

omit [PyFloat K] in
lemma any_scanMessage (messages : List (Json K)) : messages.any scanMessage = true ↔
    ∃ msg, .dict msg ∈ messages ∧ ShowsImage (Json.get msg "content") := by
  rw [List.any_eq_true]
  constructor
  · rintro ⟨v, hmem, hscan⟩
    cases v with
    | dict msg => exact ⟨msg, hmem, (scan_iff _).1 hscan⟩
    | _ => cases hscan
  · rintro ⟨msg, hmem, hshows⟩
    exact ⟨.dict msg, hmem, (scan_iff _).2 hshows⟩

lemma anthropicHasImage_iff {body : Dict K} {b : Bool} (h : anthropicHasImage body = .ok b) :
    b = true ↔ HasImage body := by
  unfold anthropicHasImage at h
  obtain ⟨messages, hmessages, h⟩ := Outcomes.bind_eq_ok.1 h
  cases h
  rw [Bool.or_eq_true, any_scanMessage, scan_iff, HasImage]
  simp only [dict_mem_iterate hmessages]
  constructor
  · rintro (⟨msg, ⟨messages, heq, hmem⟩, hshows⟩ | hsystem)
    · exact .inl ⟨messages, msg, heq, hmem, hshows⟩
    · exact .inr hsystem
  · rintro (⟨messages, msg, heq, hmem, hshows⟩ | hsystem)
    · exact .inl ⟨msg, ⟨messages, heq, hmem⟩, hshows⟩
    · exact .inr hsystem

/-- The header that tells of an image, beside those of the contract. -/
def visionHeader : String := "Copilot-Vision-Request"

lemma lookup_visionHeader (anthropicVersion : String) (h : Headers) (hasImage : Bool) :
    (upstreamContractHeaders anthropicVersion h ++ visionHeaders hasImage).lookup visionHeader =
      if hasImage then some "true" else none := by
  by_cases hempty : forwardableBetas (h "anthropic-beta") = ∅
  · cases hasImage <;>
      simp [upstreamContractHeaders, hempty, visionHeaders, visionHeader, List.lookup_cons]
  · cases hasImage <;>
      simp [upstreamContractHeaders, hempty, visionHeaders, visionHeader, List.lookup_cons]

/-- The header is sent if and only if the client's request shows an image. -/
lemma messagesCall_vision {anthropicVersion : String} {h : Headers} {body : Dict K} {call : Call K}
    {stream : Bool} (hcall : messagesCall anthropicVersion h body = .ok (call, stream)) :
    call.headers.lookup visionHeader = some "true" ↔ HasImage body := by
  unfold messagesCall at hcall
  obtain ⟨hasImage, himage, hcall⟩ := Outcomes.bind_eq_ok.1 hcall
  cases hcall
  have hiff := anthropicHasImage_iff himage
  rw [HasImage, get_stripUnsupported (by decide) (by decide),
    get_stripUnsupported (by decide) (by decide)] at hiff
  rw [lookup_visionHeader, HasImage, ← hiff]
  cases hasImage <;> simp

end Calls

end Requests
end TokenFoundry
