import TokenFoundry.Framework.Interleaving
import TokenFoundry.Models.Enums
import Mathlib.Algebra.GroupWithZero.Nat
import Mathlib.Data.Finmap

/-!
# The shared limits map (`app/services/apim_provisioner.py`)

One gateway named value holds the limits and the audit flag of every key, as a JSON object
from subscription ids to entries `{t, qt, p, a}`.  The map is a finite map and an entry a
record of its four optional fields: neither the program nor the gateway policy looks at the
order of the keys, and the size check looks at the length of the serialised text only, which
does not depend on it.

The three operations on the named value are one loop, `readMergeWrite`, with the merge of each.
The gateway behind them is a `NamedValueClient`, so that the same code runs on its own and
inside the request handlers that use it.
-/

set_option autoImplicit false

namespace TokenFoundry
namespace KeyLimits

/-! ## Entries and maps -/

/-- An entry of the map under its short keys: tokens per minute, quota tier, period, audit. -/
structure Entry where
  t : Option ℤ
  qt : Option String
  p : Option String
  a : Option ℤ
  deriving DecidableEq, Repr

/-- An entry without any field, which the map does not store. -/
def Entry.empty : Entry := ⟨none, none, none, none⟩

abbrev LimitsMap := Finmap (fun _ : String => Entry)

/-- `if entry: out[sub_id] = entry; else: out.pop(sub_id, None)`: the map holds no empty entries. -/
def store (mapping : LimitsMap) (subId : String) (entry : Entry) : LimitsMap :=
  if entry = .empty then mapping.erase subId else mapping.insert subId entry

/-! ## The size of the serialised map -/

/-- What `json.dumps` makes of one character of a string: itself, a short escape, or one or two code
units. -/
def escapedLength (c : Char) : ℕ :=
  if c = '"' ∨ c = '\\' ∨ c = '\n' ∨ c = '\r' ∨ c = '\t' ∨ c.toNat = 8 ∨ c.toNat = 12 then 2
  else if ' ' ≤ c ∧ c ≤ '~' then 1
  else if c.toNat ≤ 0xFFFF then 6
  else 12

/-- The length of a string as `json.dumps` writes it, with its quotation marks. -/
def stringLength (s : String) : ℕ := 2 + (s.toList.map escapedLength).sum

/-- The length of an integer as `json.dumps` writes it, with its sign. -/
def intLength (n : ℤ) : ℕ := (toString n).length

/-- The lengths of the members `"key":value` of an entry, for the fields that it has. -/
def Entry.memberLengths (e : Entry) : List ℕ :=
  (e.t.map (fun n => stringLength "t" + 1 + intLength n)).toList ++
  (e.qt.map (fun s => stringLength "qt" + 1 + stringLength s)).toList ++
  (e.p.map (fun s => stringLength "p" + 1 + stringLength s)).toList ++
  (e.a.map (fun n => stringLength "a" + 1 + intLength n)).toList

/-- The length of `json.dumps(entry, separators=(",", ":"))`: the members, the commas between them
and the brackets. -/
def Entry.dumpsLength (e : Entry) : ℕ :=
  2 + e.memberLengths.sum + (e.memberLengths.length - 1)

/-- The length of `json.dumps(mapping, separators=(",", ":"))`.  The order of the entries plays no
part in it. -/
def dumpsLength (m : LimitsMap) : ℕ :=
  2 + (m.entries.map (fun e => stringLength e.1 + 1 + e.2.dumpsLength)).sum +
    (Multiset.card m.entries - 1)

/-- `_KEY_LIMITS_MAX_BYTES`: what a named value of the gateway can hold. -/
def keyLimitsMaxBytes : ℕ := 4000

/-! ## The pure merges -/

/-- `_merge_key_limit`: the audit flag of the prior entry is carried over. -/
def mergeKeyLimit (mapping : LimitsMap) (subId : String) (tpm : Option ℤ)
    (quotaTier period : Option String) : Except PyErr LimitsMap :=
  let prior := (mapping.lookup subId).getD .empty
  let entry : Entry :=
    { t := tpm
      qt := quotaTier.filter (fun q => q ≠ "none")
      p := period
      a := prior.a.filter (fun n => n ≠ 0) }
  let out := store mapping subId entry
  if dumpsLength out > keyLimitsMaxBytes then
    .error (.valueError ("per-key limits map would exceed " ++ toString keyLimitsMaxBytes ++
      " bytes (" ++ toString (dumpsLength out) ++ "); too many keys have custom limits for the " ++
      "single-named-value scheme — see docs/APIM-LLM-Gateway.md §4.5"))
  else .ok out

/-- Set or clear the audit flag of one entry; an entry that holds nothing else goes with its
flag. -/
def flagEntry (enabled : Bool) (out : LimitsMap) (subId : String) : LimitsMap :=
  let entry := (out.lookup subId).getD .empty
  store out subId { entry with a := if enabled then some 1 else none }

/-- `_merge_audit_flag`: only the field `a` is touched, of the keys that are named; a map that would
be too long is refused. -/
def mergeAuditFlag (mapping : LimitsMap) (subIds : List String) (enabled : Bool) :
    Except PyErr LimitsMap :=
  let out := subIds.foldl (flagEntry enabled) mapping
  if dumpsLength out > keyLimitsMaxBytes then
    .error (.valueError ("per-key limits map would exceed " ++ toString keyLimitsMaxBytes ++
      " bytes (" ++ toString (dumpsLength out) ++ "); too many keys carry custom limits or " ++
      "audit flags for the single-named-value scheme — see docs/APIM-LLM-Gateway.md §4.5"))
  else .ok out

/-- `_remove_key_limit`: the entry goes, with its audit flag. -/
def removeKeyLimit (mapping : LimitsMap) (subId : String) : LimitsMap := mapping.erase subId

/-! ## The named value -/

/-- The text of the named value: a map of entries, or anything that reads as an empty map (an
empty text, no JSON, no object). -/
inductive NvText
  | limits (m : LimitsMap)
  | unreadable

/-- What the text of the named value is read as; a text that cannot be read counts as an empty
map. -/
def NvText.parsed : NvText → LimitsMap
  | .limits m => m
  | .unreadable => ∅

/-- What `named_value.get` returns; the object may come without an ETag. -/
structure NamedValue where
  value : NvText
  eTag : Option ℕ

/-- The `if_match` argument of a write: any state of the value, or the one with this tag. -/
inductive IfMatch
  | any
  | tag (eTag : ℕ)
  deriving DecidableEq

/-- The gateway's named value: `get` raises `ResourceNotFoundError` when there is none, `put`
raises an `HttpResponseError` of status 412 when the ETag is stale. -/
structure NamedValueClient (E : Interface PyErr) where
  get : Prog.Raising E NamedValue
  put : LimitsMap → IfMatch → Prog.Raising E Unit

section Operations

variable {E : Interface PyErr} (client : NamedValueClient E)

/-- `_read_key_limits`: the map and the tag it came with; a missing named value is an empty map
without a tag. -/
def readKeyLimits : Prog.Raising E (LimitsMap × Option ℕ) :=
  tryCatch (do
    let nv ← client.get
    return (nv.value.parsed, nv.eTag))
  (fun e => match e with
    | .resourceNotFound => return (∅, none)
    | e => throw e)

/-- `_write_key_limits`: without an ETag the write is unconditional, and overwrites whatever is
there. -/
def writeKeyLimits (mapping : LimitsMap) (eTag : Option ℕ) : Prog.Raising E Unit :=
  client.put mapping (eTag.elim .any .tag)

/-- `ensure_key_limits_nv`: the named value is created empty, if it is not there. -/
def ensureKeyLimitsNv : Prog.Raising E Unit := do
  let found ← tryCatch (do
      let _ ← client.get
      return true)
    (fun e => match e with
      | .resourceNotFound => return false
      | e => throw e)
  unless found do
    writeKeyLimits client ∅ none

/-- The loop of the three operations: read, merge, write; at a stale ETag start over while an
attempt is left.  The merge raises, returns nothing to write, or returns the new map. -/
def readMergeWrite (merge : LimitsMap → Except PyErr (Option LimitsMap)) :
    ℕ → Prog.Raising E Unit
  | 0 => return ()
  | attemptsLeft + 1 => do
      let (current, eTag) ← readKeyLimits client
      match merge current with
      | .error e => throw e
      | .ok none => return ()
      | .ok (some merged) =>
          tryCatch (writeKeyLimits client merged eTag)
            (fun e =>
              if e = .httpResponse 412 ∧ attemptsLeft ≠ 0 then
                readMergeWrite merge attemptsLeft
              else throw e)

/-- What `upsert_key_limits` does between its read and its write; it always writes. -/
def upsertMerge (subscriptionId : String) (tokensPerMinute : Option ℤ)
    (tokenQuotaTier tokenQuotaPeriod : Option String) (current : LimitsMap) :
    Except PyErr (Option LimitsMap) :=
  (mergeKeyLimit current subscriptionId tokensPerMinute tokenQuotaTier tokenQuotaPeriod).map some

/-- `upsert_key_limits`: the limits of one key are put into the map, in up to three attempts. -/
def upsertKeyLimits (subscriptionId : String) (tokensPerMinute : Option ℤ)
    (tokenQuotaTier tokenQuotaPeriod : Option String) : Prog.Raising E Unit :=
  readMergeWrite client
    (upsertMerge subscriptionId tokensPerMinute tokenQuotaTier tokenQuotaPeriod) 3

/-- What `set_audit_flag` does between its read and its write; a map that would stay the same is not
written. -/
def auditMerge (subscriptionIds : List String) (enabled : Bool) (current : LimitsMap) :
    Except PyErr (Option LimitsMap) :=
  (mergeAuditFlag current subscriptionIds enabled).map
    (fun merged => if merged = current then none else some merged)

/-- `set_audit_flag`: the flag of some keys is set or cleared, in up to three attempts; nothing is
done for no keys. -/
def setAuditFlag (subscriptionIds : List String) (enabled : Bool) : Prog.Raising E Unit :=
  if subscriptionIds = [] then return ()
  else readMergeWrite client (auditMerge subscriptionIds enabled) 3

/-- What `remove_key_limits` does between its read and its write; a key without an entry needs no
write. -/
def removeMerge (subscriptionId : String) (current : LimitsMap) :
    Except PyErr (Option LimitsMap) :=
  .ok (if subscriptionId ∈ current then some (removeKeyLimit current subscriptionId) else none)

/-- `remove_key_limits`: the entry of one key is taken out of the map, in up to three attempts. -/
def removeKeyLimits (subscriptionId : String) : Prog.Raising E Unit :=
  readMergeWrite client (removeMerge subscriptionId) 3

end Operations

/-! ## Lookups -/

lemma lookup_store (m : LimitsMap) (s s' : String) (e : Entry) :
    (store m s e).lookup s' =
      if s' = s then (if e = .empty then none else some e) else m.lookup s' := by
  unfold store
  by_cases hs : s' = s
  · subst hs
    rw [if_pos rfl]
    split_ifs with he
    · exact Finmap.lookup_erase s' m
    · exact Finmap.lookup_insert m
  · rw [if_neg hs]
    split_ifs with he
    · exact Finmap.lookup_erase_ne hs
    · exact Finmap.lookup_insert_of_ne m hs

/-- Storing the entry that is there changes nothing, and neither does storing an empty one where
there is none. -/
lemma store_self {m : LimitsMap} {s : String} {e : Entry}
    (h : m.lookup s = if e = .empty then none else some e) : store m s e = m := by
  refine Finmap.ext_lookup (fun s' => ?_)
  rw [lookup_store]
  by_cases hs : s' = s
  · rw [if_pos hs, hs, h]
  · rw [if_neg hs]

/-- A successful merge stores the entry and stays within the size limit. -/
lemma mergeKeyLimit_eq_ok {m m' : LimitsMap} {s : String} {tpm : Option ℤ}
    {tier period : Option String} (h : mergeKeyLimit m s tpm tier period = .ok m') :
    m' = store m s
      ⟨tpm, tier.filter (fun q => q ≠ "none"), period,
        ((m.lookup s).getD .empty).a.filter (fun n => n ≠ 0)⟩ ∧
      dumpsLength m' ≤ keyLimitsMaxBytes := by
  unfold mergeKeyLimit at h
  dsimp only at h
  split_ifs at h with hsize
  cases h
  exact ⟨rfl, not_lt.1 hsize⟩

lemma mergeAuditFlag_eq_ok {m m' : LimitsMap} {ids : List String} {enabled : Bool}
    (h : mergeAuditFlag m ids enabled = .ok m') :
    m' = ids.foldl (flagEntry enabled) m ∧ dumpsLength m' ≤ keyLimitsMaxBytes := by
  unfold mergeAuditFlag at h
  dsimp only at h
  split_ifs at h with hsize
  cases h
  exact ⟨rfl, not_lt.1 hsize⟩

/-! ## Which entries an operation touches, and what becomes of the audit flag -/

/-- The stored entry has the audit flag of the entry, also where it is empty and dropped. -/
lemma flag_store (m : LimitsMap) (s : String) (e : Entry) :
    ((store m s e).lookup s).bind Entry.a = e.a := by
  rw [lookup_store, if_pos rfl]
  by_cases he : e = .empty
  · rw [if_pos he, he]
    rfl
  · rw [if_neg he]
    rfl

lemma flag_flagEntry (enabled : Bool) (m : LimitsMap) (s : String) :
    ((flagEntry enabled m s).lookup s).bind Entry.a = if enabled then some 1 else none :=
  flag_store m s _

lemma lookup_flagEntry_of_ne {enabled : Bool} {m : LimitsMap} {s s' : String} (h : s' ≠ s) :
    (flagEntry enabled m s).lookup s' = m.lookup s' := by
  unfold flagEntry
  rw [lookup_store, if_neg h]

lemma lookup_foldl_flagEntry_of_notMem {enabled : Bool} {ss : List String} {s : String}
    (h : s ∉ ss) (m : LimitsMap) :
    (ss.foldl (flagEntry enabled) m).lookup s = m.lookup s := by
  induction ss generalizing m with
  | nil => rfl
  | cons s' ss ih =>
      rw [List.mem_cons, not_or] at h
      rw [List.foldl_cons, ih h.2, lookup_flagEntry_of_ne h.1]

/-- Every listed subscription ends up with the flag that was pushed. -/
lemma flag_foldl_flagEntry {enabled : Bool} {ss : List String} {s : String} (h : s ∈ ss)
    (m : LimitsMap) :
    ((ss.foldl (flagEntry enabled) m).lookup s).bind Entry.a =
      if enabled then some 1 else none := by
  induction ss generalizing m with
  | nil => cases h
  | cons s' ss ih =>
      rw [List.foldl_cons]
      by_cases hs : s ∈ ss
      · exact ih hs _
      · have heq : s = s' := (List.mem_cons.1 h).resolve_right hs
        rw [lookup_foldl_flagEntry_of_notMem hs, heq, flag_flagEntry]

lemma lookup_upsertMerge {m m' : LimitsMap} {s : String} {tpm : Option ℤ}
    {tier period : Option String} (h : upsertMerge s tpm tier period m = .ok (some m')) :
    (∀ s', s' ≠ s → m'.lookup s' = m.lookup s') ∧
      (m'.lookup s).bind Entry.a = ((m.lookup s).bind Entry.a).filter (fun n => n ≠ 0) := by
  unfold upsertMerge at h
  cases hm : mergeKeyLimit m s tpm tier period with
  | error e =>
      rw [hm] at h
      cases h
  | ok out =>
      rw [hm] at h
      have hout : out = m' := Option.some.inj (Except.ok.inj h)
      obtain ⟨heq, -⟩ := mergeKeyLimit_eq_ok hm
      rw [← hout, heq]
      refine ⟨fun s' hs' => by rw [lookup_store, if_neg hs'], ?_⟩
      have hprior : ((m.lookup s).getD .empty).a = (m.lookup s).bind Entry.a := by
        cases m.lookup s <;> rfl
      rw [flag_store, hprior]

lemma upsertMerge_ne_none {m : LimitsMap} {s : String} {tpm : Option ℤ}
    {tier period : Option String} : upsertMerge s tpm tier period m ≠ .ok none := by
  unfold upsertMerge
  cases mergeKeyLimit m s tpm tier period <;> simp [Except.map]

/-- The audit merge writes the pushed flags, or finds them in place. -/
lemma auditMerge_eq_ok {m : LimitsMap} {out : Option LimitsMap} {ss : List String}
    {enabled : Bool} (h : auditMerge ss enabled m = .ok out) :
    out.getD m = ss.foldl (flagEntry enabled) m := by
  unfold auditMerge at h
  cases hm : mergeAuditFlag m ss enabled with
  | error e =>
      rw [hm] at h
      cases h
  | ok merged =>
      rw [hm] at h
      obtain ⟨heq, -⟩ := mergeAuditFlag_eq_ok hm
      have hout : (if merged = m then none else some merged) = out := Except.ok.inj h
      rw [← hout, ← heq]
      split_ifs with hsame
      · exact hsame.symm
      · rfl

lemma removeMerge_eq_ok {m m' : LimitsMap} {s : String} (h : removeMerge s m = .ok (some m')) :
    m' = removeKeyLimit m s := by
  unfold removeMerge at h
  have hout := Except.ok.inj h
  split_ifs at hout
  exact (Option.some.inj hout).symm

/-! ## The rule of the loop -/

section Rules

variable {E : Interface PyErr} {client : NamedValueClient E} {ι W : Type} {env : Env E ι W}
variable {D : Discipline env} {ok : StepCond E ι W} {i : ι}
variable {Seen : LimitsMap → Option ℕ → W → Prop} {Q : Unit → W → Prop} {X : PyErr → W → Prop}

/-- Reading the map: an absent named value reads as an empty map without an ETag. -/
lemma wpE_readKeyLimits {w : W}
    (hget : D.wpE ok i client.get (fun nv w => Seen nv.value.parsed nv.eTag w)
      (fun e w => if e = .resourceNotFound then Seen ∅ none w else X e w) w) :
    D.wpE ok i (readKeyLimits client) (fun r w => Seen r.1 r.2 w) X w := by
  unfold readKeyLimits
  rw [Discipline.wpE_tryCatch, Discipline.wpE_bind]
  refine Discipline.wpE_mono (fun nv w h => h) (fun e w h => ?_) hget
  cases e
  case resourceNotFound => simpa using h
  all_goals simpa using h

/-- The loop: `P` before every attempt, `Seen` between its read and its write. -/
lemma wpE_readMergeWrite {merge : LimitsMap → Except PyErr (Option LimitsMap)} (P : W → Prop)
    (Seen : LimitsMap → Option ℕ → W → Prop)
    (hget : ∀ w, P w → D.wpE ok i client.get (fun nv w => Seen nv.value.parsed nv.eTag w)
      (fun e w => if e = .resourceNotFound then Seen ∅ none w else X e w) w)
    (hraise : ∀ m tag e w, Seen m tag w → merge m = .error e → X e w)
    (hnoop : ∀ m tag w, Seen m tag w → merge m = .ok none → Q () w)
    (hput : ∀ m tag m' w, Seen m tag w → merge m = .ok (some m') →
      D.wpE ok i (client.put m' (tag.elim .any .tag)) Q
        (fun e w => X e w ∧ (e = .httpResponse 412 → P w)) w)
    {n : ℕ} (hn : n ≠ 0) {w : W} (hP : P w) :
    D.wpE ok i (readMergeWrite client merge n) Q X w := by
  induction n generalizing w with
  | zero => exact absurd rfl hn
  | succ n ih =>
      unfold readMergeWrite
      rw [Discipline.wpE_bind]
      refine Discipline.wpE_mono (fun r w hseen => ?_) (fun _ _ h => h)
        (wpE_readKeyLimits (hget w hP))
      obtain ⟨m, tag⟩ := r
      dsimp only
      cases hm : merge m with
      | error e => exact hraise m tag e w hseen hm
      | ok out =>
          cases out with
          | none => exact hnoop m tag w hseen hm
          | some m' =>
              refine (Discipline.wpE_tryCatch _ _).2 ?_
              refine Discipline.wpE_mono (fun _ _ h => h) (fun e w h => ?_)
                (hput m tag m' w hseen hm)
              split_ifs with he
              · exact ih he.2 (h.2 he.1)
              · exact h.1

end Rules

/-! ### The loop of a program that runs alone -/

section Alone

open Prog.Raising (ends)

variable {E : Interface PyErr} {client : NamedValueClient E} {W : Type}
variable {h : (o : E.Call) → W → E.Reply o × W}
variable {Q : Unit → W → Prop} {X : PyErr → W → Prop}

/-- The same rule for an execution of the loop, where nobody interferes and every call is answered
or fails. -/
lemma ends_readMergeWrite {merge : LimitsMap → Except PyErr (Option LimitsMap)} (P : W → Prop)
    (Seen : LimitsMap → W → Prop)
    (hget : ∀ w, P w → ends h client.get (fun nv w => Seen nv.value.parsed w)
      (fun e w => if e = .resourceNotFound then Seen ∅ w else X e w) w)
    (hraise : ∀ m e w, Seen m w → merge m = .error e → X e w)
    (hnoop : ∀ m w, Seen m w → merge m = .ok none → Q () w)
    (hput : ∀ m im m' w, Seen m w → merge m = .ok (some m') →
      ends h (client.put m' im) Q (fun e w => X e w ∧ P w) w)
    {n : ℕ} (hn : n ≠ 0) {w : W} (hP : P w) : ends h (readMergeWrite client merge n) Q X w := by
  induction n generalizing w with
  | zero => exact absurd rfl hn
  | succ n ih =>
      have hread : ends h (readKeyLimits client) (fun r w => Seen r.1 w) X w := by
        unfold readKeyLimits
        rw [Prog.Raising.ends_tryCatch, Prog.Raising.ends_bind]
        refine Prog.Raising.ends_mono (fun nv w h => h) (fun e w h => ?_) (hget w hP)
        cases e
        case resourceNotFound => simpa using h
        all_goals simpa using h
      unfold readMergeWrite
      refine (Prog.Raising.ends_bind _ _).2 (Prog.Raising.ends_mono (fun r w hseen => ?_)
        (fun _ _ h => h) hread)
      obtain ⟨m, tag⟩ := r
      dsimp only
      cases hm : merge m with
      | error e => exact hraise m e w hseen hm
      | ok out =>
          cases out with
          | none => exact hnoop m w hseen hm
          | some m' =>
              refine (Prog.Raising.ends_tryCatch _ _).2 ?_
              refine Prog.Raising.ends_mono (fun _ _ h => h) (fun e w h => ?_)
                (hput m (tag.elim .any .tag) m' w hseen hm)
              split_ifs with he
              · exact ih he.2 h.2
              · exact h.1

end Alone

end KeyLimits
end TokenFoundry
