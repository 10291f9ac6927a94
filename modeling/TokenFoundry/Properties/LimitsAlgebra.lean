import TokenFoundry.Framework.JsonText
import TokenFoundry.Services.KeyLimits
import Mathlib.Data.List.Induction

/-!
# The algebra of the limits map

Limits, audit flags and removals of any number of subscriptions follow one another on one map.
`limits_algebra` reads the map that they leave off their history: the entry of a subscription has
the limits of the last limits operation and the flag of the last audit operation since the
subscription was last removed, and nothing else is in the map.  The two kinds of operations commute,
the map stays within the size limit, and what only takes away never raises.
-/

set_option autoImplicit false

namespace TokenFoundry
namespace KeyLimits

/-! ## Operations and their history -/

/-- A call of one of the three merges: the limits of a subscription, the audit flag of several, or
the removal of an entry. -/
inductive Op
  | limits (subId : String) (tpm : Option ℤ) (quotaTier period : Option String)
  | audit (subIds : List String) (enabled : Bool)
  | remove (subId : String)

def Op.apply : Op → LimitsMap → Except PyErr LimitsMap
  | .limits subId tpm quotaTier period, m => mergeKeyLimit m subId tpm quotaTier period
  | .audit subIds enabled, m => mergeAuditFlag m subIds enabled
  | .remove subId, m => .ok (removeKeyLimit m subId)

/-- A sequence of operations on the empty map, if none of them raises. -/
def runOps (ops : List Op) : Except PyErr LimitsMap := ops.foldlM (fun m op => op.apply m) ∅

/-- The operation is about the subscription; the others are left alone by it. -/
def Op.touches (s : String) : Op → Prop
  | .limits subId _ _ _ => s = subId
  | .audit subIds _ => s ∈ subIds
  | .remove subId => s = subId

def Op.removes (s : String) : Op → Bool
  | .remove subId => decide (s = subId)
  | _ => false

/-- The limit fields of an entry, without its audit flag. -/
structure Limits where
  t : Option ℤ
  qt : Option String
  p : Option String

def Entry.limits (e : Entry) : Limits := ⟨e.t, e.qt, e.p⟩

/-- The limits that an operation gives to the subscription; the tier `none` is no tier. -/
def Op.limitsOf (s : String) : Op → Option Limits
  | .limits subId tpm quotaTier period =>
      if s = subId then some ⟨tpm, quotaTier.filter (fun q => q ≠ "none"), period⟩ else none
  | _ => none

/-- The audit flag that an operation gives to the subscription. -/
def Op.auditOf (s : String) : Op → Option Bool
  | .audit subIds enabled => if s ∈ subIds then some enabled else none
  | _ => none

/-- The operations since the last removal of the subscription, the latest one first. -/
def sinceRemoval (s : String) (ops : List Op) : List Op :=
  ops.reverse.takeWhile (fun op => ! op.removes s)

/-- The limits of the last limits operation since the last removal. -/
def lastLimits (s : String) (ops : List Op) : Limits :=
  ((sinceRemoval s ops).findSome? (Op.limitsOf s)).getD ⟨none, none, none⟩

/-- Whether the last audit operation since the last removal has enabled the flag. -/
def lastAudit (s : String) (ops : List Op) : Bool :=
  ((sinceRemoval s ops).findSome? (Op.auditOf s)).getD false

lemma runOps_concat (ops : List Op) (op : Op) : runOps (ops ++ [op]) = runOps ops >>= op.apply := by
  unfold runOps
  rw [List.foldlM_append]
  simp only [List.foldlM_cons, List.foldlM_nil, bind_pure]

lemma sinceRemoval_concat (s : String) (ops : List Op) (op : Op) :
    sinceRemoval s (ops ++ [op]) = if op.removes s then [] else op :: sinceRemoval s ops := by
  unfold sinceRemoval
  rw [List.reverse_concat, List.takeWhile_cons]
  cases op.removes s <;> rfl

lemma lastLimits_concat (s : String) (ops : List Op) (op : Op) :
    lastLimits s (ops ++ [op]) =
      if op.removes s then ⟨none, none, none⟩ else (op.limitsOf s).getD (lastLimits s ops) := by
  unfold lastLimits
  rw [sinceRemoval_concat]
  split_ifs with h
  · rfl
  · rw [List.findSome?_cons]
    cases op.limitsOf s <;> rfl

lemma lastAudit_concat (s : String) (ops : List Op) (op : Op) :
    lastAudit s (ops ++ [op]) =
      if op.removes s then false else (op.auditOf s).getD (lastAudit s ops) := by
  unfold lastAudit
  rw [sinceRemoval_concat]
  split_ifs with h
  · rfl
  · rw [List.findSome?_cons]
    cases op.auditOf s <;> rfl

/-! ## Views of a map -/

/-- The entry of a subscription; it is empty where there is none. -/
def view (m : LimitsMap) (s : String) : Entry := (m.lookup s).getD .empty

def NoEmptyEntry (m : LimitsMap) : Prop := ∀ s e, m.lookup s = some e → e ≠ .empty

def flagOf (enabled : Bool) : Option ℤ := if enabled then some 1 else none

section Views

variable {m m' : LimitsMap} {s s' : String} {e : Entry} {enabled : Bool}

@[simp] lemma view_empty (s : String) : view ∅ s = .empty := by
  rw [view, Finmap.lookup_empty, Option.getD_none]

/-- A map without empty entries is known by its views. -/
lemma eq_of_view (hm : NoEmptyEntry m) (hm' : NoEmptyEntry m') (h : ∀ s, view m s = view m' s) :
    m = m' := by
  refine Finmap.ext_lookup (fun s => ?_)
  have hs := h s
  unfold view at hs
  cases hl : m.lookup s with
  | none =>
      cases hl' : m'.lookup s with
      | none => rfl
      | some e' =>
          rw [hl, hl'] at hs
          exact absurd hs.symm (hm' s e' hl')
  | some e =>
      cases hl' : m'.lookup s with
      | none =>
          rw [hl, hl'] at hs
          exact absurd hs (hm s e hl)
      | some e' =>
          rw [hl, hl'] at hs
          exact congrArg some hs

lemma view_store : view (store m s e) s' = if s' = s then e else view m s' := by
  unfold view
  rw [lookup_store]
  split_ifs with hs he
  · rw [he, Option.getD_none]
  · rfl
  · rfl

lemma noEmptyEntry_store (hm : NoEmptyEntry m) : NoEmptyEntry (store m s e) := by
  intro s' e' h
  rw [lookup_store] at h
  split_ifs at h with hs he
  · cases h
    exact he
  · exact hm s' e' h

lemma view_erase : view (removeKeyLimit m s) s' = if s' = s then .empty else view m s' := by
  unfold view removeKeyLimit
  split_ifs with hs
  · rw [hs, Finmap.lookup_erase, Option.getD_none]
  · rw [Finmap.lookup_erase_ne hs]

lemma noEmptyEntry_erase (hm : NoEmptyEntry m) : NoEmptyEntry (removeKeyLimit m s) := by
  intro s' e' h
  unfold removeKeyLimit at h
  by_cases hs : s' = s
  · rw [hs, Finmap.lookup_erase] at h
    cases h
  · rw [Finmap.lookup_erase_ne hs] at h
    exact hm s' e' h

lemma view_flagEntry :
    view (flagEntry enabled m s) s' =
      if s' = s then { view m s' with a := flagOf enabled } else view m s' := by
  unfold flagEntry
  rw [view_store]
  by_cases hs : s' = s
  · rw [if_pos hs, if_pos hs, hs]
    rfl
  · rw [if_neg hs, if_neg hs]

/-- The flag of every listed subscription is set, and nothing else. -/
lemma view_foldl_flagEntry (ids : List String) (m : LimitsMap) (s : String) :
    view (ids.foldl (flagEntry enabled) m) s =
      if s ∈ ids then { view m s with a := flagOf enabled } else view m s := by
  induction ids generalizing m with
  | nil => rfl
  | cons s' ids ih =>
      rw [List.foldl_cons, ih, view_flagEntry]
      by_cases hids : s ∈ ids
      · by_cases hs : s = s' <;> simp [hids, hs]
      · by_cases hs : s = s' <;> simp [hids, hs]

lemma noEmptyEntry_foldl (ids : List String) (hm : NoEmptyEntry m) :
    NoEmptyEntry (ids.foldl (flagEntry enabled) m) := by
  induction ids generalizing m with
  | nil => exact hm
  | cons s' ids ih => exact ih (noEmptyEntry_store hm)

end Views

/-! ## What an operation does -/

section Steps

variable {m m' : LimitsMap} {op : Op}

/-- The entry of a subscription after an operation, given the entry before it; the empty entry
stands for none. -/
def Op.update (op : Op) (s : String) (e : Entry) : Entry :=
  if op.removes s then .empty
  else
    let limits := (op.limitsOf s).getD e.limits
    ⟨limits.t, limits.qt, limits.p,
      match op with
      | .limits subId _ _ _ => if s = subId then e.a.filter (fun n => n ≠ 0) else e.a
      | _ => ((op.auditOf s).map flagOf).getD e.a⟩

lemma view_apply (h : op.apply m = .ok m') (s : String) : view m' s = op.update s (view m s) := by
  cases op with
  | limits subId tpm quotaTier period =>
      obtain ⟨rfl, -⟩ := mergeKeyLimit_eq_ok h
      rw [view_store]
      by_cases hs : s = subId
      · subst hs
        rw [if_pos rfl]
        unfold Op.update
        simp only [Op.removes, Op.limitsOf, if_true, Bool.false_eq_true, if_false, Option.getD_some]
        rfl
      · simp [Op.update, Op.removes, Op.limitsOf, hs, Entry.limits]
  | audit subIds enabled =>
      obtain ⟨rfl, -⟩ := mergeAuditFlag_eq_ok h
      rw [view_foldl_flagEntry]
      by_cases hs : s ∈ subIds
      · simp [Op.update, Op.removes, Op.limitsOf, Op.auditOf, hs, Entry.limits]
      · simp [Op.update, Op.removes, Op.limitsOf, Op.auditOf, hs, Entry.limits]
  | remove subId =>
      cases h
      rw [view_erase]
      by_cases hs : s = subId
      · simp [Op.update, Op.removes, hs]
      · simp [Op.update, Op.removes, Op.limitsOf, Op.auditOf, hs, Entry.limits]

lemma noEmptyEntry_apply (hm : NoEmptyEntry m) (h : op.apply m = .ok m') : NoEmptyEntry m' := by
  cases op with
  | limits subId tpm quotaTier period =>
      obtain ⟨rfl, -⟩ := mergeKeyLimit_eq_ok h
      exact noEmptyEntry_store hm
  | audit subIds enabled =>
      obtain ⟨rfl, -⟩ := mergeAuditFlag_eq_ok h
      exact noEmptyEntry_foldl subIds hm
  | remove subId =>
      cases h
      exact noEmptyEntry_erase hm

/-- What an operation is not about, it leaves alone: the entry of every other subscription is found
as before. -/
lemma lookup_apply_of_not_touches {s : String} (h : op.apply m = .ok m') (hs : ¬ op.touches s) :
    m'.lookup s = m.lookup s := by
  cases op with
  | limits subId tpm quotaTier period =>
      obtain ⟨rfl, -⟩ := mergeKeyLimit_eq_ok h
      have hne : ¬ s = subId := hs
      rw [lookup_store, if_neg hne]
  | audit subIds enabled =>
      obtain ⟨rfl, -⟩ := mergeAuditFlag_eq_ok h
      exact lookup_foldl_flagEntry_of_notMem hs m
  | remove subId =>
      cases h
      exact Finmap.lookup_erase_ne hs

end Steps

/-! ## The text of the map

`dumpsLength` is what the merges compare with the limit.  It is the length of the text that is
written, whatever the order of the keys: every character counts with its escape, and between two
members there is a comma.
-/

section Text

variable {K : Type} (ft : JsonText.FloatText K)

lemma length_escape (c : Char) : (JsonText.escape true c).length = escapedLength c := by
  have hspace : ' ' ≤ c ↔ 32 ≤ c.toNat := Iff.rfl
  have htilde : c ≤ '~' ↔ c.toNat ≤ 126 := Iff.rfl
  unfold JsonText.escape escapedLength
  by_cases hshort : c = '"' ∨ c = '\\' ∨ c = '\n' ∨ c = '\r' ∨ c = '\t' ∨ c.toNat = 8 ∨ c.toNat = 12
  · rw [if_pos hshort]
    split_ifs <;> simp_all
  · rw [if_neg hshort]
    simp only [not_or] at hshort
    obtain ⟨hquote, hback, hline, hreturn, htab, hbell, hform⟩ := hshort
    rw [if_neg hquote, if_neg hback, if_neg hline, if_neg hreturn, if_neg htab, if_neg hbell,
      if_neg hform]
    simp only [hspace, htilde]
    by_cases hcontrol : c.toNat < 32
    · rw [if_pos hcontrol, if_neg (fun h => hcontrol.not_ge h.1), if_pos (by omega)]
      rfl
    rw [if_neg hcontrol]
    by_cases hascii : 126 < c.toNat
    · have hwritten : ¬ (32 ≤ c.toNat ∧ c.toNat ≤ 126) := fun h => hascii.not_ge h.2
      rw [if_pos (by simpa using hascii), if_neg hwritten]
      by_cases hwide : c.toNat < 0x10000
      · have hshown : c.toNat ≤ 0xFFFF := Nat.le_of_lt_succ hwide
        rw [if_pos hwide, if_pos hshown]
        rfl
      · rw [if_neg hwide, if_neg (fun h => hwide (Nat.lt_succ_of_le h))]
        rfl
    · rw [if_neg (by simpa using hascii), if_pos ⟨not_lt.1 hcontrol, not_lt.1 hascii⟩]
      rfl

lemma length_quote (s : String) : (JsonText.quote true s).length = stringLength s := by
  have hlength : (JsonText.escape true · |>.length) = escapedLength := funext length_escape
  rw [JsonText.quote, stringLength, List.length_cons, List.length_append, List.length_flatMap,
    hlength, List.length_singleton]
  omega

lemma length_intText (n : ℤ) : (JsonText.intText n).length = intLength n := by
  cases n with
  | ofNat n => simp [JsonText.intText, intLength, toString, Int.repr, Nat.repr]
  | negSucc n =>
      simp only [JsonText.intText, intLength, toString, Int.repr, Nat.repr, List.length_cons,
        String.length_append, String.length_ofList]
      exact Nat.add_comm _ 1

/-- Between two members there is a comma, so that the members' lengths add up to all but the
commas. -/
lemma length_dumpsFields (fields : Dict K) :
    (JsonText.dumpsFields ft ⟨true, true⟩ fields).length =
      (fields.map (fun x => stringLength x.1 + 1 +
        (JsonText.dumps ft ⟨true, true⟩ x.2).length)).sum + (fields.length - 1) := by
  induction fields with
  | nil => rfl
  | cons x fields ih =>
      obtain ⟨key, v⟩ := x
      cases fields with
      | nil =>
          have hone : JsonText.dumpsFields ft ⟨true, true⟩ [(key, v)] =
              JsonText.quote true key ++ ':' :: JsonText.dumps ft ⟨true, true⟩ v := rfl
          rw [hone, List.length_append, length_quote, List.length_cons]
          simp
          omega
      | cons y fields =>
          have hstep : JsonText.dumpsFields ft ⟨true, true⟩ ((key, v) :: y :: fields) =
              JsonText.quote true key ++ ':' :: (JsonText.dumps ft ⟨true, true⟩ v ++
                ',' :: JsonText.dumpsFields ft ⟨true, true⟩ (y :: fields)) := rfl
          rw [hstep, List.length_append, length_quote, List.length_cons, List.length_append,
            List.length_cons, ih]
          simp only [List.map_cons, List.sum_cons, List.length_cons]
          omega

/-- An entry as it is written: without the fields that it does not have. -/
def Entry.members (e : Entry) : Dict K :=
  (e.t.map (fun n => ("t", Json.int n))).toList ++
    (e.qt.map (fun s => ("qt", Json.str s))).toList ++
    (e.p.map (fun s => ("p", Json.str s))).toList ++ (e.a.map (fun n => ("a", Json.int n))).toList

lemma length_dumps_members (e : Entry) :
    (JsonText.dumps ft ⟨true, true⟩ (.dict e.members)).length = e.dumpsLength := by
  have hmembers : e.members.map (fun x => stringLength x.1 + 1 +
      (JsonText.dumps ft ⟨true, true⟩ x.2).length) = e.memberLengths := by
    obtain ⟨t, qt, p, a⟩ := e
    cases t <;> cases qt <;> cases p <;> cases a <;>
      simp [Entry.members, Entry.memberLengths, JsonText.dumps, length_intText, length_quote]
  have hcount := congrArg List.length hmembers
  rw [List.length_map] at hcount
  rw [JsonText.dumps, List.length_cons, List.length_append, length_dumpsFields, hmembers, hcount,
    Entry.dumpsLength, List.length_singleton]
  omega

/-- **The size is the length of the text**, in whatever order the keys are written. -/
theorem length_dumps_map {m : LimitsMap} {entries : List (Σ _ : String, Entry)}
    (h : (entries : Multiset _) = m.entries) :
    (JsonText.dumps ft ⟨true, true⟩
      (.dict (entries.map (fun x => (x.1, .dict x.2.members))))).length = dumpsLength m := by
  rw [JsonText.dumps, List.length_cons, List.length_append, length_dumpsFields, List.map_map,
    List.length_map, dumpsLength, ← h, Multiset.map_coe, Multiset.sum_coe, Multiset.coe_card,
    List.length_singleton]
  simp only [Function.comp_def, length_dumps_members]
  omega

end Text

/-! ## The size of the serialised map -/

section Size

variable {m : LimitsMap} {s : String}

/-- The length that a member of the map adds: its quoted name, the colon and the entry. -/
def memberLength (s : String) (e : Entry) : ℕ := stringLength s + 1 + e.dumpsLength

lemma dumpsLength_insert {e : Entry} (hs : s ∉ m) :
    dumpsLength (m.insert s e) =
      2 + (memberLength s e + (m.entries.map (fun x => memberLength x.1 x.2)).sum) +
        Multiset.card m.entries := by
  unfold dumpsLength
  rw [Finmap.entries_insert_of_notMem hs, Multiset.map_cons, Multiset.sum_cons, Multiset.card_cons,
    Nat.add_sub_cancel]
  rfl

/-- A map with an entry is the map without it and the entry. -/
lemma insert_erase_self {e : Entry} (h : m.lookup s = some e) : (m.erase s).insert s e = m := by
  refine Finmap.ext_lookup (fun s' => ?_)
  by_cases hs : s' = s
  · rw [hs, Finmap.lookup_insert, h]
  · rw [Finmap.lookup_insert_of_ne _ hs, Finmap.lookup_erase_ne hs]

lemma notMem_erase_self : s ∉ m.erase s := fun h => Finmap.notMem_erase_self h

lemma dumpsLength_eq (m : LimitsMap) :
    dumpsLength m = 2 + (m.entries.map (fun x => memberLength x.1 x.2)).sum +
      (Multiset.card m.entries - 1) := rfl

lemma dumpsLength_erase_le (m : LimitsMap) (s : String) :
    dumpsLength (m.erase s) ≤ dumpsLength m := by
  cases h : m.lookup s with
  | none =>
      have hsame : m.erase s = m := by
        refine Finmap.ext_lookup (fun s' => ?_)
        by_cases hs : s' = s
        · rw [hs, Finmap.lookup_erase, h]
        · rw [Finmap.lookup_erase_ne hs]
      rw [hsame]
  | some e =>
      have hins := dumpsLength_insert (m := m.erase s) (e := e) notMem_erase_self
      rw [insert_erase_self h] at hins
      rw [hins, dumpsLength_eq]
      omega

/-- A smaller entry makes a smaller map, if it replaces one that is there. -/
lemma dumpsLength_insert_le {e e' : Entry} (h : m.lookup s = some e)
    (hle : e'.dumpsLength ≤ e.dumpsLength) : dumpsLength (m.insert s e') ≤ dumpsLength m := by
  have hins := dumpsLength_insert (m := m.erase s) (e := e) notMem_erase_self
  have hins' := dumpsLength_insert (m := m.erase s) (e := e') notMem_erase_self
  have hsame : (m.erase s).insert s e' = m.insert s e' := by
    refine Finmap.ext_lookup (fun s' => ?_)
    by_cases hs : s' = s
    · rw [hs, Finmap.lookup_insert, Finmap.lookup_insert]
    · rw [Finmap.lookup_insert_of_ne _ hs, Finmap.lookup_insert_of_ne _ hs,
        Finmap.lookup_erase_ne hs]
  rw [insert_erase_self h] at hins
  rw [hsame] at hins'
  rw [hins, hins']
  simp only [memberLength]
  omega

lemma dumpsLength_unflagged (e : Entry) :
    ({ e with a := none } : Entry).dumpsLength ≤ e.dumpsLength := by
  unfold Entry.dumpsLength Entry.memberLengths
  cases e.a with
  | none => simp
  | some n =>
      simp only [Option.map_none, Option.toList_none, Option.map_some, Option.toList_some,
        List.append_nil, List.sum_append, List.length_append, List.sum_singleton,
        List.length_singleton]
      omega

/-- Switching a flag off makes no map larger: the field is dropped, or the whole entry with it. -/
lemma dumpsLength_flagEntry_le (m : LimitsMap) (s : String) :
    dumpsLength (flagEntry false m s) ≤ dumpsLength m := by
  unfold flagEntry store
  cases h : m.lookup s with
  | none => exact dumpsLength_erase_le m s
  | some e =>
      simp only [Option.getD_some, Bool.false_eq_true, if_false]
      split_ifs with hempty
      · exact dumpsLength_erase_le m s
      · exact dumpsLength_insert_le h (dumpsLength_unflagged e)

lemma dumpsLength_foldl_le (ids : List String) (m : LimitsMap) :
    dumpsLength (ids.foldl (flagEntry false) m) ≤ dumpsLength m := by
  induction ids generalizing m with
  | nil => exact le_rfl
  | cons s ids ih => exact (ih _).trans (dumpsLength_flagEntry_le m s)

/-- Within the size limit, audit can be switched off, for as many subscriptions as the request
names. -/
lemma mergeAuditFlag_false (h : dumpsLength m ≤ keyLimitsMaxBytes) (ids : List String) :
    mergeAuditFlag m ids false = .ok (ids.foldl (flagEntry false) m) := by
  unfold mergeAuditFlag
  dsimp only
  rw [if_neg (not_lt.2 ((dumpsLength_foldl_le ids m).trans h))]

end Size

/-! ## The whole history -/

/-- What holds of a map with this history: it has no empty entry, it shows each subscription what
the history has set last, and it is within the size limit. -/
structure Follows (ops : List Op) (m : LimitsMap) : Prop where
  noEmptyEntry : NoEmptyEntry m
  view : ∀ s, view m s =
    ⟨(lastLimits s ops).t, (lastLimits s ops).qt, (lastLimits s ops).p, flagOf (lastAudit s ops)⟩
  size : dumpsLength m ≤ keyLimitsMaxBytes

/-- An operation takes the history one step further, if it returns.  An operation that raises leaves
the map, and counts for nothing. -/
lemma Follows.apply {ops : List Op} {m m' : LimitsMap} {op : Op} (hm : Follows ops m)
    (h : op.apply m = .ok m') : Follows (ops ++ [op]) m' := by
  refine ⟨noEmptyEntry_apply hm.noEmptyEntry h, fun s => ?_, ?_⟩
  · rw [view_apply h, hm.view s, lastLimits_concat, lastAudit_concat]
    cases op with
    | limits subId tpm quotaTier period =>
        have hflag : (flagOf (lastAudit s ops)).filter (fun n => n ≠ 0) =
            flagOf (lastAudit s ops) := by
          cases lastAudit s ops <;> rfl
        by_cases hs : s = subId
        · subst hs
          simp only [Op.update, Op.removes, Op.limitsOf, Op.auditOf, if_true, Bool.false_eq_true,
            if_false, Option.getD_some, Option.getD_none, hflag]
        · simp [Op.update, Op.removes, Op.limitsOf, Op.auditOf, hs, Entry.limits]
    | audit subIds enabled =>
        by_cases hs : s ∈ subIds
        · simp [Op.update, Op.removes, Op.limitsOf, Op.auditOf, hs, Entry.limits]
        · simp [Op.update, Op.removes, Op.limitsOf, Op.auditOf, hs, Entry.limits]
    | remove subId =>
        by_cases hs : s = subId
        · simp [Op.update, Op.removes, hs, flagOf, Entry.empty]
        · simp [Op.update, Op.removes, Op.limitsOf, Op.auditOf, hs, Entry.limits]
  · cases op with
    | limits subId tpm quotaTier period => exact (mergeKeyLimit_eq_ok h).2
    | audit subIds enabled => exact (mergeAuditFlag_eq_ok h).2
    | remove subId =>
        cases h
        exact (dumpsLength_erase_le m subId).trans hm.size

lemma follows_runOps {ops : List Op} {m : LimitsMap} (h : runOps ops = .ok m) : Follows ops m := by
  induction ops using List.reverseRecOn generalizing m with
  | nil =>
      cases h
      refine ⟨fun s e he => ?_, fun s => ?_, by decide⟩
      · rw [Finmap.lookup_empty] at he
        cases he
      · rw [view_empty]
        rfl
  | append_singleton ops op ih =>
      rw [runOps_concat] at h
      cases hm : runOps ops with
      | error e =>
          rw [hm] at h
          cases h
      | ok m₀ =>
          rw [hm] at h
          exact (ih hm).apply h

/-- Limits and audit operations end in one map, whichever comes first. -/
lemma limits_audit_comm {m m₁ m₂ : LimitsMap} (hm : NoEmptyEntry m) {subId : String}
    {tpm : Option ℤ} {quotaTier period : Option String} {subIds : List String} {enabled : Bool}
    (h₁ : (Op.limits subId tpm quotaTier period).apply m = .ok m₁)
    (h₂ : (Op.audit subIds enabled).apply m = .ok m₂) :
    ((Op.audit subIds enabled).apply m₁).toOption =
      ((Op.limits subId tpm quotaTier period).apply m₂).toOption := by
  obtain ⟨rfl, -⟩ := mergeKeyLimit_eq_ok h₁
  obtain ⟨rfl, -⟩ := mergeAuditFlag_eq_ok h₂
  set entry : Entry → Entry := fun prior =>
    ⟨tpm, quotaTier.filter (fun q => q ≠ "none"), period,
      prior.a.filter (fun n => n ≠ 0)⟩ with hentry
  set flagged := subIds.foldl (flagEntry enabled) m with hflagged
  have hsame : subIds.foldl (flagEntry enabled) (store m subId (entry (view m subId))) =
      store flagged subId (entry (view flagged subId)) := by
    refine eq_of_view (noEmptyEntry_foldl subIds (noEmptyEntry_store hm))
      (noEmptyEntry_store (noEmptyEntry_foldl subIds hm)) (fun s => ?_)
    have hflag : (flagOf enabled).filter (fun n => n ≠ 0) = flagOf enabled := by
      cases enabled <;> rfl
    rw [view_foldl_flagEntry, view_store, view_store, hflagged, view_foldl_flagEntry,
      view_foldl_flagEntry]
    by_cases hs : s = subId
    · subst hs
      by_cases hids : s ∈ subIds
      · simp only [hentry, hids, if_true, hflag]
      · simp only [hentry, hids, if_true, if_false]
    · simp only [if_neg hs]
  have hleft : (Op.audit subIds enabled).apply (store m subId (entry (view m subId))) =
      mergeAuditFlag (store m subId (entry (view m subId))) subIds enabled := rfl
  have hright : (Op.limits subId tpm quotaTier period).apply flagged =
      mergeKeyLimit flagged subId tpm quotaTier period := rfl
  have hstored : store flagged subId ⟨tpm, quotaTier.filter (fun q => q ≠ "none"), period,
      ((flagged.lookup subId).getD .empty).a.filter (fun n => n ≠ 0)⟩ =
      store flagged subId (entry (view flagged subId)) := rfl
  show ((Op.audit subIds enabled).apply (store m subId (entry (view m subId)))).toOption = _
  rw [hleft, hright, mergeAuditFlag, mergeKeyLimit, hsame, hstored]
  split_ifs <;> rfl

/-- **The algebra of the limits map.**  After any operations on the empty map of which none has
raised: every subscription has the limits and the flag of its last operations since its last
removal, no entry is empty, an operation leaves all other subscriptions untouched, the text of the
map is within the limit, limits and audit operations commute, and removals and switching audit off
do not raise. -/
theorem limits_algebra (ops : List Op) (m : LimitsMap) (h : runOps ops = .ok m) :
    (∀ s, (view m s).limits = lastLimits s ops ∧
      (view m s).a = if lastAudit s ops then some 1 else none) ∧
    (∀ s e, m.lookup s = some e → e ≠ .empty) ∧
    (∀ (op : Op) (m' : LimitsMap) (s : String), op.apply m = .ok m' → ¬ op.touches s →
      m'.lookup s = m.lookup s) ∧
    dumpsLength m ≤ keyLimitsMaxBytes ∧
    (∀ subId tpm quotaTier period subIds enabled m₁ m₂,
      (Op.limits subId tpm quotaTier period).apply m = .ok m₁ →
      (Op.audit subIds enabled).apply m = .ok m₂ →
      ((Op.audit subIds enabled).apply m₁).toOption =
        ((Op.limits subId tpm quotaTier period).apply m₂).toOption) ∧
    (∀ subId, ∃ m', (Op.remove subId).apply m = .ok m') ∧
    (∀ subIds, ∃ m', (Op.audit subIds false).apply m = .ok m') := by
  have hm := follows_runOps h
  refine ⟨fun s => ?_, hm.noEmptyEntry, fun op m' s hop hs => lookup_apply_of_not_touches hop hs,
    hm.size, fun _ _ _ _ _ _ _ _ => limits_audit_comm hm.noEmptyEntry, fun _ => ⟨_, rfl⟩,
    fun subIds => ⟨_, mergeAuditFlag_false hm.size subIds⟩⟩
  rw [hm.view s]
  exact ⟨rfl, rfl⟩

/-- Two keys: the first one has limits, both are audited, and the limits of the first are taken
away. -/
def twoKeys : List Op :=
  [.limits "k1" (some 100) (some "gold") (some "Monthly"), .audit ["k1", "k2"] true,
    .limits "k1" none (some "none") none]

/-- The flag of the first key is still there, and its limits are not. -/
theorem limits_algebra_twoKeys : ∃ m, runOps twoKeys = .ok m ∧
    (view m "k1").limits = ⟨none, none, none⟩ ∧ (view m "k1").a = some 1 ∧
    ∃ m', (Op.audit ["k1"] false).apply m = .ok m' := by
  cases h : runOps twoKeys with
  | error e =>
      have hok : (runOps twoKeys).isOk = true := by decide +kernel
      rw [h] at hok
      cases hok
  | ok m =>
      obtain ⟨hview, -, -, -, -, -, hoff⟩ := limits_algebra twoKeys m h
      exact ⟨m, rfl, (hview "k1").1, (hview "k1").2, hoff ["k1"]⟩

end KeyLimits
end TokenFoundry
