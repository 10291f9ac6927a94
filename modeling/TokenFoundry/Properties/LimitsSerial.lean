import TokenFoundry.Framework.VersionedCell
import TokenFoundry.Services.KeyLimits
import Mathlib.Data.List.Permutation
import Mathlib.Data.Fin.Basic

/-!
# Updates of the limits map are not lost, as long as unconditional writes find it unchanged

Any number of clients run `ensure_key_limits_nv`, `upsert_key_limits`, `set_audit_flag` and
`remove_key_limits` against one named value.  A write that carries an ETag is safe: the gateway
refuses it when the value changed.  A write without one (`if_match="*"`) is what the code sends
when the named value was absent, or came without an ETag, and it lands on whatever is there.  So
two clients that both find the named value absent both create it, and the second one erases the
limits of the first (`upsert_lost`).

`successful_serial` is the positive half.  In every run in which an unconditional write lands
only on the state its client has read, the stored map is the result of exactly the operations
that returned successfully, in some serial order.
-/

set_option autoImplicit false

namespace TokenFoundry
namespace LimitsGateway

open KeyLimits

/-! ## The gateway -/

inductive Call
  | get
  | put (mapping : LimitsMap) (ifMatch : IfMatch)

@[reducible] def Call.Answer : Call → Type
  | .get => NamedValue
  | .put _ _ => Unit

abbrev gatewayApi : Interface PyErr := ⟨Call, Call.Answer⟩

def client : NamedValueClient gatewayApi where
  get := @Prog.ask _ gatewayApi .get
  put m im := @Prog.ask _ gatewayApi (.put m im)

/-- The named value with its history, and for every client the version it last read. -/
structure World (ι : Type) where
  cell : Cell ι (Option NvText)
  seen : ι → ℕ

variable {ι : Type} [DecidableEq ι]

/-- How the gateway answers; the outside decides whether a read carries the ETag. -/
def serve (i : ι) (w : World ι) : (o : Call) → Bool → Option (gatewayApi.Reply o × World ι)
  | .get, tagged =>
      some (match w.cell.value with
          | none => .error .resourceNotFound
          | some text => .ok ⟨text, if tagged then some w.cell.version else none⟩,
        { w with seen := Function.update w.seen i w.cell.version })
  | .put m .any, _ => some (.ok (), { w with cell := w.cell.write i (some (.limits m)) })
  | .put m (.tag t), _ =>
      if w.cell.value.isSome ∧ t = w.cell.version then
        some (.ok (), { w with cell := w.cell.write i (some (.limits m)) })
      else some (.error (.httpResponse 412), w)

/-- A call may be refused with any other error, and then it has no effect. -/
def mayRaise : Call → PyErr → Bool
  | _, .httpResponse _ => true
  | _, .external => true
  | _, _ => false

def env (ι : Type) [DecidableEq ι] : Env gatewayApi ι (World ι) :=
  .faulty serve mayRaise (fun _ _ => false) (fun _ _ => False)

/-- An unconditional write lands on the version its client has read. -/
def BlindWritesCurrent : StepCond gatewayApi ι (World ι)
  | i, w, .put _ .any, _ => w.seen i = w.cell.version
  | _, _, _, _ => True

instance (i : ι) (w : World ι) (o : Call) (r : gatewayApi.Reply o) :
    Decidable (BlindWritesCurrent i w o r) := by
  unfold BlindWritesCurrent
  split <;> infer_instance

/-! ## The operations -/

/-- One call of a client: the named value is created, or the limits of a subscription, its audit
flag or its entry are changed. -/
inductive Op
  | ensure
  | upsert (subId : String) (tpm : Option ℤ) (tier period : Option String)
  | audit (subIds : List String) (enabled : Bool)
  | remove (subId : String)

/-- The code of an operation, with the calls to the management API that it makes. -/
def Op.program : Op → Prog.Raising gatewayApi Unit
  | .ensure => ensureKeyLimitsNv client
  | .upsert s tpm tier period => upsertKeyLimits client s tpm tier period
  | .audit ss enabled => setAuditFlag client ss enabled
  | .remove s => removeKeyLimits client s

/-- The effect of an operation on the map, which is what it would do if it were alone. -/
def Op.apply : Op → LimitsMap → Except PyErr LimitsMap
  | .ensure, m => .ok m
  | .upsert s tpm tier period, m => mergeKeyLimit m s tpm tier period
  | .audit ss enabled, m => if ss = [] then .ok m else mergeAuditFlag m ss enabled
  | .remove s, m => .ok (removeKeyLimit m s)

/-- The map that a named value holds; an absent one holds the empty map. -/
def mapOf (v : Option NvText) : LimitsMap := (v.map NvText.parsed).getD ∅

def World.stored (w : World ι) : LimitsMap := mapOf w.cell.value

/-- The operation of a thread leads from one value to the next. -/
def Applies (ops : ι → Op) (i : ι) (v v' : Option NvText) : Prop :=
  (ops i).apply (mapOf v) = .ok (mapOf v')

/-! ## The discipline -/

def discipline (ops : ι → Op) : Discipline (env ι) where
  inv w := w.cell.WritesFrom (Applies ops) ∧ w.cell.writers.Nodup
  rely i w w' := Cell.Past w.cell w'.cell ∧ w'.seen i = w.seen i ∧
    (i ∈ w'.cell.writers → i ∈ w.cell.writers)
  busy i w := i ∉ w.cell.writers
  rely_refl _ _ := ⟨Cell.Past.refl _, rfl, id⟩
  rely_trans _ _ _ _ h₁ h₂ :=
    ⟨h₁.1.trans h₂.1, h₂.2.1.trans h₁.2.1, fun h => h₁.2.2 (h₂.2.2 h)⟩
  drift_inv _ h := h.elim
  drift_rely _ _ h := h.elim

section Clients

variable {ops : ι → Op} {i : ι} {w : World ι}

/-- The operation took effect: it wrote, or there was nothing to write when it read. -/
def TookEffect (ops : ι → Op) (i : ι) (w : World ι) : Prop :=
  i ∈ w.cell.writers ∨ ∃ p, Cell.Past p w.cell ∧ Applies ops i p.value p.value

/-- What a client knows between its read and its write. -/
def Seen (i : ι) (m : LimitsMap) (tag : Option ℕ) (w : World ι) : Prop :=
  i ∉ w.cell.writers ∧ ∃ p, Cell.Past p w.cell ∧ m = mapOf p.value ∧ w.seen i = p.version ∧
    ∀ t ∈ tag, t = p.version

/-- The read of the loop: the thread has seen the map with its tag, and what others write afterwards
changes the tag. -/
lemma get_spec (hw : i ∉ w.cell.writers) :
    (discipline ops).wpE BlindWritesCurrent i client.get
      (fun nv w => Seen i nv.value.parsed nv.eTag w)
      (fun e w => if e = .resourceNotFound then Seen i ∅ none w else i ∉ w.cell.writers) w := by
  refine Discipline.wpE_ask (fun w₁ hR hI => ?_)
  have hi : i ∉ w₁.cell.writers := fun h => hw (hR.2.2 h)
  refine ⟨hi, fun f r w₂ ha _ => ?_⟩
  rcases Env.faulty_act ha with ⟨tagged, r₀, hs, rfl | ⟨e, he, -⟩⟩ | ⟨rfl, e, he, rfl⟩
  · obtain ⟨hr, rfl⟩ := Prod.mk.inj (Option.some.inj hs)
    refine ⟨hI, fun j hj => ⟨Cell.Past.refl _, Function.update_of_ne hj _ _, id⟩, ?_, ?_⟩
    · rintro nv rfl
      cases hv : w₁.cell.value with
      | none => simp [hv] at hr
      | some text =>
          rw [hv] at hr
          cases hr
          refine ⟨hi, w₁.cell, Cell.Past.refl _, by simp [mapOf, hv], by simp, ?_⟩
          intro t ht
          split_ifs at ht
          · exact (Option.some.inj ht).symm
          · cases ht
    · rintro e rfl
      cases hv : w₁.cell.value with
      | none =>
          rw [hv] at hr
          cases hr
          exact ⟨hi, w₁.cell, Cell.Past.refl _, by simp [mapOf, hv], by simp, by simp⟩
      | some text => simp [hv] at hr
  · cases he
  · refine ⟨hI, fun j _ => (discipline ops).rely_refl j _, by simp, ?_⟩
    rintro e' he'
    cases he'
    rw [if_neg (by rintro rfl; cases he)]
    exact hi

/-- The write of the loop.  It takes effect if the tag is still current, and the map that was seen
is then the one that is replaced. -/
lemma put_spec {m m' : LimitsMap} {tag : Option ℕ} (hseen : Seen i m tag w)
    (hm : (ops i).apply m = .ok m') :
    (discipline ops).wpE BlindWritesCurrent i (client.put m' (tag.elim .any .tag))
      (fun _ w => i ∈ w.cell.writers) (fun _ w => i ∉ w.cell.writers) w := by
  obtain ⟨hw, p, hp, rfl, hver, htag⟩ := hseen
  refine Discipline.wpE_ask (fun w₁ hR hI => ?_)
  have hi : i ∉ w₁.cell.writers := fun h => hw (hR.2.2 h)
  -- A write that lands finds the state that was read.
  have hland : p.version = w₁.cell.version →
      (discipline ops).inv { w₁ with cell := w₁.cell.write i (some (.limits m')) } ∧
        ∀ j, j ≠ i → (discipline ops).rely j w₁
          { w₁ with cell := w₁.cell.write i (some (.limits m')) } := by
    intro hcur
    have hpw : p = w₁.cell := (hp.trans hR.1).eq_of_version hcur
    refine ⟨⟨hI.1.write ?_, List.nodup_cons.2 ⟨hi, hI.2⟩⟩, fun j hj => ?_⟩
    · rw [← hpw]
      exact hm
    · exact ⟨Cell.past_write _ _ _, rfl, fun h => (List.mem_cons.1 h).resolve_left hj⟩
  refine ⟨hi, fun f r w₂ ha hok => ?_⟩
  rcases Env.faulty_act ha with ⟨x, r₀, hs, rfl | ⟨e, he, -⟩⟩ | ⟨rfl, e, he, rfl⟩
  · cases tag with
    | none =>
        obtain ⟨rfl, rfl⟩ := Prod.mk.inj (Option.some.inj hs)
        have hcur : p.version = w₁.cell.version := by
          rw [← hver, ← hR.2.1]
          exact hok
        obtain ⟨hI₂, hG⟩ := hland hcur
        exact ⟨hI₂, hG, fun _ _ => List.mem_cons_self, by simp⟩
    | some t =>
        simp only [Option.elim, serve] at hs
        split_ifs at hs with hcur
        · cases hs
          obtain ⟨hI₂, hG⟩ := hland (by rw [← htag t rfl, hcur.2])
          exact ⟨hI₂, hG, fun _ _ => List.mem_cons_self, by simp⟩
        · cases hs
          exact ⟨hI, fun j _ => (discipline ops).rely_refl j _, by simp, fun _ _ => hi⟩
  · cases he
  · exact ⟨hI, fun j _ => (discipline ops).rely_refl j _, by simp, fun _ _ => hi⟩

/-- A loop whose merge computes the effect of the operation takes effect or raises. -/
lemma loop_spec {merge : LimitsMap → Except PyErr (Option LimitsMap)}
    (hmerge : ∀ m, (ops i).apply m = (merge m).map (fun out => out.getD m))
    (hw : i ∉ w.cell.writers) :
    (discipline ops).wpE BlindWritesCurrent i (readMergeWrite client merge 3)
      (fun _ w => TookEffect ops i w) (fun _ w => i ∉ w.cell.writers) w := by
  refine wpE_readMergeWrite (fun w => i ∉ w.cell.writers) (Seen i)
    (fun w hw => get_spec hw) ?_ ?_ ?_ (by decide) hw
  · intro m tag e w hseen _
    exact hseen.1
  · intro m tag w hseen hm
    obtain ⟨-, p, hp, rfl, -⟩ := hseen
    refine .inr ⟨p, hp, ?_⟩
    rw [Applies, hmerge, hm]
    rfl
  · intro m tag m' w hseen hm
    have happly : (ops i).apply m = .ok m' := by
      rw [hmerge, hm]
      rfl
    refine Discipline.wpE_mono (fun _ w h => .inl h) (fun _ w h => ⟨h, fun _ => h⟩)
      (put_spec hseen happly)

/-- Creating the named value takes effect or raises; where the value exists already, its effect is
none. -/
lemma ensure_spec (hop : ops i = .ensure) (hw : i ∉ w.cell.writers) :
    (discipline ops).wpE BlindWritesCurrent i (ensureKeyLimitsNv client)
      (fun _ w => TookEffect ops i w) (fun _ w => i ∉ w.cell.writers) w := by
  unfold ensureKeyLimitsNv
  rw [Discipline.wpE_bind, Discipline.wpE_tryCatch, Discipline.wpE_bind]
  refine Discipline.wpE_mono (fun nv w hseen => ?_) (fun e w h => ?_) (get_spec hw)
  · -- A named value that is there is left untouched.
    obtain ⟨-, p, hp, -⟩ := hseen
    refine .inr ⟨p, hp, ?_⟩
    rw [Applies, hop]
    rfl
  · by_cases he : e = .resourceNotFound
    · rw [if_pos he] at h
      subst he
      have happly : (ops i).apply ∅ = .ok ∅ := by
        rw [hop]
        rfl
      change (discipline ops).wpE BlindWritesCurrent i (writeKeyLimits client ∅ none) _ _ w
      exact Discipline.wpE_mono (fun _ w h => .inl h) (fun _ w h => h) (put_spec h happly)
    · rw [if_neg he] at h
      cases e
      case resourceNotFound => exact absurd rfl he
      all_goals exact h

/-- Every operation takes effect or raises, and it takes effect at one moment of its run. -/
lemma program_spec (hw : i ∉ w.cell.writers) :
    (discipline ops).wpE BlindWritesCurrent i (ops i).program
      (fun _ w => TookEffect ops i w) (fun _ w => i ∉ w.cell.writers) w := by
  cases hop : ops i with
  | ensure => exact ensure_spec hop hw
  | upsert s tpm tier period =>
      refine loop_spec (fun m => ?_) hw
      rw [hop]
      change mergeKeyLimit m s tpm tier period = (Except.map some _).map _
      cases mergeKeyLimit m s tpm tier period <;> rfl
  | audit ss enabled =>
      unfold Op.program setAuditFlag
      dsimp only
      split_ifs with hss
      · refine .inr ⟨w.cell, Cell.Past.refl _, ?_⟩
        rw [Applies, hop, Op.apply, if_pos hss]
      · refine loop_spec (fun m => ?_) hw
        rw [hop, Op.apply, if_neg hss, auditMerge]
        cases mergeAuditFlag m ss enabled with
        | error e => rfl
        | ok merged =>
            by_cases heq : merged = m
            · simp [Except.map, heq]
            · simp [Except.map, heq]
  | remove s =>
      refine loop_spec (fun m => ?_) hw
      rw [hop, Op.apply, removeMerge]
      by_cases hs : s ∈ m
      · simp [Except.map, hs]
      · have herase : removeKeyLimit m s = m := by
          refine Finmap.ext_lookup (fun s' => ?_)
          by_cases hs' : s' = s
          · subst hs'
            rw [removeKeyLimit, Finmap.lookup_erase, Finmap.lookup_eq_none.2 hs]
          · rw [removeKeyLimit, Finmap.lookup_erase_ne hs']
        simp [Except.map, hs, herase]

/-- What a thread knows once it has returned: its write is among those of the cell, or it has raised
and is not. -/
def Outcome (ops : ι → Op) (i : ι) : Except PyErr Unit → World ι → Prop
  | .ok _, w => TookEffect ops i w
  | .error _, w => i ∉ w.cell.writers

lemma outcome_of_program (hw : i ∉ w.cell.writers) :
    (discipline ops).wp BlindWritesCurrent i (ops i).program.run (Outcome ops i) w := by
  refine Discipline.wp_mono (fun r w h => ?_) (program_spec hw)
  cases r <;> exact h

lemma outcome_stable (r : Except PyErr Unit) : (discipline ops).Stable i (Outcome ops i r) := by
  intro w w' hR _ hQ
  cases r with
  | ok _ =>
      rcases hQ with hwr | ⟨p, hp, hap⟩
      · exact .inl (hR.1.writers_subset hwr)
      · exact .inr ⟨p, hp.trans hR.1, hap⟩
  | error _ => exact fun hwr => hQ (hR.2.2 hwr)

end Clients

/-! ## Serial order -/

/-- The clients before any of them has made a call. -/
def start (ops : ι → Op) (v₀ : Option NvText) : Config gatewayApi ι (World ι) (Except PyErr Unit) :=
  ⟨⟨⟨v₀, []⟩, fun _ => 0⟩, fun i => (ops i).program.run⟩

omit [DecidableEq ι] in
/-- A serial execution of operations on the cell is one on the map. -/
lemma foldlM_of_serial {ops : ι → Op} {v v' : Option NvText} {is : List ι}
    (h : Cell.Serial (Applies ops) v is v') :
    is.foldlM (fun m i => (ops i).apply m) (mapOf v) = .ok (mapOf v') := by
  induction h with
  | nil => rfl
  | @snoc v' v'' is i h hi ih =>
      have hstep : (ops i).apply (mapOf v') = .ok (mapOf v'') := hi
      rw [List.foldlM_append, ih]
      simp [bind, Except.bind, pure, Except.pure, hstep]

lemma initial_of_reaches {ok : StepCond gatewayApi ι (World ι)} {ops : ι → Op} {v₀ : Option NvText}
    {c : Config gatewayApi ι (World ι) (Except PyErr Unit)}
    (h : Reaches (env ι) ok (start ops v₀) c) : c.world.cell.initial = v₀ := by
  refine Reaches.relates (R := fun w w' => w'.cell.initial = w.cell.initial) (fun _ => rfl)
    ?_ ?_ ?_ h
  · intro w₁ w₂ w₃ h₁ h₂
    exact h₂.trans h₁
  · intro i w o f r w' ha
    rcases Env.faulty_act ha with ⟨tagged, r₀, hs, -⟩ | ⟨rfl, -⟩
    · unfold serve at hs
      split at hs
      · cases hs
        rfl
      · cases hs
        rfl
      · split_ifs at hs <;> cases hs <;> rfl
    · rfl
  · intro w w' hd
    exact hd.elim

/-- In every run in which an unconditional write finds the version its client has read, the
stored map is the result of exactly the operations that returned successfully, in some serial
order. -/
theorem successful_serial [Fintype ι] (ops : ι → Op) (v₀ : Option NvText)
    {c : Config gatewayApi ι (World ι) (Except PyErr Unit)}
    (h : Reaches (env ι) BlindWritesCurrent (start ops v₀) c) :
    ∃ order : List ι, order.Nodup ∧ (∀ i, i ∈ order ↔ c.Returned i (.ok ())) ∧
      order.foldlM (fun m i => (ops i).apply m) (mapOf v₀) = .ok c.world.stored := by
  classical
  have hinit : (discipline ops).inv (start ops v₀).world :=
    ⟨fun p i v hp => absurd hp.2.length_le (by simp [start, Cell.write]), List.nodup_nil⟩
  have hprog : ∀ i, (discipline ops).wp BlindWritesCurrent i ((start ops v₀).prog i)
      (Outcome ops i) (start ops v₀).world := fun i => outcome_of_program List.not_mem_nil
  obtain ⟨hinv, -⟩ := Discipline.sound (fun _ => outcome_stable) hinit hprog h
  -- A thread that has written has returned successfully.
  have hwriter : ∀ i ∈ c.world.cell.writers, c.Returned i (.ok ()) := by
    intro i hi
    by_contra hnot
    by_cases hret : ∃ r, c.Returned i r
    · obtain ⟨r, hr⟩ := hret
      have hQ := Discipline.returned_of_sound (fun _ => outcome_stable) hinit hprog h hr
      cases r with
      | ok u => exact hnot hr
      | error e => exact hQ hi
    · exact Discipline.busy_of_sound (fun _ => outcome_stable) hinit hprog h
        (fun r hr => hret ⟨r, hr⟩) hi
  let noops : Finset ι := Finset.univ.filter
    (fun i => c.Returned i (.ok ()) ∧ i ∉ c.world.cell.writers)
  obtain ⟨order, hnodup, hmem, hserial⟩ := Cell.exists_serial c.world.cell hinv.1 hinv.2 noops
    (fun j hj => (Finset.mem_filter.1 hj).2.2) (by
      intro j hj
      obtain ⟨-, hret, hnw⟩ := Finset.mem_filter.1 hj
      exact (Discipline.returned_of_sound
        (fun _ => outcome_stable) hinit hprog h hret).resolve_left hnw)
  refine ⟨order, hnodup, fun i => ?_, ?_⟩
  · rw [hmem]
    constructor
    · rintro (hi | hi)
      · exact hwriter i hi
      · exact (Finset.mem_filter.1 hi).2.1
    · intro hret
      by_cases hi : i ∈ c.world.cell.writers
      · exact .inl hi
      · exact .inr (Finset.mem_filter.2 ⟨Finset.mem_univ i, hret, hi⟩)
  · rw [initial_of_reaches h] at hserial
    exact foldlM_of_serial hserial

/-- Two keys are issued, each with a limit of its own. -/
def twoUpserts : Fin 2 → Op
  | 0 => .upsert "vk_a" (some 100) none none
  | 1 => .upsert "vk_b" (some 200) none none

/-- One after the other, both limits are stored: two threads that set the limits of two
subscriptions, and the order in which they have written. -/
theorem successful_serial_twoUpserts :
    ∃ c, Reaches (env (Fin 2)) BlindWritesCurrent (start twoUpserts none) c ∧
      (c.Returned 0 (.ok ()) ∧ c.Returned 1 (.ok ())) ∧
      ∃ order : List (Fin 2), order.Nodup ∧ (∀ i, i ∈ order ↔ c.Returned i (.ok ())) ∧
        order.foldlM (fun m i => (twoUpserts i).apply m) (mapOf none) = .ok c.world.stored := by
  obtain ⟨c, hreach, hret⟩ := Config.reaches_of_play (env (Fin 2)) BlindWritesCurrent
    (start twoUpserts none)
    [(0, .served true), (0, .served true), (1, .served true), (1, .served true)]
    (fun c => c.Returned 0 (.ok ()) ∧ c.Returned 1 (.ok ())) (by decide)
  exact ⟨c, hreach, hret, successful_serial twoUpserts none hreach⟩

/-- Both clients find the named value absent and create it: both return successfully, and the
limits of the first key are gone. -/
theorem upsert_lost :
    ¬ ∀ (ops : Fin 2 → Op) (v₀ : Option NvText)
        (c : Config gatewayApi (Fin 2) (World (Fin 2)) (Except PyErr Unit)),
      Reaches (env (Fin 2)) anyStep (start ops v₀) c →
      ∃ order : List (Fin 2), order.Nodup ∧ (∀ i, i ∈ order ↔ c.Returned i (.ok ())) ∧
        order.foldlM (fun m i => (ops i).apply m) (mapOf v₀) = .ok c.world.stored := by
  intro hclaim
  obtain ⟨c, hreach, ⟨h0, h1⟩, hlost⟩ := Config.reaches_of_play (env (Fin 2)) anyStep
    (start twoUpserts none)
    [(0, .served true), (1, .served true), (0, .served true), (1, .served true)]
    (fun c => (c.Returned 0 (.ok ()) ∧ c.Returned 1 (.ok ())) ∧
      c.world.stored.lookup "vk_a" = none) (by decide)
  obtain ⟨order, hnodup, hmem, hfold⟩ := hclaim twoUpserts none c hreach
  have hperm : order.Perm [0, 1] := by
    refine (List.perm_ext_iff_of_nodup hnodup (by decide)).2 (Fin.forall_fin_two.2 ⟨?_, ?_⟩)
    · simpa [hmem] using h0
    · simpa [hmem] using h1
  -- In either order the first key keeps its limits.
  have hkept : ∀ is ∈ List.permutations' ([0, 1] : List (Fin 2)),
      ((is.foldlM (fun m i => (twoUpserts i).apply m) (mapOf none)).toOption.bind
        (fun m => m.lookup "vk_a")).isSome = true := by decide
  have hk := hkept order (List.mem_permutations'.2 hperm)
  rw [hfold] at hk
  change (c.world.stored.lookup "vk_a").isSome = true at hk
  rw [hlost] at hk
  cases hk

end LimitsGateway
end TokenFoundry
