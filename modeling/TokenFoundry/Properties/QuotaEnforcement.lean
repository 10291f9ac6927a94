import TokenFoundry.Services.LimitPolicy

/-!
# Which keys get the limits they were issued with

The entry of a key is written by `_merge_key_limit` at issuance and read back by the fragment of
`_build_limit_block` on every request.  `eval_of_limitsOf` evaluates the fragment for every key of
every map that issuances can build: a key with a per-minute limit gets that limit, and its quota
where it has a tier.  A key without one takes the first branch of the `<choose>` and gets
nothing, also when it was issued with a quota: `enforced_iff` says that the enforcement the
documentation promises is exact for all keys but those with a tier and no per-minute limit.
-/

set_option autoImplicit false

namespace TokenFoundry
namespace LimitPolicy

open KeyLimits

/-! ## Issuing keys -/

/-- The issuance of one key: `create_key` passes the values of the enumerations. -/
def issue (m : LimitsMap) (key : String × VirtualKeyCreate) : Except PyErr LimitsMap :=
  mergeKeyLimit m key.1 key.2.tokensPerMinute (key.2.tokenQuotaTier.map TokenQuotaTier.value)
    (key.2.tokenQuotaPeriod.map TokenQuotaPeriod.value)

/-- `m` is built from the empty map by these issuances. -/
def Built (keys : List (String × VirtualKeyCreate)) (m : LimitsMap) : Prop :=
  keys.foldlM issue ∅ = .ok m

/-- The last issuance of a subscription: it is in the list, and no later one is for the same
subscription. -/
def IssuedWith (keys : List (String × VirtualKeyCreate)) (subId : String)
    (body : VirtualKeyCreate) : Prop :=
  ∃ before after, keys = before ++ (subId, body) :: after ∧ ∀ k ∈ after, k.1 ≠ subId

/-! ## The promise -/

/-- The quota limits applied are exactly the one of the key's tier and period. -/
def QuotaEnforced (applied : List Applied) (body : VirtualKeyCreate) : Prop :=
  ∀ amount period, (∃ a ∈ applied, a.quota = some (amount, period)) ↔
    ∃ tier ∈ body.tokenQuotaTier, tier ≠ .none ∧ (tier, amount) ∈ tokenQuotaAmounts ∧
      ∃ p ∈ body.tokenQuotaPeriod, period = p.value

/-- The per-minute limits applied are exactly the one of the key. -/
def TpmEnforced (applied : List Applied) (body : VirtualKeyCreate) : Prop :=
  ∀ n, (∃ a ∈ applied, a.tokensPerMinute = n) ↔ body.tokensPerMinute = some n

/-- A request of the key is served with the limits the key was issued with. -/
def Enforced (m : LimitsMap) (subId : String) (body : VirtualKeyCreate) : Prop :=
  ∃ applied, buildLimitBlock.eval m subId = some applied ∧
    QuotaEnforced applied body ∧ TpmEnforced applied body

/-! ## What the map says about a key -/

/-- The limit fields of a subscription's entry, all of them `none` where there is no entry. -/
def limitsOf (m : LimitsMap) (subId : String) : Option ℤ × Option String × Option String :=
  ((m.lookup subId).bind Entry.t, (m.lookup subId).bind Entry.qt, (m.lookup subId).bind Entry.p)

lemma limitsOf_store (m : LimitsMap) (s s' : String) (e : Entry) :
    limitsOf (store m s e) s' = if s' = s then (e.t, e.qt, e.p) else limitsOf m s' := by
  unfold limitsOf
  rw [lookup_store]
  split_ifs with hs he
  · rw [he]
    rfl
  · rfl
  · rfl

lemma limitsOf_issue {m m' : LimitsMap} {key : String × VirtualKeyCreate}
    (h : issue m key = .ok m') (s : String) :
    limitsOf m' s = if s = key.1 then
      (key.2.tokensPerMinute,
        (key.2.tokenQuotaTier.map TokenQuotaTier.value).filter (fun q => q ≠ "none"),
        key.2.tokenQuotaPeriod.map TokenQuotaPeriod.value)
      else limitsOf m s := by
  obtain ⟨rfl, -⟩ := mergeKeyLimit_eq_ok h
  rw [limitsOf_store]

/-- Issuances of other keys leave the limits of a key alone. -/
lemma limitsOf_foldlM {keys : List (String × VirtualKeyCreate)} {m m' : LimitsMap} {s : String}
    (h : keys.foldlM issue m = .ok m') (hs : ∀ k ∈ keys, k.1 ≠ s) :
    limitsOf m' s = limitsOf m s := by
  induction keys generalizing m with
  | nil =>
      cases h
      rfl
  | cons k keys ih =>
      rw [List.foldlM_cons] at h
      cases hk : issue m k with
      | error e =>
          rw [hk] at h
          cases h
      | ok m₁ =>
          rw [hk] at h
          have hrest := ih h (fun k' hk' => hs k' (List.mem_cons_of_mem _ hk'))
          have hfirst := limitsOf_issue hk s
          rw [if_neg (fun heq => hs k List.mem_cons_self heq.symm)] at hfirst
          rw [hrest, hfirst]

/-- The limits of a key in the map are those of its last issuance. -/
lemma limitsOf_of_issuedWith {keys : List (String × VirtualKeyCreate)} {m : LimitsMap}
    {s : String} {body : VirtualKeyCreate} (hm : Built keys m) (hs : IssuedWith keys s body) :
    limitsOf m s =
      (body.tokensPerMinute,
        (body.tokenQuotaTier.map TokenQuotaTier.value).filter (fun q => q ≠ "none"),
        body.tokenQuotaPeriod.map TokenQuotaPeriod.value) := by
  obtain ⟨before, after, rfl, hafter⟩ := hs
  unfold Built at hm
  rw [List.foldlM_append] at hm
  cases hb : before.foldlM issue ∅ with
  | error e =>
      rw [hb] at hm
      cases hm
  | ok m₁ =>
      rw [hb] at hm
      change List.foldlM issue m₁ ((s, body) :: after) = .ok m at hm
      rw [List.foldlM_cons] at hm
      cases hi : issue m₁ (s, body) with
      | error e =>
          rw [hi] at hm
          cases hm
      | ok m₂ =>
          rw [hi] at hm
          rw [limitsOf_foldlM hm hafter, limitsOf_issue hi s, if_pos rfl]

/-! ## Evaluating the fragment -/

/-- The value a lookup expression yields for the calling subscription. -/
lemma eval_lookup {ctx : Context} {m : LimitsMap} (hraw : ctx.vars "tfRaw" = some (.map m))
    (field : String) (cast : Cast) (default : Value) :
    Expr.eval ctx (.lookup field cast default) =
      some (((m.lookup ctx.subscriptionId).bind (fun e => fieldOf e field)).elim default
        (fun v => (cast.apply v).getD default)) := by
  rw [Expr.eval, hraw]
  dsimp only
  cases (m.lookup ctx.subscriptionId).bind (fun e => fieldOf e field) <;> rfl

/-- The variables of the fragment once they are set, which the two `<when>` conditions read. -/
def settled (m : LimitsMap) (s : String) (tpm : ℤ) (period tier : String) : Context :=
  ((((⟨s, m, fun _ => none⟩ : Context).set "tfRaw" (.map m)).set "tfTpm" (.int tpm)).set
    "tfPeriod" (.str period)).set "tfQTier" (.str tier)

/-- A key without a field reads as the default of the field. -/
lemma setAll_buildLimitBlock {m : LimitsMap} {s : String} {tpm : Option ℤ}
    {tier period : Option String} (hlim : limitsOf m s = (tpm, tier, period))
    (htpm : ∀ n ∈ tpm, 0 < n ∧ n ≤ 100000000) :
    setAll ⟨s, m, fun _ => none⟩ buildLimitBlock.setVariables =
      some (settled m s (tpm.getD tpmUnlimited) (period.getD periodDefault)
        (tier.getD "none")) := by
  have ht : (m.lookup s).bind (fun e => fieldOf e "t") = tpm.map .int := by
    rw [← show (limitsOf m s).1 = tpm by rw [hlim], limitsOf]
    cases m.lookup s <;> rfl
  have hqt : (m.lookup s).bind (fun e => fieldOf e "qt") = tier.map .str := by
    rw [← show (limitsOf m s).2.1 = tier by rw [hlim], limitsOf]
    cases m.lookup s <;> rfl
  have hp : (m.lookup s).bind (fun e => fieldOf e "p") = period.map .str := by
    rw [← show (limitsOf m s).2.2 = period by rw [hlim], limitsOf]
    cases m.lookup s <;> rfl
  have htpmVal : (tpm.map Value.int).elim (.int tpmUnlimited)
      (fun v => (Cast.apply .int v).getD (.int tpmUnlimited)) = .int (tpm.getD tpmUnlimited) := by
    cases tpm with
    | none => rfl
    | some n =>
        obtain ⟨hpos, hle⟩ := htpm n rfl
        have hrange : -2147483648 ≤ n ∧ n ≤ 2147483647 := by omega
        simp [Cast.apply, hrange]
  have hstr : ∀ (o : Option String) (d : String), (o.map Value.str).elim (.str d)
      (fun v => (Cast.apply .string v).getD (.str d)) = .str (o.getD d) := by
    intro o d
    cases o <;> rfl
  set c₁ : Context := (⟨s, m, fun _ => none⟩ : Context).set "tfRaw" (.map m) with hc₁
  set c₂ := c₁.set "tfTpm" (.int (tpm.getD tpmUnlimited)) with hc₂
  set c₃ := c₂.set "tfPeriod" (.str (period.getD periodDefault)) with hc₃
  have h₁ : c₁.vars "tfRaw" = some (.map m) := rfl
  have h₂ : c₂.vars "tfRaw" = some (.map m) := rfl
  have h₃ : c₃.vars "tfRaw" = some (.map m) := rfl
  have e₁ : Expr.eval c₁ (.lookup "t" .int (.int tpmUnlimited)) =
      some (.int (tpm.getD tpmUnlimited)) := by
    rw [eval_lookup h₁, show c₁.subscriptionId = s from rfl, ht, htpmVal]
  have e₂ : Expr.eval c₂ (.lookup "p" .string (.str periodDefault)) =
      some (.str (period.getD periodDefault)) := by
    rw [eval_lookup h₂, show c₂.subscriptionId = s from rfl, hp, hstr]
  have e₃ : Expr.eval c₃ (.lookup "qt" .string (.str "none")) = some (.str (tier.getD "none")) := by
    rw [eval_lookup h₃, show c₃.subscriptionId = s from rfl, hqt, hstr]
  change (Expr.eval c₁ _).bind _ = _
  rw [e₁]
  change (Expr.eval c₂ _).bind _ = _
  rw [e₂]
  change (Expr.eval c₃ _).bind _ = _
  rw [e₃]
  rfl

/-- The first tier whose label the key carries decides the quota. -/
lemma choose_tiers {ctx : Context} {tier : String} (htier : ctx.vars "tfQTier" = some (.str tier))
    (amounts : List (TokenQuotaTier × ℕ)) (otherwise : List LlmTokenLimit) :
    choose ctx (amounts.map (fun p => tierWhen p.1 p.2)) otherwise =
      some ((amounts.find? (fun p => p.1.value = tier)).elim otherwise
        (fun p => (tierWhen p.1 p.2).body)) := by
  induction amounts with
  | nil => rfl
  | cons p amounts ih =>
      rw [List.map_cons, choose]
      have hcond : (tierWhen p.1 p.2).condition.expr.eval ctx = some (.str tier) := htier
      rw [hcond, Option.bind_some, List.find?_cons]
      by_cases hp : p.1.value = tier
      · have hval : (Value.str tier) = (tierWhen p.1 p.2).condition.equals := by rw [← hp]; rfl
        rw [if_pos hval]
        simp [hp]
      · have hval : (Value.str tier) ≠ (tierWhen p.1 p.2).condition.equals := by
          intro heq
          exact hp (Value.str.inj heq).symm
        rw [if_neg hval, ih]
        simp [hp]

/-- The limits applied to a key with these limit fields. -/
def expected (tpm : Option ℤ) (tier period : Option String) : List Applied :=
  match tpm with
  | none => []
  | some n =>
      [⟨n, (tokenQuotaAmounts.find? (fun p => p.1.value = tier.getD "none")).map
        (fun p => (p.2, period.getD periodDefault))⟩]

/-- The fragment applies the limits of the entry, unless there is no per-minute limit. -/
lemma eval_of_limitsOf {m : LimitsMap} {s : String} {tpm : Option ℤ} {tier period : Option String}
    (hlim : limitsOf m s = (tpm, tier, period)) (htpm : ∀ n ∈ tpm, 0 < n ∧ n ≤ 100000000) :
    buildLimitBlock.eval m s = some (expected tpm tier period) := by
  unfold Fragment.eval
  rw [setAll_buildLimitBlock hlim htpm]
  set ctx := settled m s (tpm.getD tpmUnlimited) (period.getD periodDefault) (tier.getD "none")
    with hctx
  have hvar : tpmAttr.eval ctx = some (.int (tpm.getD tpmUnlimited)) := rfl
  have hperiod : periodAttr.eval ctx = some (.str (period.getD periodDefault)) := rfl
  change ((tpmAttr.eval ctx).bind (fun v => if v = unlimitedWhen.condition.equals then
    some unlimitedWhen.body else choose ctx (tokenQuotaAmounts.map (fun p => tierWhen p.1 p.2))
      buildLimitBlock.otherwise)).bind (fun body => body.mapM (LlmTokenLimit.eval ctx)) = _
  rw [hvar, Option.bind_some]
  cases tpm with
  | none => rfl
  | some n =>
      obtain ⟨hpos, hle⟩ := htpm n rfl
      have hne : Value.int n ≠ unlimitedWhen.condition.equals := by
        intro heq
        have hn : n = tpmUnlimited := Value.int.inj heq
        have hval : tpmUnlimited = 1000000000 := rfl
        omega
      rw [Option.getD_some, if_neg hne, choose_tiers rfl, Option.bind_some]
      unfold expected
      dsimp only
      cases tokenQuotaAmounts.find? (fun p => decide (p.1.value = tier.getD "none")) with
      | none => rfl
      | some p => rfl

/-- The limits applied to a key issued with this body. -/
def appliedTo (body : VirtualKeyCreate) : List Applied :=
  expected body.tokensPerMinute
    ((body.tokenQuotaTier.map TokenQuotaTier.value).filter (fun q => q ≠ "none"))
    (body.tokenQuotaPeriod.map TokenQuotaPeriod.value)

lemma eval_of_issuedWith {keys : List (String × VirtualKeyCreate)} {m : LimitsMap} {s : String}
    {body : VirtualKeyCreate} (hm : Built keys m) (hs : IssuedWith keys s body) :
    buildLimitBlock.eval m s = some (appliedTo body) :=
  eval_of_limitsOf (limitsOf_of_issuedWith hm hs) body.tpm_bounds

/-! ## The exact condition -/

/-- The branch of a real tier carries the one amount the table lists for it. -/
lemma find_tier {tier : TokenQuotaTier} (h : tier ≠ .none) :
    ∃ amount₀, tokenQuotaAmounts.find? (fun p => p.1.value =
        ((some tier.value).filter (fun q => q ≠ "none")).getD "none") = some (tier, amount₀) ∧
      ∀ amount, (tier, amount) ∈ tokenQuotaAmounts ↔ amount = amount₀ := by
  cases tier
  case none => exact absurd rfl h
  case small => exact ⟨1000000, rfl, by simp [tokenQuotaAmounts]⟩
  case medium => exact ⟨10000000, rfl, by simp [tokenQuotaAmounts]⟩
  case large => exact ⟨100000000, rfl, by simp [tokenQuotaAmounts]⟩

/-- With a per-minute limit, the quota applied is the one of the tier and the period. -/
lemma quotaEnforced_of_tpm {body : VirtualKeyCreate} {n : ℤ}
    (htpm : body.tokensPerMinute = some n) : QuotaEnforced (appliedTo body) body := by
  have hpair := body.quota_pair
  unfold appliedTo
  rw [htpm]
  intro amount period
  cases htier : body.tokenQuotaTier with
  | none =>
      have hfind : tokenQuotaAmounts.find? (fun p => p.1.value = "none") = none := rfl
      simp [expected, hfind]
  | some tier =>
      by_cases hnone : tier = .none
      · subst hnone
        have hfind : tokenQuotaAmounts.find? (fun p => p.1.value =
            ((some TokenQuotaTier.none.value).filter (fun q => q ≠ "none")).getD "none") = none :=
          rfl
        rw [expected, Option.map_some, hfind]
        simp
      · -- A real tier comes with a period, and the table has exactly one amount for it.
        have hsome : body.tokenQuotaPeriod.isSome = true := by
          rw [← hpair, htier]
          simpa [hasTier] using hnone
        obtain ⟨p, hp⟩ := Option.isSome_iff_exists.1 hsome
        obtain ⟨amount₀, hfind, hamount⟩ := find_tier hnone
        rw [expected, Option.map_some, hfind, hp]
        simp only [List.mem_singleton, exists_eq_left, Option.map_some, Option.getD_some,
          Option.some.injEq, Prod.mk.injEq, Option.mem_def, exists_eq_left']
        constructor
        · rintro ⟨rfl, rfl⟩
          exact ⟨hnone, (hamount _).2 rfl, rfl⟩
        · rintro ⟨-, hmem, rfl⟩
          exact ⟨((hamount _).1 hmem).symm, rfl⟩

/-- Without any limit applied, the quota is the promised one just when there is no tier. -/
lemma quotaEnforced_nil {body : VirtualKeyCreate} :
    QuotaEnforced [] body ↔ hasTier body.tokenQuotaTier = false := by
  have hpair := body.quota_pair
  constructor
  · intro h
    by_contra hne
    have htier : hasTier body.tokenQuotaTier = true := by simpa using hne
    obtain ⟨tier, ht, hnone⟩ := (Option.any_eq_true _ _).1 htier
    obtain ⟨p, hp⟩ := Option.isSome_iff_exists.1 (hpair ▸ htier)
    have hamount : ∃ amount, (tier, amount) ∈ tokenQuotaAmounts := by
      cases tier
      case none => simp at hnone
      all_goals simp [tokenQuotaAmounts]
    obtain ⟨amount, hmem⟩ := hamount
    have hquota := (h amount p.value).2 ⟨tier, ht, by simpa using hnone, hmem, p, hp, rfl⟩
    simp at hquota
  · intro h amount period
    constructor
    · simp
    · rintro ⟨tier, ht, hnone, -⟩
      rw [Option.mem_def] at ht
      simp [hasTier, ht, hnone] at h

/-- A key is served with the limits it was issued with if and only if it has a per-minute limit
or no quota tier. -/
theorem enforced_iff {keys : List (String × VirtualKeyCreate)} {m : LimitsMap} {s : String}
    {body : VirtualKeyCreate} (hm : Built keys m) (hs : IssuedWith keys s body) :
    Enforced m s body ↔
      (body.tokensPerMinute.isSome = true ∨ hasTier body.tokenQuotaTier = false) := by
  have hiff : Enforced m s body ↔
      QuotaEnforced (appliedTo body) body ∧ TpmEnforced (appliedTo body) body := by
    unfold Enforced
    rw [eval_of_issuedWith hm hs]
    constructor
    · rintro ⟨applied, happ, hboth⟩
      cases happ
      exact hboth
    · exact fun hboth => ⟨_, rfl, hboth⟩
  rw [hiff]
  cases htpm : body.tokensPerMinute with
  | none =>
      have hnil : appliedTo body = [] := by
        rw [appliedTo, htpm]
        rfl
      have htpmOk : TpmEnforced [] body := by
        intro n
        simp [htpm]
      rw [hnil, quotaEnforced_nil]
      simp [htpmOk]
  | some n =>
      have htpmOk : TpmEnforced (appliedTo body) body := by
        intro n'
        simp [appliedTo, expected, htpm]
      simp [quotaEnforced_of_tpm htpm, htpmOk]

/-- A key with a quota and no per-minute limit, which the schema accepts. -/
def quotaOnly : VirtualKeyCreate :=
  ⟨"pj_1", none, some .small, some .daily, by simp, by decide⟩

/-- The map after its issuance: an entry with a quota, and without a limit of tokens per minute. -/
def quotaOnlyMap : LimitsMap := store ∅ "vk_1" ⟨none, some "small", some "Daily", none⟩

lemma built_quotaOnly : Built [("vk_1", quotaOnly)] quotaOnlyMap := rfl

lemma issuedWith_quotaOnly : IssuedWith [("vk_1", quotaOnly)] "vk_1" quotaOnly :=
  ⟨[], [], rfl, by simp⟩

theorem enforced_iff_quotaOnly :
    Enforced quotaOnlyMap "vk_1" quotaOnly ↔
      (quotaOnly.tokensPerMinute.isSome = true ∨ hasTier quotaOnly.tokenQuotaTier = false) :=
  enforced_iff built_quotaOnly issuedWith_quotaOnly

/-- The quota of such a key is not enforced: the first `<when>` matches, and it counts nothing. -/
theorem quota_not_enforced :
    ¬ ∀ (keys : List (String × VirtualKeyCreate)) (m : LimitsMap) (s : String)
      (body : VirtualKeyCreate), Built keys m → IssuedWith keys s body → Enforced m s body := by
  intro hclaim
  obtain ⟨applied, heval, hquota, -⟩ :=
    hclaim _ _ _ _ built_quotaOnly issuedWith_quotaOnly
  have happlied : applied = [] := by
    have hnil : buildLimitBlock.eval quotaOnlyMap "vk_1" = some [] := by decide
    exact Option.some.inj (heval.symm.trans hnil)
  subst happlied
  have hsmall := (hquota 1000000 "Daily").2
    ⟨.small, rfl, by decide, by decide, .daily, rfl, rfl⟩
  simp at hsmall

end LimitPolicy
end TokenFoundry
