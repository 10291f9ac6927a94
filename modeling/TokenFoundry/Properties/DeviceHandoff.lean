import TokenFoundry.Api.GithubAccounts

/-!
# The device flow hands over once

`device_poll` reads the row, asks GitHub, and writes the row if the answer is final.  Two polls
can both read a pending row.  Then the later one writes over what the earlier one has written:
a second deployment is scheduled, or the account is marked as failed while it is deploying, because
GitHub answers a used code with an error (`handoff_twice`).

Handing over clears the device code in the same commit.  In every run in which a poll only commits
while the row still holds the code (`CodeHeld`), one poll at most hands over, and from then on no
poll writes the row (`device_handoff`).

The threads of the system are the polls of one account.  What the background tasks and the other
requests do to its row is a move of the world (`Others`): they may remove it, they may move its
status on, and a re-login may put another device code in its place.
-/

set_option autoImplicit false

namespace TokenFoundry
namespace GithubAccounts
namespace Handoff

open Pools (AccountId)

/-! ## The row and the polls -/

/-- The row of the account, as the polls share it, with the history of the hand-overs. -/
structure World (ι : Type) where
  row : Option GitHubAccount
  /-- The polls whose commit of the hand-over took effect. -/
  handed : List ι

/-- What the outside decides about a call: the database and the vault serve it, or GitHub answers a
question of the device flow or the lookup of the user. -/
inductive Pick
  | served
  | device (reply : DeviceReply)
  | who (whoami : Whoami)

section Serve

variable {ι : Type}

/-- A commit updates the row, and raises where there is none. -/
def commit (i : ι) (w : World ι) (ch : AccountChanges) : Except PyErr Unit × World ι :=
  match w.row with
  | none => (.error .staleData, w)
  | some acct =>
      (.ok (), {
        row := some (ch.apply acct)
        handed := if ch.status = some .deploying then i :: w.handed else w.handed })

/-- How the calls of a poll are served.  Only the commit writes the row, and the hand-over is
recorded with it. -/
def serve (i : ι) (w : World ι) : (o : Call) → Pick → Option (accountsApi.Reply o × World ι)
  | .getAccount _, .served => some (.ok w.row, w)
  | .commitAccount ch, .served => some (commit i w ch)
  | .close, .served => some (.ok (), w)
  | .pollDeviceFlow _, .device reply => some (.ok reply, w)
  | .whoami _, .who who => some (.ok who, w)
  | .setSecret _ _, .served => some (.ok (), w)
  | _, _ => none

/-- What the background tasks and the other requests may do to the row. -/
inductive Others (code : String) (w : World ι) : World ι → Prop
  | remove : Others code w { w with row := none }
  | write (acct acct' : GitHubAccount) (hrow : w.row = some acct)
      (hstatus : acct'.status = acct.status ∨ acct'.status ∈ [.ready, .failed, .deleting])
      (hcode : acct'.deviceCode = acct.deviceCode ∨
        acct.status ≠ .pending ∧ acct'.deviceCode ≠ some code) :
      Others code w { w with row := some acct' }

/-- Any call but the closing of the session may raise, before its effect or after. -/
def mayFail : Call → PyErr → Bool
  | .close, _ => false
  | _, _ => true

def env (code : String) (ι : Type) : Env accountsApi ι (World ι) :=
  .faulty serve mayFail mayFail (Others code)

/-- A poll commits only while the row holds the device code of the flow. -/
def CodeHeld (code : String) : StepCond accountsApi ι (World ι)
  | _, w, .commitAccount _, _ => ∀ acct ∈ w.row, acct.deviceCode = some code
  | _, _, _, _ => True

instance {ι : Type} {code : String} (i : ι) (w : World ι) (o : Call) (r : accountsApi.Reply o) :
    Decidable (CodeHeld code i w o r) := by
  unfold CodeHeld
  split <;> infer_instance

/-- The polls before any of them has made a call. -/
def start (a : AccountId) (w : World ι) :
    Config accountsApi ι (World ι) (Except PyErr (DevicePollOut × Bool)) :=
  ⟨w, fun _ => (withDb (devicePoll a)).run⟩

/-- The row as `device_start` inserts it: pending, with the code of the flow. -/
structure World.Fresh (code : String) (w : World ι) : Prop where
  row : ∀ acct ∈ w.row, acct.status = .pending ∧ acct.deviceCode = some code
  handed : w.handed = []

def World.Deploying (w : World ι) : Prop := ∃ acct ∈ w.row, acct.status = .deploying

def World.Failed (w : World ι) : Prop := ∃ acct ∈ w.row, acct.status = .failed

/-- The poll has returned and scheduled the deployment; the second part of its answer says so. -/
def Scheduled (c : Config accountsApi ι (World ι) (Except PyErr (DevicePollOut × Bool))) (i : ι) :
    Prop :=
  ∃ answer, c.Returned i (.ok answer) ∧ answer.2 = true

/-! ## The invariant -/

/-- The device code leaves the row with the hand-over: a row that waits still has the code, a row
with the code has never been handed over, and there is at most one poll that has done it. -/
structure Inv (code : String) (w : World ι) : Prop where
  pending : ∀ acct ∈ w.row, acct.status = .pending → acct.deviceCode = some code
  held : ∀ acct ∈ w.row, acct.deviceCode = some code → w.handed = [] ∧ acct.status ≠ .deploying
  once : ∀ i ∈ w.handed, ∀ j ∈ w.handed, i = j

lemma World.Fresh.inv {code : String} {w : World ι} (h : w.Fresh code) : Inv code w := by
  refine ⟨fun acct hacct _ => (h.row acct hacct).2, fun acct hacct _ => ⟨h.handed, ?_⟩, ?_⟩
  · rw [(h.row acct hacct).1]
    decide
  · simp [h.handed]

lemma Inv.others {code : String} {w w' : World ι} (h : Inv code w) (ho : Others code w w') :
    Inv code w' := by
  cases ho with
  | remove => exact ⟨by simp, by simp, h.once⟩
  | write acct acct' hrow hstatus hcode =>
      have hkept : acct'.deviceCode = some code → acct.deviceCode = some code := by
        intro hheld
        rcases hcode with hsame | ⟨-, hother⟩
        · rw [← hsame, hheld]
        · exact absurd hheld hother
      refine ⟨?_, ?_, h.once⟩
      · rintro acct₁ ⟨⟩ hpending
        have hbefore : acct.status = .pending := by
          rcases hstatus with hsame | hmoved
          · rw [← hsame, hpending]
          · simp [hpending] at hmoved
        rcases hcode with hsame | ⟨hnot, -⟩
        · rw [hsame]
          exact h.pending acct hrow hbefore
        · exact absurd hbefore hnot
      · rintro acct₁ ⟨⟩ hheld
        obtain ⟨hnone, hdeploying⟩ := h.held acct hrow (hkept hheld)
        refine ⟨hnone, ?_⟩
        rcases hstatus with hsame | hmoved
        · rwa [hsame]
        · rintro hdep
          simp [hdep] at hmoved

/-- The polls under interference.  A poll relies on the others not to forget a hand-over, and it
guarantees the same of its own commit. -/
def discipline (code : String) (ι : Type) : Discipline (env code ι) where
  inv := Inv code
  rely _ w w' := w.handed ⊆ w'.handed
  busy _ _ := True
  rely_refl _ w := List.Subset.refl w.handed
  rely_trans _ _ _ _ h₁ h₂ := List.Subset.trans h₁ h₂
  drift_inv h hd := h.others hd
  drift_rely _ _ hd := by
    cases hd with
    | remove => exact List.Subset.refl _
    | write => exact List.Subset.refl _

/-! ## The calls of a poll -/

section Poll

variable {code : String} {i : ι} {a : AccountId} {w : World ι}

/-- The poll may go on here: it ends with what it promises, or raises. -/
abbrev PollOk (code : String) (i : ι) {α : Type} (p : Handler α) (Q : α → World ι → Prop)
    (w : World ι) : Prop :=
  (discipline code ι).wpE (CodeHeld code) i p Q (fun _ _ => True) w

/-- A call that is no commit leaves the world as it is. -/
lemma serve_reads {o : Call} (ho : ∀ ch, o ≠ .commitAccount ch) {x : Pick} {r : accountsApi.Reply o}
    {w' : World ι} (h : serve i w o x = some (r, w')) : w' = w := by
  unfold serve at h
  split at h
  · cases h
    rfl
  · exact absurd rfl (ho _)
  · cases h
    rfl
  · cases h
    rfl
  · cases h
    rfl
  · cases h
    rfl
  · cases h

lemma ok_read {o : Call} {Q : o.Answer → World ι → Prop} (ho : ∀ ch, o ≠ .commitAccount ch)
    (hQ : ∀ w' x b, Inv code w' → w.handed ⊆ w'.handed → serve i w' o x = some (.ok b, w') →
      Q b w') : PollOk code i (ask o) Q w := by
  refine Discipline.wpE_ask (fun w₁ hR hI => ⟨trivial, fun x r w₂ ha _ => ?_⟩)
  have hsame : w₂ = w₁ := by
    rcases Env.faulty_act ha with ⟨x, r₀, hs, -⟩ | ⟨hsame, -⟩
    · exact serve_reads ho hs
    · exact hsame
  subst hsame
  refine ⟨hI, fun j _ => List.Subset.refl _, fun b hb => ?_, fun _ _ => trivial⟩
  rcases Env.faulty_act ha with ⟨x, r₀, hs, hr | ⟨e, -, hr⟩⟩ | ⟨-, e, -, hr⟩
  · exact hQ w₂ x b hI hR (by rw [← hb, hr]; exact hs)
  · rw [hb] at hr
    cases hr
  · rw [hb] at hr
    cases hr

/-- A commit while the row holds the code keeps the invariant. -/
lemma commit_keeps {ch : AccountChanges} (hI : Inv code w)
    (hheld : ∀ acct ∈ w.row, acct.deviceCode = some code)
    (hfinal : ch.status = some .failed ∨ ch.status = some .deploying ∧ ch.deviceCode = some none) :
    Inv code (commit i w ch).2 ∧ w.handed ⊆ (commit i w ch).2.handed := by
  unfold commit
  cases hrow : w.row with
  | none => exact ⟨hI, List.Subset.refl _⟩
  | some acct =>
      obtain ⟨hnone, -⟩ := hI.held acct hrow (hheld acct hrow)
      rcases hfinal with hfailed | ⟨hdeploying, hcleared⟩
      · have hrow' : (ch.apply acct).status = .failed := by simp [AccountChanges.apply, hfailed]
        refine ⟨⟨?_, ?_, ?_⟩, ?_⟩ <;> simp [hrow', hfailed, hnone]
      · have hstatus' : (ch.apply acct).status = .deploying := by
          simp [AccountChanges.apply, hdeploying]
        have hcode' : (ch.apply acct).deviceCode = none := by
          simp [AccountChanges.apply, hcleared]
        refine ⟨⟨?_, ?_, ?_⟩, ?_⟩ <;> simp [hstatus', hcode', hdeploying, hnone]

lemma ok_commit {ch : AccountChanges} {Q : Unit → World ι → Prop}
    (hfinal : ch.status = some .failed ∨ ch.status = some .deploying ∧ ch.deviceCode = some none)
    (hQ : ∀ w', (ch.status = some .deploying → i ∈ w'.handed) → Q () w') :
    PollOk code i (ask (.commitAccount ch)) Q w := by
  refine Discipline.wpE_ask (fun w₁ hR hI => ⟨trivial, fun x r w₂ ha hheld => ?_⟩)
  rcases Env.faulty_act ha with ⟨x, r₀, hs, hr⟩ | ⟨rfl, e, -, rfl⟩
  · have hcommit : commit i w₁ ch = (r₀, w₂) := by
      cases x with
      | served => exact Option.some.inj hs
      | device reply => cases hs
      | who who => cases hs
    obtain ⟨hI', hgrows⟩ := commit_keeps (i := i) hI hheld hfinal
    rw [hcommit] at hI' hgrows
    refine ⟨hI', fun j _ => hgrows, fun b hb => hQ _ (fun hdep => ?_), fun _ _ => trivial⟩
    rcases hr with hr | ⟨e, -, hr⟩
    · subst hr hb
      unfold commit at hcommit
      cases hrow : w₁.row with
      | none => simp [hrow] at hcommit
      | some acct =>
          rw [hrow] at hcommit
          cases hcommit
          simp [hdep]
    · rw [hb] at hr
      cases hr
  · refine ⟨hI, fun j _ => List.Subset.refl _, fun b hb => ?_, fun _ _ => trivial⟩
    cases hb

/-- A poll that hands over is recorded: whenever its answer schedules a deployment, its commit has
taken effect. -/
lemma ok_devicePoll :
    PollOk code i (devicePoll a) (fun answer w => answer.2 = true → i ∈ w.handed) w := by
  unfold devicePoll
  refine (Discipline.wpE_bind _ _).2 (ok_read (by simp) (fun w₁ x row hI _ hs => ?_))
  have hread : w₁.row = row := by
    cases x with
    | served =>
        cases hs
        rfl
    | device reply => cases hs
    | who who => cases hs
  cases row with
  | none => trivial
  | some acct =>
      dsimp only
      split_ifs with hstatus
      · exact fun h => nomatch h
      -- The row may be stale by the time of the commit; what is sure is that it was pending with
      -- this code when it was read.
      · have hpending : acct.status = .pending := by simpa using hstatus
        have hcode : acct.deviceCode = some code := hI.pending acct hread hpending
        refine (Discipline.wpE_bind _ _).2 (ok_read (by simp) (fun w₂ _ reply _ _ _ => ?_))
        cases reply with
        | pending => exact fun h => nomatch h
        | error message =>
            refine (Discipline.wpE_bind _ _).2 (ok_commit (.inl ?_) (fun w₃ _ => ?_))
            · simp [changed, hpending]
            · exact fun h => nomatch h
        | success token =>
            refine (Discipline.wpE_bind _ _).2 (ok_read (by simp) (fun w₃ _ who _ _ _ => ?_))
            refine (Discipline.wpE_bind _ _).2 (ok_read (by simp) (fun w₄ _ _ _ _ _ => ?_))
            refine (Discipline.wpE_bind _ _).2 (ok_commit (.inr ⟨rfl, ?_⟩) (fun w₅ hw₅ => ?_))
            · simp [changed, hcode]
            · exact fun _ => hw₅ rfl

lemma ok_poll :
    PollOk code i (withDb (devicePoll a)) (fun answer w => answer.2 = true → i ∈ w.handed) w := by
  have hclose : ∀ {answer : DevicePollOut × Bool} {w}, (answer.2 = true → i ∈ w.handed) →
      PollOk code i (ask .close) (fun _ w => answer.2 = true → i ∈ w.handed) w :=
    fun hw => ok_read (by simp) (fun w' _ _ _ hgrows _ htrue => hgrows (hw htrue))
  have hclosed : ∀ {w}, PollOk code i (ask .close) (fun _ _ => True) w :=
    ok_read (by simp) (fun _ _ _ _ _ _ => trivial)
  exact Discipline.wpE_tryFinally (Discipline.wpE_mono (fun answer w hw => hclose hw)
    (fun _ _ _ => hclosed) ok_devicePoll)

end Poll

/-! ## Once the account is deploying -/

/-- The row has lost the device code of the flow. -/
def Spent (code : String) (w : World ι) : Prop := ∀ acct ∈ w.row, acct.deviceCode ≠ some code

section Spent

variable {code : String} {w w' : World ι}

lemma Inv.spent (h : Inv code w) (hd : w.Deploying) : Spent code w := by
  obtain ⟨acct, hacct, hstatus⟩ := hd
  intro acct' hacct' hheld
  obtain rfl : acct = acct' := Option.some.inj (hacct.symm.trans hacct')
  exact (h.held acct hacct hheld).2 hstatus

/-- A poll that may only commit while the row holds the code does not write it any more. -/
lemma Spent.call {i : ι} {o : Call} {x : Fate Pick PyErr} {r : accountsApi.Reply o}
    (h : Spent code w) (ha : (env code ι).act i w o x = some (r, w'))
    (hok : CodeHeld code i w o r) : w'.row = w.row := by
  rcases Env.faulty_act ha with ⟨x, r₀, hs, -⟩ | ⟨rfl, -⟩
  · by_cases ho : ∀ ch, o ≠ .commitAccount ch
    · rw [serve_reads ho hs]
    · push Not at ho
      obtain ⟨ch, rfl⟩ := ho
      cases x with
      | served =>
          cases hrow : w.row with
          | none =>
              simp only [serve, commit, hrow, Option.some.injEq, Prod.mk.injEq] at hs
              rw [← hs.2, hrow]
          | some acct => exact absurd (hok acct hrow) (h acct hrow)
      | device reply => cases hs
      | who who => cases hs
  · rfl

lemma Spent.step {α : Type} [DecidableEq ι] {c c' : Config accountsApi ι (World ι) α}
    (h : Spent code c.world) (hstep : Step (env code ι) (CodeHeld code) c c') :
    Spent code c'.world := by
  cases hstep with
  | call hp ha hok => exact fun acct hacct => h acct (h.call ha hok ▸ hacct)
  | drift hd =>
      cases hd with
      | remove => exact fun acct hacct => nomatch hacct
      | write acct acct' hrow _ hcode =>
          rintro acct₁ ⟨⟩
          rcases hcode with hsame | ⟨-, hother⟩
          · rw [hsame]
            exact h acct hrow
          · exact hother

lemma spent_reached {α : Type} [DecidableEq ι] {c c' : Config accountsApi ι (World ι) α}
    (h : Spent code c.world) (hrun : Reaches (env code ι) (CodeHeld code) c c') :
    Spent code c'.world := by
  induction hrun with
  | refl => exact h
  | tail _ hstep ih => exact ih.step hstep

end Spent

/-- **The device flow hands over once.**  If polls only commit while the row holds the code, at
most one of them schedules the deployment, and no poll writes the row of an account that has
reached `DEPLOYING`. -/
theorem device_handoff [DecidableEq ι] (a : AccountId) (code : String) {w : World ι}
    (hw : w.Fresh code) {c : Config accountsApi ι (World ι) (Except PyErr (DevicePollOut × Bool))}
    (h : Reaches (env code ι) (CodeHeld code) (start a w) c) :
    (∀ i j, Scheduled c i → Scheduled c j → i = j) ∧
    (c.world.Deploying → ∀ c', Reaches (env code ι) (CodeHeld code) c c' →
      ∀ i c'', Moves (env code ι) (CodeHeld code) i c' c'' → c''.world.row = c'.world.row) := by
  have hpolls : ∀ i, (discipline code ι).wp (CodeHeld code) i ((start a w).prog i)
      (fun r w => ∀ answer, r = .ok answer → answer.2 = true → i ∈ w.handed) w := by
    refine fun i => Discipline.wp_mono (fun r w hr => ?_) (ok_poll (a := a))
    cases r with
    | ok answer => rintro answer' ⟨⟩ htrue; exact hr htrue
    | error e => exact fun _ he => nomatch he
  have hstable : ∀ i (r : Except PyErr (DevicePollOut × Bool)), (discipline code ι).Stable i
      (fun w => ∀ answer, r = .ok answer → answer.2 = true → i ∈ w.handed) :=
    fun i r w w' hgrows _ hw answer hr htrue => hgrows (hw answer hr htrue)
  have hinv : Inv code c.world := (Discipline.sound (c := start a w) hstable hw.inv hpolls h).1
  constructor
  · rintro i j ⟨answer, hi, hti⟩ ⟨answer', hj, htj⟩
    have hmemi := Discipline.returned_of_sound (c := start a w) hstable hw.inv hpolls h hi
      _ rfl hti
    have hmemj := Discipline.returned_of_sound (c := start a w) hstable hw.inv hpolls h hj
      _ rfl htj
    exact hinv.once i hmemi j hmemj
  · intro hd c' h' i c'' hmove
    cases hmove with
    | mk _ ha hok => exact (spent_reached (hinv.spent hd) h').call ha hok

end Serve

/-! ## Two polls at once -/

section Twice

/-- A device flow that waits for its user: the row is pending, it has the device code, and nobody
has handed over. -/
def waiting : World (Fin 2) where
  row := some
    { githubLogin := none
      githubUserId := none
      oauthTokenKvRef := none
      hubKeyKvRef := none
      adminTokenKvRef := none
      status := .pending
      errorDetail := none
      deviceCode := some "device"
      resourceGroup := none
      containerAppFqdn := none
      tfStateKey := none
      backendIds := [] }
  handed := []

lemma waiting_fresh : waiting.Fresh "device" := by
  refine ⟨?_, rfl⟩
  rintro acct ⟨⟩
  exact ⟨rfl, rfl⟩

def account : AccountId := ⟨"0", AccountId.hexDigits_of_all (by decide)⟩

/-- One poll makes its next calls, and every one is served. -/
def turn (i : Fin 2) (picks : List Pick) : List (Fin 2 × Fate Pick PyErr) :=
  picks.map (fun x => (i, .served x))

/-- GitHub has authorized the flow: the answer is final, and the poll hands over. -/
def authorized : List Pick :=
  [.device (.success "token"), .who ⟨some "login", some "1"⟩, .served, .served, .served]

instance {ι : Type} (c : Config accountsApi ι (World ι) (Except PyErr (DevicePollOut × Bool)))
    (i : ι) : Decidable (Scheduled c i) :=
  match h : c.prog i with
  | .done (.ok answer) => decidable_of_iff (answer.2 = true) (by
      simp [Scheduled, Config.Returned, h])
  | .done (.error _) => isFalse (by simp [Scheduled, Config.Returned, h])
  | .call _ _ => isFalse (by simp [Scheduled, Config.Returned, h])

instance {ι : Type} (w : World ι) : Decidable w.Deploying :=
  inferInstanceAs (Decidable (∃ acct ∈ w.row, _))

instance {ι : Type} (w : World ι) : Decidable w.Failed :=
  inferInstanceAs (Decidable (∃ acct ∈ w.row, _))

/-- One poll after the other: the second one finds the account deploying. -/
theorem device_handoff_inTurn :
    ∃ c, Reaches (env "device" (Fin 2)) (CodeHeld "device") (start account waiting) c ∧
      Scheduled c 0 ∧ ∀ i, Scheduled c i → i = 0 := by
  obtain ⟨c, hreach, hzero⟩ := Config.reaches_of_play (env "device" (Fin 2)) (CodeHeld "device")
    (start account waiting) (turn 0 (.served :: authorized) ++ turn 1 [.served, .served])
    (fun c => Scheduled c 0) (by decide +kernel)
  exact ⟨c, hreach, hzero, fun i hi =>
    (device_handoff account "device" waiting_fresh hreach).1 i 0 hi hzero⟩

/-- What the other poll is told when the code has been used. -/
def refused : List Pick := [.device (.error "incorrect_device_code")]

/-- Both polls have read the pending row.  If GitHub authorizes both, both hand over; if it refuses
the second one, that poll marks the deploying account as failed. -/
theorem handoff_twice :
    (¬ ∀ (a : AccountId) (code : String) (w : World (Fin 2)), w.Fresh code →
      ∀ c, Reaches (env code (Fin 2)) anyStep (start a w) c →
        ∀ i j, Scheduled c i → Scheduled c j → i = j) ∧
    (¬ ∀ (a : AccountId) (code : String) (w : World (Fin 2)), w.Fresh code →
      ∀ c, Reaches (env code (Fin 2)) anyStep (start a w) c → c.world.Deploying →
        ∀ c', Reaches (env code (Fin 2)) anyStep c c' → ∀ i c'',
          Moves (env code (Fin 2)) anyStep i c' c'' → c''.world.Failed → c'.world.Failed) := by
  constructor
  · intro hclaim
    obtain ⟨c, hreach, hzero, hone⟩ := Config.reaches_of_play (env "device" (Fin 2)) anyStep
      (start account waiting)
      (turn 0 [.served] ++ turn 1 [.served] ++ turn 0 authorized ++ turn 1 authorized)
      (fun c => Scheduled c 0 ∧ Scheduled c 1) (by decide +kernel)
    exact absurd (hclaim account "device" waiting waiting_fresh c hreach 0 1 hzero hone) (by decide)
  · intro hclaim
    obtain ⟨c, hreach, hdeploying, hnot, hfails⟩ := Config.reaches_of_play
      (env "device" (Fin 2)) anyStep (start account waiting)
      (turn 0 [.served] ++ turn 1 [.served] ++ turn 0 authorized ++ turn 1 refused)
      (fun c => c.world.Deploying ∧ ¬ c.world.Failed ∧
        (c.playOne (env "device" (Fin 2)) anyStep (1, .served .served)).any
          (fun c' => decide c'.world.Failed) = true) (by decide +kernel)
    obtain ⟨c', hplay, hfailed⟩ := (Option.any_eq_true _ _).1 hfails
    exact hnot (hclaim account "device" waiting waiting_fresh c hreach hdeploying c .refl 1 c'
      (Config.playOne_moves hplay) (by simpa using hfailed))

end Twice

end Handoff
end GithubAccounts
end TokenFoundry
