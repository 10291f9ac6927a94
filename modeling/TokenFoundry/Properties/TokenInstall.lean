import TokenFoundry.Hub.TokenStore
import Mathlib.Data.Fin.Basic

/-!
# A failed installation, and the same run without it

Any number of calls of `install_oauth_token`, `device_flow_poll`, `logout` and `get_api_token` run
against one hub.  A run is compared with the run of the same schedule from which the calls of one
installation have been taken out (`Config.skim`).  Where the installation fails, both should keep
the same tokens.

They need not.  `logout` and `device_flow_poll` do not take the lock, and the rollback undoes what
they have done in the meantime (`logout_undone`).  The rollback is in an `except Exception`, which a
cancellation passes by (`cancelled_kept`).

`install_invisible` is the positive half: in every run whose steps are `Harmless` to the
installation, the tokens are those of the run without it.  A call of `get_api_token` that finds the
cache emptied by the installation goes another way than in the run without it.  It is `misled`, and
harmless where it does not get as far as replacing the API token.
-/

set_option autoImplicit false

namespace TokenFoundry
namespace TokenInstall

open CopilotClient (ApiToken Exn Reply getOauthToken)
open TokenStore

variable {ι K : Type} [DecidableEq ι] [PyFloat K]

/-! ## The calls that run -/

inductive Job
  | logout
  | poll (deviceCode : String)
  | read
  | install (token : String)

/-- What a call returns is of no interest here, only when it returns and which tokens it leaves. -/
def Job.program : Job → Task K Unit
  | .logout => ask .logout
  | .poll deviceCode => do
      let _ ← deviceFlowPoll deviceCode
  | .read => do
      let _ ← getApiToken
  | .install token => do
      let _ ← installOauthToken token

/-! ## The hub -/

/-- The installation that holds the lock: what it has saved, and what has been kept last by a call
that did not take the lock. -/
structure Window (K : Type) where
  saved : Cells K
  touched : Option (Cells K)

/-- What would be kept if the installation had not begun. -/
def Window.without (v : Window K) : Cells K := v.touched.getD v.saved

/-- The tokens and the lock of the hub, and the history that the condition is about. -/
structure World (ι K : Type) where
  cells : Cells K
  lock : Option ι
  window : Option (Window K)
  /-- The calls of `get_api_token` that found no token because of an installation. -/
  misled : List (ι × ι)

/-- A change of the tokens without the lock, which an open installation will overwrite if it
fails. -/
def World.touch (w : World ι K) (cells : Cells K) : World ι K :=
  { w with cells := cells, window := w.window.map (fun v => { v with touched := some cells }) }

/-- The first look of `j` at the cache.  It is misled where an installation has emptied a cache that
had a live token. -/
def World.note (w : World ι K) (j : ι) (live : K → Bool) : World ι K :=
  match w.lock, w.window with
  | some i, some v =>
      if (v.without.live live).isSome then { w with misled := (j, i) :: w.misled } else w
  | _, _ => w

/-- What the outside picks: what GitHub answers, and which times are far enough ahead. -/
structure Pick (K : Type) where
  reply : Reply K
  live : K → Bool

section Service

variable (py : Runtime K) (configured : Option String) (number : Json K → Option String)

/-- How the hub goes on after an await, if the await can end. -/
def serve (j : ι) (w : World ι K) :
    (o : Call K) → Pick K → Option ((tokensApi K).Reply o × World ι K)
  | .logout, _ => some (.ok (), w.touch logout)
  | .grant _, x =>
      match polled number x.reply with
      | .ok (result, some token) => some (.ok result, w.touch ⟨some token, none⟩)
      | .ok (result, none) => some (.ok result, w)
      | .error e => some (.error e, w)
  | .peek, x => some (.ok (w.cells.live x.live), w.note j x.live)
  | .enter, x =>
      if w.lock = none then
        match w.cells.live x.live with
        | some t => some (.ok (.inl t), w)
        | none =>
            match getOauthToken ⟨none, w.cells.stored, configured, x.reply⟩ with
            | .ok oauth => some (.ok (.inr oauth), { w with lock := some j })
            | .error e => some (.error e, w)
      else none
  | .exchange oauth, x =>
      match exchanged py oauth x.reply with
      | .ok t => some (.ok t, { w with cells := { w.cells with cached := some t }, lock := none })
      | .error e => some (.error e, { w with lock := none })
  | .begin token, _ =>
      if w.lock = none then
        some (.ok w.cells, { w with
          cells := ⟨some token, none⟩, lock := some j, window := some ⟨w.cells, none⟩ })
      else none
  | .finish token previous, x =>
      some (exchanged py token x.reply, { w with
        cells := installed previous w.cells (exchanged py token x.reply)
        lock := none
        window := none })

/-- While it waits for the lock, a request may be cancelled. -/
def mayRaise : Call K → Exn → Bool
  | .enter, .fault .cancelled => true
  | .begin _, .fault .cancelled => true
  | _, _ => false

def env (ι : Type) [DecidableEq ι] : Env (tokensApi K) ι (World ι K) :=
  .faulty (serve py configured number) mayRaise (fun _ _ => false) (fun _ _ => False)

end Service

/-- The hub before the first call, with any tokens and the lock free. -/
def World.idle (cells : Cells K) : World ι K := ⟨cells, none, none, []⟩

def start (jobs : ι → Job) (cells : Cells K) :
    Config (tokensApi K) ι (World ι K) (Except Exn Unit) :=
  ⟨.idle cells, fun i => (jobs i).program.run⟩

/-! ## The condition -/

/-- The installation comes to an end that changes nothing, or replaces the tokens: the rollback puts
back what would be kept anyway, or a cancellation leaves what would be kept anyway. -/
def Window.Settled (v : Window K) (token : String) : Except Exn (ApiToken K) → Prop
  | .ok _ => True
  | .error (.fault .cancelled) => v.touched ≠ none ∨ v.saved = ⟨some token, none⟩
  | .error _ => v.touched = none ∨ v.touched = some v.saved

/-- The installation settles, and no call of `get_api_token` that it has misled replaces the API
token. -/
def Harmless (i : ι) : StepCond (tokensApi K) ι (World ι K)
  | j, w, .exchange _, r => (∃ e, r = .error e) ∨ (j, i) ∉ w.misled
  | j, w, .finish token _, r => j = i → ∀ v ∈ w.window, v.Settled token r
  | _, _, _, _ => True

/-! ## What is left of a call -/

abbrev Rest (K : Type) := Prog (tokensApi K) (Except Exn Unit)

/-- One more call. -/
abbrev last (o : Call K) : Rest K := .call o (fun r => .done (r.map fun _ => ()))

def afterEnter : (tokensApi K).Reply .enter → Rest K
  | .ok (.inl _) => .done (.ok ())
  | .ok (.inr oauth) => last (.exchange oauth)
  | .error e => .done (.error e)

def afterPeek : (tokensApi K).Reply .peek → Rest K
  | .ok (some _) => .done (.ok ())
  | .ok none => .call .enter afterEnter
  | .error e => .done (.error e)

def afterBegin (token : String) : (tokensApi K).Reply (.begin token) → Rest K
  | .ok previous => last (.finish token previous)
  | .error e => .done (.error e)

/-- A call that ends what it is part of, and whether it holds the lock. -/
inductive Ending : Call K → Bool → Prop
  | logout : Ending .logout false
  | grant (deviceCode : String) : Ending (.grant deviceCode) false
  | exchange (oauth : String) : Ending (.exchange oauth) true
  | finish (token : String) (previous : Cells K) : Ending (.finish token previous) true

/-- What can be left of a call, and whether it holds the lock. -/
inductive Stage : Rest K → Bool → Prop
  | ended (r : Except Exn Unit) : Stage (.done r) false
  | last {o : Call K} {locked : Bool} (h : Ending o locked) : Stage (last o) locked
  | peek : Stage (.call .peek afterPeek) false
  | enter : Stage (.call .enter afterEnter) false
  | begin (token : String) : Stage (.call (.begin token) (afterBegin token)) false

/-- What can be left of an installation: it has ended, it is about to begin, or it has begun and
will write the outcome. -/
inductive Installing : Rest K → Prop
  | ended (r : Except Exn Unit) : Installing (.done r)
  | begin (token : String) : Installing (.call (.begin token) (afterBegin token))
  | finish (token : String) (previous : Cells K) : Installing (last (.finish token previous))

/-- What can be left of `get_api_token` once it has found no token. -/
inductive Late : Rest K → Prop
  | ended (r : Except Exn Unit) : Late (.done r)
  | enter : Late (.call .enter afterEnter)
  | exchange (oauth : String) : Late (last (.exchange oauth))

section Shapes

omit [PyFloat K]

lemma call_congr {o : Call K} {k k' : (tokensApi K).Reply o → Rest K} (h : ∀ r, k r = k' r) :
    (.call o k : Rest K) = .call o k' := congrArg _ (funext h)

/-- A call whose answer is thrown away is the last call of its program. -/
lemma run_discarded (o : Call K) : (do let _ ← ask o : Task K Unit).run = last o :=
  call_congr (fun r => by cases r <;> rfl)

lemma run_logout : Job.logout.program.run = (last .logout : Rest K) :=
  call_congr (fun r => by cases r <;> rfl)

lemma run_read : Job.read.program.run = (.call .peek afterPeek : Rest K) := by
  refine call_congr (fun r => ?_)
  rcases r with e | (_ | t)
  · rfl
  · refine call_congr (fun r => ?_)
    rcases r with e | (t | oauth)
    · rfl
    · rfl
    · exact run_discarded (.exchange oauth)
  · rfl

/-- An installation raises at once, or begins; the token is checked before the lock is taken. -/
lemma run_install (token : String) :
    (∃ r, ((Job.install token).program.run : Rest K) = .done r) ∨
      ∃ t, ((Job.install token).program.run : Rest K) = .call (.begin t) (afterBegin t) := by
  simp only [Job.program, installOauthToken]
  split_ifs with hblank
  · exact Or.inl ⟨_, rfl⟩
  · refine Or.inr ⟨_, call_congr (fun r => ?_)⟩
    cases r with
    | error e => rfl
    | ok previous => exact run_discarded (.finish _ previous)

lemma Job.stage (job : Job) : Stage (job.program.run : Rest K) false := by
  cases job with
  | logout => exact run_logout (K := K) ▸ .last .logout
  | poll deviceCode => exact run_discarded (.grant deviceCode) ▸ .last (.grant deviceCode)
  | read => exact run_read (K := K) ▸ .peek
  | install token =>
      rcases run_install (K := K) token with ⟨r, h⟩ | ⟨t, h⟩
      · exact h ▸ .ended r
      · exact h ▸ .begin t

end Shapes

/-! ## The lock -/

/-- Every call is at a stage, and what holds the lock is where the lock says. -/
def Staged (c : Config (tokensApi K) ι (World ι K) (Except Exn Unit)) : Prop :=
  ∀ j, ∃ locked, Stage (c.prog j) locked ∧ (locked = true → c.world.lock = some j)

section Runs

variable {py : Runtime K} {configured : Option String} {number : Json K → Option String}
variable {i j : ι} {w w' : World ι K}

omit [DecidableEq ι] [PyFloat K] in
lemma note_eq (live : K → Bool) :
    ∃ misled, w.note j live = { w with misled := misled } := by
  unfold World.note
  split
  · split_ifs
    · exact ⟨_, rfl⟩
    · exact ⟨_, rfl⟩
  · exact ⟨_, rfl⟩

omit [DecidableEq ι] [PyFloat K] in
lemma lock_note (live : K → Bool) : (w.note j live).lock = w.lock := by
  obtain ⟨misled, h⟩ := note_eq (w := w) (j := j) live
  rw [h]

omit [DecidableEq ι] [PyFloat K] in
lemma cells_note (live : K → Bool) : (w.note j live).cells = w.cells := by
  obtain ⟨misled, h⟩ := note_eq (w := w) (j := j) live
  rw [h]

omit [DecidableEq ι] [PyFloat K] in
lemma window_note (live : K → Bool) : (w.note j live).window = w.window := by
  obtain ⟨misled, h⟩ := note_eq (w := w) (j := j) live
  rw [h]

omit [DecidableEq ι] in
/-- Only the thread that has the lock can be between its acquisition and its release, and the calls
of the others leave the lock with it. -/
lemma locked_serve {o : Call K} {k : (tokensApi K).Reply o → Rest K} {locked : Bool}
    (hs : Stage (.call o k) locked) (hlock : locked = true → w.lock = some j) {x : Pick K}
    {r : (tokensApi K).Reply o} (ha : serve py configured number j w o x = some (r, w')) :
    (∃ locked', Stage (k r) locked' ∧ (locked' = true → w'.lock = some j)) ∧
      ∀ m, m ≠ j → w.lock = some m → w'.lock = some m := by
  cases hs with
  | last h =>
      refine ⟨⟨false, .ended _, Bool.noConfusion⟩, fun m hm hl => ?_⟩
      cases h with
      | logout =>
          cases ha
          exact hl
      | grant code =>
          simp only [serve] at ha
          split at ha <;> cases ha <;> exact hl
      | exchange oauth => exact absurd (Option.some.inj (hl.symm.trans (hlock rfl))) hm
      | finish token previous => exact absurd (Option.some.inj (hl.symm.trans (hlock rfl))) hm
  | peek =>
      cases ha
      refine ⟨⟨false, ?_, Bool.noConfusion⟩, fun m _ hl => (lock_note _).trans hl⟩
      cases w.cells.live x.live with
      | none => exact .enter
      | some t => exact .ended _
  | enter =>
      simp only [serve] at ha
      split_ifs at ha with hfree
      refine ⟨?_, fun m _ hl => by rw [hfree] at hl; cases hl⟩
      cases hl : w.cells.live x.live with
      | some t =>
          rw [hl] at ha
          cases ha
          exact ⟨false, .ended _, Bool.noConfusion⟩
      | none =>
          rw [hl] at ha
          dsimp only at ha
          cases ht : getOauthToken ⟨none, w.cells.stored, configured, x.reply⟩ with
          | error e =>
              rw [ht] at ha
              cases ha
              exact ⟨false, .ended _, Bool.noConfusion⟩
          | ok oauth =>
              rw [ht] at ha
              cases ha
              exact ⟨true, .last (.exchange _), fun _ => rfl⟩
  | begin token =>
      simp only [serve] at ha
      split_ifs at ha with hfree
      cases ha
      exact ⟨⟨true, .last (.finish _ _), fun _ => rfl⟩, fun m _ hl => by rw [hfree] at hl; cases hl⟩

omit [PyFloat K] in
/-- A call that is refused leaves everything, and ends what it is part of. -/
lemma locked_refused {o : Call K} {k : (tokensApi K).Reply o → Rest K} {locked : Bool}
    (hs : Stage (.call o k) locked) {e : Exn} (he : mayRaise o e = true) :
    k (.error e) = .done (.error e) := by
  cases hs with
  | last h => cases h <;> cases he
  | peek => rfl
  | enter => rfl
  | begin token => rfl

lemma Staged.step {c : Config (tokensApi K) ι (World ι K) (Except Exn Unit)} (h : Staged c)
    {o : Call K} {k : (tokensApi K).Reply o → Rest K} (hp : c.prog j = .call o k)
    {x : (env py configured number ι).Choice} {r : (tokensApi K).Reply o}
    (ha : (env py configured number ι).act j c.world o x = some (r, w')) :
    Staged ⟨w', Function.update c.prog j (k r)⟩ := by
  obtain ⟨locked, hstage, hlock⟩ := h j
  rw [hp] at hstage
  have hown : (∃ locked', Stage (k r) locked' ∧ (locked' = true → w'.lock = some j)) ∧
      ∀ m, m ≠ j → c.world.lock = some m → w'.lock = some m := by
    cases x with
    | served x => exact locked_serve hstage hlock ha
    | refused e =>
        simp only [env, Env.faulty] at ha
        split_ifs at ha with he
        cases ha
        rw [locked_refused hstage he]
        exact ⟨⟨false, .ended _, Bool.noConfusion⟩, fun _ _ hl => hl⟩
    | lost x e => cases ha
  intro m
  by_cases hm : m = j
  · subst hm
    simpa using hown.1
  · obtain ⟨locked', hstage', hlock'⟩ := h m
    refine ⟨locked', by simpa [hm] using hstage', fun hl => hown.2 m hm (hlock' hl)⟩

/-! ## The run without the installation -/

/-- The hub in a run and in the run without thread `i`; `p` is what is left of that thread. -/
inductive Shadow (i : ι) (p : Rest K) (w w' : World ι K) : Prop
  | outside (hlock : w.lock ≠ some i) (hcells : w'.cells = w.cells)
      (hlock' : w'.lock = w.lock.filter (fun j => (j, i) ∉ w.misled))
  /-- Thread `i` holds the lock.  Without it nothing does, and its window tells what is kept. -/
  | inside {token : String} {v : Window K} (hlock : w.lock = some i) (hv : w.window = some v)
      (hp : p = last (.finish token v.saved)) (hempty : w.cells.cached = none)
      (hcells : w.cells = v.touched.getD ⟨some token, none⟩) (hcells' : w'.cells = v.without)
      (hlock' : w'.lock = none)

variable {p : Rest K} {w₁ : World ι K}

omit [PyFloat K] [DecidableEq ι] in
lemma live_empty {cells : Cells K} (h : cells.cached = none) (live : K → Bool) :
    cells.live live = none := by
  rw [Cells.live, h]
  rfl

omit [PyFloat K] [DecidableEq ι] in
lemma mem_note {m : ι} {live : K → Bool} : (m, i) ∈ (w.note j live).misled ↔
    (m, i) ∈ w.misled ∨
      m = j ∧ w.lock = some i ∧ ∃ v ∈ w.window, (v.without.live live).isSome = true := by
  unfold World.note
  split
  · next i' v hl hv =>
      rw [hl, hv]
      split_ifs with hlive
      · simp only [List.mem_cons, Prod.mk.injEq, Option.mem_def, Option.some.injEq,
          exists_eq_left', hlive, and_true]
        rw [or_comm, eq_comm (a := i)]
      · simp [hlive]
  · next hnone =>
      refine ⟨Or.inl, fun h => h.elim id ?_⟩
      rintro ⟨-, hl, v, hv, -⟩
      exact absurd hv (hnone i v hl)

omit [PyFloat K] [DecidableEq ι] in
/-- Where an installation that has failed settles, what is kept is what would be kept anyway. -/
lemma Window.Settled.kept {v : Window K} {token : String} {e : Exn}
    (h : v.Settled token (.error e)) :
    v.without = installed v.saved (v.touched.getD ⟨some token, none⟩) (.error e) := by
  obtain ⟨saved, touched⟩ := v
  have hrollback : (touched = none ∨ touched = some saved) → touched.getD saved = saved := by
    rintro (rfl | rfl) <;> rfl
  cases e with
  | fault f =>
      cases f with
      | cancelled =>
          rcases touched with _ | cells
          · exact h.resolve_left (fun hne => hne rfl)
          · rfl
      | _ => exact hrollback h
  | _ => exact hrollback h

omit [PyFloat K] in
/-- A change without the lock is the same in both runs. -/
lemma Shadow.touch (h : Shadow i p w w') {cells : Cells K} (hempty : cells.cached = none) :
    Shadow i p (w.touch cells) (w'.touch cells) := by
  cases h with
  | outside hlock hcells hlock' => exact .outside hlock rfl hlock'
  | inside hlock hv hp _ hcells hcells' hlock' =>
      exact .inside hlock (congrArg (Option.map _) hv) hp hempty rfl rfl hlock'

omit [PyFloat K] in
/-- Where the lock is free, both hubs are the same. -/
lemma Shadow.free (h : Shadow i p w w') (hfree : w.lock = none) :
    w'.cells = w.cells ∧ w'.lock = none := by
  cases h with
  | outside _ hcells hlock' => exact ⟨hcells, by rw [hlock', hfree]; rfl⟩
  | inside hlock => rw [hfree] at hlock; cases hlock

omit [PyFloat K] in
/-- Where another thread holds the lock, both hubs keep the same. -/
lemma Shadow.held (h : Shadow i p w w') (hj : j ≠ i) (hl : w.lock = some j) :
    w'.cells = w.cells := by
  cases h with
  | outside _ hcells _ => exact hcells
  | inside hlock => exact absurd (Option.some.inj (hl.symm.trans hlock)) hj

/-- The other run goes the same way, and the step misleads no thread. -/
def Follows (py : Runtime K) (configured : Option String) (number : Json K → Option String)
    (i j : ι) (p : Rest K) (w w₁ w' : World ι K) (o : Call K) (x : Pick K)
    (r : (tokensApi K).Reply o) : Prop :=
  (∀ m, (m, i) ∈ w₁.misled ↔ (m, i) ∈ w.misled) ∧
    ∃ w₁', serve py configured number j w' o x = some (r, w₁') ∧ Shadow i p w₁ w₁'

section Other

variable {o : Call K} {x : Pick K} {r : (tokensApi K).Reply o}

/-- A call that ends what it is part of changes the tokens of both hubs in the same way. -/
lemma Shadow.follows_last (h : Shadow i p w w') (hj : j ≠ i) {locked : Bool}
    (hlast : Ending o locked) (hlock : locked = true → w.lock = some j)
    (ha : serve py configured number j w o x = some (r, w₁)) :
    Follows py configured number i j p w w₁ w' o x r := by
  cases hlast with
  | logout =>
      cases ha
      exact ⟨fun _ => Iff.rfl, _, rfl, h.touch rfl⟩
  | grant code =>
      unfold Follows
      simp only [serve] at ha ⊢
      split at ha
      · cases ha
        exact ⟨fun _ => Iff.rfl, _, rfl, h.touch rfl⟩
      · cases ha
        exact ⟨fun _ => Iff.rfl, _, rfl, h⟩
      · cases ha
        exact ⟨fun _ => Iff.rfl, _, rfl, h⟩
  | exchange oauth =>
      -- The thread holds the lock, so that the installation is not at work.
      have hcells := h.held hj (hlock rfl)
      unfold Follows
      simp only [serve] at ha ⊢
      cases hx : exchanged py oauth x.reply with
      | ok t =>
          simp only [hx] at ha ⊢
          cases ha
          exact ⟨fun _ => Iff.rfl, _, rfl, .outside nofun (by rw [hcells]) rfl⟩
      | error e =>
          simp only [hx] at ha ⊢
          cases ha
          exact ⟨fun _ => Iff.rfl, _, rfl, .outside nofun hcells rfl⟩
  | finish token previous =>
      have hcells := h.held hj (hlock rfl)
      cases ha
      refine ⟨fun _ => Iff.rfl, _, rfl, .outside nofun ?_ rfl⟩
      rw [hcells]

/-- A thread that takes the lock, or finds a token, does so in both runs: the lock is free in both,
and the tokens are the same. -/
lemma Shadow.follows_enter (h : Shadow i p w w') (hj : j ≠ i) (hm : (j, i) ∉ w.misled)
    {r : (tokensApi K).Reply .enter}
    (ha : serve py configured number j w .enter x = some (r, w₁)) :
    Follows py configured number i j p w w₁ w' .enter x r := by
  unfold Follows
  simp only [serve] at ha ⊢
  split_ifs at ha with hfree
  obtain ⟨hcells, hfree'⟩ := h.free hfree
  rw [if_pos hfree', hcells]
  cases hl : w.cells.live x.live with
  | some t =>
      simp only [hl] at ha ⊢
      cases ha
      exact ⟨fun _ => Iff.rfl, _, rfl, h⟩
  | none =>
      simp only [hl] at ha ⊢
      cases ht : getOauthToken ⟨none, w.cells.stored, configured, x.reply⟩ with
      | error e =>
          simp only [ht] at ha ⊢
          cases ha
          exact ⟨fun _ => Iff.rfl, _, rfl, h⟩
      | ok oauth =>
          simp only [ht] at ha ⊢
          cases ha
          refine ⟨fun _ => Iff.rfl, _, rfl, .outside ?_ rfl ?_⟩
          · exact fun heq => hj (Option.some.inj heq)
          · simp [Option.filter, hm]

/-- So does another installation, which waits for the lock in both worlds alike. -/
lemma Shadow.follows_begin (h : Shadow i p w w') (hj : j ≠ i) (hm : (j, i) ∉ w.misled)
    {token : String} {r : (tokensApi K).Reply (.begin token)}
    (ha : serve py configured number j w (.begin token) x = some (r, w₁)) :
    Follows py configured number i j p w w₁ w' (.begin token) x r := by
  unfold Follows
  simp only [serve] at ha ⊢
  split_ifs at ha with hfree
  obtain ⟨hcells, hfree'⟩ := h.free hfree
  cases ha
  rw [if_pos hfree', hcells]
  refine ⟨fun _ => Iff.rfl, _, rfl, .outside ?_ rfl ?_⟩
  · exact fun heq => hj (Option.some.inj heq)
  · simp [Option.filter, hm]

/-- A thread that looks for a token is misled if the installation has taken away the one that it
would have found. -/
lemma Shadow.peek (h : Shadow i p w w') (x : Pick K) :
    Follows py configured number i j p w (w.note j x.live) w' .peek x
        (.ok (w.cells.live x.live)) ∨
      (w.cells.live x.live = none ∧
        (∀ m, (m, i) ∈ (w.note j x.live).misled ↔ (m, i) ∈ w.misled ∨ m = j) ∧
        ∃ t, serve py configured number j w' .peek x = some (.ok (some t), w'.note j x.live) ∧
          Shadow i p (w.note j x.live) (w'.note j x.live)) := by
  cases h with
  | outside hout hcells hlock' =>
      have hsame : ∀ m, (m, i) ∈ (w.note j x.live).misled ↔ (m, i) ∈ w.misled := fun m => by
        simp [mem_note, hout]
      refine Or.inl ⟨hsame, w'.note j x.live, by rw [serve, hcells], .outside ?_ ?_ ?_⟩
      · rw [lock_note]
        exact hout
      · rw [cells_note, cells_note]
        exact hcells
      · rw [lock_note, lock_note, hlock']
        simp only [hsame]
  | @inside token v hin hv hp hempty hcells hcells' hlock' =>
      have hshadow : Shadow i p (w.note j x.live) (w'.note j x.live) := by
        refine .inside ((lock_note _).trans hin) ((window_note _).trans hv) hp ?_ ?_ ?_ ?_
        · rw [cells_note]
          exact hempty
        · rw [cells_note]
          exact hcells
        · rw [cells_note]
          exact hcells'
        · rw [lock_note]
          exact hlock'
      rw [live_empty hempty]
      cases hlive : v.without.live x.live with
      | none =>
          refine Or.inl ⟨fun m => ?_, w'.note j x.live, ?_, hshadow⟩
          · simp [mem_note, hv, hlive]
          · rw [serve, hcells', hlive]
      | some t =>
          refine Or.inr ⟨rfl, fun m => ?_, t, ?_, hshadow⟩
          · simp [mem_note, hin, hv, hlive]
          · rw [serve, hcells', hlive]

end Other

/-- A call of another thread that the installation has not misled: the other run goes the same way,
unless this is where the thread is misled. -/
lemma Shadow.other (h : Shadow i p w w') (hj : j ≠ i) (hm : (j, i) ∉ w.misled) {o : Call K}
    {k : (tokensApi K).Reply o → Rest K} {locked : Bool} (hs : Stage (.call o k) locked)
    (hlock : locked = true → w.lock = some j) {x : Pick K} {r : (tokensApi K).Reply o}
    (ha : serve py configured number j w o x = some (r, w₁)) :
    Follows py configured number i j p w w₁ w' o x r ∨
      (k r = .call .enter afterEnter ∧ (∀ m, (m, i) ∈ w₁.misled ↔ (m, i) ∈ w.misled ∨ m = j) ∧
        ∃ r' w₁', serve py configured number j w' o x = some (r', w₁') ∧ k r' = .done (.ok ()) ∧
          Shadow i p w₁ w₁') := by
  cases hs with
  | last hlast => exact .inl (h.follows_last hj hlast hlock ha)
  | peek =>
      cases ha
      rcases h.peek (j := j) x with hfollows | ⟨hnone, hmisled, t, hserve, hshadow⟩
      · exact .inl hfollows
      · exact .inr ⟨by rw [hnone]; rfl, hmisled, _, _, hserve, rfl, hshadow⟩
  | enter => exact .inl (h.follows_enter hj hm ha)
  | begin token => exact .inl (h.follows_begin hj hm ha)

/-- A call of a thread that the installation has misled: the other run stays where it is. -/
lemma Shadow.late (h : Shadow i p w w') (hj : j ≠ i) (hm : (j, i) ∈ w.misled) {o : Call K}
    {k : (tokensApi K).Reply o → Rest K} {locked : Bool} (hs : Stage (.call o k) locked)
    (hlock : locked = true → w.lock = some j) (hlate : Late (.call o k)) {x : Pick K}
    {r : (tokensApi K).Reply o} (ha : serve py configured number j w o x = some (r, w₁))
    (hok : Harmless i j w o r) : Late (k r) ∧ w₁.misled = w.misled ∧ Shadow i p w₁ w' := by
  cases hlate with
  | enter =>
      simp only [serve] at ha
      split_ifs at ha with hfree
      obtain ⟨hcells, hfree'⟩ := h.free hfree
      cases hl : w.cells.live x.live with
      | some t =>
          rw [hl] at ha
          cases ha
          exact ⟨.ended _, rfl, h⟩
      | none =>
          rw [hl] at ha
          dsimp only at ha
          cases ht : getOauthToken ⟨none, w.cells.stored, configured, x.reply⟩ with
          | error e =>
              rw [ht] at ha
              cases ha
              exact ⟨.ended _, rfl, h⟩
          | ok oauth =>
              rw [ht] at ha
              cases ha
              refine ⟨.exchange _, rfl, .outside ?_ hcells ?_⟩
              · exact fun heq => hj (Option.some.inj heq)
              · simp [Option.filter, hm, hfree']
  | exchange oauth =>
      cases hs with
      | last hlast =>
          cases hlast with
          | exchange =>
              have hl := hlock rfl
              obtain ⟨e, rfl⟩ := hok.resolve_right (fun hn => hn hm)
              simp only [serve] at ha
              cases hx : exchanged py oauth x.reply with
              | ok t =>
                  rw [hx] at ha
                  cases ha
              | error e =>
                  rw [hx] at ha
                  cases ha
                  refine ⟨.ended _, rfl, .outside nofun (h.held hj hl) ?_⟩
                  cases h with
                  | outside _ _ hlock' => simp [hlock', hl, Option.filter, hm]
                  | inside hin => exact absurd (Option.some.inj (hl.symm.trans hin)) hj

omit [PyFloat K] in
/-- Only a call that waits for the lock is refused. -/
lemma Shadow.refused {o : Call K} {k : (tokensApi K).Reply o → Rest K} {e : Exn}
    (h : Shadow i (.call o k) w w') (he : mayRaise o e = true) (q : Rest K) : Shadow i q w w' := by
  cases h with
  | outside hlock hcells hlock' => exact .outside hlock hcells hlock'
  | inside _ _ hp =>
      obtain ⟨rfl, -⟩ := Prog.call.inj hp
      cases he

/-- A call of the installation: the other run stays where it is, and is caught up with where the
installation fails. -/
lemma Shadow.own {o : Call K} {k : (tokensApi K).Reply o → Rest K}
    (h : Shadow i (.call o k) w w') {locked : Bool} (hs : Stage (.call o k) locked)
    (hlock : locked = true → w.lock = some i) (hinst : Installing (.call o k)) {x : Pick K}
    {r : (tokensApi K).Reply o} (ha : serve py configured number i w o x = some (r, w₁))
    (hok : Harmless i i w o r) : (∃ a, k r = .done (.ok a)) ∨
      (Installing (k r) ∧ w₁.misled = w.misled ∧ Shadow i (k r) w₁ w') := by
  cases hinst with
  | begin token =>
      simp only [serve] at ha
      split_ifs at ha with hfree
      obtain ⟨hcells, hfree'⟩ := h.free hfree
      cases ha
      exact Or.inr ⟨.finish _ _, rfl, .inside rfl rfl rfl rfl rfl hcells hfree'⟩
  | finish token previous =>
      have hl : w.lock = some i := by
        cases hs with
        | last hlast => cases hlast with
          | finish => exact hlock rfl
      cases h with
      | outside hout => exact absurd hl hout
      | @inside token' v _ hv hp hempty hcells hcells' hlock' =>
          obtain ⟨htoken, hsaved⟩ := Call.finish.inj (Prog.call.inj hp).1
          subst htoken hsaved
          have hsafe := hok rfl v hv
          cases ha
          cases hx : exchanged py token x.reply with
          | ok t => exact Or.inl ⟨(), rfl⟩
          | error e =>
              rw [hx] at hsafe
              refine Or.inr ⟨.ended _, rfl, .outside nofun ?_ hlock'⟩
              exact (hcells'.trans hsafe.kept).trans (by rw [hcells])

/-! ## Whole runs -/

/-- A run, and the run without thread `i`, which has not completed its installation. -/
structure Related (i : ι) (c c' : Config (tokensApi K) ι (World ι K) (Except Exn Unit)) : Prop where
  installing : Installing (c.prog i)
  world : Shadow i (c.prog i) c.world c'.world
  self : (i, i) ∉ c.world.misled
  same : ∀ j, j ≠ i → (j, i) ∉ c.world.misled → c'.prog j = c.prog j
  late : ∀ j, (j, i) ∈ c.world.misled → Late (c.prog j) ∧ ∃ r, c'.prog j = .done r

variable {c c' : Config (tokensApi K) ι (World ι K) (Except Exn Unit)}

omit [PyFloat K] in
/-- What the step of another thread has to keep: the worlds stay in the relation, and the thread
goes on alike unless it was misled. -/
lemma Related.moved (h : Related i c c') (hj : j ≠ i) {q q' : Rest K} {w₁ w₁' : World ι K}
    (hshadow : Shadow i (c.prog i) w₁ w₁')
    (hmisled : ∀ m, m ≠ j → ((m, i) ∈ w₁.misled ↔ (m, i) ∈ c.world.misled))
    (hsame : (j, i) ∉ w₁.misled → q' = q)
    (hlate : (j, i) ∈ w₁.misled → Late q ∧ ∃ r, q' = .done r) :
    Related i ⟨w₁, Function.update c.prog j q⟩ ⟨w₁', Function.update c'.prog j q'⟩ where
  installing := by simpa [Ne.symm hj] using h.installing
  world := by simpa [Ne.symm hj] using hshadow
  self := fun hself => h.self ((hmisled i (Ne.symm hj)).1 hself)
  same := fun m hm hnot => by
    by_cases hmj : m = j
    · subst hmj
      simpa using hsame hnot
    · simpa [hmj] using h.same m hm (fun hin => hnot ((hmisled m hmj).2 hin))
  late := fun m hin => by
    by_cases hmj : m = j
    · subst hmj
      simpa using hlate hin
    · simpa [hmj] using h.late m ((hmisled m hmj).1 hin)

/-- The step of another thread, and what becomes of it in the run without the installation. -/
lemma Related.other (h : Related i c c') (hstaged : Staged c) (hj : j ≠ i) {o : Call K}
    {k : (tokensApi K).Reply o → Rest K} (hp : c.prog j = .call o k)
    {x : (env py configured number ι).Choice} {r : (tokensApi K).Reply o}
    (ha : (env py configured number ι).act j c.world o x = some (r, w₁))
    (hok : Harmless i j c.world o r) :
    Related i ⟨w₁, Function.update c.prog j (k r)⟩
      ((c'.playOne (env py configured number ι) anyStep (j, x)).getD c') := by
  obtain ⟨locked, hstage, hlock⟩ := hstaged j
  rw [hp] at hstage
  by_cases hm : (j, i) ∈ c.world.misled
  · -- In the other run the thread has returned.
    obtain ⟨hlate, r', hdone⟩ := h.late j hm
    rw [hp] at hlate
    rw [Config.playOne_done hdone, Option.getD_none]
    have hstay : c' = ⟨c'.world, Function.update c'.prog j (.done r')⟩ := by
      rw [← hdone, Function.update_eq_self]
    rw [hstay]
    cases x with
    | served x =>
        obtain ⟨hlate', hsame, hshadow⟩ := h.world.late hj hm hstage hlock hlate ha hok
        exact h.moved hj hshadow (fun m _ => by rw [hsame]) (fun hn => absurd (hsame ▸ hm) hn)
          (fun _ => ⟨hlate', r', rfl⟩)
    | refused e =>
        simp only [env, Env.faulty] at ha
        split_ifs at ha with he
        cases ha
        rw [locked_refused hstage he]
        exact h.moved hj h.world (fun m _ => Iff.rfl) (fun hn => absurd hm hn)
          (fun _ => ⟨.ended _, r', rfl⟩)
    | lost x e => cases ha
  · have hp' : c'.prog j = .call o k := (h.same j hj hm).trans hp
    obtain ⟨r', w₁', ha', hrelated⟩ : ∃ r' w₁',
        (env py configured number ι).act j c'.world o x = some (r', w₁') ∧
          Related i ⟨w₁, Function.update c.prog j (k r)⟩
            ⟨w₁', Function.update c'.prog j (k r')⟩ := by
      cases x with
      | served x =>
          rcases h.world.other hj hm hstage hlock ha with
            ⟨hsame, w₁', ha', hshadow⟩ | ⟨henter, hnew, r', w₁', ha', hdone, hshadow⟩
          · exact ⟨r, w₁', ha', h.moved hj hshadow (fun m _ => hsame m) (fun _ => rfl)
              (fun hin => absurd ((hsame j).1 hin) hm)⟩
          · refine ⟨r', w₁', ha', ?_⟩
            rw [henter, hdone]
            refine h.moved hj hshadow (fun m hmj => ?_) (fun hn => ?_) (fun _ => ⟨.enter, _, rfl⟩)
            · rw [hnew]
              exact or_iff_left hmj
            · exact absurd ((hnew j).2 (Or.inr rfl)) hn
      | refused e =>
          simp only [env, Env.faulty] at ha ⊢
          split_ifs at ha with he
          cases ha
          exact ⟨_, c'.world, if_pos he, h.moved hj h.world (fun m _ => Iff.rfl) (fun _ => rfl)
            (fun hin => absurd hin hm)⟩
      | lost x e => cases ha
    rw [Config.playOne_call hp' ha', Option.getD_some]
    exact hrelated

/-- The step of the installation itself: it succeeds, or it undoes what it did and the worlds are
related again. -/
lemma Related.own (h : Related i c c') (hstaged : Staged c) {o : Call K}
    {k : (tokensApi K).Reply o → Rest K} (hp : c.prog i = .call o k)
    {x : (env py configured number ι).Choice} {r : (tokensApi K).Reply o}
    (ha : (env py configured number ι).act i c.world o x = some (r, w₁))
    (hok : Harmless i i c.world o r) :
    (∃ a, k r = .done (.ok a)) ∨ Related i ⟨w₁, Function.update c.prog i (k r)⟩ c' := by
  obtain ⟨locked, hstage, hlock⟩ := hstaged i
  have hworld := h.world
  have hinst := h.installing
  rw [hp] at hstage hworld hinst
  have hnext : (∃ a, k r = .done (.ok a)) ∨
      (Installing (k r) ∧ w₁.misled = c.world.misled ∧ Shadow i (k r) w₁ c'.world) := by
    cases x with
    | served x => exact hworld.own hstage hlock hinst ha hok
    | refused e =>
        simp only [env, Env.faulty] at ha
        split_ifs at ha with he
        cases ha
        rw [locked_refused hstage he]
        exact Or.inr ⟨.ended _, rfl, hworld.refused he _⟩
    | lost x e => cases ha
  refine hnext.imp_right (fun hright => ?_)
  obtain ⟨hinst', hmisled, hshadow⟩ := hright
  refine ⟨by simpa using hinst', by simpa using hshadow, by rw [hmisled]; exact h.self, ?_, ?_⟩
  · intro m hm hnot
    rw [hmisled] at hnot
    simpa [hm] using h.same m hm hnot
  · intro m hin
    rw [hmisled] at hin
    have hm : m ≠ i := fun heq => h.self (heq ▸ hin)
    simpa [hm] using h.late m hin

/-- As long as the installation has not completed, the run without it keeps up. -/
lemma Related.run (h : Related i c c') (hstaged : Staged c)
    {ss : List (ι × (env py configured number ι).Choice)}
    {c₁ : Config (tokensApi K) ι (World ι K) (Except Exn Unit)}
    (hplays : Plays (env py configured number ι) (Harmless i) c ss c₁) :
    (∃ a, c₁.prog i = .done (.ok a)) ∨
      Related i c₁ (c'.skim (env py configured number ι) (ss.filter (fun s => s.1 ≠ i))) := by
  induction hplays generalizing c' with
  | nil => exact Or.inr h
  | @cons c c₁ j x ss o k r w' hp ha hok hrest ih =>
      have hstaged' := hstaged.step hp ha
      by_cases hj : j = i
      · subst hj
        rw [List.filter_cons_of_neg (by simp)]
        rcases h.own hstaged hp ha hok with ⟨a, hdone⟩ | hrelated
        · exact Or.inl ⟨a, hrest.returned (by simpa using hdone)⟩
        · exact ih hrelated hstaged'
      · rw [List.filter_cons_of_pos (by simpa using hj)]
        exact ih (h.other hstaged hj hp ha hok) hstaged'

omit [PyFloat K] in
lemma related_start {jobs : ι → Job} {token : String} (hjob : jobs i = .install token)
    (cells : Cells K) : Related i (start jobs cells) (start jobs cells) where
  installing := by
    rcases run_install (K := K) token with ⟨r, h⟩ | ⟨t, h⟩
    · simpa only [start, hjob, h] using Installing.ended r
    · simpa only [start, hjob, h] using Installing.begin t
  world := .outside nofun rfl rfl
  self := List.not_mem_nil
  same := fun _ _ _ => rfl
  late := fun _ hin => absurd hin List.not_mem_nil

/-- **A failed installation is invisible**, in every run whose steps are harmless to it: the stored
token and the API token are those of the run without its calls. -/
theorem install_invisible {jobs : ι → Job} {token : String} (hjob : jobs i = .install token)
    {cells : Cells K} {ss : List (ι × (env py configured number ι).Choice)}
    {c : Config (tokensApi K) ι (World ι K) (Except Exn Unit)}
    (h : Plays (env py configured number ι) (Harmless i) (start jobs cells) ss c) {e : Exn}
    (hfailed : c.prog i = .done (.error e)) :
    c.world.cells = ((start jobs cells).skim (env py configured number ι)
      (ss.filter (fun s => s.1 ≠ i))).world.cells := by
  have hstaged : Staged (start jobs cells) := fun j => ⟨false, (jobs j).stage, Bool.noConfusion⟩
  rcases (related_start hjob cells).run hstaged h with ⟨a, hdone⟩ | hrelated
  · rw [hdone] at hfailed
    cases hfailed
  · cases hrelated.world with
    | outside _ hcells _ => exact hcells.symm
    | inside _ _ hp =>
        rw [hfailed] at hp
        cases hp

end Runs

/-! ## Examples -/

/-- The hub serves on a token that has been exchanged. -/
def serving : Cells ℚ := ⟨some "old", some ⟨.str "tid", .str "https://api.example", 8888⟩⟩

/-- GitHub does not answer, and no token has expired, so that the exchange fails for the outside's
reason. -/
def unreachable : Fate (Pick ℚ) Exn := .served ⟨.failed .transport, fun _ => true⟩

/-- A token is installed while another call runs, in the two threads of the schedules that fail. -/
def during (job : Job) : Bool → Job
  | false => .install "bad"
  | true => job

abbrev hub : Env (tokensApi ℚ) Bool (World Bool ℚ) := env .strict none (fun _ => none) Bool

/-- A call of `get_api_token` finds the cache empty, waits, and finds the token that has been put
back. -/
theorem install_invisible_read :
    ∃ c, Plays hub (Harmless false) (start (during .read) serving)
        [(false, unreachable), (true, unreachable), (false, unreachable), (true, unreachable)] c ∧
      c.prog false = .done (.error (.fault .transport)) ∧
      c.world.cells = ((start (during .read) serving).skim hub
        [(true, unreachable), (true, unreachable)]).world.cells := by
  have hsettled : false = false → ∀ v ∈ some (⟨serving, none⟩ : Window ℚ),
      v.Settled "bad" (.error (.fault .transport)) := by
    rintro - v ⟨⟩
    exact Or.inl rfl
  have hplays : Plays hub (Harmless false) (start (during .read) serving)
        [(false, unreachable), (true, unreachable), (false, unreachable), (true, unreachable)] _ :=
    .cons rfl rfl trivial (.cons rfl rfl trivial
      (.cons rfl rfl hsettled (.cons rfl rfl trivial (.nil _))))
  exact ⟨_, hplays, rfl, install_invisible (i := false) rfl hplays rfl⟩

/-- The user logs out while the token is exchanged, and the rollback logs in again. -/
theorem logout_undone :
    ∃ c, Plays hub anyStep (start (during .logout) serving)
        [(false, unreachable), (true, unreachable), (false, unreachable)] c ∧
      c.prog false = .done (.error (.fault .transport)) ∧
      c.world.cells.stored = some "old" ∧
      ((start (during .logout) serving).skim hub [(true, unreachable)]).world.cells.stored =
        none := by
  have hplays : Plays hub anyStep (start (during .logout) serving)
        [(false, unreachable), (true, unreachable), (false, unreachable)] _ :=
    .cons rfl rfl trivial (.cons rfl rfl trivial (.cons rfl rfl trivial (.nil _)))
  exact ⟨_, hplays, rfl, rfl, rfl⟩

/-- The request is cancelled while the token is exchanged, and the token stays installed. -/
theorem cancelled_kept :
    ∃ c, Plays hub anyStep (start (during .read) serving)
        [(false, unreachable), (false, .served ⟨.failed .cancelled, fun _ => true⟩)] c ∧
      c.prog false = .done (.error (.fault .cancelled)) ∧
      c.world.cells = ⟨some "bad", none⟩ ∧
      ((start (during .read) serving).skim hub []).world.cells = serving := by
  have hplays : Plays hub anyStep (start (during .read) serving)
        [(false, unreachable), (false, .served ⟨.failed .cancelled, fun _ => true⟩)] _ :=
    .cons rfl rfl trivial (.cons rfl rfl trivial (.nil _))
  exact ⟨_, hplays, rfl, rfl, rfl⟩

end TokenInstall
end TokenFoundry
