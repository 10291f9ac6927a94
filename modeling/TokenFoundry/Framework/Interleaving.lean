import TokenFoundry.Framework.Programs
import Mathlib.Logic.Relation

/-!
# Interleaved programs over a shared world

Any number of programs run against one shared world.  A `Config` is the world together with
what is left of every program; one `Step` lets some program make its next call, or lets the
world move by itself.  The outside is described by an `Env`: given the calling thread, the
world and the call, each *choice* of the outside (the call succeeds, it fails, it fails after
taking effect, …) yields at most one reply and one new world.  `Env.act` is a function, so
a concrete schedule can be executed (`Config.play`).

Statements about all interleavings are proved with a `Discipline`: a world invariant, and for
each thread a *rely*, the reflexive and transitive relation that steps of the others keep.
`Discipline.wp` is the weakest precondition of a program under interference: at every call
the thread sees some world that the rely allows, its own step must keep the invariant and the
rely of every other thread, and the continuation is judged in the new world.
`Discipline.sound` is the parallel composition rule: programs that each satisfy their weakest
precondition satisfy it in every reachable configuration.

A run may be restricted to steps that meet a condition `ok` on the thread, the world before
the step, the call and its reply.  `anyStep` is the unrestricted case.
-/

set_option autoImplicit false

namespace TokenFoundry

/-- The outside of a set of threads `ι`: how calls are answered and how the world drifts. -/
structure Env {Err : Type} (E : Interface Err) (ι W : Type) where
  /-- What the outside may decide about a call. -/
  Choice : Type
  /-- The reply and the new world, or `none` where that choice is impossible. -/
  act : ι → W → (o : E.Call) → Choice → Option (E.Reply o × W)
  /-- Moves of the world that no thread makes. -/
  drift : W → W → Prop

/-- What may become of a call: it is served, it is refused without effect, or it is served
and the reply is lost.  The outside may pick a value `X` (an id, a clock reading) on the way. -/
inductive Fate (X Err : Type)
  | served (x : X)
  | refused (e : Err)
  | lost (x : X) (e : Err)

/-- The environment in which a call may raise, as far as `mayRaise` allows, without effect, and
as far as `mayLose` allows, after its effect. -/
def Env.faulty {Err : Type} {E : Interface Err} {ι W X : Type}
    (serve : ι → W → (o : E.Call) → X → Option (E.Reply o × W))
    (mayRaise mayLose : E.Call → Err → Bool) (drift : W → W → Prop) : Env E ι W where
  Choice := Fate X Err
  act i w o
    | .served x => serve i w o x
    | .refused e => if mayRaise o e then some (.error e, w) else none
    | .lost x e => if mayLose o e then (serve i w o x).map (fun p => (.error e, p.2)) else none
  drift := drift

/-- A call of a faulty environment either had the effect of being served, or none. -/
lemma Env.faulty_act {Err : Type} {E : Interface Err} {ι W X : Type}
    {serve : ι → W → (o : E.Call) → X → Option (E.Reply o × W)}
    {mayRaise mayLose : E.Call → Err → Bool} {drift : W → W → Prop} {i : ι} {w w' : W}
    {o : E.Call} {f : Fate X Err} {r : E.Reply o}
    (h : (Env.faulty serve mayRaise mayLose drift).act i w o f = some (r, w')) :
    (∃ x r₀, serve i w o x = some (r₀, w') ∧
        (r = r₀ ∨ ∃ e, mayLose o e = true ∧ r = .error e)) ∨
      (w' = w ∧ ∃ e, mayRaise o e = true ∧ r = .error e) := by
  cases f with
  | served x => exact .inl ⟨x, r, h, .inl rfl⟩
  | refused e =>
      simp only [Env.faulty] at h
      split_ifs at h with he
      cases h
      exact .inr ⟨rfl, e, he, rfl⟩
  | lost x e =>
      simp only [Env.faulty] at h
      split_ifs at h with he
      obtain ⟨⟨r₀, w₀⟩, hs, heq⟩ := Option.map_eq_some_iff.1 h
      cases heq
      exact .inl ⟨x, r₀, hs, .inr ⟨e, he, rfl⟩⟩

/-- A world together with what is left of every thread's program.  The threads share the world and
nothing else. -/
structure Config {Err : Type} (E : Interface Err) (ι W α : Type) where
  world : W
  prog : ι → Prog E α

/-- A condition on the steps of a run. -/
abbrev StepCond {Err : Type} (E : Interface Err) (ι W : Type) :=
  ι → W → (o : E.Call) → E.Reply o → Prop

/-- The condition every step meets; under it, a run is any interleaving that the environment
admits. -/
def anyStep {Err : Type} {E : Interface Err} {ι W : Type} : StepCond E ι W := fun _ _ _ _ => True

section Steps

variable {Err : Type} {E : Interface Err} {ι W α : Type} [DecidableEq ι]

/-- One step of the system: a thread makes its next call, or the world drifts. -/
inductive Step (env : Env E ι W) (ok : StepCond E ι W) : Config E ι W α → Config E ι W α → Prop
  | call {c : Config E ι W α} {i : ι} {o : E.Call} {k : E.Reply o → Prog E α}
      {x : env.Choice} {r : E.Reply o} {w' : W}
      (hp : c.prog i = .call o k) (ha : env.act i c.world o x = some (r, w'))
      (hok : ok i c.world o r) :
      Step env ok c ⟨w', Function.update c.prog i (k r)⟩
  | drift {c : Config E ι W α} {w' : W} (hd : env.drift c.world w') :
      Step env ok c ⟨w', c.prog⟩

/-- A step that one thread makes: it makes the call that its program waits for, the outside answers,
and the rest of the program gets the reply. -/
inductive Moves (env : Env E ι W) (ok : StepCond E ι W) (i : ι) :
    Config E ι W α → Config E ι W α → Prop
  | mk {c : Config E ι W α} {o : E.Call} {k : E.Reply o → Prog E α} {x : env.Choice}
      {r : E.Reply o} {w' : W} (hp : c.prog i = .call o k)
      (ha : env.act i c.world o x = some (r, w')) (hok : ok i c.world o r) :
      Moves env ok i c ⟨w', Function.update c.prog i (k r)⟩

lemma Moves.step {env : Env E ι W} {ok : StepCond E ι W} {i : ι} {c c' : Config E ι W α}
    (h : Moves env ok i c c') : Step env ok c c' := by
  cases h with
  | mk hp ha hok => exact .call hp ha hok

instance {i : ι} {w : W} {o : E.Call} {r : E.Reply o} :
    Decidable ((anyStep : StepCond E ι W) i w o r) := inferInstanceAs (Decidable True)

/-- Reachability by any number of steps that meet the condition. -/
abbrev Reaches (env : Env E ι W) (ok : StepCond E ι W) :
    Config E ι W α → Config E ι W α → Prop :=
  Relation.ReflTransGen (Step env ok)

/-- A run under a condition is in particular a run, so that what holds of every run holds of it. -/
lemma Reaches.any {env : Env E ι W} {ok : StepCond E ι W} {c c' : Config E ι W α}
    (h : Reaches env ok c c') : Reaches env anyStep c c' := by
  induction h with
  | refl => exact .refl
  | tail _ hstep ih =>
      cases hstep with
      | call hp ha _ => exact .tail ih (.call hp ha trivial)
      | drift hd => exact .tail ih (.drift hd)

/-- A preorder that every call and every drift respects relates the ends of every run. -/
lemma Reaches.relates {env : Env E ι W} {ok : StepCond E ι W} {R : W → W → Prop}
    (hrefl : ∀ w, R w w) (htrans : ∀ w₁ w₂ w₃, R w₁ w₂ → R w₂ w₃ → R w₁ w₃)
    (hact : ∀ i w o x r w', env.act i w o x = some (r, w') → R w w')
    (hdrift : ∀ w w', env.drift w w' → R w w') {c c' : Config E ι W α}
    (h : Reaches env ok c c') : R c.world c'.world := by
  induction h with
  | refl => exact hrefl _
  | tail _ hstep ih =>
      refine htrans _ _ _ ih ?_
      cases hstep with
      | call _ ha _ => exact hact _ _ _ _ _ _ ha
      | drift hd => exact hdrift _ _ hd

/-- A thread has returned this value, and has no calls left to make. -/
def Config.Returned (c : Config E ι W α) (i : ι) (a : α) : Prop := c.prog i = .done a

instance [DecidableEq α] (c : Config E ι W α) (i : ι) (a : α) : Decidable (c.Returned i a) :=
  match h : c.prog i with
  | .done b => decidable_of_iff (b = a) (by simp [Config.Returned, h])
  | .call _ _ => isFalse (by simp [Config.Returned, h])

/-- A thread has not made a call yet, or has returned: it is not in the middle of anything. -/
def Config.Idle (progs : ι → Prog E α) (c : Config E ι W α) (i : ι) : Prop :=
  c.prog i = progs i ∨ ∃ a, c.prog i = .done a

/-- No thread is in the middle of its program.  What the threads disturb for a while and put right
again is stated of such worlds. -/
def Config.Quiescent (progs : ι → Prog E α) (c : Config E ι W α) : Prop :=
  ∀ i, c.Idle progs i

/-- While a thread has not made a call, a property that the others keep goes on holding. -/
lemma Reaches.untouched {env : Env E ι W} {ok : StepCond E ι W} {i : ι} {P : W → Prop}
    (hact : ∀ j w o x r w', j ≠ i → env.act j w o x = some (r, w') → P w → P w')
    (hdrift : ∀ w w', env.drift w w' → P w → P w') {c c' : Config E ι W α}
    (h : Reaches env ok c c') (hw : P c.world) (hi : c'.prog i = c.prog i) : P c'.world := by
  -- A thread that has made a call is at a later place of its program, and no program is later than
  -- itself.
  have hor : (P c'.world ∧ c'.prog i = c.prog i) ∨
      Relation.TransGen Prog.After (c'.prog i) (c.prog i) := by
    clear hi
    induction h with
    | refl => exact .inl ⟨hw, rfl⟩
    | @tail c₁ c₂ _ hstep ih =>
        cases hstep with
        | @call j o k x r w' hp ha _ =>
            by_cases hj : i = j
            · subst hj
              have hafter : Prog.After (k r) (c₁.prog i) := hp ▸ .mk o k r
              simp only [Function.update_self]
              rcases ih with ⟨-, hsame⟩ | hlater
              · exact .inr (.single (hsame ▸ hafter))
              · exact .inr (.head hafter hlater)
            · simp only [Function.update_of_ne hj]
              rcases ih with ⟨hP, hsame⟩ | hlater
              · exact .inl ⟨hact j _ o x r w' (Ne.symm hj) ha hP, hsame⟩
              · exact .inr hlater
        | drift hd =>
            rcases ih with ⟨hP, hsame⟩ | hlater
            · exact .inl ⟨hdrift _ _ hd hP, hsame⟩
            · exact .inr hlater
  rcases hor with ⟨hP, -⟩ | hlater
  · exact hP
  · rw [hi] at hlater
    exact absurd hlater (Prog.not_after_self _)

/-! ## Executing a schedule -/

section Play

variable (env : Env E ι W) (ok : StepCond E ι W) [∀ i w o r, Decidable (ok i w o r)]

/-- Let one thread make its next call with one choice of the outside. -/
def Config.playOne (c : Config E ι W α) (s : ι × env.Choice) : Option (Config E ι W α) :=
  match c.prog s.1 with
  | .done _ => none
  | .call o k =>
      match env.act s.1 c.world o s.2 with
      | none => none
      | some (r, w') =>
          if ok s.1 c.world o r then some ⟨w', Function.update c.prog s.1 (k r)⟩ else none

/-- Execute a schedule: the threads in the order in which they make their calls. -/
def Config.play : Config E ι W α → List (ι × env.Choice) → Option (Config E ι W α)
  | c, [] => some c
  | c, s :: ss => (c.playOne env ok s).bind (fun c' => c'.play ss)

variable {env ok}

lemma Config.playOne_moves {c c' : Config E ι W α} {s : ι × env.Choice}
    (h : c.playOne env ok s = some c') : Moves env ok s.1 c c' := by
  unfold Config.playOne at h
  split at h
  · cases h
  · next o k hp =>
    split at h
    · cases h
    · next r w' ha =>
      split_ifs at h with hok
      cases h
      exact .mk hp ha hok

lemma Config.playOne_step {c c' : Config E ι W α} {s : ι × env.Choice}
    (h : c.playOne env ok s = some c') : Step env ok c c' := (Config.playOne_moves h).step

/-- An executed schedule is a run, so that a run can be exhibited by computing it. -/
lemma Config.play_reaches {ss : List (ι × env.Choice)} {c c' : Config E ι W α}
    (h : c.play env ok ss = some c') : Reaches env ok c c' := by
  induction ss generalizing c with
  | nil =>
      cases h
      exact .refl
  | cons s ss ih =>
      obtain ⟨c₁, h₁, h₂⟩ := Option.bind_eq_some_iff.1 h
      exact .head (Config.playOne_step h₁) (ih h₂)

/-- A schedule that ends in a configuration with a property reaches such a configuration. -/
lemma Config.reaches_of_play (env : Env E ι W) (ok : StepCond E ι W)
    [∀ i w o r, Decidable (ok i w o r)] (c : Config E ι W α) (ss : List (ι × env.Choice))
    (P : Config E ι W α → Prop) [DecidablePred P]
    (h : (c.play env ok ss).any (fun c' => decide (P c')) = true) :
    ∃ c', Reaches env ok c c' ∧ P c' := by
  obtain ⟨c', hc, hP⟩ := (Option.any_eq_true _ _).1 h
  exact ⟨c', Config.play_reaches hc, by simpa using hP⟩

/-- A run along a schedule, every step of which meets the condition. -/
inductive Plays (env : Env E ι W) (ok : StepCond E ι W) :
    Config E ι W α → List (ι × env.Choice) → Config E ι W α → Prop
  | nil (c : Config E ι W α) : Plays env ok c [] c
  | cons {c c' : Config E ι W α} {i : ι} {x : env.Choice} {ss : List (ι × env.Choice)}
      {o : E.Call} {k : E.Reply o → Prog E α} {r : E.Reply o} {w' : W}
      (hp : c.prog i = .call o k) (ha : env.act i c.world o x = some (r, w'))
      (hok : ok i c.world o r) (rest : Plays env ok ⟨w', Function.update c.prog i (k r)⟩ ss c') :
      Plays env ok c ((i, x) :: ss) c'

omit [∀ i w o r, Decidable (ok i w o r)] in
lemma Plays.reaches {ss : List (ι × env.Choice)} {c c' : Config E ι W α}
    (h : Plays env ok c ss c') : Reaches env ok c c' := by
  induction h with
  | nil => exact .refl
  | cons hp ha hok _ ih => exact .head (.call hp ha hok) ih

omit [∀ i w o r, Decidable (ok i w o r)] in
/-- A thread that has returned goes on having returned, since it makes no further step. -/
lemma Plays.returned {ss : List (ι × env.Choice)} {c c' : Config E ι W α}
    (h : Plays env ok c ss c') {i : ι} {a : α} (hi : c.prog i = .done a) : c'.prog i = .done a := by
  induction h with
  | nil => exact hi
  | @cons c _ j _ _ o k r w' hp _ _ _ ih =>
      have hj : i ≠ j := by
        rintro rfl
        rw [hp] at hi
        cases hi
      exact ih (by simpa [Function.update_of_ne hj] using hi)

/-- Follow a schedule and leave out what is impossible, so that every schedule has an outcome. -/
def Config.skim (env : Env E ι W) (c : Config E ι W α) (ss : List (ι × env.Choice)) :
    Config E ι W α :=
  ss.foldl (fun c s => (c.playOne env anyStep s).getD c) c

lemma Config.playOne_call {c : Config E ι W α} {i : ι} {x : env.Choice} {o : E.Call}
    {k : E.Reply o → Prog E α} {r : E.Reply o} {w' : W} (hp : c.prog i = .call o k)
    (ha : env.act i c.world o x = some (r, w')) :
    c.playOne env anyStep (i, x) = some ⟨w', Function.update c.prog i (k r)⟩ := by
  simp only [Config.playOne]
  split
  · next h => simp [h] at hp
  · next o' k' h =>
      obtain ⟨rfl, hk⟩ := Prog.call.inj (h.symm.trans hp)
      obtain rfl := eq_of_heq hk
      simp [ha, anyStep]

lemma Config.playOne_done {c : Config E ι W α} {s : ι × env.Choice} {a : α}
    (hp : c.prog s.1 = .done a) : c.playOne env anyStep s = none := by
  simp only [Config.playOne]
  split
  · rfl
  · next h => simp [h] at hp

end Play

end Steps

/-! ## Disciplines: invariants with a rely for every thread -/

/-- A world invariant with, for every thread, the interference it tolerates and what it
promises while its program is unfinished. -/
structure Discipline {Err : Type} {E : Interface Err} {ι W : Type} (env : Env E ι W) where
  /-- Holds of every reachable world. -/
  inv : W → Prop
  /-- `rely i w w'`: what thread `i` tolerates of the steps of the others. -/
  rely : ι → W → W → Prop
  /-- `busy i w`: true whenever thread `i` still has a call to make. -/
  busy : ι → W → Prop
  rely_refl : ∀ i w, rely i w w
  rely_trans : ∀ i {w₁ w₂ w₃}, rely i w₁ w₂ → rely i w₂ w₃ → rely i w₁ w₃
  drift_inv : ∀ {w w'}, inv w → env.drift w w' → inv w'
  drift_rely : ∀ {w w'} i, inv w → env.drift w w' → rely i w w'

namespace Discipline

variable {Err : Type} {E : Interface Err} {ι W α β : Type} {env : Env E ι W}
variable (D : Discipline env) (ok : StepCond E ι W) (i : ι)

/-- Weakest precondition of a thread's program under interference.  Before each call the others may
have changed the world as far as `rely` allows; the call has to keep the invariant, and may do to
the others only what they rely on. -/
def wp : Prog E α → (α → W → Prop) → W → Prop
  | .done a, Q, w => Q a w
  | .call o k, Q, w =>
      ∀ w₁, D.rely i w w₁ → D.inv w₁ →
        D.busy i w₁ ∧
        ∀ x r w₂, env.act i w₁ o x = some (r, w₂) → ok i w₁ o r →
          D.inv w₂ ∧ (∀ j, j ≠ i → D.rely j w₁ w₂) ∧ wp (k r) Q w₂

variable {D ok i}

@[simp] lemma wp_done (a : α) (Q : α → W → Prop) (w : W) :
    D.wp ok i (.done a) Q w ↔ Q a w := Iff.rfl

/-- Sequencing: the second program is judged where the first one leaves off. -/
lemma wp_bind (p : Prog E α) (f : α → Prog E β) (Q : β → W → Prop) (w : W) :
    D.wp ok i (p >>= f) Q w ↔ D.wp ok i p (fun a => D.wp ok i (f a) Q) w := by
  induction p generalizing w with
  | done a => exact Iff.rfl
  | call o k ih =>
      simp only [Prog.call_bind, wp, ih]

/-- Weakening the postcondition of a program.  The induction is on the program, and the interference
stays the same. -/
lemma wp_mono {p : Prog E α} {Q Q' : α → W → Prop} {w : W} (hQ : ∀ a w, Q a w → Q' a w)
    (h : D.wp ok i p Q w) : D.wp ok i p Q' w := by
  induction p generalizing w with
  | done a => exact hQ a w h
  | call o k ih =>
      intro w₁ hR hI
      obtain ⟨hB, hk⟩ := h w₁ hR hI
      refine ⟨hB, fun x r w₂ ha hok => ?_⟩
      obtain ⟨hI₂, hG, hrest⟩ := hk x r w₂ ha hok
      exact ⟨hI₂, hG, ih r hrest⟩

/-- A postcondition that the interference of the others keeps; only such a one still holds when the
thread is looked at later. -/
def Stable (D : Discipline env) (i : ι) (Q : W → Prop) : Prop :=
  ∀ w w', D.rely i w w' → D.inv w' → Q w → Q w'

/-- A weakest precondition survives the steps of the others, provided that the postcondition
does. -/
lemma wp_stable {p : Prog E α} {Q : α → W → Prop} {w w' : W}
    (hQ : ∀ a, D.Stable i (Q a)) (hR : D.rely i w w') (hI : D.inv w')
    (h : D.wp ok i p Q w) : D.wp ok i p Q w' := by
  cases p with
  | done a => exact hQ a w w' hR hI h
  | call o k => exact fun w₁ hR₁ hI₁ => h w₁ (D.rely_trans i hR hR₁) hI₁

/-- A thread with a call left keeps its promise, since the precondition of its next call contains
it. -/
lemma busy_of_wp {o : E.Call} {k : E.Reply o → Prog E α} {Q : α → W → Prop} {w : W}
    (hI : D.inv w) (h : D.wp ok i (.call o k) Q w) : D.busy i w :=
  (h w (D.rely_refl i w) hI).1

/-! ### Raising programs -/

/-- Weakest precondition of a raising program: `Q` where it returns, `X` where it raises. -/
def wpE (D : Discipline env) (ok : StepCond E ι W) (i : ι) (p : Prog.Raising E α)
    (Q : α → W → Prop) (X : Err → W → Prop) (w : W) : Prop :=
  D.wp ok i p.run (fun r w => match r with
    | .ok a => Q a w
    | .error e => X e w) w

section Raising

variable {Q : β → W → Prop} {X : Err → W → Prop} {w : W}

@[simp] lemma wpE_pure (b : β) :
    D.wpE ok i (pure b : Prog.Raising E β) Q X w ↔ Q b w := Iff.rfl

@[simp] lemma wpE_throw (e : Err) :
    D.wpE ok i (throw e : Prog.Raising E β) Q X w ↔ X e w := Iff.rfl

@[simp] lemma wpE_bind (p : Prog.Raising E α) (f : α → Prog.Raising E β) :
    D.wpE ok i (p >>= f) Q X w ↔ D.wpE ok i p (fun a w => D.wpE ok i (f a) Q X w) X w := by
  unfold wpE
  rw [ExceptT.run_bind, wp_bind]
  constructor
  · refine wp_mono (fun r w hr => ?_)
    cases r <;> exact hr
  · refine wp_mono (fun r w hr => ?_)
    cases r <;> exact hr

@[simp] lemma wpE_tryCatch (p : Prog.Raising E β) (h : Err → Prog.Raising E β) :
    D.wpE ok i (tryCatch p h) Q X w ↔
      D.wpE ok i p Q (fun e w => D.wpE ok i (h e) Q X w) w := by
  have hrun : (tryCatch p h).run = p.run >>= fun r => match r with
      | .ok b => .done (.ok b)
      | .error e => (h e).run := by
    change p.run >>= _ = p.run >>= _
    congr 1
  unfold wpE
  rw [hrun, wp_bind]
  constructor
  · refine wp_mono (fun r w hr => ?_)
    cases r <;> exact hr
  · refine wp_mono (fun r w hr => ?_)
    cases r <;> exact hr

lemma wpE_mono {p : Prog.Raising E β} {Q' : β → W → Prop} {X' : Err → W → Prop}
    (hQ : ∀ b w, Q b w → Q' b w) (hX : ∀ e w, X e w → X' e w)
    (h : D.wpE ok i p Q X w) : D.wpE ok i p Q' X' w := by
  refine wp_mono (fun r w hr => ?_) h
  cases r with
  | ok b => exact hQ b w hr
  | error e => exact hX e w hr

/-- The rule for one statement after another: `Q'` holds between them, and either of them may
raise. -/
lemma wpE_then {p : Prog.Raising E α} {f : α → Prog.Raising E β} {Q' : α → W → Prop}
    (hp : D.wpE ok i p Q' X w) (hf : ∀ a w, Q' a w → D.wpE ok i (f a) Q X w) :
    D.wpE ok i (p >>= f) Q X w :=
  (wpE_bind p f).2 (wpE_mono hf (fun _ _ h => h) hp)

/-- The rule for `try … finally`: the clean-up is run from the world that the program leaves, and
then the outcome of the program is what counts. -/
lemma wpE_tryFinally {p : Prog.Raising E β} {cleanup : Prog.Raising E Unit}
    (h : D.wpE ok i p (fun b w => D.wpE ok i cleanup (fun _ w => Q b w) X w)
      (fun e w => D.wpE ok i cleanup (fun _ w => X e w) X w) w) :
    D.wpE ok i (Prog.Raising.tryFinally p cleanup) Q X w := by
  unfold Prog.Raising.tryFinally
  refine (wpE_bind _ _).2 ((wpE_tryCatch _ _).2 ?_)
  refine wpE_mono (fun b w hb => ?_) (fun e w he => ?_) h
  · exact (wpE_bind _ _).2 hb
  · exact (wpE_bind _ _).2 he

/-- The rule for a check that raises: where it passes, the rest of the program has to be proved. -/
lemma wpE_guard {γ : Type} {c : Prop} [Decidable c] {e : Err} {f : γ → Prog.Raising E β}
    {p : Prog.Raising E β} (hX : c → X e w) (hp : ¬ c → D.wpE ok i p Q X w) :
    D.wpE ok i (if c then throw e >>= f else p) Q X w := by
  split_ifs with hc
  · exact (wpE_bind _ _).2 (hX hc)
  · exact hp hc

/-- The rule for a loop over a list: `P xs` holds when the rounds `xs` are left. -/
lemma wpE_forM {γ : Type} {f : γ → Prog.Raising E Unit} {P : List γ → W → Prop}
    (hround : ∀ x xs w, P (x :: xs) w → D.wpE ok i (f x) (fun _ w => P xs w) X w)
    {xs : List γ} (hw : P xs w) : D.wpE ok i (xs.forM f) (fun _ w => P [] w) X w := by
  induction xs generalizing w with
  | nil => exact hw
  | cons x xs ih =>
      change D.wpE ok i (f x >>= fun _ => xs.forM f) _ _ w
      refine wpE_then ?_ (fun _ w hw => ih hw)
      exact hround x xs w hw

/-- The rule for a single call.  The others have come first, as far as `rely` allows; the call keeps
the invariant and what the others rely on, and its answer decides which postcondition is owed. -/
lemma wpE_ask {o : E.Call} {Q : E.Answer o → W → Prop}
    (h : ∀ w₁, D.rely i w w₁ → D.inv w₁ →
      D.busy i w₁ ∧
      ∀ x r w₂, env.act i w₁ o x = some (r, w₂) → ok i w₁ o r →
        D.inv w₂ ∧ (∀ j, j ≠ i → D.rely j w₁ w₂) ∧
        (∀ a, r = .ok a → Q a w₂) ∧ (∀ e, r = .error e → X e w₂)) :
    D.wpE ok i (Prog.ask o) Q X w := by
  intro w₁ hR hI
  obtain ⟨hB, hk⟩ := h w₁ hR hI
  refine ⟨hB, fun x r w₂ ha hok => ?_⟩
  obtain ⟨hI₂, hG, hQ, hX⟩ := hk x r w₂ ha hok
  refine ⟨hI₂, hG, ?_⟩
  cases r with
  | ok a => exact hQ a rfl
  | error e => exact hX e rfl

end Raising

/-! ### Programs that keep one fact -/

/-- Whether it returns or raises, the program keeps `P`; such programs can be put one after the
other. -/
def Steady (D : Discipline env) (ok : StepCond E ι W) (i : ι) (P : W → Prop)
    (p : Prog.Raising E α) : Prop :=
  ∀ w, P w → D.wpE ok i p (fun _ w => P w) (fun _ w => P w) w

section Steady

variable {P : W → Prop}

lemma Steady.pure (a : α) : D.Steady ok i P (pure a) := fun _ h => h

lemma Steady.throw (e : Err) : D.Steady ok i P (throw e : Prog.Raising E α) := fun _ h => h

lemma Steady.bind {p : Prog.Raising E α} {f : α → Prog.Raising E β} (hp : D.Steady ok i P p)
    (hf : ∀ a, D.Steady ok i P (f a)) : D.Steady ok i P (p >>= f) := fun w h =>
  wpE_then (hp w h) (fun a w ha => hf a w ha)

lemma Steady.tryCatch {p : Prog.Raising E α} {f : Err → Prog.Raising E α}
    (hp : D.Steady ok i P p) (hf : ∀ e, D.Steady ok i P (f e)) :
    D.Steady ok i P (tryCatch p f) := fun w h =>
  (wpE_tryCatch _ _).2 (wpE_mono (fun _ _ ha => ha) (fun e w he => hf e w he) (hp w h))

lemma Steady.ite {c : Prop} [Decidable c] {p q : Prog.Raising E α} (hp : D.Steady ok i P p)
    (hq : D.Steady ok i P q) : D.Steady ok i P (if c then p else q) := by
  split_ifs
  · exact hp
  · exact hq

lemma Steady.forM {γ : Type} {f : γ → Prog.Raising E Unit} (hf : ∀ x, D.Steady ok i P (f x))
    (xs : List γ) : D.Steady ok i P (xs.forM f) := fun _ h =>
  wpE_forM (P := fun _ => P) (fun x _ w hw => hf x w hw) h

end Steady

section Composition

variable [DecidableEq ι] {Q : ι → α → W → Prop}

/-- One step of any thread keeps the invariant and every thread's weakest precondition. -/
lemma sound_step (hQ : ∀ i a, D.Stable i (Q i a)) {c c' : Config E ι W α}
    (hI : D.inv c.world) (hp : ∀ i, D.wp ok i (c.prog i) (Q i) c.world)
    (h : Step env ok c c') :
    D.inv c'.world ∧ ∀ i, D.wp ok i (c'.prog i) (Q i) c'.world := by
  cases h with
  | @call i o k x r w' hpi ha hok =>
      have hwp := hp i
      rw [hpi] at hwp
      obtain ⟨-, hk⟩ := hwp c.world (D.rely_refl i _) hI
      obtain ⟨hI', hG, hrest⟩ := hk x r w' ha hok
      refine ⟨hI', fun j => ?_⟩
      by_cases hj : j = i
      · subst hj
        simpa using hrest
      · simp only [Function.update_of_ne hj]
        exact wp_stable (hQ j) (hG j hj) hI' (hp j)
  | drift hd =>
      exact ⟨D.drift_inv hI hd, fun j =>
        wp_stable (hQ j) (D.drift_rely j hI hd) (D.drift_inv hI hd) (hp j)⟩

/-- **Parallel composition.**  Threads that satisfy their weakest preconditions in the initial
world satisfy them in every reachable configuration. -/
lemma sound (hQ : ∀ i a, D.Stable i (Q i a)) {c c' : Config E ι W α}
    (hI : D.inv c.world) (hp : ∀ i, D.wp ok i (c.prog i) (Q i) c.world)
    (h : Reaches env ok c c') :
    D.inv c'.world ∧ ∀ i, D.wp ok i (c'.prog i) (Q i) c'.world := by
  induction h with
  | refl => exact ⟨hI, hp⟩
  | tail _ hstep ih => exact sound_step hQ ih.1 ih.2 hstep

/-- In a reachable configuration a thread that has returned satisfies its postcondition. -/
lemma returned_of_sound (hQ : ∀ i a, D.Stable i (Q i a)) {c c' : Config E ι W α}
    (hI : D.inv c.world) (hp : ∀ i, D.wp ok i (c.prog i) (Q i) c.world)
    (h : Reaches env ok c c') {i : ι} {a : α} (hr : c'.Returned i a) : Q i a c'.world := by
  have hwp := (sound hQ hI hp h).2 i
  rw [show c'.prog i = .done a from hr] at hwp
  exact hwp

/-- In a reachable configuration a thread that has not returned keeps its promise. -/
lemma busy_of_sound (hQ : ∀ i a, D.Stable i (Q i a)) {c c' : Config E ι W α}
    (hI : D.inv c.world) (hp : ∀ i, D.wp ok i (c.prog i) (Q i) c.world)
    (h : Reaches env ok c c') {i : ι} (hr : ∀ a, ¬ c'.Returned i a) : D.busy i c'.world := by
  obtain ⟨hI', hwp⟩ := sound hQ hI hp h
  cases hpi : c'.prog i with
  | done a => exact absurd hpi (hr a)
  | call o k => exact busy_of_wp hI' (hpi ▸ hwp i)

end Composition

end Discipline

end TokenFoundry
