import TokenFoundry.Framework.Interleaving

/-!
# One request at a time

`Framework/Interleaving.lean` runs many programs at once.  Here a system serves requests one
after the other: a request begins only when the one before it has ended, and then makes its
calls against an outside that may fail any of them.  `Turn` is the world together with what is
left of the request in progress, and `Turn.Reaches` is a sequence of requests, cut anywhere.

A program that runs alone is judged by the rules of a `Discipline` without interference
(`Discipline.alone`).  `Turn.sound` is the rule for sequences: if every request keeps the
invariant at each call and, started in a world with the property `J`, ends in one, then every
world reached satisfies the invariant and every world between requests has the property.

Two interfaces are put side by side by `Interface.sum`; a program of one of them is a program of
the sum.
-/

set_option autoImplicit false

namespace TokenFoundry

variable {Err : Type} {E E' : Interface Err} {W Req α β : Type}

/-! ## Two interfaces -/

/-- The calls of both interfaces, for a system in which the programs of each are at work on one
world. -/
@[reducible] def Interface.sum (E E' : Interface Err) : Interface Err :=
  ⟨E.Call ⊕ E'.Call, Sum.elim E.Answer E'.Answer⟩

namespace Prog

/-- A program of the left interface, as one of the sum: it makes the same calls. -/
def inl (E' : Interface Err) : Prog E α → Prog (E.sum E') α
  | .done a => .done a
  | .call o k => .call (.inl o) (fun r => (k r).inl E')

/-- A program of the right interface, as one of the sum: it makes the same calls. -/
def inr (E : Interface Err) : Prog E' α → Prog (E.sum E') α
  | .done a => .done a
  | .call o k => .call (.inr o) (fun r => (k r).inr E)

/-- A raising program of the left interface, as one of the sum. -/
def Raising.inl (E' : Interface Err) (p : Raising E α) : Raising (E.sum E') α :=
  ExceptT.mk (Prog.inl E' p.run)

/-- A raising program of the right interface, as one of the sum. -/
def Raising.inr (E : Interface Err) (p : Raising E' α) : Raising (E.sum E') α :=
  ExceptT.mk (Prog.inr E p.run)

end Prog

/-- A program of the left interface sees its part of the handler only. -/
lemma Prog.Raising.ends_inl {h : (o : (E.sum E').Call) → W → (E.sum E').Reply o × W}
    {p : Prog.Raising E α} {Q : α → W → Prop} {X : Err → W → Prop} {w : W} :
    Prog.Raising.ends h (p.inl E') Q X w ↔ Prog.Raising.ends (fun o => h (.inl o)) p Q X w := by
  have hrun : ∀ (q : Prog E (Except Err α)) (w : W),
      (q.inl E').run h w = q.run (fun o => h (.inl o)) w := by
    intro q
    induction q with
    | done a => exact fun _ => rfl
    | call o k ih => exact fun w => ih _ _
  have hexec : Prog.Raising.exec h (p.inl E') w = Prog.Raising.exec (fun o => h (.inl o)) p w :=
    hrun p.run w
  unfold Prog.Raising.ends
  rw [hexec]

section Sums

variable {ι : Type}

/-- What the outside answers to the left interface, when it answers to the sum. -/
def Env.left (env : Env (E.sum E') ι W) : Env E ι W where
  Choice := env.Choice
  act i w o x := env.act i w (.inl o) x
  drift := env.drift

/-- What the outside answers to the right interface, when it answers to the sum. -/
def Env.right (env : Env (E.sum E') ι W) : Env E' ι W where
  Choice := env.Choice
  act i w o x := env.act i w (.inr o) x
  drift := env.drift

/-- The condition on the calls of the left interface, when there is one on those of the sum. -/
def StepCond.left (ok : StepCond (E.sum E') ι W) : StepCond E ι W :=
  fun i w o r => ok i w (.inl o) r

/-- The condition on the calls of the right interface, when there is one on those of the sum. -/
def StepCond.right (ok : StepCond (E.sum E') ι W) : StepCond E' ι W :=
  fun i w o r => ok i w (.inr o) r

namespace Discipline

variable {env : Env (E.sum E') ι W} (D : Discipline env) {ok : StepCond (E.sum E') ι W} {i : ι}

/-- The same discipline for the programs of the left interface, so that what is proved of them there
holds in the sum. -/
def left : Discipline env.left where
  inv := D.inv
  rely := D.rely
  busy := D.busy
  rely_refl := D.rely_refl
  rely_trans := D.rely_trans
  drift_inv := D.drift_inv
  drift_rely := D.drift_rely

/-- The same discipline for the programs of the right interface, so that what is proved of them
there holds in the sum. -/
def right : Discipline env.right where
  inv := D.inv
  rely := D.rely
  busy := D.busy
  rely_refl := D.rely_refl
  rely_trans := D.rely_trans
  drift_inv := D.drift_inv
  drift_rely := D.drift_rely

variable {D}

lemma wp_inl {p : Prog E α} {Q : α → W → Prop} {w : W} :
    D.wp ok i (p.inl E') Q w ↔ D.left.wp ok.left i p Q w := by
  induction p generalizing w with
  | done a => exact Iff.rfl
  | call o k ih =>
      constructor
      · intro h w₁ hR hI
        obtain ⟨hB, hk⟩ := h w₁ hR hI
        refine ⟨hB, fun x r w₂ ha hok => ?_⟩
        obtain ⟨hI₂, hG, hrest⟩ := hk x r w₂ ha hok
        exact ⟨hI₂, hG, (ih r).1 hrest⟩
      · intro h w₁ hR hI
        obtain ⟨hB, hk⟩ := h w₁ hR hI
        refine ⟨hB, fun x r w₂ ha hok => ?_⟩
        obtain ⟨hI₂, hG, hrest⟩ := hk x r w₂ ha hok
        exact ⟨hI₂, hG, (ih r).2 hrest⟩

lemma wp_inr {p : Prog E' α} {Q : α → W → Prop} {w : W} :
    D.wp ok i (p.inr E) Q w ↔ D.right.wp ok.right i p Q w := by
  induction p generalizing w with
  | done a => exact Iff.rfl
  | call o k ih =>
      constructor
      · intro h w₁ hR hI
        obtain ⟨hB, hk⟩ := h w₁ hR hI
        refine ⟨hB, fun x r w₂ ha hok => ?_⟩
        obtain ⟨hI₂, hG, hrest⟩ := hk x r w₂ ha hok
        exact ⟨hI₂, hG, (ih r).1 hrest⟩
      · intro h w₁ hR hI
        obtain ⟨hB, hk⟩ := h w₁ hR hI
        refine ⟨hB, fun x r w₂ ha hok => ?_⟩
        obtain ⟨hI₂, hG, hrest⟩ := hk x r w₂ ha hok
        exact ⟨hI₂, hG, (ih r).2 hrest⟩

lemma wpE_inl {p : Prog.Raising E α} {Q : α → W → Prop} {X : Err → W → Prop} {w : W} :
    D.wpE ok i (p.inl E') Q X w ↔ D.left.wpE ok.left i p Q X w := wp_inl

lemma wpE_inr {p : Prog.Raising E' α} {Q : α → W → Prop} {X : Err → W → Prop} {w : W} :
    D.wpE ok i (p.inr E) Q X w ↔ D.right.wpE ok.right i p Q X w := wp_inr

end Discipline

end Sums

/-! ## Programs without interference -/

/-- The discipline of a program that runs alone: nobody changes the world between two of its
calls. -/
def Discipline.alone {env : Env E Unit W} (hdrift : ∀ w w', ¬ env.drift w w') (inv : W → Prop) :
    Discipline env where
  inv := inv
  rely _ w w' := w = w'
  busy _ _ := True
  rely_refl _ _ := rfl
  rely_trans _ _ _ _ h₁ h₂ := h₁.trans h₂
  drift_inv _ h := absurd h (hdrift _ _)
  drift_rely _ _ h := absurd h (hdrift _ _)

section Alone

variable (env : Env E Unit W) (hdrift : ∀ w w', ¬ env.drift w w') {inv : W → Prop}
  {ok : StepCond E Unit W}

/-- The rule for a call of a program that runs alone: only the call itself has to be looked at. -/
lemma Discipline.alone_ask {o : E.Call} {Q : E.Answer o → W → Prop} {X : Err → W → Prop} {w : W}
    (h : inv w → ∀ x r w', env.act () w o x = some (r, w') → ok () w o r →
      inv w' ∧ (∀ a, r = .ok a → Q a w') ∧ (∀ e, r = .error e → X e w')) :
    (Discipline.alone hdrift inv).wpE ok () (Prog.ask o) Q X w := by
  refine Discipline.wpE_ask (fun w₁ hw hI => ?_)
  obtain rfl : w = w₁ := hw
  refine ⟨trivial, fun x r w₂ ha hok => ?_⟩
  obtain ⟨hinv, hq, hx⟩ := h hI x r w₂ ha hok
  exact ⟨hinv, fun j hj => absurd rfl hj, hq, hx⟩

/-- If every call keeps the invariant, so does every program, whatever it does in between. -/
lemma Discipline.alone_any
    (hact : ∀ w o x r w', inv w → env.act () w o x = some (r, w') → inv w') (p : Prog E α) {w : W}
    (hw : inv w) : (Discipline.alone hdrift inv).wp ok () p (fun _ _ => True) w := by
  induction p generalizing w with
  | done a => trivial
  | call o k ih =>
      intro w₁ hR _
      obtain rfl : w = w₁ := hR
      refine ⟨trivial, fun x r w₂ ha _ => ?_⟩
      have hw₂ : inv w₂ := hact _ _ _ _ _ hw ha
      exact ⟨hw₂, fun j hj => absurd rfl hj, ih r hw₂⟩

end Alone

/-! ## Sequences of requests -/

/-- The world together with what is left of the request in progress. -/
structure Turn (E : Interface Err) (W α : Type) where
  world : W
  prog : Prog E α

/-- No request is in progress: the last one has answered. -/
def Turn.Idle (t : Turn E W α) : Prop := ∃ a, t.prog = .done a

instance (t : Turn E W α) : Decidable t.Idle :=
  match h : t.prog with
  | .done a => isTrue ⟨a, h⟩
  | .call _ _ => isFalse (by simp [Turn.Idle, h])

section Sequences

variable (env : Env E Unit W) (ok : StepCond E Unit W) (handler : Req → Prog E α)
  (allowed : Req → W → Prop)

/-- A request that is admitted begins, or the request in progress makes its next call. -/
inductive Turn.Step : Turn E W α → Turn E W α → Prop
  | start {t : Turn E W α} (q : Req) (hidle : t.Idle) (hq : allowed q t.world) :
      Step t ⟨t.world, handler q⟩
  | call {t : Turn E W α} {o : E.Call} {k : E.Reply o → Prog E α} {x : env.Choice}
      {r : E.Reply o} {w' : W} (hp : t.prog = .call o k)
      (ha : env.act () t.world o x = some (r, w')) (hok : ok () t.world o r) :
      Step t ⟨w', k r⟩

/-- Any number of steps. -/
abbrev Turn.Reaches : Turn E W α → Turn E W α → Prop :=
  Relation.ReflTransGen (Turn.Step env ok handler allowed)

variable {env ok handler allowed}

/-- The request in progress makes its next call, which the outside answers. -/
inductive Turn.Call (env : Env E Unit W) (ok : StepCond E Unit W) : Turn E W α → Turn E W α → Prop
  | mk {t : Turn E W α} {o : E.Call} {k : E.Reply o → Prog E α} {x : env.Choice}
      {r : E.Reply o} {w' : W} (hp : t.prog = .call o k)
      (ha : env.act () t.world o x = some (r, w')) (hok : ok () t.world o r) :
      Call env ok t ⟨w', k r⟩

/-- A program that starts in one world ends in another one with this result. -/
def Turn.Answers (env : Env E Unit W) (ok : StepCond E Unit W) (p : Prog E α) (w : W) (a : α)
    (w' : W) : Prop :=
  Relation.ReflTransGen (Turn.Call env ok) ⟨w, p⟩ ⟨w', .done a⟩

/-- What holds of the results of a program that is judged right. -/
theorem Turn.answers_sound {D : Discipline env} {p : Prog E α} {Q : α → W → Prop} {w w' : W} {a : α}
    (hinv : D.inv w) (hp : D.wp ok () p Q w) (h : Turn.Answers env ok p w a w') :
    D.inv w' ∧ Q a w' := by
  have hrun : ∀ t : Turn E W α, Relation.ReflTransGen (Turn.Call env ok) ⟨w, p⟩ t →
      D.inv t.world ∧ D.wp ok () t.prog Q t.world := by
    intro t ht
    induction ht with
    | refl => exact ⟨hinv, hp⟩
    | tail _ hstep ih =>
        obtain ⟨hinv', hwp⟩ := ih
        cases hstep with
        | mk hp ha hok =>
            rw [hp] at hwp
            obtain ⟨-, hk⟩ := hwp _ (D.rely_refl () _) hinv'
            obtain ⟨hinv₂, -, hrest⟩ := hk _ _ _ ha hok
            exact ⟨hinv₂, hrest⟩
  exact hrun _ h

/-- A request that has answered is part of a run: it is begun, and its calls are made one by one. -/
lemma Turn.Answers.reaches {q : Req} {t : Turn E W α} {w' : W} {a : α} (hidle : t.Idle)
    (hq : allowed q t.world) (h : Turn.Answers env ok (handler q) t.world a w') :
    Turn.Reaches env ok handler allowed t ⟨w', .done a⟩ := by
  have hcalls : ∀ t₁ t₂ : Turn E W α, Turn.Call env ok t₁ t₂ →
      Turn.Step env ok handler allowed t₁ t₂ := by
    intro t₁ t₂ hcall
    cases hcall with
    | mk hp ha hok => exact .call hp ha hok
  exact .head (.start q hidle hq) (Relation.ReflTransGen.mono hcalls _ _ h)

/-- **The rule for sequences of requests.**  If every request that is allowed keeps the invariant
and leaves `J`, then so does any sequence of them, one after the other. -/
theorem Turn.sound {D : Discipline env} {J : W → Prop}
    (hreq : ∀ q w, D.inv w → J w → allowed q w → D.wp ok () (handler q) (fun _ => J) w)
    {t t' : Turn E W α} (hinv : D.inv t.world) (hidle : t.Idle) (hJ : J t.world)
    (h : Turn.Reaches env ok handler allowed t t') :
    D.inv t'.world ∧ D.wp ok () t'.prog (fun _ => J) t'.world := by
  induction h with
  | refl =>
      obtain ⟨a, ha⟩ := hidle
      refine ⟨hinv, ?_⟩
      rw [ha]
      exact hJ
  | tail _ hstep ih =>
      obtain ⟨hinv', hwp⟩ := ih
      cases hstep with
      | start q hidle' hq =>
          obtain ⟨a, ha⟩ := hidle'
          rw [ha] at hwp
          exact ⟨hinv', hreq q _ hinv' hwp hq⟩
      | call hp ha hok =>
          rw [hp] at hwp
          obtain ⟨-, hk⟩ := hwp _ (D.rely_refl () _) hinv'
          obtain ⟨hinv₂, -, hrest⟩ := hk _ _ _ ha hok
          exact ⟨hinv₂, hrest⟩

/-- What holds between requests: whenever none is in progress, `J` holds of the world. -/
theorem Turn.sound_idle {D : Discipline env} {J : W → Prop}
    (hreq : ∀ q w, D.inv w → J w → allowed q w → D.wp ok () (handler q) (fun _ => J) w)
    {t t' : Turn E W α} (hinv : D.inv t.world) (hidle : t.Idle) (hJ : J t.world)
    (h : Turn.Reaches env ok handler allowed t t') (hidle' : t'.Idle) : J t'.world := by
  obtain ⟨-, hwp⟩ := Turn.sound hreq hinv hidle hJ h
  obtain ⟨a, ha⟩ := hidle'
  rw [ha] at hwp
  exact hwp

/-! ### Executing a sequence -/

variable (env ok handler allowed) [∀ w o r, Decidable (ok () w o r)]
  [∀ q w, Decidable (allowed q w)]

/-- Begin a request, or let the one in progress make its next call. -/
def Turn.playOne (t : Turn E W α) : Req ⊕ env.Choice → Option (Turn E W α)
  | .inl q => if t.Idle ∧ allowed q t.world then some ⟨t.world, handler q⟩ else none
  | .inr x =>
      match t.prog with
      | .done _ => none
      | .call o k =>
          match env.act () t.world o x with
          | none => none
          | some (r, w') => if ok () t.world o r then some ⟨w', k r⟩ else none

/-- Execute a sequence of requests with the choices of the outside; `none` where a step is
impossible. -/
def Turn.play : Turn E W α → List (Req ⊕ env.Choice) → Option (Turn E W α)
  | t, [] => some t
  | t, s :: ss => (t.playOne env ok handler allowed s).bind (fun t' => t'.play ss)

variable {env ok handler allowed}

lemma Turn.playOne_step {t t' : Turn E W α} {s : Req ⊕ env.Choice}
    (h : t.playOne env ok handler allowed s = some t') : Turn.Step env ok handler allowed t t' := by
  cases s with
  | inl q =>
      simp only [Turn.playOne] at h
      split_ifs at h with hq
      cases h
      exact .start q hq.1 hq.2
  | inr x =>
      simp only [Turn.playOne] at h
      split at h
      · cases h
      · next o k hp =>
        split at h
        · cases h
        · next r w' ha =>
          split_ifs at h with hok
          cases h
          exact .call hp ha hok

/-- An executed sequence is a run, so that a run can be exhibited by computing it. -/
lemma Turn.play_reaches {ss : List (Req ⊕ env.Choice)} {t t' : Turn E W α}
    (h : t.play env ok handler allowed ss = some t') :
      Turn.Reaches env ok handler allowed t t' := by
  induction ss generalizing t with
  | nil =>
      cases h
      exact .refl
  | cons s ss ih =>
      obtain ⟨t₁, h₁, h₂⟩ := Option.bind_eq_some_iff.1 h
      exact .head (Turn.playOne_step h₁) (ih h₂)

/-- Execute a program with the choices of the outside, which have to be as many as its calls. -/
def Turn.serveAll (env : Env E Unit W) (ok : StepCond E Unit W) [∀ w o r, Decidable (ok () w o r)] :
    Prog E α → W → List env.Choice → Option (α × W)
  | .done a, w, [] => some (a, w)
  | .call o k, w, x :: xs =>
      match env.act () w o x with
      | none => none
      | some (r, w') => if ok () w o r then Turn.serveAll env ok (k r) w' xs else none
  | .done _, _, _ :: _ => none
  | .call _ _, _, [] => none

/-- An executed program has answered, with the value and the world that were computed. -/
lemma Turn.answers_of_serveAll {p : Prog E α} {w w' : W} {xs : List env.Choice} {a : α}
    (h : Turn.serveAll env ok p w xs = some (a, w')) : Turn.Answers env ok p w a w' := by
  induction p generalizing w xs with
  | done b =>
      cases xs with
      | nil =>
          cases h
          exact .refl
      | cons x xs => cases h
  | call o k ih =>
      cases xs with
      | nil => cases h
      | cons x xs =>
          unfold Turn.serveAll at h
          split at h
          · cases h
          · next r w₁ ha =>
            split_ifs at h with hok
            exact .head (.mk rfl ha hok) (ih r h)

/-- A sequence that ends in a state with a property reaches such a state. -/
lemma Turn.reaches_of_play (env : Env E Unit W) (ok : StepCond E Unit W) (handler : Req → Prog E α)
    (allowed : Req → W → Prop) [∀ w o r, Decidable (ok () w o r)] [∀ q w, Decidable (allowed q w)]
    (t : Turn E W α) (ss : List (Req ⊕ env.Choice)) (P : Turn E W α → Prop) [DecidablePred P]
    (h : (t.play env ok handler allowed ss).any (fun t' => decide (P t')) = true) :
    ∃ t', Turn.Reaches env ok handler allowed t t' ∧ P t' := by
  obtain ⟨t', ht, hP⟩ := (Option.any_eq_true _ _).1 h
  exact ⟨t', Turn.play_reaches ht, by simpa using hP⟩

end Sequences

end TokenFoundry
