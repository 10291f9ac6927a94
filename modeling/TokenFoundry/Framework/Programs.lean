import Mathlib.Logic.Function.Basic
import Mathlib.Logic.Relation
import Mathlib.Order.RelClasses
import Mathlib.Tactic.Common

/-!
# Programs over an interface of external calls

A request handler or a background task is ordinary sequential code whose only contact with
the rest of the system is a series of external calls: a row read, a commit, a `GET`, a
`PUT`.  `Prog` is the tree of such a program.  A node is a call together with the
continuation that receives its reply, and a leaf is the value the program returns.  Every
call may raise instead of answering.

Two readings of one tree are used.  `Prog.run` executes it alone against a handler that
replies to every call, and `Framework/Interleaving.lean` executes many of them against one
shared world, one call at a time.  Because the tree is an inductive type every program
terminates, and a proof about a program follows its calls.

Python's exceptions are `ExceptT` over `Prog` (`Prog.Raising`), and `try`/`except` is
`tryCatch`.
-/

set_option autoImplicit false

namespace TokenFoundry

/-- The external calls a family of programs may make, and what each call answers when it does
not raise one of the exceptions `Err`. -/
structure Interface (Err : Type) where
  Call : Type
  Answer : Call → Type

/-- What comes back from a call. -/
abbrev Interface.Reply {Err : Type} (E : Interface Err) (o : E.Call) : Type :=
  Except Err (E.Answer o)

/-- A program over an interface: a finite tree of external calls.  What a program does between two
calls is not a step; it is in the function that takes the reply to the rest of the program. -/
inductive Prog {Err : Type} (E : Interface Err) (α : Type)
  /-- The program has returned. -/
  | done (a : α)
  /-- The program waits for the reply to one external call. -/
  | call (o : E.Call) (k : E.Reply o → Prog E α)

namespace Prog

variable {Err : Type} {E : Interface Err} {α β γ : Type}

/-- Sequencing: run the first program and hand its result to the second. -/
def bind : Prog E α → (α → Prog E β) → Prog E β
  | .done a, f => f a
  | .call o k, f => .call o (fun r => (k r).bind f)

instance : Monad (Prog E) where
  pure := .done
  bind := bind

@[simp] lemma pure_eq (a : α) : (pure a : Prog E α) = .done a := rfl

@[simp] lemma done_bind (a : α) (f : α → Prog E β) : (Prog.done a >>= f) = f a := rfl

@[simp] lemma call_bind (o : E.Call) (k : E.Reply o → Prog E α) (f : α → Prog E β) :
    (Prog.call o k >>= f) = .call o (fun r => k r >>= f) := rfl

lemma bind_done (p : Prog E α) : p.bind .done = p := by
  induction p with
  | done a => rfl
  | call o k ih => simp only [bind, ih]

lemma bind_assoc (p : Prog E α) (f : α → Prog E β) (g : β → Prog E γ) :
    (p.bind f).bind g = p.bind (fun a => (f a).bind g) := by
  induction p with
  | done a => rfl
  | call o k ih => simp only [bind, ih]

instance : LawfulMonad (Prog E) :=
  LawfulMonad.mk' _ (fun p => bind_done p) (fun _ _ => rfl) (fun p f g => bind_assoc p f g)

/-! ## What is left of a program -/

/-- The program that is left when the first call has been answered. -/
inductive After : Prog E α → Prog E α → Prop
  | mk (o : E.Call) (k : E.Reply o → Prog E α) (r : E.Reply o) : After (k r) (.call o k)

lemma after_wellFounded : WellFounded (After : Prog E α → Prog E α → Prop) := by
  refine ⟨fun p => ?_⟩
  induction p with
  | done a => exact ⟨_, fun q h => nomatch h⟩
  | call o k ih =>
      refine ⟨_, ?_⟩
      rintro q ⟨⟩
      exact ih _

/-- No program is left of itself after some calls: the calls that are made are used up, and the tree
is finite. -/
lemma not_after_self (p : Prog E α) : ¬ Relation.TransGen After p p := fun h =>
  after_wellFounded.transGen.asymmetric _ _ h h

/-! ## Raising programs -/

/-- A program that may raise. -/
abbrev Raising (E : Interface Err) (α : Type) := ExceptT Err (Prog E) α

/-- The program that makes one call and raises what the call raises. -/
def ask (o : E.Call) : Raising E (E.Answer o) := ExceptT.mk (.call o .done)

/-- An expression of the source that raises where it has no value; the caller says what is
raised. -/
def Raising.ofOption (e : Err) : Option α → Raising E α
  | some a => return a
  | none => throw e

/-- `try: p finally: cleanup`.  The clean-up runs in both cases, and what it raises takes the place
of the result. -/
def Raising.tryFinally (p : Raising E α) (cleanup : Raising E Unit) : Raising E α := do
  let a ← tryCatch p (fun e => do
    cleanup
    throw e)
  cleanup
  return a

/-! ## Running a program alone -/

/-- Execute a program against a handler that replies to every call and updates a world. -/
def run {W : Type} (h : (o : E.Call) → W → E.Reply o × W) : Prog E α → W → α × W
  | .done a, w => (a, w)
  | .call o k, w => (k (h o w).1).run h (h o w).2

variable {W : Type} (h : (o : E.Call) → W → E.Reply o × W)

@[simp] lemma run_done (a : α) (w : W) : (Prog.done a : Prog E α).run h w = (a, w) := rfl

@[simp] lemma run_call (o : E.Call) (k : E.Reply o → Prog E α) (w : W) :
    (Prog.call o k).run h w = (k (h o w).1).run h (h o w).2 := rfl

/-- Running a sequence is running its parts one after the other, the second in the world that the
first has left. -/
lemma run_bind (p : Prog E α) (f : α → Prog E β) (w : W) :
    (p >>= f).run h w = (f (p.run h w).1).run h (p.run h w).2 := by
  induction p generalizing w with
  | done a => rfl
  | call o k ih => exact ih (h o w).1 (h o w).2

/-! ### Raising programs, alone -/

namespace Raising

/-- Execute a raising program against a handler: its result or what it raises, and the world it
leaves. -/
def exec (p : Raising E α) (w : W) : Except Err α × W := Prog.run h (ExceptT.run p) w

@[simp] lemma exec_pure (a : α) (w : W) : exec h (pure a : Raising E α) w = (.ok a, w) := rfl

@[simp] lemma exec_throw (e : Err) (w : W) :
    exec h (throw e : Raising E α) w = (.error e, w) := rfl

@[simp] lemma exec_ask (o : E.Call) (w : W) : exec h (ask o) w = h o w := rfl

lemma exec_ofOption (e : Err) (x : Option α) (w : W) :
    ∃ r, exec h (ofOption e x : Raising E α) w = (r, w) ∧ r.toOption = x := by
  cases x with
  | none => exact ⟨.error e, rfl, rfl⟩
  | some a => exact ⟨.ok a, rfl, rfl⟩

lemma exec_bind (p : Raising E α) (f : α → Raising E β) (w : W) :
    exec h (p >>= f) w = match exec h p w with
      | (.ok a, w') => exec h (f a) w'
      | (.error e, w') => (.error e, w') := by
  unfold exec
  rw [ExceptT.run_bind, run_bind]
  cases hrun : Prog.run h (ExceptT.run p) w with
  | mk r w' => cases r <;> rfl

lemma exec_bind_ok {p : Raising E α} {f : α → Raising E β} {w w' : W} {a : α}
    (hp : exec h p w = (.ok a, w')) : exec h (p >>= f) w = exec h (f a) w' := by
  rw [exec_bind, hp]

lemma exec_bind_error {p : Raising E α} {f : α → Raising E β} {w w' : W} {e : Err}
    (hp : exec h p w = (.error e, w')) : exec h (p >>= f) w = (.error e, w') := by
  rw [exec_bind, hp]

lemma exec_tryCatch (p : Raising E α) (f : Err → Raising E α) (w : W) :
    exec h (tryCatch p f) w = match exec h p w with
      | (.ok a, w') => (.ok a, w')
      | (.error e, w') => exec h (f e) w' := by
  have hrun : (tryCatch p f).run = p.run >>= fun r => match r with
      | .ok a => .done (.ok a)
      | .error e => (f e).run := by
    change p.run >>= _ = p.run >>= _
    congr 1
  unfold exec
  rw [hrun, run_bind]
  cases hp : Prog.run h (ExceptT.run p) w with
  | mk r w' => cases r <;> rfl

/-- The cleanup is executed in both cases, and what it raises is raised. -/
lemma exec_tryFinally (p : Raising E α) (cleanup : Raising E Unit) (w : W) :
    exec h (tryFinally p cleanup) w = match exec h p w with
      | (r, w') => match exec h cleanup w' with
        | (.ok _, w'') => (r, w'')
        | (.error e, w'') => (.error e, w'') := by
  unfold tryFinally
  rw [exec_bind, exec_tryCatch]
  cases hp : exec h p w with
  | mk r w' =>
      cases r with
      | ok a =>
          simp only [exec_bind]
          cases hcleanup : exec h cleanup w' with
          | mk r' w'' => cases r' <;> rfl
      | error e =>
          simp only [exec_bind]
          cases hcleanup : exec h cleanup w' with
          | mk r' w'' => cases r' <;> rfl

/-! ### What holds at the end -/

/-- What holds at the end of an execution, where the program returns and where it raises. -/
def ends (p : Raising E α) (Q : α → W → Prop) (X : Err → W → Prop) (w : W) : Prop :=
  match exec h p w with
  | (.ok a, w') => Q a w'
  | (.error e, w') => X e w'

section Ends

variable {h} {Q : α → W → Prop} {X : Err → W → Prop} {w : W}

@[simp] lemma ends_pure (a : α) : ends h (pure a : Raising E α) Q X w ↔ Q a w := Iff.rfl

@[simp] lemma ends_throw (e : Err) : ends h (throw e : Raising E α) Q X w ↔ X e w := Iff.rfl

lemma ends_bind (p : Raising E α) (f : α → Raising E β) {Q : β → W → Prop} :
    ends h (p >>= f) Q X w ↔ ends h p (fun a w' => ends h (f a) Q X w') X w := by
  unfold ends
  rw [exec_bind]
  cases hp : exec h p w with
  | mk r w' => cases r <;> rfl

lemma ends_tryCatch (p : Raising E α) (f : Err → Raising E α) :
    ends h (tryCatch p f) Q X w ↔ ends h p Q (fun e w' => ends h (f e) Q X w') w := by
  unfold ends
  rw [exec_tryCatch]
  cases hp : exec h p w with
  | mk r w' => cases r <;> rfl

lemma ends_mono {p : Raising E α} {Q' : α → W → Prop} {X' : Err → W → Prop}
    (hQ : ∀ a w', Q a w' → Q' a w') (hX : ∀ e w', X e w' → X' e w') (hp : ends h p Q X w) :
    ends h p Q' X' w := by
  unfold ends at hp ⊢
  cases hexec : exec h p w with
  | mk r w' =>
      rw [hexec] at hp
      cases r with
      | ok a => exact hQ a w' hp
      | error e => exact hX e w' hp

/-- The rule for one statement after another: `Q'` holds between them, and either of them may
raise. -/
lemma ends_then {p : Raising E α} {f : α → Raising E β} {Q : β → W → Prop} {Q' : α → W → Prop}
    (hp : ends h p Q' X w) (hf : ∀ a w', Q' a w' → ends h (f a) Q X w') :
    ends h (p >>= f) Q X w :=
  (ends_bind p f).2 (ends_mono hf (fun _ _ he => he) hp)

/-- The rule for a single call: the handler decides whether it answers or raises, and the
postcondition of that case has to hold. -/
lemma ends_ask {o : E.Call} {Q : E.Answer o → W → Prop}
    (hQ : ∀ a, (h o w).1 = .ok a → Q a (h o w).2)
    (hX : ∀ e, (h o w).1 = .error e → X e (h o w).2) : ends h (ask o) Q X w := by
  unfold ends
  rw [exec_ask]
  cases hreply : h o w with
  | mk r w' =>
      rw [hreply] at hQ hX
      cases r with
      | ok a => exact hQ a rfl
      | error e => exact hX e rfl

/-- The rule for a loop over a list: `P xs` holds when the rounds `xs` are left. -/
lemma ends_forM {f : γ → Raising E Unit} {P : List γ → W → Prop}
    (hround : ∀ x xs w', P (x :: xs) w' → ends h (f x) (fun _ => P xs) X w') {xs : List γ}
    (hw : P xs w) : ends h (xs.forM f) (fun _ => P []) X w := by
  induction xs generalizing w with
  | nil => exact hw
  | cons x xs ih =>
      change ends h (f x >>= fun _ => xs.forM f) _ _ w
      exact ends_then (hround x xs w hw) (fun _ w' hw' => ih hw')

/-- What every call keeps, every program keeps, whether it returns or raises.  The induction is on
the program. -/
lemma ends_always {P : W → Prop} (hcall : ∀ o w', P w' → P (h o w').2) (p : Raising E α)
    (hw : P w) : ends h p (fun _ => P) (fun _ => P) w := by
  have hrun : ∀ (p : Prog E (Except Err α)) (w : W), P w → P (p.run h w).2 := by
    intro p
    induction p with
    | done a => exact fun _ hw => hw
    | call o k ih => exact fun w hw => ih _ _ (hcall o w hw)
  have hend : P (exec h p w).2 := hrun _ w hw
  unfold ends
  cases hexec : exec h p w with
  | mk r w' =>
      rw [hexec] at hend
      cases r with
      | ok a => exact hend
      | error e => exact hend

/-- The execution that ends so: a result and a world for which the postconditions hold. -/
lemma exec_of_ends {p : Raising E α} (hp : ends h p Q X w) :
    ∃ r w', exec h p w = (r, w') ∧ (∀ a, r = .ok a → Q a w') ∧ ∀ e, r = .error e → X e w' := by
  unfold ends at hp
  cases hexec : exec h p w with
  | mk r w' =>
      rw [hexec] at hp
      cases r with
      | ok a =>
          refine ⟨_, _, rfl, fun a' ha => ?_, fun e he => (nomatch he)⟩
          cases ha
          exact hp
      | error e =>
          refine ⟨_, _, rfl, fun a ha => (nomatch ha), fun e' he => ?_⟩
          cases he
          exact hp

end Ends

end Raising

end Prog

/-! ## Runs of requests -/

section Runs

variable {W R : Type} (after : W → R → W)

/-- What holds at every request of a run, in the world in which it begins. -/
def Along (P : W → R → Prop) (w : W) (requests : List R) : Prop :=
  ∀ before r later, requests = before ++ r :: later → P (before.foldl after w) r

variable {after}

/-- What every request keeps, a run of requests keeps.  The induction is on the list of requests. -/
lemma foldl_keeps {inv : W → Prop} (hkeeps : ∀ w r, inv w → inv (after w r)) {w : W} (hw : inv w)
    (requests : List R) : inv (requests.foldl after w) := by
  induction requests generalizing w with
  | nil => exact hw
  | cons r requests ih => exact ih (hkeeps w r hw)

/-- Two properties of a request that agree where the invariant holds agree along every run. -/
lemma along_congr {P Q : W → R → Prop} {inv : W → Prop}
    (hkeeps : ∀ w r, inv w → inv (after w r)) (hiff : ∀ w r, inv w → (P w r ↔ Q w r)) {w : W}
    (hw : inv w) (requests : List R) : Along after P w requests ↔ Along after Q w requests := by
  constructor
  · intro h before r later hsplit
    exact (hiff _ r (foldl_keeps hkeeps hw before)).1 (h before r later hsplit)
  · intro h before r later hsplit
    exact (hiff _ r (foldl_keeps hkeeps hw before)).2 (h before r later hsplit)

/-- A run of one request: the condition is about that request in the first world. -/
lemma along_singleton {P : W → R → Prop} {w : W} {r : R} : Along after P w [r] ↔ P w r := by
  constructor
  · intro h
    exact h [] r [] rfl
  · intro h before r' later hsplit
    cases before with
    | nil =>
        cases hsplit
        exact h
    | cons r'' before => simp at hsplit

end Runs

end TokenFoundry
