import Mathlib.Tactic.Common

/-!
# What a program with exceptions leaves

A generator keeps its variables in a state, which stays as it is when an exception is raised.
`Triple P m Q E` says how `m` ends, from every state with `P`: with a result and a state in `Q`, or
with an exception and a state in `E`.  Programs of this kind always end, so that a triple in which
`E` is empty says that the program comes to its end.

The rules follow the programs: a return, an exception, a step after another, and a loop over a list,
whose invariant speaks of the elements that have been passed.
-/

set_option autoImplicit false

namespace TokenFoundry
namespace Outcomes

variable {ε σ α β : Type}

/-- A computation that comes out has come out of its first step. -/
lemma bind_eq_ok {x : Except ε α} {f : α → Except ε β} {b : β} :
    x >>= f = .ok b ↔ ∃ a, x = .ok a ∧ f a = .ok b := by
  cases x with
  | error e => exact ⟨fun h => (nomatch h), fun ⟨_, h, _⟩ => (nomatch h)⟩
  | ok a => exact ⟨fun h => ⟨a, rfl, h⟩, fun ⟨_, h, hf⟩ => by cases h; exact hf⟩

lemma ok_bind {m : EStateM ε σ α} {k : α → EStateM ε σ β} {s s' : σ} {a : α}
    (h : m s = .ok a s') : (m >>= k) s = k a s' := by
  change EStateM.bind m k s = _
  rw [EStateM.bind, h]

lemma error_bind {m : EStateM ε σ α} {k : α → EStateM ε σ β} {s s' : σ} {e : ε}
    (h : m s = .error e s') : (m >>= k) s = .error e s' := by
  change EStateM.bind m k s = _
  rw [EStateM.bind, h]

/-- What is expected of a result and of the state it leaves. -/
def Ends (Q : α → σ → Prop) (E : ε → σ → Prop) : EStateM.Result ε σ α → Prop
  | .ok a s => Q a s
  | .error e s => E e s

/-- A Hoare triple for a program with a state that may fail: from `P`, it returns with `Q` or fails
with `E`. -/
def Triple (P : σ → Prop) (m : EStateM ε σ α) (Q : α → σ → Prop) (E : ε → σ → Prop) : Prop :=
  ∀ s, P s → Ends Q E (m s)

variable {P : σ → Prop} {Q : α → σ → Prop} {E : ε → σ → Prop} {m : EStateM ε σ α}

lemma Triple.pure {a : α} (h : ∀ s, P s → Q a s) : Triple P (Pure.pure a : EStateM ε σ α) Q E :=
  h

lemma Triple.throw {e : ε} (h : ∀ s, P s → E e s) :
    Triple P (MonadExcept.throw e : EStateM ε σ α) Q E :=
  h

/-- A step, and what follows it: the assertion between them is the postcondition of the one and the
precondition of the other. -/
lemma Triple.bind {R : α → σ → Prop} {k : α → EStateM ε σ β} {Q : β → σ → Prop}
    (hm : Triple P m R E) (hk : ∀ a, Triple (R a) (k a) Q E) : Triple P (m >>= k) Q E := by
  intro s hs
  have hms := hm s hs
  change Ends Q E (EStateM.bind m k s)
  unfold EStateM.bind
  cases hrun : m s with
  | ok a s' =>
      rw [hrun] at hms
      exact hk a s' hms
  | error e s' =>
      rw [hrun] at hms
      exact hms

lemma Triple.mono {P' : σ → Prop} {Q' : α → σ → Prop} {E' : ε → σ → Prop} (h : Triple P m Q E)
    (hP : ∀ s, P' s → P s) (hQ : ∀ a s, Q a s → Q' a s) (hE : ∀ e s, E e s → E' e s) :
    Triple P' m Q' E' := by
  intro s hs
  have hms := h s (hP s hs)
  cases hrun : m s with
  | ok a s' =>
      rw [hrun] at hms
      exact hQ a s' hms
  | error e s' =>
      rw [hrun] at hms
      exact hE e s' hms

/-- A loop whose invariant speaks of the elements that have been passed. -/
lemma Triple.forM {body : α → EStateM ε σ PUnit} {I : List α → σ → Prop} {items : List α}
    (h : ∀ pre a post, items = pre ++ a :: post →
      Triple (I pre) (body a) (fun _ => I (pre ++ [a])) E) :
    Triple (I []) (items.forM body) (fun _ => I items) E := by
  have hloop : ∀ rest pre, items = pre ++ rest →
      Triple (I pre) (rest.forM body) (fun _ => I items) E := by
    intro rest
    induction rest with
    | nil =>
        intro pre hpre
        refine Triple.pure (fun s hs => ?_)
        rw [hpre, List.append_nil]
        exact hs
    | cons a rest ih =>
        intro pre hpre
        exact (h pre a rest hpre).bind (fun _ => ih (pre ++ [a]) (by simp [hpre]))
  exact hloop items [] rfl

end Outcomes
end TokenFoundry
