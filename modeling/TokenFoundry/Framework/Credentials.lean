import Mathlib.Logic.Function.Basic
import Mathlib.Tactic.Common

/-!
# Credentials that are issued and revoked

A name is unknown at first, live once it has been issued, and revoked from then on if it is revoked.
A name that is known cannot be issued again, so that its status only goes up in the order unknown,
live, revoked.  Which names are live after a run of events can be read off the events alone.
-/

set_option autoImplicit false

namespace TokenFoundry
namespace Credentials

/-- What a registry knows of a name: nothing, that it is valid, or that it was withdrawn. -/
inductive Status
  | unknown
  | live
  | revoked
  deriving DecidableEq

/-- A name that is known already stays as it is; in particular, one that was withdrawn is not valid
again. -/
def Status.issued : Status → Status
  | .unknown => .live
  | .live => .live
  | .revoked => .revoked

/-- A name that was never issued is not withdrawn, and stays unknown. -/
def Status.withdrawn : Status → Status
  | .unknown => .unknown
  | .live => .revoked
  | .revoked => .revoked

/-- What happens to the names of a registry. -/
inductive Event (α : Type)
  | issue (a : α)
  | revoke (a : α)
  deriving DecidableEq

/-- What is known of the names. -/
abbrev Registry (α : Type) := α → Status

section Runs

variable {α : Type} [DecidableEq α]

/-- One event changes the status of its own name and of no other. -/
def step (r : Registry α) : Event α → Registry α
  | .issue a => Function.update r a (r a).issued
  | .revoke a => Function.update r a (r a).withdrawn

/-- The registry after some events, in their order. -/
def run (events : List (Event α)) (r : Registry α) : Registry α := events.foldl step r

@[simp] lemma run_nil (r : Registry α) : run [] r = r := rfl

@[simp] lemma run_cons (e : Event α) (events : List (Event α)) (r : Registry α) :
    run (e :: events) r = run events (step r e) := rfl

@[simp] lemma step_issue_self (r : Registry α) (a : α) : step r (.issue a) a = (r a).issued :=
  Function.update_self a _ r

@[simp] lemma step_revoke_self (r : Registry α) (a : α) : step r (.revoke a) a = (r a).withdrawn :=
  Function.update_self a _ r

/-- An event of another name leaves the status of a name. -/
lemma step_of_ne {e : Event α} {a : α} (hissue : e ≠ .issue a) (hrevoke : e ≠ .revoke a)
    (r : Registry α) : step r e a = r a := by
  cases e with
  | issue b => exact Function.update_of_ne (fun h => hissue (by rw [h])) _ r
  | revoke b => exact Function.update_of_ne (fun h => hrevoke (by rw [h])) _ r

/-! ## A status only goes up -/

/-- What was withdrawn stays withdrawn, whatever happens after it. -/
theorem run_revoked {events : List (Event α)} {r : Registry α} {a : α} (h : r a = .revoked) :
    run events r a = .revoked := by
  induction events generalizing r with
  | nil => exact h
  | cons e events ih =>
      refine ih ?_
      by_cases hissue : e = .issue a
      · rw [hissue, step_issue_self, h, Status.issued]
      · by_cases hrevoke : e = .revoke a
        · rw [hrevoke, step_revoke_self, h, Status.withdrawn]
        · rw [step_of_ne hissue hrevoke, h]

lemma run_append (before after : List (Event α)) (r : Registry α) :
    run (before ++ after) r = run after (run before r) := List.foldl_append

lemma run_known {events : List (Event α)} {r : Registry α} {a : α}
    (h : r a ≠ .unknown ∨ .issue a ∈ events) : run events r a ≠ .unknown := by
  induction events generalizing r with
  | nil => simpa using h
  | cons e events ih =>
      refine ih ?_
      by_cases hissue : e = .issue a
      · left
        rw [hissue, step_issue_self]
        cases r a <;> simp [Status.issued]
      · rcases h with h | h
        · left
          by_cases hrevoke : e = .revoke a
          · rw [hrevoke, step_revoke_self]
            cases hs : r a with
            | unknown => exact absurd hs h
            | live => simp [Status.withdrawn]
            | revoked => simp [Status.withdrawn]
          · rw [step_of_ne hissue hrevoke]
            exact h
        · exact .inr ((List.mem_cons.1 h).resolve_left (Ne.symm hissue))

/-- A name that has been issued and then revoked is revoked from then on. -/
theorem run_issue_revoke {before after : List (Event α)} {r : Registry α} {a : α}
    (h : .issue a ∈ before) : run (before ++ .revoke a :: after) r a = .revoked := by
  rw [run_append, run_cons]
  refine run_revoked ?_
  rw [step_revoke_self]
  cases hs : run before r a with
  | unknown => exact absurd hs (run_known (.inr h))
  | live => rfl
  | revoked => rfl

/-- A live name stays live as long as it is not revoked. -/
theorem run_live {events : List (Event α)} {r : Registry α} {a : α} (h : r a = .live) :
    run events r a = .live ↔ .revoke a ∉ events := by
  induction events generalizing r with
  | nil => simp [h]
  | cons e events ih =>
      rw [run_cons, List.mem_cons, not_or]
      by_cases hrevoke : e = .revoke a
      · have hstep : step r e a = .revoked := by
          rw [hrevoke, step_revoke_self, h, Status.withdrawn]
        rw [run_revoked hstep]
        simp [hrevoke]
      · have hstep : step r e a = .live := by
          by_cases hissue : e = .issue a
          · rw [hissue, step_issue_self, h, Status.issued]
          · rw [step_of_ne hissue hrevoke, h]
        rw [ih hstep]
        exact ⟨fun hnot => ⟨Ne.symm hrevoke, hnot⟩, And.right⟩

/-- A name that is unknown at first is live at the end if it has been issued, and not revoked since
the first time. -/
theorem run_unknown {events : List (Event α)} {r : Registry α} {a : α} (h : r a = .unknown) :
    run events r a = .live ↔
      ∃ before after, events = before ++ .issue a :: after ∧ .issue a ∉ before ∧
        .revoke a ∉ after := by
  induction events generalizing r with
  | nil => simp [h]
  | cons e events ih =>
      rw [run_cons]
      by_cases hissue : e = .issue a
      · have hstep : step r e a = .live := by rw [hissue, step_issue_self, h, Status.issued]
        rw [run_live hstep]
        constructor
        · exact fun hrevoke => ⟨[], events, by rw [hissue]; rfl, List.not_mem_nil, hrevoke⟩
        · rintro ⟨before, after, heq, hbefore, hafter⟩
          cases before with
          | nil =>
              obtain ⟨-, rfl⟩ := List.cons.inj heq
              exact hafter
          | cons e' before =>
              obtain ⟨rfl, -⟩ := List.cons.inj heq
              exact absurd (hissue ▸ List.mem_cons_self) hbefore
      -- What comes before the issue leaves the name unknown, even where it is a revocation.
      · have hstep : step r e a = .unknown := by
          by_cases hrevoke : e = .revoke a
          · rw [hrevoke, step_revoke_self, h, Status.withdrawn]
          · rw [step_of_ne hissue hrevoke, h]
        rw [ih hstep]
        constructor
        · rintro ⟨before, after, rfl, hbefore, hafter⟩
          refine ⟨e :: before, after, rfl, ?_, hafter⟩
          rw [List.mem_cons, not_or]
          exact ⟨Ne.symm hissue, hbefore⟩
        · rintro ⟨before, after, heq, hbefore, hafter⟩
          cases before with
          | nil => exact absurd (List.cons.inj heq).1 hissue
          | cons e' before =>
              obtain ⟨rfl, rfl⟩ := List.cons.inj heq
              exact ⟨before, after, rfl, fun hmem => hbefore (List.mem_cons_of_mem _ hmem), hafter⟩

end Runs

end Credentials
end TokenFoundry
