import ArtsExplorer.Foundations.Machine

/-!
# Refinement

A machine refines an abstract one along an abstraction of its states if each of its steps is, seen
from there, a step of the abstract machine or nothing at all (`Machine.Refines`). Then every run is
a run of the abstract machine whose events are the visible ones of the run, in order
(`Refines.steps`). So a fact about the runs of the abstract machine holds of all runs of the other.

A refinement is a case of a simulation (`Machine.Simulates`): related states stay related, in the
steps that meet a condition. This serves where the abstract state is not a function of the other.
-/

namespace Foundations

namespace Machine

variable {σ ε τ α : Type*}

/-- `N` follows `M` where its steps meet `C`: related states stay related, by a step of `N` that
meets `D`, or by none. -/
def Simulates (M : Machine σ ε) (N : Machine τ α) (C : σ → ε → Prop) (D : τ → α → Prop)
    (R : σ → τ → Prop) (act : σ → ε → Option α) : Prop :=
  ∀ s e s' t, R s t → C s e → M.step s e = some s' →
    (act s e = none ∧ R s' t) ∨
      ∃ a t', act s e = some a ∧ D t a ∧ N.step t a = some t' ∧ R s' t'

/-- `M` refines `N`: `abs` is the abstraction of the states, and `act` the abstract event of a step,
if it has one. -/
structure Refines (M : Machine σ ε) (N : Machine τ α) (abs : σ → τ) (act : σ → ε → Option α) :
    Prop where
  initial : ∀ s, M.Initial s → N.Initial (abs s)
  visible : ∀ s e t a, M.Reachable s → M.step s e = some t → act s e = some a →
    N.step (abs s) a = some (abs t)
  hidden : ∀ s e t, M.Reachable s → M.step s e = some t → act s e = none → abs t = abs s

variable {M : Machine σ ε} {N : Machine τ α} {abs : σ → τ} {act : σ → ε → Option α}
  {C : σ → ε → Prop} {D : τ → α → Prop} {R : σ → τ → Prop}

/-- **Every run is followed.** -/
theorem Simulates.steps (h : M.Simulates N C D R act) {s s' : σ} {t : τ} {es : List ε}
    (hR : R s t) (hrun : M.Steps C s es s') :
    ∃ t', N.Steps D t (M.log (fun s e => (act s e).toList) s es) t' ∧ R s' t' := by
  induction hrun with
  | nil => exact ⟨t, .nil t, hR⟩
  | @snoc u v es e hrun hC he ih =>
    obtain ⟨t₁, ht₁, hR₁⟩ := ih
    rw [hrun.log_snoc he]
    rcases h u e v t₁ hR₁ hC he with ⟨hnone, hR₂⟩ | ⟨a, t₂, hsome, hD, hstep, hR₂⟩
    · refine ⟨t₁, ?_, hR₂⟩
      rw [hnone, Option.toList_none, List.append_nil]
      exact ht₁
    · refine ⟨t₂, ?_, hR₂⟩
      rw [hsome, Option.toList_some]
      exact ht₁.snoc hD hstep

namespace Refines

/-- A refinement relates every reachable state to its abstraction. -/
theorem simulates (h : M.Refines N abs act) :
    M.Simulates N C (fun _ _ => True) (fun s t => M.Reachable s ∧ t = abs s) act := by
  rintro s e s' t ⟨hs, rfl⟩ - he
  have hs' : M.Reachable s' := hs.step trivial he
  cases ha : act s e with
  | none => exact .inl ⟨rfl, hs', (h.hidden s e s' hs he ha).symm⟩
  | some a => exact .inr ⟨a, abs s', rfl, trivial, h.visible s e s' a hs he ha, hs', rfl⟩

/-- **Every run is a run of the abstract machine.** -/
theorem steps (h : M.Refines N abs act) {s t : σ} {es : List ε} (hs : M.Reachable s)
    (hrun : M.Steps C s es t) :
    N.Steps (fun _ _ => True) (abs s) (M.log (fun s e => (act s e).toList) s es) (abs t) := by
  obtain ⟨t', hsteps, -, rfl⟩ := h.simulates.steps ⟨hs, rfl⟩ hrun
  exact hsteps

end Refines

end Machine

end Foundations
