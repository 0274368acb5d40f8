import ArtsExplorer.Foundations.Machine
import Mathlib.Data.Multiset.DershowitzManna
import Mathlib.Order.WellFounded

/-!
# Work that comes to an end

A machine works off tasks when each of its steps takes one task away and leaves finitely many
smaller ones instead, however many these are (`Machine.WorksOff`). Where the order of the tasks is
well-founded, the Dershowitz–Manna order of their multisets is, so that such steps cannot go on for
ever (`WorksOff.not_forever`), in whatever order the tasks are taken, and every state leads to one
where no such step is possible (`WorksOff.exists_rest`).
-/

namespace Foundations

/-! ## Tasks in a list -/

/-- Replacing an element of a list replaces its task. -/
theorem exists_tasks_of_set {α τ : Type*} (task : α → Option τ) {l : List α} {i : ℕ} {x : α}
    (h : l[i]? = some x) (y : α) :
    ∃ rest : Multiset τ, (l.filterMap task : Multiset τ) = (task x).toList + rest ∧
      ((l.set i y).filterMap task : Multiset τ) = (task y).toList + rest := by
  have hcons : ∀ (z : α) (zs : List α),
      ((z :: zs).filterMap task : Multiset τ) = (task z).toList + (zs.filterMap task) := by
    intro z zs
    rw [Multiset.coe_add]
    cases htask : task z <;> simp [htask]
  induction l generalizing i with
  | nil => cases h
  | cons z zs ih =>
    cases i with
    | zero =>
      cases h
      exact ⟨zs.filterMap task, hcons x zs, hcons y zs⟩
    | succ i =>
      obtain ⟨rest, hx, hy⟩ := ih h
      refine ⟨(task z).toList + rest, ?_, ?_⟩
      · rw [hcons, hx, add_left_comm]
      · rw [List.set_cons_succ, hcons, hy, add_left_comm]

namespace Machine

variable {σ ε τ : Type*} {M : Machine σ ε} {C : σ → ε → Prop} [Preorder τ]

/-- Every step that meets `C` takes a task away, for smaller ones. -/
def WorksOff (M : Machine σ ε) (C : σ → ε → Prop) (tasks : σ → Multiset τ) : Prop :=
  ∀ s e t, C s e → M.step s e = some t → ∃ (a : τ) (rest more : Multiset τ),
    tasks s = a ::ₘ rest ∧ tasks t = more + rest ∧ ∀ b ∈ more, b < a

namespace WorksOff

variable {tasks : σ → Multiset τ}

theorem isDershowitzMannaLT (h : M.WorksOff C tasks) {s t : σ} {e : ε} (hC : C s e)
    (hs : M.step s e = some t) : (tasks t).IsDershowitzMannaLT (tasks s) := by
  obtain ⟨a, rest, more, hs, ht, hlt⟩ := h s e t hC hs
  refine ⟨rest, more, {a}, by simp, by rw [ht, add_comm], ?_, fun b hb => ⟨a, by simp, hlt b hb⟩⟩
  rw [hs, ← Multiset.singleton_add, add_comm]

variable [WellFoundedLT τ]

theorem wellFounded (h : M.WorksOff C tasks) :
    WellFounded fun t s : σ => ∃ e, C s e ∧ M.step s e = some t := by
  refine Subrelation.wf (r := InvImage Multiset.IsDershowitzMannaLT tasks) ?_
    (InvImage.wf tasks Multiset.wellFounded_isDershowitzMannaLT)
  rintro t s ⟨e, hC, hs⟩
  exact h.isDershowitzMannaLT hC hs

/-- **The work does not go on for ever.** -/
theorem not_forever (h : M.WorksOff C tasks) (run : ℕ → σ) :
    ∃ n, ¬ ∃ e, C (run n) e ∧ M.step (run n) e = some (run (n + 1)) := by
  by_contra hall
  push Not at hall
  exact (wellFounded_iff_isEmpty_descending_chain.1 h.wellFounded).false ⟨run, hall⟩

/-- **The work can be finished** from every state. -/
theorem exists_rest (h : M.WorksOff C tasks) (s : σ) :
    ∃ es t, M.Steps C s es t ∧ ∀ e u, C t e → M.step t e ≠ some u := by
  induction s using h.wellFounded.induction with
  | _ s ih =>
    by_cases hrest : ∀ e u, C s e → M.step s e ≠ some u
    · exact ⟨[], s, .nil s, hrest⟩
    · push Not at hrest
      obtain ⟨e, u, hC, hs⟩ := hrest
      obtain ⟨es, t, hrun, ht⟩ := ih u ⟨e, hC, hs⟩
      exact ⟨[] ++ [e] ++ es, t, (Steps.snoc (.nil s) hC hs).trans hrun, ht⟩

end WorksOff

end Machine

end Foundations
