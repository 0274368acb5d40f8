import Mathlib.Data.List.Basic
import Mathlib.Logic.Relation

/-!
# Machines and their runs

A machine has a set of initial states and a partial, executable step: `step s e` is the state
after event `e`, or `none` when `e` is not enabled at `s`. Everything nondeterministic (which
party moves, what a remote call answers) is part of the event.

* `Machine.run` executes a list of events, `Machine.runWhile` checks a condition before each.
* `Machine.Via C` are the states reached by runs whose every step meets `C`, a condition on the
  state before the step and the event; `Machine.Reachable` is the case without a condition.
* `Machine.log` is what is observed along a list of events.
* `Via.induct` is the invariant rule, `Via.rel` its two-state form: a reflexive and transitive
  relation kept by every step relates any state to every later one.
-/

namespace Foundations

/-- A machine over states `σ` and events `ε`. -/
structure Machine (σ : Type*) (ε : Type*) where
  Initial : σ → Prop
  step : σ → ε → Option σ

namespace Machine

variable {σ ε : Type*} (M : Machine σ ε)

/-- The state after a list of events, as long as each step meets `ok`. -/
def runWhile (ok : σ → ε → Bool) (s : σ) : List ε → Option σ
  | [] => some s
  | e :: es =>
    if ok s e then
      match M.step s e with
      | none => none
      | some s' => runWhile ok s' es
    else none

/-- The state after a list of events. -/
def run (s : σ) (es : List ε) : Option σ := M.runWhile (fun _ _ => true) s es

/-- What `obs` sees along a list of events, in order. -/
def log {ω : Type*} (obs : σ → ε → List ω) (s : σ) : List ε → List ω
  | [] => []
  | e :: es =>
    obs s e ++
      match M.step s e with
      | none => []
      | some s' => log obs s' es

/-- `Steps C s es s'`: the events `es` lead from `s` to `s'`, each step meeting `C`. -/
inductive Steps (C : σ → ε → Prop) : σ → List ε → σ → Prop
  | nil (s : σ) : Steps C s [] s
  | snoc {s t u : σ} {es : List ε} {e : ε} (h : Steps C s es t) (hC : C t e)
      (hs : M.step t e = some u) : Steps C s (es ++ [e]) u

/-- The states reached from an initial state by steps that all meet `C`. -/
inductive Via (C : σ → ε → Prop) : σ → Prop
  | init {s : σ} (h : M.Initial s) : Via C s
  | step {s s' : σ} {e : ε} (h : Via C s) (hC : C s e) (hs : M.step s e = some s') : Via C s'

/-- The reachable states. -/
abbrev Reachable : σ → Prop := M.Via fun _ _ => True

variable {M} {C D : σ → ε → Prop} {s t u : σ} {es : List ε}

theorem Via.mono (h : M.Via C s) (hCD : ∀ s e, C s e → D s e) : M.Via D s := by
  induction h with
  | init h => exact .init h
  | step _ hC hs ih => exact .step ih (hCD _ _ hC) hs

theorem Via.reachable (h : M.Via C s) : M.Reachable s := h.mono fun _ _ _ => trivial

/-- **The invariant rule.** The step may use that the state before it was reached. -/
theorem Via.induct {I : σ → Prop} (hs : M.Via C s) (init : ∀ s, M.Initial s → I s)
    (step : ∀ s e s', M.Via C s → I s → C s e → M.step s e = some s' → I s') : I s := by
  induction hs with
  | init h => exact init _ h
  | step h hC hs ih => exact step _ _ _ h ih hC hs

theorem Steps.via (h : M.Steps C s es t) (hs : M.Via C s) : M.Via C t := by
  induction h with
  | nil => exact hs
  | snoc _ hC he ih => exact .step ih hC he

theorem Steps.reachable (h : M.Steps C s es t) (hs : M.Reachable s) : M.Reachable t := by
  induction h with
  | nil => exact hs
  | snoc _ _ he ih => exact .step ih trivial he

/-- **The two-state rule**: a reflexive, transitive relation that every step keeps relates the
first state of a run to its last. -/
theorem Steps.rel {R : σ → σ → Prop} (h : M.Steps C s es t) (hs : M.Reachable s)
    (refl : ∀ s, R s s) (trans : ∀ s t u, R s t → R t u → R s u)
    (step : ∀ s e s', M.Reachable s → C s e → M.step s e = some s' → R s s') : R s t := by
  induction h with
  | nil => exact refl _
  | snoc h hC he ih => exact trans _ _ _ ih (step _ _ _ (h.reachable hs) hC he)

theorem Steps.mono (h : M.Steps C s es t) (hCD : ∀ s e, C s e → D s e) : M.Steps D s es t := by
  induction h with
  | nil => exact .nil _
  | snoc _ hC he ih => exact .snoc ih (hCD _ _ hC) he

theorem Steps.trans {es' : List ε} (h : M.Steps C s es t) (h' : M.Steps C t es' u) :
    M.Steps C s (es ++ es') u := by
  induction h' with
  | nil => rwa [List.append_nil]
  | snoc _ hC he ih =>
    rw [← List.append_assoc]
    exact .snoc ih hC he

section Log

variable {ω : Type*} {obs : σ → ε → List ω}

theorem Steps.log_append (h : M.Steps C s es t) (es' : List ε) :
    M.log obs s (es ++ es') = M.log obs s es ++ M.log obs t es' := by
  induction h generalizing es' with
  | nil => rfl
  | @snoc t u es e h hC he ih =>
    rw [List.append_assoc, ih, ih, List.append_assoc]
    simp only [List.singleton_append, log, he, List.append_nil]

theorem Steps.log_snoc {e : ε} (h : M.Steps C s es t) (he : M.step t e = some u) :
    M.log obs s (es ++ [e]) = M.log obs s es ++ obs t e := by
  rw [h.log_append]
  simp only [log, he, List.append_nil]

/-- **The rule for logs**: a relation between what has been observed so far and the state. -/
theorem Steps.log_induct {I : List ω → σ → Prop} (h : M.Steps C s es t) (hs : M.Reachable s)
    (init : I [] s)
    (step : ∀ l t e u, M.Reachable t → I l t → C t e → M.step t e = some u → I (l ++ obs t e) u) :
    I (M.log obs s es) t := by
  induction h with
  | nil => exact init
  | @snoc t u es e h hC he ih =>
    rw [h.log_snoc he]
    exact step _ _ _ _ (h.reachable hs) ih hC he

end Log

/-- **Conditions on steps that agree** as long as `I` holds agree on whole runs. -/
theorem Steps.congr {I : σ → Prop} (h : M.Steps C s es t) (hI : I s)
    (step : ∀ s e s', I s → M.step s e = some s' → C s e → D s e ∧ I s') : M.Steps D s es t := by
  suffices hboth : M.Steps D s es t ∧ I t from hboth.1
  induction h with
  | nil => exact ⟨.nil _, hI⟩
  | snoc _ hC he ih =>
    obtain ⟨hD, hI'⟩ := step _ _ _ ih.2 he hC
    exact ⟨.snoc ih.1 hD he, hI'⟩

/-- **Conditions on the events before.** When the condition `C` on a step says what `H` says of the
events so far, it holds in all steps of a run if and only if `H` holds at every event of it. -/
theorem steps_iff_history {H : List ε → ε → Prop}
    (hC : ∀ pre t e u, M.Steps (fun _ _ => True) s pre t → M.step t e = some u →
      (C t e ↔ H pre e)) :
    M.Steps C s es t ↔
      M.Steps (fun _ _ => True) s es t ∧ ∀ pre e post, es = pre ++ e :: post → H pre e := by
  constructor
  · intro h
    refine ⟨h.mono fun _ _ _ => trivial, ?_⟩
    induction h with
    | nil =>
      intro pre e post hes
      cases pre <;> cases hes
    | snoc h hCe he ih =>
      intro pre e' post hes
      rcases List.eq_nil_or_concat post with rfl | ⟨post, e'', rfl⟩
      · obtain ⟨rfl, hlast⟩ := List.append_inj' hes rfl
        cases hlast
        exact (hC _ _ _ _ (h.mono fun _ _ _ => trivial) he).1 hCe
      · rw [List.concat_eq_append, ← List.cons_append, ← List.append_assoc] at hes
        exact ih _ _ _ (List.append_inj' hes rfl).1
  · rintro ⟨h, hH⟩
    induction h with
    | nil => exact .nil _
    | @snoc t u es last h _ he ih =>
      have hlast := (hC _ _ _ _ h he).2 (hH _ _ [] rfl)
      refine .snoc (ih fun pre e post hes => hH pre e (post ++ [last]) ?_) hlast he
      rw [hes, List.append_assoc, List.cons_append]

/-- **The exactness rule**: when every step keeps `P` if and only if it meets `C`, the runs that end
in `P` are those whose steps all meet `C`. -/
theorem steps_and_iff {P : σ → Prop} (hs : M.Reachable s) (h : P s)
    (step : ∀ s e s', M.Reachable s → M.step s e = some s' → (P s' ↔ P s ∧ C s e)) :
    M.Steps (fun _ _ => True) s es t ∧ P t ↔ M.Steps C s es t := by
  constructor
  · rintro ⟨hrun, ht⟩
    induction hrun with
    | nil => exact .nil _
    | snoc hrun _ he ih =>
      obtain ⟨hP, hC⟩ := (step _ _ _ (hrun.reachable hs) he).1 ht
      exact .snoc (ih hP) hC he
  · intro hrun
    refine ⟨hrun.mono fun _ _ _ => trivial, ?_⟩
    induction hrun with
    | nil => exact h
    | snoc hrun hC he ih => exact (step _ _ _ (hrun.reachable hs) he).2 ⟨ih, hC⟩

theorem steps_of_runWhile {ok : σ → ε → Bool} (hok : ∀ s e, ok s e = true → C s e)
    (h : M.runWhile ok s es = some t) : M.Steps C s es t := by
  induction es generalizing s with
  | nil => cases h; exact .nil _
  | cons e es ih =>
    simp only [runWhile] at h
    split_ifs at h with he
    split at h
    · cases h
    · next s' hs' => exact (Steps.snoc (.nil s) (hok s e he) hs').trans (ih h)

variable (M)

/-- Where a checked run leads. -/
theorem exists_of_runWhile (ok : σ → ε → Bool) (hok : ∀ s e, ok s e = true → C s e) (s : σ)
    (es : List ε) (p : σ → Bool) (h : (M.runWhile ok s es).any p = true) :
    ∃ t, M.Steps C s es t ∧ p t = true := by
  obtain ⟨t, ht, hp⟩ := (Option.any_eq_true _ _).1 h
  exact ⟨t, steps_of_runWhile hok ht, hp⟩

/-- Where a run leads. -/
theorem exists_of_run (s : σ) (es : List ε) (p : σ → Bool) (h : (M.run s es).any p = true) :
    ∃ t, M.Steps (fun _ _ => True) s es t ∧ p t = true :=
  M.exists_of_runWhile _ (fun _ _ _ => trivial) s es p h

end Machine

end Foundations
