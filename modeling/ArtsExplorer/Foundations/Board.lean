import ArtsExplorer.Foundations.Machine
import Mathlib.Order.Basic

/-!
# A moderated board

What a moderated board is for, whoever uses it and however it is stored. An item is submitted under
a key that has never been used, is pending until it is approved, and may be removed. Nothing else
happens to it: its content never changes, an approval is never withdrawn, and what has been removed
never comes back. The phases of an item are ordered by this (`Phase.Le`), and a board only goes up
(`Board.le_of_steps`). The acts that concern a key determine its phase, and the other way round
their shape is that of the phase (`Board.history`).
-/

namespace Foundations

/-- Where an item of the board is, with its content. -/
inductive Phase (α : Type*)
  | absent
  | pending (a : α)
  | approved (a : α)
  | removed

namespace Phase

variable {α : Type*}

/-- An item in the first phase can be in the second one later. -/
inductive Le : Phase α → Phase α → Prop
  | refl (p : Phase α) : Le p p
  | absent (p : Phase α) : Le .absent p
  | approve (a : α) : Le (.pending a) (.approved a)
  | removed (p : Phase α) : Le p .removed

instance : LE (Phase α) := ⟨Le⟩

instance : PartialOrder (Phase α) where
  le_refl := .refl
  le_trans p q r hpq hqr := by
    cases hpq with
    | refl => exact hqr
    | absent => exact .absent r
    | approve a =>
      cases hqr with
      | refl => exact .approve a
      | removed => exact .removed _
    | removed =>
      cases hqr <;> exact .removed _
  le_antisymm p q hpq hqp := by
    cases hpq <;> cases hqp <;> rfl

end Phase

/-- What happens on a board. -/
inductive BoardAct (κ α : Type*)
  | submit (k : κ) (a : α)
  | approve (k : κ)
  | remove (k : κ)

/-- The key an act concerns. -/
def BoardAct.key {κ α : Type*} : BoardAct κ α → κ
  | .submit k _ => k
  | .approve k => k
  | .remove k => k

/-- A board: the phase of the item of each key. -/
abbrev Board (κ α : Type*) := κ → Phase α

namespace Board

variable {κ α : Type*} [DecidableEq κ] (b : Board κ α)

/-- A submission needs a new key; an approval and a removal need an item. -/
def step : BoardAct κ α → Option (Board κ α)
  | .submit k a =>
    match b k with
    | .absent => some (Function.update b k (.pending a))
    | _ => none
  | .approve k =>
    match b k with
    | .pending a | .approved a => some (Function.update b k (.approved a))
    | _ => none
  | .remove k =>
    match b k with
    | .pending _ | .approved _ => some (Function.update b k .removed)
    | _ => none

end Board

/-- The board as a machine. It starts empty. -/
def board (κ α : Type*) [DecidableEq κ] : Machine (Board κ α) (BoardAct κ α) where
  Initial b := ∀ k, b k = .absent
  step := Board.step

namespace Board

variable {κ α : Type*} [DecidableEq κ] {b b' : Board κ α} {k : κ}

/-- What an act does to the item of its key. -/
inductive Moves : BoardAct κ α → Phase α → Phase α → Prop
  | submit (k : κ) (a : α) : Moves (.submit k a) .absent (.pending a)
  | approve (k : κ) (a : α) : Moves (.approve k) (.pending a) (.approved a)
  | again (k : κ) (a : α) : Moves (.approve k) (.approved a) (.approved a)
  | reject (k : κ) (a : α) : Moves (.remove k) (.pending a) .removed
  | takeDown (k : κ) (a : α) : Moves (.remove k) (.approved a) .removed

omit [DecidableEq κ] in
theorem Moves.le {act : BoardAct κ α} {p q : Phase α} (h : Moves act p q) : p ≤ q := by
  cases h with
  | submit => exact .absent _
  | approve k a => exact .approve a
  | again => exact .refl _
  | reject | takeDown => exact .removed _

/-- **What an act does**: it moves the item of its key, and leaves the others. -/
theorem step_cases {act : BoardAct κ α} (h : b.step act = some b') :
    Moves act (b act.key) (b' act.key) ∧ ∀ k, k ≠ act.key → b' k = b k := by
  cases act with
  | submit k a =>
    simp only [step] at h
    split at h <;> cases h
    next hk =>
      refine ⟨?_, fun j hj => Function.update_of_ne hj _ _⟩
      simp only [BoardAct.key, hk, Function.update_self]
      exact .submit k a
  | approve k =>
    simp only [step] at h
    split at h <;> cases h
    all_goals
      next hk =>
        refine ⟨?_, fun j hj => Function.update_of_ne hj _ _⟩
        simp only [BoardAct.key, hk, Function.update_self]
        constructor
  | remove k =>
    simp only [step] at h
    split at h <;> cases h
    all_goals
      next hk =>
        refine ⟨?_, fun j hj => Function.update_of_ne hj _ _⟩
        simp only [BoardAct.key, hk, Function.update_self]
        constructor

/-- A board with one item moved is the board after the act. -/
theorem step_of_moves {act : BoardAct κ α} (h : Moves act (b act.key) (b' act.key))
    (hothers : ∀ k, k ≠ act.key → b' k = b k) : b.step act = some b' := by
  have hupdate : b' = Function.update b act.key (b' act.key) := by
    funext j
    rw [Function.update_apply]
    split_ifs with hj
    · rw [hj]
    · exact hothers j hj
  generalize b' act.key = q at h hupdate
  subst hupdate
  cases act <;> simp only [BoardAct.key] at h ⊢ <;> generalize hp : b _ = p at h <;>
    cases h <;> simp only [step, hp]

theorem le_of_step {act : BoardAct κ α} (h : b.step act = some b') : b ≤ b' := by
  obtain ⟨hmove, hothers⟩ := step_cases h
  intro k
  by_cases hk : k = act.key
  · rw [hk]
    exact hmove.le
  · rw [hothers k hk]

/-- **A board only goes up.** -/
theorem le_of_steps {C : Board κ α → BoardAct κ α → Prop} {acts : List (BoardAct κ α)}
    (h : (board κ α).Steps C b acts b') : b ≤ b' := by
  induction h with
  | nil => exact le_refl _
  | snoc _ _ hs ih => exact ih.trans (le_of_step hs)

/-- The acts that bring the item of key `k` into a phase. -/
def History (k : κ) : Phase α → List (BoardAct κ α) → Prop
  | .absent, acts => acts = []
  | .pending a, acts => acts = [.submit k a]
  | .approved a, acts => ∃ n, acts = .submit k a :: List.replicate (n + 1) (.approve k)
  | .removed, acts => ∃ a n, acts = .submit k a :: (List.replicate n (.approve k) ++ [.remove k])

omit [DecidableEq κ] in
theorem History.moves {p q : Phase α} {acts : List (BoardAct κ α)} {act : BoardAct κ α}
    (h : History act.key p acts) (hm : Moves act p q) : History act.key q (acts ++ [act]) := by
  cases hm with
  | submit k a => exact congrArg (· ++ [_]) h
  | approve k a => exact ⟨0, congrArg (· ++ [_]) h⟩
  | again k a =>
    obtain ⟨n, rfl⟩ := h
    refine ⟨n + 1, ?_⟩
    rw [List.replicate_succ' (n := n + 1)]
    rfl
  | reject k a => exact ⟨a, 0, congrArg (· ++ [_]) h⟩
  | takeDown k a =>
    obtain ⟨n, rfl⟩ := h
    exact ⟨a, n + 1, rfl⟩

/-- **The life of an item**: of the acts since the board was empty, those that concern key `k` are a
submission, approvals and a removal, as far as the item has come. -/
theorem history {C : Board κ α → BoardAct κ α → Prop} {acts : List (BoardAct κ α)}
    (h₀ : (board κ α).Initial b) (h : (board κ α).Steps C b acts b') (k : κ) :
    History k (b' k) (acts.filter fun act => act.key = k) := by
  induction h with
  | nil =>
    rw [h₀ k]
    rfl
  | @snoc t u acts act _ _ hs ih =>
    obtain ⟨hmove, hothers⟩ := step_cases hs
    rw [List.filter_append]
    by_cases hk : act.key = k
    · subst hk
      simpa using ih.moves hmove
    · simpa [hk, hothers k (Ne.symm hk)] using ih

end Board

end Foundations
