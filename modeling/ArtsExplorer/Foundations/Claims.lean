import Mathlib.Data.List.Count
import Mathlib.Data.List.Basic

/-!
# Names claimed by the items of a log

Items of a log may each claim some names, for instance the document that a pending write is going
to create. `claimed f l x` counts the claims on `x` in the log `l`. Uniqueness of a name is the
statement that this count is at most one; it is followed through the two ways a log changes, a new
item at the end (`claimed_append`) and an item replaced by another (`claimed_set`).
-/

namespace Foundations

variable {α β : Type*} [BEq β] (f : α → List β) (l l' : List α) (x : β)

/-- The number of claims on `x`. -/
def claimed : ℕ := (l.flatMap f).count x

@[simp] theorem claimed_nil : claimed f [] x = 0 := rfl

theorem claimed_append : claimed f (l ++ l') x = claimed f l x + claimed f l' x := by
  rw [claimed, List.flatMap_append, List.count_append]
  rfl

theorem claimed_cons (a : α) : claimed f (a :: l) x = (f a).count x + claimed f l x := by
  rw [claimed, List.flatMap_cons, List.count_append]
  rfl

variable {f l x}

/-- **Replacing an item** trades its claims for those of the new one. -/
theorem claimed_set {i : ℕ} {a : α} (h : l[i]? = some a) (b : α) :
    claimed f (l.set i b) x + (f a).count x = claimed f l x + (f b).count x := by
  induction l generalizing i with
  | nil => cases h
  | cons c l ih =>
    cases i with
    | zero =>
      cases h
      rw [List.set_cons_zero, claimed_cons, claimed_cons]
      omega
    | succ i =>
      have := ih h
      rw [List.set_cons_succ, claimed_cons, claimed_cons]
      omega

variable [LawfulBEq β]

theorem claimed_pos_iff : 0 < claimed f l x ↔ ∃ a ∈ l, x ∈ f a := by
  rw [claimed, List.count_pos_iff, List.mem_flatMap]

end Foundations
