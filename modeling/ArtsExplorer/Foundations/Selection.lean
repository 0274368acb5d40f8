import Mathlib.Data.List.Basic

/-!
# The selected entries of a list

`List.filterMap p` selects entries of a list and forgets where they were. `place p l i` is the
position that entry `i` has among the selected ones, and the lemmas say what writing into entry `i`
does to the selection: it writes at that place, or removes what is there.
-/

namespace Foundations

variable {α β : Type*} {p : α → Option β} {l : List α} {i : ℕ} {a a' : α} {b b' : β}

/-- The number of selected entries before entry `i`. -/
def place (p : α → Option β) (l : List α) (i : ℕ) : ℕ := ((l.take i).filterMap p).length

/-- A list around entry `i`. -/
theorem eq_take_append (h : l[i]? = some a) : l = l.take i ++ a :: l.drop (i + 1) := by
  obtain ⟨hi, rfl⟩ := List.getElem?_eq_some_iff.1 h
  rw [← List.drop_eq_getElem_cons hi, List.take_append_drop]

theorem filterMap_eq_append (h : l[i]? = some a) :
    l.filterMap p =
      (l.take i).filterMap p ++ ([a].filterMap p ++ (l.drop (i + 1)).filterMap p) := by
  conv_lhs => rw [eq_take_append h]
  rw [List.filterMap_append, ← List.singleton_append, List.filterMap_append]

theorem filterMap_set (h : l[i]? = some a) :
    (l.set i a').filterMap p =
      (l.take i).filterMap p ++ ([a'].filterMap p ++ (l.drop (i + 1)).filterMap p) := by
  obtain ⟨hi, -⟩ := List.getElem?_eq_some_iff.1 h
  rw [List.set_eq_take_append_cons_drop, if_pos hi, List.filterMap_append, ← List.singleton_append,
    List.filterMap_append]

/-- A selected entry is found at its place. -/
theorem getElem?_place (h : l[i]? = some a) (hp : p a = some b) :
    (l.filterMap p)[place p l i]? = some b := by
  rw [filterMap_eq_append h, place, List.getElem?_append_right (Nat.le_refl _), Nat.sub_self]
  simp [hp]

/-- A selected entry is replaced by another one. -/
theorem filterMap_set_some (h : l[i]? = some a) (hp : p a = some b) (hp' : p a' = some b') :
    (l.set i a').filterMap p = (l.filterMap p).set (place p l i) b' := by
  rw [filterMap_set h, filterMap_eq_append h, place, List.set_append_right _ _ (Nat.le_refl _),
    Nat.sub_self]
  simp [hp, hp']

/-- A selected entry is not selected any more. -/
theorem filterMap_set_none (h : l[i]? = some a) (hp : p a = some b) (hp' : p a' = none) :
    (l.set i a').filterMap p = (l.filterMap p).eraseIdx (place p l i) := by
  rw [filterMap_set h, filterMap_eq_append h, place,
    List.eraseIdx_append_of_length_le (Nat.le_refl _), Nat.sub_self]
  simp [hp, hp']

/-- An entry is selected as it was. -/
theorem filterMap_set_same (h : l[i]? = some a) (hp : p a' = p a) :
    (l.set i a').filterMap p = l.filterMap p := by
  rw [filterMap_set h, filterMap_eq_append h, List.filterMap_cons, List.filterMap_cons, hp]

end Foundations
