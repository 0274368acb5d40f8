import Mathlib.Data.List.Basic

/-!
# An array shown by a table view

A table view keeps its own count of the rows it shows and checks it against the data source at
every batch update: inserting one row requires that the data source has one element more than the
view has rows, deleting one that it has one fewer. `RowList` is an array together with that
count; its operations are the pairs of calls with which a controller changes both, and they trap
where the array access or the view's check does.

On an aligned list (`RowList.Aligned`) appending never traps, and removing at an index traps
exactly when the index is out of range.
-/

namespace Foundations

/-- A run-time trap of an array access or of a table view's batch update. -/
inductive Trap
  | indexOutOfRange
  | inconsistentUpdate
  deriving DecidableEq

/-- An array and the number of rows its table view has recorded. -/
structure RowList (α : Type*) where
  items : List α := []
  rowCount : ℕ := 0
  deriving DecidableEq

namespace RowList

variable {α : Type*} (l : RowList α)

/-- The view's row count is the data source's. -/
def Aligned : Prop := l.rowCount = l.items.length

/-- `removeAll()` and `reloadData()`. -/
def removeAll (_ : RowList α) : RowList α := { items := [], rowCount := 0 }

/-- `append(x)` and `insertRows(at:)` at the last index. -/
def append (x : α) : Except Trap (RowList α) :=
  if l.rowCount + 1 = (l.items ++ [x]).length then
    .ok { items := l.items ++ [x], rowCount := l.rowCount + 1 }
  else .error .inconsistentUpdate

/-- `append` for each element in turn. -/
def appendAll (l : RowList α) : List α → Except Trap (RowList α)
  | [] => .ok l
  | x :: xs =>
    match l.append x with
    | .ok l' => appendAll l' xs
    | .error t => .error t

/-- The array subscript. -/
def get (i : ℕ) : Except Trap α :=
  match l.items[i]? with
  | some x => .ok x
  | none => .error .indexOutOfRange

/-- `remove(at: i)`, `deleteRows(at:)` at `i` and `reloadData()`. -/
def removeAt (i : ℕ) : Except Trap (RowList α) :=
  if i < l.items.length then
    if i < l.rowCount ∧ l.rowCount = (l.items.eraseIdx i).length + 1 then
      .ok { items := l.items.eraseIdx i, rowCount := (l.items.eraseIdx i).length }
    else .error .inconsistentUpdate
  else .error .indexOutOfRange

variable {l} {l' : RowList α} {i : ℕ} {x : α} {xs : List α}

theorem aligned_removeAll : l.removeAll.Aligned := rfl

@[simp] theorem items_removeAll : l.removeAll.items = [] := rfl

theorem append_of_aligned (h : l.Aligned) (x : α) :
    l.append x = .ok { items := l.items ++ [x], rowCount := l.rowCount + 1 } := by
  have hc : l.rowCount + 1 = (l.items ++ [x]).length := by rw [h, List.length_append]; rfl
  exact if_pos hc

theorem items_append (h : l.append x = .ok l') : l'.items = l.items ++ [x] := by
  unfold append at h
  split_ifs at h
  cases h
  rfl

theorem aligned_append (h : l.append x = .ok l') : l'.Aligned := by
  unfold append at h
  split_ifs at h with hc
  cases h
  exact hc

theorem items_appendAll (h : l.appendAll xs = .ok l') : l'.items = l.items ++ xs := by
  induction xs generalizing l with
  | nil => cases h; simp
  | cons x xs ih =>
    simp only [appendAll] at h
    split at h
    · next m hm => rw [ih h, items_append hm, List.append_assoc]; rfl
    · cases h

/-- **Appending to an aligned list never traps.** -/
theorem appendAll_of_aligned (h : l.Aligned) (xs : List α) :
    ∃ l', l.appendAll xs = .ok l' ∧ l'.items = l.items ++ xs ∧ l'.Aligned := by
  induction xs generalizing l with
  | nil => exact ⟨l, rfl, by simp, h⟩
  | cons x xs ih =>
    have hx := append_of_aligned h x
    obtain ⟨l', h', hi, ha⟩ := ih (aligned_append hx)
    refine ⟨l', ?_, ?_, ha⟩
    · simp only [appendAll, hx, h']
    · rw [hi, List.append_assoc]; rfl

theorem get_of_lt (h : i < l.items.length) : l.get i = .ok l.items[i] := by
  simp only [get, List.getElem?_eq_getElem h]

theorem get_eq_ok : l.get i = .ok x ↔ l.items[i]? = some x := by
  unfold get
  split
  · next y hy => simp [hy]
  · next hn => simp [hn]

theorem mem_of_get (h : l.get i = .ok x) : x ∈ l.items :=
  List.mem_of_getElem? (get_eq_ok.1 h)

/-- **Removing from an aligned list** succeeds at every index in range. -/
theorem removeAt_of_aligned (h : l.Aligned) (hi : i < l.items.length) :
    l.removeAt i = .ok { items := l.items.eraseIdx i, rowCount := l.items.length - 1 } := by
  have hlen : (l.items.eraseIdx i).length = l.items.length - 1 := List.length_eraseIdx_of_lt hi
  have hrow : i < l.rowCount ∧ l.rowCount = (l.items.eraseIdx i).length + 1 := by
    rw [h, hlen]; omega
  rw [removeAt, if_pos hi, if_pos hrow, hlen]

theorem removeAt_of_length_le (hi : l.items.length ≤ i) :
    l.removeAt i = .error .indexOutOfRange := if_neg (by omega)

theorem items_removeAt (h : l.removeAt i = .ok l') : l'.items = l.items.eraseIdx i := by
  unfold removeAt at h
  split_ifs at h
  cases h
  rfl

/-! ## Rows with keys -/

section Keys

variable {κ : Type*} [DecidableEq κ] {key : α → κ} {ys : List α}

/-- Where the keys are distinct, the element at an index goes, and no other. -/
theorem eraseIdx_eq_filter (hn : (ys.map key).Nodup) (hx : ys[i]? = some x) :
    ys.eraseIdx i = ys.filter fun y => key y ≠ key x := by
  induction ys generalizing i with
  | nil => cases hx
  | cons y ys ih =>
    rw [List.map_cons, List.nodup_cons] at hn
    cases i with
    | zero =>
      cases hx
      have hkeep : ∀ z ∈ ys, decide (key z ≠ key x) = true := by
        intro z hz
        have hne : key z ≠ key x := fun he => hn.1 (he ▸ List.mem_map_of_mem hz)
        exact decide_eq_true hne
      rw [List.eraseIdx_cons_zero, List.filter_cons_of_neg (by simp), List.filter_eq_self.2 hkeep]
    | succ i =>
      have hx' : ys[i]? = some x := hx
      have hne : key y ≠ key x := fun he =>
        hn.1 (he ▸ List.mem_map_of_mem (List.mem_of_getElem? hx'))
      rw [List.eraseIdx_cons_succ, ih hn.2 hx', List.filter_cons_of_pos (by simpa using hne)]

/-- **The row that goes** is that of key `a` exactly when that key is at the index. -/
theorem eraseIdx_eq_filter_iff (hn : (ys.map key).Nodup) (hi : i < ys.length) {a : κ} :
    ys.eraseIdx i = ys.filter (fun y => key y ≠ a) ↔ (ys[i]?).map key = some a := by
  have hx : ys[i]? = some ys[i] := List.getElem?_eq_getElem hi
  constructor
  · intro h
    by_contra hne
    -- the element at the index is not filtered out, but it is erased
    have hkey : key ys[i] ≠ a := by simpa [hx] using hne
    have hmem : ys[i] ∈ ys.eraseIdx i := by
      rw [h, List.mem_filter]
      exact ⟨List.getElem_mem hi, decide_eq_true hkey⟩
    rw [eraseIdx_eq_filter hn hx, List.mem_filter] at hmem
    exact of_decide_eq_true hmem.2 rfl
  · intro h
    rw [hx, Option.map_some, Option.some.injEq] at h
    rw [eraseIdx_eq_filter hn hx, h]

end Keys

end RowList

end Foundations
