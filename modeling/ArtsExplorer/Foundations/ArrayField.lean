import ArtsExplorer.Foundations.DocumentStore
import Mathlib.Data.List.Induction

/-!
# An array field under atomic updates

Several writers add and remove elements of one array field. Each update is atomic and says
something about the elements it names only, so after any sequence of updates:

* an element is there if and only if the last update that says something about it added it
  (`mem_applyAll`); the updates of other elements do not matter;
* no element is there twice, if none was before and nobody has overwritten the field
  (`nodup_applyAll`).

`Document.update_array` says that this is what an update of a document does to such a field.
-/

namespace Foundations

namespace FieldValue

variable {x : String} {v : FieldValue} {old : Option Value}

/-- What an update of an array field says about element `x`: that it is there afterwards, that it is
not, or nothing. -/
def onElement (x : String) : FieldValue → Option Bool
  | .value v => some (x ∈ Value.elements (some v))
  | .arrayUnion ys => if x ∈ ys then some true else none
  | .arrayRemove ys => if x ∈ ys then some false else none

/-- An array operation, which does not overwrite the field. -/
def IsArrayOperation : FieldValue → Prop
  | .value _ => False
  | _ => True

theorem mem_apply_iff :
    x ∈ Value.elements (some (v.apply old)) ↔
      (v.onElement x).getD (x ∈ Value.elements old) = true := by
  cases v with
  | value v => simp [apply, onElement]
  | arrayUnion ys =>
    show x ∈ Foundations.arrayUnion (Value.elements old) ys ↔ _
    rw [mem_arrayUnion, onElement]
    split_ifs with hx <;> simp [hx]
  | arrayRemove ys =>
    show x ∈ (Value.elements old).filter (· ∉ ys) ↔ _
    rw [List.mem_filter, onElement]
    split_ifs with hx <;> simp [hx]

theorem nodup_arrayUnion {xs : List String} (h : xs.Nodup) (ys : List String) :
    (Foundations.arrayUnion xs ys).Nodup := by
  induction ys generalizing xs with
  | nil => exact h
  | cons y ys ih =>
    simp only [Foundations.arrayUnion, List.foldl_cons]
    split_ifs with hy
    · exact ih h
    · refine ih (List.nodup_append.2 ⟨h, List.nodup_singleton y, fun a ha b hb => ?_⟩)
      rw [List.mem_singleton.1 hb]
      exact fun hab => hy (hab ▸ ha)

theorem nodup_apply (hv : v.IsArrayOperation) (h : (Value.elements old).Nodup) :
    (Value.elements (some (v.apply old))).Nodup := by
  cases v with
  | value v => exact hv.elim
  | arrayUnion ys => exact nodup_arrayUnion h ys
  | arrayRemove ys => exact h.filter _

end FieldValue

/-! ## Sequences of updates -/

section Log

variable {x : String} {xs : List String} {v : FieldValue} {log log' : List FieldValue}

/-- The elements of an array field after some updates, in order. -/
def applyAll (xs : List String) (log : List FieldValue) : List String :=
  log.foldl (fun xs v => Value.elements (some (v.apply (some (.array xs))))) xs

@[simp] theorem applyAll_nil : applyAll xs [] = xs := rfl

theorem applyAll_append : applyAll xs (log ++ log') = applyAll (applyAll xs log) log' :=
  List.foldl_append

theorem applyAll_singleton : applyAll xs [v] = Value.elements (some (v.apply (some (.array xs)))) :=
  rfl

/-- What the last update that says something about `x` says. -/
def lastOn (x : String) (log : List FieldValue) : Option Bool :=
  (log.filterMap fun v => v.onElement x).getLast?

theorem lastOn_append : lastOn x (log ++ log') = (lastOn x log').or (lastOn x log) := by
  rw [lastOn, List.filterMap_append, List.getLast?_append]
  rfl

theorem lastOn_singleton : lastOn x [v] = v.onElement x := by
  unfold lastOn
  cases h : v.onElement x <;> simp [h]

/-- **The last word on an element**: it is there if and only if the last update that says something
about it added it, or no update does and it was there at first. -/
theorem mem_applyAll : x ∈ applyAll xs log ↔ (lastOn x log).getD (x ∈ xs) = true := by
  induction log using List.reverseRecOn with
  | nil => simp [lastOn]
  | append_singleton log v ih =>
    rw [applyAll_append, applyAll_singleton, FieldValue.mem_apply_iff, lastOn_append,
      lastOn_singleton]
    cases v.onElement x with
    | some b => rfl
    | none =>
      rw [Option.none_or, ← ih, Option.getD_none, decide_eq_true_eq]
      rfl

/-- **No element is there twice.** -/
theorem nodup_applyAll (h : xs.Nodup) (hlog : ∀ v ∈ log, v.IsArrayOperation) :
    (applyAll xs log).Nodup := by
  induction log using List.reverseRecOn with
  | nil => exact h
  | append_singleton log v ih =>
    rw [applyAll_append, applyAll_singleton]
    refine FieldValue.nodup_apply (hlog v (by simp)) ?_
    exact ih fun w hw => hlog w (List.mem_append_left _ hw)

/-- Where every update adds or removes one element, the last word on `x` is the last update of
`x`. -/
theorem lastOn_eq_true_iff (hlog : ∀ v ∈ log, ∃ y, v = .arrayUnion [y] ∨ v = .arrayRemove [y]) :
    lastOn x log = some true ↔
      (log.filter fun v => v = .arrayUnion [x] ∨ v = .arrayRemove [x]).getLast? =
        some (.arrayUnion [x]) := by
  induction log using List.reverseRecOn with
  | nil => simp [lastOn]
  | append_singleton log v ih =>
    have hrest := ih fun w hw => hlog w (List.mem_append_left _ hw)
    obtain ⟨y, rfl | rfl⟩ := hlog v (by simp) <;> rw [lastOn_append, lastOn_singleton] <;>
      by_cases hxy : x = y
    · simp [FieldValue.onElement, hxy]
    · simpa [FieldValue.onElement, hxy, Ne.symm hxy] using hrest
    · simp [FieldValue.onElement, hxy]
    · simpa [FieldValue.onElement, hxy, Ne.symm hxy] using hrest

end Log

/-! ## Updates of a document -/

/-- What an update of a document does to field `k`, in order. -/
def updatesOf (k : String) (ups : List (String × FieldValue)) : List FieldValue :=
  (ups.filter fun u => u.1 = k).map Prod.snd

namespace Document

variable {d : Document} {ups : List (String × FieldValue)} {k : String} {xs : List String}

/-- **An array field stays one** under array operations, and they are applied in order. -/
theorem update_array (hd : d k = some (.array xs))
    (hups : ∀ v ∈ updatesOf k ups, v.IsArrayOperation) :
    d.update ups k = some (.array (applyAll xs (updatesOf k ups))) := by
  induction ups generalizing d xs with
  | nil => exact hd
  | cons u ups ih =>
    obtain ⟨j, v⟩ := u
    rw [update]
    by_cases hj : j = k
    · have hcons : updatesOf k ((j, v) :: ups) = v :: updatesOf k ups := by
        simp [updatesOf, hj]
      rw [hcons] at hups ⊢
      have hv := hups v List.mem_cons_self
      refine @ih _ (Value.elements (some (v.apply (some (.array xs))))) ?_
        fun w hw => hups w (List.mem_cons_of_mem v hw)
      rw [hj, Function.update_self, hd]
      cases v with
      | value w => exact hv.elim
      | arrayUnion ys => rfl
      | arrayRemove ys => rfl
    · have hcons : updatesOf k ((j, v) :: ups) = updatesOf k ups := by
        simp [updatesOf, hj]
      rw [hcons] at hups ⊢
      refine ih ?_ hups
      rw [Function.update_of_ne (Ne.symm hj)]
      exact hd

end Document

end Foundations
