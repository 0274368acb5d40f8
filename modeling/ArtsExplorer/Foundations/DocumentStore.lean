import Mathlib.Data.List.AList
import Mathlib.Data.List.Sort

/-!
# A document store

Schemaless documents in named collections, as a document database keeps them. A document is a
finite map from field names to dynamically typed values; a collection is a finite map from ids to
documents. Three writes are offered: `setData` replaces or creates a document, `updateData`
changes some fields of a document that exists and has no effect otherwise, `delete` removes
whatever is there. `getDocuments` evaluates a query: the documents that satisfy every filter and
have the ordering field, sorted by it (ties by id), cut at a limit.

A `FieldValue` is what an update puts in a field: a value, or one of the two atomic array
operations (`arrayUnion` adds the missing elements, `arrayRemove` removes all occurrences).
-/

namespace Foundations

/-- A dynamically typed field value. -/
inductive Value
  | string (s : String)
  | bool (b : Bool)
  | array (xs : List String)
  | timestamp (t : ℕ)
  deriving DecidableEq

/-- A document: field names to values. -/
abbrev Document := String → Option Value

/-- What an update puts in a field. -/
inductive FieldValue
  | value (v : Value)
  | arrayUnion (xs : List String)
  | arrayRemove (xs : List String)
  deriving DecidableEq

/-- A collection: ids to documents. -/
abbrev Collection := AList fun _ : String => Document

/-! ## Fields -/

namespace Value

/-- The elements of an array value; an array operation on anything else starts from nothing. -/
def elements : Option Value → List String
  | some (.array xs) => xs
  | _ => []

end Value

/-- The array with the missing elements of `ys` added at its end. -/
def arrayUnion (xs ys : List String) : List String :=
  ys.foldl (fun acc y => if y ∈ acc then acc else acc ++ [y]) xs

theorem mem_arrayUnion {xs ys : List String} {z : String} :
    z ∈ arrayUnion xs ys ↔ z ∈ xs ∨ z ∈ ys := by
  induction ys generalizing xs with
  | nil => simp [arrayUnion]
  | cons y ys ih =>
    have h := @ih (if y ∈ xs then xs else xs ++ [y])
    simp only [arrayUnion, List.foldl_cons] at h ⊢
    rw [h]
    split_ifs with hy
    · simp only [List.mem_cons]
      constructor
      · rintro (hz | hz)
        · exact .inl hz
        · exact .inr (.inr hz)
      · rintro (hz | rfl | hz)
        · exact .inl hz
        · exact .inl hy
        · exact .inr hz
    · simp only [List.mem_append, List.mem_cons, List.not_mem_nil, or_false, or_assoc]

/-- The value a field holds after an update of it. -/
def FieldValue.apply : FieldValue → Option Value → Value
  | .value v, _ => v
  | .arrayUnion ys, old => .array (Foundations.arrayUnion (Value.elements old) ys)
  | .arrayRemove ys, old => .array ((Value.elements old).filter (· ∉ ys))

namespace Document

/-- The document with the given fields. -/
def ofFields (fields : List (String × Value)) : Document := fun k => fields.lookup k

/-- The document after an update of some of its fields, in order. -/
def update (d : Document) : List (String × FieldValue) → Document
  | [] => d
  | (k, v) :: rest => update (Function.update d k (some (v.apply (d k)))) rest

@[simp] theorem update_nil (d : Document) : d.update [] = d := rfl

@[simp] theorem update_singleton (d : Document) (k : String) (v : FieldValue) :
    d.update [(k, v)] = Function.update d k (some (v.apply (d k))) := rfl

/-- An update leaves the fields it does not name as they are. -/
theorem update_of_notMem {d : Document} {ups : List (String × FieldValue)} {k : String}
    (h : k ∉ ups.map Prod.fst) : d.update ups k = d k := by
  induction ups generalizing d with
  | nil => rfl
  | cons u ups ih =>
    simp only [List.map_cons, List.mem_cons, not_or] at h
    rw [update, ih h.2, Function.update_of_ne h.1]

end Document

/-! ## Writes -/

namespace Collection

variable (c : Collection) (i j : String)

/-- Create or replace document `i`. -/
def setData (d : Document) : Collection := c.insert i d

/-- Update fields of document `i`; nothing happens when there is no such document. -/
def updateData (ups : List (String × FieldValue)) : Collection :=
  match c.lookup i with
  | some d => c.insert i (d.update ups)
  | none => c

/-- Remove document `i`. -/
def delete : Collection := c.erase i

@[simp] theorem lookup_setData (d : Document) :
    (c.setData i d).lookup j = if j = i then some d else c.lookup j := by
  split_ifs with h
  · subst h; exact AList.lookup_insert c
  · exact AList.lookup_insert_ne h

@[simp] theorem lookup_updateData (ups : List (String × FieldValue)) :
    (c.updateData i ups).lookup j =
      if j = i then (c.lookup i).map (·.update ups) else c.lookup j := by
  unfold updateData
  split_ifs with h
  · subst h
    split
    · next hd => rw [AList.lookup_insert, hd]; rfl
    · next hd => rw [hd]; rfl
  · split
    · exact AList.lookup_insert_ne h
    · rfl

@[simp] theorem lookup_delete :
    (c.delete i).lookup j = if j = i then none else c.lookup j := by
  split_ifs with h
  · subst h; exact AList.lookup_erase j c
  · exact AList.lookup_erase_ne h

end Collection

/-! ## Queries -/

/-- A condition on one field. -/
inductive Filter
  | isEqualTo (field : String) (v : Value)
  | arrayContains (field : String) (x : String)
  deriving DecidableEq

/-- Whether a document satisfies a filter. -/
def Filter.Matches : Filter → Document → Prop
  | .isEqualTo k v, d => d k = some v
  | .arrayContains k x, d => x ∈ Value.elements (d k)

instance (f : Filter) (d : Document) : Decidable (f.Matches d) :=
  match f with
  | .isEqualTo k v => inferInstanceAs (Decidable (d k = some v))
  | .arrayContains k x => inferInstanceAs (Decidable (x ∈ Value.elements (d k)))

/-- A query over one collection, ordered by a timestamp field. -/
structure Query where
  filters : List Filter
  orderBy : String
  descending : Bool
  limit : ℕ
  deriving DecidableEq

/-- The timestamp of the ordering field. -/
def Document.time (d : Document) (k : String) : ℕ :=
  match d k with
  | some (.timestamp t) => t
  | _ => 0

/-- The ascending order of a query's results: by timestamp, ties by id. -/
def Query.Le (q : Query) (a b : (_ : String) × Document) : Prop :=
  a.2.time q.orderBy < b.2.time q.orderBy ∨
    (a.2.time q.orderBy = b.2.time q.orderBy ∧ a.1 ≤ b.1)

instance (q : Query) : DecidableRel q.Le := fun _ _ => inferInstanceAs (Decidable (_ ∨ _ ∧ _))

namespace Collection

variable {c : Collection} {q : Query} {d : Document}

/-- The documents a query selects, with their ids, before the limit. -/
def selected (c : Collection) (q : Query) : List ((_ : String) × Document) :=
  c.entries.filter fun e => (∀ f ∈ q.filters, f.Matches e.2) ∧ e.2 q.orderBy ≠ none

/-- The result of a query. -/
def getDocuments (c : Collection) (q : Query) : List Document :=
  let sorted := (c.selected q).insertionSort q.Le
  ((if q.descending then sorted.reverse else sorted).take q.limit).map (·.2)

theorem mem_selected {e : (_ : String) × Document} :
    e ∈ c.selected q ↔
      c.lookup e.1 = some e.2 ∧ (∀ f ∈ q.filters, f.Matches e.2) ∧ e.2 q.orderBy ≠ none := by
  obtain ⟨i, d⟩ := e
  simp [selected, AList.mem_lookup_iff.symm, Option.mem_def]

/-- **What a query returns is stored and satisfies its filters.** -/
theorem of_mem_getDocuments (h : d ∈ c.getDocuments q) :
    ∃ i, c.lookup i = some d ∧ ∀ f ∈ q.filters, f.Matches d := by
  simp only [getDocuments, List.mem_map] at h
  obtain ⟨⟨i, d'⟩, he, rfl⟩ := h
  have hs : (⟨i, d'⟩ : (_ : String) × Document) ∈ c.selected q := by
    have := List.mem_of_mem_take he
    split_ifs at this
    · simpa using this
    · simpa using this
  exact ⟨i, (mem_selected.1 hs).1, (mem_selected.1 hs).2.1⟩

end Collection

end Foundations
