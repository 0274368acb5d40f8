import ArtsExplorer.Foundations.DocumentStore

/-!
# Schemas of schemaless documents

A schema lists fields with their types. A document conforms to it if it has all of these fields with
values of these types, so a reader that casts one of them succeeds (`Conforms.string` and its
siblings). Conformance is kept by every update that puts values of the right types in the fields of
the schema (`Conforms.update`), whatever other fields it changes; an array operation leaves an
array.
-/

namespace Foundations

inductive FieldType
  | string
  | bool
  | array
  | timestamp
  deriving DecidableEq

def Value.type : Value → FieldType
  | .string _ => .string
  | .bool _ => .bool
  | .array _ => .array
  | .timestamp _ => .timestamp

/-- The type of the value that an update leaves. -/
def FieldValue.type : FieldValue → FieldType
  | .value v => v.type
  | .arrayUnion _ => .array
  | .arrayRemove _ => .array

theorem FieldValue.type_apply (v : FieldValue) (old : Option Value) :
    (v.apply old).type = v.type := by
  cases v <;> rfl

/-- Fields with their types. -/
abbrev Schema := List (String × FieldType)

/-- The update puts values of the right types in the fields of `σ`. -/
def Fits (ups : List (String × FieldValue)) (σ : Schema) : Prop :=
  ∀ u ∈ ups, ∀ f ∈ σ, f.1 = u.1 → u.2.type = f.2

/-- The update of one field. -/
theorem Fits.singleton {k : String} {v : FieldValue} {τ : FieldType} {σ : Schema} (hv : v.type = τ)
    (hσ : ∀ f ∈ σ, f.1 = k → τ = f.2) : Fits [(k, v)] σ := by
  intro u hu f hf hk
  rw [List.mem_singleton.1 hu] at hk ⊢
  exact hv.trans (hσ f hf hk)

namespace Document

/-- The document has the fields of `σ`. -/
def Conforms (d : Document) (σ : Schema) : Prop := ∀ f ∈ σ, (d f.1).map Value.type = some f.2

namespace Conforms

variable {d : Document} {σ : Schema} {ups : List (String × FieldValue)} {k : String}

/-- **An update that fits** the schema keeps it. -/
theorem update (h : d.Conforms σ) (hups : Fits ups σ) : (d.update ups).Conforms σ := by
  induction ups generalizing d with
  | nil => exact h
  | cons u ups ih =>
    obtain ⟨k, v⟩ := u
    refine ih (fun f hf => ?_) fun w hw => hups w (List.mem_cons_of_mem _ hw)
    by_cases hk : f.1 = k
    · rw [hk, Function.update_self, Option.map_some, FieldValue.type_apply]
      exact congrArg some (hups (k, v) List.mem_cons_self f hf hk)
    · rw [Function.update_of_ne hk]
      exact h f hf

theorem string (h : d.Conforms σ) (hk : (k, .string) ∈ σ) : ∃ x, d k = some (.string x) := by
  obtain ⟨v, hv, ht⟩ := Option.map_eq_some_iff.1 (h _ hk)
  cases v with
  | string x => exact ⟨x, hv⟩
  | _ => cases ht

theorem bool (h : d.Conforms σ) (hk : (k, .bool) ∈ σ) : ∃ b, d k = some (.bool b) := by
  obtain ⟨v, hv, ht⟩ := Option.map_eq_some_iff.1 (h _ hk)
  cases v with
  | bool b => exact ⟨b, hv⟩
  | _ => cases ht

theorem array (h : d.Conforms σ) (hk : (k, .array) ∈ σ) : ∃ xs, d k = some (.array xs) := by
  obtain ⟨v, hv, ht⟩ := Option.map_eq_some_iff.1 (h _ hk)
  cases v with
  | array xs => exact ⟨xs, hv⟩
  | _ => cases ht

theorem timestamp (h : d.Conforms σ) (hk : (k, .timestamp) ∈ σ) :
    ∃ t, d k = some (.timestamp t) := by
  obtain ⟨v, hv, ht⟩ := Option.map_eq_some_iff.1 (h _ hk)
  cases v with
  | timestamp t => exact ⟨t, hv⟩
  | _ => cases ht

end Conforms

end Document

end Foundations
