import ArtsExplorer.Foundations.DocumentStore
import Mathlib.Data.String.Basic

/-!
# The answers of queries

What a query returns is the top of what it selects (`Query.Top`): different documents in its order,
at most as many as its limit, and where a selected document is left out, the limit is used up by
documents that come before it.
-/

namespace Foundations

/-- The elements of an ordered list that a limit cuts off come after those it leaves. -/
theorem length_take_of_notMem {α : Type*} {R : α → α → Prop} {l : List α} (h : l.Pairwise R) {k : ℕ}
    {x : α} (hx : x ∈ l) (hn : x ∉ l.take k) :
    (l.take k).length = k ∧ ∀ y ∈ l.take k, R y x := by
  have hdrop : x ∈ l.drop k := by
    rw [← List.take_append_drop k l, List.mem_append] at hx
    exact hx.resolve_left hn
  refine ⟨?_, fun y hy => ?_⟩
  · rw [List.length_take, Nat.min_eq_left]
    have hpos := List.length_pos_of_mem hdrop
    rw [List.length_drop] at hpos
    omega
  · rw [← List.take_append_drop k l, List.pairwise_append] at h
    exact h.2.2 y hy x hdrop

/-- What corresponds to an ordered list, item by item, is ordered. -/
theorem pairwise_of_forall₂ {α β : Type*} {R : α → α → Prop} {T : β → β → Prop} {P : α → β → Prop}
    {l : List α} {m : List β} (h : l.Pairwise R) (hlm : List.Forall₂ P l m)
    (hT : ∀ {a b x y}, P a x → P b y → R a b → T x y) : m.Pairwise T := by
  have hlen := hlm.length_eq
  rw [List.pairwise_iff_getElem] at h ⊢
  intro i j hi hj hij
  exact hT (hlm.get (hlen ▸ hi) hi) (hlm.get (hlen ▸ hj) hj) (h i j (hlen ▸ hi) (hlen ▸ hj) hij)

namespace Query

variable (q : Query)

instance : IsTrans ((_ : String) × Document) q.Le where
  trans a b c hab hbc := by
    rcases hab with hab | ⟨hab, hid⟩ <;> rcases hbc with hbc | ⟨hbc, hid'⟩
    · exact .inl (hab.trans hbc)
    · exact .inl (hbc ▸ hab)
    · exact .inl (hab ▸ hbc)
    · exact .inr ⟨hab.trans hbc, le_trans hid hid'⟩

instance : Std.Total (α := (_ : String) × Document) q.Le where
  total a b := by
    rcases lt_trichotomy (a.2.time q.orderBy) (b.2.time q.orderBy) with h | h | h
    · exact .inl (.inl h)
    · exact (le_total a.1 b.1).imp (fun hid => .inr ⟨h, hid⟩) fun hid => .inr ⟨h.symm, hid⟩
    · exact .inr (.inl h)

/-- The order of the query's results. -/
def Before (a b : (_ : String) × Document) : Prop := if q.descending then q.Le b a else q.Le a b

/-- In the order of the results the timestamps go one way. -/
theorem Before.time {q : Query} {a b : (_ : String) × Document} (h : q.Before a b) :
    if q.descending then b.2.time q.orderBy ≤ a.2.time q.orderBy
      else a.2.time q.orderBy ≤ b.2.time q.orderBy := by
  unfold Before at h
  split_ifs at h ⊢
  · exact h.elim le_of_lt fun h => h.1.le
  · exact h.elim le_of_lt fun h => h.1.le

/-- `es` is the top of what the query selects from `c`. -/
structure Top (c : Collection) (es : List ((_ : String) × Document)) : Prop where
  selected : ∀ e ∈ es, e ∈ c.selected q
  nodup : (es.map (·.1)).Nodup
  length_le : es.length ≤ q.limit
  before : es.Pairwise q.Before
  full : ∀ e ∈ c.selected q, e ∉ es → es.length = q.limit ∧ ∀ e' ∈ es, q.Before e' e

/-- A list ranked as by the query: at most as many items as its limit, different ones, by their
times in its order. -/
structure Ranked {α : Type*} (id : α → String) (time : α → ℕ) (items : List α) : Prop where
  length_le : items.length ≤ q.limit
  nodup : (items.map id).Nodup
  sorted : items.Pairwise fun x y => if q.descending then time y ≤ time x else time x ≤ time y

variable {q} {α : Type*} {id : α → String} {time : α → ℕ} {items : List α}

/-- What is removed from a ranked list leaves it ranked. -/
theorem Ranked.sublist {items' : List α} (h : q.Ranked id time items) (hs : items'.Sublist items) :
    q.Ranked id time items' where
  length_le := hs.length_le.trans h.length_le
  nodup := h.nodup.sublist (hs.map id)
  sorted := h.sorted.sublist hs

/-- **What is read from the top of a query is ranked** as by the query. -/
theorem Top.ranked {c : Collection} {es : List ((_ : String) × Document)} (h : q.Top c es)
    (hread : List.Forall₂ (fun e x => id x = e.1 ∧ time x = e.2.time q.orderBy) es items) :
    q.Ranked id time items where
  length_le := hread.length_eq ▸ h.length_le
  nodup := by
    have hids : items.map id = es.map (·.1) := by
      clear h
      induction hread with
      | nil => rfl
      | cons hx _ ih => rw [List.map_cons, List.map_cons, hx.1, ih]
    rw [hids]
    exact h.nodup
  sorted := by
    refine pairwise_of_forall₂ (h.before.imp Before.time) hread fun ha hb hab => ?_
    rw [ha.2, hb.2]
    exact hab

end Query

namespace Collection

variable (c : Collection) (q : Query)

/-- Different documents of a collection have different ids. -/
theorem nodup_selected : ((c.selected q).map (·.1)).Nodup :=
  List.Nodup.sublist (List.filter_sublist.map _) c.nodupKeys

/-- **A query returns the top of what it selects.** -/
theorem exists_top : ∃ es, c.getDocuments q = es.map (·.2) ∧ q.Top c es := by
  have hperm := List.perm_insertionSort q.Le (c.selected q)
  have hsorted := List.pairwise_insertionSort q.Le (c.selected q)
  obtain ⟨l, hl, hp, hbefore⟩ : ∃ l, (if q.descending then
        ((c.selected q).insertionSort q.Le).reverse else (c.selected q).insertionSort q.Le) = l ∧
      l.Perm (c.selected q) ∧ l.Pairwise q.Before := by
    refine ⟨_, rfl, ?_, ?_⟩
    · split_ifs
      · exact (List.reverse_perm _).trans hperm
      · exact hperm
    · unfold Query.Before
      split_ifs
      · exact List.pairwise_reverse.2 hsorted
      · exact hsorted
  refine ⟨l.take q.limit, by rw [← hl]; rfl, fun e he => ?_, ?_, List.length_take_le _ _, ?_,
    fun e he hn => ?_⟩
  · exact hp.mem_iff.1 (List.mem_of_mem_take he)
  · have hnodup : (l.map (·.1)).Nodup := (hp.map _).nodup_iff.2 (c.nodup_selected q)
    exact hnodup.sublist ((List.take_sublist _ _).map _)
  · exact hbefore.sublist (List.take_sublist _ _)
  · exact length_take_of_notMem hbefore (hp.mem_iff.2 he) hn

end Collection

end Foundations
