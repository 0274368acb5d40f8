import Mathlib.Data.List.Basic

/-!
# Regular expressions with lookahead

The fragment of backtracking regular expressions with character classes, concatenation, counted
repetition, lookahead and the two anchors. `Regex.rest` computes all ways to match a prefix of a
string: the list of the remainders. A whole-string match is one whose remainder is empty; since
every way is kept, it does not depend on the order in which a backtracking engine tries them.

`mem_rest_cls` to `mem_rest_stop` say what each constructor matches. A repeated class takes a word
of characters of the class (`mem_rest_rep_none`, `mem_rest_rep_some`), so a whole regular expression
of classes unfolds to a statement about a decomposition of the string.
-/

namespace Foundations

inductive Regex
  /-- A character class. -/
  | cls (p : Char → Bool)
  | seq (a b : Regex)
  /-- `a{lo,hi}`; without an upper bound `a{lo,}`. -/
  | rep (a : Regex) (lo : ℕ) (hi : Option ℕ)
  /-- `(?=a)`. -/
  | ahead (a : Regex)
  /-- `^`. -/
  | start
  /-- `$`. -/
  | stop

namespace Regex

/-- The remainders after exactly `n` matches. -/
def repExactly (f : List Char → List (List Char)) : ℕ → List Char → List (List Char)
  | 0, s => [s]
  | n + 1, s => (f s).flatMap (repExactly f n)

/-- The remainders after at most `n` matches. -/
def repUpTo (f : List Char → List (List Char)) : ℕ → List Char → List (List Char)
  | 0, s => [s]
  | n + 1, s => s :: (f s).flatMap (repUpTo f n)

/-- The remainders of `s`, a suffix of `input`, after a match of a prefix of it. An unbounded
repetition is cut at the length of `s`: a match that consumes nothing need not be repeated. -/
def rest (input : List Char) : Regex → List Char → List (List Char)
  | cls p, s =>
    match s with
    | [] => []
    | c :: s' => if p c then [s'] else []
  | seq a b, s => (a.rest input s).flatMap (b.rest input)
  | rep a lo hi, s =>
    (repExactly (a.rest input) lo s).flatMap fun s' =>
      repUpTo (a.rest input) (match hi with | some hi => hi - lo | none => s'.length) s'
  | ahead a, s => if (a.rest input s).isEmpty then [] else [s]
  | start, s => if s.length = input.length then [s] else []
  | stop, s => if s.isEmpty then [s] else []

/-- `SELF MATCHES`: the whole string matches. -/
def isMatch (r : Regex) (s : String) : Bool := (r.rest s.toList s.toList).contains []

/-- Concatenation of several. -/
def seqs : List Regex → Regex → Regex
  | [], r => r
  | a :: as, r => seq a (seqs as r)

/-! ## What each constructor matches -/

variable {input s s' : List Char} {p : Char → Bool} {a b : Regex} {lo : ℕ}

theorem mem_rest_cls : s' ∈ (cls p).rest input s ↔ ∃ c, p c = true ∧ s = c :: s' := by
  cases s with
  | nil => simp [rest]
  | cons c s =>
    simp only [rest, List.cons.injEq]
    split_ifs with hc
    · rw [List.mem_singleton]
      constructor
      · rintro rfl
        exact ⟨c, hc, rfl, rfl⟩
      · rintro ⟨_, -, -, rfl⟩
        rfl
    · refine iff_of_false List.not_mem_nil ?_
      rintro ⟨_, hc', rfl, -⟩
      exact hc hc'

theorem mem_rest_seq : s' ∈ (seq a b).rest input s ↔
    ∃ m ∈ a.rest input s, s' ∈ b.rest input m := List.mem_flatMap

theorem mem_rest_rep {hi : Option ℕ} : s' ∈ (rep a lo hi).rest input s ↔
    ∃ m ∈ repExactly (a.rest input) lo s, s' ∈ repUpTo (a.rest input)
      (match hi with | some hi => hi - lo | none => m.length) m := List.mem_flatMap

theorem mem_rest_ahead : s' ∈ (ahead a).rest input s ↔ s' = s ∧ ∃ m, m ∈ a.rest input s := by
  simp only [rest]
  split_ifs with h
  · rw [List.isEmpty_iff] at h
    simp [h]
  · rw [List.isEmpty_iff] at h
    rw [List.mem_singleton, and_iff_left (List.exists_mem_of_ne_nil _ h)]

theorem mem_rest_start : s' ∈ start.rest input s ↔ s' = s ∧ s.length = input.length := by
  simp only [rest]
  split_ifs with h <;> simp [h]

theorem mem_rest_stop : s' ∈ stop.rest input s ↔ s' = s ∧ s = [] := by
  simp only [rest, List.isEmpty_iff]
  split_ifs with h <;> simp [h]

/-- A class repeated `n` times takes `n` characters of the class. -/
theorem mem_repExactly_cls {n : ℕ} : s' ∈ repExactly ((cls p).rest input) n s ↔
    ∃ w, s = w ++ s' ∧ w.length = n ∧ ∀ c ∈ w, p c = true := by
  induction n generalizing s with
  | zero =>
    rw [repExactly, List.mem_singleton]
    constructor
    · rintro rfl
      exact ⟨[], rfl, rfl, by simp⟩
    · rintro ⟨w, rfl, hw, -⟩
      rw [List.eq_nil_of_length_eq_zero hw, List.nil_append]
  | succ n ih =>
    simp only [repExactly, List.mem_flatMap, mem_rest_cls, ih]
    constructor
    · rintro ⟨_, ⟨c, hc, rfl⟩, w, rfl, hw, hp⟩
      refine ⟨c :: w, rfl, by rw [List.length_cons, hw], ?_⟩
      rintro x (_ | ⟨_, hx⟩)
      · exact hc
      · exact hp x hx
    · rintro ⟨w, rfl, hw, hp⟩
      obtain ⟨c, w, rfl⟩ := List.exists_cons_of_length_eq_add_one hw
      exact ⟨w ++ s', ⟨c, hp c List.mem_cons_self, rfl⟩, w, rfl, Nat.succ.inj hw,
        fun x hx => hp x (List.mem_cons_of_mem _ hx)⟩

/-- Up to `n` matches are exactly `m`, for some `m`. -/
theorem mem_repUpTo {f : List Char → List (List Char)} {n : ℕ} :
    s' ∈ repUpTo f n s ↔ ∃ m ≤ n, s' ∈ repExactly f m s := by
  induction n generalizing s with
  | zero => simp [repUpTo, repExactly]
  | succ n ih =>
    simp only [repUpTo, List.mem_cons, List.mem_flatMap, ih]
    constructor
    · rintro (rfl | ⟨m, hm, k, hk, h⟩)
      · exact ⟨0, Nat.zero_le _, List.mem_singleton_self _⟩
      · exact ⟨k + 1, Nat.succ_le_succ hk, List.mem_flatMap.2 ⟨m, hm, h⟩⟩
    · rintro ⟨k, hk, h⟩
      cases k with
      | zero => exact .inl (List.mem_singleton.1 h)
      | succ k =>
        obtain ⟨m, hm, h⟩ := List.mem_flatMap.1 h
        exact .inr ⟨m, hm, k, Nat.le_of_succ_le_succ hk, h⟩

/-- At least `lo` characters of the class and, depending on what is left, some more. -/
theorem mem_rep_cls {k : ℕ → ℕ} :
    (∃ m ∈ repExactly ((cls p).rest input) lo s,
      s' ∈ repUpTo ((cls p).rest input) (k m.length) m) ↔
    ∃ w, s = w ++ s' ∧ lo ≤ w.length ∧ w.length - lo ≤ k (s.length - lo) ∧ ∀ c ∈ w, p c = true := by
  simp only [mem_repUpTo, mem_repExactly_cls]
  constructor
  · rintro ⟨_, ⟨v, rfl, rfl, hv⟩, n, hn, w, rfl, rfl, hw⟩
    refine ⟨v ++ w, by rw [List.append_assoc], ?_, ?_, ?_⟩
    · rw [List.length_append]; omega
    · simpa [Nat.add_sub_cancel_left] using hn
    · intro c hc
      exact (List.mem_append.1 hc).elim (hv c) (hw c)
  · rintro ⟨w, rfl, hlo, hk, hw⟩
    refine ⟨w.drop lo ++ s', ⟨w.take lo, ?_, ?_, ?_⟩, _, ?_, w.drop lo, rfl, rfl, ?_⟩
    · rw [← List.append_assoc, List.take_append_drop]
    · rw [List.length_take, Nat.min_eq_left hlo]
    · exact fun c hc => hw c (List.mem_of_mem_take hc)
    · simpa [Nat.sub_add_comm hlo] using hk
    · exact fun c hc => hw c (List.mem_of_mem_drop hc)

/-- `[p]{lo,}`. -/
theorem mem_rest_rep_none : s' ∈ (rep (cls p) lo none).rest input s ↔
    ∃ w, s = w ++ s' ∧ lo ≤ w.length ∧ ∀ c ∈ w, p c = true := by
  refine mem_rest_rep.trans ((mem_rep_cls (k := fun n => n)).trans ?_)
  refine exists_congr fun w => and_congr_right ?_
  rintro rfl
  refine and_congr_right fun _ => and_iff_right ?_
  rw [List.length_append]
  omega

/-- `[p]{lo,hi}`. -/
theorem mem_rest_rep_some {hi : ℕ} (hle : lo ≤ hi) :
    s' ∈ (rep (cls p) lo (some hi)).rest input s ↔
      ∃ w, s = w ++ s' ∧ lo ≤ w.length ∧ w.length ≤ hi ∧ ∀ c ∈ w, p c = true := by
  refine mem_rest_rep.trans ((mem_rep_cls (k := fun _ => hi - lo)).trans ?_)
  refine exists_congr fun w => and_congr_right fun _ => and_congr_right fun _ =>
    and_congr_left fun _ => ?_
  omega

theorem isMatch_iff {r : Regex} {t : String} :
    r.isMatch t = true ↔ [] ∈ r.rest t.toList t.toList := List.contains_iff_mem

end Regex

end Foundations
