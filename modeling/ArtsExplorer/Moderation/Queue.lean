import ArtsExplorer.Foundations.Machine
import ArtsExplorer.App.ModerationViewControllers

/-!
# One moderation screen and its closures

`QueueScreen` is a moderation screen on its own: its list, the deletes that have not completed, each
with the row its closure captured, and the queries that have not been answered. The user presses
buttons and pulls to refresh; completions and answers come in any order, with any outcome.

The completion of a delete removes whatever is at the captured row. So the screen is exact, that is
it loses the denied item and nothing else, as long as that row still holds the item
(`queue_exact_iff`).
-/

namespace ArtsExplorer

open Foundations

/-! ## The screen -/

structure QueueScreen (α : Type) where
  list : PendingList α := {}
  /-- The deletes that have not completed: the id and the captured row. -/
  denies : List (String × ℕ) := []
  /-- The number of queries that have not been answered. -/
  loads : ℕ := 0
  /-- The ids on which a button was pressed. -/
  decided : List String := []
  fault : Option Fault := none

inductive QueueEvent
  | approve (row : ℕ)
  | deny (row : ℕ)
  | refresh
  /-- The `i`-th of the deletes completes. -/
  | denied (i : ℕ) (error : Option String)
  /-- A query is answered. -/
  | loaded (r : Except String (List Document))

/-- The deletes among some effects. -/
def denials : List Effect → List (String × ℕ)
  | [] => []
  | .request (.delete _ id (.denied row)) :: es => (id, row) :: denials es
  | _ :: es => denials es

/-- The number of queries among some effects. -/
def queries : List Effect → ℕ
  | [] => 0
  | .request (.getDocuments _ _ .pending) :: es => queries es + 1
  | _ :: es => queries es

/-- The ids that some effects decide on. -/
def decisions : List Effect → List String
  | [] => []
  | .request (.delete _ id _) :: es | .request (.updateData _ id _) :: es => id :: decisions es
  | _ :: es => decisions es

namespace QueueScreen

variable {α : Type} (m : Queue α) (s : QueueScreen α)

/-- The screen after a handler. -/
def after : Except Fault (After (PendingList α)) → QueueScreen α
  | .error f => { s with fault := some f }
  | .ok (list, es) =>
    { s with list := list, denies := s.denies ++ denials es, loads := s.loads + queries es,
             decided := s.decided ++ decisions es }

/-- A query returns a document once. -/
def Distinct : Except String (List Document) → Prop
  | .error _ => True
  | .ok documents =>
    match decodeAll m.ofDocument documents with
    | .ok items => (items.map m.id).Nodup
    | .error _ => True

instance (r : Except String (List Document)) : Decidable (Distinct m r) := by
  unfold Distinct
  split
  · infer_instance
  · split <;> infer_instance

/-- The step of the screen. -/
def step : QueueEvent → Option (QueueScreen α)
  | .approve row =>
    if s.fault = none ∧ row < s.list.rowCount then
      some (s.after (m.callBackOnApproveButton s.list row))
    else none
  | .deny row =>
    if s.fault = none ∧ row < s.list.rowCount then
      some (s.after (m.callBackOnDenyButton s.list row))
    else none
  | .refresh => if s.fault = none then some (s.after (.ok (s.list, m.loadPending))) else none
  | .denied i error =>
    match s.denies[i]? with
    | some (_, row) =>
      if s.fault = none then
        some ({ s with denies := s.denies.eraseIdx i }.after (m.denyReply s.list row error))
      else none
    | none => none
  | .loaded r =>
    if s.fault = none ∧ 0 < s.loads ∧ Distinct m r then
      some ({ s with loads := s.loads - 1 }.after (m.loadPendingReply s.list r))
    else none

/-- The screen after `viewDidLoad`. -/
def viewDidLoad : QueueScreen α := ({} : QueueScreen α).after (.ok ({}, m.loadPending))

/-- The moderation screen as a machine. -/
def machine : Machine (QueueScreen α) QueueEvent where
  Initial s := s = viewDidLoad m
  step := step m

/-! ## The law -/

/-- What a step has to do to the list: a delete that completes removes the item with its id, nothing
undecided goes but by a reload, and no array or table access traps. -/
structure Exact (e : QueueEvent) (s' : QueueScreen α) : Prop where
  denied : ∀ i id row, e = .denied i none → s.denies[i]? = some (id, row) →
    s'.list.items = s.list.items.filter fun x => m.id x ≠ id
  kept : (∀ r, e ≠ .loaded r) → ∀ x ∈ s.list.items, x ∉ s'.list.items → m.id x ∈ s'.decided
  safe : ∀ t, s'.fault ≠ some (.trap t)

/-- The event leads to an exact step. -/
def StepsExactly (e : QueueEvent) : Prop := ∀ s', step m s e = some s' → Exact m s e s'

/-- If the event is the success of a delete, the captured row holds the denied item. -/
def RowHolds (e : QueueEvent) : Prop :=
  ∀ i id row, e = .denied i none → s.denies[i]? = some (id, row) →
    (s.list.items[row]?).map m.id = some id

/-! ## The invariant -/

structure Inv : Prop where
  aligned : s.list.Aligned
  distinct : (s.list.items.map m.id).Nodup
  decided : ∀ x ∈ s.denies, x.1 ∈ s.decided
  safe : ∀ t, s.fault ≠ some (.trap t)

variable {m s} {s' : QueueScreen α} {e : QueueEvent} {row : ℕ}

/-- The approve button of a row on the screen. -/
theorem callBackOnApproveButton_eq (h : s.Inv m) (hrow : row < s.list.rowCount) :
    ∃ item, s.list.items[row]? = some item ∧
      m.callBackOnApproveButton s.list row =
        .ok ({ items := s.list.items.eraseIdx row, rowCount := s.list.items.length - 1 },
          [.request
            (.updateData m.collection (m.id item) [("approved", .value (.bool true))])]) := by
  have hlt : row < s.list.items.length := h.aligned ▸ hrow
  refine ⟨_, List.getElem?_eq_getElem hlt, ?_⟩
  simp only [Queue.callBackOnApproveButton, RowList.get_of_lt hlt,
    RowList.removeAt_of_aligned h.aligned hlt]
  rfl

/-- The deny button of a row on the screen. -/
theorem callBackOnDenyButton_eq (h : s.Inv m) (hrow : row < s.list.rowCount) :
    ∃ item, s.list.items[row]? = some item ∧
      m.callBackOnDenyButton s.list row =
        .ok (s.list, [.request (.delete m.collection (m.id item) (.denied row))]) := by
  have hlt : row < s.list.items.length := h.aligned ▸ hrow
  refine ⟨_, List.getElem?_eq_getElem hlt, ?_⟩
  simp only [Queue.callBackOnDenyButton, RowList.get_of_lt hlt]
  rfl

/-- The completion of a delete that succeeded. -/
theorem denyReply_none (h : s.Inv m) :
    m.denyReply s.list row none =
      if row < s.list.items.length then
        .ok ({ items := s.list.items.eraseIdx row, rowCount := s.list.items.length - 1 }, [])
      else .error (.trap .indexOutOfRange) := by
  split_ifs with hlt
  · simp only [Queue.denyReply, RowList.removeAt_of_aligned h.aligned hlt]
    rfl
  · simp only [Queue.denyReply, RowList.removeAt_of_length_le (Nat.le_of_not_lt hlt)]
    rfl

/-- The answer to a query: the list is replaced, or a field is missing. -/
theorem loadPendingReply_cases {r : Except String (List Document)}
    (hm : ∀ d t, m.ofDocument d ≠ .error (.trap t)) (hr : Distinct m r) :
    (∃ f, m.loadPendingReply s.list r = .error f ∧ ∀ t, f ≠ .trap t) ∨
      (∃ es, m.loadPendingReply s.list r = .ok (s.list, es) ∧ denials es = [] ∧ decisions es = []) ∨
      ∃ list es, m.loadPendingReply s.list r = .ok (list, es) ∧ denials es = [] ∧
        decisions es = [] ∧ list.Aligned ∧ (list.items.map m.id).Nodup := by
  cases r with
  | error err => exact .inr (.inl ⟨_, rfl, rfl, rfl⟩)
  | ok documents =>
    cases hd : decodeAll m.ofDocument documents with
    | error f =>
      obtain ⟨d, -, hf⟩ := decodeAll_error hd
      refine .inl ⟨f, ?_, fun t ht => hm d t (ht ▸ hf)⟩
      simp only [Queue.loadPendingReply, hd]
      rfl
    | ok items =>
      have hdist : (items.map m.id).Nodup := by simpa [Distinct, hd] using hr
      obtain ⟨list, hlist, hitems, halign⟩ :=
        RowList.appendAll_of_aligned (RowList.aligned_removeAll (l := s.list)) items
      have heq : m.loadPendingReply s.list (.ok documents) =
          .ok (list,
            if list.items.isEmpty then [.createAlert "All done!" m.nonePending] else []) := by
        simp only [Queue.loadPendingReply, hd, bind_eq_ok, trapping_eq_ok, pure_eq_ok]
        exact ⟨items, rfl, list, hlist, rfl⟩
      refine .inr (.inr ⟨list, _, heq, by split_ifs <;> rfl, by split_ifs <;> rfl, halign, ?_⟩)
      rw [hitems]
      simpa using hdist

/-! ## Steps -/

/-- The one step of which the outcome is open: a delete that has succeeded. -/
theorem denied_exact_iff (h : s.Inv m) {i : ℕ} {id : String} (hi : s.denies[i]? = some (id, row))
    (hs : step m s (.denied i none) = some s') :
    Exact m s (.denied i none) s' ↔ (s.list.items[row]?).map m.id = some id := by
  simp only [step, hi, denyReply_none h] at hs
  split_ifs at hs with hf hlt
  · simp only [after, Option.some.injEq] at hs
    subst hs
    have hiff := RowList.eraseIdx_eq_filter_iff h.distinct hlt (a := id)
    constructor
    · intro hexact
      exact hiff.1 (hexact.denied i id row rfl hi)
    · intro hrow
      refine ⟨fun j id' row' he hj => ?_, fun _ x hx hgone => ?_, h.safe⟩
      · cases he
        cases hi.symm.trans hj
        exact hiff.2 hrow
      · -- only the denied item has gone, and a button was pressed for it
        simp only [hiff.2 hrow, List.mem_filter, hx, true_and, decide_eq_true_eq, not_not] at hgone
        rw [hgone]
        exact List.mem_append_left _ (h.decided _ (List.mem_of_getElem? hi))
  · simp only [after, Option.some.injEq] at hs
    subst hs
    constructor
    · intro hexact
      exact absurd rfl (hexact.safe _)
    · intro hrow
      rw [List.getElem?_eq_none (Nat.le_of_not_lt hlt)] at hrow
      cases hrow

/-- **A step is exact** if and only if a delete that has succeeded finds the denied item at the row
it captured. -/
theorem step_exact_iff (hm : ∀ d t, m.ofDocument d ≠ .error (.trap t)) (h : s.Inv m)
    (hs : step m s e = some s') : Exact m s e s' ↔ RowHolds m s e := by
  have hvacuous : (∀ i, e ≠ .denied i none) → Exact m s e s' → (Exact m s e s' ↔ RowHolds m s e) :=
    fun hne hexact => ⟨fun _ i _ _ he => absurd he (hne i), fun _ => hexact⟩
  cases e with
  | approve row =>
    refine hvacuous (by simp) ⟨by simp, fun _ x hx hgone => ?_, ?_⟩
    all_goals
      simp only [step] at hs
      split_ifs at hs with hcond
      obtain ⟨item, hitem, heq⟩ := callBackOnApproveButton_eq h hcond.2
      simp only [heq, after, Option.some.injEq] at hs
      subst hs
    · have hkey : m.id x = m.id item := by
        simpa [RowList.eraseIdx_eq_filter h.distinct hitem, hx] using hgone
      rw [hkey]
      exact List.mem_append_right _ List.mem_cons_self
    · exact h.safe
  | deny row =>
    simp only [step] at hs
    split_ifs at hs with hcond
    obtain ⟨item, -, heq⟩ := callBackOnDenyButton_eq h hcond.2
    simp only [heq, after, Option.some.injEq] at hs
    subst hs
    exact hvacuous (by simp) ⟨by simp, fun _ x hx hgone => absurd hx hgone, h.safe⟩
  | refresh =>
    simp only [step] at hs
    split_ifs at hs
    simp only [after, Option.some.injEq] at hs
    subst hs
    exact hvacuous (by simp) ⟨by simp, fun _ x hx hgone => absurd hx hgone, h.safe⟩
  | denied i error =>
    cases error with
    | none =>
      cases hi : s.denies[i]? with
      | none =>
        simp only [step, hi] at hs
        cases hs
      | some x =>
        obtain ⟨id, row⟩ := x
        rw [denied_exact_iff h hi hs]
        constructor
        · intro hrow j id' row' he hj
          cases he
          cases hi.symm.trans hj
          exact hrow
        · intro hrow
          exact hrow i id row rfl hi
    | some err =>
      simp only [step] at hs
      split at hs
      · split_ifs at hs
        simp only [Queue.denyReply, after, Option.some.injEq] at hs
        subst hs
        exact hvacuous (by simp) ⟨by simp, fun _ x hx hgone => absurd hx hgone, h.safe⟩
      · cases hs
  | loaded r =>
    refine hvacuous (by simp) ⟨by simp, fun hne => absurd rfl (hne r), ?_⟩
    simp only [step] at hs
    split_ifs at hs with hcond
    rcases loadPendingReply_cases (s := s) hm hcond.2.2 with ⟨f, heq, hf⟩ | ⟨es, heq, -⟩ |
      ⟨list, es, heq, -⟩
    all_goals
      simp only [heq, after, Option.some.injEq] at hs
      subst hs
    · exact fun t ht => hf t (Option.some.inj ht)
    · exact h.safe
    · exact h.safe

/-- An exact step keeps the invariant. -/
theorem step_inv (hm : ∀ d t, m.ofDocument d ≠ .error (.trap t)) (h : s.Inv m)
    (hs : step m s e = some s') (hexact : Exact m s e s') : s'.Inv m := by
  have hdec : ∀ {x : String × ℕ} {es : List Effect}, x ∈ s.denies ++ denials es →
      (∀ y ∈ denials es, y.1 ∈ decisions es) → x.1 ∈ s.decided ++ decisions es := by
    intro x es hx hes
    rcases List.mem_append.1 hx with hx | hx
    · exact List.mem_append_left _ (h.decided x hx)
    · exact List.mem_append_right _ (hes x hx)
  cases e with
  | approve row =>
    simp only [step] at hs
    split_ifs at hs with hcond
    obtain ⟨item, hitem, heq⟩ := callBackOnApproveButton_eq h hcond.2
    have hlt : row < s.list.items.length := h.aligned ▸ hcond.2
    simp only [heq, after, Option.some.injEq] at hs
    subst hs
    refine ⟨(List.length_eraseIdx_of_lt hlt).symm, ?_, fun x hx => hdec hx (by simp [denials]),
      h.safe⟩
    exact h.distinct.sublist ((List.eraseIdx_sublist _ _).map m.id)
  | deny row =>
    simp only [step] at hs
    split_ifs at hs with hcond
    obtain ⟨item, -, heq⟩ := callBackOnDenyButton_eq h hcond.2
    simp only [heq, after, Option.some.injEq] at hs
    subst hs
    exact ⟨h.aligned, h.distinct, fun x hx => hdec hx (by simp [denials, decisions]), h.safe⟩
  | refresh =>
    simp only [step] at hs
    split_ifs at hs
    simp only [after, Option.some.injEq] at hs
    subst hs
    exact ⟨h.aligned, h.distinct,
      fun x hx => hdec hx (by simp [Queue.loadPending, denials]), h.safe⟩
  | denied i error =>
    cases hi : s.denies[i]? with
    | none =>
      simp only [step, hi] at hs
      cases hs
    | some x =>
      obtain ⟨id, row⟩ := x
      have hrest : ∀ x ∈ s.denies.eraseIdx i, x.1 ∈ s.decided := fun x hx =>
        h.decided x (List.mem_of_mem_eraseIdx hx)
      cases error with
      | some err =>
        simp only [step, hi] at hs
        split_ifs at hs
        simp only [Queue.denyReply, after, Option.some.injEq, denials, decisions,
          List.append_nil] at hs
        subst hs
        exact ⟨h.aligned, h.distinct, hrest, h.safe⟩
      | none =>
        simp only [step, hi, denyReply_none h] at hs
        split_ifs at hs with hf hlt
        · simp only [after, Option.some.injEq, denials, decisions, List.append_nil] at hs
          subst hs
          exact ⟨(List.length_eraseIdx_of_lt hlt).symm,
            h.distinct.sublist ((List.eraseIdx_sublist _ _).map m.id), hrest, h.safe⟩
        · simp only [after, Option.some.injEq] at hs
          subst hs
          exact absurd rfl (hexact.safe _)
  | loaded r =>
    simp only [step] at hs
    split_ifs at hs with hcond
    rcases loadPendingReply_cases (s := s) hm hcond.2.2 with ⟨f, heq, hf⟩ | ⟨es, heq, hden, hde⟩ |
      ⟨list, es, heq, hden, hde, halign, hdist⟩
    all_goals
      simp only [heq, after, Option.some.injEq] at hs
      subst hs
    · exact ⟨h.aligned, h.distinct, h.decided, fun t ht => hf t (Option.some.inj ht)⟩
    · exact ⟨h.aligned, h.distinct, fun x hx => hdec hx (by simp [hden]), h.safe⟩
    · exact ⟨halign, hdist, fun x hx => hdec hx (by simp [hden]), h.safe⟩

/-! ## Runs -/

theorem initial_inv : (viewDidLoad m).Inv m := by
  refine ⟨rfl, List.nodup_nil, fun x hx => ?_, fun t ht => ?_⟩
  · simp [viewDidLoad, after, Queue.loadPending, denials] at hx
  · cases ht

theorem runs_exact_iff (hm : ∀ d t, m.ofDocument d ≠ .error (.trap t)) {es : List QueueEvent} :
    (machine m).Steps (StepsExactly m) (viewDidLoad m) es s ↔
      (machine m).Steps (RowHolds m) (viewDidLoad m) es s := by
  constructor
  · intro h
    refine h.congr (I := Inv m) initial_inv fun s e s' hi hs hexact => ?_
    exact ⟨(step_exact_iff hm hi hs).1 (hexact s' hs), step_inv hm hi hs (hexact s' hs)⟩
  · intro h
    refine h.congr (I := Inv m) initial_inv fun s e s' hi hs hrow => ⟨fun s'' hs'' => ?_, ?_⟩
    · exact (step_exact_iff hm hi hs'').2 hrow
    · exact step_inv hm hi hs ((step_exact_iff hm hi hs).2 hrow)

/-- The reader of either screen fails by a force cast only. -/
theorem ofDocument_ne_trap (h : ∀ d, Casts (m.ofDocument d)) (d : Document) (t : Trap) :
    m.ofDocument d ≠ .error (.trap t) := by
  intro hd
  obtain ⟨k, hk⟩ := h d _ hd
  cases hk

/-- **The two moderation screens are exact** in a run if and only if every delete that succeeds
finds the denied item still at the row that its closure captured. -/
theorem queue_exact_iff (es : List QueueEvent) (s : QueueScreen AEPost) (t : QueueScreen Comment) :
    ((machine moderationPost).Steps (StepsExactly moderationPost)
      (viewDidLoad moderationPost) es s ↔
      (machine moderationPost).Steps (RowHolds moderationPost) (viewDidLoad moderationPost) es s) ∧
    ((machine moderationComment).Steps (StepsExactly moderationComment)
        (viewDidLoad moderationComment) es t ↔
      (machine moderationComment).Steps (RowHolds moderationComment)
        (viewDidLoad moderationComment) es t) :=
  ⟨runs_exact_iff (ofDocument_ne_trap AEPost.casts_ofDocument),
    runs_exact_iff (ofDocument_ne_trap (Comment.casts_ofDocument false))⟩

/-! ## A stale row -/

def pendingDocument (id : String) : Document :=
  .ofFields (postDocument id "ann" "Ann" ["art"] "" id "" 7)

/-- Two posts are pending, and the first is denied twice before the first delete completes. -/
def deniedTwice : List QueueEvent :=
  [.loaded (.ok [pendingDocument "a", pendingDocument "b"]), .deny 0, .deny 0, .denied 0 none]

/-- The next completion takes `b`, and buttons were pressed for `a` only. -/
def losesSecond (s : QueueScreen AEPost) : Bool :=
  decide (s.list.items.map AEPost.id = ["b"]) &&
    (step moderationPost s (.denied 0 none)).any fun s' =>
      s'.list.items.isEmpty && decide (s'.decided = ["a", "a"])

/-- **A stale row**: the second completion removes the other post, on which nobody has decided. -/
theorem queue_stale_row :
    ∃ s s', (machine moderationPost).Reachable s ∧
      step moderationPost s (.denied 0 none) = some s' ∧
        ¬ Exact moderationPost s (.denied 0 none) s' := by
  obtain ⟨s, hs, hp⟩ :=
    (machine moderationPost).exists_of_run (viewDidLoad moderationPost) deniedTwice
    losesSecond (by decide +kernel)
  rw [losesSecond, Bool.and_eq_true, decide_eq_true_eq, Option.any_eq_true] at hp
  obtain ⟨hb, s', hs', hp'⟩ := hp
  rw [Bool.and_eq_true, decide_eq_true_eq, List.isEmpty_iff] at hp'
  refine ⟨s, s', hs.via (.init rfl), hs', fun hexact => ?_⟩
  obtain ⟨x, hitems, hx⟩ := List.map_eq_singleton_iff.1 hb
  have hdec := hexact.kept (by simp) x (by simp [hitems]) (by simp [hp'.1])
  have hid : moderationPost.id x = "b" := hx
  rw [hid, hp'.2] at hdec
  simp at hdec

end QueueScreen

end ArtsExplorer
