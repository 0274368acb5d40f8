import ArtsExplorer.Foundations.ArrayField
import ArtsExplorer.Foundations.Machine
import ArtsExplorer.App.PostTableViewCell
import Mathlib.Algebra.Ring.Parity

/-!
# The save button of a cell

`saveCell uid user` is one cell of a table, with `uid` signed in and `user` the user document at the
start. The table configures the cell for any posts and takes it back to its pool; the reads that
`configure(with:)`, its closure and `prepareForReuse()` make and the writes of the button are
served, and the reads answered, in any order.

The button has two states, the icon and `isSelected`. The reads set the icon only, and a press goes
by `isSelected`, which nothing but a press changes: it says whether the number of presses of this
cell is odd, on whatever posts they were. So a press toggles the bookmark if and only if that agrees
with the stored list (`press_toggles`), and not on a post that was saved before (`press_saved`).
-/

namespace ArtsExplorer

open Foundations

/-- A cell of a table, with the calls it has made and the user document they are about. -/
structure SaveCell where
  cell : PostTableViewCell := {}
  user : Document
  /-- The number of outstanding reads of `configure(with:)`. -/
  avatarReads : ℕ := 0
  /-- The outstanding reads of `fillSaveButtons(currentUser:)`, with what they found once served. -/
  fills : List (Option (Option Document)) := []
  /-- The updates that are not served yet. -/
  writes : List (List (String × FieldValue)) := []
  fault : Option Fault := none

namespace SaveCell

inductive Event
  /-- `configure(with:)`: the cell is shown. -/
  | configure (model : AEPost)
  | didEndDisplaying
  | prepareForReuse
  /-- The author's document, or `none`, is the answer to a read of `configure(with:)`. -/
  | avatarReplied (document : Option Document)
  | fillServed (i : ℕ) (found : Bool)
  | fillReplied (i : ℕ)
  | pressedSaveButton
  | writeServed (i : ℕ)

variable (uid : String) (s : SaveCell)

/-- What the code reads. -/
def env (uid : String) : Env := { currentUser := some uid }

/-- A call of the cell is outstanding. -/
def send (s : SaveCell) : Effect → SaveCell
  | .request (.getDocument _ _ (.cellAvatar _)) => { s with avatarReads := s.avatarReads + 1 }
  | .request (.getDocument _ _ (.cellSavedPosts _)) => { s with fills := s.fills ++ [none] }
  | .request (.updateData _ _ ups) => { s with writes := s.writes ++ [ups] }
  | _ => s

/-- The result of a handler. -/
def after : Except Fault (After PostTableViewCell) → SaveCell
  | .error f => { s with fault := some f }
  | .ok (cell, es) => es.foldl send { s with cell := cell }

/-- What an event does while the process runs. -/
def react : Event → Option SaveCell
  | .configure model =>
    if s.cell.row = none then
      let (cell, es) := s.cell.configure 0 model
      some (s.after (.ok ({ cell with row := some 0 }, es)))
    else none
  | .didEndDisplaying => some { s with cell := { s.cell with row := none } }
  | .prepareForReuse =>
    if s.cell.row = none then
      some (s.after ((PostTableViewCell.prepareForReuse (env uid) 0).map fun es => (s.cell, es)))
    else none
  | .avatarReplied document =>
    if s.avatarReads = 0 then none
    else
      some ({ s with avatarReads := s.avatarReads - 1 }.after
        (s.cell.configureReply (env uid) 0 document))
  | .fillServed i found =>
    match s.fills[i]? with
    | some none =>
      some { s with fills := s.fills.set i (some (if found then some s.user else none)) }
    | _ => none
  | .fillReplied i =>
    match s.fills[i]? with
    | some (some document) =>
      some ({ s with fills := s.fills.eraseIdx i }.after
        ((s.cell.fillSaveButtonsReply document).map fun cell => (cell, [])))
    | _ => none
  | .pressedSaveButton =>
    if s.cell.row = none then none else some (s.after (s.cell.pressedSaveButton (env uid)))
  | .writeServed i =>
    (s.writes[i]?).map fun ups =>
      { s with user := s.user.update ups, writes := s.writes.eraseIdx i }

def step (e : Event) : Option SaveCell := if s.fault = none then s.react uid e else none

end SaveCell

/-- The machine of a cell that has just been created. -/
def saveCell (uid : String) (user : Document) : Machine SaveCell SaveCell.Event where
  Initial s := s = { user := user }
  step := SaveCell.step uid

namespace SaveCell

variable {uid : String} {s t : SaveCell} {e : Event}

/-! ## The flag of the button -/

def Event.isPress : Event → Bool
  | .pressedSaveButton => true
  | .configure _ | .didEndDisplaying | .prepareForReuse | .avatarReplied _ | .fillServed _ _
  | .fillReplied _ | .writeServed _ => false

/-- The calls do not change the cell. -/
theorem cell_foldl_send (es : List Effect) : (es.foldl send s).cell = s.cell := by
  induction es generalizing s with
  | nil => rfl
  | cons e es ih =>
    rw [List.foldl_cons, ih]
    unfold send
    split <;> rfl

theorem isSelected_after {r : Except Fault (After PostTableViewCell)}
    (h : ∀ cell es, r = .ok (cell, es) →
      cell.saveButton.isSelected = s.cell.saveButton.isSelected) :
    (s.after r).cell.saveButton.isSelected = s.cell.saveButton.isSelected := by
  cases r with
  | error f => rfl
  | ok x =>
    obtain ⟨cell, es⟩ := x
    rw [after, cell_foldl_send]
    exact h cell es rfl

/-- A reply of `fillSaveButtons(currentUser:)` sets the icon only. -/
theorem isSelected_fillSaveButtonsReply {cell cell' : PostTableViewCell}
    {document : Option Document} (h : cell.fillSaveButtonsReply document = .ok cell') :
    cell'.saveButton.isSelected = cell.saveButton.isSelected := by
  unfold PostTableViewCell.fillSaveButtonsReply at h
  split at h
  · simp only [bind_eq_ok, pure_eq_ok] at h
    obtain ⟨savedPosts, -, rfl⟩ := h
    rfl
  · cases h
    rfl

theorem isSelected_configureReply {env : Env} {k : ℕ} {cell cell' : PostTableViewCell}
    {document : Option Document} {es : List Effect}
    (h : cell.configureReply env k document = .ok (cell', es)) :
    cell'.saveButton.isSelected = cell.saveButton.isSelected := by
  unfold PostTableViewCell.configureReply at h
  split at h
  · simp only [bind_eq_ok, pure_eq_ok, Prod.mk.injEq] at h
    obtain ⟨avatarID, -, opID, -, rfl, -⟩ := h
    rfl
  · cases h
    rfl

/-- **Nothing but a press changes the flag.** -/
theorem isSelected_step (h : s.step uid e = some t) :
    t.cell.saveButton.isSelected = (s.cell.saveButton.isSelected ^^ e.isPress) := by
  unfold step at h
  split_ifs at h
  cases e with
  | configure model =>
    simp only [react] at h
    split_ifs at h
    cases h
    rw [after, cell_foldl_send, Event.isPress, Bool.xor_false]
    rfl
  | didEndDisplaying =>
    cases h
    rw [Event.isPress, Bool.xor_false]
  | prepareForReuse =>
    simp only [react] at h
    split_ifs at h
    cases h
    rw [Event.isPress, Bool.xor_false]
    refine isSelected_after fun cell es hr => ?_
    simp only [PostTableViewCell.prepareForReuse, Env.uid, env, bind, Except.bind, pure,
      Except.pure,
      Except.map, Except.ok.injEq, Prod.mk.injEq] at hr
    rw [← hr.1]
  | avatarReplied document =>
    simp only [react] at h
    split_ifs at h
    cases h
    rw [Event.isPress, Bool.xor_false]
    exact isSelected_after fun cell es hr => isSelected_configureReply hr
  | fillServed i found =>
    simp only [react] at h
    split at h <;> cases h
    rw [Event.isPress, Bool.xor_false]
  | fillReplied i =>
    simp only [react] at h
    split at h
    · next document hi =>
      cases h
      rw [Event.isPress, Bool.xor_false]
      refine isSelected_after fun cell es hr => ?_
      cases hf : s.cell.fillSaveButtonsReply document with
      | error f => rw [hf] at hr; cases hr
      | ok cell' =>
        rw [hf] at hr
        cases hr
        exact isSelected_fillSaveButtonsReply hf
    · cases h
  | pressedSaveButton =>
    simp only [react] at h
    split_ifs at h
    cases h
    rw [Event.isPress, Bool.xor_true]
    cases hsel : s.cell.saveButton.isSelected <;>
      simp [after, PostTableViewCell.pressedSaveButton, env, Env.uid, hsel, bind, Except.bind, pure,
        Except.pure, send]
  | writeServed i =>
    obtain ⟨ups, -, rfl⟩ := Option.map_eq_some_iff.1 h
    rw [Event.isPress, Bool.xor_false]

/-- **The flag counts the presses** of the cell, modulo 2. -/
theorem isSelected_run {user : Document} {es : List Event}
    (h : (saveCell uid user).Steps (fun _ _ => True) { user := user } es t) :
    t.cell.saveButton.isSelected = true ↔ Odd (es.countP Event.isPress) := by
  induction h with
  | nil => simp
  | @snoc t u es e h _ hs ih =>
    rw [isSelected_step hs, List.countP_append, List.countP_singleton]
    cases e.isPress with
    | false => simpa using ih
    | true =>
      rw [Bool.xor_true, if_pos rfl, Nat.odd_add_one, ← ih]
      simp

/-! ## A press -/

/-- Post `p` is in the stored list. -/
def Saved (s : SaveCell) (p : String) : Prop := p ∈ Value.elements (s.user "savedPosts")

/-- Nothing is outstanding. -/
structure Quiet (s : SaveCell) : Prop where
  fault : s.fault = none
  avatarReads : s.avatarReads = 0
  fills : s.fills = []
  writes : s.writes = []

/-- From `s` to `t`, post `p` has been added or removed and nothing else, and the icon says
which. -/
structure Toggled (s t : SaveCell) (p : String) : Prop where
  post : t.Saved p ↔ ¬ s.Saved p
  others : ∀ q, q ≠ p → (t.Saved q ↔ s.Saved q)
  icon : t.cell.saveButton.backgroundImage = "bookmark.fill" ↔ t.Saved p

/-- A press, once its write is served, toggles the bookmark of the post on the cell. -/
def PressToggles (uid : String) (s : SaveCell) : Prop :=
  ∃ s₁ s₂, s.step uid .pressedSaveButton = some s₁ ∧ s₁.step uid (.writeServed 0) = some s₂ ∧
    s.Toggled s₂ s.cell.postID

/-- The array operation that a press issues. -/
def bookmark (s : SaveCell) : FieldValue :=
  if s.cell.saveButton.isSelected then .arrayRemove [s.cell.postID] else .arrayUnion [s.cell.postID]

/-- The button after a press. -/
def pressedButton (s : SaveCell) : SaveButton :=
  if s.cell.saveButton.isSelected then { isSelected := false, backgroundImage := "bookmark" }
  else { isSelected := true, backgroundImage := "bookmark.fill" }

/-- The cell and the user document after a press and its write. -/
def pressed (s : SaveCell) : SaveCell :=
  { s with
    cell := { s.cell with saveButton := s.pressedButton }
    user := s.user.update [("savedPosts", s.bookmark)] }

theorem step_press (hf : s.fault = none) (hrow : s.cell.row ≠ none) :
    s.step uid .pressedSaveButton =
      some { s with
        cell := { s.cell with saveButton := s.pressedButton }
        writes := s.writes ++ [[("savedPosts", s.bookmark)]] } := by
  rw [step, if_pos hf, react, if_neg hrow]
  cases hsel : s.cell.saveButton.isSelected <;>
    simp [after, PostTableViewCell.pressedSaveButton, env, Env.uid, hsel, bind, Except.bind, pure,
      Except.pure, send, pressedButton, bookmark]

/-- A press in a quiet state, and its write. -/
theorem steps_press (uid : String) (hq : s.Quiet) (hrow : s.cell.row ≠ none) :
    ∃ s₁, s.step uid .pressedSaveButton = some s₁ ∧
      s₁.step uid (.writeServed 0) = some s.pressed := by
  refine ⟨_, step_press hq.fault hrow, ?_⟩
  obtain ⟨cell, user, avatarReads, fills, writes, fault⟩ := s
  obtain ⟨rfl, rfl, rfl, rfl⟩ := hq
  rfl

/-- What a press leaves of the stored list. -/
theorem saved_pressed (q : String) :
    s.pressed.Saved q ↔
      if s.cell.saveButton.isSelected then q ≠ s.cell.postID ∧ s.Saved q
      else q = s.cell.postID ∨ s.Saved q := by
  have huser : s.pressed.user "savedPosts" = some (s.bookmark.apply (s.user "savedPosts")) := by
    rw [show s.pressed.user = s.user.update [("savedPosts", s.bookmark)] from rfl,
      Document.update_singleton, Function.update_self]
  rw [Saved, huser, FieldValue.mem_apply_iff, bookmark]
  by_cases hq : q = s.cell.postID <;> cases s.cell.saveButton.isSelected <;>
    simp [FieldValue.onElement, hq, Saved]

/-- **A press toggles the bookmark** if and only if the flag agrees with the stored list. -/
theorem pressToggles_iff (hq : s.Quiet) (hrow : s.cell.row ≠ none) :
    s.PressToggles uid ↔ (s.cell.saveButton.isSelected = true ↔ s.Saved s.cell.postID) := by
  obtain ⟨s₁, hpress, hwrite⟩ := steps_press uid hq hrow
  have hicon : s.pressed.cell.saveButton = s.pressedButton := rfl
  constructor
  · rintro ⟨t₁, t₂, h₁, h₂, ht⟩
    cases hpress.symm.trans h₁
    cases hwrite.symm.trans h₂
    have hp := ht.post
    rw [saved_pressed] at hp
    cases hsel : s.cell.saveButton.isSelected <;> simpa [hsel] using hp
  · intro hflag
    refine ⟨s₁, s.pressed, hpress, hwrite, ?_, fun q hne => ?_, ?_⟩
    · rw [saved_pressed, ← hflag]
      cases s.cell.saveButton.isSelected <;> simp
    · rw [saved_pressed]
      cases s.cell.saveButton.isSelected <;> simp [hne]
    · rw [saved_pressed, hicon, pressedButton]
      cases s.cell.saveButton.isSelected <;> simp

/-- **A press toggles the bookmark** if and only if the number of presses of the cell so far is odd
exactly when the post on it is saved. -/
theorem press_toggles {user : Document} {es : List Event}
    (h : (saveCell uid user).Steps (fun _ _ => True) { user := user } es t) (hq : t.Quiet)
    (hrow : t.cell.row ≠ none) :
    t.PressToggles uid ↔ (Odd (es.countP Event.isPress) ↔ t.Saved t.cell.postID) := by
  rw [pressToggles_iff hq hrow, isSelected_run h]

/-- Post 1 is shown in a new cell. -/
def shownPost : List Event :=
  [.configure ⟨"1", "bob", "Bob", true, [], "", "Sketch", "", 0⟩,
   .avatarReplied (some (.ofFields (userDocument "bob" "Bob"))), .fillServed 0 true, .fillReplied 0]

/-- Ann's document, with some saved posts. -/
def annSaving (savedPosts : List String) : Document :=
  .ofFields [("id", .string "ann"), ("name", .string "Ann"), ("mod", .bool false),
    ("savedPosts", .array savedPosts), ("avatarID", .string ""), ("bio", .string "")]

/-- A cell with a filled icon and nothing outstanding. -/
def ShowsFilled (s : SaveCell) : Prop :=
  (s.fault = none ∧ s.avatarReads = 0 ∧ s.fills.isEmpty ∧ s.writes = []) ∧ s.cell.row ≠ none ∧
    s.cell.saveButton = { isSelected := false, backgroundImage := "bookmark.fill" } ∧
      s.Saved s.cell.postID

instance (s : SaveCell) : Decidable s.ShowsFilled := by
  unfold ShowsFilled Saved
  infer_instance

/-- **A press on a post that was saved before** does not remove it, filled though the icon is. -/
theorem press_saved : ∃ s, (saveCell "ann" (annSaving ["1"])).Steps (fun _ _ => True)
    { user := annSaving ["1"] } shownPost s ∧ s.Quiet ∧ s.cell.row ≠ none ∧
      s.cell.saveButton.backgroundImage = "bookmark.fill" ∧ ¬ s.PressToggles "ann" := by
  obtain ⟨s, hs, hp⟩ := (saveCell "ann" (annSaving ["1"])).exists_of_run { user := annSaving ["1"] }
    shownPost (fun s => decide s.ShowsFilled) (by decide +kernel)
  obtain ⟨⟨hf, ha, hfills, hw⟩, hrow, hbutton, hsaved⟩ : s.ShowsFilled := of_decide_eq_true hp
  have hq : s.Quiet := ⟨hf, ha, List.isEmpty_iff.1 hfills, hw⟩
  refine ⟨s, hs, hq, hrow, by rw [hbutton], fun ht => ?_⟩
  have hflag := ((pressToggles_iff hq hrow).1 ht).2 hsaved
  rw [hbutton] at hflag
  cases hflag

/-- A press on a post that is not saved. -/
theorem press_toggles_new : ∃ s : SaveCell, s.PressToggles "ann" := by
  obtain ⟨s, hs, hp⟩ :=
    (saveCell "ann" (annSaving [])).exists_of_run { user := annSaving [] } shownPost
    (fun s => decide ((s.fault = none ∧ s.avatarReads = 0 ∧ s.fills.isEmpty ∧ s.writes = []) ∧
      s.cell.row ≠ none ∧ s.cell.postID ∉ Value.elements (s.user "savedPosts"))) (by decide +kernel)
  obtain ⟨⟨hf, ha, hfills, hw⟩, hrow, hsaved⟩ := of_decide_eq_true hp
  refine ⟨s, (press_toggles hs ⟨hf, ha, List.isEmpty_iff.1 hfills, hw⟩ hrow).2 ?_⟩
  exact iff_of_false (by decide) hsaved

end SaveCell

end ArtsExplorer
