import ArtsExplorer.Content.Draft
import Mathlib.Data.List.Induction

/-!
# The category buttons and their history

`CategoryPicker.after lower titles events` is a set of category buttons after taps on them and the
clears that uploads end with, for any `lower`. The chosen categories are the titles of the selected
buttons, each once, in the order of the taps that selected them last (`categories_consistent`). The
upload screen has such a picker, with `lowercased`, in every run (`UploadScreen.picker_eq_after`).
-/

namespace ArtsExplorer

open Foundations

namespace CategoryPicker

variable {β : Type} [DecidableEq β] (lower : String → String)

inductive Event (β : Type)
  | tapped (b : β)
  /-- `clearFieldsAndInfo()`. -/
  | cleared

/-- What an event does to the buttons and to the list. -/
def react (p : CategoryPicker β) : Event β → CategoryPicker β
  | .tapped b => p.changeButton lower b
  | .cleared => p.clear

/-- The buttons as the storyboard has them. -/
def unselected (titles : β → String) : CategoryPicker β :=
  { buttons := fun b => { currentTitle := titles b } }

/-- The picker after some events. -/
def after (titles : β → String) (events : List (Event β)) : CategoryPicker β :=
  events.foldl (react lower) (unselected titles)

/-! ## The history of a picker -/

/-- The event at index `i` selects button `b`: it is a tap on it, and it was not selected. -/
def Selects (lower : String → String) (titles : β → String) (events : List (Event β)) (i : ℕ)
    (b : β) : Prop :=
  events[i]? = some (.tapped b) ∧
    ((after lower titles (events.take i)).buttons b).isSelected = false

/-- The event at index `i` is the last that selects `b`. -/
def LastSelects (lower : String → String) (titles : β → String) (events : List (Event β)) (i : ℕ)
    (b : β) : Prop :=
  Selects lower titles events i b ∧ ∀ j, i < j → ¬ Selects lower titles events j b

variable {lower} {titles : β → String} {events : List (Event β)} {e : Event β} {i : ℕ} {b : β}
  {p : CategoryPicker β}

theorem after_append :
    after lower titles (events ++ [e]) = react lower (after lower titles events) e := by
  rw [after, List.foldl_append]
  rfl

theorem Selects.lt (h : Selects lower titles events i b) : i < events.length :=
  (List.getElem?_eq_some_iff.1 h.1).1

/-- One more event selects a button itself, and changes nothing of the events before it. -/
theorem selects_append : Selects lower titles (events ++ [e]) i b ↔
    Selects lower titles events i b ∨ i = events.length ∧ e = .tapped b ∧
      ((after lower titles events).buttons b).isSelected = false := by
  rcases lt_trichotomy i events.length with hi | hi | hi
  · rw [Selects, List.getElem?_append_left hi, List.take_append_of_le_length hi.le, ← Selects,
      or_iff_left fun h => absurd h.1 hi.ne]
  · have hno : ¬ Selects lower titles events i b := fun h => absurd hi h.lt.ne
    rw [or_iff_right hno, and_iff_right hi, Selects, hi, List.getElem?_concat_length,
      List.take_left, Option.some.injEq]
  · have hno : ¬ Selects lower titles events i b := fun h => absurd hi h.lt.not_gt
    have hno' : ¬ Selects lower titles (events ++ [e]) i b := by
      intro h
      have hlt := h.lt
      rw [List.length_append, List.length_singleton] at hlt
      omega
    exact iff_of_false hno' fun h => h.elim hno fun h => absurd h.1 hi.ne'

/-- An event that does not select `b` leaves its last selection. -/
theorem LastSelects.append (h : LastSelects lower titles events i b)
    (he : e = .tapped b → ((after lower titles events).buttons b).isSelected = true) :
    LastSelects lower titles (events ++ [e]) i b := by
  refine ⟨selects_append.2 (.inl h.1), fun j hj hselects => ?_⟩
  rcases selects_append.1 hselects with hold | ⟨-, htap, hoff⟩
  · exact h.2 j hj hold
  · exact Bool.false_ne_true (hoff.symm.trans (he htap))

/-- A tap that selects its button does so last. -/
theorem lastSelects_tapped (hoff : ((after lower titles events).buttons b).isSelected = false) :
    LastSelects lower titles (events ++ [.tapped b]) events.length b := by
  refine ⟨selects_append.2 (.inr ⟨rfl, rfl, hoff⟩), fun j hj hselects => ?_⟩
  have hlt := hselects.lt
  rw [List.length_append, List.length_singleton] at hlt
  omega

/-! ## The invariant -/

/-- What the list of the chosen categories has to do with the taps: `selections` are the selected
buttons with the indices of the taps that selected them last. -/
structure Recalls (lower : String → String) (titles : β → String) (events : List (Event β))
    (p : CategoryPicker β) (selections : List (ℕ × β)) : Prop where
  chosen : p.chosenCategories = selections.map fun x => lower (titles x.2)
  increasing : selections.Pairwise fun x y => x.1 < y.1
  last : ∀ x ∈ selections, LastSelects lower titles events x.1 x.2

omit [DecidableEq β] in
theorem consistent_unselected : (unselected titles).Consistent lower titles :=
  ⟨fun _ => rfl, fun x => by simp [unselected]⟩

/-- The chosen categories are those of the selected buttons. -/
theorem consistent_after
    (hinj : ∀ b b', lower (titles b) = lower (titles b') → b = b')
    (events : List (Event β)) : (after lower titles events).Consistent lower titles := by
  induction events using List.reverseRecOn with
  | nil => exact consistent_unselected
  | append_singleton events e ih =>
    rw [after_append]
    cases e with
    | tapped b => exact ih.changeButton hinj b
    | cleared => exact ih.clear

omit [DecidableEq β] in
theorem Consistent.mem_title (h : p.Consistent lower titles)
    (hinj : ∀ b b', lower (titles b) = lower (titles b') → b = b') :
    lower (titles b) ∈ p.chosenCategories ↔ (p.buttons b).isSelected = true := by
  rw [h.mem_iff]
  constructor
  · rintro ⟨b', hb', htitle⟩
    rwa [← hinj _ _ htitle]
  · exact fun hb => ⟨b, hb, rfl⟩

/-- A tap on a selected button takes its selection out. -/
theorem Recalls.deselect {selections : List (ℕ × β)}
    (hinj : ∀ b b', lower (titles b) = lower (titles b') → b = b')
    (h : Recalls lower titles events (after lower titles events) selections)
    (hon : ((after lower titles events).buttons b).isSelected = true)
    (htitle : ((after lower titles events).buttons b).currentTitle = titles b) :
    Recalls lower titles (events ++ [.tapped b]) ((after lower titles events).changeButton lower b)
      (selections.filter fun x => x.2 ≠ b) := by
  refine ⟨?_, h.increasing.filter _, fun x hx => ?_⟩
  · simp only [changeButton, if_pos hon, htitle, h.chosen]
    rw [removeEach, removeLoop_eq_filter _ (le_refl _), List.filter_map]
    refine congrArg _ (List.filter_congr fun x _ => ?_)
    rw [Function.comp_apply, decide_eq_decide]
    exact not_congr ⟨hinj _ _, fun hb => by rw [hb]⟩
  · obtain ⟨hx, hne⟩ := List.mem_filter.1 hx
    refine (h.last x hx).append fun htap => ?_
    cases htap
    exact hon

/-- A tap on another button puts its selection at the end. -/
theorem Recalls.select {selections : List (ℕ × β)}
    (h : Recalls lower titles events (after lower titles events) selections)
    (hoff : ((after lower titles events).buttons b).isSelected = false)
    (hsel : ∀ x ∈ selections, ((after lower titles events).buttons x.2).isSelected = true)
    (htitle : ((after lower titles events).buttons b).currentTitle = titles b) :
    Recalls lower titles (events ++ [.tapped b]) ((after lower titles events).changeButton lower b)
      (selections ++ [(events.length, b)]) := by
  refine ⟨?_, ?_, fun x hx => ?_⟩
  · simp only [changeButton, hoff, Bool.false_eq_true, if_false, htitle, h.chosen, List.map_append,
      List.map_cons, List.map_nil]
  · refine List.pairwise_append.2 ⟨h.increasing, List.pairwise_singleton _ _, fun x hx y hy => ?_⟩
    rw [List.mem_singleton.1 hy]
    exact (h.last x hx).1.lt
  · rcases List.mem_append.1 hx with hold | hx
    · refine (h.last x hold).append fun htap => ?_
      cases htap
      exact hsel x hold
    · rw [List.mem_singleton.1 hx]
      exact lastSelects_tapped hoff

theorem exists_recalls (hinj : ∀ b b', lower (titles b) = lower (titles b') → b = b')
    (events : List (Event β)) :
    ∃ selections, Recalls lower titles events (after lower titles events) selections := by
  induction events using List.reverseRecOn with
  | nil => exact ⟨[], rfl, .nil, by simp⟩
  | append_singleton events e ih =>
    obtain ⟨selections, h⟩ := ih
    have hcons := consistent_after hinj events
    rw [after_append]
    cases e with
    | cleared => exact ⟨[], rfl, .nil, by simp⟩
    | tapped b =>
      by_cases hon : ((after lower titles events).buttons b).isSelected = true
      · exact ⟨_, h.deselect hinj hon (hcons.title b)⟩
      · refine ⟨_, h.select (eq_false_of_ne_true hon) (fun x hx => ?_) (hcons.title b)⟩
        rw [← hcons.mem_title hinj, h.chosen]
        exact List.mem_map_of_mem hx

/-- The selections of different taps are of different buttons. -/
theorem Recalls.nodup {selections : List (ℕ × β)} (h : Recalls lower titles events p selections)
    (hinj : ∀ b b', lower (titles b) = lower (titles b') → b = b') :
    p.chosenCategories.Nodup := by
  rw [h.chosen, List.Nodup, List.pairwise_map]
  refine h.increasing.imp_of_mem fun {x y} hx hy hlt htitle => ?_
  have hlast := h.last y hy
  rw [← hinj _ _ htitle] at hlast
  exact (h.last x hx).2 y.1 hlt hlast.1

/-- **The selection is consistent**: the chosen categories are without duplicates, they are those
of the selected buttons, and they stand in the order of the taps that selected the buttons last. -/
theorem categories_consistent (lower : String → String) (titles : β → String)
    (hinj : ∀ b b', lower (titles b) = lower (titles b') → b = b')
    (events : List (Event β)) :
    (after lower titles events).chosenCategories.Nodup ∧
      (∀ b, lower ((after lower titles events).buttons b).currentTitle ∈
          (after lower titles events).chosenCategories ↔
        ((after lower titles events).buttons b).isSelected = true) ∧
      ∃ selections : List (ℕ × β),
        (after lower titles events).chosenCategories =
          selections.map (fun x => lower (titles x.2)) ∧
        selections.Pairwise (fun x y => x.1 < y.1) ∧
        ∀ x ∈ selections, LastSelects lower titles events x.1 x.2 := by
  obtain ⟨selections, h⟩ := exists_recalls hinj events
  have hcons := consistent_after hinj events
  refine ⟨h.nodup hinj, fun b => ?_, selections, h.chosen, h.increasing, h.last⟩
  rw [hcons.title b]
  exact hcons.mem_title hinj

/-- The four buttons of the upload screen, two of them tapped again, with a clear in between. -/
def fourButtons : List (Event CategoryButton) :=
  [.tapped .filmButton, .cleared, .tapped .artButton, .tapped .dramaButton, .tapped .artButton,
    .tapped .artButton]

theorem categories_consistent_four :
    (after lowercased CategoryButton.title fourButtons).chosenCategories.Nodup ∧
      (∀ b,
        lowercased ((after lowercased CategoryButton.title fourButtons).buttons b).currentTitle ∈
          (after lowercased CategoryButton.title fourButtons).chosenCategories ↔
        ((after lowercased CategoryButton.title fourButtons).buttons b).isSelected = true) ∧
      ∃ selections : List (ℕ × CategoryButton),
        (after lowercased CategoryButton.title fourButtons).chosenCategories =
          selections.map (fun x => lowercased x.2.title) ∧
        selections.Pairwise (fun x y => x.1 < y.1) ∧
        ∀ x ∈ selections, LastSelects lowercased CategoryButton.title fourButtons x.1 x.2 :=
  categories_consistent lowercased CategoryButton.title (fun _ _ => CategoryButton.eq_of_title)
    fourButtons

end CategoryPicker

namespace UploadScreen

variable {s : UploadScreen} {es : List UploadEvent}

/-- What an event of the upload screen is to its buttons. -/
def pickerEvents : UploadEvent → List (CategoryPicker.Event CategoryButton)
  | .categoryPressed b => [.tapped b]
  | .completed none => [.cleared]
  | _ => []

theorem step_picker {e : UploadEvent} {t : UploadScreen} (h : s.step e = some t) :
    t.screen.picker = (pickerEvents e).foldl (CategoryPicker.react lowercased) s.screen.picker := by
  unfold step at h
  split_ifs at h
  cases e with
  | uploadPressed env =>
    cases h
    cases hr : s.screen.uploadPressed env with
    | error f => rfl
    | ok a => exact congrArg (·.picker) (uploadPressed_spec hr).1
  | replied i document date =>
    obtain ⟨draft, postUUID, opID, mediaID, titleText, descriptionText, -, rfl⟩ := replied_cases h
    cases hr : s.screen.userReply { date := date } postUUID opID mediaID titleText descriptionText
        document with
    | error f => rfl
    | ok a => exact congrArg (·.picker) (userReply_spec hr).1
  | completed error =>
    simp only [stepRunning] at h
    split_ifs at h
    cases h
    cases error <;> rfl
  | imagePut error =>
    cases h
    cases error <;> rfl
  | _ =>
    cases h
    rfl

theorem picker_of_steps {C : UploadScreen → UploadEvent → Prop} {s₀ : UploadScreen}
    (h : machine.Steps C s₀ es s) :
    s.screen.picker =
      (es.flatMap pickerEvents).foldl (CategoryPicker.react lowercased) s₀.screen.picker := by
  induction h with
  | nil => rfl
  | snoc h hC he ih =>
    rw [step_picker he, ih, List.flatMap_append, List.foldl_append, List.flatMap_singleton]

/-- **The buttons of the upload screen** go through the taps on them and the clears of the uploads
that succeed, and nothing else. -/
theorem picker_eq_after {C : UploadScreen → UploadEvent → Prop} (h : machine.Steps C {} es s) :
    s.screen.picker =
      CategoryPicker.after lowercased CategoryButton.title (es.flatMap pickerEvents) :=
  picker_of_steps h

end UploadScreen

end ArtsExplorer
