import ArtsExplorer.Profile.Edit

/-!
# Entering edit mode

`editTapped(_:)` unwraps the picture of the profile, in edit mode and outside it. The storyboard
gives the image view no picture: the first one is the placeholder that the answer to `loadInfo()`
puts there, if it has found the user document. So every tap finds a picture if and only if that
answer came before the first tap (`edit_finds_picture`); before it, or without a document, the tap
ends the process (`edit_too_early`).
-/

namespace ArtsExplorer

open Foundations

namespace ProfileEdit

variable {s t : ProfileEdit} {e : Event} {es : List Event}

/-- The unwrapped picture is there. -/
def FindsPicture (s : ProfileEdit) (e : Event) : Prop :=
  ∀ env, e = .editTapped env → s.screen.editTapped env ≠ .error .nilImage

/-- Some event is the answer to `loadInfo()` with the user document. -/
def Loaded (es : List Event) : Prop := ∃ document, .infoReplied (some document) ∈ es

/-- Where the picture comes from, in a process that runs. -/
structure Pictured (es : List Event) (s : ProfileEdit) : Prop where
  loaded : s.screen.selfProfilePicture.image ≠ none ↔ Loaded es
  awaited : s.screen.selfProfilePicture.loading ≠ none → s.screen.selfProfilePicture.image ≠ none
  original : s.screen.editingMode = true → s.screen.originalAvatar ≠ none

/-- Either branch of `editTapped(_:)` unwraps the picture, and nothing else. -/
theorem editTapped_nilImage {screen : UserProfileViewController} {env : Env} :
    screen.editTapped env = .error .nilImage ↔ screen.selfProfilePicture.image = none := by
  unfold UserProfileViewController.editTapped UserProfileViewController.commit
    UserProfileViewController.startEditing
  cases screen.selfProfilePicture.image with
  | none => simp
  | some image =>
    simp only [reduceCtorEq, iff_false]
    split_ifs <;> exact fun h => by cases h

theorem loaded_append : Loaded (es ++ [e]) ↔ Loaded es ∨ ∃ d, e = .infoReplied (some d) := by
  simp only [Loaded, List.mem_append, List.mem_singleton, exists_or, eq_comm]

/-- An event other than the answer with the document. -/
theorem loaded_append_of_ne (he : ∀ d, e ≠ .infoReplied (some d)) :
    Loaded (es ++ [e]) ↔ Loaded es := by
  rw [loaded_append]
  exact or_iff_left fun ⟨d, h⟩ => he d h

/-- An event that changes neither the picture nor edit mode. -/
theorem Pictured.keep (h : Pictured es s) (he : ∀ d, e ≠ .infoReplied (some d))
    (hpic : t.screen.selfProfilePicture = s.screen.selfProfilePicture)
    (hed : t.screen.editingMode = true → t.screen.originalAvatar ≠ none) :
    Pictured (es ++ [e]) t := by
  refine ⟨?_, ?_, hed⟩
  · rw [hpic, loaded_append_of_ne he]
    exact h.loaded
  · rw [hpic]
    exact h.awaited

/-- An event that sets a picture where there was one. -/
theorem Pictured.replace (h : Pictured es s) (he : ∀ d, e ≠ .infoReplied (some d))
    (hs : s.screen.selfProfilePicture.image ≠ none)
    (ht : t.screen.selfProfilePicture.image ≠ none)
    (hed : t.screen.editingMode = true → t.screen.originalAvatar ≠ none) :
    Pictured (es ++ [e]) t := by
  refine ⟨?_, fun _ => ht, hed⟩
  rw [loaded_append_of_ne he]
  exact iff_of_true ht (h.loaded.1 hs)

/-- The answer to `loadInfo()`, where it goes through: with a document it shows a placeholder. -/
theorem pictured_infoReplied {document : Option Document} (h : Pictured es s) (hI : s.Inv)
    (hs : s.react (.infoReplied document) = some t) (ht : t.fault = none) :
    Pictured (es ++ [.infoReplied document]) t := by
  simp only [react] at hs
  split_ifs at hs with hp
  have hed := (hI.pending hp).1
  split at hs
  · cases hs
    cases ht
  · next screen fx hr =>
    cases hs
    have hed' : screen.editingMode = true → screen.originalAvatar ≠ none := by
      rw [(loadInfoReply_ok hr).1, hed]
      exact fun hx => by cases hx
    cases document with
    | none =>
      cases hr
      exact h.keep (fun d hx => by cases hx) rfl hed'
    | some d =>
      simp only [UserProfileViewController.loadInfoReply, bind_eq_ok, pure_eq_ok,
        Prod.mk.injEq] at hr
      obtain ⟨opName, -, opBio, -, opAvatarID, -, rfl, -⟩ := hr
      have himage : (if opAvatarID ≠ "" then s.screen.selfProfilePicture.sd_setImage
          ("avatars/" ++ opAvatarID) (some placeholderProfile)
          else s.screen.selfProfilePicture.setImage (some placeholderProfile)).image ≠ none := by
        split_ifs <;> exact Option.some_ne_none _
      exact ⟨iff_of_true himage (loaded_append.2 (.inr ⟨d, rfl⟩)), fun _ => himage, hed'⟩

theorem pictured_editTapped {env : Env} (h : Pictured es s)
    (hs : s.react (.editTapped env) = some t) (ht : t.fault = none) :
    Pictured (es ++ [.editTapped env]) t := by
  simp only [react, UserProfileViewController.editTapped] at hs
  split at hs
  · cases hs
    cases ht
  · next screen fx hr =>
    split_ifs at hr hs with hed
    · cases hs
      obtain rfl := commit_ok hr
      exact h.keep (fun d hx => by cases hx) rfl fun hx => by cases hx
    · unfold UserProfileViewController.startEditing at hr
      split at hr <;> cases hr
      cases hs
      exact h.keep (fun d hx => by cases hx) rfl fun _ => Option.some_ne_none _

theorem pictured_saveAndCancelTapped (h : Pictured es s) (hI : s.Inv)
    (hs : s.react .saveAndCancelTapped = some t) :
    Pictured (es ++ [.saveAndCancelTapped]) t := by
  simp only [react, UserProfileViewController.saveAndCancelTapped] at hs
  split_ifs at hs with hed <;> cases hs
  · exact h.replace (fun d hx => by cases hx) (hI.editing hed).picture.2 (h.original hed)
      fun hx => by cases hx
  · exact h.keep (fun d hx => by cases hx) rfl h.original

theorem pictured_didFinishPicking {n : ℕ} (h : Pictured es s) (hI : s.Inv)
    (hs : s.react (.didFinishPicking n) = some t) :
    Pictured (es ++ [.didFinishPicking n]) t := by
  simp only [react] at hs
  split_ifs at hs with hi
  cases hs
  have hed := hI.interaction.symm.trans hi
  exact h.replace (fun d hx => by cases hx) (hI.editing hed).picture.2 (Option.some_ne_none _)
    h.original

theorem pictured_step (h : Pictured es s) (hI : s.Inv) (hs : s.step e = some t)
    (ht : t.fault = none) : Pictured (es ++ [e]) t := by
  replace hs := react_of_step hs
  cases e with
  | infoReplied document => exact pictured_infoReplied h hI hs ht
  | pictureLoaded =>
    simp only [react] at hs
    split_ifs at hs with hl
    cases hs
    obtain ⟨path, hpath⟩ := Option.ne_none_iff_exists'.1 hl
    refine h.replace (fun d hx => by cases hx) (h.awaited hl) ?_ h.original
    simp only [UIImageView.finishLoad, hpath, if_true]
    exact Option.some_ne_none _
  | editTapped env => exact pictured_editTapped h hs ht
  | saveAndCancelTapped => exact pictured_saveAndCancelTapped h hI hs
  | typeName text =>
    simp only [react] at hs
    split_ifs at hs
    cases hs
    exact h.keep (fun d hx => by cases hx) rfl h.original
  | typeBio text =>
    simp only [react] at hs
    split_ifs at hs
    cases hs
    exact h.keep (fun d hx => by cases hx) rfl h.original
  | didFinishPicking n => exact pictured_didFinishPicking h hI hs

/-! ## Whole runs -/

theorem fault_of_step (h : s.step e = some t) : s.fault = none := by
  unfold step at h
  split_ifs at h with hf
  exact hf

theorem pictured_viewDidLoad (opID : String) : Pictured [] (viewDidLoad opID) := by
  refine ⟨iff_of_false (fun h => h rfl) ?_, fun h => absurd rfl h, fun h => by cases h⟩
  rintro ⟨d, hd⟩
  cases hd

theorem pictured_steps {opID : String}
    (h : (profileEdit opID).Steps (fun _ _ => True) (viewDidLoad opID) es t)
    (ht : t.fault = none) : Pictured es t := by
  generalize hs₀ : viewDidLoad opID = s₀ at h
  induction h with
  | nil => exact hs₀ ▸ pictured_viewDidLoad opID
  | snoc h _ he ih =>
    subst hs₀
    exact pictured_step (ih (fault_of_step he)) (inv_steps h) he ht

/-- **Every tap on the edit button finds a picture** if and only if the answer to `loadInfo()` with
the user document comes before each of them. -/
theorem edit_finds_picture (opID : String) (es : List Event) (t : ProfileEdit) :
    (profileEdit opID).Steps FindsPicture (viewDidLoad opID) es t ↔
      (profileEdit opID).Steps (fun _ _ => True) (viewDidLoad opID) es t ∧
        ∀ pre e post, es = pre ++ e :: post → ∀ env, e = .editTapped env →
          ∃ document, .infoReplied (some document) ∈ pre := by
  refine Machine.steps_iff_history fun pre t e u h hs => forall_congr' fun env =>
    forall_congr' fun _ => ?_
  rw [ne_eq, editTapped_nilImage]
  exact (pictured_steps h (fault_of_step hs)).loaded

/-- **A tap that comes too early** ends the process: before the answer to `loadInfo()`, and after
one without a document. -/
theorem edit_too_early :
    ¬ FindsPicture (viewDidLoad "ann") (.editTapped {}) ∧
      (∃ t, (profileEdit "ann").Steps (fun _ _ => True) (viewDidLoad "ann") [.editTapped {}] t ∧
        t.fault = some .nilImage) ∧
      ∃ t, (profileEdit "ann").Steps (fun _ _ => True) (viewDidLoad "ann")
        [.infoReplied none, .editTapped {}] t ∧ t.fault = some .nilImage := by
  refine ⟨fun h => h {} rfl rfl, ?_, ?_⟩
  · obtain ⟨t, ht, hp⟩ := (profileEdit "ann").exists_of_run (viewDidLoad "ann") [.editTapped {}]
      (fun t => decide (t.fault = some .nilImage)) (by decide)
    exact ⟨t, ht, of_decide_eq_true hp⟩
  · obtain ⟨t, ht, hp⟩ := (profileEdit "ann").exists_of_run (viewDidLoad "ann")
      [.infoReplied none, .editTapped {}] (fun t => decide (t.fault = some .nilImage)) (by decide)
    exact ⟨t, ht, of_decide_eq_true hp⟩

end ProfileEdit

end ArtsExplorer
