import ArtsExplorer.App.Models

/-!
# The upload screen

`UploadViewController` keeps the draft of a post: two texts, an image and a selection of categories.
The selection is `CategoryPicker`, written for any set of buttons and any `lower` that makes
categories of their titles; the screen has the four of `CategoryButton`, and `lowercased`.

`uploadPressed` validates the draft and reads the user document; the closure of that read, which
captured the texts, the author and the media id, writes the post with the categories selected
*then*.
-/

namespace ArtsExplorer

open Foundations

/-- A category button: its title and whether it is selected. -/
structure UIButton where
  currentTitle : String
  isSelected : Bool := false
  deriving DecidableEq

/-- Category buttons indexed by `β` and the list of the chosen categories. -/
structure CategoryPicker (β : Type) where
  buttons : β → UIButton
  chosenCategories : List String := []

namespace CategoryPicker

variable {β : Type} [DecidableEq β] (p : CategoryPicker β)

/-- `turnButtonOffVisually(buttonToTurnOff:)`. -/
def turnButtonOffVisually (b : β) : CategoryPicker β :=
  { p with buttons := Function.update p.buttons b { p.buttons b with isSelected := false } }

/-- `turnButtonOnVisually(buttonToTurnOn:)`. -/
def turnButtonOnVisually (b : β) : CategoryPicker β :=
  { p with buttons := Function.update p.buttons b { p.buttons b with isSelected := true } }

/-- `while let index = firstIndex(of: x) { remove(at: index) }`, for at most `n` rounds. -/
def removeLoop (x : String) : ℕ → List String → List String
  | 0, xs => xs
  | n + 1, xs =>
    match xs.idxOf? x with
    | some index => removeLoop x n (xs.eraseIdx index)
    | none => xs

/-- The loop with as many rounds as it can need. -/
def removeEach (x : String) (xs : List String) : List String := removeLoop x xs.length xs

/-- `changeButton(button:)`. -/
def changeButton (lower : String → String) (b : β) : CategoryPicker β :=
  let title := lower (p.buttons b).currentTitle
  if (p.buttons b).isSelected then
    { p.turnButtonOffVisually b with chosenCategories := removeEach title p.chosenCategories }
  else { p.turnButtonOnVisually b with chosenCategories := p.chosenCategories ++ [title] }

/-- `chosenCategories.removeAll()` and every button turned off. -/
def clear : CategoryPicker β :=
  { buttons := fun b => { p.buttons b with isSelected := false }, chosenCategories := [] }

/-! ### What is chosen -/

variable {p} {lower : String → String} {titles : β → String}

/-- The buttons are titled, and the chosen categories are the titles of those that are selected. -/
structure Consistent (lower : String → String) (titles : β → String) (p : CategoryPicker β) :
    Prop where
  title : ∀ b, (p.buttons b).currentTitle = titles b
  mem_iff : ∀ x, x ∈ p.chosenCategories ↔
    ∃ b, (p.buttons b).isSelected = true ∧ lower (titles b) = x

theorem removeLoop_eq_filter (x : String) {n : ℕ} {xs : List String} (h : xs.length ≤ n) :
    removeLoop x n xs = xs.filter (· ≠ x) := by
  induction n generalizing xs with
  | zero =>
    have hnil : xs = [] := List.eq_nil_of_length_eq_zero (Nat.le_zero.1 h)
    subst hnil
    rfl
  | succ n ih =>
    rw [removeLoop]
    split
    · next index hindex =>
      have herase : xs.eraseIdx index = xs.erase x := by rw [List.erase_eq_eraseIdx, hindex]
      have hmem : x ∈ xs := List.isSome_idxOf?.1 (by simp [hindex])
      rw [herase, ih (by rw [List.length_erase_of_mem hmem]; omega)]
      -- the occurrence that was removed would have been filtered out
      rw [← List.erase_filter, List.erase_of_not_mem (by simp)]
    · next hnone =>
      have hmem : x ∉ xs := List.idxOf?_eq_none_iff.1 hnone
      refine (List.filter_eq_self.2 fun y hy => ?_).symm
      exact decide_eq_true fun hyx => hmem (hyx ▸ hy)

theorem mem_removeEach {x y : String} {xs : List String} :
    y ∈ removeEach x xs ↔ y ∈ xs ∧ y ≠ x := by
  rw [removeEach, removeLoop_eq_filter x (le_refl _), List.mem_filter]
  simp

theorem Consistent.changeButton (h : p.Consistent lower titles)
    (hinj : ∀ b b', lower (titles b) = lower (titles b') → b = b') (b : β) :
    (p.changeButton lower b).Consistent lower titles := by
  have htitle : ∀ on b',
      (Function.update p.buttons b { p.buttons b with isSelected := on } b').currentTitle =
        titles b' := by
    intro on b'
    rw [Function.update_apply]
    split_ifs with hb
    · rw [hb]
      exact h.title b
    · exact h.title b'
  unfold CategoryPicker.changeButton
  simp only [h.title b]
  split_ifs with hsel
  · refine ⟨htitle false, fun x => ?_⟩
    simp only [mem_removeEach, h.mem_iff, turnButtonOffVisually, Function.update_apply]
    constructor
    · rintro ⟨⟨b', hb', rfl⟩, hne⟩
      have hbb : b' ≠ b := fun hbb => hne (by rw [hbb])
      exact ⟨b', by rw [if_neg hbb, hb'], rfl⟩
    · rintro ⟨b', hb', rfl⟩
      split_ifs at hb' with hbb
      exact ⟨⟨b', hb', rfl⟩, fun heq => hbb (hinj b' b heq)⟩
  · refine ⟨htitle true, fun x => ?_⟩
    simp only [List.mem_append, List.mem_singleton, h.mem_iff, turnButtonOnVisually,
      Function.update_apply]
    constructor
    · rintro (⟨b', hb', rfl⟩ | rfl)
      · refine ⟨b', ?_, rfl⟩
        split_ifs
        · rfl
        · exact hb'
      · exact ⟨b, by rw [if_pos rfl], rfl⟩
    · rintro ⟨b', hb', rfl⟩
      split_ifs at hb' with hbb
      · exact .inr (by rw [hbb])
      · exact .inl ⟨b', hb', rfl⟩

omit [DecidableEq β] in
theorem Consistent.clear (h : p.Consistent lower titles) : p.clear.Consistent lower titles :=
  ⟨h.title, by simp [CategoryPicker.clear]⟩

end CategoryPicker

/-- The four buttons of the screen. -/
inductive CategoryButton
  | artButton
  | dramaButton
  | filmButton
  | musicButton
  deriving DecidableEq

/-- The titles the storyboard gives the buttons. -/
def CategoryButton.title : CategoryButton → String
  | .artButton => "Art"
  | .dramaButton => "Drama"
  | .filmButton => "Film"
  | .musicButton => "Music"

/-- The buttons stand for different categories. -/
theorem CategoryButton.eq_of_title {b b' : CategoryButton}
    (h : lowercased b.title = lowercased b'.title) : b = b' := by
  revert h
  cases b <;> cases b' <;> decide

structure UploadViewController where
  titleTextField : String := ""
  descriptionTextView : String := "Your description goes here!"
  imageHolder : UIImageView := {}
  picker : CategoryPicker CategoryButton := { buttons := fun b => { currentTitle := b.title } }

namespace UploadViewController

variable (s : UploadViewController)

/-- `viewDidLoad()`, which calls `setUpElements()`. -/
def viewDidLoad : UploadViewController :=
  { imageHolder := { image := some placeholderPost } }

/-- `validateFields()`. -/
def validateFields : Option String :=
  let titleText := trimmed s.titleTextField
  let descriptionText := trimmed s.descriptionTextView
  if titleText = "" ∧ descriptionText = "" ∧ s.imageHolder.image = some placeholderPost then
    some Constants.allFieldsEmptyError
  else if s.picker.chosenCategories.isEmpty then some Constants.noCategoryError
  else none

/-- `uploadImage(id:)`. -/
def uploadImage (env : Env) (id : String) : List Effect :=
  match s.imageHolder.image with
  | some image =>
    if env.jpegData then [.request (.putData ("posts/" ++ id) image .uploadPut)] else []
  | none => []

/-- Whether the draft has an image of its own. -/
def hasMedia : Bool := s.imageHolder.image ≠ some placeholderPost

/-- `uploadPressed(_:)`. -/
def uploadPressed (env : Env) : Except Fault (After UploadViewController) :=
  match s.validateFields with
  | some error => .ok (s, [.createAlert "Error" error])
  | none => do
    let titleText := trimmed s.titleTextField
    let descriptionText := trimmed s.descriptionTextView
    let postUUID := env.uuid
    let mediaID := if s.hasMedia then postUUID else ""
    let opID ← env.uid
    return (s, (if s.hasMedia then s.uploadImage env postUUID else []) ++
      [.request (.getDocument .users opID
        (.uploadUser postUUID opID mediaID titleText descriptionText))])

/-- The completion of `getDocument`, with the values it captured. -/
def userReply (env : Env) (postUUID opID mediaID titleText descriptionText : String) :
    Option Document → Except Fault (After UploadViewController)
  | some document => do
    let opName ← getString document "name"
    return (s, [.request (.setData .posts postUUID
      (postDocument postUUID opID opName s.picker.chosenCategories mediaID titleText descriptionText
        env.date) .uploadSet)])
  | none => .ok (s, [.createAlert "Error" Constants.unknownUserError])

/-- `clearFieldsAndInfo()`. -/
def clearFieldsAndInfo : UploadViewController :=
  { titleTextField := "", descriptionTextView := "",
    imageHolder := s.imageHolder.setImage (some placeholderPost), picker := s.picker.clear }

/-- The completion of `setData`. -/
def setReply : Option String → After UploadViewController
  | some _ => (s, [.createAlert "Error" "Post could not be added."])
  | none => (s.clearFieldsAndInfo, [.createAlert "Success!" "Post added successfully."])

/-- The completion of `putData`. -/
def putReply : Option String → After UploadViewController
  | some error => (s, [.createAlert "Error" ("Error uploading image: " ++ error)])
  | none => (s, [])

/-- `pressedClearMedia(_:)`. -/
def pressedClearMedia : UploadViewController :=
  { s with imageHolder := s.imageHolder.setImage (some placeholderPost) }

/-- `imagePickerController(_:didFinishPickingMediaWithInfo:)`. -/
def didFinishPicking (imageValue : UIImage) : UploadViewController :=
  { s with imageHolder := s.imageHolder.setImage (some imageValue) }

/-- `artPressed(_:)`, `dramaPressed(_:)`, `filmPressed(_:)` and `musicPressed(_:)`. -/
def categoryPressed (b : CategoryButton) : UploadViewController :=
  { s with picker := s.picker.changeButton lowercased b }

/-- What `uploadImage` sends. -/
theorem mem_uploadImage {s : UploadViewController} {env : Env} {id : String} {e : Effect}
    (h : e ∈ s.uploadImage env id) :
    ∃ image, s.imageHolder.image = some image ∧ env.jpegData = true ∧
      e = .request (.putData ("posts/" ++ id) image .uploadPut) := by
  unfold uploadImage at h
  split at h
  · next image himage =>
    split_ifs at h with hj
    · exact ⟨image, himage, hj, List.mem_singleton.1 h⟩
    · cases h
  · cases h

end UploadViewController

end ArtsExplorer
