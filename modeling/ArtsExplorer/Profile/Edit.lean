import ArtsExplorer.Foundations.Machine
import ArtsExplorer.App.UserProfileViewController

/-!
# Editing the own profile

`profileEdit opID` is the profile screen of user `opID` from `viewDidLoad()` on. The answer to
`loadInfo()` and the download of the stored avatar come at any time; the user taps the two buttons,
types in the two fields and picks pictures. Next to the screen it keeps what the user saw on
entering edit mode (`entry`) and what the user has since put there (`wanted`).

The edit compares the screen with a snapshot, and the download writes to the screen too. So a commit
sends what the user changed if and only if no download has replaced the picture in the meantime and
the picture can be encoded, and a cancel restores the stored avatar if and only if that was the
picture on entering edit mode or is still to come (`commit_exact`). A picture that cannot be encoded
also loses the texts that the user changed (`commit_keeps_texts`).
-/

namespace ArtsExplorer

open Foundations

/-- What a profile shows. -/
structure Values where
  name : String := ""
  bio : String := ""
  picture : Option UIImage := none
  deriving DecidableEq

/-- A profile screen with the history of its edit. -/
structure ProfileEdit where
  screen : UserProfileViewController
  /-- `loadInfo()` is not answered yet. -/
  infoPending : Bool := true
  /-- What was shown on entering edit mode. -/
  entry : Values := {}
  /-- The same, with the user's changes since. -/
  wanted : Values := {}
  /-- A download has ended since the last pick, or since edit mode was entered. -/
  overwritten : Bool := false
  /-- The stored avatar: the one that `loadInfo()` read, or the one that was uploaded since. -/
  avatar : Option UIImage := none
  /-- The last edit was cancelled. -/
  cancelled : Bool := false
  fault : Option Fault := none
  deriving DecidableEq

namespace ProfileEdit

inductive Event
  | infoReplied (document : Option Document)
  /-- The awaited download ends with the picture. -/
  | pictureLoaded
  | editTapped (env : Env)
  | saveAndCancelTapped
  | typeName (text : String)
  | typeBio (text : String)
  | didFinishPicking (n : ℕ)

variable (s : ProfileEdit)

/-- The values on the screen. -/
def shown : Values :=
  { name := s.screen.selfName, bio := s.screen.selfBio
    picture := s.screen.selfProfilePicture.image }

/-- The fields that some effects change in the user document. -/
def fieldsSent (es : List Effect) : List (String × FieldValue) :=
  es.flatMap fun
    | .request (.updateData _ _ ups) => ups
    | _ => []

/-- The pictures that some effects upload. -/
def uploads (es : List Effect) : List (String × UIImage) :=
  es.filterMap fun
    | .request (.putData path data _) => some (path, data)
    | _ => none

/-- What an event does while the process runs. -/
def react : Event → Option ProfileEdit
  | .infoReplied document =>
    if s.infoPending then
      match s.screen.loadInfoReply document with
      | .error f => some { s with infoPending := false, fault := some f }
      | .ok (screen, _) =>
        some { s with
          screen := screen
          infoPending := false
          avatar :=
            match screen.selfProfilePicture.loading with
            | some path => some (.stored path)
            | none => screen.selfProfilePicture.image }
    else none
  | .pictureLoaded =>
    if s.screen.selfProfilePicture.loading = none then none
    else
      some { s with
        screen :=
          { s.screen with selfProfilePicture := s.screen.selfProfilePicture.finishLoad true }
        overwritten := true }
  | .editTapped env =>
    match s.screen.editTapped env with
    | .error f => some { s with fault := some f }
    | .ok (screen, es) =>
      if s.screen.editingMode then
        some { s with screen := screen, avatar := ((uploads es).head?.map Prod.snd).or s.avatar }
      else
        some { s with
          screen := screen, entry := s.shown, wanted := s.shown, overwritten := false
          cancelled := false }
  | .saveAndCancelTapped =>
    if s.screen.editingMode then
      some { s with screen := s.screen.saveAndCancelTapped.1, cancelled := true }
    else some s
  | .typeName text =>
    if s.screen.isUserInteractionEnabled then
      some { s with
        screen := { s.screen with selfName := text }, wanted := { s.wanted with name := text } }
    else none
  | .typeBio text =>
    if s.screen.isUserInteractionEnabled then
      some { s with
        screen := { s.screen with selfBio := text }, wanted := { s.wanted with bio := text } }
    else none
  | .didFinishPicking n =>
    if s.screen.isUserInteractionEnabled then
      some { s with
        screen := s.screen.didFinishPicking (.picked n)
        wanted := { s.wanted with picture := some (.picked n) }
        overwritten := false }
    else none

def step (e : Event) : Option ProfileEdit := if s.fault = none then s.react e else none

/-- The screen of user `opID` after `viewDidLoad()`. -/
def viewDidLoad (opID : String) : ProfileEdit := { screen := { listing := { opID := opID } } }

end ProfileEdit

/-- The machine of a profile screen. -/
def profileEdit (opID : String) : Machine ProfileEdit ProfileEdit.Event where
  Initial s := s = ProfileEdit.viewDidLoad opID
  step := ProfileEdit.step

namespace ProfileEdit

variable {s t : ProfileEdit} {e : Event}

/-! ## What a commit shall send -/

/-- The user has put another picture there than the one at entry. -/
def PictureChanged (s : ProfileEdit) : Prop := s.wanted.picture ≠ s.entry.picture

instance (s : ProfileEdit) : Decidable s.PictureChanged := inferInstanceAs (Decidable (_ ≠ _))

/-- The texts that the user changed. -/
def textChanges (s : ProfileEdit) : List (String × FieldValue) :=
  (if s.wanted.bio ≠ s.entry.bio then [("bio", .value (.string s.wanted.bio))] else []) ++
    if s.wanted.name ≠ s.entry.name then [("name", .value (.string s.wanted.name))] else []

/-- The effects send exactly what the user changed: the texts, and the picture under the new
name. -/
structure SendsChanges (s : ProfileEdit) (uuid : String) (es : List Effect) : Prop where
  fields : fieldsSent es =
    s.textChanges ++ if s.PictureChanged then [("avatarID", .value (.string uuid))] else []
  uploads : uploads es =
    if s.PictureChanged then s.wanted.picture.toList.map fun image => ("avatars/" ++ uuid, image)
    else []

/-- After a cancel, the screen shows the stored avatar unless its download is awaited. -/
def ShowsAvatar (s : ProfileEdit) : Prop :=
  s.cancelled = true → s.screen.selfProfilePicture.loading = none →
    s.screen.selfProfilePicture.image = s.avatar

/-- A commit sends exactly the changes, and after a cancel the stored avatar is shown. -/
def Exact (s : ProfileEdit) (e : Event) : Prop :=
  (∀ env, e = .editTapped env → s.screen.editingMode = true → ∀ screen es,
    s.screen.editTapped env = .ok (screen, es) → s.SendsChanges env.uuid es) ∧
  ∀ t, s.step e = some t → t.ShowsAvatar

/-- A commit comes with the picture that the user has put there, and with one that can be encoded if
it is new; a cancel restores the stored avatar or awaits it. -/
def Undisturbed (s : ProfileEdit) : Event → Prop
  | .editTapped env => s.screen.editingMode = true →
    if s.screen.selfProfilePicture.image ≠ s.entry.picture ∧ env.jpegData = false then
      ¬ s.PictureChanged ∧ s.textChanges = []
    else s.overwritten = false
  | .saveAndCancelTapped => s.screen.editingMode = true →
    s.screen.selfProfilePicture.loading = none → s.entry.picture = s.avatar
  | .pictureLoaded => s.cancelled = true →
    s.avatar = s.screen.selfProfilePicture.loading.map UIImage.stored
  | _ => True

/-! ## The invariant -/

/-- No download has ended with this picture. -/
def NotStored (i : Option UIImage) : Prop := ∀ path, i ≠ some (.stored path)

/-- What the screen and its history have to do with each other in edit mode. -/
structure Editing (s : ProfileEdit) : Prop where
  cancelled : s.cancelled = false
  name : s.screen.originalNameText = s.entry.name ∧ s.screen.selfName = s.wanted.name
  bio : s.screen.originalBioText = s.entry.bio ∧ s.screen.selfBio = s.wanted.bio
  picture : s.screen.originalAvatar = s.entry.picture ∧ s.screen.selfProfilePicture.image ≠ none
  overwritten : s.overwritten = false ↔ s.screen.selfProfilePicture.image = s.wanted.picture
  awaited : s.screen.selfProfilePicture.loading ≠ none →
    NotStored s.entry.picture ∧ NotStored s.wanted.picture

structure Inv (s : ProfileEdit) : Prop where
  interaction : s.screen.isUserInteractionEnabled = s.screen.editingMode
  pending : s.infoPending = true → s.screen.editingMode = false ∧ s.cancelled = false ∧
    s.screen.selfProfilePicture = {}
  awaited : s.screen.selfProfilePicture.loading ≠ none → NotStored s.screen.selfProfilePicture.image
  editing : s.screen.editingMode = true → s.Editing

theorem react_of_step (h : s.step e = some t) : s.react e = some t := by
  unfold step at h
  split_ifs at h
  exact h

/-- What the answer to `loadInfo()` sets. -/
theorem loadInfoReply_ok {screen screen' : UserProfileViewController} {document : Option Document}
    {es : List Effect} (h : screen.loadInfoReply document = .ok (screen', es)) :
    screen'.editingMode = screen.editingMode ∧
      screen'.isUserInteractionEnabled = screen.isUserInteractionEnabled ∧
      (screen'.selfProfilePicture = screen.selfProfilePicture ∨
        screen'.selfProfilePicture.image = some placeholderProfile) := by
  cases document with
  | none =>
    cases h
    exact ⟨rfl, rfl, .inl rfl⟩
  | some document =>
    simp only [UserProfileViewController.loadInfoReply, bind_eq_ok, pure_eq_ok, Prod.mk.injEq] at h
    obtain ⟨opName, -, opBio, -, opAvatarID, -, rfl, -⟩ := h
    refine ⟨rfl, rfl, .inr ?_⟩
    dsimp only
    split <;> rfl

theorem notStored_placeholder : NotStored (some placeholderProfile) := by
  intro path h
  cases h

theorem notStored_picked (n : ℕ) : NotStored (some (.picked n)) := by
  intro path h
  cases h

/-- A commit leaves edit mode and nothing else of the screen. -/
theorem commit_ok {screen screen' : UserProfileViewController} {env : Env} {es : List Effect}
    (h : screen.commit env = .ok (screen', es)) :
    screen' = { screen with editingMode := false, isUserInteractionEnabled := false } := by
  unfold UserProfileViewController.commit at h
  split at h
  · cases h
  · split_ifs at h <;> cases h <;> rfl

/-- Outside edit mode the invariant says little. -/
theorem inv_of_idle (hed : t.screen.editingMode = false)
    (hi : t.screen.isUserInteractionEnabled = false)
    (hp : t.infoPending = true → t.cancelled = false ∧ t.screen.selfProfilePicture = {})
    (ha : t.screen.selfProfilePicture.loading ≠ none →
      NotStored t.screen.selfProfilePicture.image) :
    t.Inv where
  interaction := hi.trans hed.symm
  pending h := ⟨hed, hp h⟩
  awaited := ha
  editing h := absurd (hed.symm.trans h) Bool.false_ne_true

/-- In edit mode the information is there. -/
theorem Inv.not_pending (hI : s.Inv) (hed : s.screen.editingMode = true) : s.infoPending ≠ true :=
  fun hp => Bool.false_ne_true ((hI.pending hp).1.symm.trans hed)

theorem inv_infoReplied {document : Option Document} (hI : s.Inv)
    (h : s.react (.infoReplied document) = some t) : t.Inv := by
  simp only [react] at h
  split_ifs at h with hp
  obtain ⟨hed, hcan, hpic⟩ := hI.pending hp
  have hi := hI.interaction.trans hed
  split at h
  · cases h
    exact inv_of_idle hed hi (fun h => by cases h) hI.awaited
  · next screen es hr =>
    cases h
    obtain ⟨hed', hi', hpic'⟩ := loadInfoReply_ok hr
    refine inv_of_idle (hed'.trans hed) (hi'.trans hi) (fun h => by cases h) fun hl => ?_
    obtain hpic' | hpic' := hpic'
    · simp only [hpic', hpic, ne_eq, not_true_eq_false] at hl
    · simp only [hpic']
      exact notStored_placeholder

theorem inv_pictureLoaded (hI : s.Inv) (h : s.react .pictureLoaded = some t) : t.Inv := by
  simp only [react] at h
  split_ifs at h with hl
  cases h
  obtain ⟨path, hpath⟩ := Option.ne_none_iff_exists'.1 hl
  have hpic : s.screen.selfProfilePicture.finishLoad true =
      { image := some (.stored path), loading := none } := by
    simp only [UIImageView.finishLoad, hpath, if_true]
  refine ⟨hI.interaction, fun hp => ?_, fun h => ?_, fun hed => ?_⟩
  · rw [(hI.pending hp).2.2] at hl
    exact absurd rfl hl
  · simp only [hpic, ne_eq, not_true_eq_false] at h
  · have he := hI.editing hed
    refine ⟨he.cancelled, he.name, he.bio, ⟨he.picture.1, ?_⟩, ?_, fun h => ?_⟩
    · simp only [hpic]
      exact Option.some_ne_none _
    · -- the user cannot have wanted the picture that was still to come
      simp only [hpic, Bool.true_eq_false, false_iff]
      exact ((he.awaited hl).2 path).symm
    · simp only [hpic, ne_eq, not_true_eq_false] at h

theorem inv_editTapped {env : Env} (hI : s.Inv) (h : s.react (.editTapped env) = some t) :
    t.Inv := by
  simp only [react, UserProfileViewController.editTapped] at h
  by_cases hed : s.screen.editingMode = true
  · simp only [if_pos hed] at h
    have he := hI.editing hed
    split at h
    · cases h
      exact ⟨hI.interaction, hI.pending, hI.awaited, fun _ =>
        ⟨he.cancelled, he.name, he.bio, he.picture, he.overwritten, he.awaited⟩⟩
    · next screen es hr =>
      cases h
      obtain rfl := commit_ok hr
      exact inv_of_idle rfl rfl (fun hp => absurd hp (hI.not_pending hed)) hI.awaited
  · simp only [if_neg hed, UserProfileViewController.startEditing] at h
    have hed' := eq_false_of_ne_true hed
    cases himg : s.screen.selfProfilePicture.image with
    | none =>
      simp only [himg] at h
      cases h
      exact inv_of_idle hed' (hI.interaction.trans hed') (fun hp => (hI.pending hp).2) hI.awaited
    | some avatar =>
      simp only [himg] at h
      cases h
      refine ⟨rfl, fun hp => ?_, hI.awaited, fun _ => ?_⟩
      · rw [(hI.pending hp).2.2] at himg
        cases himg
      · refine ⟨rfl, ⟨rfl, rfl⟩, ⟨rfl, rfl⟩, ⟨himg.symm, ?_⟩, iff_of_true rfl rfl, fun hl => ?_⟩
        · simp only [himg, ne_eq, reduceCtorEq, not_false_eq_true]
        · exact ⟨hI.awaited hl, hI.awaited hl⟩

theorem inv_saveAndCancelTapped (hI : s.Inv) (h : s.react .saveAndCancelTapped = some t) :
    t.Inv := by
  simp only [react, UserProfileViewController.saveAndCancelTapped] at h
  split_ifs at h with hed <;> cases h
  · have he := hI.editing hed
    refine inv_of_idle rfl rfl (fun hp => absurd hp (hI.not_pending hed)) fun hl => ?_
    change NotStored s.screen.originalAvatar
    rw [he.picture.1]
    exact (he.awaited hl).1
  · exact hI

theorem inv_type {text : String} (hI : s.Inv)
    (h : s.react (.typeName text) = some t ∨ s.react (.typeBio text) = some t) : t.Inv := by
  obtain h | h := h <;> simp only [react] at h <;> split_ifs at h with hi <;> cases h
  all_goals have hed := hI.interaction.symm.trans hi
  all_goals have he := hI.editing hed
  all_goals refine ⟨hI.interaction, hI.pending, hI.awaited, fun _ => ?_⟩
  · exact ⟨he.cancelled, ⟨he.name.1, rfl⟩, he.bio, he.picture, he.overwritten, he.awaited⟩
  · exact ⟨he.cancelled, he.name, ⟨he.bio.1, rfl⟩, he.picture, he.overwritten, he.awaited⟩

theorem inv_didFinishPicking {n : ℕ} (hI : s.Inv) (h : s.react (.didFinishPicking n) = some t) :
    t.Inv := by
  simp only [react] at h
  split_ifs at h with hi
  cases h
  have hed := hI.interaction.symm.trans hi
  have he := hI.editing hed
  refine ⟨hI.interaction, fun hp => absurd hp (hI.not_pending hed), fun _ => notStored_picked n,
    fun _ => ?_⟩
  refine ⟨he.cancelled, he.name, he.bio, ⟨he.picture.1, Option.some_ne_none _⟩,
    ⟨fun _ => rfl, fun _ => rfl⟩, fun hl => ?_⟩
  exact ⟨(he.awaited hl).1, notStored_picked n⟩

theorem inv_step (hI : s.Inv) (h : s.step e = some t) : t.Inv := by
  replace h := react_of_step h
  cases e with
  | infoReplied document => exact inv_infoReplied hI h
  | pictureLoaded => exact inv_pictureLoaded hI h
  | editTapped env => exact inv_editTapped hI h
  | saveAndCancelTapped => exact inv_saveAndCancelTapped hI h
  | typeName text => exact inv_type hI (.inl h)
  | typeBio text => exact inv_type hI (.inr h)
  | didFinishPicking n => exact inv_didFinishPicking hI h

/-! ## What a commit sends -/

/-- The update with the texts alone, if there are any. -/
def sendTexts (s : ProfileEdit) : List Effect :=
  if s.textChanges.isEmpty then []
  else [.request (.updateData .users s.screen.listing.opID s.textChanges)]

/-- The upload of a picture and the update that goes with it. -/
def sendPicture (s : ProfileEdit) (uuid : String) (new : UIImage) : List Effect :=
  [.request (.putData ("avatars/" ++ uuid) new .avatarPut),
   .request (.updateData .users s.screen.listing.opID
     (s.textChanges ++ [("avatarID", .value (.string uuid))]))]

theorem editTapped_of_editing {screen : UserProfileViewController} {env : Env}
    (hed : screen.editingMode = true) : screen.editTapped env = screen.commit env := if_pos hed

/-- What a commit issues, in the terms of the history. -/
theorem commit_eq (env : Env) {new : UIImage} (he : s.Editing)
    (hnew : s.screen.selfProfilePicture.image = some new) :
    s.screen.commit env =
      .ok ({ s.screen with editingMode := false, isUserInteractionEnabled := false },
        if some new = s.entry.picture then s.sendTexts
        else if env.jpegData then s.sendPicture env.uuid new
        else []) := by
  have htext : s.screen.textChanges = s.textChanges := by
    rw [UserProfileViewController.textChanges, textChanges, he.bio.1, he.bio.2, he.name.1,
      he.name.2]
  simp only [UserProfileViewController.commit, hnew, he.picture.1, htext, sendTexts, sendPicture]
  split_ifs <;> first | rfl | contradiction

/-- Nothing is sent. -/
theorem sendsChanges_nil {uuid : String} :
    s.SendsChanges uuid [] ↔ ¬ s.PictureChanged ∧ s.textChanges = [] := by
  constructor
  · intro hs
    obtain ⟨htext, hpic⟩ := List.append_eq_nil_iff.1 hs.fields.symm
    refine ⟨fun hp => ?_, htext⟩
    rw [if_pos hp] at hpic
    cases hpic
  · rintro ⟨hp, htext⟩
    refine ⟨?_, ?_⟩
    · rw [htext, if_neg hp]
      rfl
    · rw [if_neg hp]
      rfl

/-- The picture on the screen is sent. -/
theorem sendsChanges_picture {uuid : String} {new : UIImage} (hne : some new ≠ s.entry.picture) :
    s.SendsChanges uuid (s.sendPicture uuid new) ↔ some new = s.wanted.picture := by
  have hf : fieldsSent (s.sendPicture uuid new) =
      s.textChanges ++ [("avatarID", .value (.string uuid))] := by
    simp only [sendPicture, fieldsSent, List.flatMap_cons, List.flatMap_nil, List.nil_append,
      List.append_nil]
  have hu : uploads (s.sendPicture uuid new) = [("avatars/" ++ uuid, new)] := rfl
  constructor
  · intro hs
    have hup := hs.uploads
    rw [hu] at hup
    split_ifs at hup
    cases hw : s.wanted.picture with
    | none =>
      rw [hw] at hup
      cases hup
    | some image =>
      rw [hw] at hup
      cases hup
      rfl
  · intro hw
    have hp : s.PictureChanged := by
      rw [PictureChanged, ← hw]
      exact hne
    refine ⟨?_, ?_⟩
    · rw [hf, if_pos hp]
    · rw [hu, if_pos hp, ← hw]
      rfl

/-- The texts alone are sent. -/
theorem sendsChanges_texts {uuid : String} :
    s.SendsChanges uuid s.sendTexts ↔ ¬ s.PictureChanged := by
  have hf : fieldsSent s.sendTexts = s.textChanges := by
    unfold sendTexts
    split_ifs with hempty
    · exact (List.isEmpty_iff.1 hempty).symm
    · simp only [fieldsSent, List.flatMap_cons, List.flatMap_nil, List.append_nil]
  have hu : uploads s.sendTexts = [] := by
    unfold sendTexts
    split_ifs <;> rfl
  constructor
  · intro hs hp
    have hfields := hs.fields
    rw [hf, if_pos hp] at hfields
    cases List.self_eq_append_right.1 hfields
  · intro hp
    refine ⟨?_, ?_⟩
    · rw [hf, if_neg hp, List.append_nil]
    · rw [hu, if_neg hp]

/-- **A commit sends exactly the changes** if and only if the picture on the screen is the one that
the user put there, or, where it cannot be encoded, if there is no change. -/
theorem sendsChanges_iff {env : Env} {screen : UserProfileViewController} {es : List Effect}
    (he : s.Editing) (h : s.screen.commit env = .ok (screen, es)) :
    s.SendsChanges env.uuid es ↔
      if s.screen.selfProfilePicture.image ≠ s.entry.picture ∧ env.jpegData = false then
        ¬ s.PictureChanged ∧ s.textChanges = []
      else s.overwritten = false := by
  obtain ⟨new, hnew⟩ := Option.ne_none_iff_exists'.1 he.picture.2
  rw [commit_eq env he hnew] at h
  cases h
  rw [he.overwritten, hnew]
  by_cases hpic : some new = s.entry.picture
  · rw [if_pos hpic, if_neg (fun h => h.1 hpic), sendsChanges_texts, PictureChanged, not_not, hpic]
    exact eq_comm
  · rw [if_neg hpic]
    by_cases hj : env.jpegData = true
    · rw [if_pos hj, if_neg (fun h => Bool.false_ne_true (h.2.symm.trans hj))]
      exact sendsChanges_picture hpic
    · rw [if_neg hj, if_pos ⟨hpic, eq_false_of_ne_true hj⟩]
      exact sendsChanges_nil

/-! ## What a step shows -/

/-- A state that is not left by a cancel. -/
theorem showsAvatar_of_not_cancelled (h : s.cancelled = false) : s.ShowsAvatar :=
  fun hc => absurd (h.symm.trans hc) Bool.false_ne_true

theorem showsAvatar_pictureLoaded (h : s.react .pictureLoaded = some t) :
    t.ShowsAvatar ↔
      (s.cancelled = true → s.avatar = s.screen.selfProfilePicture.loading.map UIImage.stored) := by
  simp only [react] at h
  split_ifs at h with hl
  cases h
  obtain ⟨path, hpath⟩ := Option.ne_none_iff_exists'.1 hl
  simp only [ShowsAvatar, UIImageView.finishLoad, hpath, if_true, Option.map_some, forall_const]
  exact forall_congr' fun _ => eq_comm

theorem showsAvatar_saveAndCancelTapped (hI : s.Inv) (ha : s.ShowsAvatar)
    (h : s.react .saveAndCancelTapped = some t) :
    t.ShowsAvatar ↔ (s.screen.editingMode = true →
      s.screen.selfProfilePicture.loading = none → s.entry.picture = s.avatar) := by
  simp only [react, UserProfileViewController.saveAndCancelTapped] at h
  split_ifs at h with hed <;> cases h
  · have hpic := (hI.editing hed).picture.1
    simp only [ShowsAvatar, UIImageView.setImage, hpic, hed, forall_const]
  · exact iff_of_true ha fun h => absurd h hed

theorem showsAvatar_editTapped {env : Env} (hI : s.Inv) (ha : s.ShowsAvatar)
    (h : s.react (.editTapped env) = some t) : t.ShowsAvatar := by
  simp only [react] at h
  split at h
  · cases h
    exact ha
  · split_ifs at h with hed <;> cases h
    · exact showsAvatar_of_not_cancelled (hI.editing hed).cancelled
    · exact showsAvatar_of_not_cancelled rfl

theorem showsAvatar_infoReplied {document : Option Document} (hI : s.Inv)
    (h : s.react (.infoReplied document) = some t) : t.ShowsAvatar := by
  simp only [react] at h
  split_ifs at h with hp
  have hcan := (hI.pending hp).2.1
  split at h <;> cases h <;> exact showsAvatar_of_not_cancelled hcan

theorem showsAvatar_type {text : String} (ha : s.ShowsAvatar)
    (h : s.react (.typeName text) = some t ∨ s.react (.typeBio text) = some t) :
    t.ShowsAvatar := by
  obtain h | h := h <;> simp only [react] at h <;> split_ifs at h <;> cases h <;> exact ha

theorem showsAvatar_didFinishPicking {n : ℕ} (hI : s.Inv)
    (h : s.react (.didFinishPicking n) = some t) : t.ShowsAvatar := by
  simp only [react] at h
  split_ifs at h with hi
  cases h
  have hed := hI.interaction.symm.trans hi
  exact showsAvatar_of_not_cancelled (hI.editing hed).cancelled

/-- **A step is exact** if and only if nothing disturbs it. -/
theorem exact_iff (hI : s.Inv) (ha : s.ShowsAvatar) (h : s.step e = some t) :
    Exact s e ↔ Undisturbed s e := by
  have hshow : (∀ u, s.step e = some u → u.ShowsAvatar) ↔ t.ShowsAvatar :=
    ⟨fun hu => hu t h, fun ht u hu => by cases h.symm.trans hu; exact ht⟩
  rw [Exact, hshow]
  replace h := react_of_step h
  cases e with
  | infoReplied document =>
    exact iff_of_true ⟨fun env h => (by cases h), showsAvatar_infoReplied hI h⟩ trivial
  | pictureLoaded =>
    rw [showsAvatar_pictureLoaded h]
    exact and_iff_right fun env h => by cases h
  | editTapped env =>
    refine (and_iff_left (showsAvatar_editTapped hI ha h)).trans ?_
    constructor
    · intro hs hed
      have he := hI.editing hed
      obtain ⟨new, hnew⟩ := Option.ne_none_iff_exists'.1 he.picture.2
      have hcommit := commit_eq env he hnew
      have hr := hcommit
      rw [← editTapped_of_editing hed] at hr
      exact (sendsChanges_iff he hcommit).1 (hs env rfl hed _ _ hr)
    · rintro hu _ ⟨⟩ hed screen es hr
      rw [editTapped_of_editing hed] at hr
      exact (sendsChanges_iff (hI.editing hed) hr).2 (hu hed)
  | saveAndCancelTapped =>
    rw [showsAvatar_saveAndCancelTapped hI ha h]
    exact and_iff_right fun env h => by cases h
  | typeName text =>
    exact iff_of_true ⟨fun env h => (by cases h), showsAvatar_type ha (.inl h)⟩ trivial
  | typeBio text =>
    exact iff_of_true ⟨fun env h => (by cases h), showsAvatar_type ha (.inr h)⟩ trivial
  | didFinishPicking n =>
    exact iff_of_true ⟨fun env h => (by cases h), showsAvatar_didFinishPicking hI h⟩ trivial

/-! ## Whole runs -/

theorem inv_viewDidLoad (opID : String) : (viewDidLoad opID).Inv :=
  inv_of_idle rfl rfl (fun _ => ⟨rfl, rfl⟩) fun h => absurd rfl h

theorem showsAvatar_viewDidLoad (opID : String) : (viewDidLoad opID).ShowsAvatar :=
  showsAvatar_of_not_cancelled rfl

/-- **Every commit sends exactly what the user changed and every cancel leads back to the stored
avatar** if and only if no step of the run is disturbed. -/
theorem commit_exact (opID : String) (es : List Event) (t : ProfileEdit) :
    (profileEdit opID).Steps Exact (viewDidLoad opID) es t ↔
      (profileEdit opID).Steps Undisturbed (viewDidLoad opID) es t := by
  have hstart := And.intro (inv_viewDidLoad opID) (showsAvatar_viewDidLoad opID)
  constructor
  · intro h
    refine h.congr (I := fun s => s.Inv ∧ s.ShowsAvatar) hstart ?_
    rintro s e s' ⟨hI, ha⟩ hs hexact
    exact ⟨(exact_iff hI ha hs).1 hexact, inv_step hI hs, hexact.2 s' hs⟩
  · intro h
    refine h.congr (I := fun s => s.Inv ∧ s.ShowsAvatar) hstart ?_
    rintro s e s' ⟨hI, ha⟩ hs hu
    have hexact := (exact_iff hI ha hs).2 hu
    exact ⟨hexact, inv_step hI hs, hexact.2 s' hs⟩

theorem inv_steps {C : ProfileEdit → Event → Prop} {opID : String} {es : List Event}
    (h : (profileEdit opID).Steps C (viewDidLoad opID) es t) : t.Inv := by
  refine (h.reachable (.init rfl)).induct ?_ fun s e s' _ hI _ hs => inv_step hI hs
  rintro s rfl
  exact inv_viewDidLoad opID

/-- Ann's document, with an avatar. -/
def annWithAvatar : Document :=
  .ofFields [("id", .string "ann"), ("name", .string "Ann"), ("mod", .bool false),
    ("savedPosts", .array []), ("avatarID", .string "7"), ("bio", .string "Painter")]

/-- The avatar arrives while Ann is in edit mode. -/
def loadedWhileEditing : List Event :=
  [.infoReplied (some annWithAvatar), .editTapped {}, .pictureLoaded]

/-- Edit mode with another picture than at entry and nothing changed by the user. -/
def ShowsLoaded (s : ProfileEdit) : Prop :=
  s.screen.editingMode = true ∧ s.screen.selfProfilePicture.loading = none ∧ s.overwritten = true ∧
    s.wanted = s.entry ∧ s.entry.picture ≠ s.avatar ∧ s.cancelled = false ∧
      (s.step (.editTapped {})).isSome ∧ (s.step .saveAndCancelTapped).isSome

instance (s : ProfileEdit) : Decidable s.ShowsLoaded := by
  unfold ShowsLoaded
  infer_instance

/-- **A picture that arrives during the edit** is uploaded by the commit as if the user had picked
it, and taken away by the cancel. -/
theorem loaded_while_editing : ∃ s, (profileEdit "ann").Steps (fun _ _ => True) (viewDidLoad "ann")
    loadedWhileEditing s ∧ s.screen.editingMode = true ∧ s.wanted = s.entry ∧
      ¬ Exact s (.editTapped {}) ∧ ¬ Exact s .saveAndCancelTapped := by
  obtain ⟨s, hs, hp⟩ := (profileEdit "ann").exists_of_run (viewDidLoad "ann") loadedWhileEditing
    (fun s => decide s.ShowsLoaded) (by decide +kernel)
  obtain ⟨hed, hl, hover, hw, hav, hcan, hcommit, hcancel⟩ : s.ShowsLoaded := of_decide_eq_true hp
  have hI := inv_steps hs
  have ha := showsAvatar_of_not_cancelled hcan
  refine ⟨s, hs, hed, hw, fun hexact => ?_, fun hexact => ?_⟩
  · obtain ⟨t, ht⟩ := Option.isSome_iff_exists.1 hcommit
    have hu := (exact_iff hI ha ht).1 hexact hed
    rw [if_neg (fun h => by cases h.2), hover] at hu
    cases hu
  · obtain ⟨t, ht⟩ := Option.isSome_iff_exists.1 hcancel
    exact hav ((exact_iff hI ha ht).1 hexact hed hl)

/-! ## Text changes next to a picture -/

/-- The effects write a field of the document of `uid`. -/
def Writes (uid : String) (es : List Effect) (key text : String) : Prop :=
  ∃ ups, .request (.updateData .users uid ups) ∈ es ∧ (key, .value (.string text)) ∈ ups

/-- A commit writes the texts that differ from the original ones, whatever becomes of the picture,
and a picture that cannot be encoded or uploaded is reported. -/
structure KeepsTexts (screen : UserProfileViewController) (env : Env) (uid : String)
    (es : List Effect) : Prop where
  bio : screen.selfBio ≠ screen.originalBioText → Writes uid es "bio" screen.selfBio
  name : screen.selfName ≠ screen.originalNameText → Writes uid es "name" screen.selfName
  encoding : screen.selfProfilePicture.image ≠ screen.originalAvatar → env.jpegData = false →
    ∃ message, .createAlert "Error" message ∈ es
  upload : ∀ (later : UserProfileViewController) error, ∃ message,
    .createAlert "Error" message ∈ (later.avatarPutReply (some error)).2

/-- The commit of a screen keeps the texts. -/
def CommitKeepsTexts (screen : UserProfileViewController) (env : Env) (uid : String) : Prop :=
  ∃ screen' es, screen.editTapped env = .ok (screen', es) ∧ KeepsTexts screen env uid es

/-- The changed texts are among the changes. -/
theorem mem_textChanges (screen : UserProfileViewController) :
    (screen.selfBio ≠ screen.originalBioText →
      ("bio", .value (.string screen.selfBio)) ∈ screen.textChanges) ∧
    (screen.selfName ≠ screen.originalNameText →
      ("name", .value (.string screen.selfName)) ∈ screen.textChanges) := by
  constructor
  · intro h
    rw [UserProfileViewController.textChanges, if_pos h]
    exact List.mem_append_left _ (List.mem_singleton_self _)
  · intro h
    rw [UserProfileViewController.textChanges, if_pos h]
    exact List.mem_append_right _ (List.mem_singleton_self _)

/-- An update with the texts keeps them. -/
theorem keepsTexts_of_update {screen : UserProfileViewController} {env : Env} {uid : String}
    {es : List Effect}
    (hes : screen.textChanges ≠ [] →
      ∃ more, .request (.updateData .users uid (screen.textChanges ++ more)) ∈ es)
    (hpic : screen.selfProfilePicture.image ≠ screen.originalAvatar → env.jpegData = true) :
    KeepsTexts screen env uid es := by
  have hwrites : ∀ key text, (key, .value (.string text)) ∈ screen.textChanges →
      Writes uid es key text := by
    intro key text hmem
    obtain ⟨more, hup⟩ := hes (List.ne_nil_of_mem hmem)
    exact ⟨_, hup, List.mem_append_left more hmem⟩
  refine ⟨fun h => hwrites _ _ ((mem_textChanges screen).1 h),
    fun h => hwrites _ _ ((mem_textChanges screen).2 h), fun hne hj => ?_, fun later error => ?_⟩
  · exact absurd (hj.symm.trans (hpic hne)) Bool.false_ne_true
  · exact ⟨_, List.mem_singleton_self _⟩

/-- **A commit keeps the texts** if and only if the picture is unchanged or can be encoded. -/
theorem commit_keeps_texts (screen : UserProfileViewController) (env : Env) (newAvatar : UIImage)
    (hed : screen.editingMode = true) (hnew : screen.selfProfilePicture.image = some newAvatar) :
    CommitKeepsTexts screen env screen.listing.opID ↔
      (some newAvatar ≠ screen.originalAvatar → env.jpegData = true) := by
  rw [CommitKeepsTexts, editTapped_of_editing hed]
  simp only [UserProfileViewController.commit, hnew]
  by_cases hne : some newAvatar ≠ screen.originalAvatar
  · rw [if_pos hne]
    by_cases hj : env.jpegData = true
    · rw [if_pos hj]
      refine iff_of_true ⟨_, _, rfl, keepsTexts_of_update (fun _ => ?_) fun _ => hj⟩ fun _ => hj
      exact ⟨[("avatarID", .value (.string env.uuid))],
        List.mem_cons_of_mem _ (List.mem_singleton_self _)⟩
    · rw [if_neg hj]
      refine iff_of_false ?_ fun h => hj (h hne)
      rintro ⟨screen', es, ⟨⟩, hkeep⟩
      -- the `guard` returns without an alert
      obtain ⟨message, hmem⟩ := hkeep.encoding (hnew ▸ hne) (eq_false_of_ne_true hj)
      cases hmem
  · rw [if_neg hne]
    have hj : screen.selfProfilePicture.image ≠ screen.originalAvatar → env.jpegData = true :=
      fun h => absurd (hnew ▸ h) hne
    refine iff_of_true ?_ fun h => absurd h hne
    split_ifs with hempty
    · exact ⟨_, _, rfl, keepsTexts_of_update (fun h => absurd (List.isEmpty_iff.1 hempty) h) hj⟩
    · refine ⟨_, _, rfl, keepsTexts_of_update (fun _ => ⟨[], ?_⟩) hj⟩
      rw [List.append_nil]
      exact List.mem_singleton_self _

/-- Ann changes her bio and picks a picture. -/
def bioAndPicture : List Event :=
  [.infoReplied (some annWithAvatar), .pictureLoaded, .editTapped {}, .typeBio "Sculptor",
   .didFinishPicking 1]

/-- In edit mode with a changed bio and a picked picture. -/
def BioAndPicture (s : ProfileEdit) : Prop :=
  (s.screen.editingMode = true ∧ s.screen.selfProfilePicture.image = some (.picked 1)) ∧
    s.screen.originalAvatar = some (.stored "avatars/7") ∧
      s.screen.selfBio = "Sculptor" ∧ s.screen.originalBioText = "Painter"

instance (s : ProfileEdit) : Decidable s.BioAndPicture := by
  unfold BioAndPicture
  infer_instance

/-- **A picture that cannot be encoded** takes the new bio with it: nothing is written and nothing
reported, and edit mode is left. -/
theorem bio_lost : ∃ s, (profileEdit "ann").Steps (fun _ _ => True) (viewDidLoad "ann")
    bioAndPicture s ∧ s.BioAndPicture ∧
      s.screen.editTapped { jpegData := false } = .ok ({ s.screen with
        editingMode := false, isUserInteractionEnabled := false }, []) ∧
      ¬ CommitKeepsTexts s.screen { jpegData := false } s.screen.listing.opID := by
  obtain ⟨s, hs, hp⟩ := (profileEdit "ann").exists_of_run (viewDidLoad "ann") bioAndPicture
    (fun s => decide s.BioAndPicture) (by decide +kernel)
  have hb : s.BioAndPicture := of_decide_eq_true hp
  obtain ⟨hed, hnew⟩ := hb.1
  have horig := hb.2.1
  have hne : some (UIImage.picked 1) ≠ s.screen.originalAvatar := by
    rw [horig]
    decide
  have hcommit : s.screen.editTapped { jpegData := false } = .ok ({ s.screen with
      editingMode := false, isUserInteractionEnabled := false }, []) := by
    rw [editTapped_of_editing hed]
    simp only [UserProfileViewController.commit, hnew]
    rw [if_pos hne, if_neg Bool.false_ne_true]
  refine ⟨s, hs, hb, hcommit, ?_⟩
  rintro ⟨screen', es, h, hkeep⟩
  cases hcommit.symm.trans h
  have hchanged : s.screen.selfBio ≠ s.screen.originalBioText := by
    rw [hb.2.2.1, hb.2.2.2]
    decide
  obtain ⟨ups, hmem, -⟩ := hkeep.bio hchanged
  cases hmem

/-- The same commit with a picture that can be encoded. -/
theorem bio_kept : ∃ s : ProfileEdit, s.BioAndPicture ∧
    CommitKeepsTexts s.screen {} s.screen.listing.opID := by
  obtain ⟨s, -, hp⟩ := (profileEdit "ann").exists_of_run (viewDidLoad "ann") bioAndPicture
    (fun s => decide s.BioAndPicture) (by decide +kernel)
  have hb : s.BioAndPicture := of_decide_eq_true hp
  exact ⟨s, hb, (commit_keeps_texts s.screen {} (.picked 1) hb.1.1 hb.1.2).2 fun _ => rfl⟩

end ProfileEdit

end ArtsExplorer
