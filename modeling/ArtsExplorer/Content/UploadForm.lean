import ArtsExplorer.Content.Draft

/-!
# The upload screen and what the user put there

`uploadForm` is an upload screen from `viewDidLoad()` on, with a record of the user's input: what
has been typed and picked since the screen was loaded or cleared (`Supplied`), and, for every press
that still waits for an answer, what was on the screen then (`UploadPress`).

`validateFields()` looks at the contents of the screen only. They are what the user has supplied,
but for the description view, which comes from the storyboard with a text of its own. So no post
without content is created if and only if no press relies on that text alone (`posts_have_content`,
`post_without_content`).
-/

namespace ArtsExplorer

open Foundations

/-- What the user sees on the upload screen. -/
structure UploadContents where
  titleText : String
  descriptionText : String
  image : Option UIImage
  isSelected : CategoryButton → Bool

/-- The contents of the screen. -/
def UploadViewController.contents (c : UploadViewController) : UploadContents where
  titleText := c.titleTextField
  descriptionText := c.descriptionTextView
  image := c.imageHolder.image
  isSelected b := (c.picker.buttons b).isSelected

/-- The contents have an image of their own. -/
def UploadContents.HasMedia (c : UploadContents) : Prop := c.image ≠ some placeholderPost

instance (c : UploadContents) : Decidable c.HasMedia := inferInstanceAs (Decidable (_ ≠ _))

/-- What `validateFields()` makes sure of. -/
def UploadContents.Valid (c : UploadContents) : Prop :=
  trimmed c.titleText ≠ "" ∨ trimmed c.descriptionText ≠ "" ∨ c.HasMedia

/-- What the user has supplied since the screen was loaded or cleared by an upload. -/
structure Supplied where
  titleText : String := ""
  descriptionText : String := ""
  /-- An image was picked and has not been taken away. -/
  hasImage : Bool := false
  /-- The storyboard's text is gone: the user has changed it, or an upload has cleared it. -/
  edited : Bool := false
  deriving DecidableEq

/-- A title or a description that is not blank, or an image. -/
def Supplied.HasContent (x : Supplied) : Prop :=
  trimmed x.titleText ≠ "" ∨ trimmed x.descriptionText ≠ "" ∨ x.hasImage = true

instance (x : Supplied) : Decidable x.HasContent := inferInstanceAs (Decidable (_ ∨ _))

/-- A press of the upload button that has gone through. -/
structure UploadPress where
  contents : UploadContents
  supplied : Supplied
  /-- Whether `jpegData` returned data. -/
  jpegData : Bool
  /-- The objects that were sent to Storage. -/
  sent : List (String × UIImage)

/-- There was more on the screen than the storyboard's description. -/
def UploadPress.BeyondStoryboard (p : UploadPress) : Prop :=
  trimmed p.contents.titleText ≠ "" ∨ p.contents.HasMedia ∨ p.supplied.edited = true

/-- A post that has been written, until the completion. -/
structure PendingPost where
  press : UploadPress
  /-- The selected buttons when it was written. -/
  isSelected : CategoryButton → Bool
  request : Request

structure UploadForm where
  screen : UploadViewController := .viewDidLoad
  supplied : Supplied := {}
  /-- The reads that have not been answered: the press and the closure. -/
  reads : List (UploadPress × Callback) := []
  posts : List PendingPost := []
  fault : Option Fault := none

/-- The object that a call writes to Storage. -/
def Effect.objectWrite : Effect → Option (String × UIImage)
  | .request (.putData path data _) => some (path, data)
  | _ => none

namespace UploadForm

inductive Event
  | titleChanged (text : String)
  | descriptionChanged (text : String)
  | categoryPressed (b : CategoryButton)
  | didFinishPicking (n : ℕ)
  | pressedClearMedia
  | uploadPressed (env : Env)
  /-- The `i`-th of the reads is answered. -/
  | replied (i : ℕ) (document : Option Document) (date : ℕ)
  /-- The `i`-th of the posts completes. -/
  | completed (i : ℕ) (error : Option String)
  /-- A `putData` completes. -/
  | imagePut (error : Option String)

variable (s : UploadForm)

/-- The form after a press. -/
def pressed (env : Env) : Except Fault (After UploadViewController) → UploadForm
  | .error f => { s with fault := some f }
  | .ok (screen, es) =>
    { s with
      screen := screen
      reads := s.reads ++ (es.filterMap Effect.userRead).map
        ({ contents := s.screen.contents, supplied := s.supplied, jpegData := env.jpegData,
           sent := es.filterMap Effect.objectWrite }, ·) }

/-- The form after the answer to the read of press `p`. -/
def answered (p : UploadPress) : Except Fault (After UploadViewController) → UploadForm
  | .error f => { s with fault := some f }
  | .ok (screen, es) =>
    { s with
      screen := screen
      posts := s.posts ++ (es.filterMap Effect.documentWrite).map
        ({ press := p, isSelected := s.screen.contents.isSelected, request := · }) }

/-- What an event does while the process runs. -/
def react : Event → Option UploadForm
  | .titleChanged text =>
    some { s with
      screen := { s.screen with titleTextField := text }
      supplied := { s.supplied with titleText := text } }
  | .descriptionChanged text =>
    some { s with
      screen := { s.screen with descriptionTextView := text }
      supplied := { s.supplied with descriptionText := text, edited := true } }
  | .categoryPressed b => some { s with screen := s.screen.categoryPressed b }
  | .didFinishPicking n =>
    some { s with
      screen := s.screen.didFinishPicking (.picked n)
      supplied := { s.supplied with hasImage := true } }
  | .pressedClearMedia =>
    some { s with
      screen := s.screen.pressedClearMedia, supplied := { s.supplied with hasImage := false } }
  | .uploadPressed env => some (s.pressed env (s.screen.uploadPressed env))
  | .replied i document date =>
    match s.reads[i]? with
    | some (p, .uploadUser postUUID opID mediaID titleText descriptionText) =>
      some ({ s with reads := s.reads.eraseIdx i }.answered p
        (s.screen.userReply { date := date } postUUID opID mediaID titleText descriptionText
          document))
    | _ => none
  | .completed i error =>
    if i < s.posts.length then
      some { s with
        screen := (s.screen.setReply error).1
        posts := s.posts.eraseIdx i
        supplied := if error = none then { edited := true } else s.supplied }
    else none
  | .imagePut error => some { s with screen := (s.screen.putReply error).1 }

def step (e : Event) : Option UploadForm := if s.fault = none then s.react e else none

end UploadForm

/-- The upload screen with the user's input as a machine. -/
def uploadForm : Machine UploadForm UploadForm.Event where
  Initial s := s = {}
  step := UploadForm.step

namespace UploadForm

variable {s t : UploadForm} {e : Event}

/-! ## The invariant -/

/-- What the user has supplied is on the screen; only the description may be the storyboard's. -/
structure Supplies (x : Supplied) (c : UploadContents) : Prop where
  title : c.titleText = x.titleText
  description : x.edited = true → c.descriptionText = x.descriptionText
  untouched : x.edited = false → x.descriptionText = ""
  present : c.image ≠ none
  media : c.HasMedia ↔ x.hasImage = true

/-- A press had a valid draft on the screen. -/
structure PressOK (p : UploadPress) : Prop where
  valid : p.contents.Valid
  supplies : Supplies p.supplied p.contents

/-- The closure of the press has captured its texts, and its picture is on its way if it could be
encoded. -/
structure Captured (p : UploadPress) (postUUID mediaID titleText descriptionText : String) :
    Prop where
  mediaID : mediaID = if p.contents.HasMedia then postUUID else ""
  titleText : titleText = trimmed p.contents.titleText
  descriptionText : descriptionText = trimmed p.contents.descriptionText
  sent : p.contents.HasMedia → ∀ image, p.contents.image = some image →
    (("posts/" ++ postUUID, image) ∈ p.sent ↔ p.jpegData = true)

/-- The closure of a read is that of its press. -/
def ReadOK (x : UploadPress × Callback) : Prop :=
  PressOK x.1 ∧ ∃ postUUID opID mediaID titleText descriptionText,
    x.2 = .uploadUser postUUID opID mediaID titleText descriptionText ∧
      Captured x.1 postUUID mediaID titleText descriptionText

/-- A post is written with the captured texts and the categories selected then. -/
def PostOK (post : PendingPost) : Prop :=
  PressOK post.press ∧
    ∃ postUUID opID opName chosenCategories mediaID titleText descriptionText date,
    post.request = .setData .posts postUUID (postDocument postUUID opID opName chosenCategories
      mediaID titleText descriptionText date) .uploadSet ∧
    Captured post.press postUUID mediaID titleText descriptionText ∧
    ∀ b, lowercased b.title ∈ chosenCategories ↔ post.isSelected b = true

structure Inv (s : UploadForm) : Prop where
  picker : s.screen.picker.Consistent lowercased CategoryButton.title
  supplies : Supplies s.supplied s.screen.contents
  reads : ∀ x ∈ s.reads, ReadOK x
  posts : ∀ post ∈ s.posts, PostOK post

theorem hasMedia_contents (c : UploadViewController) :
    c.contents.HasMedia ↔ c.hasMedia = true := by
  rw [UploadViewController.hasMedia, decide_eq_true_iff]
  rfl

/-- A draft that passes `validateFields()`. -/
theorem valid_contents {c : UploadViewController} (h : c.validateFields = none) :
    c.contents.Valid := by
  simp only [UploadViewController.validateFields] at h
  split_ifs at h with hempty
  by_contra hno
  simp only [UploadContents.Valid, UploadContents.HasMedia, not_or, not_not] at hno
  exact hempty hno

/-- What a press that goes through sends to Storage. -/
theorem objectWrite_uploadImage (c : UploadViewController) (env : Env) (id : String) :
    (c.uploadImage env id).filterMap Effect.objectWrite =
      if env.jpegData then c.imageHolder.image.toList.map fun image => ("posts/" ++ id, image)
      else [] := by
  unfold UploadViewController.uploadImage
  cases c.imageHolder.image with
  | none => simp
  | some image => split_ifs <;> rfl

theorem userRead_uploadImage (c : UploadViewController) (env : Env) (id : String) :
    (c.uploadImage env id).filterMap Effect.userRead = [] := by
  refine List.filterMap_eq_nil_iff.2 fun e he => ?_
  obtain ⟨image, -, -, rfl⟩ := UploadViewController.mem_uploadImage he
  rfl

/-- A press, where it goes through: a valid draft leaves one closure that has captured it. -/
theorem uploadPressed_cases {c c' : UploadViewController} {env : Env} {es : List Effect}
    (x : Supplied) (h : c.uploadPressed env = .ok (c', es)) :
    c' = c ∧ (es.filterMap Effect.userRead = [] ∨ c.contents.Valid ∧
      ∃ postUUID opID mediaID titleText descriptionText,
        es.filterMap Effect.userRead =
          [.uploadUser postUUID opID mediaID titleText descriptionText] ∧
        Captured { contents := c.contents, supplied := x, jpegData := env.jpegData,
                   sent := es.filterMap Effect.objectWrite }
          postUUID mediaID titleText descriptionText) := by
  unfold UploadViewController.uploadPressed at h
  split at h
  · cases h
    exact ⟨rfl, .inl rfl⟩
  · next hvalid =>
    simp only [bind_eq_ok, Env.uid_eq_ok, pure_eq_ok, Prod.mk.injEq] at h
    obtain ⟨opID, -, rfl, rfl⟩ := h
    refine ⟨rfl, .inr ⟨valid_contents hvalid, env.uuid, opID,
      if c.hasMedia then env.uuid else "", _, _, ?_, ?_, rfl, rfl, ?_⟩⟩
    · rw [List.filterMap_append]
      split_ifs
      · rw [userRead_uploadImage]
        rfl
      · rfl
    · simp only [hasMedia_contents]
    · intro hmedia image himage
      have hpicture : c.imageHolder.image = some image := himage
      rw [if_pos ((hasMedia_contents c).1 hmedia), List.filterMap_append, objectWrite_uploadImage,
        hpicture]
      cases env.jpegData <;> simp [Effect.objectWrite]

/-- An answer, where it goes through: a document leads to a post with the current selection. -/
theorem userReply_cases {c c' : UploadViewController} {env : Env} {es : List Effect}
    {postUUID opID mediaID titleText descriptionText : String} {document : Option Document}
    (h : c.userReply env postUUID opID mediaID titleText descriptionText document = .ok (c', es)) :
    c' = c ∧ (es.filterMap Effect.documentWrite = [] ∧ document = none ∨
      ∃ d opName, document = some d ∧ d "name" = some (.string opName) ∧
        es.filterMap Effect.documentWrite = [.setData .posts postUUID (postDocument postUUID opID
          opName c.picker.chosenCategories mediaID titleText descriptionText env.date)
            .uploadSet]) :=
  ⟨(UploadScreen.userReply_spec h).1, (UploadScreen.userReply_spec h).2.2⟩

/-- What the answer of a read leads to. -/
theorem replied_cases {i date : ℕ} {document : Option Document}
    (hs : s.react (.replied i document date) = some t) :
    ∃ p postUUID opID mediaID titleText descriptionText,
      s.reads[i]? = some (p, .uploadUser postUUID opID mediaID titleText descriptionText) ∧
      t = { s with reads := s.reads.eraseIdx i }.answered p
        (s.screen.userReply { date := date } postUUID opID mediaID titleText descriptionText
          document) := by
  simp only [react] at hs
  split at hs
  · next p postUUID opID mediaID titleText descriptionText hi =>
    cases hs
    exact ⟨p, postUUID, opID, mediaID, titleText, descriptionText, hi, rfl⟩
  · cases hs

/-- A change of the screen and of what has been supplied. -/
theorem Inv.change (h : s.Inv) {c : UploadViewController} {x : Supplied}
    (hc : c.picker.Consistent lowercased CategoryButton.title) (hx : Supplies x c.contents) :
    Inv { s with screen := c, supplied := x } :=
  ⟨hc, hx, h.reads, h.posts⟩

theorem inv_uploadPressed {env : Env} (h : s.Inv)
    (hs : s.react (.uploadPressed env) = some t) : t.Inv := by
  cases hs
  cases hr : s.screen.uploadPressed env with
  | error f => exact ⟨h.picker, h.supplies, h.reads, h.posts⟩
  | ok a =>
    obtain ⟨screen, es⟩ := a
    obtain ⟨rfl, hcases⟩ := uploadPressed_cases s.supplied hr
    refine ⟨h.picker, h.supplies, fun x hx => ?_, h.posts⟩
    rcases List.mem_append.1 hx with hx | hx
    · exact h.reads x hx
    · rcases hcases with hnil | ⟨hvalid, postUUID, opID, mediaID, title, description, hk, hcap⟩
      · rw [hnil] at hx
        cases hx
      · rw [hk, List.map_singleton, List.mem_singleton] at hx
        subst hx
        exact ⟨⟨hvalid, h.supplies⟩, postUUID, opID, mediaID, title, description, rfl, hcap⟩

theorem inv_replied {i date : ℕ} {document : Option Document} (h : s.Inv)
    (hs : s.react (.replied i document date) = some t) : t.Inv := by
  obtain ⟨p, postUUID, opID, mediaID, title, description, hi, rfl⟩ := replied_cases hs
  have hrest : ∀ x ∈ s.reads.eraseIdx i, ReadOK x := fun x hx =>
    h.reads x (List.mem_of_mem_eraseIdx hx)
  obtain ⟨hp, _, _, _, _, _, hk, hcap⟩ := h.reads _ (List.mem_of_getElem? hi)
  cases hk
  cases hr : s.screen.userReply { date := date } postUUID opID mediaID title description
      document with
  | error f => exact ⟨h.picker, h.supplies, hrest, h.posts⟩
  | ok a =>
    obtain ⟨screen, es⟩ := a
    obtain ⟨rfl, hcases⟩ := userReply_cases hr
    refine ⟨h.picker, h.supplies, hrest, fun post hpost => ?_⟩
    rcases List.mem_append.1 hpost with hpost | hpost
    · exact h.posts post hpost
    · rcases hcases with ⟨hnil, -⟩ | ⟨d, opName, -, -, hw⟩
      · rw [hnil] at hpost
        cases hpost
      · rw [hw, List.map_singleton, List.mem_singleton] at hpost
        subst hpost
        refine ⟨hp, postUUID, opID, opName, _, mediaID, title, description, date, rfl, hcap,
          fun b => ?_⟩
        rw [h.picker.mem_iff]
        constructor
        · rintro ⟨b', hb', htitle⟩
          rwa [← CategoryButton.eq_of_title htitle]
        · exact fun hb => ⟨b, hb, rfl⟩

theorem inv_completed {i : ℕ} {error : Option String} (h : s.Inv)
    (hs : s.react (.completed i error) = some t) : t.Inv := by
  have hposts : ∀ post ∈ s.posts.eraseIdx i, PostOK post := fun post hpost =>
    h.posts post (List.mem_of_mem_eraseIdx hpost)
  simp only [react, Option.ite_none_right_eq_some, Option.some.injEq] at hs
  obtain ⟨-, rfl⟩ := hs
  cases error with
  | none =>
    refine ⟨h.picker.clear, ⟨rfl, fun _ => rfl, fun _ => rfl, Option.some_ne_none _, ?_⟩,
      h.reads, hposts⟩
    exact iff_of_false (fun hne => hne rfl) Bool.false_ne_true
  | some error => exact ⟨h.picker, h.supplies, h.reads, hposts⟩

theorem inv_react (h : s.Inv) (hs : s.react e = some t) : t.Inv := by
  have hx := h.supplies
  cases e with
  | titleChanged text =>
    cases hs
    exact h.change h.picker ⟨rfl, hx.description, hx.untouched, hx.present, hx.media⟩
  | descriptionChanged text =>
    cases hs
    exact h.change h.picker ⟨hx.title, fun _ => rfl, fun hed => Bool.noConfusion hed, hx.present,
      hx.media⟩
  | categoryPressed b =>
    cases hs
    exact h.change (h.picker.changeButton (fun _ _ => CategoryButton.eq_of_title) b)
      ⟨hx.title, hx.description, hx.untouched, hx.present, hx.media⟩
  | didFinishPicking n =>
    cases hs
    refine h.change h.picker ⟨hx.title, hx.description, hx.untouched, Option.some_ne_none _,
      iff_of_true ?_ rfl⟩
    exact fun heq => by cases heq
  | pressedClearMedia =>
    cases hs
    refine h.change h.picker ⟨hx.title, hx.description, hx.untouched, Option.some_ne_none _, ?_⟩
    exact iff_of_false (fun hne => hne rfl) Bool.false_ne_true
  | uploadPressed env => exact inv_uploadPressed h hs
  | replied i document date => exact inv_replied h hs
  | completed i error => exact inv_completed h hs
  | imagePut error =>
    cases hs
    cases error <;> exact h

theorem react_of_step (h : s.step e = some t) : s.react e = some t := by
  unfold step at h
  split_ifs at h
  exact h

theorem initial_inv : ({} : UploadForm).Inv := by
  refine ⟨⟨fun _ => rfl, fun x => by simp [UploadViewController.viewDidLoad]⟩, ?_, by simp,
    by simp⟩
  refine ⟨rfl, fun hed => Bool.noConfusion hed, fun _ => rfl, Option.some_ne_none _, ?_⟩
  exact iff_of_false (fun hne => hne rfl) Bool.false_ne_true

theorem inv_reachable (h : uploadForm.Reachable s) : s.Inv :=
  h.induct (fun _ h => h ▸ initial_inv) fun _ _ _ _ hi _ hs => inv_react hi (react_of_step hs)

/-! ## Posts without content -/

/-- The event writes a post for the press. -/
def Posts (s : UploadForm) (e : Event) (p : UploadPress) : Prop :=
  ∃ t post, s.step e = some t ∧ t.posts = s.posts ++ [post] ∧ post.press = p

/-- The event answers the read of the press with a user document. -/
def Answers (s : UploadForm) (e : Event) (p : UploadPress) : Prop :=
  ∃ i document name date k, e = .replied i (some document) date ∧
    document "name" = some (.string name) ∧ s.reads[i]? = some (p, k)

/-- The posts written have content that the user has supplied. -/
def PostsContent (s : UploadForm) (e : Event) : Prop :=
  ∀ p, s.Posts e p → p.supplied.HasContent

/-- No press that is answered with a user document relied on the storyboard's description. -/
def AnswersBeyondStoryboard (s : UploadForm) (e : Event) : Prop :=
  ∀ p, s.Answers e p → p.BeyondStoryboard

/-- For a valid draft the storyboard's description is the only content that is not the user's. -/
theorem hasContent_iff {p : UploadPress} (h : PressOK p) :
    p.supplied.HasContent ↔ p.BeyondStoryboard := by
  have hx := h.supplies
  rw [Supplied.HasContent, UploadPress.BeyondStoryboard, hx.title, hx.media]
  cases hed : p.supplied.edited with
  | false =>
    have hblank : trimmed p.supplied.descriptionText = "" := by
      rw [hx.untouched hed]
      decide
    simp only [hblank, ne_eq, not_true, Bool.false_eq_true, false_or, or_false]
  | true =>
    refine iff_of_true ?_ (.inr (.inr rfl))
    rcases h.valid with htitle | hdescription | hmedia
    · exact .inl (hx.title ▸ htitle)
    · exact .inr (.inl (hx.description hed ▸ hdescription))
    · exact .inr (.inr (hx.media.1 hmedia))

/-- An answer writes a post for its press, if it is a user document. -/
theorem replied_posts {i date : ℕ} {document : Option Document}
    (hs : s.react (.replied i document date) = some t) :
    ∃ p k, s.reads[i]? = some (p, k) ∧
      ((t.posts = s.posts ∧ ∀ d name, document = some d → d "name" ≠ some (.string name)) ∨
        ∃ d name post, document = some d ∧ d "name" = some (.string name) ∧
          t.posts = s.posts ++ [post] ∧ post.press = p) := by
  obtain ⟨p, postUUID, opID, mediaID, title, description, hi, rfl⟩ := replied_cases hs
  refine ⟨p, _, hi, ?_⟩
  cases hr : s.screen.userReply { date := date } postUUID opID mediaID title description
      document with
  | error f =>
    refine .inl ⟨rfl, ?_⟩
    rintro d name rfl hname
    simp [UploadViewController.userReply, getString_eq_ok.2 hname, bind, Except.bind, pure,
      Except.pure] at hr
  | ok a =>
    obtain ⟨screen, es⟩ := a
    rcases (userReply_cases hr).2 with ⟨hnil, rfl⟩ | ⟨d, opName, rfl, hname, hw⟩
    · refine .inl ⟨?_, fun d name hd => by cases hd⟩
      simp only [answered, hnil, List.map_nil, List.append_nil]
    · simp only [answered, hw, List.map_singleton]
      exact .inr ⟨d, opName, _, rfl, hname, rfl, rfl⟩

/-- A post is written when a read is answered with a user document, and only then. -/
theorem posts_iff (hs : s.step e = some t) (p : UploadPress) : s.Posts e p ↔ s.Answers e p := by
  have hlonger : ∀ post u, s.step e = some u → u.posts = s.posts ++ [post] →
      ∃ i document date, e = .replied i document date := by
    intro post u hu hposts
    obtain rfl := Option.some.inj (hs.symm.trans hu)
    have hlength : t.posts.length = s.posts.length + 1 := by rw [hposts, List.length_append]; rfl
    replace hs := react_of_step hs
    cases e with
    | replied i document date => exact ⟨i, document, date, rfl⟩
    | uploadPressed env =>
      cases hs
      cases hr : s.screen.uploadPressed env <;> simp [pressed, hr] at hlength
    | completed i error =>
      simp only [react, Option.ite_none_right_eq_some, Option.some.injEq] at hs
      obtain ⟨hi, rfl⟩ := hs
      rw [List.length_eraseIdx_of_lt hi] at hlength
      omega
    | _ =>
      cases hs
      simp at hlength
  constructor
  · rintro ⟨u, post, hu, hposts, rfl⟩
    obtain ⟨i, document, date, rfl⟩ := hlonger post u hu hposts
    obtain ⟨p, k, hi, ⟨hsame, -⟩ | ⟨d, name, post', rfl, hname, hposts', rfl⟩⟩ :=
      replied_posts (react_of_step hu)
    · simp [hsame] at hposts
    · obtain rfl : post' = post := by simpa [hposts'] using hposts
      exact ⟨i, d, name, date, k, rfl, hname, hi⟩
  · rintro ⟨i, d, name, date, k, rfl, hname, hi⟩
    obtain ⟨p', k', hi', ⟨-, hno⟩ | ⟨_, _, post, hd, -, hposts, rfl⟩⟩ :=
      replied_posts (react_of_step hs)
    · exact absurd hname (hno d name rfl)
    · cases hi.symm.trans hi'
      exact ⟨t, post, hs, hposts, rfl⟩

/-- The law and the condition say the same of a step. -/
theorem postsContent_iff (h : s.Inv) (hs : s.step e = some t) :
    s.PostsContent e ↔ s.AnswersBeyondStoryboard e := by
  refine forall_congr' fun p => ?_
  rw [posts_iff hs p]
  refine imp_congr_right ?_
  rintro ⟨i, d, name, date, k, -, -, hi⟩
  exact hasContent_iff (h.reads _ (List.mem_of_getElem? hi)).1

theorem inv_step (h : s.Inv) (hs : s.step e = some t) : t.Inv := inv_react h (react_of_step hs)

/-- **Posts have content that the user has supplied** if and only if no press that leads to one
relied on the storyboard's description alone. -/
theorem posts_have_content (es : List Event) (t : UploadForm) :
    uploadForm.Steps PostsContent {} es t ↔ uploadForm.Steps AnswersBeyondStoryboard {} es t := by
  constructor
  · exact fun h => h.congr (I := Inv) initial_inv fun s e t hI hs hC =>
      ⟨(postsContent_iff hI hs).1 hC, inv_step hI hs⟩
  · exact fun h => h.congr (I := Inv) initial_inv fun s e t hI hs hC =>
      ⟨(postsContent_iff hI hs).2 hC, inv_step hI hs⟩

/-- The document of a user. -/
def annDocument : Document :=
  .ofFields [("id", .string "ann"), ("name", .string "Ann"), ("mod", .bool false),
    ("savedPosts", .array []), ("avatarID", .string ""), ("bio", .string "")]

/-- **Your description goes here!** On a screen where only a category has been chosen, a press leads
to a post. -/
theorem post_without_content :
    ∃ t p, uploadForm.Steps (fun _ _ => True) {}
      [.categoryPressed .artButton, .uploadPressed { currentUser := some "ann" }] t ∧
      t.Posts (.replied 0 (some annDocument) 0) p ∧ p.supplied = {} ∧ ¬ p.supplied.HasContent := by
  obtain ⟨t, ht, hp⟩ := uploadForm.exists_of_run {}
    [.categoryPressed .artButton, .uploadPressed { currentUser := some "ann" }]
    (fun t => t.reads.head?.any fun x => decide (t.fault = none ∧ x.1.supplied = ({} : Supplied)))
    (by decide)
  obtain ⟨⟨p, k⟩, hhead, hp⟩ := (Option.any_eq_true _ _).1 hp
  obtain ⟨hfault, hnothing⟩ := of_decide_eq_true hp
  have hi : t.reads[0]? = some (p, k) := by rw [← List.head?_eq_getElem?, hhead]
  obtain ⟨-, _, _, _, _, _, hk, -⟩ := (inv_reachable (ht.reachable (.init rfl))).reads _
    (List.mem_of_getElem? hi)
  cases hk
  have hs : ∃ u, t.step (.replied 0 (some annDocument) 0) = some u := by
    simp only [step, if_pos hfault, react, hi, Option.some.injEq, exists_eq']
  obtain ⟨u, hu⟩ := hs
  refine ⟨t, p, ht, (posts_iff hu p).2 ⟨0, annDocument, "Ann", 0, _, rfl, ?_, hi⟩, hnothing, ?_⟩
  · decide
  · rw [hnothing]
    decide

end UploadForm

end ArtsExplorer
