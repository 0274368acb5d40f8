import ArtsExplorer.Content.UploadForm
import ArtsExplorer.App.CommentsViewController

/-!
# What completions take off the screen

The upload screen and the comments screen are both cleared by completions, which come at any time
after the press. Input is kept when a completion clears only the draft of its own press, once that
is stored (`Kept`).

* The upload screen is cleared by the completion of `setData`, whatever it shows by then. So the
  input is kept if and only if each part of it is empty or still that of the press, and was stored.
* The comments screen is cleared when the user document has been read, together with the call of
  `setData`. So before anything is stored the field has to be empty already; counting a comment as
  stored once its `setData` succeeds, the input is kept if and only if the field is empty or still
  holds the text of the press, and no `setData` fails for which it was cleared.

Both together are `input_kept`; `input_discarded` is a run for each.
-/

namespace ArtsExplorer

open Foundations

/-- A completion leaves what is on the screen, or it was the draft of the press and is stored. -/
def Kept {α : Type} (before after draft : α) (stored : Prop) : Prop :=
  after = before ∨ (before = draft ∧ stored)

/-! ## The upload screen -/

/-- The call of `setData` writes the draft of the press, with some categories. -/
def UploadPress.Writes (p : UploadPress) (r : Request) (postUUID : String)
    (chosenCategories : List String) : Prop :=
  ∃ opID opName date, r = .setData .posts postUUID (postDocument postUUID opID opName
    chosenCategories (if p.contents.HasMedia then postUUID else "") (trimmed p.contents.titleText)
    (trimmed p.contents.descriptionText) date) .uploadSet

/-- The call stores the two texts of the press. -/
def PendingPost.StoresTexts (post : PendingPost) : Prop :=
  ∃ postUUID chosenCategories, post.press.Writes post.request postUUID chosenCategories

/-- The call stores a selected category. -/
def PendingPost.StoresCategory (post : PendingPost) (b : CategoryButton) : Prop :=
  ∃ postUUID chosenCategories, post.press.Writes post.request postUUID chosenCategories ∧
    lowercased b.title ∈ chosenCategories

/-- The call refers to the image of the press, which has been sent to Storage. -/
def PendingPost.StoresImage (post : PendingPost) : Prop :=
  ∃ postUUID chosenCategories, post.press.Writes post.request postUUID chosenCategories ∧
    ∃ image, post.press.contents.image = some image ∧
      ("posts/" ++ postUUID, image) ∈ post.press.sent

/-- Each part of the contents is kept by the completion of a post. -/
structure PendingPost.Keeps (post : PendingPost) (error : Option String)
    (before after : UploadContents) : Prop where
  titleText : Kept before.titleText after.titleText post.press.contents.titleText
    (error = none ∧ post.StoresTexts)
  descriptionText : Kept before.descriptionText after.descriptionText
    post.press.contents.descriptionText (error = none ∧ post.StoresTexts)
  image : Kept before.image after.image post.press.contents.image
    (error = none ∧ post.StoresImage)
  isSelected : ∀ b, Kept (before.isSelected b) (after.isSelected b)
    (post.press.contents.isSelected b) (error = none ∧ post.StoresCategory b)

namespace UploadForm

variable {s t : UploadForm} {e : Event}

/-- Completions keep the input: the answers to reads change nothing, the completion of `setData`
clears only what it has stored. -/
def KeepsInput (s : UploadForm) (e : Event) : Prop :=
  ∀ t, s.step e = some t →
    (∀ i document date, e = .replied i document date → t.screen.contents = s.screen.contents) ∧
    ∀ i error post, e = .completed i error → s.posts[i]? = some post →
      post.Keeps error s.screen.contents t.screen.contents

/-- Each part of the contents is empty or still that of the press; an image could be encoded, and a
selected category was selected when the post was written, too. -/
structure Rests (post : PendingPost) (c : UploadContents) : Prop where
  titleText : c.titleText = "" ∨ c.titleText = post.press.contents.titleText
  descriptionText : c.descriptionText = "" ∨
    c.descriptionText = post.press.contents.descriptionText
  image : c.HasMedia → c.image = post.press.contents.image ∧ post.press.jpegData = true
  isSelected : ∀ b, c.isSelected b = true →
    post.press.contents.isSelected b = true ∧ post.isSelected b = true

/-- When a post is stored, what is on the screen rests since the press. -/
def DraftRests (s : UploadForm) (e : Event) : Prop :=
  ∀ i post, e = .completed i none → s.posts[i]? = some post → Rests post s.screen.contents

/-! ### What a post stores -/

theorem writes_unique {p : UploadPress} {r : Request} {postUUID postUUID' : String}
    {chosenCategories chosenCategories' : List String}
    (h : p.Writes r postUUID chosenCategories) (h' : p.Writes r postUUID' chosenCategories') :
    postUUID = postUUID' ∧ chosenCategories = chosenCategories' := by
  obtain ⟨opID, opName, date, rfl⟩ := h
  obtain ⟨opID', opName', date', hr⟩ := h'
  simp only [Request.setData.injEq, postDocument, List.cons.injEq, Prod.mk.injEq,
    Value.array.injEq, true_and, and_true] at hr
  obtain ⟨hid, -, -, -, hchosen, -⟩ := hr
  exact ⟨hid, hchosen⟩

/-- What a post writes: the categories are those selected at the time. -/
theorem writes_of_postOK {post : PendingPost} (h : PostOK post) :
    ∃ postUUID chosenCategories, post.press.Writes post.request postUUID chosenCategories ∧
      (∀ b, lowercased b.title ∈ chosenCategories ↔ post.isSelected b = true) ∧
      (post.press.contents.HasMedia → ∀ image, post.press.contents.image = some image →
        (("posts/" ++ postUUID, image) ∈ post.press.sent ↔ post.press.jpegData = true)) := by
  obtain ⟨-, postUUID, opID, opName, chosenCategories, mediaID, title, description, date, hr, hcap,
    hsel⟩ := h
  refine ⟨postUUID, chosenCategories, ⟨opID, opName, date, ?_⟩, hsel, hcap.sent⟩
  rw [hr, hcap.mediaID, hcap.titleText, hcap.descriptionText]

theorem storesTexts {post : PendingPost} (h : PostOK post) : post.StoresTexts := by
  obtain ⟨postUUID, chosenCategories, hw, -⟩ := writes_of_postOK h
  exact ⟨postUUID, chosenCategories, hw⟩

theorem storesCategory_iff {post : PendingPost} (h : PostOK post) (b : CategoryButton) :
    post.StoresCategory b ↔ post.isSelected b = true := by
  obtain ⟨postUUID, chosenCategories, hw, hsel, -⟩ := writes_of_postOK h
  rw [← hsel]
  constructor
  · rintro ⟨postUUID', chosenCategories', hw', hb⟩
    rwa [(writes_unique hw hw').2]
  · exact fun hb => ⟨postUUID, chosenCategories, hw, hb⟩

theorem storesImage_iff {post : PendingPost} (h : PostOK post)
    (hmedia : post.press.contents.HasMedia) :
    post.StoresImage ↔ post.press.jpegData = true := by
  obtain ⟨postUUID, chosenCategories, hw, -, hsent⟩ := writes_of_postOK h
  constructor
  · rintro ⟨postUUID', chosenCategories', hw', image, himage, hmem⟩
    rw [← (writes_unique hw hw').1] at hmem
    exact (hsent hmedia image himage).1 hmem
  · intro hjpeg
    obtain ⟨image, himage⟩ := Option.ne_none_iff_exists'.1 h.1.supplies.present
    exact ⟨postUUID, chosenCategories, hw, image, himage, (hsent hmedia image himage).2 hjpeg⟩

/-- The answer to a read leaves the screen as it is. -/
theorem replied_contents {i date : ℕ} {document : Option Document}
    (hs : s.react (.replied i document date) = some t) :
    t.screen.contents = s.screen.contents := by
  obtain ⟨p, postUUID, opID, mediaID, title, description, hi, rfl⟩ := replied_cases hs
  cases hr : s.screen.userReply { date := date } postUUID opID mediaID title description
      document with
  | error f => rfl
  | ok a =>
    obtain ⟨screen, es⟩ := a
    obtain ⟨rfl, -⟩ := userReply_cases hr
    rfl

/-- A failure leaves everything on the screen. -/
theorem keeps_of_eq {post : PendingPost} {error : Option String} {before after : UploadContents}
    (h : after = before) : post.Keeps error before after := by
  subst h
  exact ⟨.inl rfl, .inl rfl, .inl rfl, fun _ => .inl rfl⟩

/-- A success clears the screen: each part was empty, or it was the stored draft. -/
theorem keeps_none_iff {post : PendingPost} (h : PostOK post) (c : UploadViewController) :
    post.Keeps none c.contents (c.setReply none).1.contents ↔ Rests post c.contents := by
  have hcleared : (c.setReply none).1.contents =
      { titleText := "", descriptionText := "", image := some placeholderPost,
        isSelected := fun _ => false } := rfl
  rw [hcleared]
  constructor
  · rintro ⟨htitle, hdescription, himage, hselected⟩
    refine ⟨htitle.imp Eq.symm And.left, hdescription.imp Eq.symm And.left, fun hmedia => ?_,
      fun b hb => ?_⟩
    · rcases himage with hempty | ⟨hdraft, -, hstored⟩
      · exact absurd hempty.symm hmedia
      · refine ⟨hdraft, (storesImage_iff h ?_).1 hstored⟩
        rwa [UploadContents.HasMedia, ← hdraft]
    · rcases hselected b with hempty | ⟨hdraft, -, hstored⟩
      · exact absurd (hempty.trans hb) Bool.false_ne_true
      · exact ⟨hdraft.symm.trans hb, (storesCategory_iff h b).1 hstored⟩
  · rintro ⟨htitle, hdescription, himage, hselected⟩
    have htexts := storesTexts h
    refine ⟨htitle.imp Eq.symm fun hd => ⟨hd, rfl, htexts⟩,
      hdescription.imp Eq.symm fun hd => ⟨hd, rfl, htexts⟩, ?_, fun b => ?_⟩
    · by_cases hmedia : c.contents.HasMedia
      · obtain ⟨hdraft, hjpeg⟩ := himage hmedia
        refine .inr ⟨hdraft, rfl, (storesImage_iff h ?_).2 hjpeg⟩
        rwa [UploadContents.HasMedia, ← hdraft]
      · exact .inl (not_not.1 hmedia).symm
    · cases hb : c.contents.isSelected b with
      | false => exact .inl rfl
      | true =>
        obtain ⟨hdraft, hwritten⟩ := hselected b hb
        exact .inr ⟨hdraft.symm, rfl, (storesCategory_iff h b).2 hwritten⟩

/-- The law and the condition say the same of a step. -/
theorem keepsInput_iff (h : s.Inv) (hs : s.step e = some t) :
    s.KeepsInput e ↔ s.DraftRests e := by
  have ht : ∀ u, s.step e = some u ↔ u = t := fun u => by rw [hs, Option.some.injEq, eq_comm]
  simp only [KeepsInput, ht, forall_eq]
  replace hs := react_of_step hs
  cases e with
  | replied i document date =>
    refine iff_of_true ⟨fun _ _ _ _ => replied_contents hs, fun _ _ _ he => (by cases he)⟩ ?_
    exact fun _ _ he => by cases he
  | completed i error =>
    simp only [react, Option.ite_none_right_eq_some, Option.some.injEq] at hs
    obtain ⟨-, rfl⟩ := hs
    cases error with
    | some error =>
      refine iff_of_true ⟨fun _ _ _ he => (by cases he), fun _ _ _ he _ => ?_⟩ ?_
      · cases he
        exact keeps_of_eq rfl
      · exact fun _ _ he => by cases he
    | none =>
      constructor
      · intro hk j post he hj
        cases he
        exact (keeps_none_iff (h.posts _ (List.mem_of_getElem? hj)) _).1 (hk.2 i none post rfl hj)
      · intro hrests
        refine ⟨fun _ _ _ he => (by cases he), fun j error post he hj => ?_⟩
        cases he
        exact (keeps_none_iff (h.posts _ (List.mem_of_getElem? hj)) _).2 (hrests i post rfl hj)
  | _ =>
    refine iff_of_true ⟨fun _ _ _ he => (by cases he), fun _ _ _ he => (by cases he)⟩ ?_
    exact fun _ _ he => by cases he

end UploadForm

/-! ## The comments screen -/

/-- How far the comment of a press has come. -/
inductive SendPhase
  /-- The user document is being read. -/
  | reading (k : Callback)
  /-- `setData` has been called. -/
  | writing (r : Request)
  | stored (r : Request)
  /-- There was no user document, or `setData` has failed. -/
  | failed

def SendPhase.isFailed : SendPhase → Bool
  | .failed => true
  | _ => false

/-- A press of the send button that has gone through. -/
structure SentComment where
  /-- The field at the press. -/
  text : String
  phase : SendPhase
  /-- What was in the field when the press made a completion clear it. -/
  cleared : String := ""

/-- The call stores the text of the press. -/
def SentComment.Stores (x : SentComment) (r : Request) : Prop :=
  ∃ commentID opName opID postID date, r = .setData .comments commentID
    (commentDocument commentID (trimmed x.text) opName opID postID date) .commentSet

/-- The comment of the press is stored. -/
def SentComment.Stored (x : SentComment) : Prop := ∃ r, x.phase = .stored r ∧ x.Stores r

/-- What was cleared is the text of the press, and it is stored, or `setData` has not completed. -/
def SentComment.Kept (x : SentComment) : Prop :=
  x.cleared = "" ∨ x.cleared = x.text ∧
    (x.Stored ∨ ∃ r, x.phase = .writing r ∧ x.Stores r)

structure CommentForm where
  screen : CommentsViewController
  sent : List SentComment := []
  fault : Option Fault := none

namespace CommentForm

inductive Event
  | textChanged (text : String)
  | sendPressed (env : Env)
  /-- The read of the `i`-th press is answered. -/
  | replied (i : ℕ) (document : Option Document) (date : ℕ)
  /-- The `setData` of the `i`-th press completes. -/
  | completed (i : ℕ) (error : Option String)
  /-- The listener of the comments is called. -/
  | commentsChanged (result : Except String (List Document))

variable (s : CommentForm)

/-- The form after a press. -/
def pressed : Except Fault (After CommentsViewController) → CommentForm
  | .error f => { s with fault := some f }
  | .ok (screen, es) =>
    { s with
      screen := screen
      sent := s.sent ++ (es.filterMap Effect.userRead).map
        ({ text := s.screen.commentTextField, phase := .reading · }) }

/-- The form after the answer to the read of press `x`, the `i`-th. -/
def answered (i : ℕ) (x : SentComment) : Except Fault (After CommentsViewController) → CommentForm
  | .error f => { s with fault := some f }
  | .ok (screen, es) =>
    { s with
      screen := screen
      sent := s.sent.set i
        { x with
          phase := ((es.filterMap Effect.documentWrite).head?.map .writing).getD .failed
          cleared := if screen.commentTextField = s.screen.commentTextField then ""
            else s.screen.commentTextField } }

/-- What an event does while the process runs. -/
def react : Event → Option CommentForm
  | .textChanged text => some { s with screen := { s.screen with commentTextField := text } }
  | .sendPressed env => some (s.pressed (s.screen.sendCommentPressed env))
  | .replied i document date =>
    match s.sent[i]? with
    | some x =>
      match x.phase with
      | .reading (.commentUser commentID opID message) =>
        some (s.answered i x (s.screen.userReply { date := date } commentID opID message document))
      | _ => none
    | none => none
  | .completed i error =>
    match s.sent[i]? with
    | some x =>
      match x.phase with
      | .writing r =>
        some { s with
          screen := (s.screen.setReply error).1
          sent := s.sent.set i { x with phase := if error = none then .stored r else .failed } }
      | _ => none
    | none => none
  | .commentsChanged result =>
    match s.screen.loadCommentsReply result with
    | .error f => some { s with fault := some f }
    | .ok (screen, _) => some { s with screen := screen }

def step (e : Event) : Option CommentForm := if s.fault = none then s.react e else none

/-- The screen on the comments of a post. -/
def viewDidLoad (postID opName : String) : CommentForm where
  screen := (CommentsViewController.viewDidLoad postID opName).1

end CommentForm

/-- The comments screen as a machine. -/
def commentForm (postID opName : String) : Machine CommentForm CommentForm.Event where
  Initial s := s = .viewDidLoad postID opName
  step := CommentForm.step

namespace CommentForm

variable {s t : CommentForm} {e : Event}

/-- Completions keep the input at once: they leave the field as it is, or it held the text of a
press whose comment is stored. -/
def KeepsInput (s : CommentForm) (e : Event) : Prop :=
  ∀ t, s.step e = some t →
    (∀ i document date x, e = .replied i document date → s.sent[i]? = some x →
      Kept s.screen.commentTextField t.screen.commentTextField x.text x.Stored) ∧
    ∀ i error x, e = .completed i error → s.sent[i]? = some x →
      Kept s.screen.commentTextField t.screen.commentTextField x.text (error = none)

/-- No answer with a user document finds anything in the field. -/
def FieldIsEmpty (s : CommentForm) (e : Event) : Prop :=
  ∀ i document name date, e = .replied i (some document) date →
    document "name" = some (.string name) → s.screen.commentTextField = ""

/-- Everything that was cleared is kept. -/
def Keeps (s : CommentForm) : Prop := ∀ x ∈ s.sent, x.Kept

/-- An answer with a user document finds the field empty or with the text of its press, and a
`setData` that fails is one for which nothing was cleared. -/
def FieldRests (s : CommentForm) (e : Event) : Prop :=
  (∀ i document name date x, e = .replied i (some document) date →
    document "name" = some (.string name) → s.sent[i]? = some x →
      s.screen.commentTextField = "" ∨ s.screen.commentTextField = x.text) ∧
  ∀ i error x, e = .completed i (some error) → s.sent[i]? = some x → x.cleared = ""

/-! ### The invariant -/

/-- The closures and calls of the presses are on their texts, and an unanswered press has cleared
nothing. -/
def SentOK (x : SentComment) : Prop :=
  match x.phase with
  | .reading k =>
    x.cleared = "" ∧ ∃ commentID opID, k = .commentUser commentID opID (trimmed x.text)
  | .writing r => x.Stores r
  | .stored r => x.Stores r
  | .failed => True

def Inv (s : CommentForm) : Prop := ∀ x ∈ s.sent, SentOK x

/-- What holds of all presses after one of them has moved on. -/
theorem forall_mem_set_iff {α : Type} {P : α → Prop} {xs : List α} {i : ℕ} {x y : α}
    (hi : xs[i]? = some x) (hxy : P y → P x) :
    (∀ z ∈ xs.set i y, P z) ↔ (∀ z ∈ xs, P z) ∧ P y := by
  obtain ⟨hlt, rfl⟩ := List.getElem?_eq_some_iff.1 hi
  constructor
  · intro h
    have hy := h y (List.mem_set hlt y)
    refine ⟨fun z hz => ?_, hy⟩
    obtain ⟨j, hj, rfl⟩ := List.getElem_of_mem hz
    rcases eq_or_ne i j with rfl | hij
    · exact hxy hy
    · refine h _ (List.mem_iff_getElem.2 ⟨j, by rwa [List.length_set], ?_⟩)
      exact List.getElem_set_ne hij _
  · rintro ⟨h, hy⟩ z hz
    rcases List.mem_or_eq_of_mem_set hz with hz | rfl
    · exact h z hz
    · exact hy

theorem react_of_step (h : s.step e = some t) : s.react e = some t := by
  unfold step at h
  split_ifs at h
  exact h

/-- The answer to a read: the press fails, or its comment is written and the field is cleared. -/
theorem replied_cases {i date : ℕ} {document : Option Document} (h : s.Inv)
    (hs : s.react (.replied i document date) = some t) :
    ∃ x k, s.sent[i]? = some x ∧ x.phase = .reading k ∧ x.cleared = "" ∧
      ((t.screen = s.screen ∧
          (t.sent = s.sent ∨ t.sent = s.sent.set i { x with phase := .failed, cleared := "" }) ∧
          ∀ d name, document = some d → d "name" ≠ some (.string name)) ∨
        ∃ d name r, document = some d ∧ d "name" = some (.string name) ∧ x.Stores r ∧
          t.screen.commentTextField = "" ∧
          t.sent = s.sent.set i
            { x with phase := .writing r, cleared := s.screen.commentTextField }) := by
  simp only [react] at hs
  split at hs
  swap
  · cases hs
  next x hi =>
  split at hs
  swap
  · cases hs
  next commentID opID message hphase =>
  cases hs
  have hx := h x (List.mem_of_getElem? hi)
  simp only [SentOK, hphase] at hx
  obtain ⟨hcleared, _, _, hk⟩ := hx
  cases hk
  refine ⟨x, _, hi, hphase, hcleared, ?_⟩
  cases document with
  | none =>
    refine .inl ⟨rfl, .inr ?_, fun d name hd => by cases hd⟩
    simp only [CommentsViewController.userReply, answered, if_true]
    rfl
  | some d =>
    cases hn : getString d "name" with
    | error f =>
      have hr : s.screen.userReply { date := date } commentID opID (trimmed x.text) (some d) =
          .error f := by
        simp only [CommentsViewController.userReply, hn]
        rfl
      rw [hr]
      refine .inl ⟨rfl, .inl rfl, ?_⟩
      rintro _ name hd hname
      cases hd
      rw [getString_eq_ok.2 hname] at hn
      cases hn
    | ok opName =>
      have hr : s.screen.userReply { date := date } commentID opID (trimmed x.text) (some d) =
          .ok ({ s.screen with commentTextField := "" }, [.request (.setData .comments commentID
            (commentDocument commentID (trimmed x.text) opName opID s.screen.postID date)
              .commentSet)]) := by
        simp only [CommentsViewController.userReply, hn]
        rfl
      rw [hr]
      refine .inr ⟨d, opName, _, rfl, getString_eq_ok.1 hn,
        ⟨commentID, opName, opID, s.screen.postID, date, rfl⟩, rfl, ?_⟩
      simp only [answered]
      split_ifs with hempty
      · rw [← hempty]
        rfl
      · rfl

/-- The completion of a write settles its press and leaves the field. -/
theorem completed_cases {i : ℕ} {error : Option String}
    (hs : s.react (.completed i error) = some t) :
    ∃ x r, s.sent[i]? = some x ∧ x.phase = .writing r ∧
      t.screen.commentTextField = s.screen.commentTextField ∧
      t.sent = s.sent.set i { x with phase := if error = none then .stored r else .failed } := by
  simp only [react] at hs
  split at hs
  swap
  · cases hs
  next x hi =>
  split at hs
  swap
  · cases hs
  next r hphase =>
  cases hs
  refine ⟨x, r, hi, hphase, ?_, rfl⟩
  cases error <;> rfl

/-- A press leaves the field; where it goes through, its text will be sent. -/
theorem sendPressed_cases {env : Env} (hs : s.react (.sendPressed env) = some t) :
    t.sent = s.sent ∨ ∃ commentID opID, t.sent = s.sent ++
      [{ text := s.screen.commentTextField,
         phase := .reading
           (.commentUser commentID opID (trimmed s.screen.commentTextField)) }] := by
  cases hs
  simp only [CommentsViewController.sendCommentPressed]
  split_ifs
  · exact .inl (List.append_nil _)
  · cases hu : env.uid with
    | error f => exact .inl rfl
    | ok opID => exact .inr ⟨env.uuid, opID, rfl⟩

theorem commentsChanged_sent {result : Except String (List Document)}
    (hs : s.react (.commentsChanged result) = some t) : t.sent = s.sent := by
  simp only [react] at hs
  split at hs <;> cases hs <;> rfl

theorem inv_step (h : s.Inv) (hs : s.step e = some t) : t.Inv := by
  have hset : ∀ {i : ℕ} {y : SentComment}, t.sent = s.sent.set i y → SentOK y → t.Inv := by
    intro i y ht hy x hx
    rw [ht] at hx
    rcases List.mem_or_eq_of_mem_set hx with hx | rfl
    · exact h x hx
    · exact hy
  replace hs := react_of_step hs
  cases e with
  | textChanged text =>
    cases hs
    exact h
  | sendPressed env =>
    rcases sendPressed_cases hs with ht | ⟨commentID, opID, ht⟩
    · rwa [Inv, ht]
    · intro x hx
      rw [ht] at hx
      rcases List.mem_append.1 hx with hx | hx
      · exact h x hx
      · rw [List.mem_singleton.1 hx]
        exact ⟨rfl, commentID, opID, rfl⟩
  | replied i document date =>
    obtain ⟨x, k, hi, -, -, ⟨-, ht | ht, -⟩ | ⟨d, name, r, -, -, hr, -, ht⟩⟩ := replied_cases h hs
    · rwa [Inv, ht]
    · exact hset ht trivial
    · exact hset ht hr
  | completed i error =>
    obtain ⟨x, r, hi, hphase, -, ht⟩ := completed_cases hs
    have hr := h x (List.mem_of_getElem? hi)
    simp only [SentOK, hphase] at hr
    refine hset ht ?_
    cases error
    · exact hr
    · trivial
  | commentsChanged result => rwa [Inv, commentsChanged_sent hs]

/-- An event that is no completion of a press. -/
def IsInput : Event → Prop
  | .replied .. => False
  | .completed .. => False
  | _ => True

theorem keepsInput_of_isInput (he : IsInput e) : s.KeepsInput e :=
  fun _ _ => ⟨fun _ _ _ _ heq => by subst heq; exact he.elim,
    fun _ _ _ heq => by subst heq; exact he.elim⟩

theorem fieldIsEmpty_of_isInput (he : IsInput e) : s.FieldIsEmpty e :=
  fun _ _ _ _ heq => by subst heq; exact he.elim

theorem fieldRests_of_isInput (he : IsInput e) : s.FieldRests e :=
  ⟨fun _ _ _ _ _ heq => by subst heq; exact he.elim,
    fun _ _ _ heq => by subst heq; exact he.elim⟩

/-- While a press is being answered nothing of it is stored, so what is cleared then is lost if
`setData` fails. -/
theorem keepsInput_iff (h : s.Inv) (hs : s.step e = some t) :
    s.KeepsInput e ↔ s.FieldIsEmpty e := by
  have ht : ∀ u, s.step e = some u ↔ u = t := fun u => by rw [hs, Option.some.injEq, eq_comm]
  cases e with
  | replied i document date =>
    simp only [KeepsInput, ht, forall_eq]
    obtain ⟨x, k, hi, hphase, -, ⟨hscreen, -, hno⟩ | ⟨d, name, r, rfl, hname, -, hfield, -⟩⟩ :=
      replied_cases h (react_of_step hs)
    · refine iff_of_true ⟨fun _ _ _ _ _ _ => .inl ?_, fun _ _ _ heq => (by cases heq)⟩ ?_
      · rw [hscreen]
      · intro _ d name _ heq hname
        cases heq
        exact absurd hname (hno d name rfl)
    · have hunstored : ¬ x.Stored := fun ⟨r, hr, _⟩ => by rw [hphase] at hr; cases hr
      constructor
      · intro hk _ _ _ _ heq _
        cases heq
        rcases hk.1 i (some d) date x rfl hi with hsame | ⟨-, hstored⟩
        · rw [← hsame, hfield]
        · exact absurd hstored hunstored
      · intro hempty
        refine ⟨fun _ _ _ _ _ _ => .inl ?_, fun _ _ _ heq => (by cases heq)⟩
        rw [hfield, hempty i d name date rfl hname]
  | completed i error =>
    simp only [KeepsInput, ht, forall_eq]
    obtain ⟨-, -, -, -, hfield, -⟩ := completed_cases (react_of_step hs)
    exact iff_of_true ⟨fun _ _ _ _ heq => (by cases heq), fun _ _ _ _ _ => .inl hfield⟩
      fun _ _ _ _ heq => (by cases heq)
  | textChanged =>
    exact iff_of_true (keepsInput_of_isInput trivial) (fieldIsEmpty_of_isInput trivial)
  | sendPressed =>
    exact iff_of_true (keepsInput_of_isInput trivial) (fieldIsEmpty_of_isInput trivial)
  | commentsChanged =>
    exact iff_of_true (keepsInput_of_isInput trivial) (fieldIsEmpty_of_isInput trivial)

/-- A step that clears nothing for any press keeps what was cleared so far. -/
theorem keeps_iff_of_isInput (he : IsInput e) (hs : t.Keeps ↔ s.Keeps) :
    t.Keeps ↔ s.Keeps ∧ s.FieldRests e :=
  hs.trans (and_iff_left (fieldRests_of_isInput he)).symm

/-- Over a step: what is cleared has to be the text of the press, and the write must not fail for
which something was cleared. -/
theorem keeps_iff (h : s.Inv) (hs : s.step e = some t) : t.Keeps ↔ s.Keeps ∧ s.FieldRests e := by
  replace hs := react_of_step hs
  cases e with
  | textChanged text =>
    cases hs
    exact keeps_iff_of_isInput trivial Iff.rfl
  | sendPressed env =>
    refine keeps_iff_of_isInput trivial ?_
    rcases sendPressed_cases hs with ht | ⟨commentID, opID, ht⟩
    · rw [Keeps, Keeps, ht]
    · rw [Keeps, Keeps, ht, List.forall_mem_append, List.forall_mem_singleton]
      exact and_iff_left (.inl rfl)
  | replied i document date =>
    obtain ⟨x, k, hi, -, hcleared, ⟨-, ht, hno⟩ | ⟨d, name, r, rfl, hname, hr, -, ht⟩⟩ :=
      replied_cases h hs
    · have hrests : s.FieldRests (.replied i document date) := by
        refine ⟨fun _ d name _ _ heq hname => ?_, fun _ _ _ heq => (by cases heq)⟩
        cases heq
        exact absurd hname (hno d name rfl)
      rw [and_iff_left hrests]
      rcases ht with ht | ht
      · rw [Keeps, Keeps, ht]
      · rw [Keeps, Keeps, ht, forall_mem_set_iff hi fun _ => .inl hcleared]
        exact and_iff_left (.inl rfl)
    · rw [Keeps, Keeps, ht, forall_mem_set_iff hi fun _ => .inl hcleared]
      refine and_congr_right fun _ => ?_
      constructor
      · intro hk
        refine ⟨fun _ _ _ _ y heq _ hy => ?_, fun _ _ _ heq => (by cases heq)⟩
        cases heq
        cases hi.symm.trans hy
        exact hk.imp_right fun htext => htext.1
      · intro hrests
        exact (hrests.1 i d name date x rfl hname hi).imp_right fun htext =>
          ⟨htext, .inr ⟨r, rfl, hr⟩⟩
  | completed i error =>
    obtain ⟨x, r, hi, hphase, -, ht⟩ := completed_cases hs
    have hr := h x (List.mem_of_getElem? hi)
    simp only [SentOK, hphase] at hr
    cases error with
    | none =>
      have hrests : s.FieldRests (.completed i none) :=
        ⟨fun _ _ _ _ _ heq => (by cases heq), fun _ _ _ heq => (by cases heq)⟩
      rw [Keeps, ht, forall_mem_set_iff hi, and_iff_left hrests]
      · refine and_iff_left_of_imp fun hk => ?_
        exact (hk x (List.mem_of_getElem? hi)).imp_right fun htext =>
          ⟨htext.1, .inl ⟨r, rfl, hr⟩⟩
      · exact fun hy => hy.imp_right fun htext => ⟨htext.1, .inr ⟨r, hphase, hr⟩⟩
    | some error =>
      rw [Keeps, Keeps, ht, forall_mem_set_iff hi]
      · refine and_congr_right fun _ => ?_
        constructor
        · rintro (hempty | ⟨-, ⟨_, hfail, -⟩ | ⟨_, hfail, -⟩⟩)
          · refine ⟨fun _ _ _ _ _ heq => (by cases heq), fun _ _ y heq hy => ?_⟩
            cases heq
            cases hi.symm.trans hy
            exact hempty
          · cases hfail
          · cases hfail
        · exact fun hrests => .inl (hrests.2 i error x rfl hi)
      · rintro (hempty | ⟨-, ⟨_, hfail, -⟩ | ⟨_, hfail, -⟩⟩)
        · exact .inl hempty
        · cases hfail
        · cases hfail
  | commentsChanged result =>
    refine keeps_iff_of_isInput trivial ?_
    rw [Keeps, Keeps, commentsChanged_sent hs]

theorem inv_viewDidLoad (postID opName : String) : (viewDidLoad postID opName).Inv :=
  fun _ hx => by cases hx

theorem inv_reachable {postID opName : String} (h : (commentForm postID opName).Reachable s) :
    s.Inv :=
  h.induct (fun _ h => h ▸ inv_viewDidLoad postID opName) fun _ _ _ _ hi _ hs => inv_step hi hs

end CommentForm

/-! ## Both screens -/

/-- **Input is discarded by completions only once it is stored** if and only if, on the upload
screen, every success finds each part of the contents empty or as it was at its press, and stored;
and, on the comments screen, every answer with a user document finds an empty field. Where a comment
may be cleared before the result of its `setData`, that answer may also find the text of its press,
as long as the `setData` does not fail. -/
theorem input_kept (postID opName : String) (es : List UploadForm.Event) (t : UploadForm)
    (es' : List CommentForm.Event) (u : CommentForm) :
    (uploadForm.Steps UploadForm.KeepsInput {} es t ↔
      uploadForm.Steps UploadForm.DraftRests {} es t) ∧
    ((commentForm postID opName).Steps CommentForm.KeepsInput (.viewDidLoad postID opName) es' u ↔
      (commentForm postID opName).Steps CommentForm.FieldIsEmpty (.viewDidLoad postID opName) es'
        u) ∧
    ((commentForm postID opName).Steps (fun _ _ => True) (.viewDidLoad postID opName) es' u ∧
        u.Keeps ↔
      (commentForm postID opName).Steps CommentForm.FieldRests (.viewDidLoad postID opName) es'
        u) := by
  refine ⟨⟨fun h => ?_, fun h => ?_⟩, ⟨fun h => ?_, fun h => ?_⟩, ?_⟩
  · exact h.congr (I := UploadForm.Inv) UploadForm.initial_inv fun s e t hI hs hC =>
      ⟨(UploadForm.keepsInput_iff hI hs).1 hC, UploadForm.inv_step hI hs⟩
  · exact h.congr (I := UploadForm.Inv) UploadForm.initial_inv fun s e t hI hs hC =>
      ⟨(UploadForm.keepsInput_iff hI hs).2 hC, UploadForm.inv_step hI hs⟩
  · exact h.congr (I := CommentForm.Inv) (CommentForm.inv_viewDidLoad _ _) fun s e t hI hs hC =>
      ⟨(CommentForm.keepsInput_iff hI hs).1 hC, CommentForm.inv_step hI hs⟩
  · exact h.congr (I := CommentForm.Inv) (CommentForm.inv_viewDidLoad _ _) fun s e t hI hs hC =>
      ⟨(CommentForm.keepsInput_iff hI hs).2 hC, CommentForm.inv_step hI hs⟩
  · exact Machine.steps_and_iff (.init rfl) (fun x hx => by cases hx) fun s e s' hr hs =>
      CommentForm.keeps_iff (CommentForm.inv_reachable hr) hs

/-- **Discarded input.** A title typed while the post before is being written is cleared with it,
and a comment whose `setData` fails is gone from the field. -/
theorem input_discarded :
    (∃ t, uploadForm.Steps (fun _ _ => True) {}
        [.titleChanged "Sketch", .categoryPressed .artButton,
          .uploadPressed { currentUser := some "ann" },
          .replied 0 (some UploadForm.annDocument) 0, .titleChanged "Song"] t ∧
      ¬ t.KeepsInput (.completed 0 none)) ∧
    ∃ u, (commentForm "post" "Ann").Steps (fun _ _ => True) (.viewDidLoad "post" "Ann")
        [.textChanged "Nice", .sendPressed { currentUser := some "ann" },
          .replied 0 (some UploadForm.annDocument) 0,
          .completed 0 (some "Missing or insufficient permissions.")] u ∧
      u.screen.commentTextField = "" ∧ ¬ u.Keeps := by
  constructor
  · obtain ⟨t, ht, hp⟩ := uploadForm.exists_of_run {}
      [.titleChanged "Sketch", .categoryPressed .artButton,
        .uploadPressed { currentUser := some "ann" },
        .replied 0 (some UploadForm.annDocument) 0, .titleChanged "Song"]
      (fun t => t.posts.head?.any fun post => decide (t.fault = none ∧
        t.screen.titleTextField = "Song" ∧ post.press.contents.titleText = "Sketch")) (by decide)
    obtain ⟨post, hhead, hp⟩ := (Option.any_eq_true _ _).1 hp
    obtain ⟨hfault, hsong, hsketch⟩ := of_decide_eq_true hp
    have hi : t.posts[0]? = some post := by rw [← List.head?_eq_getElem?, hhead]
    have hs : ∃ u, t.step (.completed 0 none) = some u := by
      have hlt := (List.getElem?_eq_some_iff.1 hi).1
      simp only [UploadForm.step, if_pos hfault, UploadForm.react, if_pos hlt, Option.some.injEq,
        exists_eq']
    obtain ⟨u, hu⟩ := hs
    refine ⟨t, ht, fun hk => ?_⟩
    rw [UploadForm.keepsInput_iff (UploadForm.inv_reachable (ht.reachable (.init rfl))) hu] at hk
    have htitle : t.screen.contents.titleText = "Song" := hsong
    rcases (hk 0 post rfl hi).titleText with hempty | hdraft
    · exact absurd (htitle.symm.trans hempty) (by decide)
    · exact absurd (htitle.symm.trans (hdraft.trans hsketch)) (by decide)
  · obtain ⟨u, hu, hp⟩ := (commentForm "post" "Ann").exists_of_run (.viewDidLoad "post" "Ann")
      [.textChanged "Nice", .sendPressed { currentUser := some "ann" },
        .replied 0 (some UploadForm.annDocument) 0,
        .completed 0 (some "Missing or insufficient permissions.")]
      (fun u => decide (u.screen.commentTextField = "") && u.sent.any fun x =>
        decide (x.cleared = "Nice") && x.phase.isFailed) (by decide)
    simp only [Bool.and_eq_true, decide_eq_true_eq, List.any_eq_true] at hp
    obtain ⟨hfield, x, hx, hcleared, hphase⟩ := hp
    refine ⟨u, hu, hfield, fun hk => ?_⟩
    rcases hk x hx with hempty | ⟨-, ⟨r, hr, -⟩ | ⟨r, hr, -⟩⟩
    · rw [hcleared] at hempty
      exact absurd hempty (by decide)
    · rw [hr] at hphase
      cases hphase
    · rw [hr] at hphase
      cases hphase

end ArtsExplorer
