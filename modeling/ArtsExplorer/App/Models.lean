import ArtsExplorer.App.Platform

/-!
# Posts, comments and user documents

The two structs of the app and the readers that rebuild them from Firestore documents. The seven
post readers (two in `HomeViewController`, one each in `SavedViewController`,
`OtherProfileViewController`, `UserProfileViewController` and `ModerationPostViewController`) have
the same body, `AEPost.ofDocument`: a force cast for every field but `approved`, which is set to
`true`. The comment readers differ only in the constant they set `approved` to.

The documents the app writes are `postDocument`, `commentDocument` and `userDocument`.
-/

namespace ArtsExplorer

open Foundations

structure AEPost where
  id : String
  opID : String
  opName : String
  approved : Bool
  categories : List String
  mediaID : String
  title : String
  description : String
  time : ℕ
  deriving DecidableEq

structure Comment where
  commentID : String
  message : String
  commenterName : String
  commenterID : String
  approved : Bool
  postID : String
  time : ℕ
  deriving DecidableEq

/-- The loop body of every post loader. -/
def AEPost.ofDocument (document : Document) : Except Fault AEPost := do
  let postID ← getString document "id"
  let postOPID ← getString document "opID"
  let postOPName ← getString document "opName"
  let postCategories ← getArray document "categories"
  let mediaID ← getString document "mediaID"
  let postTitle ← getString document "title"
  let postDescription ← getString document "description"
  let postTime ← getTimestamp document "time"
  return { id := postID, opID := postOPID, opName := postOPName, approved := true,
           categories := postCategories, mediaID := mediaID, title := postTitle,
           description := postDescription, time := postTime }

/-- The loop body of both comment loaders; `approved` is the constant each puts in the struct. -/
def Comment.ofDocument (approved : Bool) (document : Document) : Except Fault Comment := do
  let storedCommentID ← getString document "commentID"
  let storedMessage ← getString document "message"
  let storedCommenterName ← getString document "commenterName"
  let storedCommenterID ← getString document "commenterID"
  let storedPostID ← getString document "postID"
  let storedTime ← getTimestamp document "time"
  return { commentID := storedCommentID, message := storedMessage,
           commenterName := storedCommenterName, commenterID := storedCommenterID,
           approved := approved, postID := storedPostID, time := storedTime }

/-- The loop of a loader: rebuild every document, in order. -/
def decodeAll {α : Type} (decode : Document → Except Fault α) :
    List Document → Except Fault (List α)
  | [] => .ok []
  | d :: ds => do
    let x ← decode d
    let xs ← decodeAll decode ds
    return x :: xs

/-! ## The documents the app writes -/

/-- The dictionary of `UploadViewController.uploadPressed`. -/
def postDocument (postUUID opID opName : String) (chosenCategories : List String)
    (mediaID titleText descriptionText : String) (date : ℕ) : List (String × Value) :=
  [("id", .string postUUID), ("opID", .string opID), ("opName", .string opName),
   ("approved", .bool false), ("categories", .array chosenCategories),
   ("mediaID", .string mediaID), ("title", .string titleText),
   ("description", .string descriptionText), ("time", .timestamp date)]

/-- The dictionary of `CommentsViewController.sendCommentPressed`. -/
def commentDocument (commentID message opName opID postID : String) (date : ℕ) :
    List (String × Value) :=
  [("commentID", .string commentID), ("message", .string message),
   ("commenterName", .string opName), ("commenterID", .string opID), ("approved", .bool false),
   ("postID", .string postID), ("time", .timestamp date)]

/-- The dictionary of `SignUpViewController.signUpPressed`. -/
def userDocument (uid nameText : String) : List (String × Value) :=
  [("id", .string uid), ("name", .string nameText), ("mod", .bool false),
   ("savedPosts", .array []), ("avatarID", .string ""), ("bio", .string "")]

/-! ## Reading back -/

theorem AEPost.ofDocument_eq_ok {d : Document} {p : AEPost} :
    AEPost.ofDocument d = .ok p ↔
      d "id" = some (.string p.id) ∧ d "opID" = some (.string p.opID) ∧
      d "opName" = some (.string p.opName) ∧ d "categories" = some (.array p.categories) ∧
      d "mediaID" = some (.string p.mediaID) ∧ d "title" = some (.string p.title) ∧
      d "description" = some (.string p.description) ∧ d "time" = some (.timestamp p.time) ∧
      p.approved = true := by
  obtain ⟨id, opID, opName, approved, categories, mediaID, title, description, time⟩ := p
  simp only [AEPost.ofDocument, bind_eq_ok, pure_eq_ok, getString_eq_ok, getArray_eq_ok,
    getTimestamp_eq_ok, AEPost.mk.injEq]
  constructor
  · rintro ⟨_, h1, _, h2, _, h3, _, h4, _, h5, _, h6, _, h7, _, h8, rfl, rfl, rfl, rfl, rfl, rfl,
      rfl, rfl, rfl⟩
    exact ⟨h1, h2, h3, h4, h5, h6, h7, h8, rfl⟩
  · rintro ⟨h1, h2, h3, h4, h5, h6, h7, h8, rfl⟩
    exact ⟨_, h1, _, h2, _, h3, _, h4, _, h5, _, h6, _, h7, _, h8, rfl, rfl, rfl, rfl, rfl, rfl,
      rfl, rfl, rfl⟩

theorem Comment.ofDocument_eq_ok {a : Bool} {d : Document} {p : Comment} :
    Comment.ofDocument a d = .ok p ↔
      d "commentID" = some (.string p.commentID) ∧ d "message" = some (.string p.message) ∧
      d "commenterName" = some (.string p.commenterName) ∧
      d "commenterID" = some (.string p.commenterID) ∧ d "postID" = some (.string p.postID) ∧
      d "time" = some (.timestamp p.time) ∧ p.approved = a := by
  obtain ⟨id, message, name, commenterID, approved, postID, time⟩ := p
  simp only [Comment.ofDocument, bind_eq_ok, pure_eq_ok, getString_eq_ok, getTimestamp_eq_ok,
    Comment.mk.injEq]
  constructor
  · rintro ⟨_, h1, _, h2, _, h3, _, h4, _, h5, _, h6, rfl, rfl, rfl, rfl, rfl, rfl, rfl⟩
    exact ⟨h1, h2, h3, h4, h5, h6, rfl⟩
  · rintro ⟨h1, h2, h3, h4, h5, h6, rfl⟩
    exact ⟨_, h1, _, h2, _, h3, _, h4, _, h5, _, h6, rfl, rfl, rfl, rfl, rfl, rfl, rfl⟩

/-- The readers fail by a force cast only. -/
theorem AEPost.casts_ofDocument (d : Document) : Casts (AEPost.ofDocument d) :=
  (casts_getString d "id").bind fun _ => (casts_getString d "opID").bind fun _ =>
    (casts_getString d "opName").bind fun _ => (casts_getArray d "categories").bind fun _ =>
      (casts_getString d "mediaID").bind fun _ => (casts_getString d "title").bind fun _ =>
        (casts_getString d "description").bind fun _ => (casts_getTimestamp d "time").bind fun _ =>
          .pure _

theorem Comment.casts_ofDocument (a : Bool) (d : Document) : Casts (Comment.ofDocument a d) :=
  (casts_getString d "commentID").bind fun _ => (casts_getString d "message").bind fun _ =>
    (casts_getString d "commenterName").bind fun _ =>
      (casts_getString d "commenterID").bind fun _ =>
      (casts_getString d "postID").bind fun _ => (casts_getTimestamp d "time").bind fun _ => .pure _

theorem mem_decodeAll {α : Type} {decode : Document → Except Fault α} {ds : List Document}
    {xs : List α} (h : decodeAll decode ds = .ok xs) {x : α} (hx : x ∈ xs) :
    ∃ d ∈ ds, decode d = .ok x := by
  induction ds generalizing xs with
  | nil => cases h; cases hx
  | cons d ds ih =>
    simp only [decodeAll, bind_eq_ok, pure_eq_ok] at h
    obtain ⟨y, hy, ys, hys, rfl⟩ := h
    rcases List.mem_cons.1 hx with rfl | hx
    · exact ⟨d, List.mem_cons_self, hy⟩
    · obtain ⟨d', hd', h'⟩ := ih hys hx
      exact ⟨d', List.mem_cons_of_mem _ hd', h'⟩

/-- A loader fails where its reader does. -/
theorem decodeAll_error {α : Type} {decode : Document → Except Fault α} {ds : List Document}
    {f : Fault} (h : decodeAll decode ds = .error f) : ∃ d ∈ ds, decode d = .error f := by
  induction ds with
  | nil => cases h
  | cons d ds ih =>
    simp only [decodeAll] at h
    cases hd : decode d with
    | error f' =>
      rw [hd] at h
      cases h
      exact ⟨d, List.mem_cons_self, hd⟩
    | ok x =>
      rw [hd] at h
      cases hds : decodeAll decode ds with
      | error f' =>
        rw [hds] at h
        cases h
        obtain ⟨d', hd', h'⟩ := ih hds
        exact ⟨d', List.mem_cons_of_mem _ hd', h'⟩
      | ok xs =>
        rw [hds] at h
        cases h

end ArtsExplorer
